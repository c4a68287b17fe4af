/-
Coverage windows: why one is open, what a commit made inside it records, and
when it closes.
-/

import Ddi.Delta.Log

namespace Ddi

open Ddi.Delta
open Ddi.Source (StreamCursor)

inductive CoverageReason
  | rebuilt
  | bootstrap
  | sourceReplaced
  deriving DecidableEq

namespace CoverageReason

def asStr : CoverageReason → String
  | rebuilt => "rebuilt"
  | bootstrap => "bootstrap"
  | sourceReplaced => "source_replaced"

def parse (text : String) : Option CoverageReason :=
  if text = "rebuilt" then some rebuilt
  else if text = "bootstrap" then some bootstrap
  else if text = "source_replaced" then some sourceReplaced
  else none

theorem parse_asStr (reason : CoverageReason) : parse reason.asStr = some reason := by
  cases reason <;> rfl

end CoverageReason

def cutoffReasonKey : String := "ddi.cutoff.reason"

def cutoffSourceThroughKey : String := "ddi.cutoff.sourceThrough"

def cutoffPartitionColumnsKey : String := "ddi.cutoff.partitionColumns"

def cutoffPartitionedReasonSuffix : String := ".partitioned"

/-- A coverage window, as a commit made inside it records it. -/
structure RecordedCutoff where
  reason : CoverageReason
  sourceThrough : Option Nat
  partitionColumns : List String
  deriving DecidableEq

def stripSuffix (text suffix : String) : Option String :=
  if suffix.toList.isSuffixOf text.toList then
    some (String.ofList (text.toList.take (text.toList.length - suffix.toList.length)))
  else none

namespace RecordedCutoff

def toCommitMetadata (cutoff : RecordedCutoff) : CommitInfo :=
  (cutoffReasonKey, .str
      (if cutoff.partitionColumns.isEmpty then cutoff.reason.asStr
        else cutoff.reason.asStr ++ cutoffPartitionedReasonSuffix)) ::
    (match cutoff.sourceThrough with
      | some through => [(cutoffSourceThroughKey, .num through)]
      | none => []) ++
    (if cutoff.partitionColumns.isEmpty then []
      else [(cutoffPartitionColumnsKey, .arr (cutoff.partitionColumns.map .str))])

/-- The reason a commit names, and whether it names a window kept per partition. -/
def readReason (raw : Json) : Option (CoverageReason × Bool) :=
  match raw.asStr with
  | none => none
  | some text =>
    match stripSuffix text cutoffPartitionedReasonSuffix with
    | some base => (CoverageReason.parse base).map fun reason => (reason, true)
    | none => (CoverageReason.parse text).map fun reason => (reason, false)

def readThrough (info : CommitInfo) : Option (Option Nat) :=
  match info.lookup cutoffSourceThroughKey with
  | none => some none
  | some raw => raw.asU64.map some

def readPartitionColumns (info : CommitInfo) : Option (List String) :=
  match info.lookup cutoffPartitionColumnsKey with
  | none => some []
  | some raw => raw.asArray.bind fun items => items.mapM Json.asStr

/-- The window a commit recorded, if it recorded one this build can read. -/
def fromCommitInfo (info : CommitInfo) : Option RecordedCutoff :=
  match info.lookup cutoffReasonKey with
  | none => none
  | some raw =>
    match readReason raw, readThrough info, readPartitionColumns info with
    | some (reason, partitioned), some through, some columns =>
      if partitioned = columns.isEmpty then none
      else some { reason := reason, sourceThrough := through, partitionColumns := columns }
    | _, _, _ => none

theorem readReason_written (reason : CoverageReason) (partitioned : Bool) :
    readReason (.str (if partitioned then reason.asStr ++ cutoffPartitionedReasonSuffix
      else reason.asStr)) = some (reason, partitioned) := by
  cases reason <;> cases partitioned <;> decide

end RecordedCutoff

/-- Whether a window that closes after a source version still holds at a cursor. -/
def cutoffApplies (through : Nat) (cursor : StreamCursor) : Bool :=
  decide (cursor.version ≤ through)

/-- Whether a batch with rows beyond the watermark, or one that reads past the window's
head, closes the window. -/
def windowClosesAfter (through : Option Nat) (end_ : StreamCursor) (beyond : Nat) : Bool :=
  decide (0 < beyond) ||
    match through with
    | some head => !cutoffApplies head end_
    | none => false

end Ddi
