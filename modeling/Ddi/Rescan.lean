/-
How far back a rescan has to reach.

Walking back from the head, the first commit whose newest row the watermark
already covers is the boundary; per partition, the first plain append whose
every row its own partition's mark covers. Anything that cannot be settled
returns the fallback.
-/

import Ddi.Dedup
import Ddi.Lib.WalkBack
import Ddi.Source.LogStream
import Ddi.Stats

namespace Ddi

open Ddi.Delta
open Ddi.Source (dataAdds classify)

variable {ρ T : Type} [LT T]

/-- The larger of the maximum so far and one more bound. -/
def raiseMax (reached : Option Bound) (bound : Bound) : Bound :=
  match reached with
  | some current => if bound.lt current then current else bound
  | none => bound

/-- The highest value some files can hold; none when one of them does not say. -/
def commitMax (bounds : TimestampBounds T) (column : String) (mark : Bound) :
    List (AddFile ρ) → Option Bound → Option (Option Bound)
  | [], reached => some reached
  | file :: rest, reached =>
    match bounds.maxOfFile column mark file with
    | none => none
    | some bound => commitMax bounds column mark rest (some (raiseMax reached bound))

/-- What one commit of the walk settles. -/
def rescanLook (source : DeltaLog ρ) (bounds : TimestampBounds T) (column : String) (mark : Bound)
    (fallback maxScan version scanned : Nat) : Option Nat :=
  if maxScan ≤ scanned ∨ version < fallback then some fallback
  else
    match source.readCommitEntry version with
    | none => some fallback
    | some actions =>
      match commitMax bounds column mark (dataAdds actions) none with
      | none => some fallback
      -- a commit that added nothing says nothing about coverage
      | some none => none
      | some (some newest) => if newest.lt (bounds.lowest mark) then some (version + 1) else none

/-- The earliest source version that can still hold rows beyond the watermark. -/
def boundedRescanStart (source : DeltaLog ρ) (bounds : TimestampBounds T) (column : String)
    (watermark : T) (fallback maxScan : Nat) : Nat :=
  match bounds.boundOfScalar watermark with
  | none => fallback
  | some mark =>
    WalkBack.walkBack (rescanLook source bounds column mark fallback maxScan) fallback
      source.head 0

/-- The columns of the source that a rescan kept per partition reads, by the target's names. -/
structure SourceColumns (ρ T K P : Type) where
  /-- Whether the source has a column of a name. -/
  has : String → Bool
  /-- A row's timestamp as the target types it; none where the value does not fit. -/
  timestamp : ρ → Option T
  partition : ρ → Option P
  key : ρ → Option K
  hasKey : AddFile ρ → Bool
  /-- Whether a file can be read and has the columns. -/
  readable : AddFile ρ → Bool
  /-- The text one partition is known by. -/
  partitionKey : List String → P

/-- What one file says about whether its rows are covered. -/
inductive FileCoverage
  | covered (rows : Nat)
  | uncovered
  | unknown
  deriving DecidableEq

section Partitioned

variable {τ K P : Type}

/-- Data files a rescan may read. -/
def maxProbeFiles : Nat := 10000

def restoreOperation : String := "RESTORE"

/-- Whether a commit can stand for everything before it: a plain append, and no restore. -/
def mayProveCoverage (actions : List (Action ρ)) : Bool :=
  let restore := actions.any fun action =>
    match action with
    | .commitInfo info =>
      match (info.lookup "operation").bind Json.asStr with
      | some operation => operation.toUpper == restoreOperation
      | none => false
    | _ => false
  match classify actions with
  | .data _ => !restore
  | _ => false

/-- An integer statistic as the text its column casts to. -/
def integerText : Json → Option String
  | .num value => if -(2 ^ 63) ≤ value ∧ value < 2 ^ 64 then some (toString value) else none
  | _ => none

/-- The partition the statistics of a file give exactly; none inside when they do not, none
outside when they show a row without one. -/
def partitionFromStats (file : AddFile ρ) : List String → Option (Option (List String))
  | [] => some (some [])
  | column :: rest =>
    match file.partitionValues.lookup column with
    | some (some value) => (partitionFromStats file rest).map (Option.map (value :: ·))
    | some none => none
    | none =>
      match (statOf file.stats "nullCount" column).bind Json.asU64 with
      | some 0 =>
        match (statOf file.stats "minValues" column).bind integerText,
          (statOf file.stats "maxValues" column).bind integerText with
        | some low, some high =>
          if low = high then (partitionFromStats file rest).map (Option.map (low :: ·))
          else (partitionFromStats file rest).map fun _ => none
        | _, _ => (partitionFromStats file rest).map fun _ => none
      | some _ => none
      | none => (partitionFromStats file rest).map fun _ => none

/-- The highest of the marks, when each has a bound. -/
def highestMark (bounds : TimestampBounds T) :
    List (P × Marks.Mark T K) → Option Bound → Option (Option Bound)
  | [], reached => some reached
  | (_, mark) :: rest, reached =>
    match bounds.boundOfScalar mark.newest with
    | none => none
    | some bound =>
      highestMark bounds rest
        (match reached with
          | none => some bound
          | some high => if high.lt bound then some bound else some high)

variable [DecidableEq P]

/-- What the statistics of a file alone say about its rows. -/
def fileCoverageFromStats (bounds : TimestampBounds T) (source : SourceColumns ρ T K P)
    (columns : DedupColumns τ T K P) (dedup : Dedup T K P) (file : AddFile ρ) : FileCoverage :=
  match (file.stats.bind fun stats => stats.get "numRecords").bind Json.asU64 with
  | none => .unknown
  | some 0 => .covered 0
  | some rows =>
    match partitionFromStats file columns.partitionColumns with
    | none => .uncovered
    | some none =>
      match (highestMark bounds dedup.partitions none).bind id with
      | none => .unknown
      | some highest =>
        match bounds.minOfFile columns.timestampColumn highest file with
        | some low => if highest.provablyBelow low then .uncovered else .unknown
        | none => .unknown
    | some (some parts) =>
      match dedup.partitions.lookup (source.partitionKey parts) with
      | none => .uncovered
      | some mark =>
        match bounds.boundOfScalar mark.newest with
        | none => .unknown
        | some bound =>
          match (statOf file.stats "nullCount" columns.timestampColumn).bind Json.asU64 with
          | none => .unknown
          | some (_ + 1) => .uncovered
          | some 0 =>
            let below :=
              match bounds.maxOfFile columns.timestampColumn bound file with
              | some high => high.provablyBelow bound
              | none => false
            let above :=
              match bounds.minOfFile columns.timestampColumn bound file with
              | some low => bound.provablyBelow low
              | none => false
            if below then .covered rows else if above then .uncovered else .unknown

end Partitioned

section Walk

variable {τ T K P : Type} [LinearOrder T] [DecidableEq K] [DecidableEq P]

/-- Whether a source row's own partition's mark covers it; a tie is settled by key or not. -/
def coveredRow (source : SourceColumns ρ T K P) (dedup : Dedup T K P) (keyed : Bool) (row : ρ) :
    Bool :=
  match source.timestamp row, source.partition row with
  | some time, some partition =>
    match dedup.partitions.lookup partition with
    | none => false
    | some mark =>
      if mark.newest < time then false
      else if time = mark.newest then
        keyed &&
          match source.key row with
          | some key => decide (key ∈ mark.ties)
          | none => false
      else true
  | _, _ => false

/-- Every row of a file tested against its partition's mark. -/
def probeFile (source : SourceColumns ρ T K P) (columns : DedupColumns τ T K P)
    (dedup : Dedup T K P) (file : AddFile ρ) : FileCoverage :=
  if source.readable file then
    if file.rows.all (coveredRow source dedup (columns.key.isSome && source.hasKey file)) then
      .covered file.rows.length
    else .uncovered
  else .unknown

/-- The files the statistics leave open are read one after another; none when the budget runs
out before the answer. -/
def probeFiles (probe : AddFile ρ → FileCoverage) :
    List (AddFile ρ × FileCoverage) → Nat → Nat → Option (Bool × Nat)
  | [], budget, rows => some (decide (0 < rows), budget)
  | (_, .covered count) :: rest, budget, rows => probeFiles probe rest budget (rows + count)
  | (_, .uncovered) :: _, budget, _ => some (false, budget)
  | (_, .unknown) :: _, 0, _ => none
  | (file, .unknown) :: rest, budget + 1, rows =>
    match probe file with
    | .covered count => probeFiles probe rest budget (rows + count)
    | _ => some (false, budget)

/-- Whether every row a commit added is covered, and it added one. -/
def commitCoverage (bounds : TimestampBounds T) (source : SourceColumns ρ T K P)
    (columns : DedupColumns τ T K P) (dedup : Dedup T K P) (actions : List (Action ρ))
    (budget : Nat) : Option (Bool × Nat) :=
  let verdicts := (dataAdds actions).map fun file =>
    (file, fileCoverageFromStats bounds source columns dedup file)
  if verdicts.any (fun entry => decide (entry.2 = .uncovered)) then some (false, budget)
  else probeFiles (probeFile source columns dedup) verdicts budget 0

/-- The walk back over the commits, with the files it may still read. -/
def walkPartitioned (log : DeltaLog ρ) (bounds : TimestampBounds T)
    (source : SourceColumns ρ T K P) (columns : DedupColumns τ T K P) (dedup : Dedup T K P)
    (fallback maxScan : Nat) : Nat → Nat → Nat → Nat
  | version, scanned, budget =>
    if maxScan ≤ scanned ∨ version < fallback then fallback
    else
      match log.readCommitEntry version with
      | none => fallback
      | some actions =>
        match (if mayProveCoverage actions then
            commitCoverage bounds source columns dedup actions budget
          else some (false, budget)) with
        | none => fallback
        | some (true, _) => version + 1
        | some (false, budget) =>
          match version with
          | 0 => fallback
          | earlier + 1 =>
            walkPartitioned log bounds source columns dedup fallback maxScan earlier
              (scanned + 1) budget

/-- `boundedRescanStart` for a cut-off kept per partition. -/
def boundedRescanStartPartitioned (log : DeltaLog ρ) (bounds : TimestampBounds T)
    (source : SourceColumns ρ T K P) (columns : DedupColumns τ T K P) (dedup : Dedup T K P)
    (fallback maxScan : Nat) : Nat :=
  if !dedup.isPartitioned || dedup.isInert then fallback
  else if (columns.timestampColumn :: columns.partitionColumns).all source.has then
    walkPartitioned log bounds source columns dedup fallback maxScan log.head 0 maxProbeFiles
  else fallback

end Walk

end Ddi
