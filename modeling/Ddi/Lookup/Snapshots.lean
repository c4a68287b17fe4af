/-
The snapshot of a lookup table that a source batch is enriched from: the newest version strictly
before the millisecond of the source commit. The storage answers as of the moment it is asked.
-/

import Ddi.Error
import Mathlib.Data.List.Infix

namespace Ddi.Lookup

open Ddi.Delta

/-- A time, in nanoseconds, whose milliseconds are a 64-bit integer. -/
structure DateTime where
  nanos : Int
  within : -(2 ^ 63) < nanos / 1000000
  deriving DecidableEq

def DateTime.timestampMillis (time : DateTime) : Int := time.nanos / 1000000

inductive LookupTableIdChangePolicy
  | strict
  | useCurrent
  deriving DecidableEq

structure ResolvedLookup where
  name : String
  uri : String
  preHistoryVersion : Option Nat
  tableIdChangePolicy : LookupTableIdChangePolicy

/-- A table loaded at a version: the commits up to it. -/
structure DeltaTable (ρ : Type) where
  commits : List (Commit ρ)

def DeltaTable.version {ρ : Type} (table : DeltaTable ρ) : Option Nat :=
  match table.commits with
  | [] => none
  | _ :: later => some later.length

def tableId {ρ : Type} (table : DeltaTable ρ) : Option String :=
  (table.commits.reverse.findSome? fun commit => DeltaLog.metadataOf commit.actions).bind
    Metadata.id

/-- An error of opening or loading a table. -/
inductive StorageError
  | invalidVersion (text : String)
  | notATable (text : String)
  /-- An object that the store does not have. -/
  | notFound (text : String)
  | config (message : String)
  /-- Any other, by its text. -/
  | other (text : String)

def StorageError.text : StorageError → String
  | .invalidVersion text => s!"delta error: {text}"
  | .notATable text => s!"delta error: {text}"
  | .notFound text => s!"delta error: {text}"
  | .config message => s!"config error: {message}"
  | .other text => text

inductive ObjectStoreError
  | notFound (text : String)
  | other (text : String)

def ObjectStoreError.text : ObjectStoreError → String
  | .notFound text => text
  | .other text => text

/-- What the storage answers about a table, by its URI and the moment. -/
structure Storage (ρ : Type) where
  opened : String → Nat → Except StorageError (DeltaTable ρ)
  openAtDatetime : String → Nat → DateTime → Except StorageError (DeltaTable ρ)
  openAtVersion : String → Nat → Nat → Except StorageError (DeltaTable ρ)
  /-- When the log object of a version was last modified. -/
  lookupLogTimestamp : String → Nat → Nat → Except ObjectStoreError DateTime

/-- The texts of values, and the times that can be spelt. -/
structure Outside where
  quoted : String → String
  shown : DateTime → String
  fromTimestampMillis : Int → Option DateTime

/-- One loaded version, as a batch is enriched from it. -/
structure LookupSnapshot (ρ : Type) where
  name : String
  version : Nat
  tableId : Option String
  usedPreHistory : Bool
  usedCurrent : Bool
  table : DeltaTable ρ

structure LookupSnapshots (ρ : Type) where
  selected : LookupSnapshot ρ
  head : LookupSnapshot ρ

/-- Why no snapshot was selected. -/
inductive SnapshotSelectionError
  | other (error : Error)
  | historyUnavailable (reason : String)

def containsText (text part : String) : Bool := decide (part.toList <:+: text.toList)

/-- Whether an error is of history that is no longer retained. -/
def missingHistoricalSnapshot : StorageError → Bool
  | .invalidVersion _ => true
  | .notATable _ => true
  | .notFound _ => true
  | .config message =>
      containsText message "cannot load lookup" &&
        containsText message "the log no longer reaches back to version 0"
  | .other _ => false

variable {ρ : Type} (outside : Outside) (storage : Storage ρ) (lookup : ResolvedLookup)

def lookupNamed : String := s!"lookup {outside.quoted lookup.name}"

def lookupAt : String := s!"{lookupNamed outside lookup} at {outside.quoted lookup.uri}"

def historicalSnapshotLoadError (stage : String) (error : StorageError) :
    SnapshotSelectionError :=
  if missingHistoricalSnapshot error then
    .historyUnavailable s!"{stage} could not load {lookupAt outside lookup}: {error.text}"
  else .other (.config s!"{lookupAt outside lookup}: {error.text}")

def historicalLogTimestampError (version : Nat) : ObjectStoreError → SnapshotSelectionError
  | .notFound text =>
      .historyUnavailable
        (s!"the Delta log entry for {lookupNamed outside lookup} version {version} is no longer " ++
          s!"retained: {text}")
  | .other text =>
      .other (.other
        (s!"cannot read Delta-log timestamp for {lookupNamed outside lookup} commit {version}: " ++
          text))

def noDeltaVersion : Error := .config s!"{lookupAt outside lookup} has no Delta version"

def openHead (moment : Nat) : Except Error (DeltaTable ρ) :=
  match storage.opened lookup.uri moment with
  | .ok table => .ok table
  | .error error =>
      .error (.config s!"{lookupAt outside lookup}: {error.text}")

/-- On through the versions before the source millisecond, `left` of them at most. -/
def advance (sourceMillis : Int) :
    Nat → Nat → Nat → Except SnapshotSelectionError Nat × Nat
  | 0, version, moment => (.ok version, moment)
  | left + 1, version, moment =>
      match storage.lookupLogTimestamp lookup.uri moment (version + 1) with
      | .error error =>
          (.error (historicalLogTimestampError outside lookup (version + 1) error), moment + 1)
      | .ok time =>
          if sourceMillis ≤ time.timestampMillis then (.ok version, moment + 1)
          else advance sourceMillis left (version + 1) (moment + 1)

/-- The version to load, and whether it is the configured baseline. -/
def chooseVersion (asOf : DateTime) (head selected : Nat) (selectedMillis : Int) (moment : Nat) :
    Except SnapshotSelectionError (Nat × Bool) × Nat :=
  if asOf.timestampMillis ≤ selectedMillis then
    match lookup.preHistoryVersion with
    | none =>
        -- time travel clamps to the oldest version left, and version 0 is only missing when removed
        if 0 < selected then
          (.error (.historyUnavailable
            (s!"the oldest commit still retained by {lookupNamed outside lookup} is version " ++
              s!"{selected}, which is not before source commit time {outside.shown asOf}; " ++
              "everything earlier has left its Delta log")), moment)
        else
          (.error (.other (.config
            (s!"{lookupNamed outside lookup} has no retained snapshot strictly before source " ++
              s!"commit time {outside.shown asOf}. Materialize the lookup before the source " ++
              "history, start the pipeline after it, or configure an explicit " ++
              "pre_history_version whose historical contents are approved for this backfill."))),
            moment)
    | some baseline =>
        if head < baseline then
          (.error (.other (.config
            (s!"{lookupNamed outside lookup} configures pre_history_version {baseline}, but its " ++
              s!"current head is {head}"))), moment)
        else (.ok (baseline, true), moment)
  else
    match advance outside storage lookup asOf.timestampMillis (head - selected) selected moment with
    | (.error error, moment) => (.error error, moment)
    | (.ok version, moment) => (.ok (version, false), moment)

/-- The millisecond before a source commit's. -/
def cutoffOf (asOf : DateTime) : Except SnapshotSelectionError DateTime :=
  match outside.fromTimestampMillis (max (asOf.timestampMillis - 1) (-(2 ^ 63))) with
  | some cutoff => .ok cutoff
  | none =>
      .error (.other (.config
        (s!"source timestamp {outside.shown asOf} cannot be represented at millisecond " ++
          s!"precision for {lookupNamed outside lookup}")))

def snapshotsOnce (asOf : DateTime) (moment : Nat) :
    Except SnapshotSelectionError (LookupSnapshots ρ) × Nat :=
  match openHead outside storage lookup moment with
  | .error error => (.error (.other error), moment + 1)
  | .ok headTable =>
    match headTable.version with
    | none => (.error (.other (noDeltaVersion outside lookup)), moment + 1)
    | some head =>
      match cutoffOf outside lookup asOf with
      | .error error => (.error error, moment + 1)
      | .ok cutoff =>
        match storage.openAtDatetime lookup.uri (moment + 1) cutoff with
        | .error error =>
            (.error (historicalSnapshotLoadError outside lookup "timestamp selection" error),
              moment + 2)
        | .ok selected =>
          match selected.version with
          | none =>
              (.error (.other (.config
                s!"{lookupAt outside lookup} has no Delta version after loading its snapshot")),
                moment + 2)
          | some version =>
            match storage.lookupLogTimestamp lookup.uri (moment + 2) version with
            | .error error =>
                (.error (historicalLogTimestampError outside lookup version error), moment + 3)
            | .ok time =>
              match chooseVersion outside storage lookup asOf head version time.timestampMillis
                  (moment + 3) with
              | (.error error, moment) => (.error error, moment)
              | (.ok (version, usedPreHistory), moment) =>
                match storage.openAtVersion lookup.uri moment version with
                | .error error =>
                    (.error (historicalSnapshotLoadError outside lookup "version selection" error),
                      moment + 1)
                | .ok table =>
                    (.ok {
                      selected := {
                        name := lookup.name
                        version
                        tableId := tableId table
                        usedPreHistory
                        usedCurrent := false
                        table }
                      head := {
                        name := lookup.name
                        version := head
                        tableId := tableId headTable
                        usedPreHistory := false
                        usedCurrent := false
                        table := headTable } }, moment + 1)

/-- The head for both, loaded once. -/
def currentSnapshots (moment : Nat) : Except Error (LookupSnapshots ρ) × Nat :=
  match openHead outside storage lookup moment with
  | .error error => (.error error, moment + 1)
  | .ok table =>
    match table.version with
    | none => (.error (noDeltaVersion outside lookup), moment + 1)
    | some version =>
        (.ok {
          selected := {
            name := lookup.name
            version
            tableId := tableId table
            usedPreHistory := false
            usedCurrent := true
            table }
          head := {
            name := lookup.name
            version
            tableId := tableId table
            usedPreHistory := false
            usedCurrent := false
            table } }, moment + 1)

/-- So often until the head's table is the one that the selection was made against. -/
def snapshotsWithin (asOf : DateTime) :
    Nat → Nat → Except Error (LookupSnapshots ρ) × Nat
  | 0, moment =>
      (.error (.config
        (s!"{lookupAt outside lookup} changed while resolving the snapshot for source commit " ++
          s!"time {outside.shown asOf}; retry after its writer settles")), moment)
  | attempts + 1, moment =>
      match snapshotsOnce outside storage lookup asOf moment with
      | (.error (.historyUnavailable reason), moment) =>
          if lookup.tableIdChangePolicy = .useCurrent then
            currentSnapshots outside storage lookup moment
          else
            (.error (.config
              (s!"{lookupNamed outside lookup} cannot load a retained timestamp-pinned snapshot " ++
                s!"for source commit time {outside.shown asOf}: {reason}. Its historical Delta " ++
                "log entries were most likely truncated by log retention; restore them, use an " ++
                "approved pre_history_version, or explicitly set table_id_change_policy = " ++
                "\"use_current\" to trade replay determinism for availability.")), moment)
      | (.error (.other error), moment) => (.error error, moment)
      | (.ok snapshots, moment) =>
          match openHead outside storage lookup moment with
          | .error error => (.error error, moment + 1)
          | .ok verifiedHead =>
            match verifiedHead.version with
            | none => (.error (noDeltaVersion outside lookup), moment + 1)
            | some verifiedVersion =>
                if snapshots.head.tableId = tableId verifiedHead then
                  (.ok {
                    snapshots with
                    head := {
                      name := lookup.name
                      version := verifiedVersion
                      tableId := tableId verifiedHead
                      usedPreHistory := false
                      usedCurrent := false
                      table := verifiedHead } }, moment + 1)
                else snapshotsWithin asOf attempts (moment + 1)

def lookupSnapshotStabilityAttempts : Nat := 3

/-- The snapshot pinned for a source commit time, and a head of the same table. -/
def snapshots (asOf : DateTime) (moment : Nat) : Except Error (LookupSnapshots ρ) × Nat :=
  snapshotsWithin outside storage lookup asOf lookupSnapshotStabilityAttempts moment

end Ddi.Lookup
