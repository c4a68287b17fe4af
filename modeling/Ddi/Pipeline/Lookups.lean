/-
The lookup snapshots that a pipeline enriches a batch from, what its commit records of them, and
the table identities it goes by, which move only once a batch has committed.
-/

import Ddi.Lib.Assoc
import Ddi.Lookup.Snapshots

namespace Ddi

open Ddi.Delta Ddi.Lookup

variable {ρ : Type}

structure LookupTableIdTransition where
  name : String
  tableId : String

structure LookupBatch (ρ : Type) where
  snapshots : List (LookupSnapshot ρ) := []
  transitions : List LookupTableIdTransition := []

/-- The tables a pipeline takes its lookups to be. -/
structure LookupIdentities where
  lookupTableIds : List (String × String)
  /-- Names whose table was another when the target last committed. -/
  lookupCurrentOnOpen : List String

/-- Whether a snapshot cannot be told to be of the table recorded. -/
def lookupTableIdChanged (expected selected head : String) (historyUnavailable : Bool) : Bool :=
  historyUnavailable || selected != expected || head != expected

def applyLookupTableIdTransitions (identities : LookupIdentities)
    (transitions : List LookupTableIdTransition) : LookupIdentities :=
  transitions.foldl (fun identities transition =>
    { lookupTableIds :=
        Assoc.put transition.name transition.tableId identities.lookupTableIds
      lookupCurrentOnOpen :=
        identities.lookupCurrentOnOpen.filter fun name => name != transition.name }) identities

section Snapshots

variable (outside : Outside) (storage : Storage ρ) (pipeline : String)
  (identities : LookupIdentities)

/-- The snapshot that one lookup of the batch is enriched from, and the identity its commit
settles. -/
def snapshotFor (lookup : ResolvedLookup) (available : LookupSnapshots ρ) :
    Except Error (LookupSnapshot ρ × Option LookupTableIdTransition) :=
  let name := available.selected.name
  match identities.lookupTableIds.lookup name with
  | none =>
      .error (.config
        (s!"pipeline {outside.quoted pipeline}: lookup {outside.quoted name} was not present " ++
          "when the pipeline opened"))
  | some expected =>
    match available.selected.tableId with
    | none =>
        .error (.config
          (s!"pipeline {outside.quoted pipeline}: lookup {outside.quoted name} has no Delta " ++
            "table id"))
    | some selectedId =>
      match available.head.tableId with
      | none =>
          .error (.config
            (s!"pipeline {outside.quoted pipeline}: lookup {outside.quoted name} current head " ++
              "has no Delta table id"))
      | some headId =>
          let ambiguous := lookupTableIdChanged expected selectedId headId
            available.selected.usedCurrent
          let transition : Option LookupTableIdTransition :=
            if ambiguous || identities.lookupCurrentOnOpen.contains name then
              some { name, tableId := headId }
            else none
          if ambiguous then
            if lookup.tableIdChangePolicy = .strict then
              .error (.config
                (s!"pipeline {outside.quoted pipeline}: lookup {outside.quoted name} changed " ++
                  s!"Delta table id from {outside.quoted expected} to selected " ++
                  s!"{outside.quoted selectedId} (current head {outside.quoted headId}). It was " ++
                  "dropped, recreated, or redirected at the same URI; choose a new app_id and " ++
                  "rebuild the target before using the replacement."))
            else .ok ({ available.head with usedCurrent := true }, transition)
          else .ok (available.selected, transition)

def snapshotsOf (timestamp : DateTime) :
    List ResolvedLookup → Nat → Except Error (LookupBatch ρ) × Nat
  | [], moment => (.ok {}, moment)
  | lookup :: rest, moment =>
      match snapshots outside storage lookup timestamp moment with
      | (.error error, moment) => (.error error, moment)
      | (.ok available, moment) =>
          match snapshotFor outside pipeline identities lookup available with
          | .error error => (.error error, moment)
          | .ok (snapshot, transition) =>
              match snapshotsOf timestamp rest moment with
              | (.error error, moment) => (.error error, moment)
              | (.ok batch, moment) =>
                  (.ok {
                    snapshots := snapshot :: batch.snapshots
                    transitions := transition.toList ++ batch.transitions }, moment)

/-- What of a source batch its lookups are selected by. -/
structure PinnedBatch where
  throughLogTimestamp : Option DateTime
  throughVersion : Nat

def lookupSnapshots (lookups : List ResolvedLookup) (batch : PinnedBatch) (moment : Nat) :
    Except Error (LookupBatch ρ) × Nat :=
  if lookups.isEmpty then (.ok {}, moment)
  else
    match batch.throughLogTimestamp with
    | none =>
        (.error (.config
          (s!"pipeline {outside.quoted pipeline}: source commit {batch.throughVersion} has no " ++
            "Delta-log timestamp for pinned lookup selection")), moment)
    | some timestamp => snapshotsOf outside storage pipeline identities timestamp lookups moment

end Snapshots

/-! ### What a commit records -/

structure LookupCommit where
  name : String
  version : Nat
  tableId : Option String
  usedPreHistory : Bool
  usedCurrent : Bool

def setLookupSnapshots (snapshots : List (LookupSnapshot ρ)) : List LookupCommit :=
  snapshots.map fun snapshot =>
    { name := snapshot.name
      version := snapshot.version
      tableId := snapshot.tableId
      usedPreHistory := snapshot.usedPreHistory
      usedCurrent := snapshot.usedCurrent }

def lookupKey (name key : String) : String := "ddi.lookup." ++ name ++ "." ++ key

/-- What a commit's metadata says of the lookups. -/
def lookupMetadata (lookups : List LookupCommit) : CommitInfo :=
  lookups.flatMap fun lookup =>
    [(lookupKey lookup.name "version", .num lookup.version)] ++
      (lookup.tableId.map fun id => (lookupKey lookup.name "tableId", Json.str id)).toList ++
      (if lookup.usedPreHistory then [(lookupKey lookup.name "preHistory", .bool true)] else []) ++
      (if lookup.usedCurrent then [(lookupKey lookup.name "current", .bool true)] else [])

/-! ### Batch after batch -/

/-- One attempt at a batch: when its lookups are selected, and whether its commit lands. -/
structure Attempted where
  batch : PinnedBatch
  moment : Nat
  commits : Bool

/-- An attempt that had its snapshots, and the identities it went by. -/
structure Enriched (ρ : Type) where
  attempted : Attempted
  identities : LookupIdentities
  result : LookupBatch ρ

section Attempts

variable (outside : Outside) (storage : Storage ρ) (pipeline : String)
  (lookups : List ResolvedLookup)

/-- Any attempts, one after another. Those that fail leave the identities as they are. -/
def attempts : LookupIdentities → List Attempted → List (Enriched ρ) × LookupIdentities
  | identities, [] => ([], identities)
  | identities, attempted :: rest =>
      match (lookupSnapshots outside storage pipeline identities lookups attempted.batch
          attempted.moment).1 with
      | .error _ => attempts identities rest
      | .ok result =>
          let onward := attempts
            (if attempted.commits then applyLookupTableIdTransitions identities result.transitions
              else identities) rest
          ({ attempted, identities, result } :: onward.1, onward.2)

end Attempts

end Ddi
