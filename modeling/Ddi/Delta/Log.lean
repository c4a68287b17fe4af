/-
A Delta table as its transaction log: the actions of each commit, the commit
files log retention has removed, and the versions no snapshot can be built at
any more. Sources, targets and stages are all such tables. A data file is
represented by the add action that names it together with the rows it holds.
-/

import Ddi.Source.Cursor
import Mathlib.Algebra.Group.Int.Defs
import Mathlib.Algebra.Group.Nat.Defs

namespace Ddi.Delta


inductive Json
  | null
  | bool (value : Bool)
  | num (value : Int)
  | str (text : String)
  | arr (items : List Json)
  | obj (fields : List (String × Json))

namespace Json

def asStr : Json → Option String
  | str text => some text
  | _ => none

def asU64 : Json → Option Nat
  | num (Int.ofNat value) => if value < 2 ^ 64 then some value else none
  | _ => none

def asArray : Json → Option (List Json)
  | arr items => some items
  | _ => none

def get (value : Json) (key : String) : Option Json :=
  match value with
  | obj fields => fields.lookup key
  | _ => none

end Json

structure AddFile (ρ : Type) where
  path : String
  size : Int := 0
  dataChange : Bool := true
  /-- Whether the action names a deletion vector. -/
  deletionVector : Bool := false
  partitionValues : List (String × Option String) := []
  /-- The statistics of the file, absent as well when their text is not JSON. -/
  stats : Option Json := none
  rows : List ρ := []

structure RemoveFile where
  path : String
  dataChange : Bool := true

structure Metadata where
  id : Option String
  schemaString : String
  deriving DecidableEq

abbrev CommitInfo := List (String × Json)

inductive Action (ρ : Type)
  | add (file : AddFile ρ)
  | remove (file : RemoveFile)
  | metaData (metadata : Metadata)
  | txn (appId : String) (version : Int)
  | commitInfo (info : CommitInfo)
  | other

structure Commit (ρ : Type) where
  actions : List (Action ρ)
  /-- The storage clock of the commit object, in milliseconds. -/
  lastModified : Nat := 0

structure DeltaLog (ρ : Type) where
  commits : List (Commit ρ)
  /-- Commit files that log retention has removed. -/
  reclaimed : Nat → Bool := fun _ => false
  /-- Versions whose state can no longer be replayed. -/
  unloadable : Nat → Bool := fun _ => false

inductive DeltaError
  | invalidVersion (version : Nat)
  deriving DecidableEq

structure TableState where
  version : Nat
  metadata : Metadata
  deriving DecidableEq

namespace DeltaLog

variable {ρ : Type}

def head (log : DeltaLog ρ) : Nat := log.commits.length - 1

def readCommit (log : DeltaLog ρ) (version : Nat) : Option (Commit ρ) :=
  if log.reclaimed version then none else log.commits[version]?

/-- The raw commit of a version, `none` when the store says it is not there. -/
def readCommitEntry (log : DeltaLog ρ) (version : Nat) : Option (List (Action ρ)) :=
  (log.readCommit version).map Commit.actions

/-- A log as it was written, whatever retention has removed of it since. -/
def written (log : DeltaLog ρ) : DeltaLog ρ := { commits := log.commits }

/-- A log one commit later. -/
def append (log : DeltaLog ρ) (commit : Commit ρ) : DeltaLog ρ :=
  { log with commits := log.commits ++ [commit] }

def metadataOf (actions : List (Action ρ)) : Option Metadata :=
  actions.reverse.findSome? fun action =>
    match action with
    | .metaData metadata => some metadata
    | _ => none

/-- The newest `metaData` action at or below a version. -/
def metadataAt (log : DeltaLog ρ) (version : Nat) : Option Metadata :=
  (log.commits.take (version + 1)).reverse.findSome? fun commit => metadataOf commit.actions

/-- The log's own state at a version, the head for `none`. -/
def logState (log : DeltaLog ρ) (version : Option Nat) : Except DeltaError TableState :=
  let wanted := version.getD log.head
  if wanted < log.commits.length ∧ log.unloadable wanted = false then
    match log.metadataAt wanted with
    | some metadata => .ok { version := wanted, metadata := metadata }
    | none => .error (.invalidVersion wanted)
  else .error (.invalidVersion wanted)

/-- Every commit file from `floor` through the head is still there. -/
def contiguousFrom (log : DeltaLog ρ) (floor : Nat) : Bool :=
  decide (floor < log.commits.length) &&
    (List.range' floor (log.commits.length - floor)).all fun version => !log.reclaimed version

/-- The head, as the log store reports it to a caller that has seen `floor` exist. -/
def getLatestVersion (log : DeltaLog ρ) (floor : Nat) : Except DeltaError Nat :=
  if log.contiguousFrom floor then .ok log.head else .error (.invalidVersion floor)

theorem readCommitEntry_lt {log : DeltaLog ρ} {version : Nat} {actions : List (Action ρ)}
    (found : log.readCommitEntry version = some actions) : version < log.commits.length := by
  unfold readCommitEntry readCommit at found
  split at found
  · cases found
  · obtain ⟨commit, present, _same⟩ := Option.map_eq_some_iff.mp found
    exact (List.getElem?_eq_some_iff.mp present).1

theorem readCommitEntry_eq (log : DeltaLog ρ) (version : Nat) :
    log.readCommitEntry version =
      if log.reclaimed version then none
      else (log.commits[version]?).map Commit.actions := by
  unfold readCommitEntry readCommit
  split <;> rfl

theorem readCommitEntry_written {log : DeltaLog ρ} {version : Nat} {actions : List (Action ρ)}
    (found : log.readCommitEntry version = some actions) :
    log.written.readCommitEntry version = some actions := by
  rw [readCommitEntry_eq] at found ⊢
  split at found
  · cases found
  · exact found

theorem readCommit_written {log : DeltaLog ρ} {version : Nat} {actions : List (Action ρ)}
    (found : log.readCommitEntry version = some actions) :
    log.readCommit version = log.commits[version]? := by
  rw [readCommitEntry_eq] at found
  unfold readCommit
  split at found
  · cases found
  · rename_i kept
    rw [if_neg kept]

theorem logState_version {log : DeltaLog ρ} {version : Nat} {state : TableState}
    (loaded : log.logState (some version) = .ok state) : state.version = version := by
  simp only [logState, Option.getD_some] at loaded
  split at loaded
  · split at loaded
    · cases loaded
      rfl
    · cases loaded
  · cases loaded

theorem logState_metadata {log : DeltaLog ρ} {version : Nat} {state : TableState}
    (loaded : log.logState (some version) = .ok state) :
    log.metadataAt version = some state.metadata := by
  simp only [logState, Option.getD_some] at loaded
  split at loaded
  · split at loaded
    · rename_i found
      cases loaded
      exact found
    · cases loaded
  · cases loaded

theorem logState_lt {log : DeltaLog ρ} {version : Nat} {state : TableState}
    (loaded : log.logState (some version) = .ok state) :
    version < log.commits.length ∧ log.unloadable version = false := by
  simp only [logState, Option.getD_some] at loaded
  split at loaded
  · rename_i within
    exact within
  · cases loaded

theorem logState_none (log : DeltaLog ρ) : log.logState none = log.logState (some log.head) := rfl

end DeltaLog

end Ddi.Delta
