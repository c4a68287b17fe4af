/-
Resume offsets, kept in the target's own transaction log.

A `txn` action carries the last source version fully processed, in the same
commit as the rows derived from it.
-/

import Ddi.Error
import Mathlib.Algebra.Group.Int.Defs
import Mathlib.Algebra.Group.Nat.Defs

namespace Ddi

open Ddi.Delta
open Ddi.Source (StreamCursor)

variable {τ : Type}

/-- The version a commit's own `txn` action carries for an application. -/
def txnOf (appId : String) (actions : List (Action τ)) : Option Int :=
  actions.reverse.findSome? fun action =>
    match action with
    | .txn app version => if app = appId then some version else none
    | _ => none

/-- The newest `txn` of an application: `txn` actions outlive the commit files they were
written in, and the rows beside them. -/
def transactionVersion (log : DeltaLog τ) (appId : String) : Option Int :=
  log.commits.reverse.findSome? fun commit => txnOf appId commit.actions

structure OffsetStore where
  appId : String
  startingVersion : Nat

namespace OffsetStore

/-- The last source version this pipeline durably committed to the target, if any. -/
def lastCommittedVersion (store : OffsetStore) (target : DeltaLog τ) :
    Except Error (Option Nat) :=
  match transactionVersion target store.appId with
  | none => .ok none
  | some stored =>
    if stored < 0 then
      .error (.other s!"target table holds a negative txn version ({stored}) for app_id {
        store.appId}; refusing to guess a resume point")
    else .ok (some stored.toNat)

/-- Where a stored offset resumes. -/
def cursorAfter (store : OffsetStore) : Option Nat → StreamCursor
  | some version => StreamCursor.atVersion (version + 1)
  | none => StreamCursor.atVersion store.startingVersion

def resumeCursor (store : OffsetStore) (target : DeltaLog τ) : Except Error StreamCursor :=
  (store.lastCommittedVersion target).map store.cursorAfter

/-- The value to store for a batch that ends at a cursor; a position inside a commit
cannot be stored. -/
def txnVersionFor (cursor : StreamCursor) : Except Error Int :=
  match cursor.lastFullyConsumedVersion with
  | none => .error (.other "refusing to record a mid-commit cursor in a txn action")
  | some version =>
    if version < 2 ^ 63 then .ok version
    else .error (.other s!"source version {version} does not fit in the txn action's i64")

theorem txnVersionFor_ok {cursor : StreamCursor} {stored : Int}
    (ok : txnVersionFor cursor = .ok stored) :
    ∃ version, stored = Int.ofNat version ∧ cursor = StreamCursor.atVersion (version + 1) := by
  unfold txnVersionFor at ok
  cases consumed : cursor.lastFullyConsumedVersion with
  | none =>
      simp only [consumed] at ok
      cases ok
  | some version =>
      simp only [consumed] at ok
      split at ok
      · cases ok
        exact ⟨version, rfl, StreamCursor.lastFullyConsumedVersion_semantics.mp consumed⟩
      · cases ok

end OffsetStore

theorem transactionVersion_append (log : DeltaLog τ) (commit : Commit τ) (appId : String) :
    transactionVersion (log.append commit) appId =
      (txnOf appId commit.actions).or (transactionVersion log appId) := by
  unfold transactionVersion DeltaLog.append
  rw [List.reverse_append, List.reverse_singleton, List.singleton_append, List.findSome?_cons]
  cases txnOf appId commit.actions <;> rfl

end Ddi
