/-
The resumable stream position.

`(version, index)` reads "version `version` is the next commit to read, and
within it `index` is the next unconsumed `dataChange` add".
-/

import Mathlib.Order.Basic
import Mathlib.Tactic.Common

namespace Ddi.Source


structure StreamCursor where
  version : Nat
  index : Nat
  deriving DecidableEq, Repr

namespace StreamCursor

def atVersion (version : Nat) : StreamCursor :=
  { version := version, index := 0 }

def nextVersion (cursor : StreamCursor) : StreamCursor :=
  { version := cursor.version + 1, index := 0 }

def advancedBy (cursor : StreamCursor) (count : Nat) : StreamCursor :=
  { version := cursor.version, index := cursor.index + count }

def isCommitBoundary (cursor : StreamCursor) : Bool :=
  cursor.index == 0

/-- The last version fully consumed by a stream that has reached this cursor. -/
def lastFullyConsumedVersion (cursor : StreamCursor) : Option Nat :=
  if !cursor.isCommitBoundary then none
  else
    match cursor.version with
    | 0 => none
    | version + 1 => some version

@[simp] theorem atVersion_version (version : Nat) : (atVersion version).version = version :=
  rfl

@[simp] theorem atVersion_index (version : Nat) : (atVersion version).index = 0 := rfl

@[simp] theorem nextVersion_version (cursor : StreamCursor) :
    cursor.nextVersion.version = cursor.version + 1 := rfl

@[simp] theorem nextVersion_index (cursor : StreamCursor) : cursor.nextVersion.index = 0 := rfl

@[simp] theorem advancedBy_version (cursor : StreamCursor) (count : Nat) :
    (cursor.advancedBy count).version = cursor.version := rfl

@[simp] theorem advancedBy_index (cursor : StreamCursor) (count : Nat) :
    (cursor.advancedBy count).index = cursor.index + count := rfl

theorem lastFullyConsumedVersion_semantics {cursor : StreamCursor} {version : Nat} :
    cursor.lastFullyConsumedVersion = some version ↔ cursor = atVersion (version + 1) := by
  rcases cursor with ⟨reached, index⟩
  cases index with
  | zero =>
      cases reached with
      | zero => simp [lastFullyConsumedVersion, isCommitBoundary, atVersion]
      | succ reached => simp [lastFullyConsumedVersion, isCommitBoundary, atVersion]
  | succ index => simp [lastFullyConsumedVersion, isCommitBoundary, atVersion]

end StreamCursor

end Ddi.Source
