/-
High-water marks of keyed, timestamped rows.

A mark is the newest time among some rows with the keys tied at it. It is read
in one pass and does not depend on the order of the pass. When rows arrive in
time order, a mark read from what has arrived tells a row that is among them
from one that comes later: that is the whole use of it.
-/

import Mathlib.Order.Lattice
import Mathlib.Tactic.Common

namespace Marks

variable {T K : Type} [LinearOrder T]

structure Mark (T K : Type) where
  newest : T
  ties : List K

/-- One more row: its time, and its key if it has one. -/
def raise (mark : Option (Mark T K)) (time : T) (key : Option K) : Mark T K :=
  match mark with
  | none => { newest := time, ties := key.toList }
  | some mark =>
    if mark.newest < time then { newest := time, ties := key.toList }
    else if mark.newest = time then { newest := mark.newest, ties := key.toList ++ mark.ties }
    else mark

def ofRows (rows : List (T × Option K)) : Option (Mark T K) :=
  rows.foldl (fun mark row => some (raise mark row.1 row.2)) none

/-- `mark` is the high-water mark of `rows`. -/
structure IsMark (rows : List (T × Option K)) (mark : Mark T K) : Prop where
  bound : ∀ row, row ∈ rows → row.1 ≤ mark.newest
  attained : ∃ row, row ∈ rows ∧ row.1 = mark.newest
  ties : ∀ key, key ∈ mark.ties ↔ (mark.newest, some key) ∈ rows

theorem raise_none_isMark (time : T) (key : Option K) :
    IsMark [(time, key)] (raise none time key) where
  bound := by
    intro row member
    rw [List.mem_singleton] at member
    rw [member]
    exact le_refl time
  attained := ⟨(time, key), List.mem_singleton_self _, rfl⟩
  ties := by
    intro tied
    cases key with
    | none => simp [raise]
    | some key => simp [raise]

theorem raise_isMark {rows : List (T × Option K)} {mark : Mark T K} (isMark : IsMark rows mark)
    (time : T) (key : Option K) :
    IsMark (rows ++ [(time, key)]) (raise (some mark) time key) := by
  obtain ⟨top, topMember, topTime⟩ := isMark.attained
  unfold raise
  rcases lt_trichotomy mark.newest time with newer | same | older
  · simp only [if_pos newer]
    constructor
    · intro row member
      rcases List.mem_append.mp member with held | fresh
      · exact le_of_lt (lt_of_le_of_lt (isMark.bound row held) newer)
      · rw [List.mem_singleton.mp fresh]
    · exact ⟨(time, key), List.mem_append_right _ (List.mem_singleton_self _), rfl⟩
    · intro tied
      have absent : (time, some tied) ∉ rows := fun held =>
        absurd newer (not_lt_of_ge (isMark.bound _ held))
      cases key with
      | none => simp [absent]
      | some key => simp [absent]
  · subst same
    simp only [lt_self_iff_false, if_false, if_true]
    constructor
    · intro row member
      rcases List.mem_append.mp member with held | fresh
      · exact isMark.bound row held
      · rw [List.mem_singleton.mp fresh]
    · exact ⟨top, List.mem_append_left _ topMember, topTime⟩
    · intro tied
      have before := isMark.ties tied
      cases key with
      | none => simp [before]
      | some key => simp [before, or_comm]
  · simp only [if_neg (not_lt_of_gt older), if_neg (ne_of_gt older)]
    constructor
    · intro row member
      rcases List.mem_append.mp member with held | fresh
      · exact isMark.bound row held
      · rw [List.mem_singleton.mp fresh]
        exact le_of_lt older
    · exact ⟨top, List.mem_append_left _ topMember, topTime⟩
    · intro tied
      have before := isMark.ties tied
      have apart : mark.newest ≠ time := ne_of_gt older
      simp [before, apart]

private theorem foldl_isMark {before : List (T × Option K)} {mark : Mark T K}
    (isMark : IsMark before mark) (rows : List (T × Option K)) :
    ∃ reached, rows.foldl (fun mark row => some (raise mark row.1 row.2)) (some mark) =
      some reached ∧ IsMark (before ++ rows) reached := by
  induction rows generalizing before mark with
  | nil =>
      rw [List.append_nil]
      exact ⟨mark, rfl, isMark⟩
  | cons row rows ih =>
      obtain ⟨reached, folded, reachedMark⟩ := ih (raise_isMark isMark row.1 row.2)
      rw [List.append_assoc] at reachedMark
      exact ⟨reached, folded, reachedMark⟩

theorem ofRows_eq_none {rows : List (T × Option K)} : ofRows rows = none ↔ rows = [] := by
  cases rows with
  | nil => exact ⟨fun _ => rfl, fun _ => rfl⟩
  | cons row rows =>
      obtain ⟨reached, folded, _isMark⟩ := foldl_isMark (raise_none_isMark row.1 row.2) rows
      constructor
      · intro nothing
        rw [ofRows, List.foldl_cons, folded] at nothing
        cases nothing
      · intro impossible
        cases impossible

theorem ofRows_isMark {rows : List (T × Option K)} {mark : Mark T K}
    (read : ofRows rows = some mark) : IsMark rows mark := by
  cases rows with
  | nil => cases read
  | cons row rows =>
      obtain ⟨reached, folded, isMark⟩ := foldl_isMark (raise_none_isMark row.1 row.2) rows
      rw [ofRows, List.foldl_cons, folded] at read
      cases read
      exact isMark

theorem ofRows_append_singleton (rows : List (T × Option K)) (row : T × Option K) :
    ofRows (rows ++ [row]) = some (raise (ofRows rows) row.1 row.2) := by
  rw [ofRows, List.foldl_append]
  rfl

/-- Time and key of a row lie at or below a mark that holds the row's key. -/
def Covers (mark : Mark T K) (time : T) (key : Option K) : Prop :=
  time < mark.newest ∨ (time = mark.newest ∧ ∃ known, key = some known ∧ known ∈ mark.ties)

end Marks
