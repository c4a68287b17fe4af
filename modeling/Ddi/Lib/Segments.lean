/-
Positions in a numbered sequence of lists.

A writer appends whole lists under consecutive numbers; a reader stands inside
one of them. `upto` names everything before a position and `between` everything
from it up to a later number, each item under the number it was written at.
Nothing here says what the items are or how a reader moves.
-/

import Mathlib.Data.List.Range
import Mathlib.Data.List.Basic
import Mathlib.Data.List.Flatten
import Mathlib.Tactic.Common

namespace Segments

variable {α : Type}

/-- The items of one number, each under it. -/
def tagged (number : Nat) (items : List α) : List (Nat × α) :=
  items.map (Prod.mk number)

@[simp] theorem tagged_nil (number : Nat) : tagged number ([] : List α) = [] := rfl

@[simp] theorem tagged_append (number : Nat) (left right : List α) :
    tagged number (left ++ right) = tagged number left ++ tagged number right :=
  List.map_append

@[simp] theorem tagged_length (number : Nat) (items : List α) :
    (tagged number items).length = items.length :=
  List.length_map _

@[simp] theorem tagged_eq_nil (number : Nat) (items : List α) :
    tagged number items = [] ↔ items = [] :=
  List.map_eq_nil_iff

theorem tagged_fst {number : Nat} {items : List α} {entry : Nat × α}
    (member : entry ∈ tagged number items) : entry.1 = number := by
  obtain ⟨item, _present, same⟩ := List.mem_map.mp member
  rw [← same]

/-- Everything written before index `index` of number `number`. -/
def upto (items : Nat → List α) (number index : Nat) : List (Nat × α) :=
  (List.range number).flatMap (fun earlier => tagged earlier (items earlier)) ++
    tagged number ((items number).take index)

/-- Everything from index `index` of number `number` and before number `bound`. -/
def between (items : Nat → List α) (number index bound : Nat) : List (Nat × α) :=
  (List.range' number (bound - number)).flatMap fun current =>
    tagged current ((items current).drop (if current = number then index else 0))

@[simp] theorem upto_zero (items : Nat → List α) : upto items 0 0 = [] := by
  simp [upto]

theorem upto_whole (items : Nat → List α) (number : Nat) :
    upto items number 0 =
      (List.range number).flatMap (fun earlier => tagged earlier (items earlier)) := by
  simp [upto]

theorem upto_eq_append_take (items : Nat → List α) (number index : Nat) :
    upto items number index =
      upto items number 0 ++ tagged number ((items number).take index) := by
  rw [upto_whole, upto]

theorem upto_succ (items : Nat → List α) (number : Nat) :
    upto items (number + 1) 0 = upto items number 0 ++ tagged number (items number) := by
  rw [upto_whole, upto_whole, List.range_succ, List.flatMap_append]
  simp

/-- Finishing a number from the middle of it. -/
theorem upto_finish (items : Nat → List α) (number index : Nat) :
    upto items (number + 1) 0 =
      upto items number index ++ tagged number ((items number).drop index) := by
  rw [upto_succ, upto_eq_append_take items number index, List.append_assoc,
    ← tagged_append, List.take_append_drop]

/-- Moving `count` items further into a number. -/
theorem upto_advance (items : Nat → List α) (number index count : Nat) :
    upto items number (index + count) =
      upto items number index ++ tagged number (((items number).drop index).take count) := by
  rw [upto_eq_append_take, upto_eq_append_take items number index, List.append_assoc,
    ← tagged_append, List.take_add]

theorem upto_congr {left right : Nat → List α} {number : Nat}
    (same : ∀ earlier, earlier < number → left earlier = right earlier) :
    upto left number 0 = upto right number 0 := by
  rw [upto_whole, upto_whole]
  refine List.flatMap_congr fun earlier member => ?_
  rw [same earlier (List.mem_range.mp member)]

theorem upto_number_lt {items : Nat → List α} {number : Nat} {entry : Nat × α}
    (member : entry ∈ upto items number 0) : entry.1 < number := by
  rw [upto_whole] at member
  obtain ⟨earlier, before, present⟩ := List.mem_flatMap.mp member
  rw [tagged_fst present]
  exact List.mem_range.mp before

theorem mem_upto {items : Nat → List α} {number : Nat} {entry : Nat × α} :
    entry ∈ upto items number 0 ↔ entry.1 < number ∧ entry.2 ∈ items entry.1 := by
  rw [upto_whole, List.mem_flatMap]
  constructor
  · rintro ⟨earlier, before, present⟩
    obtain ⟨item, member, same⟩ := List.mem_map.mp present
    subst same
    exact ⟨List.mem_range.mp before, member⟩
  · rintro ⟨before, present⟩
    exact ⟨entry.1, List.mem_range.mpr before, List.mem_map.mpr ⟨entry.2, present, rfl⟩⟩

/-- A stretch of numbers written without an item adds nothing. -/
theorem upto_of_silent {items : Nat → List α} {number later : Nat} (ordered : number ≤ later)
    (silent : ∀ between, number ≤ between → between < later → items between = []) :
    upto items later 0 = upto items number 0 := by
  induction later, ordered using Nat.le_induction with
  | base => rfl
  | succ later ordered ih =>
      rw [upto_succ, silent later ordered (Nat.lt_succ_self later), tagged_nil,
        List.append_nil]
      exact ih fun between low high => silent between low (Nat.lt_succ_of_lt high)

theorem upto_append_range (items : Nat → List α) (number count : Nat) :
    upto items (number + count) 0 = upto items number 0 ++
      (List.range' number count).flatMap (fun current => tagged current (items current)) := by
  induction count with
  | zero => simp
  | succ count ih =>
      rw [← Nat.add_assoc, upto_succ, ih, List.range'_concat, List.flatMap_append,
        List.append_assoc]
      simp

/-- `between` is what `upto` still lacks. -/
theorem upto_append_between (items : Nat → List α) {number bound : Nat} (index : Nat)
    (within : number < bound) :
    upto items number index ++ between items number index bound = upto items bound 0 := by
  obtain ⟨count, rfl⟩ := Nat.exists_eq_add_of_lt within
  have span : number + count + 1 - number = count + 1 := by omega
  have rest : ((List.range' (number + 1) count).flatMap fun current =>
      tagged current ((items current).drop (if current = number then index else 0))) =
      (List.range' (number + 1) count).flatMap fun current =>
        tagged current (items current) := by
    refine List.flatMap_congr fun current member => ?_
    have later := (List.mem_range'_1.mp member).1
    rw [if_neg (by omega), List.drop_zero]
  calc upto items number index ++ between items number index (number + count + 1)
      = upto items number index ++ (tagged number ((items number).drop index) ++
          (List.range' (number + 1) count).flatMap
            (fun current => tagged current (items current))) := by
        rw [between, span, List.range'_succ, List.flatMap_cons, rest, if_pos rfl]
    _ = upto items (number + 1) 0 ++ (List.range' (number + 1) count).flatMap
          (fun current => tagged current (items current)) := by
        rw [← List.append_assoc, ← upto_finish]
    _ = upto items (number + count + 1) 0 := by
        rw [← upto_append_range]
        congr 1
        omega

/-- Nothing lies between a position and a number not after it. -/
theorem between_of_le (items : Nat → List α) {number bound : Nat} (index : Nat)
    (beyond : bound ≤ number) : between items number index bound = [] := by
  have empty : bound - number = 0 := by omega
  rw [between, empty]
  rfl

/-- What is left of the number itself comes first. -/
theorem between_ne_nil (items : Nat → List α) {number index bound : Nat}
    (within : number < bound) (loud : (items number).drop index ≠ []) :
    between items number index bound ≠ [] := by
  obtain ⟨count, rfl⟩ := Nat.exists_eq_add_of_lt within
  have span : number + count + 1 - number = count + 1 := by omega
  rw [between, span, List.range'_succ, List.flatMap_cons, if_pos rfl]
  intro nothing
  exact loud ((tagged_eq_nil number _).mp (List.append_eq_nil_iff.mp nothing).1)

theorem between_zero (items : Nat → List α) (number bound : Nat) :
    between items number 0 bound = (List.range' number (bound - number)).flatMap fun current =>
      tagged current (items current) := by
  refine List.flatMap_congr fun current _member => ?_
  rw [ite_self, List.drop_zero]

theorem between_append (items : Nat → List α) {number middle bound : Nat}
    (low : number ≤ middle) (high : middle ≤ bound) :
    between items number 0 bound = between items number 0 middle ++ between items middle 0 bound := by
  obtain ⟨first, rfl⟩ := Nat.exists_eq_add_of_le low
  obtain ⟨second, rfl⟩ := Nat.exists_eq_add_of_le high
  rw [between_zero, between_zero, between_zero, ← List.flatMap_append,
    show number + first + second - number = first + second by omega,
    show number + first - number = first by omega,
    show number + first + second - (number + first) = second by omega,
    List.range'_append_1]

theorem between_congr {left right : Nat → List α} {number bound : Nat}
    (same : ∀ current, number ≤ current → current < bound → left current = right current) :
    between left number 0 bound = between right number 0 bound := by
  rw [between_zero, between_zero]
  refine List.flatMap_congr fun current member => ?_
  obtain ⟨low, high⟩ := List.mem_range'_1.mp member
  rw [same current low (by omega)]

theorem between_sublist {left right : Nat → List α}
    (fewer : ∀ current, (left current).Sublist (right current)) (number bound : Nat) :
    (between left number 0 bound).Sublist (between right number 0 bound) := by
  rw [between_zero, between_zero]
  exact List.Sublist.flatMap_right _ fun current _member => (fewer current).map _

theorem upto_append_between_zero (items : Nat → List α) {number bound : Nat}
    (ordered : number ≤ bound) :
    upto items number 0 ++ between items number 0 bound = upto items bound 0 := by
  rcases Nat.lt_or_eq_of_le ordered with within | same
  · exact upto_append_between items 0 within
  · subst same
    rw [between_of_le items 0 (Nat.le_refl _), List.append_nil]

theorem mem_between {items : Nat → List α} {number bound : Nat} {entry : Nat × α} :
    entry ∈ between items number 0 bound ↔
      number ≤ entry.1 ∧ entry.1 < bound ∧ entry.2 ∈ items entry.1 := by
  rw [between_zero, List.mem_flatMap]
  constructor
  · rintro ⟨current, within, present⟩
    obtain ⟨item, member, same⟩ := List.mem_map.mp present
    obtain ⟨low, high⟩ := List.mem_range'_1.mp within
    subst same
    exact ⟨low, by change current < bound; omega, member⟩
  · rintro ⟨low, high, present⟩
    exact ⟨entry.1, List.mem_range'_1.mpr ⟨low, by omega⟩,
      List.mem_map.mpr ⟨entry.2, present, rfl⟩⟩

end Segments
