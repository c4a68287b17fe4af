/-
Items in the bins of a table, each in the bin that its place has modulo the number of bins, and in
a bin in the order of the items. However often the table grew on the way, the bins are those of
its last size.
-/

import Mathlib.Data.List.Basic
import Mathlib.Data.List.Perm.Basic
import Mathlib.Data.List.Range
import Mathlib.Tactic.Common

namespace Ddi.Bins

variable {ι : Type} (place : ι → Nat)

/-- The items of one bin of so many. -/
def bin (capacity : Nat) (items : List ι) (slot : Nat) : List ι :=
  items.filter fun item => place item % capacity = slot

def bins (capacity : Nat) (items : List ι) : List (List ι) :=
  (List.range capacity).map (bin place capacity items)

/-- An item put at the end of its bin. -/
def push (capacity : Nat) (table : List (List ι)) (item : ι) : List (List ι) :=
  table.modify (place item % capacity) fun chain => chain ++ [item]

@[simp] theorem length_bins (capacity : Nat) (items : List ι) :
    (bins place capacity items).length = capacity := by
  rw [bins, List.length_map, List.length_range]

theorem bins_nil (capacity : Nat) : bins place capacity ([] : List ι) =
    List.replicate capacity [] := by
  rw [bins, List.eq_replicate_iff]
  constructor
  · rw [List.length_map, List.length_range]
  · intro chain inside
    obtain ⟨slot, _, same⟩ := List.mem_map.mp inside
    rw [← same]
    rfl

theorem getElem?_bins {capacity slot : Nat} (within : slot < capacity) (items : List ι) :
    (bins place capacity items)[slot]? = some (bin place capacity items slot) := by
  rw [bins, List.getElem?_map, List.getElem?_range within]
  rfl

theorem getD_bins {capacity slot : Nat} (within : slot < capacity) (items : List ι) :
    (bins place capacity items).getD slot [] = bin place capacity items slot := by
  rw [List.getD_eq_getElem?_getD, getElem?_bins place within]
  rfl

theorem bin_append (capacity : Nat) (items others : List ι) (slot : Nat) :
    bin place capacity (items ++ others) slot =
      bin place capacity items slot ++ bin place capacity others slot :=
  List.filter_append items others

theorem push_bins {capacity : Nat} (items : List ι) (item : ι) :
    push place capacity (bins place capacity items) item =
      bins place capacity (items ++ [item]) := by
  apply List.ext_getElem?
  intro slot
  rw [push, List.getElem?_modify]
  by_cases within : slot < capacity
  · rw [getElem?_bins place within, getElem?_bins place within, bin_append, Option.map_eq_map,
      Option.map_some]
    by_cases own : place item % capacity = slot
    · rw [if_pos own]
      simp [bin, own]
    · rw [if_neg own]
      simp [bin, own]
  · have beyond (items : List ι) : (bins place capacity items)[slot]? = none := by
      apply List.getElem?_eq_none
      rw [length_bins]
      exact Nat.le_of_not_lt within
    rw [beyond, beyond]
    rfl

/-- Pushed one after another, the items are in their bins. -/
theorem foldl_push (capacity : Nat) (items others : List ι) :
    others.foldl (push place capacity) (bins place capacity items) =
      bins place capacity (items ++ others) := by
  induction others generalizing items with
  | nil => rw [List.append_nil, List.foldl_nil]
  | cons item others inductionHypothesis =>
      rw [List.foldl_cons, push_bins, inductionHypothesis, List.append_assoc]
      rfl

/-- A bin of a larger table takes its items from one bin of a smaller one. -/
theorem bin_flatten {capacity finer : Nat} (divides : capacity ∣ finer) (positive : 0 < capacity)
    (items : List ι) (slot : Nat) :
    bin place finer (bins place capacity items).flatten slot = bin place finer items slot := by
  have coarse (item : ι) (own : place item % finer = slot) :
      place item % capacity = slot % capacity := by
    rw [← own, Nat.mod_mod_of_dvd _ divides]
  have apart (other : Nat) (away : other ≠ slot % capacity) :
      bin place finer (bin place capacity items other) slot = [] := by
    rw [bin, List.filter_eq_nil_iff]
    intro item inside
    have here := of_decide_eq_true (List.mem_filter.mp inside).2
    intro own
    exact away (here.symm.trans (coarse item (of_decide_eq_true own)))
  have own : bin place finer (bin place capacity items (slot % capacity)) slot =
      bin place finer items slot := by
    rw [bin, bin, List.filter_filter]
    apply List.filter_congr
    intro item _
    by_cases same : place item % finer = slot
    · simp [same, coarse item same]
    · simp [same]
  have only (slots : List Nat) (once : slots.Nodup) :
      bin place finer (slots.map (bin place capacity items)).flatten slot =
        if slot % capacity ∈ slots then bin place finer items slot else [] := by
    induction slots with
    | nil => rfl
    | cons other slots inductionHypothesis =>
        obtain ⟨fresh, once⟩ := List.nodup_cons.mp once
        rw [List.map_cons, List.flatten_cons, bin_append, inductionHypothesis once]
        by_cases same : other = slot % capacity
        · rw [same, own, ← same, if_neg fresh, if_pos List.mem_cons_self, List.append_nil]
        · rw [apart other same, List.nil_append]
          simp [Ne.symm same]
  rw [bins, only _ List.nodup_range, if_pos (List.mem_range.mpr (Nat.mod_lt slot positive))]

/-- Put anew into a larger table bin by bin, the items are where they would be had it been that
large from the start. -/
theorem redistribute {capacity finer : Nat} (divides : capacity ∣ finer) (positive : 0 < capacity)
    (items : List ι) :
    (bins place capacity items).foldl (fun table chain => chain.foldl (push place finer) table)
      (List.replicate finer []) = bins place finer items := by
  rw [← List.foldl_flatten, ← bins_nil place finer, foldl_push, List.nil_append]
  apply List.map_congr_left
  intro slot _
  exact bin_flatten place divides positive items slot

/-- Each bin split in two, the lower halves before the upper ones. -/
theorem split {capacity : Nat} (positive : 0 < capacity) (items : List ι) :
    (bins place capacity items).map (List.filter fun item =>
        place item % (2 * capacity) < capacity) ++
      (bins place capacity items).map (List.filter fun item =>
        capacity ≤ place item % (2 * capacity)) = bins place (2 * capacity) items := by
  have halves : List.range (2 * capacity) =
      List.range capacity ++ (List.range capacity).map fun slot => capacity + slot := by
    rw [Nat.two_mul, List.range_add]
  have coarse (item : ι) : place item % (2 * capacity) % capacity = place item % capacity :=
    Nat.mod_mod_of_dvd _ (Nat.dvd_mul_left capacity 2)
  rw [bins, bins, halves, List.map_append, List.map_map, List.map_map, List.map_map]
  congr 1
  · apply List.map_congr_left
    intro slot inside
    have within := List.mem_range.mp inside
    rw [Function.comp_apply, bin, bin, List.filter_filter]
    apply List.filter_congr
    intro item _
    rw [← Bool.decide_and, decide_eq_decide, ← coarse item]
    constructor
    · intro both
      rw [Nat.mod_eq_of_lt both.1] at both
      exact both.2
    · intro own
      rw [own]
      exact ⟨within, Nat.mod_eq_of_lt within⟩
  · apply List.map_congr_left
    intro slot inside
    have within := List.mem_range.mp inside
    rw [Function.comp_apply, Function.comp_apply, bin, bin, List.filter_filter]
    apply List.filter_congr
    intro item _
    rw [← Bool.decide_and, decide_eq_decide, ← coarse item]
    have bound : place item % (2 * capacity) < 2 * capacity := Nat.mod_lt _ (by omega)
    generalize place item % (2 * capacity) = remainder at bound ⊢
    constructor
    · intro both
      have less : remainder - capacity < capacity := by omega
      rw [Nat.mod_eq_sub_mod both.1, Nat.mod_eq_of_lt less] at both
      omega
    · intro own
      rw [own, Nat.add_mod_left, Nat.mod_eq_of_lt within]
      exact ⟨Nat.le_add_right _ _, rfl⟩

theorem modify_perm {table : List (List ι)} {slot : Nat} (within : slot < table.length)
    (item : ι) :
    (table.modify slot fun chain => chain ++ [item]).flatten.Perm (item :: table.flatten) := by
  induction table generalizing slot with
  | nil => cases within
  | cons chain table inductionHypothesis =>
      cases slot with
      | zero =>
          rw [List.modify_zero_cons, List.flatten_cons, List.flatten_cons, List.append_assoc]
          exact List.perm_middle
      | succ slot =>
          rw [List.modify_succ_cons, List.flatten_cons, List.flatten_cons]
          have rest := inductionHypothesis (Nat.lt_of_succ_lt_succ within)
          exact (List.Perm.append_left chain rest).trans List.perm_middle

/-- The bins hold each item once. -/
theorem flatten_perm {capacity : Nat} (positive : 0 < capacity) (items : List ι) :
    (bins place capacity items).flatten.Perm items := by
  induction items using List.reverseRecOn with
  | nil =>
      rw [bins_nil, List.flatten_replicate_nil]
  | append_singleton items item inductionHypothesis =>
      rw [← push_bins, push]
      have within : place item % capacity < (bins place capacity items).length := by
        rw [length_bins]
        exact Nat.mod_lt _ positive
      have moved : (item :: items).Perm (items ++ [item]) :=
        (List.perm_append_singleton item items).symm
      exact ((modify_perm within item).trans (inductionHypothesis.cons item)).trans moved

end Ddi.Bins
