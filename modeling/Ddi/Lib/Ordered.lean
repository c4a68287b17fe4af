/-
Maps kept as lists of entries in the order of their keys.
-/

import Mathlib.Data.List.Induction
import Mathlib.Data.List.Lookmap
import Mathlib.Order.Lattice
import Mathlib.Tactic.Common

namespace Ordered

variable {K V : Type} [LinearOrder K]

/-- The entry at its key's place, in place of the key's old one. -/
def insert (key : K) (value : V) : List (K × V) → List (K × V)
  | [] => [(key, value)]
  | head :: rest =>
      if key < head.1 then (key, value) :: head :: rest
      else if key = head.1 then (key, value) :: rest
      else head :: insert key value rest

def Sorted (entries : List (K × V)) : Prop :=
  entries.Pairwise fun first second => first.1 < second.1

instance (entries : List (K × V)) : Decidable (Sorted entries) :=
  inferInstanceAs (Decidable (entries.Pairwise fun first second => first.1 < second.1))

theorem mem_insert {key : K} {value : V} {entries : List (K × V)} {entry : K × V}
    (member : entry ∈ insert key value entries) : entry = (key, value) ∨ entry ∈ entries := by
  induction entries with
  | nil =>
      unfold insert at member
      exact Or.inl (List.mem_singleton.mp member)
  | cons head rest ih =>
      unfold insert at member
      split at member
      · exact List.mem_cons.mp member
      · split at member
        · cases List.mem_cons.mp member with
          | inl new => exact Or.inl new
          | inr later => exact Or.inr (List.mem_cons_of_mem _ later)
        · cases List.mem_cons.mp member with
          | inl first => exact Or.inr (first ▸ List.mem_cons_self)
          | inr later =>
              cases ih later with
              | inl new => exact Or.inl new
              | inr held => exact Or.inr (List.mem_cons_of_mem _ held)

theorem mem_of_lookup {entries : List (K × V)} {key : K} {value : V}
    (found : entries.lookup key = some value) : (key, value) ∈ entries := by
  obtain ⟨before, after, same, _away⟩ := List.lookup_eq_some_iff.mp found
  rw [same]
  exact List.mem_append_right _ List.mem_cons_self

/-- Where a key's entry stands, or would. -/
theorem insert_split (key : K) (value : V) {entries : List (K × V)} (sorted : Sorted entries) :
    ∃ before later held, entries = before ++ held ++ later ∧
      insert key value entries = before ++ (key, value) :: later ∧
      held = (entries.lookup key).toList.map (Prod.mk key) ∧
      (∀ entry, entry ∈ before → entry.1 < key) ∧ ∀ entry, entry ∈ later → key < entry.1 := by
  induction entries with
  | nil => exact ⟨[], [], [], rfl, rfl, rfl, by simp, by simp⟩
  | cons head entries ih =>
      obtain ⟨first, rest⟩ := List.pairwise_cons.mp sorted
      unfold insert
      rcases lt_trichotomy key head.1 with less | same | more
      · rw [if_pos less]
        have absent : (head :: entries).lookup key = none := by
          rw [List.lookup_eq_none_iff]
          intro entry member
          rcases List.mem_cons.mp member with rfl | later
          · exact bne_iff_ne.mpr less.ne
          · exact bne_iff_ne.mpr (less.trans (first entry later)).ne
        refine ⟨[], head :: entries, [], rfl, rfl, ?_, by simp, ?_⟩
        · rw [absent]
          rfl
        · intro entry member
          rcases List.mem_cons.mp member with rfl | later
          · exact less
          · exact less.trans (first entry later)
      · rw [if_neg same.not_lt, if_pos same]
        refine ⟨[], entries, [head], rfl, rfl, ?_, by simp, ?_⟩
        · obtain ⟨own, held⟩ := head
          cases same
          simp
        · intro entry member
          rw [same]
          exact first entry member
      · rw [if_neg more.not_gt, if_neg more.ne']
        obtain ⟨before, later, held, entries_eq, inserted, found, below, above⟩ := ih rest
        refine ⟨head :: before, later, held, ?_, ?_, ?_, ?_, above⟩
        · rw [entries_eq]
          rfl
        · rw [inserted]
          rfl
        · obtain ⟨own, own_held⟩ := head
          rw [found, List.lookup_cons, beq_eq_false_iff_ne.mpr more.ne']
        · intro entry member
          rcases List.mem_cons.mp member with rfl | among
          · exact more
          · exact below entry among

theorem Sorted.insert {entries : List (K × V)} (sorted : Sorted entries) (key : K) (value : V) :
    Sorted (Ordered.insert key value entries) := by
  obtain ⟨before, later, held, entries_eq, inserted, _found, below, above⟩ :=
    insert_split key value sorted
  unfold Sorted at sorted
  rw [entries_eq, List.append_assoc, List.pairwise_append] at sorted
  obtain ⟨first, second, _across⟩ := sorted
  unfold Sorted
  rw [inserted, List.pairwise_append]
  refine ⟨first, List.pairwise_cons.mpr ⟨above, (List.pairwise_append.mp second).2.1⟩, ?_⟩
  intro entry member other among
  rcases List.mem_cons.mp among with rfl | after
  · exact below entry member
  · exact (below entry member).trans (above other after)

theorem lookup_insert {entries : List (K × V)} (sorted : Sorted entries) (key other : K)
    (value : V) :
    (insert key value entries).lookup other =
      if other = key then some value else entries.lookup other := by
  obtain ⟨before, later, held, entries_eq, inserted, found, below, _above⟩ :=
    insert_split key value sorted
  have away : other ≠ key → held.lookup other = none := by
    intro apart
    rw [found, List.lookup_eq_none_iff]
    intro entry member
    obtain ⟨_value, _held, rfl⟩ := List.mem_map.mp member
    exact bne_iff_ne.mpr apart
  rw [inserted]
  by_cases same : other = key
  · subst same
    rw [if_pos rfl, List.lookup_append]
    have absent : before.lookup other = none := by
      rw [List.lookup_eq_none_iff]
      intro entry member
      exact bne_iff_ne.mpr (below entry member).ne'
    simp [absent]
  · rw [if_neg same, entries_eq, List.append_assoc, List.lookup_append, List.lookup_append,
      List.lookup_append, away same, List.lookup_cons, beq_eq_false_iff_ne.mpr same]
    rfl

/-- A map of these entries; of several for one key, the last. -/
def collect (entries : List (K × V)) : List (K × V) :=
  entries.foldl (fun known entry => insert entry.1 entry.2 known) []

private theorem collect_snoc (entries : List (K × V)) (entry : K × V) :
    collect (entries ++ [entry]) = insert entry.1 entry.2 (collect entries) := by
  unfold collect
  rw [List.foldl_append]
  rfl

theorem mem_collect {entries : List (K × V)} {entry : K × V}
    (member : entry ∈ collect entries) : entry ∈ entries := by
  induction entries using List.reverseRecOn with
  | nil => cases member
  | append_singleton entries last ih =>
      rw [collect_snoc] at member
      rcases mem_insert member with same | before
      · exact List.mem_append_right _ (List.mem_singleton.mpr same)
      · exact List.mem_append_left _ (ih before)

theorem collect_sorted (entries : List (K × V)) : Sorted (collect entries) := by
  induction entries using List.reverseRecOn with
  | nil => exact List.Pairwise.nil
  | append_singleton entries entry ih =>
      rw [collect_snoc]
      exact ih.insert _ _

theorem lookup_collect (entries : List (K × V)) (key : K) :
    (collect entries).lookup key = entries.reverse.lookup key := by
  induction entries using List.reverseRecOn with
  | nil => rfl
  | append_singleton entries entry ih =>
      obtain ⟨own, held⟩ := entry
      rw [collect_snoc, lookup_insert (collect_sorted entries), ih, List.reverse_append]
      by_cases same : key = own
      · subst same
        simp
      · rw [if_neg same, List.reverse_singleton, List.singleton_append, List.lookup_cons,
          beq_eq_false_iff_ne.mpr same]

theorem mem_of_lookup_collect {entries : List (K × V)} {key : K} {value : V}
    (found : (collect entries).lookup key = some value) : (key, value) ∈ entries := by
  rw [lookup_collect] at found
  obtain ⟨before, after, same, _away⟩ := List.lookup_eq_some_iff.mp found
  apply List.mem_reverse.mp
  rw [same]
  exact List.mem_append_right _ List.mem_cons_self

/-- In a map every entry is the one found under its key. -/
theorem Sorted.lookup_of_mem {entries : List (K × V)} (sorted : Sorted entries) {key : K}
    {value : V} (member : (key, value) ∈ entries) : entries.lookup key = some value := by
  induction entries with
  | nil => cases member
  | cons head entries ih =>
      obtain ⟨first, rest⟩ := List.pairwise_cons.mp sorted
      obtain ⟨own, held⟩ := head
      rw [List.lookup_cons]
      rcases List.mem_cons.mp member with here | later
      · cases here
        simp
      · rw [beq_eq_false_iff_ne.mpr (first _ later).ne']
        exact ih rest later

theorem lookup_eq_none_of_lt {entries : List (K × V)} {key : K}
    (above : ∀ entry, entry ∈ entries → key < entry.1) : entries.lookup key = none := by
  rw [List.lookup_eq_none_iff]
  intro entry member
  exact bne_iff_ne.mpr (above entry member).ne

theorem Sorted.filterMap {W : Type} {entries : List (K × V)} (sorted : Sorted entries)
    (keep : K → V → Option W) :
    Sorted (entries.filterMap fun entry => (keep entry.1 entry.2).map (Prod.mk entry.1)) := by
  apply List.Pairwise.filterMap _ _ sorted
  intro one other less held found another also_found
  obtain ⟨_value, _kept, rfl⟩ := Option.map_eq_some_iff.mp found
  obtain ⟨_value, _kept, rfl⟩ := Option.map_eq_some_iff.mp also_found
  exact less

theorem Sorted.map {W : Type} {entries : List (K × V)} (sorted : Sorted entries)
    (change : K → V → W) :
    Sorted (entries.map fun entry => (entry.1, change entry.1 entry.2)) := by
  apply List.Pairwise.map _ _ sorted
  intro one other less
  exact less

/-- Every entry's value changed or the entry left out. -/
theorem lookup_filterMap {W : Type} {entries : List (K × V)} (sorted : Sorted entries)
    (keep : K → V → Option W) (key : K) :
    (entries.filterMap fun entry => (keep entry.1 entry.2).map (Prod.mk entry.1)).lookup key =
      (entries.lookup key).bind (keep key) := by
  induction entries with
  | nil => rfl
  | cons head entries ih =>
      obtain ⟨first, rest⟩ := List.pairwise_cons.mp sorted
      obtain ⟨own, held⟩ := head
      rw [List.filterMap_cons, List.lookup_cons]
      by_cases same : key = own
      · subst same
        cases kept : keep key held with
        | none =>
            simp only [Option.map_none, beq_self_eq_true, Option.bind_some, kept]
            rw [ih rest, lookup_eq_none_of_lt first]
            rfl
        | some value =>
            simp [kept]
      · cases kept : keep own held with
        | none =>
            simp only [Option.map_none, beq_eq_false_iff_ne.mpr same]
            exact ih rest
        | some value =>
            simp only [Option.map_some, List.lookup_cons, beq_eq_false_iff_ne.mpr same]
            exact ih rest

end Ordered
