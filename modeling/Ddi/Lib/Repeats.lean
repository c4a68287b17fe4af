/-
Items that come twice in a sorted list: neighbours that are the same, and the list with each run of
neighbours cut to one.
-/

import Mathlib.Data.List.Nodup
import Mathlib.Data.List.Pairwise
import Mathlib.Order.Lattice
import Mathlib.Tactic.Common

namespace Repeats

variable {α : Type} [LinearOrder α]

/-- The first of every two neighbours that are the same. -/
def repeated : List α → List α
  | first :: second :: rest =>
    if first = second then first :: repeated (second :: rest) else repeated (second :: rest)
  | _ => []

/-- Each run of neighbours that are the same, as one. -/
def dedup : List α → List α
  | first :: second :: rest =>
    if first = second then dedup (second :: rest) else first :: dedup (second :: rest)
  | short => short

@[simp] theorem mem_dedup {items : List α} {item : α} : item ∈ dedup items ↔ item ∈ items := by
  induction items using dedup.induct with
  | case1 first rest ih =>
      rw [dedup, if_pos rfl, ih]
      simp
  | case2 first second rest apart ih =>
      rw [dedup, if_neg apart, List.mem_cons, List.mem_cons, ih]
  | case3 short none_ =>
      rw [dedup]
      exact none_

private theorem not_mem_of_ne {first second : α} {rest : List α}
    (sorted : (first :: second :: rest).Pairwise (· ≤ ·)) (apart : first ≠ second) :
    first ∉ second :: rest := by
  obtain ⟨least, tail⟩ := List.pairwise_cons.mp sorted
  have below := lt_of_le_of_ne (least second List.mem_cons_self) apart
  intro member
  rcases List.mem_cons.mp member with same | behind
  · exact apart same
  · have above := (List.pairwise_cons.mp tail).1 first behind
    exact absurd below (not_lt_of_ge above)

theorem dedup_nodup {items : List α} (sorted : items.Pairwise (· ≤ ·)) : (dedup items).Nodup := by
  induction items using dedup.induct with
  | case1 first rest ih =>
      rw [dedup, if_pos rfl]
      exact ih (List.pairwise_cons.mp sorted).2
  | case2 first second rest apart ih =>
      rw [dedup, if_neg apart, List.nodup_cons]
      constructor
      · rw [mem_dedup]
        exact not_mem_of_ne sorted apart
      · exact ih (List.pairwise_cons.mp sorted).2
  | case3 short none_ =>
      rw [dedup]
      · match short, none_ with
        | [], _ => exact List.nodup_nil
        | [one], _ => exact List.nodup_singleton one
        | first :: second :: rest, none_ => exact absurd rfl (none_ first second rest)
      · exact none_

/-- In a sorted list, what comes twice is its own neighbour. -/
theorem mem_repeated {items : List α} (sorted : items.Pairwise (· ≤ ·)) {item : α} :
    item ∈ repeated items ↔ 2 ≤ items.count item := by
  induction items using repeated.induct with
  | case1 first rest ih =>
      have known := ih (List.pairwise_cons.mp sorted).2
      rw [repeated, if_pos rfl, List.mem_cons, known]
      by_cases here : item = first
      · subst here
        have twice : 2 ≤ (item :: item :: rest).count item := by
          rw [List.count_cons_self, List.count_cons_self]
          omega
        exact ⟨fun _ => twice, fun _ => Or.inl rfl⟩
      · have skipped : (first :: first :: rest).count item = (first :: rest).count item :=
          List.count_cons_of_ne fun same => here same.symm
        rw [skipped]
        exact or_iff_right here
  | case2 first second rest apart ih =>
      have known := ih (List.pairwise_cons.mp sorted).2
      rw [repeated, if_neg apart, known]
      by_cases here : item = first
      · subst here
        have absent := List.count_eq_zero_of_not_mem (not_mem_of_ne sorted apart)
        rw [List.count_cons_self, absent]
        omega
      · rw [List.count_cons_of_ne fun same => here same.symm]
  | case3 short none_ =>
      match short, none_ with
      | [], _ => simp [repeated]
      | [one], _ =>
          rw [repeated]
          · have few := List.count_le_length (a := item) (l := [one])
            simp only [List.length_singleton] at few
            constructor
            · exact nofun
            · intro twice
              omega
          · exact nofun
      | first :: second :: rest, none_ => exact absurd rfl (none_ first second rest)

end Repeats
