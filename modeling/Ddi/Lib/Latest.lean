/-
The latest row of each key.

Rows have a key and a rank. A table is settled for some rows when it holds the
latest of them for each key and nothing else. Merging rows into a settled table
settles it for both, so what a table comes to does not depend on how the rows
were grouped, nor on how often one of them came.
-/

import Mathlib.Order.Lattice
import Mathlib.Tactic.Common

namespace Latest

variable {α κ R : Type} [LinearOrder R] {key : α → κ} {rank : α → R}

/-- No other row with this one's key is past it. -/
def IsLatest (key : α → κ) (rank : α → R) (rows : List α) (row : α) : Prop :=
  row ∈ rows ∧ ∀ other, other ∈ rows → key other = key row → rank other ≤ rank row

/-- No two rows of one key tie. -/
def Apart (key : α → κ) (rank : α → R) (rows : List α) : Prop :=
  ∀ one, one ∈ rows → ∀ other, other ∈ rows → key one = key other → rank one = rank other →
    one = other

/-- No two rows have one key. -/
def Single (key : α → κ) (rows : List α) : Prop := rows.Pairwise fun one other => key one ≠ key other

structure Settled (key : α → κ) (rank : α → R) (rows table : List α) : Prop where
  single : Single key table
  latest : ∀ row, row ∈ table ↔ IsLatest key rank rows row

/-- `after` is `table` with `rows` merged in: the later of the two stays for each key. -/
structure Merged (key : α → κ) (rank : α → R) (table rows after : List α) : Prop where
  single : Single key after
  mem : ∀ row, row ∈ after ↔
    (row ∈ table ∧ ∀ other, other ∈ rows → key other = key row → rank other ≤ rank row) ∨
    (row ∈ rows ∧ ∀ other, other ∈ table → key other = key row → rank other < rank row)

omit [LinearOrder R] in
theorem Apart.sublist {rows fewer : List α} (apart : Apart key rank rows)
    (among : ∀ row, row ∈ fewer → row ∈ rows) : Apart key rank fewer :=
  fun one member other present => apart one (among one member) other (among other present)

omit [LinearOrder R] in
theorem Apart.of_pairwise {rows : List α}
    (apart : rows.Pairwise fun one other => key one = key other → rank one ≠ rank other) :
    Apart key rank rows := by
  induction rows with
  | nil =>
      intro one member
      cases member
  | cons head rows ih =>
      obtain ⟨first, rest⟩ := List.pairwise_cons.mp apart
      intro one member other present same tied
      rcases List.mem_cons.mp member with rfl | later
      · rcases List.mem_cons.mp present with rfl | after
        · rfl
        · exact absurd tied (first other after same)
      · rcases List.mem_cons.mp present with rfl | after
        · exact absurd tied.symm (first one later same.symm)
        · exact ih rest one later other after same tied

omit [LinearOrder R] in
theorem Single.eq_of_key {rows : List α} (single : Single key rows) {one other : α}
    (member : one ∈ rows) (present : other ∈ rows) (same : key one = key other) :
    one = other := by
  induction rows with
  | nil => cases member
  | cons head rows ih =>
      obtain ⟨first, rest⟩ := List.pairwise_cons.mp single
      rcases List.mem_cons.mp member with rfl | later
      · rcases List.mem_cons.mp present with rfl | after
        · rfl
        · exact absurd same (first other after)
      · rcases List.mem_cons.mp present with rfl | after
        · exact absurd same.symm (first one later)
        · exact ih rest later after

theorem Settled.nil : Settled key rank [] [] where
  single := List.Pairwise.nil
  latest := by
    intro row
    constructor
    · intro member
      cases member
    · intro latest
      exact latest.1

variable (key rank) in
theorem exists_latest {rows : List α} {row : α} (member : row ∈ rows) :
    ∃ last, IsLatest key rank rows last ∧ key last = key row ∧ rank row ≤ rank last := by
  induction rows generalizing row with
  | nil => cases member
  | cons head rows ih =>
      by_cases again : ∃ other, other ∈ rows ∧ key other = key row
      · obtain ⟨other, present, same⟩ := again
        obtain ⟨last, ⟨among, bounds⟩, own, _over⟩ := ih present
        by_cases newer : key head = key last ∧ rank last < rank head
        · refine ⟨head, ⟨List.mem_cons_self, ?_⟩, ?_, ?_⟩
          · intro rival rivals sameKey
            rcases List.mem_cons.mp rivals with rfl | later
            · exact le_refl _
            · exact le_of_lt (lt_of_le_of_lt (bounds rival later (sameKey.trans newer.1)) newer.2)
          · rw [newer.1, own, same]
          · rcases List.mem_cons.mp member with rfl | later
            · exact le_refl _
            · apply le_of_lt (lt_of_le_of_lt (bounds row later _) newer.2)
              rw [own, same]
        · have top : ∀ rival, rival ∈ head :: rows → key rival = key last →
              rank rival ≤ rank last := by
            intro rival rivals sameKey
            rcases List.mem_cons.mp rivals with rfl | later
            · by_contra above
              exact newer ⟨sameKey, lt_of_not_ge above⟩
            · exact bounds rival later sameKey
          refine ⟨last, ⟨List.mem_cons_of_mem _ among, top⟩, own.trans same, ?_⟩
          apply top row member
          rw [own, same]
      · have alone : head = row := by
          rcases List.mem_cons.mp member with rfl | later
          · rfl
          · exact absurd ⟨row, later, rfl⟩ again
        subst alone
        refine ⟨head, ⟨List.mem_cons_self, ?_⟩, rfl, le_refl _⟩
        intro rival rivals sameKey
        rcases List.mem_cons.mp rivals with rfl | later
        · exact le_refl _
        · exact absurd ⟨rival, later, sameKey⟩ again

/-- Merging settles the table for what it held and what came. -/
theorem Settled.merge {rows table batch after : List α} (settled : Settled key rank rows table)
    (apart : Apart key rank (rows ++ batch))
    (single : Single key batch)
    (merged : Merged key rank table batch after) : Settled key rank (rows ++ batch) after where
  single := merged.single
  latest := by
    intro row
    rw [merged.mem row]
    constructor
    · rintro (⟨stored, bounds⟩ | ⟨fresh, above⟩)
      · obtain ⟨member, top⟩ := (settled.latest row).mp stored
        refine ⟨List.mem_append_left _ member, ?_⟩
        intro other present sameKey
        rcases List.mem_append.mp present with earlier | later
        · exact top other earlier sameKey
        · exact bounds other later sameKey
      · refine ⟨List.mem_append_right _ fresh, ?_⟩
        intro other present sameKey
        rcases List.mem_append.mp present with earlier | later
        · obtain ⟨last, latest, own, most⟩ := exists_latest key rank earlier
          have held := (settled.latest last).mpr latest
          exact le_of_lt (lt_of_le_of_lt most (above last held (own.trans sameKey)))
        · rw [single.eq_of_key later fresh sameKey]
    · rintro ⟨member, top⟩
      rcases List.mem_append.mp member with earlier | later
      · apply Or.inl
        constructor
        · apply (settled.latest row).mpr
          exact ⟨earlier, fun other present => top other (List.mem_append_left _ present)⟩
        · exact fun other present => top other (List.mem_append_right _ present)
      · by_cases held : row ∈ table
        · apply Or.inl
          exact ⟨held, fun other present => top other (List.mem_append_right _ present)⟩
        · apply Or.inr
          refine ⟨later, ?_⟩
          intro other stored sameKey
          have among := ((settled.latest other).mp stored).1
          have most := top other (List.mem_append_left _ among) sameKey
          rcases lt_or_eq_of_le most with below | tied
          · exact below
          · rw [apart other (List.mem_append_left _ among) row member sameKey tied] at stored
            exact absurd stored held

/-- What some rows settle, more of them settle just when these already hold the latest. -/
theorem Settled.widen_iff {fewer rows table : List α} (settled : Settled key rank fewer table)
    (among : ∀ row, row ∈ fewer → row ∈ rows) (apart : Apart key rank rows) :
    Settled key rank rows table ↔ ∀ row, IsLatest key rank rows row → row ∈ fewer := by
  constructor
  · intro wide row latest
    exact ((settled.latest row).mp ((wide.latest row).mpr latest)).1
  · intro present
    constructor
    · exact settled.single
    · intro row
      rw [settled.latest row]
      constructor
      · rintro ⟨member, top⟩
        obtain ⟨last, latest, own, most⟩ :=
          exists_latest key rank (among row member)
        have tied := le_antisymm most (top last (present last latest) own)
        rw [apart row (among row member) last latest.1 own.symm tied]
        exact latest
      · intro latest
        exact ⟨present row latest, fun other member => latest.2 other (among other member)⟩

end Latest
