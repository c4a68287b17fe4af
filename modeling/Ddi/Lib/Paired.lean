/-
Lists paired item by item, and functions that may fail run on each item.
-/

import Mathlib.Data.List.Forall2

namespace Ddi.Paired

variable {α β γ ε : Type} {Related : α → β → Prop}

theorem mapM_ok (step : α → Except ε β) (items : List α) (outs : List β) :
    items.mapM step = .ok outs ↔ List.Forall₂ (fun item out => step item = .ok out) items outs := by
  induction items generalizing outs with
  | nil =>
      rw [List.mapM_nil, List.forall₂_nil_left_iff]
      constructor
      · intro same
        cases same
        rfl
      · intro same
        rw [same]
        rfl
  | cons item items inductionHypothesis =>
      rw [List.mapM_cons, List.forall₂_cons_left_iff]
      constructor
      · intro same
        cases first : step item with
        | error error =>
            rw [first] at same
            cases same
        | ok out =>
            cases rest : items.mapM step with
            | error error =>
                rw [first, rest] at same
                cases same
            | ok others =>
                rw [first, rest] at same
                cases same
                exact ⟨out, others, rfl, (inductionHypothesis others).mp rest, rfl⟩
      · intro found
        obtain ⟨out, others, first, rest, same⟩ := found
        rw [same, first, (inductionHypothesis others).mpr rest]
        rfl

theorem mapM_congr {step other : α → Except ε β} {items : List α}
    (same : ∀ item ∈ items, step item = other item) : items.mapM step = items.mapM other := by
  induction items with
  | nil => rfl
  | cons item items inductionHypothesis =>
      rw [List.mapM_cons, List.mapM_cons, same item List.mem_cons_self,
        inductionHypothesis fun held inside => same held (List.mem_cons_of_mem _ inside)]

theorem exists_mem {items : List α} {outs : List β} (paired : List.Forall₂ Related items outs)
    {item : α} (inside : item ∈ items) : ∃ out ∈ outs, Related item out := by
  induction paired with
  | nil => cases inside
  | cons related _ inductionHypothesis =>
      cases List.mem_cons.mp inside with
      | inl same =>
          rw [same]
          exact ⟨_, List.mem_cons_self, related⟩
      | inr rest =>
          obtain ⟨out, later, held⟩ := inductionHypothesis rest
          exact ⟨out, List.mem_cons_of_mem _ later, held⟩

/-- Where each item has one, there is a list of them. -/
theorem exists_outs {items : List α} (each : ∀ item ∈ items, ∃ out, Related item out) :
    ∃ outs, List.Forall₂ Related items outs := by
  induction items with
  | nil => exact ⟨[], List.Forall₂.nil⟩
  | cons item items inductionHypothesis =>
      obtain ⟨out, related⟩ := each item List.mem_cons_self
      obtain ⟨outs, paired⟩ :=
        inductionHypothesis fun other inside => each other (List.mem_cons_of_mem _ inside)
      exact ⟨out :: outs, List.Forall₂.cons related paired⟩

/-- What holds of each pair whose item is in the list. -/
theorem imp_mem {Other : α → β → Prop} {items : List α} {outs : List β}
    (paired : List.Forall₂ Related items outs)
    (each : ∀ item ∈ items, ∀ out, Related item out → Other item out) :
    List.Forall₂ Other items outs := by
  induction paired with
  | nil => exact List.Forall₂.nil
  | cons related _ inductionHypothesis =>
      exact List.Forall₂.cons (each _ List.mem_cons_self _ related)
        (inductionHypothesis fun other inside => each other (List.mem_cons_of_mem _ inside))

/-- Two lists paired with a third, item by item. -/
theorem join {Other : α → γ → Prop} {Joined : β → γ → Prop} {items : List α} {outs : List β}
    {others : List γ} (paired : List.Forall₂ Related items outs)
    (again : List.Forall₂ Other items others)
    (each : ∀ item ∈ items, ∀ out other, Related item out → Other item other → Joined out other) :
    List.Forall₂ Joined outs others := by
  induction paired generalizing others with
  | nil =>
      cases again
      exact List.Forall₂.nil
  | cons related _ inductionHypothesis =>
      cases again with
      | cons first rest =>
          exact List.Forall₂.cons (each _ List.mem_cons_self _ _ related first)
            (inductionHypothesis rest fun other inside =>
              each other (List.mem_cons_of_mem _ inside))

theorem unique {items : List α} {outs others : List β} (paired : List.Forall₂ Related items outs)
    (again : List.Forall₂ Related items others)
    (one : ∀ item ∈ items, ∀ out other, Related item out → Related item other → out = other) :
    outs = others := by
  have same := join paired again one
  rwa [List.forall₂_eq_eq_eq] at same

end Ddi.Paired
