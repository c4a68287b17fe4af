/-
Setting rows aside sets exactly those aside that the masks refuse, and fails exactly where no row
can be told to be at fault.
-/

import Ddi.Schema.CoerceExact

namespace Ddi.Schema.Coercer

variable {arrow : Arrow} {coercer : Coercer} {fails : Column → DataType → Nat → Prop}
  {strays : Column → DataType → List Bool → Prop} {batch : Batch}

/-- What a row of a column is set aside for. -/
def verdictAt (arrow : Arrow) (coercer : Coercer) (batch : Batch) (row : Nat) (field : Field) :
    Option (String × String) :=
  match batch.column field.label.name, resolved arrow batch field with
  | some col, some held => coercer.verdict arrow field col held row
  | _, _ => none

/-- Flags are looked up as lists that go on with no flag. -/
theorem any_flag (result : Option (List Bool)) (row : Nat) :
    (result.any fun flags => flags.getD row false) = true ↔ Flagged result row := by
  cases result with
  | none => simp [Flagged]
  | some flags =>
      rw [Option.any_some, getD_flag]
      simp [Flagged]

theorem verdict_refuses (field : Field) (col held : Column) (row : Nat) :
    (coercer.verdict arrow field col held row).isSome = true ↔
      if held.isValid row = true then
        Drops arrow.canCastTypes coercer.fractions.sources col field.type row
      else col.isValid row = true ∨ field.label.nullable = false := by
  unfold verdict
  dsimp only
  split
  · rw [← refusedFractions_flagged, ← any_flag]
    split
    · next flag => exact iff_of_true rfl flag
    · next flag => exact iff_of_false Bool.noConfusion flag
  · cases col.isValid row with
    | true => simp
    | false => cases field.label.nullable <;> simp

theorem verdictAt_refuses (row : Nat) (field : Field) :
    (verdictAt arrow coercer batch row field).isSome = true ↔
      coercer.RefusedCell arrow batch field row := by
  unfold verdictAt RefusedCell
  cases batch.column field.label.name with
  | none => simp
  | some col =>
      cases resolved arrow batch field with
      | none => simp
      | some held =>
          rw [verdict_refuses]
          simp

theorem mapError_ok {α β γ : Type} (result : Except α γ) (text : α → β) (value : γ) :
    result.mapError text = .ok value ↔ result = .ok value := by
  cases result with
  | error cause => simp [Except.mapError]
  | ok own => simp [Except.mapError]

theorem mapIdx_unchanged (rejected : List (Option (String × String))) :
    (rejected.mapIdx fun _ slot => slot.or none) = rejected := by
  apply List.ext_getElem?
  intro row
  rw [List.getElem?_mapIdx]
  simp only [Option.or_none, Option.map_id']

theorem replicate_kept (rows row : Nat) :
    (List.replicate rows true)[row]? = some true ↔ row < rows := by
  rw [List.getElem?_replicate]
  split
  · next within => exact iff_of_true rfl within
  · next outside => exact iff_of_false (fun impossible => by cases impossible) outside

section Known

variable (known : coercer.Known arrow fails strays batch)

include known

/-- A column that can be cast leniently can strictly, unless a value does not convert. -/
theorem Known.strict_whole {field : Field} (inside : field ∈ coercer.target) {col held : Column}
    (found : batch.column field.label.name = some col) (apart : col.dataType ≠ field.type)
    (done : arrow.castWithOptions true col field.type = .ok held) :
    (∃ cast, arrow.castWithOptions false col field.type = .ok cast) ↔
      ¬((∃ row, row < batch.rows ∧ fails col field.type row) ∨
        strays col field.type (List.replicate batch.rows true)) := by
  obtain ⟨lengths, filters⟩ := known.column found
  have strict := (known.casts field inside col found apart).strict held done
    (List.replicate col.length true) List.length_replicate
  rw [filters.whole, lengths] at strict
  rw [strict, not_or]
  simp only [replicate_kept, not_exists, not_and]

/-- What a column is cast to is what it resolves to. -/
theorem Known.castLeniently_resolved {field : Field} (inside : field ∈ coercer.target)
    {col cast : Column} (found : batch.column field.label.name = some col)
    (done : castLeniently arrow field col = .ok cast) : resolved arrow batch field = some cast := by
  unfold castLeniently at done
  by_cases equal : col.dataType = field.type
  · rw [if_pos equal] at done
    cases done
    exact resolved_same found equal
  · rw [if_neg equal] at done
    have own := (mapError_ok _ _ _).mp done
    apply (resolved_cast found equal).mpr
    cases nested : field.type.isNested || col.dataType.isNested with
    | false =>
        rw [nested] at own
        exact own
    | true =>
        rw [nested] at own
        exact (known.casts field inside col found equal).either _ own

/-- A column that is not stuck is cast. -/
theorem Known.castLeniently_ok {field : Field} (inside : field ∈ coercer.target) {col : Column}
    (found : batch.column field.label.name = some col) :
    (∃ cast, castLeniently arrow field col = .ok cast) ↔ ¬Stuck arrow fails strays batch field := by
  constructor
  · intro given stuck
    obtain ⟨cast, done⟩ := given
    cases stuck with
    | inl none =>
        rw [known.castLeniently_resolved inside found done] at none
        cases none
    | inr held =>
        obtain ⟨own, here, apart, nested, failed⟩ := held
        rw [found] at here
        cases here
        unfold castLeniently at done
        rw [if_neg apart, nested] at done
        have strict := (mapError_ok _ _ _).mp done
        have whole := (known.casts field inside col found apart).either _ strict
        exact (known.strict_whole inside found apart whole).mp ⟨cast, strict⟩ failed
  · intro free
    by_cases equal : col.dataType = field.type
    · unfold castLeniently
      rw [if_pos equal]
      exact ⟨col, rfl⟩
    · obtain ⟨held, standing⟩ : ∃ held, resolved arrow batch field = some held :=
        Option.ne_none_iff_exists'.mp fun none => free (Or.inl none)
      have whole := (resolved_cast found equal).mp standing
      simp only [castLeniently, if_neg equal, mapError_ok]
      cases nested : field.type.isNested || col.dataType.isNested with
      | false => exact ⟨held, whole⟩
      | true =>
          exact (known.strict_whole inside found equal whole).mpr
            fun failed => free (Or.inr ⟨col, found, equal, nested, failed⟩)

/-- A column that is not stuck is made, and sets aside the rows it refuses. -/
theorem Known.leniently_made {field : Field} (inside : field ∈ coercer.target)
    (rejected : List (Option (String × String))) :
    (∃ result, coercer.leniently arrow batch field rejected = .ok result) ↔
      ¬Stuck arrow fails strays batch field := by
  unfold leniently
  cases found : batch.column field.label.name with
  | none =>
      unfold Stuck resolved
      rw [found]
      cases field.label.nullable with
      | true => simp
      | false => simp
  | some col =>
      rw [← known.castLeniently_ok inside found]
      dsimp only
      cases castLeniently arrow field col with
      | error text => simp
      | ok cast => simp

theorem Known.leniently_sound {field : Field} (inside : field ∈ coercer.target)
    {rejected after : List (Option (String × String))} {column : Column}
    (made : coercer.leniently arrow batch field rejected = .ok (column, after)) :
    resolved arrow batch field = some column ∧
      after = rejected.mapIdx fun row slot =>
        slot.or (verdictAt arrow coercer batch row field) := by
  unfold leniently at made
  cases found : batch.column field.label.name with
  | none =>
      rw [found] at made
      unfold verdictAt resolved
      rw [found]
      cases nullable : field.label.nullable with
      | true =>
          rw [nullable] at made
          cases made
          refine ⟨rfl, ?_⟩
          exact (mapIdx_unchanged _).symm
      | false =>
          rw [nullable] at made
          cases made
  | some col =>
      rw [found] at made
      dsimp only at made
      cases done : castLeniently arrow field col with
      | error text =>
          rw [done] at made
          cases made
      | ok cast =>
          rw [done] at made
          cases made
          have standing := known.castLeniently_resolved inside found done
          refine ⟨standing, ?_⟩
          unfold verdictAt
          rw [found, standing]

/-- The columns are made exactly where none is stuck. -/
theorem Known.examine_made {fields : List Field} (inside : ∀ field ∈ fields, field ∈ coercer.target)
    (rejected : List (Option (String × String))) :
    (∃ result, coercer.examine arrow batch fields rejected = .ok result) ↔
      ∀ field ∈ fields, ¬Stuck arrow fails strays batch field := by
  induction fields generalizing rejected with
  | nil => simp [examine]
  | cons field fields inductionHypothesis =>
      have first := known.leniently_made (inside field List.mem_cons_self) rejected
      have rest := inductionHypothesis fun other later =>
        inside other (List.mem_cons_of_mem _ later)
      rw [List.forall_mem_cons, ← first]
      unfold examine
      cases coercer.leniently arrow batch field rejected with
      | error text => simp
      | ok result =>
          obtain ⟨column, after⟩ := result
          rw [← rest after]
          dsimp only
          cases coercer.examine arrow batch fields after with
          | error text => simp
          | ok others => simp

/-- The columns are the resolved ones, and a row is set aside for the first that refuses it. -/
theorem Known.examine_sound {fields : List Field}
    (inside : ∀ field ∈ fields, field ∈ coercer.target)
    {rejected after : List (Option (String × String))} {columns : List Column}
    (made : coercer.examine arrow batch fields rejected = .ok (columns, after)) :
    List.Forall₂ (fun field column => resolved arrow batch field = some column) fields columns ∧
      after = rejected.mapIdx fun row slot =>
        slot.or (fields.findSome? (verdictAt arrow coercer batch row)) := by
  induction fields generalizing rejected columns with
  | nil =>
      cases made
      refine ⟨List.Forall₂.nil, ?_⟩
      exact (mapIdx_unchanged _).symm
  | cons field fields inductionHypothesis =>
      unfold examine at made
      cases first : coercer.leniently arrow batch field rejected with
      | error text =>
          rw [first] at made
          cases made
      | ok result =>
          obtain ⟨column, between⟩ := result
          rw [first] at made
          dsimp only at made
          cases rest : coercer.examine arrow batch fields between with
          | error text =>
              rw [rest] at made
              cases made
          | ok others =>
              rw [rest] at made
              cases made
              have here := known.leniently_sound (inside field List.mem_cons_self) first
              have there := inductionHypothesis
                (fun other later => inside other (List.mem_cons_of_mem _ later)) rest
              refine ⟨List.Forall₂.cons here.1 there.1, ?_⟩
              rw [there.2, here.2, List.mapIdx_mapIdx]
              apply List.ext_getElem?
              intro row
              rw [List.getElem?_mapIdx, List.getElem?_mapIdx]
              congr 1
              funext slot
              rw [Function.comp_apply, List.findSome?_cons, Option.or_assoc]
              cases verdictAt arrow coercer batch row field <;> rfl

end Known

end Ddi.Schema.Coercer
