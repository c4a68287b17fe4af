/-
Casting some rows of a batch succeeds exactly where none of them is at fault, and makes of them
what they are in the whole batch.
-/

import Ddi.Lib.Assoc
import Ddi.Lib.Paired
import Ddi.Schema.Agreement

namespace Ddi.Schema

theorem flagged_none (result : Option (List Bool)) :
    result.bind (List.findIdx? id) = none ↔ ∀ row, ¬Flagged result row := by
  cases result with
  | none => simp [Flagged]
  | some flags =>
      rw [Option.bind_some, List.findIdx?_eq_none_iff]
      constructor
      · intro clear row flagged
        obtain ⟨own, same, flag⟩ := flagged
        cases same
        exact Bool.noConfusion (clear true (List.mem_of_getElem? flag))
      · intro clear flag inside
        obtain ⟨row, held⟩ := List.mem_iff_getElem?.mp inside
        cases flag with
        | false => rfl
        | true => exact (clear row ⟨flags, rfl, held⟩).elim

namespace Coercer

variable {arrow : Arrow} {coercer : Coercer} {fails : Column → DataType → Nat → Prop}
  {strays : Column → DataType → List Bool → Prop} {batch : Batch}

theorem refusedFractions_flagged (col : Column) (target : DataType) (row : Nat) :
    Flagged (coercer.refusedFractions arrow col target) row ↔
      Drops arrow.canCastTypes coercer.fractions.sources col target row := by
  unfold refusedFractions
  cases coercer.fractions with
  | refused => exact droppedFractions_iff _ _ _ _ _
  | floatsTruncated => exact droppedFractions_iff _ _ _ _ _

theorem filter_column (keep : List Bool) (name : String) :
    (batch.filter arrow keep).column name =
      (batch.column name).map fun col => arrow.filter col keep :=
  Assoc.lookup_map batch.columns (fun _ col => arrow.filter col keep) name

theorem castStrictly_ok {field : Field} {col cast : Column} (apart : col.dataType ≠ field.type) :
    coercer.castStrictly arrow field col = .ok cast ↔
      arrow.castWithOptions false col field.type = .ok cast ∧
        ∀ row, ¬Drops arrow.canCastTypes coercer.fractions.sources col field.type row := by
  have none : (∀ row, ¬Drops arrow.canCastTypes coercer.fractions.sources col field.type row) ↔
      (coercer.refusedFractions arrow col field.type).bind (List.findIdx? id) = none := by
    rw [flagged_none]
    exact forall_congr' fun row => not_congr (refusedFractions_flagged col field.type row).symm
  rw [none, castStrictly, if_neg apart]
  cases arrow.castWithOptions false col field.type with
  | error cause => simp
  | ok own =>
      cases (coercer.refusedFractions arrow col field.type).bind (List.findIdx? id) with
      | none => simp
      | some row => simp

/-- The check for nulls where there may be none. -/
theorem nulls_ok {field : Field} {resolved out : Column} :
    (if (!field.label.nullable && decide (0 < resolved.nullCount)) = true then
        (.error (nullsText arrow field resolved.nullCount) : Except String Column)
      else .ok resolved) = .ok out ↔
      out = resolved ∧ (field.label.nullable = false → resolved.nullCount = 0) := by
  cases field.label.nullable with
  | true => simp [eq_comm]
  | false =>
      by_cases some : 0 < resolved.nullCount
      · have away : resolved.nullCount ≠ 0 := some.ne'
        simp [some, away]
      · have zero : resolved.nullCount = 0 := Nat.eq_zero_of_not_pos some
        simp [zero, eq_comm]

theorem resolved_cast {field : Field} {col held : Column}
    (found : batch.column field.label.name = some col) (apart : col.dataType ≠ field.type) :
    resolved arrow batch field = some held ↔
      arrow.castWithOptions true col field.type = .ok held := by
  simp only [resolved, found, if_neg apart]
  cases arrow.castWithOptions true col field.type with
  | error cause => simp [Except.toOption]
  | ok cast => simp [Except.toOption]

theorem resolved_same {field : Field} {col : Column}
    (found : batch.column field.label.name = some col) (equal : col.dataType = field.type) :
    resolved arrow batch field = some col := by
  simp only [resolved, found, if_pos equal]

/-- None of some rows is at fault for a column, and nothing else of its array fails. -/
def Clean (arrow : Arrow) (coercer : Coercer) (fails : Column → DataType → Nat → Prop)
    (strays : Column → DataType → List Bool → Prop) (batch : Batch) (keep : List Bool)
    (field : Field) : Prop :=
  (∀ row, keep[row]? = some true → ¬coercer.FaultyCell arrow fails batch field row) ∧
    ¬∃ col, batch.column field.label.name = some col ∧ col.dataType ≠ field.type ∧
      strays col field.type keep

theorem clean_valid {keep : List Bool} {field : Field} {held : Column}
    (clean : Clean arrow coercer fails strays batch keep field)
    (standing : resolved arrow batch field = some held)
    (nullable : field.label.nullable = false) (row : Nat) (kept : keep[row]? = some true) :
    held.isValid row = true := by
  cases found : batch.column field.label.name with
  | none =>
      simp only [resolved, found, nullable] at standing
      cases standing
  | some col =>
      cases valid : held.isValid row with
      | true => rfl
      | false =>
          exact (clean.1 row kept ⟨col, held, found, standing, Or.inr ⟨nullable, valid⟩⟩).elim

theorem clean_missing {field : Field} (found : batch.column field.label.name = none)
    (keep : List Bool) : Clean arrow coercer fails strays batch keep field := by
  constructor
  · intro row kept faulty
    obtain ⟨col, _, held, _⟩ := faulty
    rw [found] at held
    cases held
  · intro stray
    obtain ⟨col, held, _⟩ := stray
    rw [found] at held
    cases held

theorem clean_same {field : Field} {col : Column}
    (found : batch.column field.label.name = some col) (equal : col.dataType = field.type)
    (keep : List Bool) : Clean arrow coercer fails strays batch keep field ↔
      (field.label.nullable = false → ∀ row, keep[row]? = some true → col.isValid row = true) := by
  constructor
  · exact fun clean => clean_valid clean (resolved_same found equal)
  · intro valid
    constructor
    · intro row kept faulty
      obtain ⟨own, held, here, standing, fault⟩ := faulty
      rw [found] at here
      cases here
      rw [resolved_same found equal] at standing
      cases standing
      cases fault with
      | inl other => exact other.1 equal
      | inr null =>
          rw [valid null.1 row kept] at null
          cases null.2
    · intro stray
      obtain ⟨own, here, apart, _⟩ := stray
      rw [found] at here
      cases here
      exact apart equal

theorem clean_cast {field : Field} {col held : Column}
    (found : batch.column field.label.name = some col) (apart : col.dataType ≠ field.type)
    (standing : resolved arrow batch field = some held) (keep : List Bool) :
    Clean arrow coercer fails strays batch keep field ↔
      ((∀ row, keep[row]? = some true → ¬fails col field.type row ∧
        ¬Drops arrow.canCastTypes coercer.fractions.sources col field.type row) ∧
          ¬strays col field.type keep) ∧
        (field.label.nullable = false → ∀ row, keep[row]? = some true →
          held.isValid row = true) := by
  constructor
  · intro clean
    refine ⟨⟨fun row kept => ⟨fun fail => ?_, fun drops => ?_⟩, fun stray => ?_⟩, ?_⟩
    · exact clean.1 row kept ⟨col, held, found, standing, Or.inl ⟨apart, Or.inl fail⟩⟩
    · exact clean.1 row kept ⟨col, held, found, standing, Or.inl ⟨apart, Or.inr drops⟩⟩
    · exact clean.2 ⟨col, found, apart, stray⟩
    · exact clean_valid clean standing
  · intro given
    obtain ⟨⟨sound, unstray⟩, valid⟩ := given
    constructor
    · intro row kept faulty
      obtain ⟨own, other, here, standing', fault⟩ := faulty
      rw [found] at here
      cases here
      rw [standing] at standing'
      cases standing'
      rcases fault with ⟨_, fail | drops⟩ | null
      · exact (sound row kept).1 fail
      · exact (sound row kept).2 drops
      · rw [valid null.1 row kept] at null
        cases null.2
    · intro stray
      obtain ⟨own, here, _, strayed⟩ := stray
      rw [found] at here
      cases here
      exact unstray strayed

/-- What the cast of a batch is made of. -/
theorem coerce_ok {out : Batch} : coercer.coerce arrow batch = .ok out ↔
    ∃ columns, List.Forall₂ (fun field column =>
        coercer.strictly arrow batch field = .ok column) coercer.target columns ∧
      arrow.tryNew coercer.target columns = .ok out := by
  unfold coerce assemble
  cases made : coercer.target.mapM (coercer.strictly arrow batch) with
  | error text =>
      constructor
      · intro impossible
        cases impossible
      · intro given
        obtain ⟨columns, paired, _⟩ := given
        rw [(Paired.mapM_ok _ _ _).mpr paired] at made
        cases made
  | ok own =>
      have paired := (Paired.mapM_ok _ _ _).mp made
      dsimp only
      constructor
      · intro given
        refine ⟨own, paired, ?_⟩
        cases whole : arrow.tryNew coercer.target own with
        | error cause =>
            rw [whole] at given
            cases given
        | ok batch =>
            rw [whole] at given
            cases given
            rfl
      · intro given
        obtain ⟨columns, again, whole⟩ := given
        rw [(Paired.mapM_ok _ _ _).mpr again] at made
        cases made
        rw [whole]
        rfl

section Known

variable (known : coercer.Known arrow fails strays batch)

include known

theorem Known.column {name : String} {col : Column} (held : batch.column name = some col) :
    col.length = batch.rows ∧ Filters arrow col :=
  ⟨known.aligned _ (Assoc.mem_of_lookup held), known.filters _ (Assoc.mem_of_lookup held)⟩

theorem Known.held_typed {field : Field} (inside : field ∈ coercer.target) {held : Column}
    (same : resolved arrow batch field = some held) :
    held.dataType = field.type ∧ held.length = batch.rows := by
  unfold resolved at same
  cases found : batch.column field.label.name with
  | none =>
      rw [found] at same
      dsimp only at same
      split at same
      · cases same
        exact (known.nulls field inside).typed batch.rows
      · cases same
  | some col =>
      rw [found] at same
      dsimp only at same
      split at same
      · next equal =>
        cases same
        exact ⟨equal, (known.column found).1⟩
      · next apart =>
        cases cast : arrow.castWithOptions true col field.type with
        | error cause =>
            rw [cast] at same
            cases same
        | ok whole =>
            rw [cast] at same
            cases same
            have result := (known.casts field inside col found apart).result _ cast
            exact ⟨result.1, result.2.1.trans (known.column found).1⟩

/-- Some of the rows are cast strictly where none of them fails. -/
theorem Known.castStrictly_part {field : Field} (inside : field ∈ coercer.target)
    {col whole : Column} (found : batch.column field.label.name = some col)
    (apart : col.dataType ≠ field.type)
    (done : arrow.castWithOptions true col field.type = .ok whole)
    {keep : List Bool} (counted : keep.length = batch.rows) :
    (∃ cast, coercer.castStrictly arrow field (arrow.filter col keep) = .ok cast) ↔
      (∀ row, keep[row]? = some true → ¬fails col field.type row ∧
        ¬Drops arrow.canCastTypes coercer.fractions.sources col field.type row) ∧
          ¬strays col field.type keep := by
  obtain ⟨lengths, filters⟩ := known.column found
  have counted' : keep.length = col.length := counted.trans lengths.symm
  have casts := known.casts field inside col found apart
  have fractions := casts.fractions coercer.fractions.sources keep counted'
  have apart' : (arrow.filter col keep).dataType ≠ field.type := by
    rwa [filters.type keep counted']
  constructor
  · intro given
    obtain ⟨cast, strictly⟩ := given
    obtain ⟨strict, undropped⟩ := (castStrictly_ok apart').mp strictly
    obtain ⟨converts, unstray⟩ := (casts.strict whole done keep counted').mp ⟨cast, strict⟩
    refine ⟨fun row kept => ⟨converts row kept, fun drops => ?_⟩, unstray⟩
    obtain ⟨place, dropped⟩ := fractions.mpr ⟨row, kept, drops⟩
    exact undropped place dropped
  · intro given
    obtain ⟨clear, unstray⟩ := given
    obtain ⟨cast, strict⟩ := (casts.strict whole done keep counted').mpr
      ⟨fun row kept => (clear row kept).1, unstray⟩
    refine ⟨cast, (castStrictly_ok apart').mpr ⟨strict, fun place dropped => ?_⟩⟩
    obtain ⟨row, kept, drops⟩ := fractions.mp ⟨place, dropped⟩
    exact (clear row kept).2 drops

/-- The rows are cast to what is cast of them. -/
theorem Known.cast_equal {field : Field} (inside : field ∈ coercer.target) {col : Column}
    (found : batch.column field.label.name = some col) (apart : col.dataType ≠ field.type)
    {keep : List Bool} (counted : keep.length = batch.rows) {cast whole : Column}
    (strictly : coercer.castStrictly arrow field (arrow.filter col keep) = .ok cast)
    (done : arrow.castWithOptions true col field.type = .ok whole) :
    arrow.equal cast (arrow.filter whole keep) = true := by
  obtain ⟨lengths, filters⟩ := known.column found
  have counted' : keep.length = col.length := counted.trans lengths.symm
  have apart' : (arrow.filter col keep).dataType ≠ field.type := by
    rwa [filters.type keep counted']
  exact (known.casts field inside col found apart).filtered keep counted' whole cast done
    ((castStrictly_ok apart').mp strictly).1

/-- A target column of some of the rows can be made exactly where they are clean. -/
theorem Known.strictly_part {field : Field} (inside : field ∈ coercer.target) {held : Column}
    (standing : resolved arrow batch field = some held) {keep : List Bool}
    (counted : keep.length = batch.rows) :
    (∃ out, coercer.strictly arrow (batch.filter arrow keep) field = .ok out) ↔
      Clean arrow coercer fails strays batch keep field := by
  unfold strictly
  rw [filter_column]
  cases found : batch.column field.label.name with
  | none =>
      have clean : Clean arrow coercer fails strays batch keep field := clean_missing found keep
      simp only [resolved, found] at standing
      cases nullable : field.label.nullable with
      | true => simp [clean]
      | false =>
          rw [nullable] at standing
          cases standing
  | some col =>
      obtain ⟨lengths, filters⟩ := known.column found
      have counted' : keep.length = col.length := counted.trans lengths.symm
      have type := filters.type keep counted'
      rw [Option.map_some]
      dsimp only
      by_cases equal : col.dataType = field.type
      · rw [castStrictly, if_pos (type.trans equal), clean_same found equal]
        simp only [nulls_ok, filters.nulls keep counted']
        simp
      · have done := (resolved_cast found equal).mp standing
        have part := known.castStrictly_part inside found equal done counted
        obtain ⟨_, lengths', filters'⟩ :=
          (known.casts field inside col found equal).result held done
        have nulls := filters'.nulls keep (counted'.trans lengths'.symm)
        rw [clean_cast found equal standing keep]
        constructor
        · intro given
          obtain ⟨out, given⟩ := given
          cases strictly : coercer.castStrictly arrow field (arrow.filter col keep) with
          | error text =>
              rw [strictly] at given
              cases given
          | ok cast =>
              rw [strictly] at given
              obtain ⟨same, valid⟩ := nulls_ok.mp given
              refine ⟨part.mp ⟨cast, strictly⟩, fun nullable => nulls.mp ?_⟩
              rw [← (known.assembles.alike _ _
                (known.cast_equal inside found equal counted strictly done)).2.2]
              exact valid nullable
        · intro given
          obtain ⟨sound, valid⟩ := given
          obtain ⟨cast, strictly⟩ := part.mpr sound
          refine ⟨cast, ?_⟩
          rw [strictly]
          refine nulls_ok.mpr ⟨rfl, fun nullable => ?_⟩
          rw [(known.assembles.alike _ _
            (known.cast_equal inside found equal counted strictly done)).2.2]
          exact nulls.mpr (valid nullable)

/-- A target column of some of the rows is those rows of the column. -/
theorem Known.strictly_equal {field : Field} (inside : field ∈ coercer.target) {keep : List Bool}
    (counted : keep.length = batch.rows) {out held : Column}
    (strictly : coercer.strictly arrow (batch.filter arrow keep) field = .ok out)
    (standing : resolved arrow batch field = some held) :
    arrow.equal out (arrow.filter held keep) = true := by
  unfold Coercer.strictly at strictly
  rw [filter_column] at strictly
  cases found : batch.column field.label.name with
  | none =>
      simp only [resolved, found] at standing
      rw [found] at strictly
      cases nullable : field.label.nullable with
      | false =>
          rw [nullable] at standing
          cases standing
      | true =>
          rw [nullable] at standing strictly
          cases standing
          cases strictly
          exact (known.nulls field inside).filtered batch.rows keep counted
  | some col =>
      rw [found] at strictly
      dsimp only [Option.map_some] at strictly
      cases part : coercer.castStrictly arrow field (arrow.filter col keep) with
      | error text =>
          rw [part] at strictly
          cases strictly
      | ok cast =>
          rw [part] at strictly
          obtain ⟨same, _⟩ := nulls_ok.mp strictly
          rw [same]
          by_cases equal : col.dataType = field.type
          · obtain ⟨lengths, filters⟩ := known.column found
            have type := filters.type keep (counted.trans lengths.symm)
            rw [castStrictly, if_pos (type.trans equal)] at part
            rw [resolved_same found equal] at standing
            cases part
            cases standing
            exact known.assembles.equal_refl _
          · exact known.cast_equal inside found equal counted part
              ((resolved_cast found equal).mp standing)

/-- A target column of the whole batch is the column. -/
theorem Known.strictly_whole {field : Field} (inside : field ∈ coercer.target) {out : Column}
    (strictly : coercer.strictly arrow batch field = .ok out) :
    resolved arrow batch field = some out := by
  unfold Coercer.strictly at strictly
  cases found : batch.column field.label.name with
  | none =>
      rw [found] at strictly
      simp only [resolved, found]
      cases nullable : field.label.nullable with
      | false =>
          rw [nullable] at strictly
          cases strictly
      | true =>
          rw [nullable] at strictly
          cases strictly
          rfl
  | some col =>
      rw [found] at strictly
      dsimp only at strictly
      cases cast : coercer.castStrictly arrow field col with
      | error text =>
          rw [cast] at strictly
          cases strictly
      | ok own =>
          rw [cast] at strictly
          obtain ⟨same, _⟩ := nulls_ok.mp strictly
          rw [same]
          by_cases equal : col.dataType = field.type
          · rw [castStrictly, if_pos equal] at cast
            cases cast
            exact resolved_same found equal
          · apply (resolved_cast found equal).mpr
            exact (known.casts field inside col found equal).either _
              ((castStrictly_ok equal).mp cast).1

theorem Known.held_filters {field : Field} (inside : field ∈ coercer.target) {col held : Column}
    (found : batch.column field.label.name = some col)
    (standing : resolved arrow batch field = some held) : Filters arrow held := by
  by_cases equal : col.dataType = field.type
  · rw [resolved_same found equal] at standing
    cases standing
    exact (known.column found).2
  · exact ((known.casts field inside col found equal).result held
      ((resolved_cast found equal).mp standing)).2.2

/-- The rows of a column are so many of its type. -/
theorem Known.part_typed {field : Field} (inside : field ∈ coercer.target) {keep : List Bool}
    (counted : keep.length = batch.rows) {held : Column}
    (standing : resolved arrow batch field = some held) :
    (arrow.filter held keep).dataType = field.type ∧
      (arrow.filter held keep).length = keep.count true := by
  have typed := known.held_typed inside standing
  cases found : batch.column field.label.name with
  | none =>
      simp only [resolved, found] at standing
      cases nullable : field.label.nullable with
      | false =>
          rw [nullable] at standing
          cases standing
      | true =>
          rw [nullable] at standing
          cases standing
          have alike := known.assembles.alike _ _
            ((known.nulls field inside).filtered batch.rows keep counted)
          have nulls := (known.nulls field inside).typed (keep.count true)
          exact ⟨alike.1.symm.trans nulls.1, alike.2.1.symm.trans nulls.2⟩
  | some col =>
      have filters := known.held_filters inside found standing
      have counted' : keep.length = held.length := counted.trans typed.2.symm
      exact ⟨(filters.type keep counted').trans typed.1, filters.rows keep counted'⟩

/-- Rows of a column that are valid where they must be can stand in a batch. -/
theorem Known.part_takes {field : Field} (inside : field ∈ coercer.target) {keep : List Bool}
    (counted : keep.length = batch.rows) {held : Column}
    (standing : resolved arrow batch field = some held)
    (valid : field.label.nullable = false → ∀ row, keep[row]? = some true →
      held.isValid row = true) :
    field.Takes (keep.count true) (arrow.filter held keep) := by
  have typed := known.held_typed inside standing
  obtain ⟨type, rows⟩ := known.part_typed inside counted standing
  refine ⟨type, rows, fun nullable => ?_⟩
  cases found : batch.column field.label.name with
  | none =>
      simp only [resolved, found, nullable] at standing
      cases standing
  | some col =>
      have filters := known.held_filters inside found standing
      exact (filters.nulls keep (counted.trans typed.2.symm)).mpr (valid nullable)

theorem Known.strictly_takes {field : Field} (inside : field ∈ coercer.target) {held : Column}
    (standing : resolved arrow batch field = some held) {keep : List Bool}
    (counted : keep.length = batch.rows) {out : Column}
    (strictly : coercer.strictly arrow (batch.filter arrow keep) field = .ok out) :
    field.Takes (keep.count true) out := by
  have clean := (known.strictly_part inside standing counted).mp ⟨out, strictly⟩
  obtain ⟨type, rows, nulls⟩ :=
    known.part_takes inside counted standing (clean_valid clean standing)
  obtain ⟨sameType, sameRows, sameNulls⟩ :=
    known.assembles.alike _ _ (known.strictly_equal inside counted strictly standing)
  refine ⟨sameType.trans type, sameRows.trans rows, fun nullable => ?_⟩
  rw [sameNulls]
  exact nulls nullable

/-- Where every column can be resolved, some of the rows can be cast exactly where they are
clean. -/
theorem Known.coerce_part (any : coercer.target ≠ [])
    (standing : ∀ field ∈ coercer.target, ∃ held, resolved arrow batch field = some held)
    {keep : List Bool} (counted : keep.length = batch.rows) :
    (∃ out, coercer.coerce arrow (batch.filter arrow keep) = .ok out) ↔
      ∀ field ∈ coercer.target, Clean arrow coercer fails strays batch keep field := by
  constructor
  · intro given field inside
    obtain ⟨out, given⟩ := given
    obtain ⟨columns, paired, _⟩ := coerce_ok.mp given
    obtain ⟨column, _, strictly⟩ := Paired.exists_mem paired inside
    obtain ⟨held, stands⟩ := standing field inside
    exact (known.strictly_part inside stands counted).mp ⟨column, strictly⟩
  · intro clean
    obtain ⟨columns, paired⟩ := Paired.exists_outs fun field inside =>
      (known.strictly_part inside (standing field inside).choose_spec counted).mpr
        (clean field inside)
    have takes : List.Forall₂ (fun field column => field.Takes (keep.count true) column)
        coercer.target columns :=
      Paired.imp_mem paired fun field inside column strictly =>
        known.strictly_takes inside (standing field inside).choose_spec counted strictly
    obtain ⟨out, made⟩ := (known.assembles.check _ _).mpr ⟨any, _, takes⟩
    exact ⟨out, coerce_ok.mpr ⟨columns, paired, made⟩⟩

end Known

end Coercer

end Ddi.Schema
