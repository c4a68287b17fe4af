/-
The masks tell exactly where casting a batch whole and setting rows aside agree.
-/

import Ddi.Schema.QuarantineExact

namespace Ddi.Schema.Coercer

variable {arrow : Arrow} {coercer : Coercer} {fails : Column → DataType → Nat → Prop}
  {strays : Column → DataType → List Bool → Prop} {batch : Batch}

theorem only_kept {rows row : Nat} (within : row < rows) (other : Nat) :
    (only rows row)[other]? = some true ↔ other = row := by
  unfold only
  rw [List.getElem?_map]
  by_cases inside : other < rows
  · rw [List.getElem?_range inside]
    simp
  · rw [List.getElem?_eq_none (by simpa using inside)]
    constructor
    · intro impossible
      cases impossible
    · intro same
      exact (inside (same ▸ within)).elim

theorem only_length (rows row : Nat) : (only rows row).length = rows := by
  unfold only
  rw [List.length_map, List.length_range]

/-- A mask is told by what it keeps. -/
theorem mask_unique {keep other : List Bool} (counted : keep.length = other.length)
    (same : ∀ row : Nat, keep[row]? = some true ↔ other[row]? = some true) : keep = other := by
  apply List.ext_getElem counted
  intro row left right
  have own := same row
  rw [List.getElem?_eq_getElem left, List.getElem?_eq_getElem right] at own
  simp only [Option.some.injEq] at own
  exact Bool.eq_iff_iff.mpr own

theorem clean_all (keep : List Bool) :
    (∀ field ∈ coercer.target, Clean arrow coercer fails strays batch keep field) ↔
      (∀ row, keep[row]? = some true → ¬coercer.Faulty arrow fails batch row) ∧
        ¬coercer.Stray strays batch keep := by
  constructor
  · intro clean
    constructor
    · intro row kept faulty
      obtain ⟨field, inside, fault⟩ := faulty
      exact (clean field inside).1 row kept fault
    · intro stray
      obtain ⟨field, inside, col, found, apart, strayed⟩ := stray
      exact (clean field inside).2 ⟨col, found, apart, strayed⟩
  · intro given field inside
    constructor
    · exact fun row kept fault => given.1 row kept ⟨field, inside, fault⟩
    · intro stray
      obtain ⟨col, found, apart, strayed⟩ := stray
      exact given.2 ⟨field, inside, col, found, apart, strayed⟩

/-- What the masks refuse is at fault, or is a null that they hide. -/
theorem refusedCell_cases {field : Field} {row : Nat}
    (refused : coercer.RefusedCell arrow batch field row) :
    coercer.FaultyCell arrow fails batch field row ∨
      coercer.HiddenNull arrow fails batch field row := by
  obtain ⟨col, held, found, standing, shown⟩ := refused
  by_cases fault : coercer.FaultyCell arrow fails batch field row
  · exact Or.inl fault
  · right
    have unfailed (apart : col.dataType ≠ field.type) : ¬fails col field.type row :=
      fun fail => fault ⟨col, held, found, standing, Or.inl ⟨apart, Or.inl fail⟩⟩
    have undropped : ¬Drops arrow.canCastTypes coercer.fractions.sources col field.type row :=
      fun drops => fault ⟨col, held, found, standing, Or.inl ⟨drops.apart, Or.inr drops⟩⟩
    cases valid : held.isValid row with
    | true =>
        rw [valid] at shown
        exact (undropped shown).elim
    | false =>
        rw [valid] at shown
        have nullable : field.label.nullable = true := by
          cases nullable : field.label.nullable with
          | true => rfl
          | false => exact (fault ⟨col, held, found, standing, Or.inr ⟨nullable, valid⟩⟩).elim
        have before : col.isValid row = true := by
          cases shown with
          | inl before => exact before
          | inr must =>
              rw [nullable] at must
              cases must
        have apart : col.dataType ≠ field.type := by
          intro equal
          rw [resolved_same found equal] at standing
          cases standing
          rw [before] at valid
          cases valid
        exact ⟨col, held, found, standing, apart, nullable, before, valid, unfailed apart,
          undropped⟩

theorem hiddenNull_refused {field : Field} {row : Nat}
    (hidden : coercer.HiddenNull arrow fails batch field row) :
    coercer.RefusedCell arrow batch field row := by
  obtain ⟨col, held, found, standing, _, _, before, after, _⟩ := hidden
  refine ⟨col, held, found, standing, ?_⟩
  rw [after]
  exact Or.inl before

/-- What is at fault the masks refuse, or do not show. -/
theorem faultyCell_cases {field : Field} {row : Nat}
    (fault : coercer.FaultyCell arrow fails batch field row) :
    coercer.RefusedCell arrow batch field row ∨
      coercer.UnseenFault arrow fails batch field row := by
  obtain ⟨col, held, found, standing, own⟩ := fault
  by_cases refused : coercer.RefusedCell arrow batch field row
  · exact Or.inl refused
  · right
    have shown : ¬if held.isValid row = true then
          Drops arrow.canCastTypes coercer.fractions.sources col field.type row
        else col.isValid row = true ∨ field.label.nullable = false :=
      fun shown => refused ⟨col, held, found, standing, shown⟩
    cases valid : held.isValid row with
    | true =>
        rw [valid] at shown own
        cases own with
        | inl wrong =>
            refine ⟨col, held, found, standing, wrong.1, Or.inl ⟨valid, ?_, shown⟩⟩
            exact wrong.2.resolve_right shown
        | inr null => cases null.2
    | false =>
        rw [valid] at shown own
        obtain ⟨before, must⟩ := not_or.mp shown
        have nullable : field.label.nullable = true := Bool.eq_true_of_not_eq_false must
        cases own with
        | inl wrong =>
            exact ⟨col, held, found, standing, wrong.1, Or.inr
              ⟨valid, Bool.eq_false_of_not_eq_true before, nullable, wrong.2⟩⟩
        | inr null => exact (must null.1).elim

theorem unseenFault_faulty {field : Field} {row : Nat}
    (unseen : coercer.UnseenFault arrow fails batch field row) :
    coercer.FaultyCell arrow fails batch field row := by
  obtain ⟨col, held, found, standing, apart, own⟩ := unseen
  refine ⟨col, held, found, standing, Or.inl ⟨apart, ?_⟩⟩
  cases own with
  | inl standing => exact Or.inl standing.2.1
  | inr gone => exact gone.2.2.2

/-- Equal columns under the same names. -/
theorem named_equal {columns others : List Column}
    (equal : List.Forall₂ (fun column other => arrow.equal column other = true) columns others)
    (names : List String) :
    List.Forall₂ (fun column own => column.1 = own.1 ∧ arrow.equal column.2 own.2 = true)
      (names.zip columns) (names.zip others) := by
  induction equal generalizing names with
  | nil =>
      rw [List.zip_nil_right]
      exact List.Forall₂.nil
  | cons first _ inductionHypothesis =>
      cases names with
      | nil => exact List.Forall₂.nil
      | cons name names =>
          exact List.Forall₂.cons ⟨rfl, first⟩ (inductionHypothesis names)

/-- Batches of equal columns are the same. -/
theorem same_batch (assembles : Assembles arrow) {fields : List Field}
    {columns others : List Column} {out good : Batch}
    (equal : List.Forall₂ (fun column other => arrow.equal column other = true) columns others)
    (made : arrow.tryNew fields columns = .ok out)
    (again : arrow.tryNew fields others = .ok good) : out.Same arrow good := by
  obtain ⟨outColumns, outRows⟩ := assembles.made _ _ _ made
  obtain ⟨goodColumns, goodRows⟩ := assembles.made _ _ _ again
  constructor
  · obtain ⟨any, rows, paired⟩ := (assembles.check _ _).mp ⟨out, made⟩
    cases equal with
    | nil =>
        rw [List.forall₂_nil_right_iff] at paired
        exact (any paired).elim
    | cons first _ =>
        rw [← outRows _ List.mem_cons_self, ← goodRows _ List.mem_cons_self]
        exact (assembles.alike _ _ first).2.1
  · rw [outColumns, goodColumns]
    exact named_equal equal _

theorem unrefused_valid {field : Field} {held : Column} {row : Nat}
    (standing : resolved arrow batch field = some held) (nullable : field.label.nullable = false)
    (unrefused : ¬coercer.RefusedCell arrow batch field row) : held.isValid row = true := by
  cases found : batch.column field.label.name with
  | none =>
      simp only [resolved, found, nullable] at standing
      cases standing
  | some col =>
      cases valid : held.isValid row with
      | true => rfl
      | false =>
          have refused : coercer.RefusedCell arrow batch field row := by
            refine ⟨col, held, found, standing, ?_⟩
            rw [valid]
            exact Or.inr nullable
          exact (unrefused refused).elim

/-- What is set aside is what the masks refuse, and the rest is put together. -/
theorem quarantined {columns : List Column} {rejected : List (Option (String × String))}
    (made : coercer.examine arrow batch coercer.target (List.replicate batch.rows none) =
      .ok (columns, rejected)) {coerced : Coerced}
    (done : coercer.coerceQuarantining arrow batch = .ok coerced) :
    if rejected.all Option.isNone = true then
      coerced.bad = none ∧ arrow.tryNew coercer.target columns = .ok coerced.good
    else
      coerced.bad.map Rejected.rows = some (batch.filter arrow (rejected.map Option.isSome)) ∧
        arrow.tryNew coercer.target
          (columns.map fun col => arrow.filter col (rejected.map Option.isNone)) =
            .ok coerced.good := by
  unfold coerceQuarantining assemble at done
  rw [made] at done
  dsimp only at done
  split
  · next clear =>
    rw [if_pos clear] at done
    cases whole : arrow.tryNew coercer.target columns with
    | error cause =>
        rw [whole] at done
        cases done
    | ok good =>
        rw [whole] at done
        cases done
        exact ⟨rfl, rfl⟩
  · next some =>
    rw [if_neg some] at done
    cases part : arrow.tryNew coercer.target
        (columns.map fun col => arrow.filter col (rejected.map Option.isNone)) with
    | error cause =>
        rw [part] at done
        cases done
    | ok good =>
        rw [part] at done
        cases done
        exact ⟨rfl, rfl⟩

theorem quarantined_exists {columns : List Column} {rejected : List (Option (String × String))}
    (made : coercer.examine arrow batch coercer.target (List.replicate batch.rows none) =
      .ok (columns, rejected))
    (whole : rejected.all Option.isNone = true →
      ∃ good, arrow.tryNew coercer.target columns = .ok good)
    (part : ∃ good, arrow.tryNew coercer.target
      (columns.map fun col => arrow.filter col (rejected.map Option.isNone)) = .ok good) :
    ∃ coerced, coercer.coerceQuarantining arrow batch = .ok coerced := by
  unfold coerceQuarantining assemble
  rw [made]
  dsimp only
  split
  · next clear =>
    obtain ⟨good, made⟩ := whole clear
    rw [made]
    exact ⟨_, rfl⟩
  · obtain ⟨good, made⟩ := part
    rw [made]
    exact ⟨_, rfl⟩

section Known

variable (known : coercer.Known arrow fails strays batch)

include known

theorem Known.filter_whole : batch.filter arrow (List.replicate batch.rows true) = batch := by
  have columns : batch.columns.map (fun column =>
      (column.1, arrow.filter column.2 (List.replicate batch.rows true))) = batch.columns := by
    rw [@List.map_congr_left _ _ _ _ id, List.map_id]
    intro column inside
    have filters := known.filters column inside
    have whole := filters.whole
    rw [known.aligned column inside] at whole
    rw [whole]
    rfl
  unfold Batch.filter
  rw [columns, List.count_replicate_self]

theorem Known.parts {keep : List Bool} (counted : keep.length = batch.rows)
    (free : ¬coercer.Broken arrow fails strays batch) :
    (∃ out, coercer.coerce arrow (batch.filter arrow keep) = .ok out) ↔
      (∀ row, keep[row]? = some true → ¬coercer.Faulty arrow fails batch row) ∧
        ¬coercer.Stray strays batch keep := by
  obtain ⟨any, unstuck⟩ := not_or.mp free
  rw [← clean_all]
  apply known.coerce_part any _ counted
  intro field inside
  exact Option.ne_none_iff_exists'.mp fun none => unstuck ⟨field, inside, Or.inl none⟩

theorem Known.whole (free : ¬coercer.Broken arrow fails strays batch) :
    (∃ out, coercer.coerce arrow batch = .ok out) ↔
      (∀ row, row < batch.rows → ¬coercer.Faulty arrow fails batch row) ∧
        ¬coercer.Stray strays batch (List.replicate batch.rows true) := by
  have parts := known.parts (@List.length_replicate _ batch.rows true) free
  rw [known.filter_whole] at parts
  rw [parts]
  simp only [replicate_kept]

theorem Known.alone (free : ¬coercer.Broken arrow fails strays batch) {row : Nat}
    (within : row < batch.rows) :
    (∃ out, coercer.coerce arrow (batch.filter arrow (only batch.rows row)) = .ok out) ↔
      ¬coercer.Faulty arrow fails batch row ∧
        ¬coercer.Stray strays batch (only batch.rows row) := by
  rw [known.parts (only_length _ _) free]
  simp only [only_kept within, forall_eq]

/-- A value of a row that no row refers to once it is set apart does not convert: neither it nor
the row does in the whole batch. -/
theorem Known.stray_alone (free : ¬coercer.Broken arrow fails strays batch) {keep : List Bool}
    (counted : keep.length = batch.rows) (stray : coercer.Stray strays batch keep) :
    coercer.Stray strays batch (List.replicate batch.rows true) ∨
      ∃ row, row < batch.rows ∧ coercer.Faulty arrow fails batch row := by
  obtain ⟨field, inside, col, found, apart, strayed⟩ := stray
  have lengths := (known.column found).1
  cases (known.casts field inside col found apart).stray keep (counted.trans lengths.symm)
      strayed with
  | inl whole =>
      rw [lengths] at whole
      exact Or.inl ⟨field, inside, col, found, apart, whole⟩
  | inr dropped =>
      obtain ⟨row, gone, fail⟩ := dropped
      obtain ⟨held, standing⟩ : ∃ held, resolved arrow batch field = some held :=
        Option.ne_none_iff_exists'.mp fun none =>
          (not_or.mp free).2 ⟨field, inside, Or.inl none⟩
      have within : row < batch.rows := by
        rw [← counted]
        exact (List.getElem?_eq_some_iff.mp gone).1
      exact Or.inr ⟨row, within, field, inside, col, held, found, standing,
        Or.inl ⟨apart, Or.inl fail⟩⟩

/-- The columns are the resolved ones, and the rows set aside those that are refused. -/
theorem Known.examined (free : ¬coercer.Broken arrow fails strays batch) :
    ∃ columns rejected, coercer.examine arrow batch coercer.target
        (List.replicate batch.rows none) = .ok (columns, rejected) ∧
      List.Forall₂ (fun field column => resolved arrow batch field = some column)
        coercer.target columns ∧
      rejected.length = batch.rows ∧
      ∀ row, (∃ reject, rejected[row]? = some (some reject)) ↔
        row < batch.rows ∧ coercer.Refused arrow batch row := by
  have unstuck : ∀ field ∈ coercer.target, ¬Stuck arrow fails strays batch field :=
    fun field inside stuck => free (Or.inr ⟨field, inside, stuck⟩)
  obtain ⟨⟨columns, rejected⟩, made⟩ :=
    (known.examine_made (fun _ inside => inside) (List.replicate batch.rows none)).mpr unstuck
  obtain ⟨paired, slots⟩ := known.examine_sound (fun _ inside => inside) made
  refine ⟨columns, rejected, made, paired, ?_, fun row => ?_⟩
  · rw [slots, List.length_mapIdx, List.length_replicate]
  · rw [slots, List.getElem?_mapIdx, List.getElem?_replicate]
    have refused : (∃ reject, coercer.target.findSome? (verdictAt arrow coercer batch row) =
        some reject) ↔ coercer.Refused arrow batch row := by
      rw [← Option.isSome_iff_exists, List.findSome?_isSome_iff]
      simp only [verdictAt_refuses]
      rfl
    split
    · next within => simp [within, refused]
    · next outside => simp [outside]

theorem Known.held_takes {field : Field} (inside : field ∈ coercer.target) {held : Column}
    (standing : resolved arrow batch field = some held)
    (valid : field.label.nullable = false → ∀ row, row < batch.rows → held.isValid row = true) :
    field.Takes batch.rows held := by
  obtain ⟨type, rows⟩ := known.held_typed inside standing
  refine ⟨type, rows, fun nullable => ?_⟩
  cases found : batch.column field.label.name with
  | none =>
      simp only [resolved, found, nullable] at standing
      cases standing
  | some col =>
      have filters := known.held_filters inside found standing
      have nulls := filters.nulls (List.replicate held.length true) List.length_replicate
      rw [filters.whole] at nulls
      apply nulls.mpr
      intro row kept
      rw [rows] at kept
      exact valid nullable row ((replicate_kept _ _).mp kept)

/-- The whole columns can be put together where no row is refused. -/
theorem Known.assembled_whole (any : coercer.target ≠ []) {columns : List Column}
    (paired : List.Forall₂ (fun field column => resolved arrow batch field = some column)
      coercer.target columns)
    (clear : ∀ row, row < batch.rows → ¬coercer.Refused arrow batch row) :
    ∃ good, arrow.tryNew coercer.target columns = .ok good := by
  apply (known.assembles.check _ _).mpr
  refine ⟨any, batch.rows, Paired.imp_mem paired fun field inside held standing => ?_⟩
  exact known.held_takes inside standing fun nullable row within =>
    unrefused_valid standing nullable fun refused => clear row within ⟨field, inside, refused⟩

/-- So can some rows of the columns that are not refused. -/
theorem Known.assembled_part (any : coercer.target ≠ []) {columns : List Column}
    (paired : List.Forall₂ (fun field column => resolved arrow batch field = some column)
      coercer.target columns) {keep : List Bool} (counted : keep.length = batch.rows)
    (clear : ∀ row, keep[row]? = some true → ¬coercer.Refused arrow batch row) :
    ∃ good, arrow.tryNew coercer.target (columns.map fun col => arrow.filter col keep) =
      .ok good := by
  apply (known.assembles.check _ _).mpr
  refine ⟨any, keep.count true, List.forall₂_map_right_iff.mpr
    (Paired.imp_mem paired fun field inside held standing => ?_)⟩
  exact known.part_takes inside counted standing fun nullable row kept =>
    unrefused_valid standing nullable fun refused => clear row kept ⟨field, inside, refused⟩

/-- The cast of some rows is the same batch as those rows of the columns. -/
theorem Known.part_same {columns : List Column}
    (paired : List.Forall₂ (fun field column => resolved arrow batch field = some column)
      coercer.target columns) {keep : List Bool} (counted : keep.length = batch.rows)
    {out good : Batch} (whole : coercer.coerce arrow (batch.filter arrow keep) = .ok out)
    (made : arrow.tryNew coercer.target (columns.map fun col => arrow.filter col keep) =
      .ok good) : out.Same arrow good := by
  obtain ⟨own, strictly, again⟩ := coerce_ok.mp whole
  have equal : List.Forall₂ (fun column held =>
      arrow.equal column (arrow.filter held keep) = true) own columns :=
    Paired.join strictly paired fun field inside column held done standing =>
      known.strictly_equal inside counted done standing
  exact same_batch known.assembles (List.forall₂_map_right_iff.mpr equal) again made

/-- The cast of the whole batch is the columns put together. -/
theorem Known.whole_same {columns : List Column}
    (paired : List.Forall₂ (fun field column => resolved arrow batch field = some column)
      coercer.target columns) {out good : Batch} (whole : coercer.coerce arrow batch = .ok out)
    (made : arrow.tryNew coercer.target columns = .ok good) : good = out := by
  obtain ⟨own, strictly, again⟩ := coerce_ok.mp whole
  have same : columns = own := Paired.unique paired
    (Paired.imp_mem strictly fun field inside column done => known.strictly_whole inside done)
    fun field inside column other one two => Option.some.inj (one.symm.trans two)
  rw [same, again] at made
  cases made
  rfl

/-- Where no row can be told to be at fault, the batch fails either way. -/
theorem Known.broken_fails (broken : coercer.Broken arrow fails strays batch) :
    (¬∃ out, coercer.coerce arrow batch = .ok out) ∧
      ∀ coerced, coercer.coerceQuarantining arrow batch ≠ .ok coerced := by
  cases broken with
  | inl empty =>
      constructor
      · intro given
        obtain ⟨out, given⟩ := given
        obtain ⟨columns, _, made⟩ := coerce_ok.mp given
        exact ((known.assembles.check _ _).mp ⟨out, made⟩).1 empty
      intro coerced done
      have made : coercer.examine arrow batch coercer.target (List.replicate batch.rows none) =
          .ok ([], List.replicate batch.rows none) := by
        rw [empty]
        rfl
      have result := quarantined made done
      rw [if_pos (by simp)] at result
      exact ((known.assembles.check _ _).mp ⟨_, result.2⟩).1 empty
  | inr stuck =>
      obtain ⟨field, inside, stuck⟩ := stuck
      constructor
      · intro given
        obtain ⟨out, given⟩ := given
        obtain ⟨columns, paired, _⟩ := coerce_ok.mp given
        obtain ⟨held, _, strictly⟩ := Paired.exists_mem paired inside
        have standing := known.strictly_whole inside strictly
        cases stuck with
        | inl none =>
            rw [standing] at none
            cases none
        | inr nested =>
            obtain ⟨col, found, apart, _, failed⟩ := nested
            have part := known.strictly_part inside standing
              (@List.length_replicate _ batch.rows true)
            rw [known.filter_whole] at part
            obtain ⟨⟨sound, unstray⟩, _⟩ :=
              (clean_cast found apart standing _).mp (part.mp ⟨held, strictly⟩)
            cases failed with
            | inl fail =>
                obtain ⟨row, within, fail⟩ := fail
                exact (sound row ((replicate_kept _ _).mpr within)).1 fail
            | inr stray => exact unstray stray
      · intro coerced done
        cases made : coercer.examine arrow batch coercer.target
            (List.replicate batch.rows none) with
        | error text =>
            unfold coerceQuarantining at done
            rw [made] at done
            cases done
        | ok result =>
            exact (known.examine_made (fun _ inside => inside) _).mp ⟨result, made⟩ field inside
              stuck

end Known

/-- What is not set aside is kept. -/
theorem slots_kept {rejected : List (Option (String × String))} {rows : Nat}
    {Refused : Nat → Prop} (counted : rejected.length = rows)
    (slots : ∀ row, (∃ reject, rejected[row]? = some (some reject)) ↔ row < rows ∧ Refused row)
    (row : Nat) :
    (rejected.map Option.isNone)[row]? = some true ↔ row < rows ∧ ¬Refused row := by
  have own := slots row
  rw [List.getElem?_map]
  by_cases within : row < rows
  · have inside : row < rejected.length := counted ▸ within
    rw [List.getElem?_eq_getElem inside] at own ⊢
    cases slot : rejected[row] with
    | none =>
        rw [slot] at own
        simpa [within] using own
    | some reject =>
        rw [slot] at own
        simpa [within] using own
  · rw [List.getElem?_eq_none (by omega)]
    simp [within]

/-- Nothing is set aside where no row is refused. -/
theorem slots_clear {rejected : List (Option (String × String))} {rows : Nat}
    {Refused : Nat → Prop}
    (slots : ∀ row, (∃ reject, rejected[row]? = some (some reject)) ↔ row < rows ∧ Refused row) :
    rejected.all Option.isNone = true ↔ ∀ row, row < rows → ¬Refused row := by
  rw [List.all_eq_true]
  constructor
  · intro clear row within refused
    obtain ⟨reject, held⟩ := (slots row).mpr ⟨within, refused⟩
    cases clear _ (List.mem_of_getElem? held)
  · intro clear slot inside
    cases slot with
    | none => rfl
    | some reject =>
        obtain ⟨row, held⟩ := List.mem_iff_getElem?.mp inside
        obtain ⟨within, refused⟩ := (slots row).mp ⟨reject, held⟩
        exact (clear row within refused).elim

section Known

variable (known : coercer.Known arrow fails strays batch)

include known

/-- Where both agree, the masks tell. -/
theorem Known.told_of_agree (free : ¬coercer.Broken arrow fails strays batch)
    (agree : coercer.Agree arrow batch) : coercer.Told arrow fails strays batch := by
  obtain ⟨columns, rejected, made, paired, counted, slots⟩ := known.examined free
  have any : coercer.target ≠ [] := (not_or.mp free).1
  have counted' : (rejected.map Option.isNone).length = batch.rows := by
    rw [List.length_map, counted]
  have kept := slots_kept counted slots
  obtain ⟨coerced, done⟩ := quarantined_exists made
    (fun clear => known.assembled_whole any paired ((slots_clear slots).mp clear))
    (known.assembled_part any paired counted' fun row held => ((kept row).mp held).2)
  obtain ⟨_, ⟨out, rest, _⟩, _, alone⟩ := agree.parted columns rejected coerced made done
  obtain ⟨sound, unstray⟩ := (known.parts counted' free).mp ⟨out, rest⟩
  constructor
  · intro row within hidden
    obtain ⟨field, inside, hidden⟩ := hidden
    have refused : coercer.Refused arrow batch row := ⟨field, inside, hiddenNull_refused hidden⟩
    have fails := alone row within ((slots row).mpr ⟨within, refused⟩)
    by_contra neither
    obtain ⟨out, done⟩ := (known.alone free within).mpr (not_or.mp neither)
    exact fails out done
  · intro row within unseen
    obtain ⟨field, inside, unseen⟩ := unseen
    by_contra unrefused
    exact sound row ((kept row).mpr ⟨within, unrefused⟩)
      ⟨field, inside, unseenFault_faulty unseen⟩
  · intro keep length same
    have equal : keep = rejected.map Option.isNone :=
      mask_unique (length.trans counted'.symm) fun row => (same row).trans (kept row).symm
    rw [equal]
    exact unstray

/-- Where the masks tell, both agree. -/
theorem Known.agree_of_told (free : ¬coercer.Broken arrow fails strays batch)
    (told : coercer.Told arrow fails strays batch) : coercer.Agree arrow batch := by
  obtain ⟨columns, rejected, made, paired, counted, slots⟩ := known.examined free
  have any : coercer.target ≠ [] := (not_or.mp free).1
  have counted' : (rejected.map Option.isNone).length = batch.rows := by
    rw [List.length_map, counted]
  have kept := slots_kept counted slots
  have clears := slots_clear slots
  have refused (row : Nat) (within : row < batch.rows)
      (refused : coercer.Refused arrow batch row) :
      coercer.Faulty arrow fails batch row ∨
        coercer.Stray strays batch (only batch.rows row) := by
    obtain ⟨field, inside, cell⟩ := refused
    cases refusedCell_cases cell with
    | inl fault => exact Or.inl ⟨field, inside, fault⟩
    | inr hidden => exact told.shown row within ⟨field, inside, hidden⟩
  have seen (row : Nat) (within : row < batch.rows)
      (fault : coercer.Faulty arrow fails batch row) : coercer.Refused arrow batch row := by
    obtain ⟨field, inside, cell⟩ := fault
    cases faultyCell_cases cell with
    | inl refused => exact ⟨field, inside, refused⟩
    | inr unseen => exact told.seen row within ⟨field, inside, unseen⟩
  have clear_of_whole (whole : ∃ out, coercer.coerce arrow batch = .ok out) :
      ∀ row, row < batch.rows → ¬coercer.Refused arrow batch row := by
    obtain ⟨sound, unstray⟩ := (known.whole free).mp whole
    intro row within own
    cases refused row within own with
    | inl fault => exact sound row within fault
    | inr stray =>
        cases known.stray_alone free (only_length _ _) stray with
        | inl whole => exact unstray whole
        | inr fault =>
            obtain ⟨other, inside, fault⟩ := fault
            exact sound other inside fault
  have whole_of_clear (clear : ∀ row, row < batch.rows → ¬coercer.Refused arrow batch row) :
      ∃ out, coercer.coerce arrow batch = .ok out := by
    apply (known.whole free).mpr
    refine ⟨fun row within fault => clear row within (seen row within fault), ?_⟩
    apply told.clear _ List.length_replicate
    intro row
    rw [replicate_kept]
    exact ⟨fun within => ⟨within, clear row within⟩, fun both => both.1⟩
  constructor
  · constructor
    · intro whole
      have clear := clears.mpr (clear_of_whole whole)
      obtain ⟨good, made'⟩ := known.assembled_whole any paired (clear_of_whole whole)
      obtain ⟨coerced, done⟩ := quarantined_exists made (fun _ => ⟨good, made'⟩)
        (known.assembled_part any paired counted' fun row held => ((kept row).mp held).2)
      have result := quarantined made done
      rw [if_pos clear] at result
      refine ⟨coerced.good, ?_⟩
      rw [done, ← result.1]
    · intro given
      obtain ⟨good, done⟩ := given
      have result := quarantined made done
      apply whole_of_clear
      apply clears.mp
      by_contra some
      rw [if_neg some] at result
      cases result.1
  · intro out good whole done
    have result := quarantined made done
    rw [if_pos (clears.mpr (clear_of_whole ⟨out, whole⟩))] at result
    exact known.whole_same paired whole result.2
  · intro own slots' coerced made' done
    rw [made] at made'
    cases made'
    have result := quarantined made done
    refine ⟨counted, ?_, ?_, ?_⟩
    · obtain ⟨out, part⟩ := (known.parts counted' free).mpr
        ⟨fun row held fault => ((kept row).mp held).2 (seen row ((kept row).mp held).1 fault),
          told.clear _ counted' kept⟩
      refine ⟨out, part, ?_⟩
      split at result
      · next clear =>
        have all : rejected.map Option.isNone = List.replicate batch.rows true := by
          apply mask_unique (counted'.trans List.length_replicate.symm)
          intro row
          rw [kept, replicate_kept]
          exact ⟨fun both => both.1, fun within => ⟨within, clears.mp clear row within⟩⟩
        rw [all, known.filter_whole] at part
        rw [known.whole_same paired part result.2]
        exact ⟨rfl, List.forall₂_same.mpr fun column _ =>
          ⟨rfl, known.assembles.equal_refl column.2⟩⟩
      · exact known.part_same paired counted' part result.2
    · split at result
      · next clear =>
        rw [result.1, if_pos clear]
        rfl
      · next some =>
        rw [if_neg some]
        exact result.1
    · intro row within set out done
      obtain ⟨sound, unstray⟩ := (known.alone free within).mp ⟨out, done⟩
      cases refused row within ((slots row).mp set).2 with
      | inl fault => exact sound fault
      | inr stray => exact unstray stray

/-- Casting whole and setting rows aside agree exactly where the masks tell, or no row can be told
to be at fault. -/
theorem agree_iff : coercer.Agree arrow batch ↔
    coercer.Broken arrow fails strays batch ∨ coercer.Told arrow fails strays batch := by
  by_cases broken : coercer.Broken arrow fails strays batch
  · obtain ⟨whole, aside⟩ := known.broken_fails broken
    refine iff_of_true ?_ (Or.inl broken)
    constructor
    · constructor
      · exact fun given => (whole given).elim
      · intro given
        obtain ⟨good, done⟩ := given
        exact (aside _ done).elim
    · exact fun out good done _ => (whole ⟨out, done⟩).elim
    · exact fun _ _ coerced _ done => (aside coerced done).elim
  · constructor
    · exact fun agree => Or.inr (known.told_of_agree broken agree)
    · exact fun told => known.agree_of_told broken (told.resolve_left broken)

end Known

instance (field : Field) (rows : Nat) (col : Column) : Decidable (field.Takes rows col) :=
  inferInstanceAs (Decidable (_ ∧ _ ∧ _))

/-- Arrow on arrays of nulls: cast to another type they are nulls of it. -/
def nullArrow : Arrow where
  canCastTypes source _ := source == .plain .null
  castWithOptions _ col target :=
    match col, target with
    | .plain .null values, .plain type => .ok (.plain type (List.replicate values.length none))
    | _, _ => .error "not supported"
  filter col keep :=
    match col with
    | .plain type values =>
        .plain type ((values.zip keep).filterMap fun slot =>
          if slot.2 then some slot.1 else none)
    | other => other
  equal col other := col.dataType == other.dataType && col.length == other.length &&
    col.nullCount == other.nullCount
  newNullArray type rows :=
    match type with
    | .plain type => .plain type (List.replicate rows none)
    | _ => .plain .null (List.replicate rows none)
  tryNew fields columns :=
    let rows := (columns.head?.map Column.length).getD 0
    if fields ≠ [] ∧ List.Forall₂ (fun field col => field.Takes rows col) fields columns then
      .ok { rows, columns := (fields.map fun field => field.label.name).zip columns }
    else .error "number of columns, types, lengths or nulls"
  shown _ := "type"
  quoted name := name

/-- One row of a column of untyped nulls, as `SELECT NULL AS note` makes it. -/
def noteBatch : Batch := { rows := 1, columns := [("note", .plain .null [none])] }

def noteCoercer : Coercer :=
  { target := [⟨⟨"note", true⟩, .plain .utf8⟩], fractions := .refused }

theorem nullArrow_assembles : Assembles nullArrow where
  equal_refl col := by simp [nullArrow]
  alike col other equal := by
    simp only [nullArrow, Bool.and_eq_true, beq_iff_eq] at equal
    exact ⟨equal.1.1, equal.1.2, equal.2⟩
  check fields columns := by
    simp only [nullArrow]
    constructor
    · intro given
      obtain ⟨batch, made⟩ := given
      split at made
      · next fits => exact ⟨fits.1, _, fits.2⟩
      · cases made
    · intro given
      obtain ⟨any, rows, fits⟩ := given
      have counted : (columns.head?.map Column.length).getD 0 = rows := by
        cases fits with
        | nil => exact (any rfl).elim
        | cons first _ => exact first.2.1
      rw [counted, if_pos ⟨any, fits⟩]
      exact ⟨_, rfl⟩
  made fields columns batch made := by
    simp only [nullArrow] at made
    split at made
    · next fits =>
      cases made
      refine ⟨rfl, fun col inside => ?_⟩
      obtain ⟨field, _, takes⟩ := Paired.exists_mem fits.2.flip inside
      exact takes.2.1
    · cases made

theorem one_row {keep : List Bool} (counted : keep.length = 1) :
    keep = [true] ∨ keep = [false] := by
  obtain ⟨flag, same⟩ := List.length_eq_one_iff.mp counted
  rw [same]
  cases flag with
  | true => exact Or.inl rfl
  | false => exact Or.inr rfl

/-- Of nulls, as many are left as the mask keeps. -/
theorem nulls_kept {α : Type} (keep : List Bool) :
    ((List.replicate keep.length (none : Option α)).zip keep).filterMap (fun slot =>
      if slot.2 = true then some slot.1 else none) = List.replicate (keep.count true) none := by
  induction keep with
  | nil => rfl
  | cons flag keep inductionHypothesis =>
      rw [List.length_cons, List.replicate_succ, List.zip_cons_cons, List.filterMap_cons]
      cases flag with
      | true =>
          rw [inductionHypothesis, List.count_cons_self, List.replicate_succ]
          rfl
      | false =>
          rw [inductionHypothesis, List.count_cons_of_ne (by decide)]
          rfl

theorem nullArrow_filters (type : Plain) : Filters nullArrow (.plain type [none]) where
  whole := rfl
  type keep counted := rfl
  rows keep counted := by
    cases one_row counted with
    | inl same =>
        rw [same]
        rfl
    | inr same =>
        rw [same]
        rfl
  nulls keep counted := by
    cases one_row counted with
    | inl same =>
        rw [same]
        have whole : nullArrow.filter (.plain type [none]) [true] = .plain type [none] := rfl
        have counts : (Column.plain type [none]).nullCount = 0 ↔
            (Column.plain type [none]).isValid 0 = true := by
          simp [Column.nullCount, Column.length]
        rw [whole, counts]
        constructor
        · intro valid row kept
          cases row with
          | zero => exact valid
          | succ row => cases kept
        · exact fun valid => valid 0 rfl
    | inr same =>
        rw [same]
        constructor
        · intro _ row kept
          rw [List.getElem?_singleton] at kept
          split at kept <;> cases kept
        · exact fun _ => rfl

theorem note_known : noteCoercer.Known nullArrow (fun _ _ _ => False) (fun _ _ _ => False)
    noteBatch where
  assembles := nullArrow_assembles
  nulls field inside := by
    cases List.mem_singleton.mp inside
    constructor
    · intro rows
      simp [nullArrow, Column.dataType, Column.length]
    · intro rows keep counted
      have kept : nullArrow.filter (nullArrow.newNullArray (.plain .utf8) rows) keep =
          nullArrow.newNullArray (.plain .utf8) (keep.count true) := by
        rw [← counted]
        exact congrArg (Column.plain .utf8) (nulls_kept keep)
      rw [kept]
      exact nullArrow_assembles.equal_refl _
  aligned column inside := by
    cases List.mem_singleton.mp inside
    rfl
  filters column inside := by
    cases List.mem_singleton.mp inside
    exact nullArrow_filters .null
  casts field inside col found apart := by
    cases List.mem_singleton.mp inside
    cases found
    constructor
    · intro whole done keep counted
      simp
      exact ⟨_, rfl⟩
    · intro cast done
      exact done
    · intro keep counted whole part done part'
      cases done
      cases part'
      cases one_row counted with
      | inl same => rw [same]; rfl
      | inr same => rw [same]; rfl
    · intro cast done
      cases done
      exact ⟨rfl, rfl, nullArrow_filters .utf8⟩
    · intro keep counted impossible
      exact impossible.elim
    · intro sources keep counted
      have none (col : Column) (type : col.dataType = .plain .null) (row : Nat) :
          ¬Drops nullArrow.canCastTypes sources col (.plain .utf8) row := by
        intro drops
        have check := drops.check
        rw [type] at check
        cases sources <;> cases check
      constructor
      · intro drops
        obtain ⟨row, drops⟩ := drops
        exact (none _ rfl row drops).elim
      · intro drops
        obtain ⟨row, _, drops⟩ := drops
        exact (none _ rfl row drops).elim

theorem agree_iff_note : noteCoercer.Agree nullArrow noteBatch ↔
    noteCoercer.Broken nullArrow (fun _ _ _ => False) (fun _ _ _ => False) noteBatch ∨
      noteCoercer.Told nullArrow (fun _ _ _ => False) (fun _ _ _ => False) noteBatch :=
  agree_iff note_known

/-- The batch goes whole, and row by row it does not. -/
theorem note_parted :
    noteCoercer.coerce nullArrow noteBatch =
        .ok { rows := 1, columns := [("note", .plain .utf8 [none])] } ∧
      (∃ coerced, noteCoercer.coerceQuarantining nullArrow noteBatch = .ok coerced ∧
        coerced.good.rows = 0 ∧ ∃ bad, coerced.bad = some bad ∧ bad.rows.rows = 1) ∧
      ¬noteCoercer.Agree nullArrow noteBatch := by
  have whole : noteCoercer.coerce nullArrow noteBatch =
      .ok { rows := 1, columns := [("note", .plain .utf8 [none])] } := rfl
  refine ⟨whole, ⟨_, rfl, rfl, _, rfl, rfl⟩, ?_⟩
  intro agree
  obtain ⟨good, done⟩ := agree.accepted.mp ⟨_, whole⟩
  have bad := congrArg (fun result => result.toOption.bind Coerced.bad) done
  cases bad

end Ddi.Schema.Coercer
