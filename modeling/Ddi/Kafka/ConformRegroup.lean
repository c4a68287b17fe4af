/-
Conforming does not depend on how rows are grouped into batches, where the target has no unions
and kafka-delta-ingest's text is not written.
-/

import Ddi.Kafka.ConformTarget

namespace Ddi.Kafka.Conform

def Column.append (one other : Column) : Column :=
  { one with cells := one.cells ++ other.cells, ghosts := one.ghosts ++ other.ghosts }

namespace Batch

/-- The rows of two batches as one batch. -/
def append (one other : Batch) : Batch where
  rows := one.rows + other.rows
  columns := List.zipWith Column.append one.columns other.columns

end Batch

/-- Columns of the same names and types, one by one. -/
def SameSchema (columns others : List Column) : Prop :=
  List.Forall₂ (fun one other => one.name = other.name ∧ one.type = other.type) columns others

theorem find_append {columns others : List Column} (same : SameSchema columns others)
    (name : String) :
    ((columns.find? fun own => own.name = name) = none ∧
      (others.find? fun own => own.name = name) = none ∧
      ((List.zipWith Column.append columns others).find? fun own => own.name = name) = none) ∨
    ∃ one other, (columns.find? fun own => own.name = name) = some one ∧
      (others.find? fun own => own.name = name) = some other ∧ one.type = other.type ∧
      ((List.zipWith Column.append columns others).find? fun own => own.name = name) =
        some (one.append other) := by
  induction same with
  | nil => exact .inl ⟨rfl, rfl, rfl⟩
  | @cons one other columns others alike same ih =>
      rw [List.zipWith_cons_cons]
      by_cases named : one.name = name
      · right
        refine ⟨one, other, ?_, ?_, alike.2, ?_⟩
        · exact List.find?_cons_of_pos (by simp [named])
        · exact List.find?_cons_of_pos (by simp [← alike.1, named])
        · exact List.find?_cons_of_pos (by simp [Column.append, named])
      · rw [List.find?_cons_of_neg (by simp [named]),
          List.find?_cons_of_neg (by simp [← alike.1, named]),
          List.find?_cons_of_neg (by simp [Column.append, named])]
        exact ih

namespace Conformer

theorem setColumn_append {columns others : List Column} (same : SameSchema columns others)
    {one other : Column} (named : one.name = other.name) (typed : one.type = other.type) :
    setColumn (one.append other) (List.zipWith Column.append columns others) =
        List.zipWith Column.append (setColumn one columns) (setColumn other others) ∧
      SameSchema (setColumn one columns) (setColumn other others) := by
  induction same with
  | nil => exact ⟨rfl, .nil⟩
  | @cons own held columns others alike same ih =>
      rw [List.zipWith_cons_cons]
      unfold setColumn
      by_cases first : own.name = one.name
      · have second : held.name = other.name := by rw [← alike.1, first, named]
        have both : (own.append held).name = (one.append other).name := first
        rw [if_pos first, if_pos second, if_pos both]
        exact ⟨rfl, .cons ⟨named, typed⟩ same⟩
      · have second : held.name ≠ other.name := by rw [← alike.1, ← named]; exact first
        have neither : (own.append held).name ≠ (one.append other).name := first
        rw [if_neg first, if_neg second, if_neg neither, ih.1]
        exact ⟨rfl, .cons alike ih.2⟩

variable {arrow : Arrow} {conformer : Conformer} {first second : Batch}

theorem rowSlots_none (column : Column) :
    conformer.rowSlots none column = UnionSchema.slots column.cells := by
  have absent : conformer.stood none column.name = none := by
    unfold Conformer.stood
    split <;> rfl
  unfold rowSlots UnionSchema.slots
  rw [absent, Option.getD_none]
  induction column.cells with
  | nil => rfl
  | cons cell cells ih =>
      rw [List.map_cons, List.zip_cons_cons, List.map_cons, ih, List.map_cons]

theorem conformField_append {field : Field}
    (free : field.type.unionFree = true) {one other : Column} (typed : one.type = other.type) :
    conformer.conformField arrow none (one.append other) field =
      conformer.conformField arrow none one field ++
        conformer.conformField arrow none other field := by
  have kdi : conformer.kdi none field.name = none := by
    unfold Conformer.kdi Conformer.stood
    split <;> rfl
  unfold conformField
  dsimp only
  rw [kdi, rowSlots_none, rowSlots_none, rowSlots_none]
  unfold UnionSchema.slots Column.append
  dsimp only
  rw [List.map_append, List.map_append]
  congr 1
  · apply List.map_congr_left
    intro slot _among
    exact Fitter.fitWithin_column _ _ _ one.type field.type field.name true slot free
  · apply List.map_congr_left
    intro slot _among
    rw [typed]
    exact Fitter.fitWithin_column _ _ _ other.type field.type field.name true slot free

/-- What is made of a column of two batches together. -/
def join (one other : Field × Column × List Fitted) : Field × Column × List Fitted :=
  (one.1, one.2.1.append other.2.1, one.2.2 ++ other.2.2)

/-- The columns made of two batches go together, field by field. -/
structure Pairs (rows : Nat) (one other : Field × Column × List Fitted) : Prop where
  field : one.1 = other.1
  type : one.2.1.type = other.2.1.type
  length : one.2.2.length = rows

theorem made_append (decoded : first.Decoded) (same : SameSchema first.columns second.columns)
    (free : ∀ field, field ∈ conformer.target → field.type.unionFree = true) :
    List.Forall₂ (Pairs first.rows) (conformer.made arrow first none)
        (conformer.made arrow second none) ∧
      conformer.made arrow (first.append second) none =
        List.zipWith join (conformer.made arrow first none) (conformer.made arrow second none) := by
  unfold made
  generalize conformer.target = fields at free
  induction fields with
  | nil => exact ⟨.nil, rfl⟩
  | cons field fields ih =>
      obtain ⟨pairs, joined⟩ := ih fun other later => free other (List.mem_cons_of_mem _ later)
      rw [List.filterMap_cons, List.filterMap_cons, List.filterMap_cons]
      have found := find_append same field.name
      change (first.columnNamed field.name = none ∧ second.columnNamed field.name = none ∧
        (first.append second).columnNamed field.name = none) ∨ ∃ one other,
          first.columnNamed field.name = some one ∧ second.columnNamed field.name = some other ∧
            one.type = other.type ∧
              (first.append second).columnNamed field.name = some (one.append other) at found
      rcases found with ⟨one, other, both⟩ | ⟨one, other, named, named', typed, both⟩
      · rw [one, other, both]
        exact ⟨pairs, joined⟩
      · rw [named, named', both]
        dsimp only [Option.map_some]
        rw [List.zipWith_cons_cons, joined,
          conformField_append (free field List.mem_cons_self) typed]
        refine ⟨.cons ⟨rfl, typed, ?_⟩ pairs, rfl⟩
        have member := (columnNamed_mem named).1
        unfold conformField
        dsimp only
        rw [List.length_map, rowSlots_none]
        unfold UnionSchema.slots
        rw [List.length_map]
        exact decoded.length one member

theorem conformedType_column (fitter : Fitter) (column others : List Slot)
    (source dest : DataType) :
    fitter.conformedType column source dest none =
      fitter.conformedType others source dest none := by
  cases source with
  | union name type rest => rfl
  | plain own =>
      cases dest with
      | plain dest =>
          by_cases isNull : own = .null
          · subst isNull
            rfl
          · rw [Fitter.conformedType_plain isNull, Fitter.conformedType_plain isNull]
      | _ => rfl
  | struct fields => cases dest <;> rfl
  | list kind item nullable => cases dest <;> rfl
  | map key value nullable => cases dest <;> rfl

theorem columnOf_join {rows : Nat} {one other : Field × Column × List Fitted}
    (pair : Pairs rows one other) :
    conformer.columnOf none (join one other) =
        (conformer.columnOf none one).append (conformer.columnOf none other) ∧
      (conformer.columnOf none one).type = (conformer.columnOf none other).type := by
  have kdi : ∀ name, conformer.kdi none name = none := by
    intro name
    unfold Conformer.kdi Conformer.stood
    split <;> rfl
  unfold columnOf join Column.append
  dsimp only
  rw [kdi, kdi, List.map_append]
  constructor
  · rw [conformedType_column conformer.fitter _ (conformer.rowSlots none one.2.1 ++
      UnionSchema.slots one.2.1.ghosts)]
    rfl
  · rw [pair.type, pair.field]
    exact conformedType_column _ _ _ _ _

/-- The columns of two batches together, before rows are set aside. -/
theorem fold_append {rows : Nat} {ones others : List (Field × Column × List Fitted)}
    (pairs : List.Forall₂ (Pairs rows) ones others) {columns columns' : List Column}
    (same : SameSchema columns columns') :
    (List.zipWith join ones others).foldl
        (fun columns entry => setColumn (conformer.columnOf none entry) columns)
        (List.zipWith Column.append columns columns') =
      List.zipWith Column.append
        (ones.foldl (fun columns entry => setColumn (conformer.columnOf none entry) columns) columns)
        (others.foldl (fun columns entry => setColumn (conformer.columnOf none entry) columns)
          columns') := by
  induction pairs generalizing columns columns' with
  | nil => rfl
  | @cons one other ones others pair pairs ih =>
      obtain ⟨joined, typed⟩ := @columnOf_join conformer rows one other pair
      have named : (conformer.columnOf none one).name = (conformer.columnOf none other).name :=
        congrArg Field.name pair.field
      obtain ⟨set, schema⟩ := setColumn_append same named typed
      rw [List.zipWith_cons_cons, List.foldl_cons, List.foldl_cons, List.foldl_cons, joined, set]
      exact ih schema

/-- The reasons of the rows of two batches, each as it is in its own batch. -/
theorem firstBad_append {rows others : Nat} {ones twos : List (Field × Column × List Fitted)}
    (pairs : List.Forall₂ (Pairs rows) ones twos) :
    firstBad (rows + others) ((List.zipWith join ones twos).map fun entry =>
        (entry.1.name, entry.2.2.map (·.bad))) =
      firstBad rows (ones.map fun entry => (entry.1.name, entry.2.2.map (·.bad))) ++
        firstBad others (twos.map fun entry => (entry.1.name, entry.2.2.map (·.bad))) := by
  unfold firstBad
  rw [List.range_add, List.map_append, List.map_map]
  congr 1
  · apply List.map_congr_left
    intro row among
    have within := List.mem_range.mp among
    induction pairs with
    | nil => rfl
    | @cons one other ones twos pair pairs ih =>
        rw [List.zipWith_cons_cons, List.map_cons, List.map_cons, List.findSome?_cons,
          List.findSome?_cons, ih]
        have here : ((join one other).2.2.map (·.bad))[row]? = (one.2.2.map (·.bad))[row]? := by
          unfold join
          dsimp only
          rw [List.map_append, List.getElem?_append_left]
          rw [List.length_map, pair.length]
          exact within
        dsimp only
        rw [here]
        rfl
  · apply List.map_congr_left
    intro row _among
    dsimp only [Function.comp_apply]
    induction pairs with
    | nil => rfl
    | @cons one other ones twos pair pairs ih =>
        rw [List.zipWith_cons_cons, List.map_cons, List.map_cons, List.findSome?_cons,
          List.findSome?_cons, ih]
        have here : ((join one other).2.2.map (·.bad))[rows + row]? =
            (other.2.2.map (·.bad))[row]? := by
          unfold join
          dsimp only
          rw [List.map_append, List.getElem?_append_right]
          · rw [List.length_map, pair.length, Nat.add_sub_cancel_left]
          · rw [List.length_map, pair.length]
            exact Nat.le_add_right _ _
        dsimp only
        rw [here]
        have own : (join one other).1.name = other.1.name := congrArg Field.name pair.field
        rw [own]

/-! ### Two batches as one -/

theorem keepRows_append {α : Type} {mask others : List Bool} {cells rest : List α}
    (length : cells.length = mask.length) :
    keepRows (mask ++ others) (cells ++ rest) = keepRows mask cells ++ keepRows others rest := by
  unfold keepRows
  rw [List.zip_append length.symm, List.filter_append, List.map_append]

theorem keep_append {one other : Batch} {mask others : List Bool}
    (length : ∀ column, column ∈ one.columns → column.cells.length = mask.length) :
    (one.append other).keep (mask ++ others) = (one.keep mask).append (other.keep others) := by
  unfold Batch.keep Batch.append
  dsimp only
  congr 1
  · rw [List.filter_append, List.length_append]
  · generalize one.columns = columns at length
    generalize other.columns = columns'
    induction columns generalizing columns' with
    | nil => rfl
    | cons head rest ih =>
        cases columns' with
        | nil => rfl
        | cons head' rest' =>
            rw [List.zipWith_cons_cons, List.map_cons, List.map_cons, List.map_cons,
              List.zipWith_cons_cons, ih fun column later =>
                length column (List.mem_cons_of_mem _ later)]
            unfold Column.append
            dsimp only
            rw [keepRows_append (length head List.mem_cons_self)]

theorem length_append {one other : Batch}
    (length : ∀ column, column ∈ one.columns → column.cells.length = one.rows)
    (length' : ∀ column, column ∈ other.columns → column.cells.length = other.rows) :
    ∀ column, column ∈ (one.append other).columns →
      column.cells.length = (one.append other).rows := by
  intro column among
  obtain ⟨place, stands⟩ := List.getElem?_of_mem among
  change (List.zipWith Column.append one.columns other.columns)[place]? = some column at stands
  rw [List.getElem?_zipWith] at stands
  split at stands
  · next head head' first second =>
    rw [← Option.some.inj stands]
    change (head.cells ++ head'.cells).length = one.rows + other.rows
    rw [List.length_append, length head (List.mem_of_getElem? first),
      length' head' (List.mem_of_getElem? second)]
  · cases stands

theorem split_texts (batch out : Batch) (bad : List (Option (String × String))) :
    ((split batch out bad).2.elim [] Rejected.reasons) = (bad.filterMap id).map Prod.snd ∧
      ((split batch out bad).2.elim [] Rejected.columns) = (bad.filterMap id).map Prod.fst := by
  unfold split
  by_cases clean : bad.all (·.isNone) = true
  · rw [if_pos clean]
    have none_ : bad.filterMap id = [] := by
      rw [List.filterMap_eq_nil_iff]
      intro why among
      exact Option.isNone_iff_eq_none.mp (List.all_eq_true.mp clean why among)
    rw [none_]
    exact ⟨rfl, rfl⟩
  · rw [if_neg clean]
    exact ⟨rfl, rfl⟩

theorem writers_untexted (untexted : conformer.text = {}) (batch : Batch) :
    conformer.writers batch = .ok none := by
  unfold Conformer.writers
  rw [untexted]
  rfl

/-- Into a target without unions, where kafka-delta-ingest's text is not written, two batches of
one schema conformed as one come out as each does by itself, one after the other: the rows kept,
the rows set aside, and the reason and the column of each. -/
theorem conform_append (untexted : conformer.text = {})
    (free : ∀ field, field ∈ conformer.target → field.type.unionFree = true)
    (decoded : first.Decoded) (decoded' : second.Decoded)
    (same : SameSchema first.columns second.columns) {out out' : Batch}
    {rejected rejected' : Option Rejected}
    (one : conformer.conform arrow first = .ok (out, rejected))
    (other : conformer.conform arrow second = .ok (out', rejected')) :
    ∃ (mask others : List Bool) (together : Option Rejected),
      conformer.conform arrow (first.append second) = .ok (out.append out', together) ∧
      SetAside mask first rejected ∧ SetAside others second rejected' ∧
      SetAside (mask ++ others) (first.append second) together ∧
      together.elim [] Rejected.reasons =
        rejected.elim [] Rejected.reasons ++ rejected'.elim [] Rejected.reasons ∧
      together.elim [] Rejected.columns =
        rejected.elim [] Rejected.columns ++ rejected'.elim [] Rejected.columns := by
  have written := fun batch => @writers_untexted conformer untexted batch
  obtain ⟨pairs, joined⟩ := @made_append arrow conformer first second decoded same free
  have columns : (conformer.whole arrow (first.append second) none) =
      (conformer.whole arrow first none).append (conformer.whole arrow second none) := by
    unfold whole
    rw [joined]
    unfold Batch.append
    dsimp only
    rw [fold_append pairs same]
  have bads : conformer.bad arrow (first.append second) none =
      conformer.bad arrow first none ++ conformer.bad arrow second none := by
    unfold Conformer.bad
    rw [joined]
    exact firstBad_append pairs
  rw [conform_eq (written first)] at one
  rw [conform_eq (written second)] at other
  rw [conform_eq (written (first.append second)), columns, bads]
  have rows : (conformer.bad arrow first none).length = first.rows := length_firstBad _ _
  have rows' : (conformer.bad arrow second none).length = second.rows := length_firstBad _ _
  have length := @length_whole arrow conformer first decoded none (written first)
  have length' := @length_whole arrow conformer second decoded' none (written second)
  obtain ⟨keeps, aside⟩ := split_keeps (Except.ok.inj one) length rows
  obtain ⟨keeps', aside'⟩ := split_keeps (Except.ok.inj other) length' rows'
  have texts := split_texts first (conformer.whole arrow first none)
    (conformer.bad arrow first none)
  have texts' := split_texts second (conformer.whole arrow second none)
    (conformer.bad arrow second none)
  rw [Except.ok.inj one] at texts
  rw [Except.ok.inj other] at texts'
  have lengths := length_append length length'
  generalize made : split (first.append second) _ _ = result
  obtain ⟨kept, together⟩ := result
  have rowsTogether : (conformer.bad arrow first none ++ conformer.bad arrow second none).length =
      first.rows + second.rows := by
    rw [List.length_append, rows, rows']
  obtain ⟨keepsBoth, asideBoth⟩ := split_keeps made lengths rowsTogether
  have textsBoth := split_texts (first.append second)
    ((conformer.whole arrow first none).append (conformer.whole arrow second none))
    (conformer.bad arrow first none ++ conformer.bad arrow second none)
  rw [made] at textsBoth
  rw [List.map_append] at keepsBoth asideBoth
  rw [List.filterMap_append, List.map_append, List.map_append] at textsBoth
  refine ⟨_, _, together, ?_, aside, aside', asideBoth, ?_, ?_⟩
  · rw [keepsBoth, keeps, keeps', keep_append]
    intro column among
    rw [List.length_map, rows]
    exact length column among
  · rw [texts.1, texts'.1]
    exact textsBoth.1
  · rw [texts.2, texts'.2]
    exact textsBoth.2

theorem conform_append_sample : ∃ out rejected together,
    sampleConformer.conform sampleArrow sampleBatch = .ok (out, rejected) ∧
      sampleConformer.conform sampleArrow (sampleBatch.append sampleBatch) =
        .ok (out.append out, together) := by
  obtain ⟨_mask, _others, together, whole, _rest⟩ := conform_append
    (show sampleConformer.text = {} from rfl)
    (by
      intro field among
      rw [List.mem_singleton.mp among]
      rfl)
    sampleBatch_decoded sampleBatch_decoded (.cons ⟨rfl, rfl⟩ .nil)
    (show sampleConformer.conform sampleArrow sampleBatch = .ok _ from rfl)
    (show sampleConformer.conform sampleArrow sampleBatch = .ok _ from rfl)
  exact ⟨_, _, together, rfl, whole⟩

end Conformer

end Ddi.Kafka.Conform
