/-
What conforming a batch to the target makes of the rows that are kept: each target column from
the batch's column of its name, and the others as they were.
-/

import Ddi.Kafka.ConformExact
import Ddi.Kafka.ConformNotNull
import Ddi.Kafka.ConformRows
import Ddi.Lib.Paired

namespace Ddi.Kafka.Conform

/-! ### Columns put in place of others -/

namespace Conformer

theorem names_setColumn (column : Column) (columns : List Column) :
    (setColumn column columns).map Column.name = columns.map Column.name := by
  induction columns with
  | nil => rfl
  | cons own rest ih =>
      unfold setColumn
      by_cases same : own.name = column.name
      · rw [if_pos same, List.map_cons, List.map_cons, same]
      · rw [if_neg same, List.map_cons, List.map_cons, ih]

theorem mem_setColumn {column other : Column} {columns : List Column}
    (among : other ∈ setColumn column columns) : other = column ∨ other ∈ columns := by
  induction columns with
  | nil => cases among
  | cons own rest ih =>
      unfold setColumn at among
      by_cases same : own.name = column.name
      · rw [if_pos same] at among
        rcases List.mem_cons.mp among with first | later
        · exact .inl first
        · exact .inr (List.mem_cons_of_mem _ later)
      · rw [if_neg same] at among
        rcases List.mem_cons.mp among with first | later
        · exact .inr (first ▸ List.mem_cons_self)
        · exact (ih later).imp_right (List.mem_cons_of_mem _)

theorem find_setColumn (column : Column) (columns : List Column) (name : String) :
    (setColumn column columns).find? (fun own => own.name = name) =
      if name = column.name then
        (columns.find? fun own => own.name = name).map fun _ => column
      else columns.find? fun own => own.name = name := by
  induction columns with
  | nil =>
      unfold setColumn
      split <;> rfl
  | cons own rest ih =>
      unfold setColumn
      by_cases same : own.name = column.name
      · rw [if_pos same]
        by_cases named : name = column.name
        · rw [if_pos named, List.find?_cons_of_pos (by simp [named]),
            List.find?_cons_of_pos (by simp [same, named])]
          rfl
        · rw [if_neg named, List.find?_cons_of_neg (by simp [Ne.symm named]),
            List.find?_cons_of_neg (by simp [same, Ne.symm named])]
      · rw [if_neg same]
        by_cases first : own.name = name
        · have other : name ≠ column.name := fun eq => same (first.trans eq)
          rw [if_neg other, List.find?_cons_of_pos (by simp [first]),
            List.find?_cons_of_pos (by simp [first])]
        · rw [List.find?_cons_of_neg (by simp [first]), List.find?_cons_of_neg (by simp [first]),
            ih]

/-- The columns put in place, each under a name of its own. -/
theorem find_foldl_setColumn {fresh : List Column}
    (apart : (fresh.map Column.name).Nodup) (columns : List Column) (name : String) :
    ((fresh.foldl (fun columns column => setColumn column columns) columns).find?
      fun own => own.name = name) =
      match fresh.find? fun own => own.name = name with
      | some column => (columns.find? fun own => own.name = name).map fun _ => column
      | none => columns.find? fun own => own.name = name := by
  induction fresh generalizing columns with
  | nil => rfl
  | cons head rest ih =>
      obtain ⟨alone, others⟩ := List.nodup_cons.mp apart
      rw [List.foldl_cons, ih others, find_setColumn]
      by_cases named : name = head.name
      · have absent : rest.find? (fun own => own.name = name) = none := by
          rw [List.find?_eq_none]
          intro other among same
          apply alone
          rw [← named, ← of_decide_eq_true same]
          exact List.mem_map_of_mem among
        rw [absent, List.find?_cons_of_pos (by simp [named])]
        dsimp only
        rw [if_pos named]
      · rw [List.find?_cons_of_neg (by simp [Ne.symm named]), if_neg named]

theorem names_foldl_setColumn (fresh columns : List Column) :
    (fresh.foldl (fun columns column => setColumn column columns) columns).map Column.name =
      columns.map Column.name := by
  induction fresh generalizing columns with
  | nil => rfl
  | cons head rest ih => rw [List.foldl_cons, ih, names_setColumn]

theorem mem_foldl_setColumn {fresh columns : List Column} {column : Column}
    (among : column ∈ fresh.foldl (fun columns column => setColumn column columns) columns) :
    column ∈ fresh ∨ column ∈ columns := by
  induction fresh generalizing columns with
  | nil => exact .inr among
  | cons head rest ih =>
      rcases ih among with later | before
      · exact .inl (List.mem_cons_of_mem _ later)
      · rcases mem_setColumn before with same | old
        · exact .inl (same ▸ List.mem_cons_self)
        · exact .inr old

/-! ### The target's columns -/

variable {arrow : Arrow} {conformer : Conformer} {batch out : Batch} {rejected : Option Rejected}

theorem length_writerIds (decoded : batch.Decoded) (pre : String) :
    (writerIds pre batch).length = batch.rows := by
  unfold writerIds
  cases named : batch.columnNamed (pre ++ "value_schema_id") with
  | none => exact List.length_replicate
  | some column =>
      dsimp only
      split
      · rw [List.length_map]
        exact decoded.length column (columnNamed_mem named).1
      · exact List.length_replicate

theorem length_writers (decoded : batch.Decoded) {shapes : List Shape}
    (writers : conformer.writers batch = .ok (some shapes)) : shapes.length = batch.rows := by
  unfold Conformer.writers at writers
  split at writers
  · cases made : (writerIds conformer.pre batch).mapM conformer.writerShape with
    | error why =>
        rw [made] at writers
        cases writers
    | ok found =>
        rw [made] at writers
        cases writers
        rw [← (Paired.mapM_ok _ _ _).mp made |>.length_eq, length_writerIds decoded]
  · cases writers

theorem length_rowSlots (decoded : batch.Decoded) {writers : Option (List Shape)}
    (written : conformer.writers batch = .ok writers) {column : Column}
    (among : column ∈ batch.columns) :
    (conformer.rowSlots writers column).length = batch.rows := by
  have length := decoded.length column among
  unfold rowSlots
  rw [List.length_map, List.length_zip, length]
  cases stood : conformer.stood writers column.name with
  | none =>
      rw [Option.getD_none, List.length_map, length, Nat.min_self]
  | some places =>
      unfold Conformer.stood at stood
      split at stood
      · cases stood
      · obtain ⟨shapes, same, made⟩ := Option.map_eq_some_iff.mp stood
        subst same
        rw [Option.getD_some, ← made, List.length_map, length_writers decoded written,
          Nat.min_self]

theorem length_conformField (decoded : batch.Decoded) {writers : Option (List Shape)}
    (written : conformer.writers batch = .ok writers) {column : Column}
    (among : column ∈ batch.columns) (field : Field) :
    (conformer.conformField arrow writers column field).length = batch.rows := by
  unfold conformField
  rw [List.length_map, length_rowSlots decoded written among]

theorem columnNamed_keep (mask : List Bool) (name : String) :
    (batch.keep mask).columnNamed name =
      (batch.columnNamed name).map fun own => { own with cells := keepRows mask own.cells } := by
  unfold Batch.keep Batch.columnNamed
  dsimp only
  rw [List.find?_map]
  rfl

theorem find_of_mem {fresh : List Column} (apart : (fresh.map Column.name).Nodup)
    {column : Column} (among : column ∈ fresh) {name : String} (named : column.name = name) :
    (fresh.find? fun own => own.name = name) = some column := by
  induction fresh with
  | nil => cases among
  | cons head rest ih =>
      obtain ⟨alone, others⟩ := List.nodup_cons.mp apart
      rcases List.mem_cons.mp among with first | later
      · rw [← first, List.find?_cons_of_pos (by simp [named])]
      · have other : head.name ≠ name := by
          intro same
          apply alone
          rw [same, ← named]
          exact List.mem_map_of_mem later
        rw [List.find?_cons_of_neg (by simp [other]), ih others later]

theorem sublist_filterMap {α β γ : Type} {pick : α → Option β} {name : β → γ} {own : α → γ}
    (named : ∀ item made, pick item = some made → name made = own item) (items : List α) :
    ((items.filterMap pick).map name).Sublist (items.map own) := by
  induction items with
  | nil => exact .slnil
  | cons head rest ih =>
      rw [List.filterMap_cons]
      cases picked : pick head with
      | none => exact ih.cons _
      | some made =>
          rw [List.map_cons, List.map_cons, named head made picked]
          exact ih.cons_cons _

/-- The columns that the target's fields are conformed to, with what was made of each value. -/
def made (arrow : Arrow) (conformer : Conformer) (batch : Batch) (writers : Option (List Shape)) :
    List (Field × Column × List Fitted) :=
  conformer.target.filterMap fun field =>
    (batch.columnNamed field.name).map fun column =>
      (field, column, conformer.conformField arrow writers column field)

/-- The target's column, of every row. -/
def columnOf (conformer : Conformer) (writers : Option (List Shape))
    (entry : Field × Column × List Fitted) : Column where
  name := entry.1.name
  type := conformer.fitter.conformedType
    (conformer.rowSlots writers entry.2.1 ++ UnionSchema.slots entry.2.1.ghosts) entry.2.1.type
    entry.1.type (conformer.kdi writers entry.1.name)
  cells := entry.2.2.map (·.cell)

theorem mem_made {writers : Option (List Shape)} {entry : Field × Column × List Fitted} :
    entry ∈ conformer.made arrow batch writers ↔
      entry.1 ∈ conformer.target ∧ batch.columnNamed entry.1.name = some entry.2.1 ∧
        entry.2.2 = conformer.conformField arrow writers entry.2.1 entry.1 := by
  unfold made
  rw [List.mem_filterMap]
  constructor
  · intro found
    obtain ⟨field, among, same⟩ := found
    obtain ⟨column, named, eq⟩ := Option.map_eq_some_iff.mp same
    rw [← eq]
    exact ⟨among, named, rfl⟩
  · intro found
    obtain ⟨among, named, eq⟩ := found
    refine ⟨entry.1, among, ?_⟩
    rw [named, Option.map_some, ← eq]

/-- The batch with the target's columns, before rows are set aside. -/
def whole (arrow : Arrow) (conformer : Conformer) (batch : Batch) (writers : Option (List Shape)) :
    Batch where
  rows := batch.rows
  columns := (conformer.made arrow batch writers).foldl
    (fun columns entry => setColumn (conformer.columnOf writers entry) columns) batch.columns

/-- Why each row is set aside, if it is. -/
def bad (arrow : Arrow) (conformer : Conformer) (batch : Batch) (writers : Option (List Shape)) :
    List (Option (String × String)) :=
  firstBad batch.rows ((conformer.made arrow batch writers).map fun entry =>
    (entry.1.name, entry.2.2.map (·.bad)))

theorem conform_eq {writers : Option (List Shape)}
    (written : conformer.writers batch = .ok writers) :
    conformer.conform arrow batch = .ok (split batch (conformer.whole arrow batch writers)
      (conformer.bad arrow batch writers)) := by
  unfold conform
  rw [written]
  rfl

theorem whole_columns (writers : Option (List Shape)) :
    (conformer.whole arrow batch writers).columns =
      ((conformer.made arrow batch writers).map (conformer.columnOf writers)).foldl
        (fun columns column => setColumn column columns) batch.columns := by
  rw [List.foldl_map]
  rfl

theorem length_whole (decoded : batch.Decoded) {writers : Option (List Shape)}
    (written : conformer.writers batch = .ok writers) :
    ∀ column, column ∈ (conformer.whole arrow batch writers).columns →
      column.cells.length = batch.rows := by
  intro column among
  rw [whole_columns] at among
  rcases mem_foldl_setColumn among with fresh | old
  · obtain ⟨entry, inside, same⟩ := List.mem_map.mp fresh
    obtain ⟨_among, named, cells⟩ := mem_made.mp inside
    rw [← same]
    unfold columnOf
    dsimp only
    rw [List.length_map, cells, length_conformField decoded written (columnNamed_mem named).1]
  · exact decoded.length column old

/-- A column of the target of the rows that are kept, from the batch's column of its name. -/
structure Conformed (arrow : Arrow) (conformer : Conformer) (writers : Option (List Shape))
    (mask : List Bool) (field : Field) (own column : Column) : Prop where
  type : column.type = conformer.fitter.conformedType
    (conformer.rowSlots writers own ++ UnionSchema.slots own.ghosts) own.type field.type
    (conformer.kdi writers field.name)
  cells : column.cells =
    keepRows mask ((conformer.conformField arrow writers own field).map (·.cell))
  clean : ∀ (row : Nat) (fitted : Fitted), mask[row]? = some true →
    (conformer.conformField arrow writers own field)[row]? = some fitted → fitted.bad = none

/-- Conforming sets whole rows aside and keeps the others, in order: the target's columns as they
were fitted, each without a reason to reject it, and every other column as it was. -/
theorem conform_columns (decoded : batch.Decoded)
    (apart : (conformer.target.map Field.name).Nodup)
    (conformed : conformer.conform arrow batch = .ok (out, rejected)) :
    ∃ (writers : Option (List Shape)) (mask : List Bool), conformer.writers batch = .ok writers ∧
      mask.length = batch.rows ∧ out.rows = (mask.filter id).length ∧
      SetAside mask batch rejected ∧
      out.columns.map Column.name = batch.columns.map Column.name ∧
      (∀ row : Nat, row < batch.rows → (∀ field own fitted, field ∈ conformer.target →
        batch.columnNamed field.name = some own →
          (conformer.conformField arrow writers own field)[row]? = some fitted →
            fitted.bad = none) → mask[row]? = some true) ∧
      (∀ field own, field ∈ conformer.target → batch.columnNamed field.name = some own →
        ∃ column, out.columnNamed field.name = some column ∧
          conformer.Conformed arrow writers mask field own column) ∧
      ∀ name, (∀ field, field ∈ conformer.target → field.name ≠ name) →
        out.columnNamed name = (batch.columnNamed name).map fun own =>
          { own with cells := keepRows mask own.cells } := by
  cases written : conformer.writers batch with
  | error why =>
      unfold conform at conformed
      rw [written] at conformed
      cases conformed
  | ok writers =>
      rw [conform_eq written] at conformed
      have names : (((conformer.made arrow batch writers).map (conformer.columnOf writers)).map
          Column.name).Nodup := by
        rw [List.map_map]
        refine List.Nodup.sublist (sublist_filterMap ?_ conformer.target) apart
        intro field entry picked
        obtain ⟨column, _named, same⟩ := Option.map_eq_some_iff.mp picked
        rw [← same]
        rfl
      have rows : (conformer.bad arrow batch writers).length = batch.rows :=
        length_firstBad batch.rows _
      obtain ⟨keeps, aside⟩ := split_keeps (Except.ok.inj conformed)
        (length_whole decoded written) rows
      refine ⟨writers, _, rfl, ?_, ?_, aside, ?_, ?_, ?_, ?_⟩
      · rw [List.length_map]
        exact rows
      · rw [keeps]
        rfl
      · rw [keeps]
        unfold Batch.keep
        dsimp only
        rw [List.map_map, ← names_foldl_setColumn
          ((conformer.made arrow batch writers).map (conformer.columnOf writers)) batch.columns,
          ← whole_columns]
        rfl
      · intro row within clean
        apply firstBad_clean within
        intro column among
        obtain ⟨entry, inside, same⟩ := List.mem_map.mp among
        obtain ⟨member, named, cells⟩ := mem_made.mp inside
        rw [← same]
        dsimp only
        rw [List.getElem?_map, cells]
        cases there : (conformer.conformField arrow writers entry.2.1 entry.1)[row]? with
        | none => rfl
        | some fitted => exact clean entry.1 entry.2.1 fitted member named there
      · intro field own among named
        have inside : (field, own, conformer.conformField arrow writers own field) ∈
            conformer.made arrow batch writers := mem_made.mpr ⟨among, named, rfl⟩
        have found := find_of_mem names (List.mem_map_of_mem inside) (show _ = field.name from rfl)
        rw [keeps, columnNamed_keep]
        unfold Batch.columnNamed at named ⊢
        rw [whole_columns, find_foldl_setColumn names]
        rw [found, named]
        refine ⟨_, rfl, rfl, rfl, ?_⟩
        intro row fitted kept there
        have clean := firstBad_none kept (List.mem_map_of_mem inside)
        dsimp only at clean
        rw [List.getElem?_map, there] at clean
        exact clean
      · intro name away
        rw [keeps, columnNamed_keep]
        unfold Batch.columnNamed
        rw [whole_columns, find_foldl_setColumn names]
        have absent : ((conformer.made arrow batch writers).map (conformer.columnOf writers)).find?
            (fun own => own.name = name) = none := by
          rw [List.find?_eq_none]
          intro column among same
          obtain ⟨entry, inside, eq⟩ := List.mem_map.mp among
          apply away entry.1 (mem_made.mp inside).1
          rw [← of_decide_eq_true same, ← eq]
          rfl
        rw [absent]

/-! ### The values of the target's columns -/

theorem mem_keepRows {α : Type} {mask : List Bool} {cells : List α} {cell : α}
    (among : cell ∈ keepRows mask cells) :
    ∃ row : Nat, mask[row]? = some true ∧ cells[row]? = some cell := by
  obtain ⟨⟨keeps, own⟩, inside, same⟩ := List.mem_map.mp among
  obtain ⟨member, kept⟩ := List.mem_filter.mp inside
  obtain ⟨row, stands⟩ := List.getElem?_of_mem member
  rw [List.getElem?_zip_eq_some] at stands
  refine ⟨row, ?_, ?_⟩
  · rw [stands.1]
    exact congrArg some kept
  · rw [stands.2]
    exact congrArg some same

theorem rowSlots_get {writers : Option (List Shape)} {column : Column} {row : Nat} {slot : Slot}
    (stands : (conformer.rowSlots writers column)[row]? = some slot) :
    column.cells[row]? = some slot.cell := by
  unfold rowSlots at stands
  rw [List.getElem?_map] at stands
  obtain ⟨⟨cell, stood⟩, zipped, same⟩ := Option.map_eq_some_iff.mp stands
  rw [List.getElem?_zip_eq_some] at zipped
  rw [← same]
  exact zipped.1

/-- Where a value of a target's column comes from. -/
theorem conformField_get {writers : Option (List Shape)} {column : Column} {field : Field}
    {row : Nat} {fitted : Fitted}
    (there : (conformer.conformField arrow writers column field)[row]? = some fitted) :
    ∃ slot : Slot, column.cells[row]? = some slot.cell ∧ fitted =
      conformer.fitter.fit arrow
        (conformer.rowSlots writers column ++ UnionSchema.slots column.ghosts) column.type
        field.type field.name true (conformer.kdi writers field.name) slot := by
  unfold conformField at there
  rw [List.getElem?_map] at there
  obtain ⟨slot, stands, same⟩ := Option.map_eq_some_iff.mp there
  exact ⟨slot, rowSlots_get stands, same.symm⟩

/-- No row that is kept has a null that can be seen where a nested field, element or entry of the
target is NOT NULL. -/
theorem conform_honors (decoded : batch.Decoded)
    (honest : ∀ column, column ∈ batch.columns → ∀ cell, cell ∈ column.cells →
      Honors column.type cell)
    (apart : (conformer.target.map Field.name).Nodup)
    (conformed : conformer.conform arrow batch = .ok (out, rejected)) :
    ∀ field own, field ∈ conformer.target → batch.columnNamed field.name = some own →
      ∃ column, out.columnNamed field.name = some column ∧ column.cells.length = out.rows ∧
        ∀ cell, cell ∈ column.cells → Honors field.type cell := by
  obtain ⟨writers, mask, written, length, rows, _aside, _names, _whole, targets, _others⟩ :=
    conform_columns decoded apart conformed
  intro field own among named
  obtain ⟨column, found, is⟩ := targets field own among named
  have member := (columnNamed_mem named).1
  refine ⟨column, found, ?_, ?_⟩
  · rw [is.cells, rows]
    apply length_keepRows
    rw [List.length_map, length_conformField decoded written member, length]
  · intro cell inside
    rw [is.cells] at inside
    obtain ⟨row, kept, there⟩ := mem_keepRows inside
    rw [List.getElem?_map] at there
    obtain ⟨fitted, stands, same⟩ := Option.map_eq_some_iff.mp there
    have clean := is.clean row fitted kept stands
    obtain ⟨slot, source, made⟩ := conformField_get stands
    have holds := List.mem_of_getElem? source
    rw [← same]
    rw [made] at clean ⊢
    rcases Fitter.fitWithin_fits _ _ own.type field.type field.name true _ slot
      (decoded.typed own member _ holds) clean with fits | left
    · exact fits.honors (honest own member _ holds)
    · obtain ⟨⟨_top, _union, plain⟩, _left⟩ := left
      cases type : field.type with
      | plain dest => trivial
      | struct fields => rw [type] at plain; cases plain
      | list kind item nullable => rw [type] at plain; cases plain
      | map key value nullable => rw [type] at plain; cases plain
      | union name first rest => rw [type] at plain; cases plain

/-- A target whose point has no null in it. -/
def sampleConformer : Conformer where
  target := [{ name := "point"
               type := .struct (.cons "x" (.plain .int64) false .nil)
               nullable := true }]
  pre := "_"

theorem conform_honors_sample : ∃ out rejected column,
    sampleConformer.conform sampleArrow sampleBatch = .ok (out, rejected) ∧
      out.columnNamed "point" = some column ∧ ∀ cell, cell ∈ column.cells →
        Honors (.struct (.cons "x" (.plain .int64) false .nil)) cell := by
  have honest : ∀ column, column ∈ sampleBatch.columns → ∀ cell, cell ∈ column.cells →
      Honors column.type cell := by
    intro column among cell inside
    rw [List.mem_singleton.mp among] at inside ⊢
    rcases List.mem_cons.mp inside with first | later
    · rw [first]
      simp [Honors, HonorsFields]
    · rw [List.mem_singleton.mp later]
      exact honors_null _ _ rfl
  obtain ⟨column, found, _length, honors⟩ := conform_honors sampleBatch_decoded honest
    (show (sampleConformer.target.map Field.name).Nodup by decide)
    (show sampleConformer.conform sampleArrow sampleBatch = .ok _ from rfl)
    _ _ List.mem_cons_self rfl
  exact ⟨_, _, column, rfl, found, honors⟩

end Conformer

namespace Fitter

variable {arrow : Arrow} {fitter : Fitter}

/-- A plain column of the target's, left as it is or fitted. -/
theorem fit_top_plain {column : List Slot} {source : DataType} {dest : PlainType} {path : String}
    {slot : Slot} (other : source.isUnion = false) :
    fitter.fit arrow column source (.plain dest) path true none slot =
      if source = .plain dest then .clean slot.cell
      else fitter.plain arrow source dest path true slot := by
  by_cases same : source = .plain dest
  · rw [if_pos same]
    subst same
    exact fitWithin_same
  · rw [if_neg same]
    exact fitWithin_plain other same

theorem conformedType_plain {own dest : PlainType} (valued : own ≠ .null) {column : List Slot} :
    fitter.conformedType column (.plain own) (.plain dest) none =
      if (own.isFloat || own.isText) && (decimalShape dest).isSome then .plain dest
      else .plain own := by
  unfold conformedType
  dsimp only
  split
  · next isNull => exact (valued (DataType.plain.inj isNull)).elim
  · next type _notNull isPlain =>
    cases isPlain
    rfl
  · next notPlain => exact (notPlain own rfl).elim

theorem plain_valued {own dest : PlainType} (valued : own ≠ .null) {path : String} {slot : Slot} :
    fitter.plain arrow (.plain own) dest path true slot =
      if (own.isFloat || own.isText) && (decimalShape dest).isSome then
        fitter.parseDecimal arrow own dest path slot
      else .clean slot.cell := by
  unfold plain
  split
  · next isNull => exact (valued (DataType.plain.inj isNull)).elim
  · next type _notNull isPlain =>
    cases isPlain
    rfl
  · next notPlain => exact (notPlain own rfl).elim

theorem conformedType_nested {column : List Slot} {source dest : DataType}
    (nested : dest.isNested = true) : fitter.conformedType column source dest none = dest := by
  cases dest with
  | plain own => cases nested
  | struct fields => cases source <;> rfl
  | list kind item nullable => cases source <;> rfl
  | map key value nullable => cases source <;> rfl
  | union name type rest => cases source <;> rfl

/-- A column of the target's comes out in the target's type, or, plain, in its own. -/
theorem conformedType_either {column : List Slot} {source dest : DataType} :
    fitter.conformedType column source dest none = dest ∨
      fitter.conformedType column source dest none = source ∧ dest.isNested = false := by
  cases nested : dest.isNested with
  | true => exact .inl (conformedType_nested nested)
  | false =>
      cases dest with
      | plain dest =>
          cases source with
          | union name type rest => exact .inl rfl
          | struct own => exact .inr ⟨rfl, rfl⟩
          | list kind own held => exact .inr ⟨rfl, rfl⟩
          | map key own held => exact .inr ⟨rfl, rfl⟩
          | plain own =>
              by_cases isNull : own = .null
              · subst isNull
                exact .inl rfl
              · rw [conformedType_plain isNull]
                split
                · exact .inl rfl
                · exact .inr ⟨rfl, rfl⟩
      | struct fields => cases nested
      | list kind item nullable => cases nested
      | map key value nullable => cases nested
      | union name type rest => cases nested

theorem plain_top_mirrors (untexted : fitter.text = {}) {column : List Slot} {source : DataType}
    {dest : PlainType} {path : String} {slot : Slot} (other : source.isUnion = false)
    (typed : Typed source slot.cell)
    (clean : (fitter.plain arrow source dest path true slot).bad = none) :
    fitter.Mirrors arrow source (fitter.conformedType column source (.plain dest) none) slot.cell
      (fitter.plain arrow source dest path true slot).cell := by
  cases source with
  | union name type rest => cases other
  | struct fields => exact .refl _ _
  | list kind item nullable => exact .refl _ _
  | map key value nullable => exact .refl _ _
  | plain own =>
      by_cases isNull : own = .null
      · subst isNull
        obtain ⟨value, cell_eq, null⟩ := typed
        apply Mirrors.null
        · rw [cell_eq, null rfl]
          rfl
        · rfl
      · rw [plain_valued isNull] at clean ⊢
        rw [conformedType_plain isNull]
        by_cases parses : ((own.isFloat || own.isText) && (decimalShape dest).isSome) = true
        · rw [if_pos parses] at clean ⊢
          rw [if_pos parses]
          exact (parseDecimal_fits parses typed clean).mirrors untexted
        · rw [if_neg parses, if_neg parses]
          exact .refl _ _

/-- A value of a target's column that is kept mirrors the one that it comes from, in the type
that the column comes out with. -/
theorem fit_top_mirrors (untexted : fitter.text = {}) {column : List Slot}
    {source dest : DataType} {path : String} {slot : Slot} (typed : Typed source slot.cell)
    (clean : (fitter.fit arrow column source dest path true none slot).bad = none) :
    fitter.Mirrors arrow source (fitter.conformedType column source dest none) slot.cell
      (fitter.fit arrow column source dest path true none slot).cell := by
  have fits := fitWithin_fits _ column source dest path true none slot typed clean
  cases union : source.isUnion with
  | true =>
      have same : fitter.conformedType column source dest none = dest := by
        cases source with
        | union name type rest => rfl
        | plain own => cases union
        | struct fields => cases union
        | list kind item nullable => cases union
        | map key value nullable => cases union
      rw [same]
      rcases fits with fits | left
      · exact fits.mirrors untexted
      · cases union.symm.trans left.1.2.1
  | false =>
      cases nested : dest.isNested with
      | true =>
          rw [conformedType_nested nested]
          rcases fits with fits | left
          · exact fits.mirrors untexted
          · cases nested.symm.trans left.1.2.2
      | false =>
          cases dest with
          | plain dest =>
              rw [fit_top_plain union] at clean ⊢
              by_cases same : source = .plain dest
              · rw [if_pos same]
                subst same
                have still : fitter.conformedType column (.plain dest) (.plain dest) none =
                    .plain dest := by
                  by_cases isNull : dest = .null
                  · subst isNull
                    rfl
                  · rw [conformedType_plain isNull, ite_self]
                rw [still]
                exact .refl _ _
              · rw [if_neg same] at clean ⊢
                exact plain_top_mirrors untexted union typed clean
          | struct fields => cases nested
          | list kind item nullable => cases nested
          | map key value nullable => cases nested
          | union name type rest => cases nested

end Fitter

namespace Conformer

variable {arrow : Arrow} {conformer : Conformer} {batch out : Batch} {rejected : Option Rejected}

theorem kdi_untexted (untexted : conformer.text = {}) {writers : Option (List Shape)}
    (written : conformer.writers batch = .ok writers) (name : String) :
    conformer.kdi writers name = none := by
  have none_ : writers = none := by
    unfold Conformer.writers at written
    rw [untexted] at written
    cases written
    rfl
  rw [none_]
  unfold Conformer.kdi Conformer.stood
  split <;> rfl

/-- Where kafka-delta-ingest's text is not written, conforming sets whole rows aside and keeps
the others, in order: each value of a target's column stands at the path that it comes from, and
every other column is as it was. -/
theorem conform_mirrors (decoded : batch.Decoded) (untexted : conformer.text = {})
    (apart : (conformer.target.map Field.name).Nodup)
    (conformed : conformer.conform arrow batch = .ok (out, rejected)) :
    ∃ mask : List Bool, mask.length = batch.rows ∧ out.rows = (mask.filter id).length ∧
      SetAside mask batch rejected ∧
      out.columns.map Column.name = batch.columns.map Column.name ∧
      (∀ field own, field ∈ conformer.target → batch.columnNamed field.name = some own →
        ∃ column, out.columnNamed field.name = some column ∧
          (column.type = field.type ∨ column.type = own.type ∧ field.type.isNested = false) ∧
          List.Forall₂ (conformer.fitter.Mirrors arrow own.type column.type)
            (keepRows mask own.cells) column.cells) ∧
      ∀ name, (∀ field, field ∈ conformer.target → field.name ≠ name) →
        out.columnNamed name = (batch.columnNamed name).map fun own =>
          { own with cells := keepRows mask own.cells } := by
  obtain ⟨writers, mask, written, length, rows, aside, names, _whole, targets, others⟩ :=
    conform_columns decoded apart conformed
  refine ⟨mask, length, rows, aside, names, ?_, others⟩
  intro field own among named
  obtain ⟨column, found, is⟩ := targets field own among named
  have kdi := kdi_untexted untexted written field.name
  have member := (columnNamed_mem named).1
  have type := is.type
  rw [kdi] at type
  refine ⟨column, found, ?_, ?_⟩
  · rw [type]
    exact Fitter.conformedType_either
  · rw [is.cells]
    apply keepRows_forall
    · rw [List.length_map, length_conformField decoded written member]
      exact decoded.length own member
    · intro row cell fittedCell keeps stands there
      rw [List.getElem?_map] at there
      obtain ⟨fitted, there, same⟩ := Option.map_eq_some_iff.mp there
      have clean := is.clean row fitted keeps there
      obtain ⟨slot, source, made⟩ := conformField_get there
      cases Option.some.inj (source.symm.trans stands)
      rw [← same, type]
      rw [made] at clean ⊢
      rw [kdi] at clean ⊢
      exact Fitter.fit_top_mirrors untexted
        (decoded.typed own member _ (List.mem_of_getElem? stands)) clean

theorem conform_mirrors_sample : ∃ out rejected mask column,
    sampleConformer.conform sampleArrow sampleBatch = .ok (out, rejected) ∧
      SetAside mask sampleBatch rejected ∧ out.columnNamed "point" = some column := by
  obtain ⟨mask, _length, _rows, aside, _names, targets, _others⟩ := conform_mirrors
    sampleBatch_decoded (show sampleConformer.text = {} from rfl)
    (show (sampleConformer.target.map Field.name).Nodup by decide)
    (show sampleConformer.conform sampleArrow sampleBatch = .ok _ from rfl)
  obtain ⟨column, found, _rest⟩ := targets _ _ List.mem_cons_self rfl
  exact ⟨_, _, mask, column, rfl, aside, found⟩

end Conformer

end Ddi.Kafka.Conform
