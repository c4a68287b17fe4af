/-
Exactly what is kept: where a type has no unions and kafka-delta-ingest's text is not written, a
value is rejected only when nothing in that type fits it. A null is rejected nowhere.
-/

import Ddi.Kafka.ConformMeaning

namespace Ddi.Kafka.Conform

/-! ### Sizes -/

theorem DataType.size_pos : ∀ type : DataType, 0 < type.size
  | .plain _ => Nat.one_pos
  | .struct _ => Nat.succ_pos _
  | .list _ _ _ => Nat.succ_pos _
  | .map _ _ _ => Nat.succ_pos _
  | .union _ _ _ => Nat.succ_pos _

theorem Fields.size_get {fields : Fields} {place : Nat} {field : Field}
    (stands : fields.toList[place]? = some field) : field.type.size ≤ fields.size := by
  induction fields generalizing place with
  | nil => cases stands
  | cons name type nullable rest ih =>
      unfold Fields.size
      cases place with
      | zero =>
          cases stands
          exact Nat.le_add_right _ _
      | succ place => exact Nat.le_add_left_of_le (ih stands)

theorem size_branch {name : String} {type : DataType} {rest : Fields} {branch : Nat}
    {field : Field} (stands : (branches name type rest)[branch]? = some field) :
    field.type.size < (DataType.union name type rest).size := by
  have whole : (DataType.union name type rest).size = type.size + rest.size + 1 := rfl
  rw [whole]
  cases branch with
  | zero =>
      cases stands
      exact Nat.lt_succ_of_le (Nat.le_add_right _ _)
  | succ branch =>
      exact Nat.lt_succ_of_le (Nat.le_add_left_of_le (Fields.size_get stands))

mutual

def DataType.unionFree : DataType → Bool
  | .plain _ => true
  | .struct fields => fields.unionFree
  | .list _ item _ => item.unionFree
  | .map key value _ => key.unionFree && value.unionFree
  | .union _ _ _ => false

def Fields.unionFree : Fields → Bool
  | .nil => true
  | .cons _ type _ rest => type.unionFree && rest.unionFree

end

theorem Fields.unionFree_get {fields : Fields} (free : fields.unionFree = true) {place : Nat}
    {field : Field} (stands : fields.toList[place]? = some field) :
    field.type.unionFree = true := by
  induction fields generalizing place with
  | nil => cases stands
  | cons name type nullable rest ih =>
      unfold Fields.unionFree at free
      obtain ⟨first, others⟩ := Bool.and_eq_true_iff.mp free
      cases place with
      | zero =>
          cases stands
          exact first
      | succ place => exact ih others stands

namespace Fitter

variable {arrow : Arrow} {fitter : Fitter} {inner : Inner}

/-! ### Nulls -/

/-- An inner step rejects no null of types that are small enough. -/
def SparesNulls (inner : Inner) (size : Nat) : Prop :=
  ∀ column source dest path kdi slot, Typed source slot.cell → slot.cell.isNull = true →
    source.size + dest.size ≤ size → (inner column source dest path false kdi slot).bad = none

theorem cast_null {source : DataType} {dest : PlainType} {path : String} {slot : Slot}
    (null : slot.cell.isNull = true) : (fitter.cast arrow source dest path slot).bad = none := by
  unfold cast
  rw [if_pos null]
  rfl

theorem refused_null {source dest : DataType} {path : String} {slot : Slot}
    (null : slot.cell.isNull = true) :
    (fitter.refused arrow source dest path slot).bad = none := by
  unfold refused
  rw [if_pos null]

theorem branchFor_null {steps : Nat} (spares : SparesNulls inner steps) {column : List Slot}
    {source : DataType} {name : String} {type : DataType} {rest : Fields} {first : Field}
    {path : String} {named : Option String} {union : DataType}
    (small : source.size + (DataType.union name type rest).size ≤ steps + 1) {slot : Slot}
    (typed : Typed source slot.cell) (null : slot.cell.isNull = true) :
    ((fitter.branchFor arrow inner column source (branches name type rest) first path named
      union).2 slot).bad = none := by
  unfold branchFor
  cases resolved : resolvedBranch source (branches name type rest) named with
  | some found =>
      obtain ⟨branch, field⟩ := found
      apply spares column source field.type path none slot typed null
      have smaller := size_branch (resolvedBranch_get resolved)
      omega
  | none =>
      dsimp only
      cases ((castBranches arrow source (branches name type rest)).find? fun candidate =>
          column.all fun slot =>
            (fitter.cast arrow source candidate.2 path slot).bad.isNone).or
              (castBranches arrow source (branches name type rest)).head? with
      | some candidate => exact cast_null null
      | none => exact refused_null null

/-- No step rejects a null. -/
theorem fitWithin_null (steps : Nat) : ∀ (column : List Slot) (source dest : DataType)
    (path : String) (top : Bool) (kdi : Option Bool) (slot : Slot), Typed source slot.cell →
      slot.cell.isNull = true → source.size + dest.size ≤ steps →
        (fitter.fitWithin arrow steps column source dest path top kdi slot).bad = none := by
  induction steps with
  | zero =>
      intro column source dest path top kdi slot _typed _null small
      have positive := source.size_pos
      omega
  | succ steps ih =>
      intro column source dest path top kdi slot typed null small
      have spares : SparesNulls (fitter.fitWithin arrow steps) steps :=
        fun column source dest path kdi slot => ih column source dest path false kdi slot
      have invalid : slot.cell.valid = false := by
        unfold Cell.valid
        rw [null]
        rfl
      have arm := fitWithin_arm arrow fitter steps column source dest path top kdi slot
      generalize fitter.fitWithin arrow (steps + 1) column source dest path top kdi slot = fitted
        at arm ⊢
      cases arm with
      | equal type kdi idle => rfl
      | unions fromName fromType fromRest name type rest =>
          obtain ⟨branch, held, field, cell_eq, stands, typedHeld⟩ := typed_union typed
          unfold unionToUnion
          rw [cell_eq] at null ⊢
          dsimp only
          rw [stands]
          have smaller := size_branch stands
          exact branchFor_null spares (by omega) typedHeld null
      | unionTo name type rest other =>
          obtain ⟨branch, held, field, cell_eq, stands, typedHeld⟩ := typed_union typed
          unfold Fitter.unionTo
          rw [cell_eq] at null ⊢
          dsimp only
          rw [stands]
          have smaller := size_branch stands
          exact spares _ field.type dest _ _ { cell := held, stood := _ } typedHeld null (by omega)
      | wrap source name type rest other =>
          have clean := @branchFor_null arrow fitter _ steps spares column source name type rest
            { name, type, nullable := true } path (fitter.names.lookup path)
            (.union name type rest) small slot typed null
          unfold wrapInUnion
          dsimp only
          split
          · split
            · exact clean
            · exact clean
          · exact clean
      | text source reach other =>
          unfold kdiText
          dsimp only
          split
          · split
            · rw [withNullWord_bad]
              rfl
            · split
              · rfl
              · rw [withNullWord_bad]
                exact cast_null null
          · rfl
      | plain source dest kdi other untexted =>
          unfold plain
          split
          · rfl
          · split
            · unfold parseDecimal
              obtain ⟨value, cell_eq, _valued⟩ := typed
              rw [cell_eq] at null ⊢
              cases value with
              | none => rfl
              | some value => cases null
            · split
              · rfl
              · exact cast_null null
          · split
            · rfl
            · exact cast_null null
      | null dest kdi nested other => rfl
      | structs source dest =>
          unfold Fitter.structs
          rw [invalid]
          rfl
      | list kind source held dest nullable =>
          unfold Fitter.list
          rw [invalid]
          rfl
      | map fromKey fromValue held key value nullable =>
          unfold Fitter.map
          rw [invalid]
          rfl
      | refused source dest kdi nested union valued struct list map => exact refused_null null

/-! ### What fits is not rejected -/

theorem unchanged_same {path : String} {source dest : DataType} {same : Bool}
    (back : fitter.intoUnion = true → same = true) :
    fitter.unchanged arrow path source dest same = none := by
  unfold unchanged
  unfold intoUnion at back
  cases into : fitter.into with
  | target => rfl
  | union writer newest =>
      rw [into] at back
      rw [back rfl]
      rfl

theorem casts_clean {source : DataType} {dest : PlainType} {path : String} {slot : Slot}
    {out : Cell} (casts : fitter.Casts arrow source dest slot.cell out) :
    (fitter.cast arrow source dest path slot).bad = none := by
  generalize cell_eq : slot.cell = cell at casts
  unfold cast
  rw [cell_eq]
  cases casts with
  | null null =>
      rw [if_pos null]
      rfl
  | @plain own value out type can casts back whole =>
      have converts : convert arrow source dest (.plain (some value)) =
          some (out, arrow.cast dest own out == some value) := by
        subst type
        unfold convert
        rw [if_pos can]
        dsimp only
        rw [casts]
        rfl
      rw [converts]
      change (fitter.unchanged arrow path source (.plain dest) _).or _ = none
      rw [unchanged_same fun union => beq_iff_eq.mpr (back union), Option.none_or]
      unfold intoUnion at whole
      cases into : fitter.into with
      | union writer newest => rfl
      | target =>
          rw [into] at whole
          dsimp only
          rw [whole rfl]
          rfl
  | @rendered cell out same node holds nested can renders back =>
      have converts : convert arrow source dest cell = some (out, same) := by
        unfold convert
        rw [if_pos can]
        cases source with
        | plain own => cases nested
        | struct fields => exact renders
        | list kind item nullable => exact renders
        | map key value nullable => exact renders
        | union name type rest => exact renders
      rw [nodeAt_valid holds, converts]
      change (fitter.unchanged arrow path source (.plain dest) same).or _ = none
      rw [unchanged_same back, Option.none_or]
      cases fitter.into with
      | union writer newest => rfl
      | target =>
          dsimp only
          have dropped : decimalFractionDropped source dest cell = false := by
            cases source with
            | plain own => cases nested
            | struct fields => rfl
            | list kind item nullable => rfl
            | map key value nullable => rfl
            | union name type rest => rfl
          rw [dropped]
          rfl

theorem parsed_clean {own dest : PlainType} {path : String} {slot : Slot} {value : Value}
    {text : String} {unscaled : Int} (cell_eq : slot.cell = .plain (some value))
    (written : textOf arrow dest value = some text)
    (fewer : countedDigits ((decimalShape dest).elim 0 Prod.snd) text ≤ 255)
    (reads : arrow.parseDecimal dest text = some unscaled)
    (back : fitter.intoUnion = true → arrow.cast dest own (.decimal unscaled) = some value) :
    (fitter.parseDecimal arrow own dest path slot).bad = none := by
  unfold parseDecimal
  rw [cell_eq]
  dsimp only
  rw [written, Option.bind_some, if_pos fewer, reads]
  exact unchanged_same fun union => beq_iff_eq.mpr (back union)

/-- What fits is null where the value is. -/
theorem Fits.isNull (untexted : fitter.text = {}) {source dest : DataType} {cell out : Cell}
    (fits : fitter.Fits arrow source dest cell out) : out.isNull = cell.isNull := by
  have plain : fitter.text.compat = false ∧ fitter.text.nullText = false := by
    rw [untexted]
    exact ⟨rfl, rfl⟩
  have casts : ∀ {source dest cell out}, fitter.Casts arrow source dest cell out →
      out.isNull = cell.isNull := by
    intro source dest cell out casts
    cases casts with
    | null null => exact null.symm
    | plain type can casts back whole => rfl
    | rendered holds nested can renders back => exact (nodeAt_valid holds).symm
  induction fits with
  | same type cell => rfl
  | null null stays => rw [null, stays]
  | word writes null => cases plain.2.symm.trans writes
  | cast other unparsed casts' => exact casts casts'
  | parsed parsed written fewer reads back => rfl
  | text writes written => cases plain.1.symm.trans writes
  | held stands fits same => exact same
  | into stands fits same => exact same
  | @intoCast name type rest branch field source dest cell out stands plain casts' =>
      change out.isNull = cell.isNull
      exact casts casts'
  | struct length fits missing present kept same => rfl
  | list length fits present same => rfl
  | map places length inside all keys values presentKeys present same others => rfl

/-! ### The step for each pair of types -/

variable {steps : Nat} {column : List Slot} {path : String} {top : Bool} {slot : Slot}

theorem fitWithin_same {type : DataType} :
    fitter.fitWithin arrow (steps + 1) column type type path top none slot = .clean slot.cell := by
  simp [fitWithin, kdiWork]

theorem fitWithin_plain {source : DataType} {dest : PlainType} (other : source.isUnion = false)
    (differ : source ≠ .plain dest) :
    fitter.fitWithin arrow (steps + 1) column source (.plain dest) path top none slot =
      fitter.plain arrow source dest path top slot := by
  cases source with
  | union name type rest => cases other
  | plain own => simp [fitWithin, differ]
  | struct fields => simp [fitWithin]
  | list kind item nullable => simp [fitWithin]
  | map key value nullable => simp [fitWithin]

theorem fitWithin_nested {own : PlainType} {dest : DataType} (nested : dest.isNested = true)
    (other : dest.isUnion = false) :
    fitter.fitWithin arrow (steps + 1) column (.plain own) dest path top none slot =
      if own = .null then .clean (nullCell dest)
      else fitter.refused arrow (.plain own) dest path slot := by
  cases dest with
  | plain own => cases nested
  | union name type rest => cases other
  | struct fields =>
      by_cases isNull : own = .null
      · subst isNull
        simp [fitWithin]
      · simp [fitWithin, isNull]
  | list kind item nullable =>
      by_cases isNull : own = .null
      · subst isNull
        simp [fitWithin]
      · simp [fitWithin, isNull]
  | map key value nullable =>
      by_cases isNull : own = .null
      · subst isNull
        simp [fitWithin]
      · simp [fitWithin, isNull]

theorem fitWithin_unionTo {name : String} {type : DataType} {rest : Fields} {dest : DataType}
    (other : dest.isUnion = false) :
    fitter.fitWithin arrow (steps + 1) column (.union name type rest) dest path top none slot =
      unionTo (fitter.fitWithin arrow steps) column (branches name type rest) dest path none
        slot := by
  cases dest with
  | union name type rest => cases other
  | plain own => simp [fitWithin]
  | struct fields => simp [fitWithin]
  | list kind item nullable => simp [fitWithin]
  | map key value nullable => simp [fitWithin]

theorem fitWithin_struct {source dest : Fields} (differ : source ≠ dest) :
    fitter.fitWithin arrow (steps + 1) column (.struct source) (.struct dest) path top none slot =
      fitter.structs (fitter.fitWithin arrow steps) column source.toList dest.toList path none
        slot := by
  simp [fitWithin, differ]

theorem fitWithin_list {kind : ListKind} {source dest : DataType} {held nullable : Bool}
    (differ : DataType.list kind source held ≠ .list .list dest nullable) :
    fitter.fitWithin arrow (steps + 1) column (.list kind source held) (.list .list dest nullable)
      path top none slot =
      Fitter.list (fitter.fitWithin arrow steps) column source dest nullable path none slot := by
  simp only [fitWithin, differ, false_and, if_false]

theorem fitWithin_map {fromKey fromValue key value : DataType} {held nullable : Bool}
    (differ : DataType.map fromKey fromValue held ≠ .map key value nullable) :
    fitter.fitWithin arrow (steps + 1) column (.map fromKey fromValue held)
      (.map key value nullable) path top none slot =
      fitter.map (fitter.fitWithin arrow steps) column fromKey fromValue key value nullable path
        none slot := by
  simp only [fitWithin, differ, false_and, if_false]

theorem plain_clean {source : DataType} {dest : PlainType} {out : Cell}
    (unparsed : parses source dest = false) (casts : fitter.Casts arrow source dest slot.cell out) :
    (fitter.plain arrow source dest path false slot).bad = none := by
  unfold plain
  split
  · rfl
  · next own valued =>
    split
    · next parsed => cases unparsed.symm.trans parsed
    · exact casts_clean casts
  · exact casts_clean casts

theorem plain_parses {own dest : PlainType} (parsed : parses (.plain own) dest = true) :
    fitter.plain arrow (.plain own) dest path top slot =
      fitter.parseDecimal arrow own dest path slot := by
  unfold plain
  split
  · next isNull =>
    cases isNull
    cases parsed
  · next type valued isPlain =>
    cases isPlain
    exact if_pos parsed
  · next notPlain => exact (notPlain own rfl).elim

/-! ### Fields, elements and entries -/

theorem inField_of_clean {type : DataType} {nullable : Bool} {fitted : Fitted}
    (clean : fitted.bad = none) (present : nullable = false → fitted.cell.isNull = false) :
    (inField type nullable path fitted).bad = none := by
  unfold inField
  dsimp only
  rw [clean, Option.none_or]
  cases nullable with
  | true => rfl
  | false =>
      rw [present rfl]
      rfl

theorem lostField_of_kept {source dest : List Field} {cell : Cell}
    (kept : fitter.intoUnion = true → ∀ (place : Nat) (own : Field), source[place]? = some own →
      fieldNamed own.name dest = none → (cell.child place).isNull = true) :
    fitter.lostField source dest path cell = none := by
  unfold lostField
  unfold intoUnion at kept
  cases into : fitter.into with
  | target => rfl
  | union writer newest =>
      rw [into] at kept
      dsimp only
      rw [Option.map_eq_none_iff, List.find?_eq_none]
      intro entry among lost
      obtain ⟨own, place⟩ := entry
      obtain ⟨missing, valid⟩ := Bool.and_eq_true_iff.mp lost
      have null := kept rfl place own (List.mk_mem_zipIdx_iff_getElem?.mp among)
        (Option.isNone_iff_eq_none.mp missing)
      unfold Cell.valid at valid
      rw [null] at valid
      cases valid

/-- What an inner step makes of a value that fits: it is kept, and null only where the value
is. -/
def KeepsFits (inner : Inner) (size : Nat) (source dest : DataType) (cell : Cell) : Prop :=
  source.size + dest.size ≤ size → Typed source cell →
    ∀ column path (slot : Slot), slot.cell = cell →
      (inner column source dest path false none slot).bad = none ∧
        (inner column source dest path false none slot).cell.isNull = cell.isNull

theorem structs_clean {source dest : Fields} {children : List Cell}
    (cell_eq : slot.cell = .struct true children) (typed : Typed (.struct source) slot.cell)
    (small : source.size + dest.size < steps)
    (fits : ∀ (place : Nat) (field : Field) (ownPlace : Nat) (own : Field),
      dest.toList[place]? = some field →
        fieldNamed field.name source.toList = some (ownPlace, own) →
          KeepsFits inner steps own.type field.type
            (children.getD ownPlace (.plain none)) ∧
          (field.nullable = false → (children.getD ownPlace (.plain none)).isNull = false))
    (missing : ∀ (place : Nat) (field : Field), dest.toList[place]? = some field →
      fieldNamed field.name source.toList = none → field.nullable = true)
    (kept : fitter.intoUnion = true → ∀ (place : Nat) (own : Field),
      source.toList[place]? = some own → fieldNamed own.name dest.toList = none →
        (children.getD place (.plain none)).isNull = true) :
    (fitter.structs inner column source.toList dest.toList path none slot).bad = none := by
  unfold structs
  have isValid : slot.cell.valid = true := by rw [cell_eq]; rfl
  rw [isValid]
  change ((dest.toList.map _).findSome? _).or _ = none
  rw [Option.or_eq_none_iff]
  constructor
  · rw [List.findSome?_eq_none_iff]
    intro fitted among
    obtain ⟨field, inside, same⟩ := List.mem_map.mp among
    obtain ⟨place, stands⟩ := List.getElem?_of_mem inside
    rw [← same]
    unfold Fitter.field
    dsimp only
    cases named : fieldNamed field.name source.toList with
    | none =>
        dsimp only
        rw [missing place field stands named]
        rfl
    | some found =>
        obtain ⟨ownPlace, own⟩ := found
        obtain ⟨keeps, present⟩ := fits place field ownPlace own stands named
        have child : (childSlot field.name ownPlace slot).cell =
            children.getD ownPlace (.plain none) := by
          unfold childSlot
          rw [cell_eq]
          rfl
        have small' : own.type.size + field.type.size ≤ steps := by
          have first := Fields.size_get (fieldNamed_some named).1
          have second := Fields.size_get stands
          omega
        have typed' := typed_child typed (fieldNamed_some named).1
        obtain ⟨clean, isNull⟩ := keeps small' (by rw [← child]; exact typed')
          (column.map (childSlot field.name ownPlace)) s!"{path}.{field.name}"
          (childSlot field.name ownPlace slot) child
        apply inField_of_clean clean
        intro notNull
        rw [isNull]
        exact present notNull
  · apply lostField_of_kept
    rw [cell_eq]
    exact kept

theorem list_clean {kind : ListKind} {source dest : DataType} {held nullable : Bool}
    {elements : List Cell} (cell_eq : slot.cell = .list true elements)
    (typed : Typed (.list kind source held) slot.cell) (small : source.size + dest.size ≤ steps)
    (fits : ∀ element, element ∈ elements →
      KeepsFits inner steps source dest element ∧
        (nullable = false → element.isNull = false)) :
    (Fitter.list inner column source dest nullable path none slot).bad = none := by
  unfold Fitter.list
  have isValid : slot.cell.valid = true := by rw [cell_eq]; rfl
  rw [isValid]
  change List.findSome? _ _ = none
  rw [List.findSome?_eq_none_iff]
  intro fitted among
  obtain ⟨element, inside, same⟩ := List.mem_map.mp among
  unfold elementSlots at inside
  obtain ⟨cell, member, made⟩ := List.mem_map.mp inside
  have within : cell ∈ elements := by
    rw [cell_eq] at member
    exact member
  obtain ⟨keeps, present⟩ := fits cell within
  have own : element.cell = cell := by rw [← made]
  rw [← same]
  obtain ⟨clean, isNull⟩ := keeps small (typed_element typed member)
    (column.flatMap elementSlots) s!"{path}[]" element own
  apply inField_of_clean clean
  intro notNull
  rw [isNull]
  exact present notNull

theorem map_clean {fromKey fromValue key value : DataType} {held nullable : Bool}
    {entries : List (Cell × Cell)} (cell_eq : slot.cell = .map true entries)
    (typed : Typed (.map fromKey fromValue held) slot.cell)
    (smallKeys : fromKey.size + key.size ≤ steps)
    (smallValues : fromValue.size + value.size ≤ steps)
    (keys : ∀ entry, entry ∈ entries → KeepsFits inner steps fromKey key entry.1 ∧
      entry.1.isNull = false)
    (values : ∀ entry, entry ∈ entries → KeepsFits inner steps fromValue value entry.2 ∧
      (nullable = false → entry.2.isNull = false)) :
    (fitter.map inner column fromKey fromValue key value nullable path none slot).bad = none := by
  unfold Fitter.map
  have isValid : slot.cell.valid = true := by rw [cell_eq]; rfl
  rw [isValid]
  change (List.findSome? _ _).or (List.findSome? _ _) = none
  rw [Option.or_eq_none_iff, List.findSome?_eq_none_iff, List.findSome?_eq_none_iff]
  constructor
  · intro fitted among
    obtain ⟨own, inside, same⟩ := List.mem_map.mp among
    unfold keySlots at inside
    obtain ⟨entry, member, made⟩ := List.mem_map.mp inside
    have within : entry ∈ entries := by
      rw [cell_eq] at member
      exact member
    obtain ⟨keeps, present⟩ := keys entry within
    have eq : own.cell = entry.1 := by rw [← made]
    rw [← same]
    obtain ⟨clean, isNull⟩ := keeps smallKeys (typed_entry typed member).1
      (column.flatMap keySlots) (path ++ "\x7bkey\x7d") own eq
    apply inField_of_clean clean
    intro _notNull
    rw [isNull]
    exact present
  · intro fitted among
    obtain ⟨own, inside, same⟩ := List.mem_map.mp among
    unfold valueSlots at inside
    obtain ⟨entry, member, made⟩ := List.mem_map.mp inside
    have within : entry ∈ entries := by
      rw [cell_eq] at member
      exact member
    obtain ⟨keeps, present⟩ := values entry within
    have eq : own.cell = entry.2 := by rw [← made]
    rw [← same]
    obtain ⟨clean, isNull⟩ := keeps smallValues (typed_entry typed member).2
      (column.flatMap valueSlots) (path ++ "\x7b\x7d") own eq
    apply inField_of_clean clean
    intro notNull
    rw [isNull]
    exact present notNull

/-- A value that fits a type without unions is kept, by as many steps as the two types are
large. -/
theorem Fits.clean (untexted : fitter.text = {}) {source dest : DataType} {cell out : Cell}
    (fits : fitter.Fits arrow source dest cell out) : dest.unionFree = true →
      ∀ steps, KeepsFits (fitter.fitWithin arrow steps) steps source dest cell := by
  have plain : fitter.text.compat = false ∧ fitter.text.nullText = false := by
    rw [untexted]
    exact ⟨rfl, rfl⟩
  -- What is kept fits, so it is null where the value is.
  have enough : ∀ {source dest : DataType} {cell : Cell} {steps : Nat},
      (source.size + dest.size ≤ steps → Typed source cell →
        ∀ column path (slot : Slot), slot.cell = cell →
          (fitter.fitWithin arrow steps column source dest path false none slot).bad = none) →
        KeepsFits (fitter.fitWithin arrow steps) steps source dest cell := by
    intro source dest cell steps clean small typed column path slot cell_eq
    have kept := clean small typed column path slot cell_eq
    refine ⟨kept, ?_⟩
    rw [← cell_eq] at typed ⊢
    rcases fitWithin_fits steps column source dest path false none slot typed kept with fits | left
    · exact fits.isNull untexted
    · cases left.1.1
  induction fits with
  | same type cell =>
      intro _free steps
      apply enough
      intro small _typed column path slot _cell_eq
      cases steps with
      | zero =>
          have positive := type.size_pos
          omega
      | succ steps => rw [fitWithin_same]; rfl
  | @null source dest cell out null stays =>
      intro _free steps
      apply enough
      intro small typed column path slot cell_eq
      rw [← cell_eq] at typed null
      exact fitWithin_null steps column source dest path false none slot typed null small
  | word writes null => cases plain.2.symm.trans writes
  | text writes written => cases plain.1.symm.trans writes
  | @cast source dest cell out other unparsed casts =>
      intro _free steps
      apply enough
      intro small _typed column path slot cell_eq
      cases steps with
      | zero =>
          have positive := source.size_pos
          omega
      | succ steps =>
          by_cases same : source = .plain dest
          · subst same
            rw [fitWithin_same]
            rfl
          · rw [fitWithin_plain other same]
            rw [← cell_eq] at casts
            exact plain_clean unparsed casts
  | @parsed own dest value text unscaled parsed written fewer reads back =>
      intro _free steps
      apply enough
      intro small _typed column path slot cell_eq
      cases steps with
      | zero => cases small
      | succ steps =>
          by_cases same : DataType.plain own = .plain dest
          · cases same
            rw [fitWithin_same]
            rfl
          · rw [fitWithin_plain rfl same, plain_parses parsed]
            exact parsed_clean cell_eq written fewer reads back
  | @held name type rest branch field dest cell out stands fits ih =>
      intro free steps
      apply enough
      intro small typed column path slot cell_eq
      cases steps with
      | zero =>
          have positive := dest.size_pos
          omega
      | succ steps =>
          have other : dest.isUnion = false := by
            cases dest with
            | union name type rest => cases free
            | _ => rfl
          rw [fitWithin_unionTo other]
          unfold Fitter.unionTo
          rw [cell_eq]
          dsimp only
          rw [stands]
          have smaller := size_branch stands
          obtain ⟨own, held, ownField, same, ownStands, typedHeld⟩ := typed_union typed
          cases same
          cases Option.some.inj (ownStands.symm.trans stands)
          exact (ih free steps (by omega) typedHeld _ _
            { cell := _, stood := slot.stood.branch field.name } rfl).1
  | into stands fits ih =>
      intro free
      cases free
  | intoCast stands plain casts =>
      intro free
      cases free
  | @struct source dest children out length fits missing present kept ih =>
      intro free steps
      apply enough
      intro small typed column path slot cell_eq
      cases steps with
      | zero => cases small
      | succ steps =>
          by_cases same : source = dest
          · subst same
            rw [fitWithin_same]
            rfl
          · rw [fitWithin_struct same]
            rw [← cell_eq] at typed
            have bound : source.size + dest.size < steps := by
              have whole : (DataType.struct source).size + (DataType.struct dest).size =
                  source.size + 1 + (dest.size + 1) := rfl
              omega
            apply structs_clean cell_eq typed bound
            · intro place field ownPlace own stands named
              refine ⟨ih place field ownPlace own stands named
                (Fields.unionFree_get free stands) steps, ?_⟩
              intro notNull
              rw [← (fits place field ownPlace own stands named).isNull untexted]
              exact present place field stands notNull
            · intro place field stands named
              exact (missing place field stands named).1
            · exact kept
  | @list kind source dest held nullable elements out length fits present ih =>
      intro free steps
      apply enough
      intro small typed column path slot cell_eq
      cases steps with
      | zero => cases small
      | succ steps =>
          by_cases same : DataType.list kind source held = .list .list dest nullable
          · rw [← same, fitWithin_same]
            rfl
          · rw [fitWithin_list same]
            rw [← cell_eq] at typed
            have bound : source.size + dest.size ≤ steps := by
              have whole : (DataType.list kind source held).size +
                  (DataType.list .list dest nullable).size = source.size + 1 + (dest.size + 1) :=
                rfl
              omega
            apply list_clean cell_eq typed bound
            intro element among
            obtain ⟨place, stands⟩ := List.getElem?_of_mem among
            have within : place < out.length := by
              rw [length]
              exact (List.getElem?_eq_some_iff.mp stands).1
            have there := List.getElem?_eq_getElem within
            refine ⟨ih place element _ stands there free steps, ?_⟩
            intro notNull
            rw [← (fits place element _ stands there).isNull untexted]
            exact present notNull _ (List.getElem_mem within)
  | @map fromKey fromValue key value held nullable entries out places length inside all keys values
      presentKeys present ihKeys ihValues =>
      intro free steps
      apply enough
      intro small typed column path slot cell_eq
      cases steps with
      | zero => cases small
      | succ steps =>
          by_cases same : DataType.map fromKey fromValue held = .map key value nullable
          · rw [← same, fitWithin_same]
            rfl
          · rw [fitWithin_map same]
            rw [← cell_eq] at typed
            have whole : (DataType.map fromKey fromValue held).size +
                (DataType.map key value nullable).size =
                  fromKey.size + fromValue.size + 1 + (key.size + value.size + 1) := rfl
            have places_eq := all plain.1
            rw [places_eq, List.length_range] at length
            have entryOf : ∀ entry, entry ∈ entries → ∃ (place : Nat) (fitted : Cell × Cell),
                places[place]? = some place ∧ entries[place]? = some entry ∧
                  out[place]? = some fitted ∧ fitted ∈ out := by
              intro entry among
              obtain ⟨place, stands⟩ := List.getElem?_of_mem among
              have bound := (List.getElem?_eq_some_iff.mp stands).1
              have within : place < out.length := by rw [length]; exact bound
              refine ⟨place, out[place], ?_, stands, List.getElem?_eq_getElem within,
                List.getElem_mem within⟩
              rw [places_eq, List.getElem?_range bound]
            obtain ⟨freeKey, freeValue⟩ := Bool.and_eq_true_iff.mp free
            have smallKeys : fromKey.size + key.size ≤ steps := by omega
            have smallValues : fromValue.size + value.size ≤ steps := by omega
            apply map_clean cell_eq typed smallKeys smallValues
            · intro entry among
              obtain ⟨place, fitted, placed, stands, there, member⟩ := entryOf entry among
              refine ⟨ihKeys place place entry fitted placed stands there freeKey steps, ?_⟩
              rw [← (keys place place entry fitted placed stands there).isNull untexted]
              exact presentKeys fitted member
            · intro entry among
              obtain ⟨place, fitted, placed, stands, there, member⟩ := entryOf entry among
              refine ⟨ihValues place place entry fitted placed stands there freeValue steps, ?_⟩
              intro notNull
              rw [← (values place place entry fitted placed stands there).isNull untexted]
              exact present notNull fitted member

/-! ### A column of the target's -/

/-- A value that a column of the target's keeps: a plain one is left for the coercer unless it is
read from its text, and any other fits. -/
def Keeps (arrow : Arrow) (fitter : Fitter) (source dest : DataType) (cell : Cell) : Prop :=
  (source.isUnion = false ∧ ∃ own, dest = .plain own ∧ parses source own = false) ∨
    ∃ out, fitter.Fits arrow source dest cell out

/-- Into a type without unions, a value is fitted by itself. -/
theorem fitWithin_column (steps : Nat) : ∀ (column others : List Slot) (source dest : DataType)
    (path : String) (top : Bool) (slot : Slot), dest.unionFree = true →
      fitter.fitWithin arrow steps column source dest path top none slot =
        fitter.fitWithin arrow steps others source dest path top none slot := by
  induction steps with
  | zero => intros; rfl
  | succ steps ih =>
      intro column others source dest path top slot free
      by_cases same : source = dest
      · subst same
        rw [fitWithin_same, fitWithin_same]
      · cases source with
        | union name type rest =>
            have other : dest.isUnion = false := by
              cases dest with
              | union name type rest => cases free
              | _ => rfl
            rw [fitWithin_unionTo other, fitWithin_unionTo other]
            unfold Fitter.unionTo
            split
            · split
              · exact ih _ _ _ dest _ false _ free
              · rfl
            · rfl
        | plain own =>
            cases dest with
            | union name type rest => cases free
            | plain dest => rw [fitWithin_plain rfl same, fitWithin_plain rfl same]
            | struct fields => rw [fitWithin_nested rfl rfl, fitWithin_nested rfl rfl]
            | list kind item nullable => rw [fitWithin_nested rfl rfl, fitWithin_nested rfl rfl]
            | map key value nullable => rw [fitWithin_nested rfl rfl, fitWithin_nested rfl rfl]
        | struct fields =>
            cases dest with
            | union name type rest => cases free
            | struct target =>
                have differ : fields ≠ target := fun eq => same (congrArg _ eq)
                rw [fitWithin_struct differ, fitWithin_struct differ]
                have each : target.toList.map (Fitter.field (fitter.fitWithin arrow steps) column
                    fields.toList path none slot) = target.toList.map (Fitter.field
                      (fitter.fitWithin arrow steps) others fields.toList path none slot) := by
                  apply List.map_congr_left
                  intro field among
                  obtain ⟨place, stands⟩ := List.getElem?_of_mem among
                  unfold Fitter.field
                  dsimp only
                  split
                  · rw [ih _ _ _ field.type _ false _ (Fields.unionFree_get free stands)]
                  · rfl
                unfold structs
                rw [each]
            | _ => simp only [fitWithin]
        | list kind item held =>
            cases dest with
            | union name type rest => cases free
            | list intoKind target nullable =>
                cases intoKind with
                | list =>
                    rw [fitWithin_list same, fitWithin_list same]
                    unfold Fitter.list
                    have each := fun element => ih (column.flatMap elementSlots)
                      (others.flatMap elementSlots) item target s!"{path}[]" false element free
                    simp only [Option.map_none, each]
                | _ => simp only [fitWithin]
            | _ => simp only [fitWithin]
        | map fromKey fromValue held =>
            cases dest with
            | union name type rest => cases free
            | map key value nullable =>
                obtain ⟨freeKey, freeValue⟩ := Bool.and_eq_true_iff.mp free
                rw [fitWithin_map same, fitWithin_map same]
                unfold Fitter.map
                have keys := fun key' => ih (column.flatMap keySlots) (others.flatMap keySlots)
                  fromKey key (path ++ "\x7bkey\x7d") false key' freeKey
                have values := fun value' => ih (column.flatMap valueSlots)
                  (others.flatMap valueSlots) fromValue value (path ++ "\x7b\x7d") false value'
                  freeValue
                simp only [Option.map_none, keys, values]
            | _ => simp only [fitWithin]

end Fitter

end Ddi.Kafka.Conform
