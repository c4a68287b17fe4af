/-
What fitting means: the relation between a decoded value and the value that it is kept as, with
neither the columns nor the reasons of the code.
-/

import Ddi.Kafka.ConformArms
import Ddi.Kafka.ConformPaths

namespace Ddi.Kafka.Conform

namespace Fitter

variable (arrow : Arrow) (fitter : Fitter)

/-- Rows go into the union that the SQL runs over, not into the target. -/
def intoUnion : Bool :=
  match fitter.into with
  | .union _ _ => true
  | .target => false

/-- A value that goes into the other type through its text. -/
def parses : DataType → PlainType → Bool
  | .plain own, dest => (own.isFloat || own.isText) && (decimalShape dest).isSome
  | _, _ => false

/-- A value kept by a cast. Into the union it casts back to what it was, and into the target no
decimal loses a fraction. -/
inductive Casts (source : DataType) (dest : PlainType) : Cell → Cell → Prop
  | null {cell : Cell} (null : cell.isNull = true) : Casts source dest cell (.plain none)
  | plain {own : PlainType} {value out : Value} (type : source = .plain own)
      (can : arrow.can source dest = true) (casts : arrow.cast own dest value = some out)
      (back : fitter.intoUnion = true → arrow.cast dest own out = some value)
      (whole : fitter.intoUnion = false →
        decimalFractionDropped source dest (.plain (some value)) = false) :
      Casts source dest (.plain (some value)) (.plain (some out))
  | rendered {cell : Cell} {out : Value} {same : Bool} {node : Node}
      (holds : nodeAt source cell = some node) (nested : source.isNested = true)
      (can : arrow.can source dest = true)
      (renders : arrow.render source dest cell = some (out, same))
      (back : fitter.intoUnion = true → same = true) :
      Casts source dest cell (.plain (some out))

/-- What a value of one type is kept as in another. A null is kept as a null, or as the word of
kafka-delta-ingest's; fields go by name, elements and entries by place. -/
inductive Fits : DataType → DataType → Cell → Cell → Prop
  | same (type : DataType) (cell : Cell) : Fits type type cell cell
  | null {source dest : DataType} {cell out : Cell} (null : cell.isNull = true)
      (stays : out.isNull = true) : Fits source dest cell out
  | word {source : DataType} {cell : Cell} (writes : fitter.text.nullText = true)
      (null : cell.isNull = true) :
      Fits source (.plain .utf8) cell (.plain (some (.text "null")))
  | cast {source : DataType} {dest : PlainType} {cell out : Cell}
      (other : source.isUnion = false) (unparsed : parses source dest = false)
      (casts : fitter.Casts arrow source dest cell out) : Fits source (.plain dest) cell out
  | parsed {own dest : PlainType} {value : Value} {text : String} {unscaled : Int}
      (parsed : parses (.plain own) dest = true) (written : textOf arrow dest value = some text)
      (fewer : countedDigits ((decimalShape dest).elim 0 Prod.snd) text ≤ 255)
      (reads : arrow.parseDecimal dest text = some unscaled)
      (back : fitter.intoUnion = true → arrow.cast dest own (.decimal unscaled) = some value) :
      Fits (.plain own) (.plain dest) (.plain (some value)) (.plain (some (.decimal unscaled)))
  | text {source : DataType} {cell : Cell} {shape : Option Shape} {text : String}
      (writes : fitter.text.compat = true)
      (written : Conform.text arrow source cell shape = .ok text) :
      Fits source (.plain .utf8) cell (.plain (some (.text text)))
  | held {name : String} {type : DataType} {rest : Fields} {branch : Nat} {field : Field}
      {dest : DataType} {cell out : Cell}
      (stands : (branches name type rest)[branch]? = some field)
      (fits : Fits field.type dest cell out) :
      Fits (.union name type rest) dest (.union branch cell) out
  | into {name : String} {type : DataType} {rest : Fields} {branch : Nat} {field : Field}
      {source : DataType} {cell out : Cell}
      (stands : (branches name type rest)[branch]? = some field)
      (fits : Fits source field.type cell out) :
      Fits source (.union name type rest) cell (.union branch out)
  | intoCast {name : String} {type : DataType} {rest : Fields} {branch : Nat} {field : Field}
      {source : DataType} {dest : PlainType} {cell out : Cell}
      (stands : (branches name type rest)[branch]? = some field)
      (plain : field.type = .plain dest) (casts : fitter.Casts arrow source dest cell out) :
      Fits source (.union name type rest) cell (.union branch out)
  | struct {source dest : Fields} {children out : List Cell}
      (length : out.length = dest.toList.length)
      (fits : ∀ (place : Nat) (field : Field) (ownPlace : Nat) (own : Field),
        dest.toList[place]? = some field →
          fieldNamed field.name source.toList = some (ownPlace, own) →
            Fits own.type field.type (children.getD ownPlace (.plain none))
              (out.getD place (.plain none)))
      (missing : ∀ (place : Nat) (field : Field), dest.toList[place]? = some field →
        fieldNamed field.name source.toList = none →
          field.nullable = true ∧ (out.getD place (.plain none)).isNull = true)
      (present : ∀ (place : Nat) (field : Field), dest.toList[place]? = some field →
        field.nullable = false → (out.getD place (.plain none)).isNull = false)
      (kept : fitter.intoUnion = true → ∀ (place : Nat) (own : Field),
        source.toList[place]? = some own → fieldNamed own.name dest.toList = none →
          (children.getD place (.plain none)).isNull = true) :
      Fits (.struct source) (.struct dest) (.struct true children) (.struct true out)
  | list {kind : ListKind} {source dest : DataType} {held nullable : Bool}
      {elements out : List Cell} (length : out.length = elements.length)
      (fits : ∀ (place : Nat) (element fitted : Cell), elements[place]? = some element →
        out[place]? = some fitted → Fits source dest element fitted)
      (present : nullable = false → ∀ fitted : Cell, fitted ∈ out → fitted.isNull = false) :
      Fits (.list kind source held) (.list .list dest nullable) (.list true elements)
        (.list true out)
  | map {fromKey fromValue key value : DataType} {held nullable : Bool}
      {entries out : List (Cell × Cell)} (places : List Nat) (length : out.length = places.length)
      (inside : ∀ place : Nat, place ∈ places → place < entries.length)
      (all : fitter.text.compat = false → places = List.range entries.length)
      (keys : ∀ (spot place : Nat) (entry fitted : Cell × Cell), places[spot]? = some place →
        entries[place]? = some entry → out[spot]? = some fitted →
          Fits fromKey key entry.1 fitted.1)
      (values : ∀ (spot place : Nat) (entry fitted : Cell × Cell), places[spot]? = some place →
        entries[place]? = some entry → out[spot]? = some fitted →
          Fits fromValue value entry.2 fitted.2)
      (presentKeys : ∀ fitted : Cell × Cell, fitted ∈ out → fitted.1.isNull = false)
      (present : nullable = false → ∀ fitted : Cell × Cell, fitted ∈ out → fitted.2.isNull = false) :
      Fits (.map fromKey fromValue held) (.map key value nullable) (.map true entries)
        (.map true out)

end Fitter

/-! ### Plain values -/

mutual

theorem heldBy_of_typed : ∀ (type : DataType) (cell : Cell), Typed type cell →
    ∃ node, heldBy type cell = some node
  | .plain _, _, _ => ⟨_, rfl⟩
  | .struct _, _, _ => ⟨_, rfl⟩
  | .list _ _ _, _, _ => ⟨_, rfl⟩
  | .map _ _ _, _, _ => ⟨_, rfl⟩
  | .union _ type rest, cell, typed => by
      simp only [Typed] at typed
      obtain ⟨branch, held, same, inside⟩ := typed
      subst same
      cases branch with
      | zero => exact heldBy_of_typed type held inside
      | succ branch => exact heldByBranch_of_typed rest branch held inside

theorem heldByBranch_of_typed : ∀ (fields : Fields) (branch : Nat) (held : Cell),
    TypedBranch fields branch held → ∃ node, heldByBranch fields branch held = some node
  | .nil, _, _, typed => by cases typed
  | .cons _ type _ _, 0, held, typed => heldBy_of_typed type held typed
  | .cons _ _ _ rest, branch + 1, held, typed => heldByBranch_of_typed rest branch held typed

end

theorem nodeAt_of_typed {type : DataType} {cell : Cell} (typed : Typed type cell)
    (valid : cell.isNull = false) : ∃ node, nodeAt type cell = some node := by
  obtain ⟨node, holds⟩ := heldBy_of_typed type cell typed
  refine ⟨node, ?_⟩
  unfold nodeAt
  rw [holds, Option.filter_some]
  have own : node.cell.valid = true := by
    unfold Cell.valid
    rw [heldBy_isNull type cell node holds, valid]
    rfl
  rw [if_pos own]

theorem nodeAt_valid {type : DataType} {cell : Cell} {node : Node}
    (holds : nodeAt type cell = some node) : cell.isNull = false := by
  obtain ⟨held, kept⟩ := Option.mem_filter_iff.mp holds
  rw [← heldBy_isNull type cell node held]
  unfold Cell.valid at kept
  cases null : node.cell.isNull with
  | true =>
      rw [null] at kept
      cases kept
  | false => rfl

namespace Fitter

variable {arrow : Arrow} {fitter : Fitter}

theorem unchanged_none {path : String} {source dest : DataType} {same : Bool}
    (clean : fitter.unchanged arrow path source dest same = none)
    (union : fitter.intoUnion = true) : same = true := by
  unfold unchanged at clean
  unfold intoUnion at union
  cases into : fitter.into with
  | target =>
      rw [into] at union
      cases union
  | union writer newest =>
      rw [into] at clean
      cases same with
      | true => rfl
      | false => cases clean

/-- A conversion of a value that is not null. -/
theorem convert_some {source : DataType} {dest : PlainType} {cell : Cell} {out : Value}
    {same : Bool} (converts : convert arrow source dest cell = some (out, same)) :
    arrow.can source dest = true ∧ ((∃ own value, source = .plain own ∧
      cell = .plain (some value) ∧ arrow.cast own dest value = some out ∧
        same = (arrow.cast dest own out == some value)) ∨
      source.isNested = true ∧ arrow.render source dest cell = some (out, same)) := by
  unfold convert at converts
  by_cases can : arrow.can source dest = true
  · rw [if_pos can] at converts
    refine ⟨can, ?_⟩
    cases source with
    | plain own =>
        cases cell with
        | plain value =>
            cases value with
            | none => cases converts
            | some value =>
                obtain ⟨found, casts, same'⟩ := Option.map_eq_some_iff.mp converts
                cases same'
                exact .inl ⟨own, value, rfl, rfl, casts, rfl⟩
        | struct valid children => cases converts
        | list valid elements => cases converts
        | map valid entries => cases converts
        | union branch held => cases converts
    | struct fields => exact .inr ⟨rfl, converts⟩
    | list kind item nullable => exact .inr ⟨rfl, converts⟩
    | map key value nullable => exact .inr ⟨rfl, converts⟩
    | union name type rest => exact .inr ⟨rfl, converts⟩
  · rw [if_neg can] at converts
    cases converts

theorem cast_casts {source : DataType} {dest : PlainType} {path : String} {slot : Slot}
    (typed : Typed source slot.cell)
    (clean : (fitter.cast arrow source dest path slot).bad = none) :
    fitter.Casts arrow source dest slot.cell (fitter.cast arrow source dest path slot).cell := by
  unfold cast at clean ⊢
  cases null : slot.cell.isNull with
  | true => exact .null null
  | false =>
      rw [null] at clean
      cases converts : convert arrow source dest slot.cell with
      | none =>
          rw [converts] at clean
          cases clean
      | some found =>
          obtain ⟨out, same⟩ := found
          rw [converts] at clean
          dsimp only [Bool.false_eq_true, if_false] at clean ⊢
          obtain ⟨unchanged, whole⟩ := Option.or_eq_none_iff.mp clean
          obtain ⟨can, plain | nested⟩ := convert_some converts
          · obtain ⟨own, value, own_eq, cell_eq, casts, same_eq⟩ := plain
            rw [cell_eq] at whole ⊢
            refine .plain own_eq can casts (fun union => ?_) fun target => ?_
            · have back := unchanged_none unchanged union
              rw [same_eq] at back
              exact beq_iff_eq.mp back
            · cases into : fitter.into with
              | union writer newest =>
                  unfold intoUnion at target
                  rw [into] at target
                  cases target
              | target =>
                  rw [into] at whole
                  cases drops : decimalFractionDropped source dest (.plain (some value)) with
                  | false => rfl
                  | true =>
                      rw [drops] at whole
                      cases whole
          · obtain ⟨node, holds⟩ := nodeAt_of_typed typed null
            exact .rendered holds nested.1 can nested.2 (unchanged_none unchanged)

/-- A cast that is kept makes a null of a null only. -/
theorem cast_isNull {source : DataType} {dest : PlainType} {path : String} {slot : Slot}
    (clean : (fitter.cast arrow source dest path slot).bad = none)
    (null : (fitter.cast arrow source dest path slot).cell.isNull = true) :
    slot.cell.isNull = true := by
  unfold cast at clean null
  cases own : slot.cell.isNull with
  | true => rfl
  | false =>
      rw [own] at clean null
      cases converts : convert arrow source dest slot.cell with
      | none =>
          rw [converts] at clean
          cases clean
      | some found =>
          rw [converts] at null
          cases null

theorem parseDecimal_fits {own dest : PlainType} {path : String} {slot : Slot}
    (parsed : parses (.plain own) dest = true) (typed : Typed (.plain own) slot.cell)
    (clean : (fitter.parseDecimal arrow own dest path slot).bad = none) :
    fitter.Fits arrow (.plain own) (.plain dest) slot.cell
      (fitter.parseDecimal arrow own dest path slot).cell := by
  unfold parseDecimal at clean ⊢
  obtain ⟨value, cell_eq, _null⟩ := typed
  rw [cell_eq] at clean ⊢
  cases value with
  | none => exact .null rfl rfl
  | some value =>
      dsimp only at clean ⊢
      cases read : (textOf arrow dest value).bind fun text =>
          if countedDigits ((decimalShape dest).elim 0 Prod.snd) text ≤ 255 then
            arrow.parseDecimal dest text
          else none with
      | none =>
          rw [read] at clean
          cases clean
      | some unscaled =>
          rw [read] at clean
          obtain ⟨text, written, reads⟩ := Option.bind_eq_some_iff.mp read
          by_cases fewer : countedDigits ((decimalShape dest).elim 0 Prod.snd) text ≤ 255
          · rw [if_pos fewer] at reads
            refine .parsed parsed written fewer reads fun union => ?_
            exact beq_iff_eq.mp (unchanged_none clean union)
          · rw [if_neg fewer] at reads
            cases reads

/-! ### Structs, lists and maps -/

theorem forceValid_valid {type : DataType} {cell : Cell} (valid : cell.isNull = false) :
    forceValid type cell = cell := by
  unfold forceValid
  split
  · rfl
  · rfl
  · rw [valid]
    rfl

theorem inField_clean {type : DataType} {nullable : Bool} {path : String} {fitted : Fitted}
    (clean : (inField type nullable path fitted).bad = none) :
    fitted.bad = none ∧ (nullable = false → fitted.cell.isNull = false) ∧
      (inField type nullable path fitted).cell = fitted.cell := by
  unfold inField at clean ⊢
  obtain ⟨own, present⟩ := Option.or_eq_none_iff.mp clean
  cases nullable with
  | true => exact ⟨own, fun same => (Bool.noConfusion same), rfl⟩
  | false =>
      cases null : fitted.cell.isNull with
      | true =>
          rw [null] at present
          cases present
      | false => exact ⟨own, fun _ => rfl, forceValid_valid null⟩

theorem findSome_bad {fitted : List Fitted} (clean : fitted.findSome? (·.bad) = none)
    {one : Fitted} (among : one ∈ fitted) : one.bad = none :=
  List.findSome?_eq_none_iff.mp clean one among

theorem getD_of_getElem {cells : List Cell} {place : Nat} {cell : Cell}
    (stands : cells[place]? = some cell) : cells.getD place (.plain none) = cell := by
  rw [List.getD_eq_getElem?_getD, stands]
  rfl

/-- What an inner step keeps, it keeps as what fits. -/
def Sound (arrow : Arrow) (fitter : Fitter) (inner : Inner) : Prop :=
  ∀ column source dest path kdi slot, Typed source slot.cell →
    (inner column source dest path false kdi slot).bad = none →
      fitter.Fits arrow source dest slot.cell
        (inner column source dest path false kdi slot).cell

variable {inner : Inner}

theorem lostField_none {source dest : List Field} {path : String} {cell : Cell}
    (clean : fitter.lostField source dest path cell = none) (union : fitter.intoUnion = true)
    {place : Nat} {own : Field} (stands : source[place]? = some own)
    (missing : fieldNamed own.name dest = none) : (cell.child place).isNull = true := by
  unfold lostField at clean
  unfold intoUnion at union
  cases into : fitter.into with
  | target =>
      rw [into] at union
      cases union
  | union writer newest =>
      rw [into] at clean
      have none := List.find?_eq_none.mp (Option.map_eq_none_iff.mp clean) (own, place)
        (List.mk_mem_zipIdx_iff_getElem?.mpr stands)
      dsimp only at none
      rw [missing] at none
      cases null : (cell.child place).isNull with
      | true => rfl
      | false =>
          unfold Cell.valid at none
          rw [null] at none
          exact (none rfl).elim

/-- A field that the rows lack is null, and one that they have goes by its name. -/
theorem field_clean {column : List Slot} {source : List Field} {path : String}
    {kdi : Option Bool} {slot : Slot} {dest : Field}
    (clean : (field inner column source path kdi slot dest).bad = none) :
    (fieldNamed dest.name source = none → dest.nullable = true ∧
      (field inner column source path kdi slot dest).cell.isNull = true) ∧
    (dest.nullable = false →
      (field inner column source path kdi slot dest).cell.isNull = false) ∧
    ∀ place own, fieldNamed dest.name source = some (place, own) →
      (inner (column.map (childSlot dest.name place)) own.type dest.type
        s!"{path}.{dest.name}" false kdi (childSlot dest.name place slot)).bad = none ∧
      (field inner column source path kdi slot dest).cell =
        (inner (column.map (childSlot dest.name place)) own.type dest.type
          s!"{path}.{dest.name}" false kdi (childSlot dest.name place slot)).cell := by
  unfold field at clean ⊢
  dsimp only at clean ⊢
  cases found : fieldNamed dest.name source with
  | none =>
      rw [found] at clean
      dsimp only at clean ⊢
      cases nullable : dest.nullable with
      | true =>
          refine ⟨fun _ => ⟨rfl, nullCell_isNull dest.type⟩, fun same => Bool.noConfusion same, ?_⟩
          intro place own same
          cases same
      | false =>
          rw [nullable] at clean
          cases clean
  | some entry =>
      obtain ⟨place, own⟩ := entry
      rw [found] at clean
      dsimp only at clean ⊢
      obtain ⟨fits, present, cell_eq⟩ := inField_clean clean
      refine ⟨?_, ?_, ?_⟩
      · intro same
        cases same
      · intro notNull
        rw [cell_eq]
        exact present notNull
      · intro other ownField same
        cases same
        exact ⟨fits, cell_eq⟩

theorem structs_fits (sound : Sound arrow fitter inner) {column : List Slot}
    {source dest : Fields} {path : String} {kdi : Option Bool} {slot : Slot}
    (typed : Typed (.struct source) slot.cell)
    (clean : (fitter.structs inner column source.toList dest.toList path kdi slot).bad = none) :
    fitter.Fits arrow (.struct source) (.struct dest) slot.cell
      (fitter.structs inner column source.toList dest.toList path kdi slot).cell := by
  have isStruct := typed
  simp only [Typed] at isStruct
  obtain ⟨valid, children, cell_eq, _typedChildren⟩ := isStruct
  unfold structs at clean ⊢
  cases valid with
  | false =>
      rw [cell_eq]
      exact .null rfl rfl
  | true =>
      have isValid : slot.cell.valid = true := by rw [cell_eq]; rfl
      rw [isValid] at clean ⊢
      obtain ⟨fields, lost⟩ := Option.or_eq_none_iff.mp clean
      have fieldClean : ∀ (place : Nat) (other : Field), dest.toList[place]? = some other →
          (field inner column source.toList path kdi slot other).bad = none ∧
            ((dest.toList.map (field inner column source.toList path kdi slot)).map
              (·.cell)).getD place (.plain none) =
                (field inner column source.toList path kdi slot other).cell := by
        intro place other stands
        constructor
        · exact findSome_bad fields (List.mem_map_of_mem (List.mem_of_getElem? stands))
        · apply getD_of_getElem
          rw [List.getElem?_map, List.getElem?_map, stands]
          rfl
      rw [cell_eq]
      apply Fits.struct
      · rw [List.length_map, List.length_map]
      · intro place other ownPlace own stands named
        obtain ⟨otherClean, same⟩ := fieldClean place other stands
        obtain ⟨fits, cell⟩ := (field_clean otherClean).2.2 ownPlace own named
        rw [same, cell]
        have childTyped : Typed own.type (slot.cell.child ownPlace) :=
          typed_child typed (fieldNamed_some named).1
        have fitted := sound _ own.type other.type _ kdi (childSlot other.name ownPlace slot)
          childTyped fits
        have child : slot.cell.child ownPlace = children.getD ownPlace (.plain none) := by
          rw [cell_eq]
          rfl
        rw [← child]
        exact fitted
      · intro place other stands missing
        obtain ⟨otherClean, same⟩ := fieldClean place other stands
        rw [same]
        exact (field_clean otherClean).1 missing
      · intro place other stands notNull
        obtain ⟨otherClean, same⟩ := fieldClean place other stands
        rw [same]
        exact (field_clean otherClean).2.1 notNull
      · intro union place own stands missing
        have null := lostField_none lost union stands missing
        rw [cell_eq] at null
        exact null

theorem list_fits (sound : Sound arrow fitter inner) {column : List Slot} {kind : ListKind}
    {source dest : DataType} {held nullable : Bool} {path : String} {kdi : Option Bool}
    {slot : Slot} (typed : Typed (.list kind source held) slot.cell)
    (clean : (list inner column source dest nullable path kdi slot).bad = none) :
    fitter.Fits arrow (.list kind source held) (.list .list dest nullable) slot.cell
      (list inner column source dest nullable path kdi slot).cell := by
  have isList := typed
  simp only [Typed] at isList
  obtain ⟨valid, elements, cell_eq, _typedElements⟩ := isList
  unfold list at clean ⊢
  cases valid with
  | false =>
      rw [cell_eq]
      exact .null rfl rfl
  | true =>
      have isValid : slot.cell.valid = true := by rw [cell_eq]; rfl
      have slots : elementSlots slot = elements.map fun cell =>
          { cell, stood := slot.stood.element } := by
        unfold elementSlots
        rw [isValid, cell_eq]
        rfl
      rw [isValid] at clean ⊢
      rw [slots] at clean ⊢
      dsimp only [if_true] at clean ⊢
      rw [List.map_map] at clean
      rw [cell_eq, List.map_map, List.map_map]
      apply Fits.list
      · rw [List.length_map]
      · intro place element fitted stands out
        rw [List.getElem?_map, stands] at out
        cases out
        have among := List.mem_of_getElem? stands
        obtain ⟨fits, _present, cell⟩ := inField_clean
          (findSome_bad clean (List.mem_map_of_mem among))
        dsimp only [Function.comp_apply]
        rw [cell]
        exact sound _ source dest _ _ { cell := element, stood := slot.stood.element }
          (_typedElements element among) fits
      · intro notNull fitted among
        obtain ⟨element, inside, same⟩ := List.mem_map.mp among
        obtain ⟨_fits, present, cell⟩ := inField_clean
          (findSome_bad clean (List.mem_map_of_mem inside))
        rw [← same]
        dsimp only [Function.comp_apply]
        rw [cell]
        exact present notNull

theorem mem_kdiOrder {α : Type} {entries : List (String × α)} {value : α}
    (member : value ∈ kdiOrder entries) : value ∈ entries.map Prod.snd := by
  obtain ⟨entry, among, same⟩ := List.mem_map.mp member
  rw [← same]
  exact List.mem_map_of_mem (Ordered.mem_collect among)

/-- The places that the values of one list have in another. -/
theorem exists_places {α : Type} {values entries : List α}
    (inside : ∀ value, value ∈ values → value ∈ entries) :
    ∃ places : List Nat, places.length = values.length ∧
      ∀ (spot place : Nat), places[spot]? = some place →
        place < entries.length ∧ values[spot]? = entries[place]? := by
  induction values with
  | nil =>
      refine ⟨[], rfl, ?_⟩
      intro spot place stands
      cases stands
  | cons head rest ih =>
      obtain ⟨places, length, stand⟩ := ih fun value later =>
        inside value (List.mem_cons_of_mem _ later)
      obtain ⟨place, stands⟩ := List.getElem?_of_mem (inside head List.mem_cons_self)
      refine ⟨place :: places, congrArg Nat.succ length, ?_⟩
      intro spot other there
      cases spot with
      | zero =>
          cases there
          exact ⟨(List.getElem?_eq_some_iff.mp stands).1, stands.symm⟩
      | succ spot => exact stand spot other there

/-- Where the entries that are kept stood: every one in place, unless kafka-delta-ingest's order
is written. -/
theorem ordered_places (toKey : DataType) (kdi : Option Bool) (entries : List (Fitted × Fitted)) :
    ∃ places : List Nat, places.length = (fitter.ordered toKey kdi entries).length ∧
      (fitter.text.compat = false → places = List.range entries.length) ∧
      ∀ (spot place : Nat), places[spot]? = some place →
        place < entries.length ∧ (fitter.ordered toKey kdi entries)[spot]? = entries[place]? := by
  by_cases orders : (kdi.isSome && fitter.text.compat && toKey == .plain .utf8) = true
  · obtain ⟨places, length, stand⟩ :=
      @exists_places _ (fitter.ordered toKey kdi entries) entries (by
      intro entry member
      unfold ordered at member
      rw [if_pos orders] at member
      have among := mem_kdiOrder member
      rw [List.map_map] at among
      obtain ⟨own, inside, same⟩ := List.mem_map.mp among
      rw [← same]
      exact inside)
    refine ⟨places, length, ?_, stand⟩
    intro plain
    rw [plain] at orders
    simp at orders
  · have same : fitter.ordered toKey kdi entries = entries := by
      unfold ordered
      rw [if_neg orders]
    rw [same]
    refine ⟨List.range entries.length, List.length_range, fun _ => rfl, ?_⟩
    intro spot place stands
    obtain ⟨within, eq⟩ := List.getElem?_eq_some_iff.mp stands
    rw [List.getElem_range] at eq
    rw [List.length_range] at within
    rw [← eq]
    exact ⟨within, rfl⟩

/-- What the fitted entries of a map make, put in order or not. -/
theorem entries_fit {fromKey fromValue key value : DataType} {held nullable : Bool}
    {kdi : Option Bool} {entries : List (Cell × Cell)} {fit : Cell × Cell → Fitted × Fitted}
    (keys : ∀ entry, entry ∈ entries → fitter.Fits arrow fromKey key entry.1 (fit entry).1.cell ∧
      (fit entry).1.cell.isNull = false)
    (values : ∀ entry, entry ∈ entries →
      fitter.Fits arrow fromValue value entry.2 (fit entry).2.cell ∧
        (nullable = false → (fit entry).2.cell.isNull = false)) :
    fitter.Fits arrow (.map fromKey fromValue held) (.map key value nullable) (.map true entries)
      (.map true ((fitter.ordered key kdi (entries.map fit)).map fun entry =>
        (entry.1.cell, entry.2.cell))) := by
  obtain ⟨places, length, all, stand⟩ := fitter.ordered_places key kdi (entries.map fit)
  rw [List.length_map] at all stand
  have fitted : ∀ (spot place : Nat) (entry out : Cell × Cell), places[spot]? = some place →
      entries[place]? = some entry →
        ((fitter.ordered key kdi (entries.map fit)).map fun entry =>
          (entry.1.cell, entry.2.cell))[spot]? = some out →
            out = ((fit entry).1.cell, (fit entry).2.cell) := by
    intro spot place entry out there stands found
    rw [List.getElem?_map, (stand spot place there).2, List.getElem?_map, stands] at found
    cases found
    rfl
  have member : ∀ out, out ∈ (fitter.ordered key kdi (entries.map fit)).map (fun entry =>
      (entry.1.cell, entry.2.cell)) →
        ∃ entry, entry ∈ entries ∧ out = ((fit entry).1.cell, (fit entry).2.cell) := by
    intro out among
    obtain ⟨spot, found⟩ := List.getElem?_of_mem among
    have within := (List.getElem?_eq_some_iff.mp found).1
    rw [List.length_map, ← length] at within
    obtain ⟨inside, _same⟩ := stand spot _ (List.getElem?_eq_getElem within)
    exact ⟨entries[places[spot]], List.getElem_mem inside,
      fitted spot _ _ out (List.getElem?_eq_getElem within) (List.getElem?_eq_getElem inside) found⟩
  apply Fits.map places
  · rw [List.length_map, length]
  · intro place among
    obtain ⟨spot, there⟩ := List.getElem?_of_mem among
    exact (stand spot place there).1
  · exact all
  · intro spot place entry out there stands found
    rw [fitted spot place entry out there stands found]
    exact (keys entry (List.mem_of_getElem? stands)).1
  · intro spot place entry out there stands found
    rw [fitted spot place entry out there stands found]
    exact (values entry (List.mem_of_getElem? stands)).1
  · intro out among
    obtain ⟨entry, inside, same⟩ := member out among
    rw [same]
    exact (keys entry inside).2
  · intro notNull out among
    obtain ⟨entry, inside, same⟩ := member out among
    rw [same]
    exact (values entry inside).2 notNull

theorem map_fits (sound : Sound arrow fitter inner) {column : List Slot}
    {fromKey fromValue key value : DataType} {held nullable : Bool} {path : String}
    {kdi : Option Bool} {slot : Slot} (typed : Typed (.map fromKey fromValue held) slot.cell)
    (clean : (fitter.map inner column fromKey fromValue key value nullable path kdi slot).bad =
      none) :
    fitter.Fits arrow (.map fromKey fromValue held) (.map key value nullable) slot.cell
      (fitter.map inner column fromKey fromValue key value nullable path kdi slot).cell := by
  have isMap := typed
  simp only [Typed] at isMap
  obtain ⟨valid, entries, cell_eq, typedEntries⟩ := isMap
  unfold map at clean ⊢
  cases valid with
  | false =>
      rw [cell_eq]
      exact .null rfl rfl
  | true =>
      have isValid : slot.cell.valid = true := by rw [cell_eq]; rfl
      have keys : keySlots slot = entries.map fun entry =>
          { cell := entry.1, stood := .absent } := by
        unfold keySlots
        rw [cell_eq]
        rfl
      have values : valueSlots slot = entries.map fun entry =>
          { cell := entry.2, stood := slot.stood.value } := by
        unfold valueSlots
        rw [isValid, cell_eq]
        rfl
      rw [isValid] at clean ⊢
      rw [keys, values] at clean ⊢
      dsimp only [if_true] at clean ⊢
      obtain ⟨keysClean, valuesClean⟩ := Option.or_eq_none_iff.mp clean
      rw [List.map_map] at keysClean valuesClean
      rw [List.map_map, List.map_map, List.zip_map', cell_eq]
      apply entries_fit
      · intro entry among
        obtain ⟨fits, present, cell⟩ := inField_clean
          (findSome_bad keysClean (List.mem_map_of_mem among))
        dsimp only [Function.comp_apply]
        rw [cell]
        exact ⟨sound _ fromKey key _ _ { cell := entry.1, stood := .absent }
          (typedEntries entry among).1 fits, present rfl⟩
      · intro entry among
        obtain ⟨fits, present, cell⟩ := inField_clean
          (findSome_bad valuesClean (List.mem_map_of_mem among))
        dsimp only [Function.comp_apply]
        rw [cell]
        exact ⟨sound _ fromValue value _ _ { cell := entry.2, stood := slot.stood.value }
          (typedEntries entry among).2 fits, present⟩

/-! ### Unions -/

theorem bestRecord_get {children fields : List Field} {branch : Nat} {field : Field}
    (best : bestRecord children fields = some (branch, field)) :
    fields[branch]? = some field := by
  obtain ⟨found, folded, same⟩ := Option.map_eq_some_iff.mp best
  rw [← List.mk_mem_zipIdx_iff_getElem?]
  have kept := @List.foldlRecOn (Option (Rank × Nat × Field)) (Field × Nat)
    (fun best => ∀ entry, best = some entry → (entry.2.2, entry.2.1) ∈ fields.zipIdx)
    fields.zipIdx _ none (fun _ same => by cases same) (by
      intro begun among head own entry chosen
      obtain ⟨next, place⟩ := head
      dsimp only at chosen
      split at chosen
      · split at chosen
        · exact among entry chosen
        · split at chosen
          · cases chosen
            exact own
          · split at chosen
            · cases chosen
              exact own
            · exact among entry chosen
      · exact among entry chosen) found folded
  rw [same] at kept
  exact kept

/-- The branch that Avro picks is one of the union's. -/
theorem resolvedBranch_get {source : DataType} {fields : List Field} {name : Option String}
    {branch : Nat} {field : Field}
    (resolved : resolvedBranch source fields name = some (branch, field)) :
    fields[branch]? = some field := by
  unfold resolvedBranch at resolved
  dsimp only at resolved
  rcases Option.or_eq_some_iff.mp resolved with earlier | ⟨_none, promoted⟩
  · rcases Option.or_eq_some_iff.mp earlier with earlier | ⟨_none, kind⟩
    · rcases Option.or_eq_some_iff.mp earlier with named | ⟨_none, same⟩
      · obtain ⟨own, _said, found⟩ := Option.bind_eq_some_iff.mp named
        exact (fieldNamed_some found).1
      · exact (findField_some same).1
    · split at kind
      · exact bestRecord_get kind
      · exact (findField_some kind).1
      · exact (findField_some kind).1
      · cases kind
  · exact (findField_some promoted).1

theorem castBranches_get {source : DataType} {fields : List Field} {branch : Nat}
    {dest : PlainType} (among : (branch, dest) ∈ castBranches arrow source fields) :
    ∃ field, fields[branch]? = some field ∧ field.type = .plain dest := by
  obtain ⟨⟨field, place⟩, inside, made⟩ := List.mem_filterMap.mp among
  dsimp only at made
  split at made
  · cases made
  · next own isPlain =>
    split at made
    · cases made
      exact ⟨field, List.mk_mem_zipIdx_iff_getElem?.mp inside, isPlain⟩
    · cases made
  · cases made

theorem refused_isNull {source dest : DataType} {path : String} {slot : Slot}
    (clean : (fitter.refused arrow source dest path slot).bad = none) :
    slot.cell.isNull = true := by
  unfold refused at clean
  cases null : slot.cell.isNull with
  | true => rfl
  | false =>
      rw [null] at clean
      cases clean

/-- What a value becomes in a branch of a union. -/
def Enters (arrow : Arrow) (fitter : Fitter) (source : DataType) (fields : List Field)
    (branch : Nat) (cell out : Cell) : Prop :=
  ∃ field, fields[branch]? = some field ∧
    (fitter.Fits arrow source field.type cell out ∨
      ∃ dest, field.type = .plain dest ∧ fitter.Casts arrow source dest cell out)

theorem Enters.fits {name : String} {type : DataType} {rest : Fields} {branch : Nat}
    {source : DataType} {cell out : Cell}
    (enters : Enters arrow fitter source (branches name type rest) branch cell out) :
    fitter.Fits arrow source (.union name type rest) cell (.union branch out) := by
  obtain ⟨field, stands, fits | ⟨dest, plain, casts⟩⟩ := enters
  · exact .into stands fits
  · exact .intoCast stands plain casts

/-- A column goes into one branch of the union, and what is kept fits there. -/
theorem branchFor_enters (sound : Sound arrow fitter inner) {column : List Slot}
    {source : DataType} {fields : List Field} {first : Field} {path : String}
    {name : Option String} {union : DataType} (begins : fields[0]? = some first) {slot : Slot}
    (typed : Typed source slot.cell)
    (clean : ((fitter.branchFor arrow inner column source fields first path name union).2
      slot).bad = none) :
    Enters arrow fitter source fields
      (fitter.branchFor arrow inner column source fields first path name union).1 slot.cell
      ((fitter.branchFor arrow inner column source fields first path name union).2 slot).cell := by
  unfold branchFor at clean ⊢
  cases resolved : resolvedBranch source fields name with
  | some found =>
      obtain ⟨branch, field⟩ := found
      rw [resolved] at clean
      exact ⟨field, resolvedBranch_get resolved,
        .inl (sound column source field.type path none slot typed clean)⟩
  | none =>
      rw [resolved] at clean
      dsimp only at clean ⊢
      cases chosen : ((castBranches arrow source fields).find? fun candidate =>
          column.all fun slot =>
            (fitter.cast arrow source candidate.2 path slot).bad.isNone).or
              (castBranches arrow source fields).head? with
      | some candidate =>
          obtain ⟨branch, dest⟩ := candidate
          rw [chosen] at clean
          have among : (branch, dest) ∈ castBranches arrow source fields := by
            rcases Option.or_eq_some_iff.mp chosen with whole | ⟨_none, head⟩
            · exact List.mem_of_find?_eq_some whole
            · exact List.mem_of_head? head
          obtain ⟨field, stands, plain⟩ := castBranches_get among
          exact ⟨field, stands, .inr ⟨dest, plain, cast_casts typed clean⟩⟩
      | none =>
          rw [chosen] at clean
          dsimp only at clean ⊢
          cases nulls : nullBranch fields with
          | some found =>
              obtain ⟨branch, field⟩ := found
              exact ⟨field, (findField_some nulls).1,
                .inl (.null (refused_isNull clean) (nullCell_isNull field.type))⟩
          | none =>
              exact ⟨first, begins,
                .inl (.null (refused_isNull clean) (nullCell_isNull first.type))⟩

theorem wrapInUnion_fits (sound : Sound arrow fitter inner) {column : List Slot}
    {source : DataType} {name : String} {type : DataType} {rest : Fields} {path : String}
    {slot : Slot} (typed : Typed source slot.cell)
    (clean : (fitter.wrapInUnion arrow inner column source (.union name type rest)
      (branches name type rest) { name, type, nullable := true } path slot).bad = none) :
    fitter.Fits arrow source (.union name type rest) slot.cell
      (fitter.wrapInUnion arrow inner column source (.union name type rest)
        (branches name type rest) { name, type, nullable := true } path slot).cell := by
  unfold wrapInUnion at clean ⊢
  dsimp only at clean ⊢
  cases nulls : nullBranch (branches name type rest) with
  | none =>
      rw [nulls] at clean
      exact (branchFor_enters sound rfl typed clean).fits
  | some found =>
      obtain ⟨null, nullField⟩ := found
      rw [nulls] at clean
      dsimp only at clean ⊢
      split at clean
      · next isNull =>
        rw [if_pos isNull]
        exact .null (Bool.and_eq_true_iff.mp isNull).1 rfl
      · next other =>
        rw [if_neg other]
        exact (branchFor_enters sound rfl typed clean).fits

theorem unionTo_fits (sound : Sound arrow fitter inner) {column : List Slot} {name : String}
    {type : DataType} {rest : Fields} {dest : DataType} {path : String} {kdi : Option Bool}
    {slot : Slot} (typed : Typed (.union name type rest) slot.cell)
    (clean : (unionTo inner column (branches name type rest) dest path kdi slot).bad = none) :
    fitter.Fits arrow (.union name type rest) dest slot.cell
      (unionTo inner column (branches name type rest) dest path kdi slot).cell := by
  obtain ⟨branch, held, field, cell_eq, stands, typedHeld⟩ := typed_union typed
  unfold unionTo at clean ⊢
  rw [cell_eq] at clean ⊢
  dsimp only at clean ⊢
  rw [stands] at clean ⊢
  exact .held stands (sound _ field.type dest _ kdi
    { cell := held, stood := slot.stood.branch field.name } typedHeld clean)

theorem unionToUnion_fits (sound : Sound arrow fitter inner) {column : List Slot}
    {fromName : String} {fromType : DataType} {fromRest : Fields} {name : String}
    {type : DataType} {rest : Fields} {path : String} {slot : Slot}
    (typed : Typed (.union fromName fromType fromRest) slot.cell)
    (clean : (fitter.unionToUnion arrow inner column (branches fromName fromType fromRest)
      (.union name type rest) (branches name type rest) { name, type, nullable := true } path
      slot).bad = none) :
    fitter.Fits arrow (.union fromName fromType fromRest) (.union name type rest) slot.cell
      (fitter.unionToUnion arrow inner column (branches fromName fromType fromRest)
        (.union name type rest) (branches name type rest) { name, type, nullable := true } path
        slot).cell := by
  obtain ⟨branch, held, field, cell_eq, stands, typedHeld⟩ := typed_union typed
  unfold unionToUnion at clean ⊢
  rw [cell_eq] at clean ⊢
  dsimp only at clean ⊢
  rw [stands] at clean ⊢
  dsimp only at clean ⊢
  apply Fits.held stands
  apply Enters.fits
  exact @branchFor_enters arrow fitter inner sound _ field.type _ _ _ _ _ rfl
    { cell := held, stood := slot.stood.branch field.name } typedHeld clean

/-! ### Any type into any type -/

/-- What is kept fits, or is left for the coercer as it is. -/
def Left (top : Bool) (source dest : DataType) (cell out : Cell) : Prop :=
  (top = true ∧ source.isUnion = false ∧ dest.isNested = false) ∧ out = cell

theorem withNullWord_fits {source : DataType} {reach : Bool} {slot : Slot} {fitted : Fitted}
    (fits : fitter.Fits arrow source (.plain .utf8) slot.cell fitted.cell)
    (null : fitted.cell.isNull = true → fitted.bad = none → slot.cell.isNull = true) :
    fitter.Fits arrow source (.plain .utf8) slot.cell
      (fitter.withNullWord reach slot fitted).cell := by
  unfold withNullWord
  split
  · next words =>
    obtain ⟨⟨isNull, word⟩, clean⟩ := Bool.and_eq_true_iff.mp words |>.imp_left
      Bool.and_eq_true_iff.mp
    unfold nullWord at word
    have writes := (Bool.and_eq_true_iff.mp (Bool.and_eq_true_iff.mp word).1).1
    exact .word writes (null isNull (Option.isNone_iff_eq_none.mp clean))
  · exact fits

theorem withNullWord_bad {reach : Bool} {slot : Slot} {fitted : Fitted} :
    (fitter.withNullWord reach slot fitted).bad = fitted.bad := by
  unfold withNullWord
  split
  · rfl
  · rfl

theorem kdiText_fits {column : List Slot} {source : DataType} {path : String} {top reach : Bool}
    {slot : Slot} (other : source.isUnion = false) (typed : Typed source slot.cell)
    (clean : (fitter.kdiText arrow column source path top reach slot).bad = none) :
    fitter.Fits arrow source (.plain .utf8) slot.cell
        (fitter.kdiText arrow column source path top reach slot).cell ∨
      Left top source (.plain .utf8) slot.cell
        (fitter.kdiText arrow column source path top reach slot).cell := by
  unfold kdiText at clean ⊢
  dsimp only at clean ⊢
  split at clean
  · next asItIs =>
    rw [if_pos asItIs]
    split at clean
    · next utf8 =>
      rw [if_pos utf8, utf8]
      exact .inl (withNullWord_fits (.same _ _) fun null _clean => null)
    · next cast =>
      rw [if_neg cast]
      split at clean
      · next stays =>
        rw [if_pos stays]
        exact .inr ⟨⟨(Bool.and_eq_true_iff.mp stays).1, other, rfl⟩, rfl⟩
      · next casts =>
        rw [if_neg casts]
        rw [withNullWord_bad] at clean
        have casts := cast_casts typed clean
        have unparsed : parses source .utf8 = false := by
          cases source with
          | plain own => exact Bool.and_false _
          | _ => rfl
        exact .inl (withNullWord_fits (.cast other unparsed casts) fun null clean =>
          cast_isNull clean null)
  · next written =>
    rw [if_neg written]
    left
    cases null : slot.cell.isNull with
    | true =>
        rw [if_pos rfl]
        cases word : fitter.nullWord reach slot with
        | true =>
            unfold nullWord at word
            have writes := (Bool.and_eq_true_iff.mp (Bool.and_eq_true_iff.mp word).1).1
            exact .word writes null
        | false => exact .null null rfl
    | false =>
        rw [null] at clean
        rw [if_neg Bool.false_ne_true] at clean ⊢
        have compat : fitter.text.compat = true := by
          cases own : fitter.text.compat with
          | true => rfl
          | false =>
              rw [own] at written
              exact (written (Bool.or_true _)).elim
        cases made : Conform.text arrow source slot.cell slot.stood.shape with
        | ok text => exact .text compat made
        | error why =>
            rw [made] at clean
            cases clean

theorem plain_fits {source : DataType} {dest : PlainType} {path : String} {top : Bool}
    {slot : Slot} (other : source.isUnion = false) (typed : Typed source slot.cell)
    (clean : (fitter.plain arrow source dest path top slot).bad = none) :
    fitter.Fits arrow source (.plain dest) slot.cell
        (fitter.plain arrow source dest path top slot).cell ∨
      Left top source (.plain dest) slot.cell (fitter.plain arrow source dest path top slot).cell
    := by
  unfold plain at clean ⊢
  split at clean
  · left
    obtain ⟨value, cell_eq, null⟩ := typed
    apply Fits.null
    · rw [cell_eq, null rfl]
      rfl
    · rfl
  · next own notNull =>
    split at clean
    · next parsed =>
      rw [if_pos parsed]
      exact .inl (parseDecimal_fits parsed typed clean)
    · next unparsed =>
      rw [if_neg unparsed]
      cases top with
      | true => exact .inr ⟨⟨rfl, other, rfl⟩, rfl⟩
      | false => exact .inl (.cast other (Bool.eq_false_iff.mpr unparsed) (cast_casts typed clean))
  · next notNull notPlain =>
    cases top with
    | true => exact .inr ⟨⟨rfl, other, rfl⟩, rfl⟩
    | false =>
        have unparsed : parses source dest = false := by
          cases source with
          | plain own => exact (notPlain own rfl).elim
          | _ => rfl
        exact .inl (.cast other unparsed (cast_casts typed clean))

theorem fitWithin_fits (steps : Nat) : ∀ (column : List Slot) (source dest : DataType)
    (path : String) (top : Bool) (kdi : Option Bool) (slot : Slot), Typed source slot.cell →
      (fitter.fitWithin arrow steps column source dest path top kdi slot).bad = none →
        fitter.Fits arrow source dest slot.cell
            (fitter.fitWithin arrow steps column source dest path top kdi slot).cell ∨
          Left top source dest slot.cell
            (fitter.fitWithin arrow steps column source dest path top kdi slot).cell := by
  induction steps with
  | zero =>
      intro column source dest path top kdi slot _typed clean
      cases clean
  | succ steps ih =>
      intro column source dest path top kdi slot typed clean
      have sound : Sound arrow fitter (fitter.fitWithin arrow steps) := by
        intro column source dest path kdi slot typed clean
        rcases ih column source dest path false kdi slot typed clean with fits | left
        · exact fits
        · cases left.1.1
      have arm := fitWithin_arm arrow fitter steps column source dest path top kdi slot
      generalize fitter.fitWithin arrow (steps + 1) column source dest path top kdi slot = fitted
        at arm clean ⊢
      cases arm with
      | equal type kdi idle => exact .inl (.same _ _)
      | unions => exact .inl (unionToUnion_fits sound typed clean)
      | unionTo other => exact .inl (unionTo_fits sound typed clean)
      | wrap other => exact .inl (wrapInUnion_fits sound typed clean)
      | text source reach other => exact kdiText_fits other typed clean
      | plain source dest kdi other untexted => exact plain_fits other typed clean
      | null dest kdi nested other =>
          left
          obtain ⟨value, cell_eq, null⟩ := typed
          apply Fits.null
          · rw [cell_eq, null rfl]
            rfl
          · exact nullCell_isNull dest
      | structs source dest => exact .inl (structs_fits sound typed clean)
      | list kind source held dest nullable => exact .inl (list_fits sound typed clean)
      | map fromKey fromValue held key value nullable => exact .inl (map_fits sound typed clean)
      | refused source dest kdi nested union valued struct list map =>
          exact .inl (.null (refused_isNull clean) (nullCell_isNull dest))

end Fitter

end Ddi.Kafka.Conform
