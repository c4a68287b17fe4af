/-
What stands at a path of a value: through the fields of records, the elements of lists, the
entries of maps and the branch that a union holds.
-/

import Ddi.Kafka.ArrowTypes

namespace Ddi.Kafka.Conform

/-- A step from a value to one inside it. -/
inductive Step
  | field (name : String)
  | element (place : Nat)
  | key (place : Nat)
  | value (place : Nat)
  deriving DecidableEq

/-- A value that is not null and no union, with its type. -/
structure Node where
  type : DataType
  cell : Cell

mutual

/-- A value is of a type. What an array holds at a null is of the type too. -/
def Typed : DataType → Cell → Prop
  | .plain type, cell => ∃ value, cell = .plain value ∧ (type = .null → value = none)
  | .struct fields, cell => ∃ valid children, cell = .struct valid children ∧
      TypedFields fields children
  | .list _ item _, cell => ∃ valid elements, cell = .list valid elements ∧
      ∀ element ∈ elements, Typed item element
  | .map key value _, cell => ∃ valid entries, cell = .map valid entries ∧
      ∀ entry ∈ entries, Typed key entry.1 ∧ Typed value entry.2
  | .union _ type rest, cell => ∃ branch held, cell = .union branch held ∧
      match branch with
      | 0 => Typed type held
      | branch + 1 => TypedBranch rest branch held

def TypedFields : Fields → List Cell → Prop
  | .nil, children => children = []
  | .cons _ type _ rest, children => ∃ child others, children = child :: others ∧
      Typed type child ∧ TypedFields rest others

def TypedBranch : Fields → Nat → Cell → Prop
  | .nil, _, _ => False
  | .cons _ type _ rest, branch, held =>
      match branch with
      | 0 => Typed type held
      | branch + 1 => TypedBranch rest branch held

end

mutual

/-- What a value is once every union on the way is its held branch. -/
def heldBy : DataType → Cell → Option Node
  | .union _ type rest, cell =>
      match cell with
      | .union 0 held => heldBy type held
      | .union (branch + 1) held => heldByBranch rest branch held
      | _ => none
  | type, cell => some { type, cell }

def heldByBranch : Fields → Nat → Cell → Option Node
  | .nil, _, _ => none
  | .cons _ type _ rest, branch, held =>
      match branch with
      | 0 => heldBy type held
      | branch + 1 => heldByBranch rest branch held

end

def nodeAt (type : DataType) (cell : Cell) : Option Node :=
  (heldBy type cell).filter fun node => node.cell.valid

namespace Node

/-- The value that a step leads to, null or not. -/
def inner (node : Node) : Step → Option Node
  | .field name =>
      match node.type with
      | .struct fields => (fieldNamed name fields.toList).map fun found =>
          { type := found.2.type, cell := node.cell.child found.1 }
      | _ => none
  | .element place =>
      match node.type with
      | .list _ item _ => node.cell.elements[place]?.map fun cell => { type := item, cell }
      | _ => none
  | .key place =>
      match node.type with
      | .map key _ _ => node.cell.entries[place]?.map fun entry => { type := key, cell := entry.1 }
      | _ => none
  | .value place =>
      match node.type with
      | .map _ value _ =>
          node.cell.entries[place]?.map fun entry => { type := value, cell := entry.2 }
      | _ => none

end Node

/-- What stands at a path, where no value on the way is null or missing. -/
def look (type : DataType) (cell : Cell) : List Step → Option Node
  | [] => nodeAt type cell
  | step :: way => (nodeAt type cell).bind fun node =>
      (node.inner step).bind fun inner => look inner.type inner.cell way

/-! ### Fields and branches by their place -/

theorem findField_some {has : Field → Bool} {fields : List Field} {place : Nat} {field : Field}
    (found : findField has fields = some (place, field)) :
    fields[place]? = some field ∧ has field = true := by
  induction fields generalizing place with
  | nil => cases found
  | cons own rest inductionHypothesis =>
      unfold findField at found
      split at found
      · next holds =>
        cases found
        exact ⟨rfl, holds⟩
      · obtain ⟨⟨before, other⟩, inRest, same⟩ := Option.map_eq_some_iff.mp found
        cases same
        exact inductionHypothesis inRest

theorem findField_none {has : Field → Bool} {fields : List Field}
    (missing : findField has fields = none) {field : Field} (inside : field ∈ fields) :
    has field = false := by
  induction fields with
  | nil => cases inside
  | cons own rest inductionHypothesis =>
      unfold findField at missing
      split at missing
      · cases missing
      · next fails =>
        cases inside with
        | head => simpa using fails
        | tail _ later => exact inductionHypothesis (Option.map_eq_none_iff.mp missing) later

theorem fieldNamed_some {name : String} {fields : List Field} {place : Nat} {field : Field}
    (found : fieldNamed name fields = some (place, field)) :
    fields[place]? = some field ∧ field.name = name := by
  obtain ⟨stands, same⟩ := findField_some found
  exact ⟨stands, by simpa using same⟩

theorem typedBranch_get {fields : Fields} {branch : Nat} {held : Cell}
    (typed : TypedBranch fields branch held) :
    ∃ field, fields.toList[branch]? = some field ∧ Typed field.type held := by
  induction fields generalizing branch with
  | nil => cases typed
  | cons name type nullable rest inductionHypothesis =>
      cases branch with
      | zero => exact ⟨_, rfl, typed⟩
      | succ branch => exact inductionHypothesis typed

/-- A union's value is of the branch of its number. -/
theorem typed_union {name : String} {type : DataType} {rest : Fields} {cell : Cell}
    (typed : Typed (.union name type rest) cell) :
    ∃ branch held field, cell = .union branch held ∧
      (branches name type rest)[branch]? = some field ∧ Typed field.type held := by
  simp only [Typed] at typed
  obtain ⟨branch, held, same, inside⟩ := typed
  cases branch with
  | zero => exact ⟨0, held, _, same, rfl, inside⟩
  | succ branch =>
      obtain ⟨field, stands, typedHeld⟩ := typedBranch_get inside
      exact ⟨branch + 1, held, field, same, stands, typedHeld⟩

theorem typedFields_get {fields : Fields} {children : List Cell} {place : Nat} {field : Field}
    (typed : TypedFields fields children) (stands : fields.toList[place]? = some field) :
    ∃ child, children[place]? = some child ∧ Typed field.type child := by
  induction fields generalizing children place with
  | nil => cases stands
  | cons name type nullable rest inductionHypothesis =>
      simp only [TypedFields] at typed
      obtain ⟨first, others, same, typedFirst, typedOthers⟩ := typed
      cases same
      cases place with
      | zero =>
          cases Option.some.inj stands
          exact ⟨first, rfl, typedFirst⟩
      | succ place =>
          obtain ⟨child, there, typedChild⟩ := inductionHypothesis typedOthers stands
          exact ⟨child, there, typedChild⟩

/-- A record's value at the place of one of its fields is of the field's type. -/
theorem typed_child {fields : Fields} {cell : Cell} {place : Nat} {field : Field}
    (typed : Typed (.struct fields) cell) (stands : fields.toList[place]? = some field) :
    Typed field.type (cell.child place) := by
  simp only [Typed] at typed
  obtain ⟨valid, children, same, inside⟩ := typed
  obtain ⟨child, there, typedChild⟩ := typedFields_get inside stands
  rw [same, Cell.child, List.getD_eq_getElem?_getD, there]
  exact typedChild

theorem typed_element {kind : ListKind} {item : DataType} {nullable : Bool} {cell element : Cell}
    (typed : Typed (.list kind item nullable) cell) (inside : element ∈ cell.elements) :
    Typed item element := by
  simp only [Typed] at typed
  obtain ⟨valid, elements, same, all⟩ := typed
  rw [same] at inside
  exact all element inside

theorem typed_entry {key value : DataType} {nullable : Bool} {cell : Cell} {entry : Cell × Cell}
    (typed : Typed (.map key value nullable) cell) (inside : entry ∈ cell.entries) :
    Typed key entry.1 ∧ Typed value entry.2 := by
  simp only [Typed] at typed
  obtain ⟨valid, entries, same, all⟩ := typed
  rw [same] at inside
  exact all entry inside

/-! ### Nulls and unions on a path -/

theorem heldByBranch_get {fields : Fields} {branch : Nat} {held : Cell} :
    heldByBranch fields branch held =
      (fields.toList[branch]?).bind fun field => heldBy field.type held := by
  induction fields generalizing branch with
  | nil => rfl
  | cons name type nullable rest inductionHypothesis =>
      cases branch with
      | zero => rfl
      | succ branch => exact inductionHypothesis

theorem heldBy_union {name : String} {type : DataType} {rest : Fields} {branch : Nat}
    {held : Cell} :
    heldBy (.union name type rest) (.union branch held) =
      ((branches name type rest)[branch]?).bind fun field => heldBy field.type held := by
  cases branch with
  | zero => rfl
  | succ branch => exact heldByBranch_get

/-- What a value of a union holds is what stands at every path of it. -/
theorem look_union {name : String} {type : DataType} {rest : Fields} {branch : Nat}
    {held : Cell} {field : Field} (stands : (branches name type rest)[branch]? = some field)
    (way : List Step) :
    look (.union name type rest) (.union branch held) way = look field.type held way := by
  have same : nodeAt (.union name type rest) (.union branch held) = nodeAt field.type held := by
    unfold nodeAt
    rw [heldBy_union, stands]
    rfl
  cases way with
  | nil => exact same
  | cons step way => simp only [look, same]

mutual

theorem heldBy_isNull : ∀ (type : DataType) (cell : Cell) (node : Node),
    heldBy type cell = some node → node.cell.isNull = cell.isNull
  | .union _ type _, .union 0 held, node, found => heldBy_isNull type held node found
  | .union _ _ rest, .union (branch + 1) held, node, found =>
      heldByBranch_isNull rest branch held node found
  | .union _ _ _, .plain _, _, found => by cases found
  | .union _ _ _, .struct _ _, _, found => by cases found
  | .union _ _ _, .list _ _, _, found => by cases found
  | .union _ _ _, .map _ _, _, found => by cases found
  | .plain _, _, _, found => by cases found; rfl
  | .struct _, _, _, found => by cases found; rfl
  | .list _ _ _, _, _, found => by cases found; rfl
  | .map _ _ _, _, _, found => by cases found; rfl

theorem heldByBranch_isNull : ∀ (fields : Fields) (branch : Nat) (held : Cell) (node : Node),
    heldByBranch fields branch held = some node → node.cell.isNull = held.isNull
  | .nil, _, _, _, found => by cases found
  | .cons _ type _ _, 0, held, node, found => heldBy_isNull type held node found
  | .cons _ _ _ rest, branch + 1, held, node, found =>
      heldByBranch_isNull rest branch held node found

end

/-- Nothing stands at or below a null. -/
theorem look_null {type : DataType} {cell : Cell} (null : cell.isNull = true)
    (way : List Step) : look type cell way = none := by
  have none : nodeAt type cell = none := by
    unfold nodeAt
    rw [Option.filter_eq_none_iff]
    intro node held
    simp [Cell.valid, heldBy_isNull type cell node held, null]
  cases way with
  | nil => exact none
  | cons step way => simp [look, none]

theorem heldBy_plain {type : DataType} (other : ∀ name first rest, type ≠ .union name first rest)
    (cell : Cell) : heldBy type cell = some { type, cell } := by
  cases type with
  | union name first rest => exact (other name first rest rfl).elim
  | _ => rfl

theorem nullCell_isNull : ∀ type : DataType, (nullCell type).isNull = true
  | .plain _ => rfl
  | .struct _ => rfl
  | .list _ _ _ => rfl
  | .map _ _ _ => rfl
  | .union _ type _ => nullCell_isNull type

end Ddi.Kafka.Conform
