/-
The types and values of decoded rows: Arrow's, one row at a time. A value keeps what stands
under a null parent, which an array keeps too.
-/

import Mathlib.Tactic.Common

namespace Ddi.Kafka.Conform

inductive TimeUnit
  | second
  | millisecond
  | microsecond
  | nanosecond
  deriving DecidableEq

inductive IntervalUnit
  | yearMonth
  | dayTime
  | monthDayNano
  deriving DecidableEq

/-- A type that holds one value, not values of other types. -/
inductive PlainType
  | null
  | boolean
  | int8
  | int16
  | int32
  | int64
  | uint8
  | uint16
  | uint32
  | uint64
  | float16
  | float32
  | float64
  | utf8
  | largeUtf8
  | utf8View
  | binary
  | largeBinary
  | binaryView
  | fixedSizeBinary (size : Nat)
  | decimal32 (precision : Nat) (scale : Int)
  | decimal64 (precision : Nat) (scale : Int)
  | decimal128 (precision : Nat) (scale : Int)
  | decimal256 (precision : Nat) (scale : Int)
  | date32
  | date64
  | time32 (unit : TimeUnit)
  | time64 (unit : TimeUnit)
  | timestamp (unit : TimeUnit) (zone : Option String)
  | duration (unit : TimeUnit)
  | interval (unit : IntervalUnit)
  | dictionary (value : PlainType)
  | other (name : String)
  deriving DecidableEq

inductive ListKind
  | list
  | largeList
  | fixedSizeList (size : Nat)
  | listView
  | largeListView
  deriving DecidableEq

mutual

/-- A type. A map's keys are never null, and a union, which is dense, has a first branch. -/
inductive DataType
  | plain (type : PlainType)
  | struct (fields : Fields)
  | list (kind : ListKind) (item : DataType) (nullable : Bool)
  | map (key value : DataType) (nullable : Bool)
  | union (name : String) (type : DataType) (rest : Fields)
  deriving DecidableEq

inductive Fields
  | nil
  | cons (name : String) (type : DataType) (nullable : Bool) (rest : Fields)
  deriving DecidableEq

end

/-- The fields one after another, whatever their types are. -/
@[induction_eliminator]
theorem Fields.inOrder {motive : Fields → Prop} (nil : motive .nil)
    (cons : ∀ name type nullable rest, motive rest → motive (.cons name type nullable rest))
    (fields : Fields) : motive fields :=
  match fields with
  | .nil => nil
  | .cons name type nullable rest => cons name type nullable rest (inOrder nil cons rest)

/-- A field of a struct, or a branch of a union. -/
structure Field where
  name : String
  type : DataType
  nullable : Bool
  deriving DecidableEq

def Fields.toList : Fields → List Field
  | .nil => []
  | .cons name type nullable rest => { name, type, nullable } :: rest.toList

def Fields.ofList : List Field → Fields
  | [] => .nil
  | field :: rest => .cons field.name field.type field.nullable (ofList rest)

/-- The branches of a union, each at its type id. -/
def branches (name : String) (type : DataType) (rest : Fields) : List Field :=
  { name, type, nullable := true } :: rest.toList

def DataType.isNested : DataType → Bool
  | .plain _ => false
  | _ => true

/-- The first field that has a property, with its place. -/
def findField (has : Field → Bool) : List Field → Option (Nat × Field)
  | [] => none
  | field :: rest =>
      if has field then some (0, field)
      else (findField has rest).map fun found => (found.1 + 1, found.2)

def fieldNamed (name : String) (fields : List Field) : Option (Nat × Field) :=
  findField (fun field => field.name == name) fields

mutual

def DataType.size : DataType → Nat
  | .plain _ => 1
  | .struct fields => fields.size + 1
  | .list _ item _ => item.size + 1
  | .map key value _ => key.size + value.size + 1
  | .union _ type rest => type.size + rest.size + 1

def Fields.size : Fields → Nat
  | .nil => 0
  | .cons _ type _ rest => type.size + rest.size

end

mutual

/-- The type with every field nullable, at every depth but a map's keys. -/
def relax : DataType → DataType
  | .plain type => .plain type
  | .struct fields => .struct (relaxFields fields)
  | .list .list item _ => .list .list (relax item) true
  | .list kind item nullable => .list kind item nullable
  | .map key value _ => .map key (relax value) true
  | .union name type rest => .union name (relax type) (relaxFields rest)

def relaxFields : Fields → Fields
  | .nil => .nil
  | .cons name type _ rest => .cons name (relax type) true (relaxFields rest)

end

/-! ### Values -/

/-- A value of a plain type that is not null. A float is the double it widens to, in its bits. -/
inductive Value
  | boolean (value : Bool)
  | int (value : Int)
  | float (bits : Nat)
  | text (value : String)
  | bytes (value : List Nat)
  | decimal (unscaled : Int)
  | interval (months days rest : Int)
  deriving DecidableEq

/-- One row's value, or one element's. What is not valid is null, and may hold values still. -/
inductive Cell
  | plain (value : Option Value)
  | struct (valid : Bool) (children : List Cell)
  | list (valid : Bool) (elements : List Cell)
  | map (valid : Bool) (entries : List (Cell × Cell))
  | union (branch : Nat) (held : Cell)

namespace Cell

/-- A union is null where what it holds is. -/
def isNull : Cell → Bool
  | .plain value => value.isNone
  | .struct valid _ => !valid
  | .list valid _ => !valid
  | .map valid _ => !valid
  | .union _ held => held.isNull

def valid (cell : Cell) : Bool := !cell.isNull

def child (cell : Cell) (place : Nat) : Cell :=
  match cell with
  | .struct _ children => children.getD place (.plain none)
  | _ => .plain none

def elements : Cell → List Cell
  | .list _ elements => elements
  | _ => []

def entries : Cell → List (Cell × Cell)
  | .map _ entries => entries
  | _ => []

end Cell

mutual

/-- A null of a type. -/
def nullCell : DataType → Cell
  | .plain _ => .plain none
  | .struct fields => .struct false (nullCells fields)
  | .list _ _ _ => .list false []
  | .map _ _ _ => .map false []
  | .union _ type _ => .union 0 (nullCell type)

def nullCells : Fields → List Cell
  | .nil => []
  | .cons _ type _ rest => nullCell type :: nullCells rest

end

/-- Zero, the empty string, the empty bytes. -/
def zeroValue : PlainType → Option Value
  | .null => none
  | .boolean => some (.boolean false)
  | .float16 | .float32 | .float64 => some (.float 0)
  | .utf8 | .largeUtf8 | .utf8View => some (.text "")
  | .binary | .largeBinary | .binaryView => some (.bytes [])
  | .fixedSizeBinary size => some (.bytes (List.replicate size 0))
  | .decimal32 _ _ | .decimal64 _ _ | .decimal128 _ _ | .decimal256 _ _ => some (.decimal 0)
  | .interval _ => some (.interval 0 0 0)
  | .dictionary value => zeroValue value
  | _ => some (.int 0)

mutual

/-- A valid value of a type, of no meaning. -/
def placeholder : DataType → Cell
  | .plain type => .plain (zeroValue type)
  | .struct fields => .struct true (placeholders fields)
  | .list _ _ _ => .list true []
  | .map _ _ _ => .map true []
  | .union _ type _ => .union 0 (nullCell type)

def placeholders : Fields → List Cell
  | .nil => []
  | .cons _ type _ rest => placeholder type :: placeholders rest

end

/-- A null replaced by a placeholder, to stand in a field that is NOT NULL. -/
def forceValid (type : DataType) (cell : Cell) : Cell :=
  match type with
  | .plain .null => cell
  | .union _ _ _ => cell
  | _ => if cell.isNull then placeholder type else cell

end Ddi.Kafka.Conform
