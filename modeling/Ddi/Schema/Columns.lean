/-
Arrow's types, and its arrays as they lie in memory: null masks apart from the values under them,
offsets, views, run ends, keys and type ids.
-/

import Ddi.Kafka.ArrowTypes
import Mathlib.Algebra.Order.Field.Rat

namespace Ddi.Schema

open Ddi.Kafka.Conform (TimeUnit IntervalUnit ListKind)

/-- A type that holds one value, not values of other types. -/
inductive Plain
  | null
  | boolean
  | int8
  | int16
  | int32
  | int64
  | uint8
  | uint16
  | uint32
  | uint64
  | float16
  | float32
  | float64
  | utf8
  | largeUtf8
  | utf8View
  | binary
  | largeBinary
  | binaryView
  | fixedSizeBinary (size : Nat)
  | decimal32 (precision : Nat) (scale : Int)
  | decimal64 (precision : Nat) (scale : Int)
  | decimal128 (precision : Nat) (scale : Int)
  | decimal256 (precision : Nat) (scale : Int)
  | date32
  | date64
  | time32 (unit : TimeUnit)
  | time64 (unit : TimeUnit)
  | timestamp (unit : TimeUnit) (zone : Option String)
  | duration (unit : TimeUnit)
  | interval (unit : IntervalUnit)
  deriving DecidableEq

/-- The value of a float of any width. -/
inductive Floating
  | finite (value : ℚ)
  | nan
  | infinite (negative : Bool)
  deriving DecidableEq

/-- A signed integer of so many bits. -/
structure Native (bits : Nat) where
  val : Int
  low : -2 ^ (bits - 1) ≤ val
  high : val < 2 ^ (bits - 1)

/-- What one value of a type is. A decimal is its unscaled integer. -/
def Plain.Carrier : Plain → Type
  | .null => Empty
  | .boolean => Bool
  | .float16 | .float32 | .float64 => Floating
  | .decimal32 _ _ => Native 32
  | .decimal64 _ _ => Native 64
  | .decimal128 _ _ => Native 128
  | .decimal256 _ _ => Native 256
  | .utf8 | .largeUtf8 | .utf8View => String
  | .binary | .largeBinary | .binaryView | .fixedSizeBinary _ => List Nat
  | .interval _ => Int × Int × Int
  | _ => Int

/-- The types of run ends. -/
inductive RunEnd
  | int16
  | int32
  | int64
  deriving DecidableEq

/-- What a field is besides its type. -/
structure Label where
  name : String
  nullable : Bool
  deriving DecidableEq

mutual

inductive DataType
  | plain (type : Plain)
  | runEndEncoded (ends : RunEnd) (label : Label) (value : DataType)
  /-- The type id of each field, and the fields. -/
  | union (dense : Bool) (ids : List Int) (fields : Fields)
  | dictionary (key : Plain) (value : DataType)
  | list (kind : ListKind) (label : Label) (item : DataType)
  | map (label : Label) (entries : DataType) (sorted : Bool)
  | struct (fields : Fields)
  deriving DecidableEq

inductive Fields
  | nil
  | cons (label : Label) (type : DataType) (rest : Fields)
  deriving DecidableEq

end

/-- The fields one after another, whatever their types are. -/
@[induction_eliminator]
theorem Fields.inOrder {motive : Fields → Prop} (nil : motive .nil)
    (cons : ∀ label type rest, motive rest → motive (.cons label type rest)) (fields : Fields) :
    motive fields :=
  match fields with
  | .nil => nil
  | .cons label type rest => cons label type rest (inOrder nil cons rest)

structure Field where
  label : Label
  type : DataType
  deriving DecidableEq

def Fields.toList : Fields → List Field
  | .nil => []
  | .cons label type rest => { label, type } :: rest.toList

namespace DataType

/-- Whether values of other types stand in it. -/
def isNested : DataType → Bool
  | .plain _ => false
  | .runEndEncoded _ _ value => value.isNested
  | .dictionary _ value => value.isNested
  | _ => true

end DataType

mutual

def DataType.depth : DataType → Nat
  | .plain _ => 1
  | .runEndEncoded _ _ value => value.depth + 1
  | .union _ _ fields => fields.depth + 1
  | .dictionary _ value => value.depth + 1
  | .list _ _ item => item.depth + 1
  | .map _ entries _ => entries.depth + 1
  | .struct fields => fields.depth + 1

def Fields.depth : Fields → Nat
  | .nil => 0
  | .cons _ type rest => max type.depth rest.depth

end

/-- Which elements a list's rows hold. -/
inductive Layout
  /-- From an offset to the next. -/
  | offsets (large : Bool) (offsets : List Nat)
  /-- From an offset, so many. -/
  | views (large : Bool) (offsets sizes : List Nat)
  /-- As many in each row. -/
  | fixed (size rows : Nat)
  deriving DecidableEq

namespace Layout

def kind : Layout → ListKind
  | .offsets false _ => .list
  | .offsets true _ => .largeList
  | .views false _ _ => .listView
  | .views true _ _ => .largeListView
  | .fixed size _ => .fixedSizeList size

end Layout

/-- From each offset to the next. -/
def windows (offsets : List Nat) : List (Nat × Nat) := offsets.zip offsets.tail

mutual

/-- An array. Nulls are a mask with `true` for what is valid, where there is one. -/
inductive Column
  | plain (type : Plain) (values : List (Option type.Carrier))
  | runEndEncoded (ends : RunEnd) (label : Label) (runEnds : List Nat) (offset rows : Nat)
      (values : Column)
  | union (ids : List Int) (children : Columns) (offsets : Option (List Nat)) (typeIds : List Int)
  | dictionary (key : Plain) (keys : List (Option Nat)) (values : Column)
  | list (label : Label) (layout : Layout) (nulls : Option (List Bool)) (values : Column)
  | map (label keyLabel valueLabel : Label) (sorted : Bool) (offsets : List Nat)
      (nulls entryNulls : Option (List Bool)) (keys values : Column)
  | struct (rows : Nat) (nulls : Option (List Bool)) (columns : Columns)

inductive Columns
  | nil
  | cons (label : Label) (column : Column) (rest : Columns)

end

/-- The columns one after another, whatever stands in them. -/
@[induction_eliminator]
theorem Columns.inOrder {motive : Columns → Prop} (nil : motive .nil)
    (cons : ∀ label column rest, motive rest → motive (.cons label column rest))
    (columns : Columns) : motive columns :=
  match columns with
  | .nil => nil
  | .cons label column rest => cons label column rest (inOrder nil cons rest)

mutual

def Column.dataType : Column → DataType
  | .plain type _ => .plain type
  | .runEndEncoded ends label _ _ _ values => .runEndEncoded ends label values.dataType
  | .union ids children offsets _ => .union offsets.isSome ids children.fields
  | .dictionary key _ values => .dictionary key values.dataType
  | .list label layout _ values => .list layout.kind label values.dataType
  | .map label keyLabel valueLabel sorted _ _ _ keys values =>
      .map label
        (.struct (.cons keyLabel keys.dataType (.cons valueLabel values.dataType .nil))) sorted
  | .struct _ _ columns => .struct columns.fields

def Columns.fields : Columns → Fields
  | .nil => .nil
  | .cons label column rest => .cons label column.dataType rest.fields

end

def Columns.toList : Columns → List Column
  | .nil => []
  | .cons _ column rest => column :: rest.toList

mutual

def Column.depth : Column → Nat
  | .plain _ _ => 1
  | .runEndEncoded _ _ _ _ _ values => values.depth + 1
  | .union _ children _ _ => children.depth + 1
  | .dictionary _ _ values => values.depth + 1
  | .list _ _ _ values => values.depth + 1
  | .map _ _ _ _ _ _ _ keys values => max keys.depth values.depth + 1
  | .struct _ _ columns => columns.depth + 1

def Columns.depth : Columns → Nat
  | .nil => 0
  | .cons _ column rest => max column.depth rest.depth

end

/-- Whether a mask has a row valid. -/
def unmasked (nulls : Option (List Bool)) (row : Nat) : Bool :=
  nulls.elim true fun mask => mask.getD row true

namespace Column

/-- Whether the array's own mask has a row valid, whatever a null there stands for. -/
def isValid : Column → Nat → Bool
  | .plain .null _, _ => true
  | .plain _ values, row => (values.getD row none).isSome
  | .runEndEncoded _ _ _ _ _ _, _ => true
  | .union _ _ _ _, _ => true
  | .dictionary _ keys _, row => (keys.getD row none).isSome
  | .list _ _ nulls _, row => unmasked nulls row
  | .map _ _ _ _ _ nulls _ _ _, row => unmasked nulls row
  | .struct _ nulls _, row => unmasked nulls row

/-- How many rows there are. -/
def length : Column → Nat
  | .plain _ values => values.length
  | .runEndEncoded _ _ _ _ rows _ => rows
  | .union _ _ _ typeIds => typeIds.length
  | .dictionary _ keys _ => keys.length
  | .list _ (.offsets _ offsets) _ _ => offsets.length - 1
  | .list _ (.views _ offsets _) _ _ => offsets.length
  | .list _ (.fixed _ rows) _ _ => rows
  | .map _ _ _ _ offsets _ _ _ _ => offsets.length - 1
  | .struct rows _ _ => rows

end Column

end Ddi.Schema
