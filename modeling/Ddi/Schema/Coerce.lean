/-
Casting a batch to the target's schema: the batch whole, or with the rows set aside that will
not go.
-/

import Ddi.Schema.Fractions
import Mathlib.Data.List.Basic

namespace Ddi.Schema

/-- A batch of rows. -/
structure Batch where
  rows : Nat
  columns : List (String × Column)

def Batch.column (batch : Batch) (name : String) : Option Column := batch.columns.lookup name

/-- What is used of Arrow. -/
structure Arrow where
  canCastTypes : DataType → DataType → Bool
  /-- Safe, a value that does not fit becomes a null, and otherwise an error. -/
  castWithOptions : (safe : Bool) → Column → DataType → Except String Column
  filter : Column → List Bool → Column
  /-- Whether two arrays hold the same, however they lie in memory. -/
  equal : Column → Column → Bool
  newNullArray : DataType → Nat → Column
  /-- Columns as a batch of a schema, which checks them against it. -/
  tryNew : List Field → List Column → Except String Batch
  /-- How a type is shown in a message. -/
  shown : DataType → String
  /-- How a name is quoted in a message. -/
  quoted : String → String

/-- The rows that a mask keeps. -/
def Batch.filter (arrow : Arrow) (batch : Batch) (keep : List Bool) : Batch :=
  { rows := keep.count true
    columns := batch.columns.map fun column => (column.1, arrow.filter column.2 keep) }

/-- What becomes of a value with a fraction that goes into an integer column. -/
inductive Fractions
  | refused
  | floatsTruncated
  deriving DecidableEq

def Fractions.sources : Fractions → Sources
  | .refused => .floatsAndDecimals
  | .floatsTruncated => .decimals

/-- Casts batches to a fixed target schema. -/
structure Coercer where
  target : List Field
  fractions : Fractions

def Column.nullCount (col : Column) : Nat :=
  (List.range col.length).countP fun row => !col.isValid row

/-- Rows that the target would not take, and why. -/
structure Rejected where
  rows : Batch
  reasons : List String
  columns : List (Option String)

/-- A batch split into what the target will take and what it will not. -/
structure Coerced where
  good : Batch
  bad : Option Rejected

namespace Coercer

variable (arrow : Arrow) (coercer : Coercer)

def refusedFractions (col : Column) (target : DataType) : Option (List Bool) :=
  match coercer.fractions with
  | .refused => fractionsDropped arrow.canCastTypes col target
  | .floatsTruncated => decimalFractionsDropped arrow.canCastTypes col target

def castText (field : Field) (col : Column) (cause : String) : String :=
  s!"column {arrow.quoted field.label.name}: cannot cast {arrow.shown col.dataType} -> " ++
    s!"{arrow.shown field.type} without loss: {cause}. Fix the transform_sql to produce the " ++
    "target type explicitly, or change the target column's type."

def fractionText (field : Field) (col : Column) (row : Nat) : String :=
  s!"column {arrow.quoted field.label.name}: cannot cast {arrow.shown col.dataType} -> " ++
    s!"{arrow.shown field.type} without loss: row {row} holds a value with a fraction, which " ++
    s!"{arrow.shown field.type} would drop. Fix the transform_sql to produce the target type " ++
    "explicitly (rounding the value as you mean it), or change the target column's type."

def missingText (field : Field) (batch : Batch) : String :=
  s!"target column {arrow.quoted field.label.name} ({arrow.shown field.type}) is NOT NULL but " ++
    "the transform produced no such column. Available: [" ++
    ", ".intercalate (batch.columns.map Prod.fst) ++ "]"

def nullsText (field : Field) (count : Nat) : String :=
  s!"column {arrow.quoted field.label.name} is NOT NULL in the target but the batch contains " ++
    s!"{count} null(s)"

/-- A column cast so that a value which does not convert is an error. -/
def castStrictly (field : Field) (col : Column) : Except String Column :=
  if col.dataType = field.type then .ok col
  else
    match arrow.castWithOptions false col field.type with
    | .error cause => .error (castText arrow field col cause)
    | .ok cast =>
        match (coercer.refusedFractions arrow col field.type).bind (List.findIdx? id) with
        | some row => .error (fractionText arrow field col row)
        | none => .ok cast

/-- A target column of a batch that is to go in whole. -/
def strictly (batch : Batch) (field : Field) : Except String Column :=
  match batch.column field.label.name with
  | some col =>
      match coercer.castStrictly arrow field col with
      | .error text => .error text
      | .ok resolved =>
          if !field.label.nullable && 0 < resolved.nullCount then
            .error (nullsText arrow field resolved.nullCount)
          else .ok resolved
  | none =>
      if field.label.nullable then .ok (arrow.newNullArray field.type batch.rows)
      else .error (missingText arrow field batch)

def assemble (columns : List Column) : Except String Batch :=
  (arrow.tryNew coercer.target columns).mapError fun cause =>
    s!"could not assemble batch in target schema: {cause}"

/-- A batch cast to the target schema. -/
def coerce (batch : Batch) : Except String Batch :=
  match coercer.target.mapM (coercer.strictly arrow batch) with
  | .error text => .error text
  | .ok columns => coercer.assemble arrow columns

/-- Why a row is set aside for a column, with the column's name. -/
def verdict (field : Field) (col resolved : Column) (row : Nat) : Option (String × String) :=
  let name := arrow.quoted field.label.name
  let types := s!"{arrow.shown col.dataType} -> {arrow.shown field.type}"
  if resolved.isValid row then
    if (coercer.refusedFractions arrow col field.type).any fun flags => flags.getD row false then
      some (field.label.name, s!"value of {name} has a fraction, which {types} would drop")
    else none
  else if col.isValid row then
    some (field.label.name, s!"value does not fit {name} ({types})")
  else if !field.label.nullable then
    some (field.label.name, s!"column {name} is NOT NULL in the target")
  else none

/-- A column cast so that a value which does not convert leaves a null. A nested column is cast
strictly, because the null would be inside a row that still looks valid. -/
def castLeniently (field : Field) (col : Column) : Except String Column :=
  if col.dataType = field.type then .ok col
  else
    let nested := field.type.isNested || col.dataType.isNested
    (arrow.castWithOptions (!nested) col field.type).mapError (castText arrow field col)

/-- A target column, and what was rejected by then with what it rejects. -/
def leniently (batch : Batch) (field : Field) (rejected : List (Option (String × String))) :
    Except String (Column × List (Option (String × String))) :=
  match batch.column field.label.name with
  | some col =>
      match castLeniently arrow field col with
      | .error text => .error text
      | .ok resolved => .ok (resolved, rejected.mapIdx fun row slot =>
          slot.or (coercer.verdict arrow field col resolved row))
  | none =>
      if field.label.nullable then .ok (arrow.newNullArray field.type batch.rows, rejected)
      else .error (missingText arrow field batch)

def examine (batch : Batch) : List Field → List (Option (String × String)) →
    Except String (List Column × List (Option (String × String)))
  | [], rejected => .ok ([], rejected)
  | field :: fields, rejected =>
      match coercer.leniently arrow batch field rejected with
      | .error text => .error text
      | .ok (column, rejected) =>
          match examine batch fields rejected with
          | .error text => .error text
          | .ok (columns, rejected) => .ok (column :: columns, rejected)

/-- A batch cast to the target schema, with the rows set aside that will not go. -/
def coerceQuarantining (batch : Batch) : Except String Coerced :=
  match coercer.examine arrow batch coercer.target (List.replicate batch.rows none) with
  | .error text => .error text
  | .ok (columns, rejected) =>
      if rejected.all Option.isNone then
        (coercer.assemble arrow columns).map fun good => { good, bad := none }
      else
        let keep := rejected.map Option.isNone
        let drop := rejected.map Option.isSome
        (coercer.assemble arrow (columns.map fun col => arrow.filter col keep)).map fun good =>
          { good
            bad := some
              { rows := batch.filter arrow drop
                reasons := rejected.reduceOption.map Prod.snd
                columns := rejected.reduceOption.map fun reject => some reject.1 } }

end Coercer

end Ddi.Schema
