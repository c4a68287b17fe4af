/-
The scan that reads a cut-off: batch after batch of the target, each with the
text its rows' partitions are known by.

A batch builds the text of each distinct tuple of its partition columns once and
looks the rows up in that list. What comes out is the pass over the rows of
`Ddi.Dedup`, whatever the batches were.
-/

import Ddi.Dedup
import Ddi.Lib.JsonText

namespace Ddi

set_option linter.unusedSectionVars false

/-- The type a table declares for a column. -/
inductive DataType
  | int8 | int16 | int32 | int64 | uint8 | uint16 | uint32 | uint64
  | utf8 | largeUtf8 | utf8View
  | other (name : String)
  deriving DecidableEq

/-- A value of a column, one of a type that is neither integer nor text by its text. -/
inductive ColumnValue
  | int (value : Int)
  | text (value : String)
  | other (shown : String)
  deriving DecidableEq

/-- The value cast to text. -/
def ColumnValue.utf8 : ColumnValue → String
  | .int value => value.repr
  | .text value => value
  | .other shown => shown

def DataType.holds (dtype : DataType) (value : ColumnValue) : Bool :=
  match dtype, value with
  | .other _, .other _ => true
  | .other _, _ => false
  | .utf8, .text _ => true
  | .utf8, _ => false
  | .largeUtf8, .text _ => true
  | .largeUtf8, _ => false
  | .utf8View, .text _ => true
  | .utf8View, _ => false
  | _, .int _ => true
  | _, _ => false

/-- Whether a partition column of this type can key a cut-off: its text is the value. -/
def groupsExactly (dtype : DataType) : Bool :=
  match dtype with
  | .other _ => false
  | _ => true

/-- A table as a scan reads it: its declared columns, and a row's value of each. -/
structure ScannedTable (τ T : Type) where
  schema : List (String × DataType)
  /-- A row's value of a column the rows are ordered by. -/
  timestamp : String → τ → Option T
  value : String → τ → Option ColumnValue
  typed : ∀ column row found dtype, value column row = some found →
    schema.lookup column = some dtype → dtype.holds found = true

/-- The columns a cut-off is read from. -/
structure Projection where
  timestampColumn : String
  keyColumn : Option String
  partitionColumns : List String

def Projection.wanted (projection : Projection) : List String :=
  projection.timestampColumn :: projection.keyColumn.toList ++ projection.partitionColumns

def requireColumns (schema : List (String × DataType)) (projection : Projection) :
    Except Error Unit :=
  match projection.wanted.find? fun column => (schema.lookup column).isNone with
  | some wanted =>
    .error (.config s!"dedup column {wanted} is not in the target table. Columns: {
      schema.map Prod.fst}")
  | none =>
    match projection.partitionColumns.find? fun column =>
        (schema.lookup column).any fun dtype => !groupsExactly dtype with
    | some column =>
      .error (.config (s!"dedup_partition {column} must be an integer or a string column, such as " ++
        "kafka_partition"))
    | none => .ok ()

/-- The text one partition is known by: the value itself for one column, a JSON array of the
values for several. -/
def partitionKey (values : List String) : String :=
  match values with
  | [one] => one
  | many => String.ofList (JsonText.array (many.map String.toList))

/-- The partition columns of a batch, as text. -/
structure PartitionText where
  columns : List (List (Option String))

/-- The distinct tuples found so far, and each row's place among them. -/
structure Distinct where
  seen : List (List String × Nat)
  texts : List String
  place : List (Option Nat)

namespace PartitionText

def valueAt (column : List (Option String)) (index : Nat) : String :=
  (column[index]?.join).getD ""

def nullAt (columns : List (List (Option String))) (index : Nat) : Bool :=
  columns.any fun column => (column[index]?.join).isNone

/-- One row of the pass over a batch's partition columns. -/
def visit (columns : List (List (Option String))) (found : Distinct) (index : Nat) : Distinct :=
  if nullAt columns index then { found with place := found.place ++ [none] }
  else
    let tuple := columns.map fun column => valueAt column index
    match found.seen.lookup tuple with
    | some known => { found with place := found.place ++ [some known] }
    | none =>
      { seen := found.seen ++ [(tuple, found.texts.length)]
        texts := found.texts ++ [partitionKey tuple]
        place := found.place ++ [some found.texts.length] }

/-- Each distinct tuple's text, and per row the position of its own. -/
def distinctTuples (columns : List (List (Option String))) : List String × List (Option Nat) :=
  let count := columns.head?.elim 0 List.length
  let found := (List.range count).foldl (visit columns) { seen := [], texts := [], place := [] }
  (found.texts, found.place)

def isNull (parts : PartitionText) (index : Nat) : Bool := nullAt parts.columns index

/-- The partition a row is looked up by. -/
def textAt (parts : PartitionText) (index : Nat) : String :=
  match parts.columns with
  | [one] => valueAt one index
  | many =>
    let distinct := distinctTuples many
    match (distinct.2[index]?.join).bind fun place => distinct.1[place]? with
    | some text => text
    | none => partitionKey (many.map fun column => valueAt column index)

end PartitionText

section Scan

variable {τ T : Type} [LinearOrder T]

def PartitionText.of (table : ScannedTable τ T) (partitionColumns : List String)
    (batch : List τ) : PartitionText where
  columns := partitionColumns.map fun column =>
    batch.map fun row => (table.value column row).map ColumnValue.utf8

namespace ScannedTable

variable (table : ScannedTable τ T) (projection : Projection)

def keyAt (row : τ) : Option String :=
  projection.keyColumn.bind fun column => (table.value column row).map ColumnValue.utf8

/-- One row of a batch, at its index. -/
def readRow (maxPartitions : Nat) (parts : PartitionText) (index : Nat)
    (dedup : Dedup T String String) (row : τ) : Except Error (Dedup T String String) :=
  match table.timestamp projection.timestampColumn row with
  | none => .ok dedup
  | some time =>
    if projection.partitionColumns.isEmpty then
      .ok { dedup with
        watermark := some (Marks.raise dedup.watermark time (table.keyAt projection row)) }
    else if parts.isNull index then .ok dedup
    else
      let partition := parts.textAt index
      if (dedup.partitions.lookup partition).isNone &&
          decide (maxPartitions ≤ dedup.partitions.length) then
        .error (Dedup.tooManyPartitions projection.partitionColumns maxPartitions)
      else
        .ok { dedup with
          partitions :=
            Dedup.raiseAt partition time (table.keyAt projection row) dedup.partitions }

/-- The rows of a batch from an index on. -/
def readFrom (maxPartitions : Nat) (parts : PartitionText) :
    Nat → List τ → Dedup T String String → Except Error (Dedup T String String)
  | _, [], dedup => .ok dedup
  | index, row :: rest, dedup =>
    match table.readRow projection maxPartitions parts index dedup row with
    | .error error => .error error
    | .ok dedup => readFrom maxPartitions parts (index + 1) rest dedup

def readBatches (maxPartitions : Nat) :
    List (List τ) → Dedup T String String → Except Error (Dedup T String String)
  | [], dedup => .ok dedup
  | batch :: rest, dedup =>
    match table.readFrom projection maxPartitions
        (PartitionText.of table projection.partitionColumns batch) 0 batch dedup with
    | .error error => .error error
    | .ok dedup => readBatches maxPartitions rest dedup

/-- Reads the cut-off out of the target's batches. -/
def readBounded (maxPartitions : Nat) (batches : List (List τ)) :
    Except Error (Dedup T String String) :=
  match requireColumns table.schema projection with
  | .error error => .error error
  | .ok () =>
    table.readBatches projection maxPartitions batches
      (Dedup.empty projection.partitionColumns)

end ScannedTable

end Scan

end Ddi
