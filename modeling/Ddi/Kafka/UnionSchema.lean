/-
The union of the writer schemas that a batch is aligned to before the SQL, and the target that
it is conformed to after it.
-/

import Ddi.Kafka.Conform
import Ddi.Lib.Assoc

namespace Ddi.Kafka.Conform

/-- A writer schema: its fields as decoded, unless the decoder refuses it, the full name of each
named type by the path of its values, and the size of the `fixed` of each decimal by its path. -/
structure Member where
  id : Nat
  decoded : Except String Fields
  names : List (String × String) := []
  fixed : String → Option Nat := fun _ => none

/-- A column of a batch. Its arrays may hold values that no row shows, left from a slice or
under a null list: they are those of the ghosts. -/
structure Column where
  name : String
  type : DataType
  cells : List Cell
  ghosts : List Cell := []

structure Batch where
  rows : Nat
  columns : List Column

def Batch.columnNamed (batch : Batch) (name : String) : Option Column :=
  batch.columns.find? fun column => column.name = name

/-- The rows of a batch that a mask keeps. -/
def keepRows {α : Type} (mask : List Bool) (cells : List α) : List α :=
  ((mask.zip cells).filter Prod.fst).map Prod.snd

def Batch.keep (mask : List Bool) (batch : Batch) : Batch where
  rows := (mask.filter id).length
  columns := batch.columns.map fun column => { column with cells := keepRows mask column.cells }

/-- Rows set aside, as they arrived, each with the column and the reason. -/
structure Rejected where
  rows : Batch
  reasons : List String
  columns : List String

/-- The rows of a batch that are bad, as they arrived, and the others as they are now. -/
def split (batch out : Batch) (bad : List (Option (String × String))) : Batch × Option Rejected :=
  if bad.all (·.isNone) then (out, none)
  else
    (out.keep (bad.map (·.isNone)),
      some
        { rows := batch.keep (bad.map (·.isSome))
          reasons := (bad.filterMap id).map Prod.snd
          columns := (bad.filterMap id).map Prod.fst })

/-- The first column that rejects each row, with its reason. -/
def firstBad (rows : Nat) (fitted : List (String × List (Option String))) :
    List (Option (String × String)) :=
  (List.range rows).map fun row =>
    fitted.findSome? fun column => (column.2[row]?.join).map fun why => (column.1, why)

/-- The writer schema id of each row. -/
def writerIds (pre : String) (batch : Batch) : List (Option Int) :=
  match batch.columnNamed (pre ++ "value_schema_id") with
  | some column =>
      if column.type = .plain .int32 then
        column.cells.map fun cell =>
          match cell with
          | .plain (some (.int id)) => some id
          | _ => none
      else List.replicate batch.rows none
  | none => List.replicate batch.rows none

def asU32Id (id : Int) : Nat := (id % 2 ^ 32).toNat

/-! ### The union -/

/-- A field changed where there is one of the name, and added at the end where there is none. -/
def Fields.change (name : String) (change : DataType → DataType) (fresh : DataType) :
    Fields → Fields
  | .nil => .cons name fresh true .nil
  | .cons own type nullable rest =>
      if own = name then .cons own (change type) true rest
      else .cons own type nullable (rest.change name change fresh)

mutual

/-- The type of a field in the union, from a newer member's and an older one's: records merge
child by child, and any other difference keeps the newer. -/
def merge (newer : DataType) : DataType → DataType
  | .struct older =>
      if newer = relax (.struct older) then newer
      else
        match newer with
        | .struct fields => .struct (mergeFields fields older)
        | newer => newer
  | .list .list older nullable =>
      if newer = relax (.list .list older nullable) then newer
      else
        match newer with
        | .list .list item _ => .list .list (merge item older) true
        | newer => newer
  | .map olderKey older nullable =>
      if newer = relax (.map olderKey older nullable) then newer
      else
        match newer with
        | .map key value _ => .map key (merge value older) true
        | newer => newer
  | _ => newer

/-- The newer's children first, then those that only the older has. -/
def mergeFields (newer : Fields) : Fields → Fields
  | .nil => newer
  | .cons name type _ rest =>
      mergeFields (newer.change name (fun own => merge own type) (relax type)) rest

end

/-- The Kafka metadata columns. -/
def metadataFields (pre : String) : List Field :=
  [{ name := pre ++ "topic", type := .plain .utf8, nullable := false },
    { name := pre ++ "partition", type := .plain .int32, nullable := false },
    { name := pre ++ "offset", type := .plain .int64, nullable := false },
    { name := pre ++ "timestamp", type := .plain (.timestamp .microsecond (some "UTC"))
      nullable := true },
    { name := pre ++ "timestamp_type", type := .plain .int32, nullable := false },
    { name := pre ++ "key", type := .plain .binary, nullable := true },
    { name := pre ++ "headers"
      type := .list .list
        (.struct (.cons "key" (.plain .utf8) false (.cons "value" (.plain .binary) true .nil))) false
      nullable := false },
    { name := pre ++ "value_schema_id", type := .plain .int32, nullable := false }]

/-- The union the SQL runs over. -/
structure UnionSchema where
  fields : List Field
  /-- The writer schema ids in it, newest first. -/
  members : List Nat
  /-- For each field, the writer schema that its type comes from. -/
  origin : List (String × Nat)
  pre : String
  names : List (Nat × List (String × String))

/-- The members, newest first, each id once. -/
def newestFirst (members : List Member) : List Member :=
  ((members.mergeSort fun first second => second.id ≤ first.id).foldl
    (fun kept member =>
      if kept.getLast?.elim false fun last => last.id = member.id then kept else kept ++ [member])
    [])

/-- The members that the union is built of, with their fields. -/
def usable (pre : String) (members : List Member) : List (Member × Fields) :=
  (newestFirst members).filterMap fun member =>
    match member.decoded with
    | .error _ => none
    | .ok fields =>
        if fields.toList.any fun field => pre.toList.isPrefixOf field.name.toList then none
        else some (member, fields)

def UnionSchema.build (members : List Member) (pre : String) : UnionSchema where
  fields :=
    ((usable pre members).foldl (fun fields member => mergeFields fields member.2) .nil).toList ++
      (metadataFields pre).map fun field =>
        { field with type := relax field.type, nullable := true }
  members := (usable pre members).map (·.1.id)
  origin :=
    (usable pre members).foldl
      (fun origin member =>
        member.2.toList.foldl
          (fun origin field =>
            if (origin.lookup field.name).isSome then origin
            else origin ++ [(field.name, member.1.id)]) origin) []
  pre
  names := (usable pre members).map fun member => (member.1.id, member.1.names)

variable (arrow : Arrow)

namespace UnionSchema

def fitter (union : UnionSchema) (writer : Option Int) (field : Field) : Fitter where
  into := .union writer (((union.origin.lookup field.name).or union.members.head?).getD 0)
  names := (writer.bind fun id => union.names.lookup (asU32Id id)).getD []

def slots (cells : List Cell) : List Slot := cells.map fun cell => { cell, stood := .absent }

end UnionSchema

/-! ### The target -/

/-- What conforms rows to a target. -/
structure Conformer where
  target : List Field
  pre : String
  text : KdiText := {}
  /-- For kafka-delta-ingest's text, each writer schema's shape. -/
  shapes : List (Nat × Shape) := []
  /-- Every writer schema's shape merged, newest first. -/
  merged : Option Shape := none
  /-- The columns that copy a column of the union under another name. -/
  copies : List (String × String) := []

namespace Conformer

/-- Takes note of the writer schemas that rows can come from. -/
def observe (conformer : Conformer) (members : List Member) : Conformer :=
  if !conformer.text.compat && !conformer.text.nullText then conformer
  else
    let shapes := members.foldl
      (fun shapes member =>
        if (shapes.lookup member.id).isSome then shapes
        else
          match member.decoded with
          | .error _ => shapes
          | .ok fields => Ordered.insert member.id (Shape.of member.fixed fields) shapes)
      conformer.shapes
    { conformer with
      shapes
      merged := shapes.reverse.foldl
        (fun merged entry =>
          match merged with
          | none => some entry.2
          | some merged => some (merged.merge entry.2)) none }

def observeCopies (conformer : Conformer) (sources : List (String × String)) : Conformer :=
  { conformer with copies := sources.filter fun entry => entry.1 ≠ entry.2 }

/-- The shape of a row's writer schema, or every one's where the row does not say. -/
def writerShape (conformer : Conformer) : Option Int → Except String Shape
  | some id =>
      match conformer.shapes.lookup (asU32Id id) with
      | some shape => .ok shape
      | none =>
          .error (s!"internal: kafka-delta-ingest's text needs writer schema {id}, which the " ++
            "conformer was not told of (Conformer::observe)")
  | none =>
      match conformer.merged with
      | some shape => .ok shape
      | none =>
          .error ("internal: kafka-delta-ingest's text needs a writer schema, which the " ++
            "conformer was not told of (Conformer::observe)")

/-- Where each value of a column stood, unless the column takes no text. -/
def stood (conformer : Conformer) (writers : Option (List Shape)) (name : String) :
    Option (List At) :=
  if name = conformer.pre ++ "key" ∨ name = conformer.pre ++ "headers" then none
  else
    writers.map fun writers => writers.map fun writer =>
      match conformer.copies.lookup name with
      | some source => .copy writer source
      | none => .column writer name

end Conformer

/-- The type that a column of the target's comes out with: its own where it is left for the
coercer. -/
def Fitter.conformedType (fitter : Fitter) (column : List Slot) (source dest : DataType)
    (kdi : Option Bool) : DataType :=
  match source, dest with
  | .union _ _ _, dest => dest
  | source, .plain dest =>
      match kdi, dest with
      | some reach, .utf8 =>
          let anyConverted := fitter.text.compat &&
            column.any fun slot => converted source slot.stood.shape
          if ((isText source && !anyConverted) || !fitter.text.compat) &&
              !column.any fun slot => fitter.nullWord reach slot && slot.cell.isNull then source
          else .plain .utf8
      | _, dest =>
          match source with
          | .plain .null => .plain dest
          | .plain own =>
              if (own.isFloat || own.isText) && (decimalShape dest).isSome then .plain dest
              else source
          | source => source
  | _, dest => dest

namespace Conformer

def fitter (conformer : Conformer) : Fitter := { into := .target, text := conformer.text }

/-- The slots of a column's rows, and those of all that its array holds. -/
def rowSlots (conformer : Conformer) (writers : Option (List Shape)) (column : Column) :
    List Slot :=
  (column.cells.zip ((conformer.stood writers column.name).getD
    (column.cells.map fun _ => .absent))).map fun (cell, stood) => { cell, stood }

def kdi (conformer : Conformer) (writers : Option (List Shape)) (name : String) : Option Bool :=
  (conformer.stood writers name).map fun _ => true

/-- One target column, from the batch's column of its name. -/
def conformField (conformer : Conformer) (writers : Option (List Shape)) (column : Column)
    (field : Field) : List Fitted :=
  let rows := conformer.rowSlots writers column
  rows.map (conformer.fitter.fit arrow (rows ++ UnionSchema.slots column.ghosts) column.type
    field.type field.name true (conformer.kdi writers field.name))

/-- A batch's columns with the first of a name in another form. -/
def setColumn (column : Column) : List Column → List Column
  | [] => []
  | own :: rest => if own.name = column.name then column :: rest else own :: setColumn column rest

/-- The shape of each row's writer schema, where a text of kafka-delta-ingest's is written. -/
def writers (conformer : Conformer) (batch : Batch) : Except String (Option (List Shape)) :=
  if (conformer.text.compat || conformer.text.nullText) && 0 < batch.rows then
    ((writerIds conformer.pre batch).mapM conformer.writerShape).map some
  else .ok none

/-- A batch conformed to the target, and the rows that do not fit. -/
def conform (conformer : Conformer) (batch : Batch) : Except String (Batch × Option Rejected) := do
  let writers ← conformer.writers batch
  let fitted := conformer.target.filterMap fun field =>
    (batch.columnNamed field.name).map fun column =>
      (field, column, conformer.conformField arrow writers column field)
  let out : Batch :=
    { rows := batch.rows
      columns := fitted.foldl
        (fun columns (field, column, cells) =>
          setColumn
            { name := field.name
              type := conformer.fitter.conformedType
                (conformer.rowSlots writers column ++ UnionSchema.slots column.ghosts) column.type
                field.type (conformer.kdi writers field.name)
              cells := cells.map (·.cell) } columns) batch.columns }
  return split batch out (firstBad batch.rows
    (fitted.map fun (field, _, cells) => (field.name, cells.map (·.bad))))

end Conformer

end Ddi.Kafka.Conform
