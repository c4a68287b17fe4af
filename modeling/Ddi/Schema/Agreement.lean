/-
When casting a batch whole and setting rows aside agree: where the null masks tell which values do
not convert, and nothing else in the arrays fails.
-/

import Ddi.Schema.Coerce
import Ddi.Schema.FractionSearch

namespace Ddi.Schema

/-- The same batch, however its arrays lie in memory. -/
def Batch.Same (arrow : Arrow) (batch other : Batch) : Prop :=
  batch.rows = other.rows ∧
    List.Forall₂ (fun column own => column.1 = own.1 ∧ arrow.equal column.2 own.2 = true)
      batch.columns other.columns

/-- What `filter` makes of a column: its rows where the mask is set. -/
structure Filters (arrow : Arrow) (col : Column) : Prop where
  whole : arrow.filter col (List.replicate col.length true) = col
  type : ∀ keep, keep.length = col.length → (arrow.filter col keep).dataType = col.dataType
  rows : ∀ keep, keep.length = col.length → (arrow.filter col keep).length = keep.count true
  nulls : ∀ keep, keep.length = col.length →
    ((arrow.filter col keep).nullCount = 0 ↔
      ∀ row, keep[row]? = some true → col.isValid row = true)

/-- What is known of a cast of a column to a type. `fails` are the rows whose value does not
convert, and `strays` tells whether the array of some of the rows has another value that does not:
one of a dictionary that no row refers to. -/
structure Casts (arrow : Arrow) (fails : Nat → Prop) (strays : List Bool → Prop) (col : Column)
    (target : DataType) : Prop where
  /-- What can be cast leniently can strictly, unless a value does not convert. -/
  strict : ∀ whole, arrow.castWithOptions true col target = .ok whole →
    ∀ keep, keep.length = col.length →
      ((∃ cast, arrow.castWithOptions false (arrow.filter col keep) target = .ok cast) ↔
        (∀ row, keep[row]? = some true → ¬fails row) ∧ ¬strays keep)
  /-- Where all values convert, the cast is the same either way. -/
  either : ∀ cast, arrow.castWithOptions false col target = .ok cast →
    arrow.castWithOptions true col target = .ok cast
  /-- Rows are cast apart from the others. -/
  filtered : ∀ keep, keep.length = col.length → ∀ whole part,
    arrow.castWithOptions true col target = .ok whole →
      arrow.castWithOptions false (arrow.filter col keep) target = .ok part →
        arrow.equal part (arrow.filter whole keep) = true
  result : ∀ cast, arrow.castWithOptions true col target = .ok cast →
    cast.dataType = target ∧ cast.length = col.length ∧ Filters arrow cast
  stray : ∀ keep, keep.length = col.length → strays keep →
    strays (List.replicate col.length true) ∨ ∃ row, keep[row]? = some false ∧ fails row
  fractions : ∀ sources keep, keep.length = col.length →
    ((∃ row, Drops arrow.canCastTypes sources (arrow.filter col keep) target row) ↔
      ∃ row, keep[row]? = some true ∧ Drops arrow.canCastTypes sources col target row)

/-- A column can stand in a batch of so many rows. -/
def Field.Takes (field : Field) (rows : Nat) (col : Column) : Prop :=
  col.dataType = field.type ∧ col.length = rows ∧
    (field.label.nullable = false → col.nullCount = 0)

/-- What is known of nulls made for a column that is missing. -/
structure Nulls (arrow : Arrow) (type : DataType) : Prop where
  typed : ∀ rows, (arrow.newNullArray type rows).dataType = type ∧
    (arrow.newNullArray type rows).length = rows
  filtered : ∀ rows keep, keep.length = rows →
    arrow.equal (arrow.newNullArray type (keep.count true))
      (arrow.filter (arrow.newNullArray type rows) keep) = true

/-- What is known of the equality of arrays and of the check of a batch. -/
structure Assembles (arrow : Arrow) : Prop where
  equal_refl : ∀ col, arrow.equal col col = true
  alike : ∀ col other, arrow.equal col other = true → col.dataType = other.dataType ∧
    col.length = other.length ∧ col.nullCount = other.nullCount
  check : ∀ fields columns, (∃ batch, arrow.tryNew fields columns = .ok batch) ↔
    fields ≠ [] ∧ ∃ rows, List.Forall₂ (fun field col => field.Takes rows col) fields columns
  made : ∀ fields columns batch, arrow.tryNew fields columns = .ok batch →
    batch.columns = (fields.map fun field => field.label.name).zip columns ∧
      ∀ col ∈ columns, col.length = batch.rows

namespace Coercer

variable (arrow : Arrow) (coercer : Coercer)

/-- A target column as the lenient cast makes it. -/
def resolved (batch : Batch) (field : Field) : Option Column :=
  match batch.column field.label.name with
  | some col =>
      if col.dataType = field.type then some col
      else (arrow.castWithOptions true col field.type).toOption
  | none => if field.label.nullable then some (arrow.newNullArray field.type batch.rows) else none

section Rows

variable (fails : Column → DataType → Nat → Prop) (strays : Column → DataType → List Bool → Prop)

/-- What is known of Arrow and of a batch. -/
structure Known (batch : Batch) : Prop where
  assembles : Assembles arrow
  nulls : ∀ field ∈ coercer.target, Nulls arrow field.type
  aligned : ∀ column ∈ batch.columns, column.2.length = batch.rows
  filters : ∀ column ∈ batch.columns, Filters arrow column.2
  casts : ∀ field ∈ coercer.target, ∀ col, batch.column field.label.name = some col →
    col.dataType ≠ field.type →
      Casts arrow (fails col field.type) (strays col field.type) col field.type

/-- A row of a column does not go: its value does not convert, or has a fraction that would be
dropped, or is null where there may be none. -/
def FaultyCell (batch : Batch) (field : Field) (row : Nat) : Prop :=
  ∃ col held, batch.column field.label.name = some col ∧
    resolved arrow batch field = some held ∧
      ((col.dataType ≠ field.type ∧ (fails col field.type row ∨
          Drops arrow.canCastTypes coercer.fractions.sources col field.type row)) ∨
        (field.label.nullable = false ∧ held.isValid row = false))

/-- What the masks show: a fraction in a value that is valid, a null that was none before, a null
where there may be none. -/
def RefusedCell (batch : Batch) (field : Field) (row : Nat) : Prop :=
  ∃ col held, batch.column field.label.name = some col ∧
    resolved arrow batch field = some held ∧
      if held.isValid row = true then
        Drops arrow.canCastTypes coercer.fractions.sources col field.type row
      else col.isValid row = true ∨ field.label.nullable = false

/-- A null of a column that its mask does not show, and no fault. -/
def HiddenNull (batch : Batch) (field : Field) (row : Nat) : Prop :=
  ∃ col held, batch.column field.label.name = some col ∧
    resolved arrow batch field = some held ∧ col.dataType ≠ field.type ∧
      field.label.nullable = true ∧ col.isValid row = true ∧ held.isValid row = false ∧
        ¬fails col field.type row ∧
          ¬Drops arrow.canCastTypes coercer.fractions.sources col field.type row

/-- A fault that the masks do not show: a value that does not convert and leaves no null, or the
row is null before and after. -/
def UnseenFault (batch : Batch) (field : Field) (row : Nat) : Prop :=
  ∃ col held, batch.column field.label.name = some col ∧
    resolved arrow batch field = some held ∧ col.dataType ≠ field.type ∧
      ((held.isValid row = true ∧ fails col field.type row ∧
          ¬Drops arrow.canCastTypes coercer.fractions.sources col field.type row) ∨
        (held.isValid row = false ∧ col.isValid row = false ∧ field.label.nullable = true ∧
          (fails col field.type row ∨
            Drops arrow.canCastTypes coercer.fractions.sources col field.type row)))

def Faulty (batch : Batch) (row : Nat) : Prop :=
  ∃ field ∈ coercer.target, coercer.FaultyCell arrow fails batch field row

def Refused (batch : Batch) (row : Nat) : Prop :=
  ∃ field ∈ coercer.target, coercer.RefusedCell arrow batch field row

/-- Some column of some of the rows carries another value that does not convert. -/
def Stray (batch : Batch) (keep : List Bool) : Prop :=
  ∃ field ∈ coercer.target, ∃ col, batch.column field.label.name = some col ∧
    col.dataType ≠ field.type ∧ strays col field.type keep

/-- A column cannot be cast at all, or is nested and holds a value that does not convert. -/
def Stuck (batch : Batch) (field : Field) : Prop :=
  resolved arrow batch field = none ∨
    ∃ col, batch.column field.label.name = some col ∧ col.dataType ≠ field.type ∧
      (field.type.isNested || col.dataType.isNested) = true ∧
        ((∃ row, row < batch.rows ∧ fails col field.type row) ∨
          strays col field.type (List.replicate batch.rows true))

/-- No row can be told to be at fault: a column is stuck, or there is none to write. -/
def Broken (batch : Batch) : Prop :=
  coercer.target = [] ∨ ∃ field ∈ coercer.target, Stuck arrow fails strays batch field

end Rows

/-- A mask of one row. -/
def only (rows row : Nat) : List Bool := (List.range rows).map fun own => own == row

/-- Casting whole and setting rows aside agree on a batch. -/
structure Agree (batch : Batch) : Prop where
  accepted : (∃ out, coercer.coerce arrow batch = .ok out) ↔
    ∃ good, coercer.coerceQuarantining arrow batch = .ok { good, bad := none }
  same : ∀ out good, coercer.coerce arrow batch = .ok out →
    coercer.coerceQuarantining arrow batch = .ok { good, bad := none } → good = out
  /-- What is kept is what casting just those rows makes, in order, what is not comes back as it
  was, and none of it would have gone alone. -/
  parted : ∀ columns rejected coerced,
    coercer.examine arrow batch coercer.target (List.replicate batch.rows none) =
        .ok (columns, rejected) →
      coercer.coerceQuarantining arrow batch = .ok coerced →
        rejected.length = batch.rows ∧
          (∃ out, coercer.coerce arrow (batch.filter arrow (rejected.map Option.isNone)) =
              .ok out ∧ out.Same arrow coerced.good) ∧
            coerced.bad.map Rejected.rows =
              (if rejected.all Option.isNone then none
                else some (batch.filter arrow (rejected.map Option.isSome))) ∧
              ∀ row, row < batch.rows → (∃ reject, rejected[row]? = some (some reject)) →
                ∀ out, coercer.coerce arrow (batch.filter arrow (only batch.rows row)) ≠ .ok out

/-- The masks tell: a row with a null that they hide is at fault for another column, or other
values of its arrays fail; a row with a fault that they do not show is refused for another column;
and no other value fails in the arrays of the rows that are kept. -/
structure Told (fails : Column → DataType → Nat → Prop)
    (strays : Column → DataType → List Bool → Prop) (batch : Batch) : Prop where
  shown : ∀ row, row < batch.rows →
    (∃ field ∈ coercer.target, coercer.HiddenNull arrow fails batch field row) →
      coercer.Faulty arrow fails batch row ∨ coercer.Stray strays batch (only batch.rows row)
  seen : ∀ row, row < batch.rows →
    (∃ field ∈ coercer.target, coercer.UnseenFault arrow fails batch field row) →
      coercer.Refused arrow batch row
  clear : ∀ keep, keep.length = batch.rows →
    (∀ row, keep[row]? = some true ↔ row < batch.rows ∧ ¬coercer.Refused arrow batch row) →
      ¬coercer.Stray strays batch keep

end Coercer

end Ddi.Schema
