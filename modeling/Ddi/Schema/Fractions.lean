/-
Fractions going into integers, which Arrow's cast truncates: looked for in the values before they
are cast, each where the cast puts it.
-/

import Ddi.Schema.Columns

namespace Ddi.Schema

open Ddi.Kafka.Conform (ListKind)

/-- Which values a dropped fraction is looked for in. -/
inductive Sources
  | floatsAndDecimals
  | decimals
  deriving DecidableEq

namespace Plain

def isInteger : Plain → Bool
  | .int8 | .int16 | .int32 | .int64 | .uint8 | .uint16 | .uint32 | .uint64 => true
  | _ => false

/-- What a float or a decimal reaches as an integer: a timestamp as a count of its unit. -/
def isCount : Plain → Bool
  | .timestamp _ _ | .duration _ => true
  | type => type.isInteger

/-- Whether values of a type can have a fraction. -/
def fractional (sources : Sources) : Plain → Bool
  | .float16 | .float32 | .float64 => sources = .floatsAndDecimals
  | .decimal32 _ scale | .decimal64 _ scale | .decimal128 _ scale | .decimal256 _ scale =>
      0 < scale
  | _ => false

def sameFamily : Plain → Plain → Bool
  | .utf8, target | .largeUtf8, target | .utf8View, target =>
      target ∈ [.utf8, .largeUtf8, .utf8View]
  | .binary, target | .largeBinary, target | .binaryView, target =>
      target ∈ [.binary, .largeBinary, .binaryView]
  | .int8, target | .int16, target | .int32, target | .int64, target =>
      target ∈ [.int8, .int16, .int32, .int64]
  | .uint8, target | .uint16, target | .uint32, target | .uint64, target =>
      target ∈ [.uint8, .uint16, .uint32, .uint64]
  | .float16, target | .float32, target | .float64, target =>
      target ∈ [.float16, .float32, .float64]
  | _, _ => false

end Plain

def sameFamily : DataType → DataType → Bool
  | .plain one, .plain other => one.sameFamily other
  | _, _ => false

/-- A field of a union, with its type id and its place among them. -/
structure Branch where
  id : Int
  place : Nat
  type : DataType
  deriving DecidableEq

def branchesFrom : Nat → List Int → Fields → List Branch
  | place, id :: ids, .cons _ type rest => { id, place, type } :: branchesFrom (place + 1) ids rest
  | _, _, _ => []

def branches (ids : List Int) (fields : Fields) : List Branch := branchesFrom 0 ids fields

section Casts

-- Arrow's `can_cast_types`.
variable (canCastTypes : DataType → DataType → Bool)

/-- The child of a union that the cast extracts: the first of the type, else the first of its
family, else, into a type that is not nested, the first that casts to it. -/
def unionChild (ids : List Int) (fields : Fields) (target : DataType) : Option Branch :=
  ((branches ids fields).find? fun branch => branch.type = target).or
    (((branches ids fields).find? fun branch => sameFamily branch.type target).or
      (if target.isNested then none
      else (branches ids fields).find? fun branch => canCastTypes branch.type target))

/-- A map's key and value types: the first two of its entries, by position. -/
def keyValue : DataType → Option (DataType × DataType)
  | .struct (.cons _ key (.cons _ value _)) => some (key, value)
  | _ => none

/-- Which source field each target field of a struct cast reads: in order when every name lines
up, by name when every target field is in the source, and otherwise by position. -/
def structPairs (source target : Fields) : List (Nat × DataType) :=
  let names := source.toList.map fun field => field.label.name
  let inOrder := names == target.toList.map fun field => field.label.name
  let types := target.toList.map Field.type
  match target.toList.mapM fun field => names.findIdx? (· == field.label.name) with
  | some indices => if inOrder then (List.range names.length).zip types else indices.zip types
  | none => (List.range names.length).zip types

/-- The lists that one value is wrapped into. -/
def wraps : ListKind → Bool
  | .fixedSizeList size => size = 1
  | _ => true

variable (sources : Sources)

/-- `dropsFraction` with fuel for the depth of the two types. -/
def dropsWithin : Nat → DataType → DataType → Bool
  | 0, _, _ => false
  | fuel + 1, source, target =>
      if source = target then false
      else
        match source, target with
        | .runEndEncoded _ _ source, .runEndEncoded _ _ target => dropsWithin fuel source target
        | .runEndEncoded _ _ value, target => dropsWithin fuel value target
        | source, .runEndEncoded _ _ value => dropsWithin fuel source value
        | .union _ ids fields, target =>
            (unionChild canCastTypes ids fields target).any fun child =>
              dropsWithin fuel child.type target
        | .dictionary _ value, target => dropsWithin fuel value target
        | source, .dictionary _ value => dropsWithin fuel source value
        | .list _ _ item, .list _ _ target => dropsWithin fuel item target
        | .list kind _ item, target => kind = .fixedSizeList 1 && dropsWithin fuel item target
        | source, .list kind _ item => wraps kind && dropsWithin fuel source item
        | .map _ entries _, .map _ into _ =>
            match keyValue entries, keyValue into with
            | some source, some target =>
                dropsWithin fuel source.1 target.1 || dropsWithin fuel source.2 target.2
            | _, _ => false
        | .struct fields, .struct into =>
            (structPairs fields into).any fun pair =>
              fields.toList[pair.1]?.any fun field => dropsWithin fuel field.type pair.2
        | .plain type, .plain target => target.isCount && type.fractional sources
        | _, _ => false

/-- Whether casting one type to another can put a fraction into an integer. -/
def dropsFraction (source target : DataType) : Bool :=
  dropsWithin canCastTypes sources (source.depth + target.depth) source target

/-- A type into itself is not cast. -/
theorem dropsWithin_same (fuel : Nat) (type : DataType) :
    dropsWithin canCastTypes sources (fuel + 1) type type = false := by
  unfold dropsWithin
  rw [if_pos rfl]

end Casts

/-! ### In arrays -/

/-- The value that a row's run has: that of the first run that ends past it. -/
def physicalIndex (runEnds : List Nat) (offset row : Nat) : Nat :=
  runEnds.findIdx fun runEnd => offset + row < runEnd

/-- Per row of a list, the range of elements that it holds. -/
def Layout.ranges : Layout → List (Nat × Nat)
  | .offsets _ starts => windows starts
  | .views _ starts sizes => (starts.zip sizes).map fun view => (view.1, view.1 + view.2)
  | .fixed size rows => (List.range rows).map fun row => (row * size, row * size + size)

/-- Per row of a list or map, whether it is valid and one of its elements is flagged. -/
def perRow (nulls : Option (List Bool)) (ranges : List (Nat × Nat)) (flags : List Bool) :
    List Bool :=
  ranges.mapIdx fun row range =>
    unmasked nulls row && ((flags.drop range.1).take (range.2 - range.1)).any id

def Floating.hasFraction : Floating → Bool
  | .finite value => value.den ≠ 1
  | _ => false

/-- Whether a decimal of so many bits is not a whole number. A unit too large for the type holds
every value of it, so only 0 is whole then. -/
def decimalFraction {bits : Nat} (scale : Int) (unscaled : Native bits) : Bool :=
  if (10 : Int) ^ scale.natAbs < 2 ^ (bits - 1) then unscaled.val.tmod (10 ^ scale.natAbs) ≠ 0
  else unscaled.val ≠ 0

/-- Per value, whether it has a fraction, where the type has any. -/
def plainFractions : (type : Plain) → List (Option type.Carrier) → Option (List Bool)
  | .float16, values | .float32, values | .float64, values =>
      some (values.map fun value => value.any Floating.hasFraction)
  | .decimal32 _ scale, values => some (values.map fun value => value.any (decimalFraction scale))
  | .decimal64 _ scale, values => some (values.map fun value => value.any (decimalFraction scale))
  | .decimal128 _ scale, values => some (values.map fun value => value.any (decimalFraction scale))
  | .decimal256 _ scale, values => some (values.map fun value => value.any (decimalFraction scale))
  | _, _ => none

section Arrays

variable (canCastTypes : DataType → DataType → Bool) (sources : Sources)

/-- `droppedFractions` with fuel for the depth of the array and the type. -/
def droppedWithin : Nat → Column → DataType → Option (List Bool)
  | 0, _, _ => none
  | fuel + 1, col, target =>
      if !dropsFraction canCastTypes sources col.dataType target then none
      else
        match col, target with
        | .runEndEncoded _ _ runEnds offset rows values, target =>
            -- Into another run-end encoding the runs stay, and only their values are cast.
            let target := match target with
              | .runEndEncoded _ _ value => value
              | target => target
            (droppedWithin fuel values target).map fun flags =>
              (List.range rows).map fun row => flags.getD (physicalIndex runEnds offset row) false
        | col, .runEndEncoded _ _ value => droppedWithin fuel col value
        | .union ids children offsets typeIds, target =>
            (unionChild canCastTypes ids children.fields target).bind fun child =>
              children.toList[child.place]?.bind fun values =>
                (droppedWithin fuel values target).map fun flags =>
                  typeIds.mapIdx fun row id =>
                    id = child.id &&
                      flags.getD (offsets.elim row fun starts => starts.getD row 0) false
        | .dictionary _ keys values, target =>
            (droppedWithin fuel values target).map fun flags =>
              if !flags.contains true then keys.map fun _ => false
              else keys.map fun key => key.any fun key => flags.getD key false
        | col, .dictionary _ value => droppedWithin fuel col value
        | .list _ layout nulls values, .list _ _ item =>
            (droppedWithin fuel values item).map (perRow nulls layout.ranges)
        | .list _ layout _ values, target =>
            if layout.kind = .fixedSizeList 1 then droppedWithin fuel values target else none
        | col, .list kind _ item => if wraps kind then droppedWithin fuel col item else none
        | .map _ _ _ _ offsets nulls entryNulls keys values, .map _ entries _ =>
            (keyValue entries).map fun target =>
              let ofKeys := droppedWithin fuel keys target.1
              let ofValues := droppedWithin fuel values target.2
              perRow nulls (windows offsets) ((List.range keys.length).map fun entry =>
                unmasked entryNulls entry &&
                  (ofKeys.any (fun flags => flags.getD entry false) ||
                    ofValues.any fun flags => flags.getD entry false))
        | .struct rows nulls columns, .struct fields =>
            let dropped := (structPairs columns.fields fields).filterMap fun pair =>
              columns.toList[pair.1]?.bind fun column => droppedWithin fuel column pair.2
            some ((List.range rows).map fun row =>
              unmasked nulls row && dropped.any fun flags => flags.getD row false)
        | .plain type values, _ => plainFractions type values
        | _, _ => none

/-- Per row, whether casting an array drops a fraction; `none` when the two types cannot do that. -/
def droppedFractions (col : Column) (target : DataType) : Option (List Bool) :=
  droppedWithin canCastTypes sources (col.depth + target.depth) col target

/-- Where the two types cannot, nothing is looked for. -/
theorem droppedWithin_off {fuel : Nat} {col : Column} {target : DataType}
    (off : dropsFraction canCastTypes sources col.dataType target = false) :
    droppedWithin canCastTypes sources (fuel + 1) col target = none := by
  unfold droppedWithin
  rw [off]
  rfl

end Arrays

/-- A float or a decimal that is not a whole number and lands in an integer, at any depth. -/
def fractionsDropped (canCastTypes : DataType → DataType → Bool) (col : Column)
    (target : DataType) : Option (List Bool) :=
  droppedFractions canCastTypes .floatsAndDecimals col target

/-- The same for decimals alone. -/
def decimalFractionsDropped (canCastTypes : DataType → DataType → Bool) (col : Column)
    (target : DataType) : Option (List Bool) :=
  droppedFractions canCastTypes .decimals col target

end Ddi.Schema
