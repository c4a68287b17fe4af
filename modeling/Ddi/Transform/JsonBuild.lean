/-
Trino's JSON constructors: what each value of a column is as JSON text, and the objects and arrays
that are put together of them.
-/

import Ddi.Kafka.ArrowTypes
import Ddi.Transform.JavaDouble
import Ddi.Transform.JavaHashMap

namespace Ddi.JsonBuild

open Binary (Format binary32 binary64)
open Ddi.Jsonval (Json quote separated javaDouble javaFloat javaBigdecimal javaHashmapOrder)
open Ddi.Kafka.Conform (TimeUnit)

/-! ### Columns -/

/-- What a text is known to be: a value of Trino's JSON type, or text read by `FORMAT JSON`. -/
inductive Marker
  | typed
  | formatted
  deriving DecidableEq

/-- A field, but for the type, which its column tells. -/
structure Field where
  name : String
  nullable : Bool
  marker : Option Marker
  deriving DecidableEq

/-- A value of a float column. A float is told by the double it converts to. -/
inductive Real (format : Format)
  | nan
  | number (double : Double.Binary64) (holds : format.Holds double.magnitude)

mutual

/-- An array, of the types that are told apart. A decimal is its unscaled number, and a dictionary
the plain array that a cast makes of it. -/
inductive Column
  | null (rows : Nat)
  | boolean (values : List (Option Bool))
  | integer (values : List (Option Int))
  | float32 (values : List (Option (Real binary32)))
  | float64 (values : List (Option (Real binary64)))
  | decimal128 (scale : Int) (values : List (Option Int))
  | decimal256 (scale : Int) (values : List (Option Int))
  | text (values : List (Option String))
  | timestamp (unit : TimeUnit) (zoned : Bool) (values : List (Option Int))
  | time (values : List (Option Int))
  /-- Dates, durations and intervals. -/
  | span (values : List (Option Int))
  | list (item : Field) (offsets : List Nat) (valid : List Bool) (values : Column)
  | fixedSizeList (item : Field) (size : Nat) (valid : List Bool) (values : Column)
  | struct (valid : List Bool) (columns : Columns)
  | dictionary (plain : Column)
  | other (rows : Nat)

inductive Columns
  | nil
  | cons (field : Field) (column : Column) (rest : Columns)

end

def Column.length : Column → Nat
  | .null rows | .other rows => rows
  | .boolean values => values.length
  | .integer values | .decimal128 _ values | .decimal256 _ values | .timestamp _ _ values
  | .time values | .span values => values.length
  | .float32 values => values.length
  | .float64 values => values.length
  | .text values => values.length
  | .list _ _ valid _ | .fixedSizeList _ _ valid _ | .struct valid _ => valid.length
  | .dictionary plain => plain.length

def Column.isText : Column → Bool
  | .text _ => true
  | _ => false

def Column.isNull : Column → Bool
  | .null _ => true
  | _ => false

/-- A list whose elements are JSON-typed. -/
def Column.isJsonList : Column → Bool
  | .list item _ _ _ => item.marker == some .typed
  | _ => false

/-- The texts of a column, row by row. -/
abbrev Texts := List (Option String)

/-- What Arrow, chrono and Rust's `Debug` do. -/
structure Arrow where
  /-- A cast to text. -/
  asText : Column → Except String Texts
  typeName : Column → String
  /-- Seconds and nanoseconds since 1970 as a date and a time of day. -/
  dateTime : Int → Nat → Option String
  debug : String → String
  /-- Rust's spelling of a character in a message. -/
  shown : Char → String

inductive Fault
  | execution (text : String)
  | plan (text : String)
  | other (text : String)
  deriving DecidableEq

/-- As the error is displayed. -/
def Fault.text : Fault → String
  | .execution text => "Execution error: " ++ text
  | .plan text => "Error during planning: " ++ text
  | .other text => text

/-! ### Texts -/

def bracketed (items : List String) : String :=
  String.ofList ('[' :: (separated (items.map String.toList) ++ [']']))

/-- Each member is its quoted key and its value. -/
def braced (members : List (String × String)) : String :=
  String.ofList ('\x7b' :: (separated (members.map fun member =>
    member.1.toList ++ ':' :: member.2.toList) ++ ['\x7d']))

/-- A number, unless it is none: then the word for it, as a string. -/
def doubleJson (java : String) : String :=
  if java = "NaN" ∨ "Infinity".toList.isSuffixOf java.toList then quote java else java

def javaDoubleText : Real binary64 → String
  | .nan => "NaN"
  | .number double _ => String.ofList (javaDouble double)

def javaFloatText : Real binary32 → String
  | .nan => "NaN"
  | .number float _ => String.ofList (javaFloat float)

def boolText (value : Bool) : String := if value then "true" else "false"

/-- A decimal of 128 bits, whose sign is the number's. -/
def decimal128Text (scale : Int) (value : Int) : String :=
  String.ofList (javaBigdecimal (decide (value < 0)) (Nat.toDigits 10 value.natAbs) scale)

/-- A decimal of 256 bits, whose sign is the first character of its text. -/
def decimal256Text (scale : Int) (value : Int) : String :=
  match (ToString.toString value).toList with
  | '-' :: digits => String.ofList (javaBigdecimal true digits scale)
  | digits => String.ofList (javaBigdecimal false digits scale)

/-- A JSON number cast to varchar: an integer keeps its digits, and any other is a mantissa and an
exponent. -/
def jsonNumberAsVarchar (text : String) : String :=
  if !(text.toList.any fun c => c == '.' || c == 'e' || c == 'E') then text
  else
    match Jsonval.parseF64 text with
    | none => text
    | some double =>
        match double.magnitude with
        | .infinite => text
        | .finite number =>
            let sign := if double.negative then ['-'] else []
            if number = 0 then String.ofList (sign ++ "0E0".toList)
            else
              let (digits, exponent) := Jsonval.scientific number
              let mantissa :=
                if digits.tail.isEmpty then digits.take 1 else digits.take 1 ++ '.' :: digits.tail
              String.ofList (sign ++ mantissa ++ 'E' :: Jsonval.intText exponent)

/-- Digits of a number, with zeros before them. -/
def padded (width number : Nat) : List Char :=
  let digits := Nat.toDigits 10 number
  List.replicate (width - digits.length) '0' ++ digits

/-- Trino's spelling of a timestamp. -/
def timestampText (arrow : Arrow) (value : Int) (unit : TimeUnit) (zoned : Bool) :
    Option String := do
  let (secs, nanos, digits) : Int × Nat × Nat := match unit with
    | .second => (value, 0, 0)
    | .millisecond => (value / 1000, (value % 1000 * 1000000).toNat, 3)
    | .microsecond => (value / 1000000, (value % 1000000 * 1000).toNat, 6)
    | .nanosecond => (value / 1000000000, (value % 1000000000).toNat, 9)
  let digits := if zoned then 3 else digits
  let text ← arrow.dateTime secs nanos
  let text := if 0 < digits then text ++ String.ofList ('.' :: (padded 9 nanos).take digits) else text
  return if zoned then text ++ " UTC" else text

/-! ### Rendering -/

/-- Where a value goes: into a constructor, or under `CAST(.. AS JSON)`. -/
inductive Mode
  | member
  | cast
  deriving DecidableEq

/-- From each offset to the next. -/
def windows (offsets : List Nat) : List (Nat × Nat) := offsets.zip offsets.tail

/-- What a column holds in a row. -/
def inRow {α : Type} (values : List (Option α)) (row : Nat) : Option α := (values[row]?).join

/-- What stands at a place; a NULL is `null`. -/
def orNull (text : Option String) : String := text.getD "null"

section Rendering

variable (arrow : Arrow) (who : String)

def bad (text : String) : Fault := .execution s!"{who}: {text}"

def asText (column : Column) : Except Fault Texts :=
  match arrow.asText column with
  | .ok texts => .ok texts
  | .error error =>
      .error (bad who s!"could not render {arrow.typeName column} as text: {error}")

/-- The varchar of a JSON value; a container has none. -/
def varchar : Json → Except String (Option String)
  | .null => .ok none
  | .bool value => .ok (some (boolText value))
  | .string text => .ok (some text)
  | .number text => .ok (some (jsonNumberAsVarchar text))
  | .array _ => .error "array"
  | .object _ => .error "object"

def containerText (what : String) : String :=
  s!"a JSON-typed {what} cannot be cast to varchar, in Starburst either. Write " ++
    "json_format(<value>) to get its text, and json_format(<value>) FORMAT JSON to embed it in " ++
    "a constructor."

/-- One row of `json_to_varchar`. -/
def varcharAt (row : Nat) : Option String → Except Fault (Option String)
  | none => .ok none
  | some text =>
      match Jsonval.parse arrow.shown text with
      | .error error => .error (bad who s!"row {row}: not valid JSON: {error}")
      | .ok doc =>
          match varchar doc with
          | .ok text => .ok text
          | .error what => .error (bad who (containerText what))

/-- Trino's cast of a JSON-typed column to varchar. -/
def jsonToVarchar (column : Column) : Except Fault Texts := do
  let texts ← asText arrow who column
  texts.zipIdx.mapM fun (text, row) => varcharAt arrow who row text

def timestampAt (unit : TimeUnit) (zoned : Bool) (row : Nat) :
    Option Int → Except Fault (Option String)
  | none => .ok none
  | some value =>
      match timestampText arrow value unit zoned with
      | some text => .ok (some (quote text))
      | none => .error (bad who s!"row {row}: timestamp out of range")

/-- The rows of a list, of its elements' texts. -/
def listTexts (ranges : List (Nat × Nat)) (valid : List Bool) (elements : Texts) : Texts :=
  (ranges.zip valid).map fun ((start, stop), held) =>
    if held then some (bracketed (((elements.take stop).drop start).map orNull)) else none

/-- The rows of a struct, of the texts under each quoted name. -/
def structTexts (valid : List Bool) (columns : List (String × Texts)) : Texts :=
  valid.zipIdx.map fun (held, row) =>
    if held then
      some (braced (columns.map fun (key, texts) => (key, orNull (inRow texts row))))
    else none

/-- A fixed-size list cast to a list. -/
def fixedOffsets (size rows : Nat) : List Nat := (List.range (rows + 1)).map (· * size)

def arrayRefused (position : Nat) : Fault :=
  bad who (s!"member #{position} is an array, which Starburst would cast to varchar text here. " ++
    "Write json_format(CAST(<value> AS JSON)) FORMAT JSON to embed it as a JSON array.")

mutual

/-- Every row of a column as JSON text, a NULL as none. -/
def render (mode : Mode) (field : Field) (position : Nat) : Column → Except Fault Texts
  | .null rows => .ok (List.replicate rows none)
  | .boolean values => .ok (values.map fun value => value.map boolText)
  | .integer values => asText arrow who (.integer values)
  | .float32 values => .ok (values.map fun value => value.map fun real =>
      doubleJson (javaFloatText real))
  | .float64 values => .ok (values.map fun value => value.map fun real =>
      doubleJson (javaDoubleText real))
  | .decimal128 scale values => .ok (values.map fun value => value.map (decimal128Text scale))
  | .decimal256 scale values => .ok (values.map fun value => value.map (decimal256Text scale))
  | .text values =>
      if field.marker = some .typed ∧ mode = .member then
        match jsonToVarchar arrow who (.text values) with
        | .ok texts => .ok (texts.map fun text => text.map quote)
        | .error error =>
            .error (.execution s!"{error.text} (member #{position} is JSON-typed)")
      else do
        let texts ← asText arrow who (.text values)
        -- Plain text is a string; text that holds JSON is embedded as it is.
        return texts.map fun text => text.map fun text =>
          if field.marker.isSome then text else quote text
  | .timestamp unit zoned values =>
      if mode = .cast ∧ zoned = true then
        .error (bad who ("a timestamp with time zone cannot be cast to JSON, in Starburst " ++
          "either. Cast it to VARCHAR first."))
      else values.zipIdx.mapM fun (value, row) => timestampAt arrow who unit zoned row value
  | .time values =>
      if mode = .cast then
        .error (bad who ("a time cannot be cast to JSON, in Starburst either. Cast it to " ++
          "VARCHAR first."))
      else do
        let texts ← asText arrow who (.time values)
        return texts.map fun text => text.map quote
  | .span values => do
      let texts ← asText arrow who (.span values)
      return texts.map fun text => text.map quote
  | .list item offsets valid values =>
      if mode = .cast then do
        let elements ← render .cast item 1 values
        return listTexts (windows offsets) valid elements
      else .error (arrayRefused who position)
  | .fixedSizeList item size valid values =>
      if mode = .cast then do
        let elements ← render .cast item 1 values
        return listTexts (windows (fixedOffsets size valid.length)) valid elements
      else .error (arrayRefused who position)
  | .struct valid columns =>
      if mode = .cast then do
        let texts ← renderColumns position columns
        return structTexts valid texts
      else
        .error (bad who (s!"member #{position} is a row, which Starburst would cast to varchar " ++
          "text here. Write json_format(CAST(<value> AS JSON)) FORMAT JSON to embed it as a " ++
          "JSON object."))
  | .dictionary plain => render mode { field with nullable := true } position plain
  | .other rows =>
      .error (bad who (s!"a value of type {arrow.typeName (.other rows)} cannot be rendered as " ++
        "JSON. Cast it to a text, numeric, boolean, date or timestamp type in the model first."))

def renderColumns (position : Nat) : Columns → Except Fault (List (String × Texts))
  | .nil => .ok []
  | .cons field column rest => do
      let texts ← render .cast field position column
      let others ← renderColumns position rest
      return (quote field.name, texts) :: others

end

end Rendering

end Ddi.JsonBuild
