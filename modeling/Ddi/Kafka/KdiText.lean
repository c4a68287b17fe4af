/-
kafka-delta-ingest's text of values going into STRING columns: what a row's writer schema had
keys for, where a value stood in the JSON made of it, and the text.
-/

import Ddi.Kafka.ArrowTypes
import Ddi.Lib.JsonText
import Ddi.Lib.Ordered
import Mathlib.Data.String.Basic

namespace Ddi.Kafka.Conform

/-- What is used of Arrow and of Rust's and serde_json's floats. -/
structure Arrow where
  /-- A type as the reasons name it. -/
  typeName : DataType → String
  /-- There is a cast between these types. -/
  can : DataType → PlainType → Bool
  /-- A value cast between plain types, where it converts. -/
  cast : PlainType → PlainType → Value → Option Value
  /-- A nested value cast into a plain type, and whether that, cast back, is what it was. -/
  render : DataType → PlainType → Cell → Option (Value × Bool)
  /-- A decimal's unscaled value read from a text, into this decimal type. -/
  parseDecimal : PlainType → String → Option Int
  isFinite : Nat → Bool
  /-- A double is at least this power of ten, the sign aside. -/
  isAtLeastPowerOfTen : Nat → Int → Bool
  /-- The shortest text that reads back as the same double. -/
  display : Nat → String
  /-- A double as a JSON number, which infinities and NaN are not. -/
  number : Nat → Option String

/-! ### The writer's shape -/

mutual

/-- What a writer schema's JSON had keys for. -/
inductive Shape
  | record (fields : Shapes)
  | list (item : Shape)
  | map (value : Shape)
  | union (branches : Shapes)
  /-- The type as decoded, and the size of the `fixed` a decimal is written on. -/
  | leaf (arrow : DataType) (fixed : Option Nat)

inductive Shapes
  | nil
  | cons (name : String) (shape : Shape) (rest : Shapes)

end

def PlainType.isDecimal : PlainType → Bool
  | .decimal32 _ _ | .decimal64 _ _ | .decimal128 _ _ | .decimal256 _ _ => true
  | _ => false

def Shapes.get (name : String) : Shapes → Option Shape
  | .nil => none
  | .cons own shape rest => if own = name then some shape else rest.get name

mutual

/-- The shape of a decoded type at a path; `fixed` is the size of the `fixed` that the decimals
at a path are written on. -/
def Shape.field (fixed : String → Option Nat) (path : String) : DataType → Shape
  | .plain type => .leaf (.plain type) (if type.isDecimal then fixed path else none)
  | .struct fields => .record (Shapes.fields fixed path fields)
  | .list .list item _ => .list (Shape.field fixed s!"{path}[]" item)
  | .list .largeList item _ => .list (Shape.field fixed s!"{path}[]" item)
  | .list kind item nullable => .leaf (.list kind item nullable) none
  | .map _ value _ => .map (Shape.field fixed (path ++ "\x7b\x7d") value)
  | .union name type rest =>
      .union (.cons name (Shape.field fixed s!"{path} (union branch {name})" type)
        (Shapes.branches fixed path rest))

def Shapes.fields (fixed : String → Option Nat) (path : String) : Fields → Shapes
  | .nil => .nil
  | .cons name type _ rest =>
      .cons name (Shape.field fixed s!"{path}.{name}" type) (Shapes.fields fixed path rest)

def Shapes.branches (fixed : String → Option Nat) (path : String) : Fields → Shapes
  | .nil => .nil
  | .cons name type _ rest =>
      .cons name (Shape.field fixed s!"{path} (union branch {name})" type)
        (Shapes.branches fixed path rest)

end

/-- The shape of a writer schema's rows. -/
def Shape.of (fixed : String → Option Nat) : Fields → Shape
  | fields => .record (columns fields)
where
  columns : Fields → Shapes
    | .nil => .nil
    | .cons name type _ rest => .cons name (Shape.field fixed name type) (columns rest)

namespace Shape

def fieldNamed (name : String) : Shape → Option Shape
  | .record fields => fields.get name
  | _ => none

def element : Shape → Option Shape
  | .list item => some item
  | _ => none

def value : Shape → Option Shape
  | .map value => some value
  | _ => none

/-- A branch of a union. A value of another type, read into a union, is that branch itself. -/
def branch (name : String) : Shape → Option Shape
  | .union branches => branches.get name
  | plain => some plain

def fixed : Shape → Option Nat
  | .leaf _ fixed => fixed
  | _ => none

end Shape

/-- The shape put at a name. -/
def Shapes.set (name : String) (shape : Shape) : Shapes → Shapes
  | .nil => .cons name shape .nil
  | .cons own mine rest =>
      if own = name then .cons own shape rest else .cons own mine (rest.set name shape)

mutual

/-- Another shape's fields added to this one's; where both have one, this one's is kept. -/
def Shape.merge (mine : Shape) : Shape → Shape
  | .record other =>
      match mine with
      | .record fields => .record (Shapes.merge fields other)
      | mine => mine
  | .union other =>
      match mine with
      | .union branches => .union (Shapes.merge branches other)
      | mine => mine
  | .list other =>
      match mine with
      | .list item => .list (item.merge other)
      | mine => mine
  | .map other =>
      match mine with
      | .map value => .map (value.merge other)
      | mine => mine
  | .leaf _ _ => mine

def Shapes.merge (mine : Shapes) : Shapes → Shapes
  | .nil => mine
  | .cons name shape rest =>
      match mine.get name with
      | some own => Shapes.merge (mine.set name (own.merge shape)) rest
      | none => Shapes.merge (mine.set name shape) rest

end

/-! ### Where a value stood -/

/-- Where one value stood in the JSON: whether its key was there, and the writer schema's type
of it, which a value that no writer field holds has none of. -/
structure At where
  key : Bool
  shape : Option Shape

namespace At

/-- Not in the JSON at all. -/
def absent : At := { key := false, shape := none }

def column (writer : Shape) (name : String) : At where
  key := (writer.fieldNamed name).isSome
  shape := writer.fieldNamed name

/-- A column that copies the column `source` under another name. -/
def copy (writer : Shape) (source : String) : At where
  key := false
  shape := writer.fieldNamed source

def child (here : At) (name : String) : At where
  key := here.shape.isNone || (here.shape.bind (·.fieldNamed name)).isSome
  shape := here.shape.bind (·.fieldNamed name)

def element (here : At) : At where
  key := true
  shape := here.shape.bind (·.element)

def value (here : At) : At where
  key := true
  shape := here.shape.bind (·.value)

def branch (here : At) (name : String) : At where
  key := here.key
  shape := here.shape.bind (·.branch name)

end At

/-- The elements of an array of these were coerced too: never arrays or maps. -/
def reachesElements : DataType → Bool
  | .list .list _ _ | .list .largeList _ _ | .list (.fixedSizeList _) _ _ | .map _ _ _ => false
  | _ => true

mutual

/-- The type holds a STRING in which a null could become the text. -/
def takesNullText : DataType → Bool → Bool
  | .plain .utf8, reach => reach
  | .struct fields, reach => reach && fieldsTakeNullText fields
  | .list .list item _, reach => reach && takesNullText item (reachesElements item)
  | .list .largeList item _, reach => reach && takesNullText item (reachesElements item)
  | _, _ => false

def fieldsTakeNullText : Fields → Bool
  | .nil => false
  | .cons _ type _ rest => takesNullText type true || fieldsTakeNullText rest

end

mutual

def hasMap : DataType → Bool
  | .map _ _ _ => true
  | .struct fields => fieldsHaveMap fields
  | .list .list item _ | .list .largeList item _ | .list (.fixedSizeList _) item _ => hasMap item
  | _ => false

def fieldsHaveMap : Fields → Bool
  | .nil => false
  | .cons _ type _ rest => hasMap type || fieldsHaveMap rest

end

/-! ### The text -/

/-- A type that holds one value, and is not a dictionary's or null. -/
def isPlain : DataType → Bool
  | .plain .null => false
  | .plain (.dictionary _) => false
  | .plain _ => true
  | _ => false

/-- The value was converted from the type that its row's writer schema gave it. -/
def converted (type : DataType) : Option Shape → Bool
  | some (.leaf arrow _) => arrow ≠ type && isPlain arrow && isPlain type
  | _ => false

/-- The value in the type its row's writer schema gave it, where it is exactly one of that. -/
def asWritten (arrow : Arrow) (type : PlainType) (value : Value) (shape : Option Shape) :
    Option (PlainType × Value) :=
  if converted (.plain type) shape then
    match shape with
    | some (.leaf (.plain writer) _) =>
        match arrow.cast type writer value with
        | some written =>
            if arrow.cast writer type written = some value then some (writer, written) else none
        | none => none
    | _ => none
  else none

/-- The last so many bytes of a number in two's complement, the first one first. -/
def beBytes (width : Nat) (value : Int) : List Nat :=
  (List.range width).reverse.map fun place => (value / 256 ^ place % 256).toNat

/-- Without the leading bytes that only repeat the sign. -/
def minimalBytes : List Nat → List Nat
  | byte :: next :: rest =>
      if (byte = 0 ∧ next < 128) ∨ (byte = 255 ∧ 128 ≤ next) then minimalBytes (next :: rest)
      else byte :: next :: rest
  | bytes => bytes

/-- A decimal as the bytes it was written with: the fewest, or as many as its `fixed` has. -/
def decimalBytes (bytes : List Nat) (shape : Option Shape) : List Nat :=
  let minimal := minimalBytes bytes
  match shape.bind (·.fixed) with
  | some size =>
      if minimal.length < size then
        List.replicate (size - minimal.length) (if 128 ≤ minimal.headD 0 then 255 else 0) ++ minimal
      else minimal
  | none => minimal

def leBytes (value : Int) : List Nat := (beBytes 4 value).reverse

def avroDuration (months days millis : Int) : List Nat :=
  leBytes months ++ leBytes days ++ leBytes millis

def bytesText (bytes : List Nat) : String :=
  "[" ++ String.intercalate "," (bytes.map toString) ++ "]"

def quotedText (text : String) : String := String.ofList (JsonText.quoted text.toList)

def decimalWidth : PlainType → Nat
  | .decimal256 _ _ => 32
  | _ => 16

/-- A value of a plain type as JSON. -/
def leafJson (arrow : Arrow) (type : PlainType) (value : Value) (shape : Option Shape) :
    Except String String :=
  match type, value with
  | .other name, _ =>
      .error s!"a value of type {name} has no text kafka-delta-ingest could have written"
  | _, .boolean value => .ok (if value then "true" else "false")
  | _, .int value => .ok (toString value)
  | _, .float bits =>
      match arrow.number bits with
      | some text => .ok text
      | none =>
          .error (arrow.display bits ++ " is not a JSON number; kafka-delta-ingest could not " ++
            "read a message holding it (apache-avro ConvertF64ToJson) and dropped the message")
  | _, .text value => .ok (quotedText value)
  | _, .bytes value => .ok (bytesText value)
  | type, .decimal unscaled =>
      .ok (bytesText (decimalBytes (beBytes (decimalWidth type) unscaled) shape))
  | .interval .monthDayNano, .interval months days nanos =>
      .ok (bytesText (avroDuration months days (nanos / 1000000)))
  | _, .interval months days millis => .ok (bytesText (avroDuration months days millis))

/-- A value of a plain type as JSON, written as its writer schema typed it. -/
def plainJson (arrow : Arrow) (type : PlainType) (value : Value) (shape : Option Shape) :
    Except String String :=
  match type with
  | .dictionary inner => plainJson arrow inner value shape
  | type =>
      match asWritten arrow type value shape with
      | some (writer, written) => leafJson arrow writer written shape
      | none => leafJson arrow type value shape

/-- A value of a plain type as the text of a STRING: a text as it is. -/
def plainText (arrow : Arrow) (type : PlainType) (value : Value) (shape : Option Shape) :
    Except String String :=
  match type with
  | .dictionary inner => plainText arrow inner value shape
  | type =>
      match asWritten arrow type value shape with
      | some (_, .text text) => .ok text
      | some (writer, written) => leafJson arrow writer written shape
      | none =>
          match value with
          | .text text => .ok text
          | value => leafJson arrow type value shape

def commaSeparated (texts : List String) : String := String.intercalate "," texts

def entryText (name : String) (value : Except String String) : Except String String := do
  let text ← value
  return quotedText name ++ ":" ++ text

/-- An object, its keys in byte order; of one key the last value, or none where that has none. -/
def objectText (entries : List (String × Option (Except String String))) :
    Except String String := do
  let texts ← ((Ordered.collect entries).filterMap fun entry =>
    entry.2.map fun value => entryText entry.1 value).mapM id
  return "\x7b" ++ commaSeparated texts ++ "\x7d"

mutual

/-- A value that is not null as JSON, or as the text of a STRING, which a text is as it is. -/
def render (arrow : Arrow) (asText : Bool) : DataType → Cell → Option Shape → Except String String
  | .plain type, cell, shape =>
      match cell with
      | .plain (some value) =>
          if asText then plainText arrow type value shape else plainJson arrow type value shape
      | _ => .ok "null"
  | .list _ item _, cell, shape => do
      let texts ← cell.elements.mapM fun element =>
        if element.isNull then .ok "null"
        else render arrow false item element (shape.bind (·.element))
      return "[" ++ commaSeparated texts ++ "]"
  | .struct fields, cell, shape => objectText (renderFields arrow fields 0 cell shape)
  | .map key value _, cell, shape => do
      let keys ← cell.entries.mapM fun entry => render arrow true key entry.1 none
      objectText (keys.zip (cell.entries.map fun entry =>
        if entry.2.isNull then some (.ok "null")
        else some (render arrow false value entry.2 (shape.bind (·.value)))))
  | .union name type rest, cell, shape =>
      match cell with
      | .union 0 held =>
          if held.isNull then .ok "null"
          else render arrow asText type held (shape.bind (·.branch name))
      | .union (branch + 1) held => renderBranch arrow asText rest branch held shape
      | _ => .ok "null"

/-- The values of a record's keys; a null whose key the writer schema lacks has none. -/
def renderFields (arrow : Arrow) : Fields → Nat → Cell → Option Shape →
    List (String × Option (Except String String))
  | .nil, _, _, _ => []
  | .cons name type _ rest, place, cell, shape =>
      let child := cell.child place
      let stood := At.child { key := true, shape } name
      let value :=
        if child.isNull then if stood.key then some (.ok "null") else none
        else some (render arrow false type child stood.shape)
      (name, value) :: renderFields arrow rest (place + 1) cell shape

def renderBranch (arrow : Arrow) (asText : Bool) : Fields → Nat → Cell → Option Shape →
    Except String String
  | .nil, _, _, _ => .ok "null"
  | .cons name type _ rest, branch, held, shape =>
      match branch with
      | 0 =>
          if held.isNull then .ok "null"
          else render arrow asText type held (shape.bind (·.branch name))
      | branch + 1 => renderBranch arrow asText rest branch held shape

end

def json (arrow : Arrow) (type : DataType) (cell : Cell) (shape : Option Shape) :
    Except String String := render arrow false type cell shape

def text (arrow : Arrow) (type : DataType) (cell : Cell) (shape : Option Shape) :
    Except String String := render arrow true type cell shape

end Ddi.Kafka.Conform
