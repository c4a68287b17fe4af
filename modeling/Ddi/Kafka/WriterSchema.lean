/-
What a writer schema's text says of it, and the Arrow rows its messages decode into:
their types, their values, and the form the target reads them in.
-/

import Ddi.Lib.Assoc

namespace Ddi.Kafka.Decode

/-! ### The schema as JSON -/

inductive Json
  | null
  | bool (value : Bool)
  /-- A number, when it is a whole one of at least 0. -/
  | number (whole : Option Nat)
  | string (text : String)
  | array (items : List Json)
  /-- An object's keys, each once, and their values in the same order. -/
  | object (keys : List String) (values : List Json)

namespace Json

def get (key : String) : Json → Option Json
  | object keys values => (keys.zip values).lookup key
  | _ => none

def asStr : Json → Option String
  | string text => some text
  | _ => none

def asU64 : Json → Option Nat
  | number whole => whole
  | _ => none

def isRecord : Option Json → Bool
  | some (string text) => text == "record" || text == "error"
  | _ => false

end Json

/-- Whether the writer schema is a record at its top level; otherwise what it is. -/
def topLevelRecord (schema : Except String Json) : Except String Unit :=
  match schema with
  | .error error => .error ("not JSON (" ++ error ++ ")")
  | .ok (.object keys values) =>
      match (Json.object keys values).get "type" with
      | some (.string text) =>
          if text = "record" ∨ text = "error" then .ok () else .error ("of type " ++ text)
      | _ => .error "of a nested type"
  | .ok (.array _) => .error "a union"
  | .ok (.string text) => .error ("of type " ++ text)
  | .ok _ => .error "not a schema"

/-- A named type: its name, and its namespace when it has one. -/
abbrev Named := String × Option String

/-- What the walk over an object does with the value at one of its keys. -/
inductive Visit
  | fields
  | type
  | none
  deriving DecidableEq

/-- The key a type's inner types stand under, by the type's own kind. -/
def visits (kind : Option Json) (key : String) : Visit :=
  match kind with
  | some (.string text) =>
      if text = "record" ∨ text = "error" then (if key = "fields" then .fields else .none)
      else if text = "array" then (if key = "items" then .type else .none)
      else if text = "map" then (if key = "values" then .type else .none)
      else .none
  | some (.object _ _) | some (.array _) => if key = "type" then .type else .none
  | _ => .none

abbrev Fixed := Nat × Option String

/-- The `fixed` type an object defines, its namespace its own or the enclosing type's. -/
def fixedHere (object : Json) (namespaced : Option String) : Option (Named × Fixed) :=
  if (object.get "type").bind Json.asStr = some "fixed" then
    match (object.get "size").bind Json.asU64, (object.get "name").bind Json.asStr with
    | some size, some name =>
        some ((name, namespaced), (size, (object.get "logicalType").bind Json.asStr))
    | _, _ => none
  else none

mutual

/-- Every `fixed` type the schema defines, by name, with its size and logical type. -/
def namedFixed (enclosing : Option String) : Json → List (Named × Fixed) → List (Named × Fixed)
  | .array branches, found => namedFixedAll enclosing branches found
  | .object keys values, found =>
      let here := Json.object keys values
      let own := ((here.get "namespace").bind Json.asStr).or enclosing
      match fixedHere here own with
      | some (name, fixed) => Assoc.put name fixed found
      | none =>
          -- A record's fields are read in its own namespace, anything else in the enclosing one.
          namedFixedUnder (if Json.isRecord (here.get "type") then own else enclosing)
            (here.get "type") keys values found
  | _, found => found

def namedFixedAll (enclosing : Option String) :
    List Json → List (Named × Fixed) → List (Named × Fixed)
  | [], found => found
  | item :: items, found => namedFixedAll enclosing items (namedFixed enclosing item found)

/-- The inner types of an object of this kind, each key of it paired with its value. -/
def namedFixedUnder (enclosing : Option String) (kind : Option Json) :
    List String → List Json → List (Named × Fixed) → List (Named × Fixed)
  | key :: keys, value :: values, found =>
      let next := match visits kind key with
        | .fields =>
            match value with
            | .array fields => namedFixedFields enclosing fields found
            | _ => found
        | .type => namedFixed enclosing value found
        | .none => found
      namedFixedUnder enclosing kind keys values next
  | _, _, found => found

def namedFixedFields (enclosing : Option String) :
    List Json → List (Named × Fixed) → List (Named × Fixed)
  | [], found => found
  | field :: fields, found =>
      let next := match field with
        | .object keys values => namedFixedTypeOf enclosing keys values found
        | _ => found
      namedFixedFields enclosing fields next

/-- A record field's own type. -/
def namedFixedTypeOf (enclosing : Option String) :
    List String → List Json → List (Named × Fixed) → List (Named × Fixed)
  | key :: keys, value :: values, found =>
      if key = "type" then namedFixed enclosing value found
      else namedFixedTypeOf enclosing keys values found
  | _, _, found => found

end

/-- The `fixed(16)` types of the schema that are uuids. -/
def fixedUuids (schema : Except String Json) : List Named :=
  match schema with
  | .error _ => []
  | .ok schema =>
      ((namedFixed none schema []).filter fun entry =>
        entry.2.1 == 16 && entry.2.2 == some "uuid").map Prod.fst

/-! ### Arrow types and values -/

mutual

inductive DataType
  | null
  | utf8
  | int32
  | int64
  | timestampMicrosUtc
  | binary
  | fixedSizeBinary (size : Nat)
  | dictionary (values : DataType)
  | struct (fields : List Field)
  | list (item : Field)
  /-- The entries' name, their key and value, and whether they are sorted. -/
  | map (entries : String) (key value : Field) (sorted : Bool)
  /-- A dense union: the branches' type ids, and the branches in the same order. -/
  | union (typeIds : List Int) (branches : List Field)
  /-- Any other type, none of whose values is changed. -/
  | other (name : String)

inductive Field
  | mk (name : String) (dataType : DataType) (nullable : Bool) (metadata : List (String × String))

end

namespace Field

def name : Field → String
  | mk name _ _ _ => name

def dataType : Field → DataType
  | mk _ dataType _ _ => dataType

def nullable : Field → Bool
  | mk _ _ nullable _ => nullable

def metadata : Field → List (String × String)
  | mk _ _ _ metadata => metadata

end Field

inductive Value
  | null
  | text (text : String)
  | int (value : Int)
  | bytes (bytes : List UInt8)
  | record (values : List Value)
  | items (values : List Value)
  | entries (keys values : List Value)
  | branch (typeId : Int) (value : Value)
  | other (text : String)

/-- Rows of one schema: `RecordBatch`. -/
structure RecordBatch where
  fields : List Field
  rows : List (List Value)

def hexDigit (digit : Nat) : Char :=
  if digit < 10 then Char.ofNat (48 + digit) else Char.ofNat (87 + digit)

def hex (byte : UInt8) : String :=
  String.ofList [hexDigit (byte.toNat / 16), hexDigit (byte.toNat % 16)]

/-- `xxxxxxxx-xxxx-xxxx-xxxx-xxxxxxxxxxxx`, lowercase. -/
def hyphenated (bytes : List UInt8) : String :=
  let part := fun (first last : Nat) => String.join (((bytes.take last).drop first).map hex)
  "-".intercalate [part 0 4, part 4 6, part 6 8, part 8 10, part 10 16]

def isUuid (metadata : List (String × String)) (uuids : List Named) : Bool :=
  metadata.lookup "logicalType" == some "uuid" ||
    match metadata.lookup "avro.name" with
    | some name => uuids.contains (name, metadata.lookup "avro.namespace")
    | none => false

variable (uuids : List Named)

mutual

/-- The type a decoded column has in the target. -/
def normaliseType (metadata : List (String × String)) : DataType → DataType
  | .dictionary .utf8 => .utf8
  | .fixedSizeBinary 16 =>
      if isUuid metadata uuids then .utf8 else .fixedSizeBinary 16
  | .struct fields => .struct (normaliseFields fields)
  | .list (.mk _ dataType nullable own) =>
      .list (.mk "element" (normaliseType own dataType) nullable [])
  | .map _ (.mk _ keyType _ keyOwn) (.mk _ valueType nullable valueOwn) sorted =>
      .map "key_value" (.mk "key" (normaliseType keyOwn keyType) false [])
        (.mk "value" (normaliseType valueOwn valueType) nullable []) sorted
  | .union typeIds branches => .union typeIds (normaliseFields branches)
  | dataType => dataType

/-- A field keeps its name and nullability, and loses the Avro metadata. -/
def normaliseFields : List Field → List Field
  | [] => []
  | .mk name dataType nullable own :: fields =>
      .mk name (normaliseType own dataType) nullable [] :: normaliseFields fields

end

mutual

/-- A value of this type in the form the target reads. -/
def normaliseValue (metadata : List (String × String)) : DataType → Value → Value
  | .fixedSizeBinary 16, .bytes bytes =>
      if isUuid metadata uuids then .text (hyphenated bytes) else .bytes bytes
  | .struct fields, .record values => .record (normaliseRow fields values)
  | .list (.mk _ dataType _ own), .items values =>
      .items (values.map (normaliseValue own dataType))
  | .map _ (.mk _ keyType _ keyOwn) (.mk _ valueType _ valueOwn) _, .entries keys values =>
      .entries (keys.map (normaliseValue keyOwn keyType))
        (values.map (normaliseValue valueOwn valueType))
  | .union typeIds branches, .branch typeId value =>
      .branch typeId (normaliseBranch typeIds branches typeId value)
  -- A dictionary's value is its text, whichever way it is kept.
  | _, value => value

def normaliseRow : List Field → List Value → List Value
  | .mk _ dataType _ own :: fields, value :: values =>
      normaliseValue own dataType value :: normaliseRow fields values
  | _, _ => []

def normaliseBranch : List Int → List Field → Int → Value → Value
  | own :: typeIds, .mk _ dataType _ metadata :: branches, typeId, value =>
      if own = typeId then normaliseValue metadata dataType value
      else normaliseBranch typeIds branches typeId value
  | _, _, _, value => value

end

/-- The batch with every column normalised. -/
def normalised (batch : RecordBatch) : RecordBatch where
  fields := normaliseFields uuids batch.fields
  rows := batch.rows.map (normaliseRow uuids batch.fields)

/-! ### Types whose values take no bytes -/

mutual

def zeroWidth : DataType → Bool
  | .null => true
  | .fixedSizeBinary size => size == 0
  | .struct fields => zeroWidthFields fields
  | _ => false

/-- Whether every field's values take no bytes: a nullable one's branch index takes one. -/
def zeroWidthFields : List Field → Bool
  | [] => true
  | .mk _ .null _ _ :: fields => zeroWidthFields fields
  | .mk _ dataType nullable _ :: fields =>
      (zeroWidth dataType && !nullable) && zeroWidthFields fields

end

def zeroWidthField (field : Field) : Bool :=
  zeroWidthFields [field]

mutual

/-- The first array in the type whose items take no bytes, by its path. -/
def zeroWidthItemsIn (path : String) : DataType → Option String
  | .list (.mk name dataType nullable own) =>
      if zeroWidthField (.mk name dataType nullable own) then some path
      else zeroWidthItemsIn (path ++ "[]") dataType
  | .struct fields => zeroWidthItemsAt path fields
  | .map _ (.mk keyName keyType _ _) (.mk valueName valueType _ _) _ =>
      (zeroWidthItemsIn (path ++ "." ++ keyName) keyType).or
        (zeroWidthItemsIn (path ++ "." ++ valueName) valueType)
  | .union _ branches => zeroWidthItemsAmong path branches
  | _ => none

def zeroWidthItemsAt (path : String) : List Field → Option String
  | [] => none
  | .mk name dataType _ _ :: fields =>
      (zeroWidthItemsIn (path ++ "." ++ name) dataType).or (zeroWidthItemsAt path fields)

def zeroWidthItemsAmong (path : String) : List Field → Option String
  | [] => none
  | .mk _ dataType _ _ :: fields =>
      (zeroWidthItemsIn path dataType).or (zeroWidthItemsAmong path fields)

end

def zeroWidthItems (fields : List Field) : Option String :=
  fields.findSome? fun field => zeroWidthItemsIn field.name field.dataType

end Ddi.Kafka.Decode
