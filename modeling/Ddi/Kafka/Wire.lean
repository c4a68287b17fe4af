/-
A writer schema's records walked on the wire, value by value, without decoding them:
where a message's record ends, or why there is no well-formed record in it.
-/

import Ddi.Kafka.WriterSchema
import Ddi.Lib.Avro

namespace Ddi.Kafka.Decode

open Avro (Bytes)

/-- How one type's values lie on the wire; inner types by their index. -/
inductive Node
  | null
  | boolean
  | int
  | long
  | float
  | double
  | bytes
  | fixed (size : Nat)
  | enum
  | array (item : Nat)
  | map (value : Nat)
  | union (branches : List Nat)
  | record (fields : List Nat)

/-- What stands at an index of a vector whose last element stands first. -/
def placed {α : Type} : List α → Nat → Option α
  | [], _ => none
  | last :: earlier, index => if index = earlier.length then some last else placed earlier index

/-- How a writer schema's values lie on the wire. -/
structure Wire where
  /-- Every type, the last one first, so that a node's children are always after it. -/
  nodes : List Node
  /-- Whether a value of each node takes no bytes at all. -/
  empty : List Bool
  root : Nat

namespace Wire

/-! ### Reading bytes -/

/-- The next bytes. -/
def take (buf : Bytes) (count : Nat) : Except String (Bytes × Bytes) :=
  if buf.length < count then .error "the body ends inside a value"
  else .ok (buf.take count, buf.drop count)

/-- A varint from its byte number `index` on; a sum, as the groups share no bits. -/
def varintFrom (index value : Nat) : Bytes → Except String (Nat × Bytes)
  | [] => .error "bad varint"
  | byte :: rest =>
      if 10 ≤ index then .error "bad varint"
      else if byte.toNat < 128 then
        if index = 9 ∧ 2 ≤ byte.toNat then .error "bad varint"
        else .ok (value + byte.toNat * 2 ^ (7 * index), rest)
      else varintFrom (index + 1) (value + (byte.toNat - 128) * 2 ^ (7 * index)) rest

/-- At most ten bytes, the tenth below 2. -/
def varint (buf : Bytes) : Except String (Nat × Bytes) := varintFrom 0 0 buf

def long (buf : Bytes) : Except String (Int × Bytes) := do
  let (raw, rest) ← varint buf
  return (Avro.zigzag raw, rest)

/-- A number of at most 32 bits. -/
def walkShort (what : String) (buf : Bytes) : Except String Bytes := do
  let (raw, rest) ← varint buf
  if 2 ^ 32 ≤ raw then .error s!"{what} out of range"
  return rest

def walkBytes (buf : Bytes) : Except String Bytes := do
  let (len, rest) ← long buf
  if len < 0 then .error s!"a length of {len}"
  let (_, rest) ← take rest len.toNat
  return rest

/-- So many items, one after the other. -/
def times (item : Bytes → Except String Bytes) : Nat → Bytes → Except String Bytes
  | 0, buf => .ok buf
  | count + 1, buf => do
      let rest ← item buf
      times item count rest

/-- How many items a block has, from its count, and what is left after its size. -/
def blockCount (count : Int) (buf : Bytes) : Except String (Nat × Bytes) :=
  if count < 0 then do
    let (_, rest) ← long buf
    if count = -2 ^ 63 then .error s!"a block of {count} items"
    return ((-count).toNat, rest)
  else return (count.toNat, buf)

/-- Blocks of items until one of none; each takes a byte of what is left at least. -/
def blocks (item : Bytes → Except String Bytes) (emptyItems : Bool) :
    Nat → Bytes → Except String Bytes
  | 0, _ => .error "bad varint"
  | more + 1, buf => do
      let (count, rest) ← long buf
      if count = 0 then return rest
      let (count, rest) ← blockCount count rest
      -- items that take no bytes are not walked one by one
      if emptyItems then blocks item emptyItems more rest
      else
        let rest ← times item count rest
        blocks item emptyItems more rest

/-- The types of `nodes`, each walked by those before it. -/
def walkNodes (empty : Nat → Bool) : List Node → Nat → Bytes → Except String Bytes
  | [], _, _ => .error "no such type"
  | node :: earlier, index, buf =>
      if index ≠ earlier.length then walkNodes empty earlier index buf
      else
        match node with
        | .null => .ok buf
        | .boolean => do
            let (byte, rest) ← take buf 1
            if byte = [0] ∨ byte = [1] then return rest
            .error s!"a boolean of byte {byte.headD 0}, which is neither 0 nor 1"
        | .int => walkShort "an int" buf
        | .long => do
            let (_, rest) ← varint buf
            return rest
        | .float => do
            let (_, rest) ← take buf 4
            return rest
        | .double => do
            let (_, rest) ← take buf 8
            return rest
        | .bytes => walkBytes buf
        | .fixed size => do
            let (_, rest) ← take buf size
            return rest
        | .enum => walkShort "an enum index" buf
        | .array item => blocks (walkNodes empty earlier item) (empty item) (buf.length + 1) buf
        | .map value =>
            blocks (fun buf => do
                let rest ← walkBytes buf
                walkNodes empty earlier value rest)
              false (buf.length + 1) buf
        | .union branches => do
            let (index, rest) ← long buf
            match if index < 0 then none else branches[index.toNat]? with
            | some branch => walkNodes empty earlier branch rest
            | none => .error s!"union branch {index} out of range ({branches.length} branches)"
        | .record fields => fields.foldlM (fun buf field => walkNodes empty earlier field buf) buf

/-- Whether a value of each node takes no bytes. -/
def emptyNodes : List Node → List Bool
  | [] => []
  | node :: earlier =>
      let known := emptyNodes earlier
      (match node with
        | .null => true
        | .fixed size => size == 0
        | .record fields => fields.all fun field => (placed known field).getD false
        | _ => false) :: known

variable (wire : Wire)

def walk (node : Nat) (buf : Bytes) : Except String Bytes :=
  walkNodes (fun node => (placed wire.empty node).getD false) wire.nodes node buf

/-- The length of the record at the start of `body`, which is the rest of a message after its
header. -/
def recordLen (body : Bytes) : Except String Nat := do
  let rest ← wire.walk wire.root body
  return body.length - rest.length

/-- The same walk without the shortcut: every item of an array, one by one. -/
def walkEach (node : Nat) (buf : Bytes) : Except String Bytes :=
  walkNodes (fun _ => false) wire.nodes node buf

end Wire

/-! ### Reading the schema -/

/-- Why a schema has no wire form. -/
inductive WireError
  | notJson (error : String)
  | notAName (type : Json)
  | without (kind key : String)
  | noFields (name : String)
  | noFieldType (name : String)
  | noSymbols (name : String)
  | noSize (name : String)
  | noItems
  | noValues
  | notDefined (space name : String)
  | notASchema (value : Json)

/-- The message, with JSON written as the JSON library does. -/
def WireError.text (json : Json → String) : WireError → String
  | notJson error => error
  | notAName type => s!"a type that is not a name: {json type}"
  | without kind key => s!"a {kind} without a {key}"
  | noFields name => s!"the record {name} without fields"
  | noFieldType name => s!"a field of {name} without a type"
  | noSymbols name => s!"the enum {name} without symbols"
  | noSize name => s!"the fixed {name} without a size"
  | noItems => "an array without items"
  | noValues => "a map without values"
  | notDefined space name => s!"the type {space}.{name} is not defined before"
  | notASchema value => s!"not a schema: {json value}"

def Json.asArray : Json → Option (List Json)
  | array items => some items
  | _ => none

/-- A full name: its namespace, empty when there is none, and its last part. -/
structure FullName where
  space : String
  last : String
  deriving DecidableEq

/-- What stands before and after the last dot. -/
def splitLastDot : List Char → Option (List Char × List Char)
  | [] => none
  | first :: rest =>
      match splitLastDot rest with
      | some (before, after) => some (first :: before, after)
      | none => if first = '.' then some ([], rest) else none

/-- The type a reference names, in the namespace it stands in. -/
def fullName (name : String) (enclosing : Option String) : FullName :=
  match splitLastDot name.toList with
  | some (space, last) => ⟨String.ofList space, String.ofList last⟩
  | none => ⟨enclosing.getD "", name⟩

/-- The primitive type of a name. -/
def primitive (name : String) : Option Node :=
  if name = "null" then some .null
  else if name = "boolean" then some .boolean
  else if name = "int" then some .int
  else if name = "long" then some .long
  else if name = "float" then some .float
  else if name = "double" then some .double
  else if name = "bytes" ∨ name = "string" then some .bytes
  else none

structure Parser where
  nodes : List Node := []
  named : List (FullName × Nat) := []

namespace Parser

/-- The node as the next one, and its index. -/
def push (parser : Parser) (node : Node) : Nat × Parser :=
  (parser.nodes.length, { parser with nodes := node :: parser.nodes })

def register (parser : Parser) (name : String) (enclosing : Option String) (id : Nat) : Parser :=
  { parser with named := Assoc.put ⟨enclosing.getD "", name⟩ id parser.named }

def namedType (parser : Parser) (name : String) (enclosing : Option String) :
    Except WireError (Nat × Parser) :=
  match primitive name with
  | some node => .ok (parser.push node)
  | none =>
      match parser.named.lookup (fullName name enclosing) with
      | some id => .ok (id, parser)
      | none =>
          .error (.notDefined (fullName name enclosing).space (fullName name enclosing).last)

/-- A node under a name, registered once its own definition is read. -/
def define (parser : Parser) (node : Node) (name : String) (own : Option String) : Nat × Parser :=
  let (id, parser) := parser.push node
  (id, parser.register name own id)

/-- A text of the object, which its kind needs. -/
def textOf (here : Json) (kind key : String) : Except WireError String :=
  match (here.get key).bind Json.asStr with
  | some text => .ok text
  | none => .error (.without kind key)

mutual

def parse (enclosing : Option String) : Json → Parser → Except WireError (Nat × Parser)
  | .string name, parser => parser.namedType name enclosing
  | .array branches, parser => do
      let (branches, parser) ← parseAll enclosing branches parser
      return parser.push (.union branches)
  | .object keys values, parser =>
      let here := Json.object keys values
      match (here.get "type").bind Json.asStr with
      | none => .error (.notAName here)
      | some kind =>
          let own := ((here.get "namespace").bind Json.asStr).or enclosing
          if kind = "record" then do
            let name ← textOf here kind "name"
            let (fields, parser) ← parseFieldsOf own name keys values parser
            return parser.define (.record fields) name own
          else if kind = "enum" then do
            let name ← textOf here kind "name"
            match (here.get "symbols").bind Json.asArray with
            | none => .error (.noSymbols name)
            | some _ => return parser.define .enum name own
          else if kind = "fixed" then do
            let name ← textOf here kind "name"
            match (here.get "size").bind Json.asU64 with
            | none => .error (.noSize name)
            | some size => return parser.define (.fixed size) name own
          else if kind = "array" then do
            let (items, parser) ← parseAt enclosing "items" .noItems keys values parser
            return parser.push (.array items)
          else if kind = "map" then do
            let (held, parser) ← parseAt enclosing "values" .noValues keys values parser
            return parser.push (.map held)
          -- a primitive or a named type, with attributes
          else parser.namedType kind enclosing
  | other, _ => .error (.notASchema other)
  termination_by structural json => json

def parseAll (enclosing : Option String) :
    List Json → Parser → Except WireError (List Nat × Parser)
  | [], parser => .ok ([], parser)
  | branch :: branches, parser => do
      let (id, parser) ← parse enclosing branch parser
      let (ids, parser) ← parseAll enclosing branches parser
      return (id :: ids, parser)
  termination_by structural branches => branches

/-- The type at a key of an object. -/
def parseAt (enclosing : Option String) (wanted : String) (absent : WireError) :
    List String → List Json → Parser → Except WireError (Nat × Parser)
  | key :: keys, value :: values, parser =>
      if key = wanted then parse enclosing value parser
      else parseAt enclosing wanted absent keys values parser
  | _, _, _ => .error absent
  termination_by structural _ values => values

/-- The types of the fields of an object that defines a record. -/
def parseFieldsOf (own : Option String) (name : String) :
    List String → List Json → Parser → Except WireError (List Nat × Parser)
  | key :: keys, value :: values, parser =>
      if key = "fields" then
        match value with
        | .array fields => parseFields own name fields parser
        | _ => .error (.noFields name)
      else parseFieldsOf own name keys values parser
  | _, _, _ => .error (.noFields name)
  termination_by structural _ values => values

def parseFields (own : Option String) (name : String) :
    List Json → Parser → Except WireError (List Nat × Parser)
  | [], parser => .ok ([], parser)
  | field :: fields, parser => do
      let (id, parser) ← match field with
        | .object keys values => parseAt own "type" (.noFieldType name) keys values parser
        | _ => .error (.noFieldType name)
      let (ids, parser) ← parseFields own name fields parser
      return (id :: ids, parser)
  termination_by structural fields => fields

end

end Parser

/-- The wire form of a schema's values. -/
def Wire.new (schema : Except String Json) : Except WireError Wire :=
  match schema with
  | .error error => .error (.notJson error)
  | .ok value => do
      let (root, parser) ← Parser.parse none value {}
      return { nodes := parser.nodes, empty := Wire.emptyNodes parser.nodes, root }

end Ddi.Kafka.Decode
