/-
The functions that the JSON constructors are rewritten to: what each is planned as, what it gives
for a batch, and whole expressions of them.
-/

import Ddi.Transform.JsonObjects

namespace Ddi.JsonBuild

open Ddi.Jsonval (toString)

/-! ### Functions -/

inductive Build
  | object
  | array
  | toJson
  | formatJson
  /-- A constructor right inside another, embedded as it was built. -/
  | embed
  /-- The identity, marked as JSON. -/
  | asJson
  /-- The varchar of a JSON value, and of any other the plain cast. -/
  | text
  deriving DecidableEq

namespace Build

def name : Build → String
  | .object => "ddi_json_object"
  | .array => "ddi_json_array"
  | .toJson => "ddi_to_json"
  | .formatJson => "ddi_format_json"
  | .embed => "ddi_embed_json"
  | .asJson => "ddi_as_json"
  | .text => "ddi_text"

/-- As the author wrote it. -/
def spelling : Build → String
  | .object => "json_object"
  | .array => "json_array"
  | .toJson => "CAST(.. AS JSON)"
  | .formatJson | .embed => "FORMAT JSON"
  | .asJson => "a JSON-typed value"
  | .text => "CAST(.. AS VARCHAR)"

def err (kind : Build) (text : String) : Fault := bad kind.spelling text

end Build

/-- A type, as far as it is asked for. -/
inductive Kind
  | text
  | null
  | list (item : Field)
  | other
  deriving DecidableEq

/-- An argument as a plan knows it. -/
structure ArgField where
  field : Field
  kind : Kind
  typeName : String

/-- A value for each row, or one for all: a text, or a value of another type, which DataFusion makes
a column of. -/
inductive ColumnarValue
  | array (column : Column)
  | utf8 (value : Option String)
  | scalar (sized : Nat → Except String Column)

def toArray (rows : Nat) : ColumnarValue → Except Fault Column
  | .array column => .ok column
  | .utf8 value => .ok (.text (List.replicate rows value))
  | .scalar sized =>
      match sized rows with
      | .ok column => .ok column
      | .error error => .error (.other error)

/-- The flag that a constructor's first argument is. -/
def absentOnNull (kind : Build) : Option ColumnarValue → Except Fault Bool
  | some (.utf8 (some flag)) =>
      if flag = "absent" then .ok true
      else if flag = "null" then .ok false
      else .error (kind.err s!"{kind.name} is internal; write {kind.spelling}(...)")
  | _ => .error (kind.err s!"{kind.name} is internal; write {kind.spelling}(...)")

/-- The fields at even places. -/
def alternate : List ArgField → List ArgField
  | [] => []
  | [one] => [one]
  | one :: _ :: rest => one :: alternate rest

/-- Whether a value is of the JSON type: with witnesses, when one of them is. -/
def asJsonTyped (witnesses : List ArgField) : Bool :=
  witnesses.isEmpty || witnesses.any fun witness =>
    witness.field.marker == some .typed ||
      match witness.kind with
      | .list item => item.marker == some .typed
      | _ => false

/-! ### Planning -/

def textField (name : String) (nullable : Bool) (marker : Option Marker) : ArgField :=
  { field := { name, nullable, marker }, kind := .text, typeName := "Utf8" }

/-- Whether a key can be one. -/
def checkKey (kind : Build) (number : Nat) (key : ArgField) : Except Fault Unit :=
  if key.kind ≠ .text ∧ key.kind ≠ .null then
    .error (kind.err s!"key #{number} has type {key.typeName}; a key must be varchar")
  else if key.field.marker = some .typed then
    .error (.plan (s!"json_object: key #{number} is JSON-typed; a key must be varchar, and " ++
      "Starburst refuses this too. Write CAST(<key> AS VARCHAR)."))
  else .ok ()

/-- The field of a call, of its arguments' fields and of the first one's value where it is a
literal. -/
def returnField (kind : Build) (args : List ArgField) (first : Option ColumnarValue) :
    Except Fault ArgField :=
  let nullable := match args.head? with
    | some input => input.field.nullable
    | none => true
  match kind with
  | .object => do
      let _ ← absentOnNull kind first
      if args.length % 2 ≠ 1 then .error (kind.err "keys and values do not pair up")
      else
        let _ ← (alternate args.tail).zipIdx.mapM fun (key, index) => checkKey kind (index + 1) key
        return textField kind.name false none
  | .array => do
      let _ ← absentOnNull kind first
      return textField kind.name false none
  | .toJson => .ok (textField kind.name nullable (some .typed))
  | .formatJson | .embed =>
      match args.head? with
      | none => .error (kind.err "missing its argument")
      | some input =>
          match input.field.marker with
          | some marker =>
              let what := match marker with
                | .typed => "a JSON-typed value"
                | .formatted => "a value already read with FORMAT JSON"
              .error (.plan (s!"FORMAT JSON on {what}: Starburst reads FORMAT JSON only from " ++
                "text. Write json_format(<value>) FORMAT JSON."))
          | none =>
              if input.kind ≠ .text ∧ input.kind ≠ .null then
                .error (.plan (s!"FORMAT JSON on a value of type {input.typeName}: only text " ++
                  "can be read as JSON. Build the value with json_object / json_array, or CAST " ++
                  "it to JSON."))
              else .ok (textField kind.name nullable (some .formatted))
  | .asJson =>
      match args.head? with
      | none => .error (kind.err "missing its argument")
      | some input =>
          if !asJsonTyped args.tail then
            .ok { input with field := { input.field with name := kind.name } }
          else if input.kind ≠ .text ∧ input.kind ≠ .null then
            .error (.plan s!"{kind.name} is internal and takes text, got {input.typeName}")
          else .ok (textField kind.name nullable (some .typed))
  | .text => .ok (textField kind.name nullable none)

/-! ### Running -/

section Running

variable (arrow : Arrow)

/-- A key's text, in each row or once for all. -/
def keyColumn (who : String) (position : Nat) (value : ColumnarValue) : Except Fault KeyColumn :=
  let constant (one : Column) : Except Fault KeyColumn := do
    let texts ← asText arrow who one
    match texts.getLast?.join with
    | some key => return .constant key
    | none => .error (bad who s!"key #{position} is NULL; a key must not be null")
  match value with
  | .array column => (asText arrow who column).map .perRow
  | .utf8 text => constant (.text [text])
  | .scalar sized => do
      let one ← toArray 1 (.scalar sized)
      constant one

/-- A text read as JSON and written as a tree reader hands it back. -/
def formatted (text : String) : Except String String :=
  (Jsonval.parse arrow.shown text).map fun json => toString json .lastWins .javaDouble .utf8

def formattedAt (row : Nat) : Option String → Except Fault (Option String)
  | none => .ok none
  | some text =>
      match formatted arrow text with
      | .ok text => .ok (some text)
      | .error error =>
          .error (Build.err .formatJson (s!"row {row} is not valid JSON: {error}. Input is a " ++
            "typed column, not arbitrary text, so this is a data-quality failure rather than a " ++
            "row to skip."))

/-- The keys and the rendered values of an object's members, each key before its value. -/
def objectMembers (kind : Build) (rows : Nat) : Nat → List ColumnarValue → List ArgField →
    Except Fault (List (KeyColumn × Texts))
  | position, key :: value :: args, _ :: field :: fields => do
      let own ← keyColumn arrow kind.spelling position key
      let column ← toArray rows value
      let texts ← render arrow kind.spelling .member field.field position column
      let others ← objectMembers kind rows (position + 1) args fields
      return (own, texts) :: others
  | _, _, _ => .ok []

/-- The rendered elements of an array. -/
def arrayElements (kind : Build) (rows : Nat) : Nat → List ColumnarValue → List ArgField →
    Except Fault (List Texts)
  | position, value :: args, field :: fields => do
      let column ← toArray rows value
      let texts ← render arrow kind.spelling .member field.field position column
      let others ← arrayElements kind rows (position + 1) args fields
      return texts :: others
  | _, _, _ => .ok []

/-- The texts of a function other than the identity of what is no JSON. -/
def texts (kind : Build) (args : List ColumnarValue) (fields : List ArgField) (rows : Nat) :
    Except Fault Texts :=
  match args, fields with
  | first :: rest, field :: others =>
      match kind with
      | .toJson => do
          let column ← toArray rows first
          render arrow kind.spelling .cast field.field 1 column
      | .formatJson => do
          let column ← toArray rows first
          let texts ← asText arrow kind.spelling column
          texts.zipIdx.mapM fun (text, row) => formattedAt arrow row text
      | .embed | .asJson => do
          let column ← toArray rows first
          asText arrow kind.spelling column
      | .text => do
          let column ← toArray rows first
          if field.field.marker.isSome then jsonToVarchar arrow kind.spelling column
          else asText arrow kind.spelling column
      | .object => do
          let absent ← absentOnNull kind (some first)
          let members ← objectMembers arrow kind rows 1 rest others
          match buildObjects arrow.debug (members.map Prod.fst) (members.map Prod.snd) rows
              absent with
          | .ok texts => return texts
          | .error error => .error (kind.err error)
      | .array => do
          let absent ← absentOnNull kind (some first)
          let columns ← arrayElements arrow kind rows 1 rest others
          return buildArrays columns rows absent
  | _, _ => .error (kind.err "missing its argument")

def invoke (kind : Build) (args : List ColumnarValue) (fields : List ArgField) (rows : Nat) :
    Except Fault ColumnarValue :=
  match kind, args with
  | .asJson, first :: _ =>
      if asJsonTyped fields.tail then
        (texts arrow kind args fields rows).map fun texts => .array (.text texts)
      else .ok first
  | _, _ => (texts arrow kind args fields rows).map fun texts => .array (.text texts)

end Running

/-! ### Expressions -/

/-- A call of these functions on what a batch holds. -/
inductive Expr
  | value (field : ArgField) (value : ColumnarValue)
  | call (kind : Build) (args : List Expr)

/-- What a literal is. -/
def Expr.literal : Expr → Option ColumnarValue
  | .value _ (.array _) => none
  | .value _ held => some held
  | .call _ _ => none

mutual

def Expr.plan : Expr → Except Fault ArgField
  | .value field _ => .ok field
  | .call kind args => do
      let fields ← planAll args
      returnField kind fields (args.head?.bind Expr.literal)

def planAll : List Expr → Except Fault (List ArgField)
  | [] => .ok []
  | expr :: exprs => do
      let field ← expr.plan
      let fields ← planAll exprs
      return field :: fields

end

section Evaluation

variable (arrow : Arrow) (rows : Nat)

mutual

def Expr.eval : Expr → Except Fault ColumnarValue
  | .value _ held => .ok held
  | .call kind args => do
      let fields ← planAll args
      let values ← evalAll args
      invoke arrow kind values fields rows

def evalAll : List Expr → Except Fault (List ColumnarValue)
  | [] => .ok []
  | expr :: exprs => do
      let value ← expr.eval
      let values ← evalAll exprs
      return value :: values

end

end Evaluation

end Ddi.JsonBuild
