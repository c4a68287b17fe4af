/-
The type a schema stands for, with every name replaced by its definition, and the walk of
the schema's records: a record ends where an encoding of a value of that type does.
-/

import Ddi.Kafka.WireTypes

namespace Ddi.Kafka.Decode

open Avro (Bytes Ty)
open Walks (bind_ok_iff)

/-! ### The type a schema names -/

/-- The types defined so far, by their full names. -/
abbrev Definitions := List (FullName × Ty)

def primitiveType (name : String) : Option Ty :=
  if name = "null" then some .null
  else if name = "boolean" then some .boolean
  else if name = "int" then some .int
  else if name = "long" then some .long
  else if name = "float" then some .float
  else if name = "double" then some .double
  else if name = "bytes" ∨ name = "string" then some .bytes
  else none

/-- What a name stands for where it is used: a primitive type, or one defined before. -/
def referenced (name : String) (enclosing : Option String) (known : Definitions) : Option Ty :=
  (primitiveType name).or (known.lookup (fullName name enclosing))

def defined (ty : Ty) (name : String) (own : Option String) (known : Definitions) :
    Ty × Definitions :=
  (ty, Assoc.put ⟨own.getD "", name⟩ ty known)

mutual

/-- The type a schema stands for in a namespace, and the types defined by its end. -/
def meaning (enclosing : Option String) : Json → Definitions → Option (Ty × Definitions)
  | .string name, known => (referenced name enclosing known).map fun ty => (ty, known)
  | .array branches, known =>
      (meaningAll enclosing branches known).map fun (types, known) => (.union types, known)
  | .object keys values, known =>
      let here := Json.object keys values
      let own := ((here.get "namespace").bind Json.asStr).or enclosing
      match (here.get "type").bind Json.asStr, (here.get "name").bind Json.asStr with
      | none, _ => none
      | some kind, name =>
          if kind = "record" then
            match name, meaningFieldsOf own keys values known with
            | some name, some (fields, known) => some (defined (.record fields) name own known)
            | _, _ => none
          else if kind = "enum" then
            match name, (here.get "symbols").bind Json.asArray with
            | some name, some _ => some (defined .enum name own known)
            | _, _ => none
          else if kind = "fixed" then
            match name, (here.get "size").bind Json.asU64 with
            | some name, some size => some (defined (.fixed size) name own known)
            | _, _ => none
          else if kind = "array" then
            (meaningAt enclosing "items" keys values known).map fun (item, known) =>
              (.array item, known)
          else if kind = "map" then
            (meaningAt enclosing "values" keys values known).map fun (held, known) =>
              (.map held, known)
          else (referenced kind enclosing known).map fun ty => (ty, known)
  | _, _ => none
  termination_by structural json => json

def meaningAll (enclosing : Option String) :
    List Json → Definitions → Option (List Ty × Definitions)
  | [], known => some ([], known)
  | branch :: branches, known => do
      let (ty, known) ← meaning enclosing branch known
      let (types, known) ← meaningAll enclosing branches known
      return (ty :: types, known)
  termination_by structural branches => branches

def meaningAt (enclosing : Option String) (wanted : String) :
    List String → List Json → Definitions → Option (Ty × Definitions)
  | key :: keys, value :: values, known =>
      if key = wanted then meaning enclosing value known
      else meaningAt enclosing wanted keys values known
  | _, _, _ => none
  termination_by structural _ values => values

def meaningFieldsOf (own : Option String) :
    List String → List Json → Definitions → Option (List Ty × Definitions)
  | key :: keys, value :: values, known =>
      if key = "fields" then
        match value with
        | .array fields => meaningFields own fields known
        | _ => none
      else meaningFieldsOf own keys values known
  | _, _, _ => none
  termination_by structural _ values => values

def meaningFields (own : Option String) :
    List Json → Definitions → Option (List Ty × Definitions)
  | [], known => some ([], known)
  | field :: fields, known => do
      let (ty, known) ← match field with
        | .object keys values => meaningAt own "type" keys values known
        | _ => none
      let (types, known) ← meaningFields own fields known
      return (ty :: types, known)
  termination_by structural fields => fields

end

namespace Parser

/-- Every name the parser knows is of a node of the type the name has. -/
def Stands (parser : Parser) (known : Definitions) : Prop :=
  ∀ name id, parser.named.lookup name = some id →
    ∃ ty, known.lookup name = some ty ∧ typeOf parser.nodes id = some ty

def Extends (before after : Parser) : Prop :=
  ∀ index ty, typeOf before.nodes index = some ty → typeOf after.nodes index = some ty

/-- A node read from `before` on, and the type it was read for. -/
def Denotes (before after : Parser) (id : Nat) (result : Option (Ty × Definitions)) : Prop :=
  ∃ ty known, result = some (ty, known) ∧ typeOf after.nodes id = some ty ∧ after.Stands known ∧
    before.Extends after

def DenotesAll (before after : Parser) (ids : List Nat) (result : Option (List Ty × Definitions)) :
    Prop :=
  ∃ types known, result = some (types, known) ∧
    List.Forall₂ (fun id ty => typeOf after.nodes id = some ty) ids types ∧ after.Stands known ∧
    before.Extends after

theorem Extends.refl (parser : Parser) : parser.Extends parser := fun _ _ => id

theorem Extends.trans {first second third : Parser} (one : first.Extends second)
    (two : second.Extends third) : first.Extends third :=
  fun index ty found => two index ty (one index ty found)

theorem push_extends (parser : Parser) (node : Node) : parser.Extends (parser.push node).2 :=
  fun _ _ found => typeOf_push found node

theorem push_stands {parser : Parser} {known : Definitions} (stands : parser.Stands known)
    (node : Node) : (parser.push node).2.Stands known := by
  intro name id found
  obtain ⟨ty, also, typed⟩ := stands name id found
  exact ⟨ty, also, typeOf_push typed node⟩

theorem define_stands {parser : Parser} {known : Definitions} (stands : parser.Stands known)
    {node : Node} {ty : Ty} (typed : typeOf (node :: parser.nodes) parser.nodes.length = some ty)
    (name : String) (own : Option String) :
    (parser.define node name own).2.Stands (defined ty name own known).2 := by
  intro other id found
  change (Assoc.put ⟨own.getD "", name⟩ parser.nodes.length parser.named).lookup other = some id
    at found
  change ∃ ty', (Assoc.put ⟨own.getD "", name⟩ ty known).lookup other = some ty' ∧
    typeOf (node :: parser.nodes) id = some ty'
  rw [Assoc.lookup_put] at found ⊢
  by_cases same : other = ⟨own.getD "", name⟩
  · rw [if_pos same] at found ⊢
    cases found
    exact ⟨ty, rfl, typed⟩
  · rw [if_neg same] at found ⊢
    obtain ⟨held, also, before⟩ := stands other id found
    exact ⟨held, also, typeOf_push before node⟩

theorem primitive_type {name : String} {node : Node} (found : primitive name = some node)
    (earlier : List Node) :
    ∃ ty, primitiveType name = some ty ∧ typeOf (node :: earlier) earlier.length = some ty := by
  unfold primitive at found
  unfold primitiveType
  rw [typeOf_here]
  by_cases null : name = "null"
  · rw [if_pos null] at found ⊢
    cases found
    exact ⟨_, rfl, rfl⟩
  rw [if_neg null] at found ⊢
  by_cases boolean : name = "boolean"
  · rw [if_pos boolean] at found ⊢
    cases found
    exact ⟨_, rfl, rfl⟩
  rw [if_neg boolean] at found ⊢
  by_cases int : name = "int"
  · rw [if_pos int] at found ⊢
    cases found
    exact ⟨_, rfl, rfl⟩
  rw [if_neg int] at found ⊢
  by_cases long : name = "long"
  · rw [if_pos long] at found ⊢
    cases found
    exact ⟨_, rfl, rfl⟩
  rw [if_neg long] at found ⊢
  by_cases float : name = "float"
  · rw [if_pos float] at found ⊢
    cases found
    exact ⟨_, rfl, rfl⟩
  rw [if_neg float] at found ⊢
  by_cases double : name = "double"
  · rw [if_pos double] at found ⊢
    cases found
    exact ⟨_, rfl, rfl⟩
  rw [if_neg double] at found ⊢
  by_cases bytes : name = "bytes" ∨ name = "string"
  · rw [if_pos bytes] at found ⊢
    cases found
    exact ⟨_, rfl, rfl⟩
  rw [if_neg bytes] at found
  cases found

theorem primitiveType_none {name : String} (absent : primitive name = none) :
    primitiveType name = none := by
  unfold primitive at absent
  unfold primitiveType
  grind

theorem namedType_denotes {before after : Parser} {known : Definitions}
    (stands : before.Stands known) {name : String} {enclosing : Option String} {id : Nat}
    (read : before.namedType name enclosing = .ok (id, after)) :
    before.Denotes after id ((referenced name enclosing known).map fun ty => (ty, known)) := by
  unfold namedType at read
  unfold referenced
  cases basic : primitive name with
  | some node =>
      rw [basic] at read
      cases read
      obtain ⟨ty, same, typed⟩ := primitive_type basic before.nodes
      rw [same]
      exact ⟨ty, known, rfl, typed, push_stands stands node, push_extends before node⟩
  | none =>
      rw [basic] at read
      rw [primitiveType_none basic]
      cases found : before.named.lookup (fullName name enclosing) with
      | none =>
          rw [found] at read
          cases read
      | some own =>
          rw [found] at read
          cases read
          obtain ⟨ty, also, typed⟩ := stands _ _ found
          rw [also]
          exact ⟨ty, known, rfl, typed, stands, .refl _⟩

/-- A node of a type read since, pushed after it. -/
theorem Denotes.push {before middle : Parser} {known : Definitions}
    (stands : middle.Stands known) (extends_to : before.Extends middle) {node : Node} {ty : Ty}
    (typed : typeOf (node :: middle.nodes) middle.nodes.length = some ty) :
    before.Denotes (middle.push node).2 (middle.push node).1 (some (ty, known)) :=
  ⟨ty, known, rfl, typed, push_stands stands node, extends_to.trans (push_extends middle node)⟩

theorem Denotes.define {before middle : Parser} {known : Definitions}
    (stands : middle.Stands known) (extends_to : before.Extends middle) {node : Node} {ty : Ty}
    (typed : typeOf (node :: middle.nodes) middle.nodes.length = some ty) (name : String)
    (own : Option String) :
    before.Denotes (middle.define node name own).2 (middle.define node name own).1
      (some (defined ty name own known)) :=
  ⟨ty, _, rfl, typed, define_stands stands typed name own,
    extends_to.trans (push_extends middle node)⟩

theorem textOf_ok {here : Json} {kind key text : String} (found : textOf here kind key = .ok text) :
    (here.get key).bind Json.asStr = some text := by
  unfold textOf at found
  cases own : (here.get key).bind Json.asStr with
  | none =>
      rw [own] at found
      cases found
  | some value =>
      rw [own] at found
      exact congrArg some (Except.ok.inj found)

theorem typeOf_all {ids : List Nat} {types : List Ty} {nodes : List Node}
    (each : List.Forall₂ (fun id ty => typeOf nodes id = some ty) ids types) :
    typeOf (.union ids :: nodes) nodes.length = some (.union types) ∧
      typeOf (.record ids :: nodes) nodes.length = some (.record types) := by
  rw [typeOf_here, typeOf_here]
  simp only [mapM_of_forall₂ each, Option.map_some, and_self]

mutual

/-- The parser reads a schema as the type it stands for. -/
theorem parse_denotes (enclosing : Option String) (json : Json) {before after : Parser} {id : Nat}
    {known : Definitions} (stands : before.Stands known)
    (read : parse enclosing json before = .ok (id, after)) :
    before.Denotes after id (meaning enclosing json known) := by
  cases json with
  | string name => exact namedType_denotes stands read
  | array branches =>
      unfold parse at read
      obtain ⟨⟨ids, middle⟩, all, same⟩ := bind_ok_iff.mp read
      cases same
      obtain ⟨types, defined, same, each, stands, extended⟩ :=
        parseAll_denotes enclosing branches stands all
      unfold meaning
      rw [same]
      exact .push stands extended (typeOf_all each).1
  | object keys values =>
      unfold parse at read
      unfold meaning
      simp only at read ⊢
      cases kind_text : ((Json.object keys values).get "type").bind Json.asStr with
      | none =>
          rw [kind_text] at read
          cases read
      | some kind =>
          rw [kind_text] at read
          simp only at read ⊢
          by_cases record : kind = "record"
          · rw [if_pos record] at read ⊢
            obtain ⟨name, named, fields_read⟩ := bind_ok_iff.mp read
            obtain ⟨⟨ids, middle⟩, all, same⟩ := bind_ok_iff.mp fields_read
            cases same
            obtain ⟨types, defined, same, each, stands, extended⟩ :=
              parseFieldsOf_denotes _ name keys values stands all
            rw [textOf_ok named, same]
            exact .define stands extended (typeOf_all each).2 name _
          rw [if_neg record] at read ⊢
          by_cases enum : kind = "enum"
          · rw [if_pos enum] at read ⊢
            obtain ⟨name, named, symbols_read⟩ := bind_ok_iff.mp read
            rw [textOf_ok named]
            cases symbols : ((Json.object keys values).get "symbols").bind Json.asArray with
            | none =>
                rw [symbols] at symbols_read
                cases symbols_read
            | some listed =>
                rw [symbols] at symbols_read
                cases symbols_read
                exact .define stands (.refl _) (typeOf_here .enum before.nodes) name _
          rw [if_neg enum] at read ⊢
          by_cases fixed : kind = "fixed"
          · rw [if_pos fixed] at read ⊢
            obtain ⟨name, named, size_read⟩ := bind_ok_iff.mp read
            rw [textOf_ok named]
            cases sized : ((Json.object keys values).get "size").bind Json.asU64 with
            | none =>
                rw [sized] at size_read
                cases size_read
            | some size =>
                rw [sized] at size_read
                cases size_read
                exact .define stands (.refl _) (typeOf_here (.fixed size) before.nodes) name _
          rw [if_neg fixed] at read ⊢
          by_cases array : kind = "array"
          · rw [if_pos array] at read ⊢
            obtain ⟨⟨item, middle⟩, inner, same⟩ := bind_ok_iff.mp read
            cases same
            obtain ⟨ty, defined, same, typed, stands, extended⟩ :=
              parseAt_denotes enclosing "items" _ keys values stands inner
            rw [same]
            apply Denotes.push stands extended
            rw [typeOf_here]
            simp only [typed, Option.map_some]
          rw [if_neg array] at read ⊢
          by_cases map : kind = "map"
          · rw [if_pos map] at read ⊢
            obtain ⟨⟨held, middle⟩, inner, same⟩ := bind_ok_iff.mp read
            cases same
            obtain ⟨ty, defined, same, typed, stands, extended⟩ :=
              parseAt_denotes enclosing "values" _ keys values stands inner
            rw [same]
            apply Denotes.push stands extended
            rw [typeOf_here]
            simp only [typed, Option.map_some]
          rw [if_neg map] at read ⊢
          exact namedType_denotes stands read
  | null => cases read
  | bool value => cases read
  | number whole => cases read
  termination_by structural json

theorem parseAll_denotes (enclosing : Option String) (branches : List Json)
    {before after : Parser} {ids : List Nat} {known : Definitions} (stands : before.Stands known)
    (read : parseAll enclosing branches before = .ok (ids, after)) :
    before.DenotesAll after ids (meaningAll enclosing branches known) := by
  cases branches with
  | nil =>
      cases read
      exact ⟨[], known, rfl, .nil, stands, .refl _⟩
  | cons branch branches =>
      unfold parseAll at read
      obtain ⟨⟨id, middle⟩, first, others_read⟩ := bind_ok_iff.mp read
      obtain ⟨⟨others, last⟩, rest, same⟩ := bind_ok_iff.mp others_read
      cases same
      obtain ⟨ty, defined, meant, typed, stands, extended⟩ :=
        parse_denotes enclosing branch stands first
      obtain ⟨types, all_defined, all_meant, each, stands, further⟩ :=
        parseAll_denotes enclosing branches stands rest
      unfold meaningAll
      rw [meant]
      refine ⟨ty :: types, all_defined, ?_, .cons (further _ _ typed) each, stands,
        extended.trans further⟩
      simp only [bind, Option.bind, all_meant]
      rfl
  termination_by structural branches

theorem parseAt_denotes (enclosing : Option String) (wanted : String) (absent : WireError)
    (keys : List String) (values : List Json) {before after : Parser} {id : Nat}
    {known : Definitions} (stands : before.Stands known)
    (read : parseAt enclosing wanted absent keys values before = .ok (id, after)) :
    before.Denotes after id (meaningAt enclosing wanted keys values known) := by
  cases values with
  | nil => cases keys <;> cases read
  | cons value values =>
      cases keys with
      | nil => cases read
      | cons key keys =>
          unfold parseAt at read
          unfold meaningAt
          by_cases here : key = wanted
          · rw [if_pos here] at read ⊢
            exact parse_denotes enclosing value stands read
          · rw [if_neg here] at read ⊢
            exact parseAt_denotes enclosing wanted absent keys values stands read
  termination_by structural values

theorem parseFieldsOf_denotes (own : Option String) (name : String) (keys : List String)
    (values : List Json) {before after : Parser} {ids : List Nat} {known : Definitions}
    (stands : before.Stands known)
    (read : parseFieldsOf own name keys values before = .ok (ids, after)) :
    before.DenotesAll after ids (meaningFieldsOf own keys values known) := by
  cases values with
  | nil => cases keys <;> cases read
  | cons value values =>
      cases keys with
      | nil => cases read
      | cons key keys =>
          unfold parseFieldsOf at read
          unfold meaningFieldsOf
          by_cases here : key = "fields"
          · rw [if_pos here] at read ⊢
            cases value with
            | array fields => exact parseFields_denotes own name fields stands read
            | _ => cases read
          · rw [if_neg here] at read ⊢
            exact parseFieldsOf_denotes own name keys values stands read
  termination_by structural values

theorem parseFields_denotes (own : Option String) (name : String) (fields : List Json)
    {before after : Parser} {ids : List Nat} {known : Definitions} (stands : before.Stands known)
    (read : parseFields own name fields before = .ok (ids, after)) :
    before.DenotesAll after ids (meaningFields own fields known) := by
  cases fields with
  | nil =>
      cases read
      exact ⟨[], known, rfl, .nil, stands, .refl _⟩
  | cons field fields =>
      cases field with
      | object keys values =>
          unfold parseFields at read
          obtain ⟨⟨id, middle⟩, first, others_read⟩ := bind_ok_iff.mp read
          obtain ⟨⟨others, last⟩, rest, same⟩ := bind_ok_iff.mp others_read
          cases same
          obtain ⟨ty, defined, meant, typed, stands, extended⟩ :=
            parseAt_denotes own "type" _ keys values stands first
          obtain ⟨types, all_defined, all_meant, each, stands, further⟩ :=
            parseFields_denotes own name fields stands rest
          unfold meaningFields
          simp only
          rw [meant]
          refine ⟨ty :: types, all_defined, ?_, .cons (further _ _ typed) each, stands,
            extended.trans further⟩
          simp only [bind, Option.bind, all_meant]
          rfl
      | _ => cases read
  termination_by structural fields

end

end Parser

/-! ### Records -/

/-- The type a whole schema stands for. -/
def schemaType (schema : Json) : Option Ty := (meaning none schema []).map Prod.fst

namespace Wire

theorem new_typed {schema : Except String Json} {wire : Wire} (accepted : Wire.new schema = .ok wire) :
    ∃ json ty, schema = .ok json ∧ schemaType json = some ty ∧
      typeOf wire.nodes wire.root = some ty ∧ wire.empty = emptyNodes wire.nodes := by
  cases schema with
  | error error => cases accepted
  | ok json =>
      obtain ⟨⟨root, parser⟩, read, same⟩ := bind_ok_iff.mp accepted
      cases same
      have nothing : Parser.Stands {} [] := fun _name _id found => by cases found
      obtain ⟨ty, known, meant, typed, _stands, _extended⟩ :=
        Parser.parse_denotes none json nothing read
      refine ⟨json, ty, rfl, ?_, typed, rfl⟩
      unfold schemaType
      rw [meant]
      rfl

/-- The nodes a schema's walk skips are those known to take no bytes. -/
theorem harmless_empty {wire : Wire} (known : wire.empty = emptyNodes wire.nodes) :
    Harmless (fun node => (placed wire.empty node).getD false) wire.nodes := by
  intro node _within skipped
  rw [known] at skipped
  cases empty : placed (emptyNodes wire.nodes) node with
  | none =>
      simp only [empty] at skipped
      cases skipped
  | some value =>
      simp only [empty, Option.getD_some] at skipped
      rw [skipped]

theorem walk_right {wire : Wire} (known : wire.empty = emptyNodes wire.nodes) {index : Nat}
    {ty : Ty} (typed : typeOf wire.nodes index = some ty) : Right (wire.walk index) ty :=
  walkNodes_right (harmless_empty known) typed

theorem recordLen_iff {wire : Wire} (body : Bytes) (len : Nat) :
    wire.recordLen body = .ok len ↔
      ∃ rest, wire.walk wire.root body = .ok rest ∧ len = body.length - rest.length := by
  unfold recordLen
  rw [bind_ok_iff]
  constructor
  · rintro ⟨rest, walked, same⟩
    cases same
    exact ⟨rest, walked, rfl⟩
  · rintro ⟨rest, walked, rfl⟩
    exact ⟨rest, walked, rfl⟩

/-- The walk of a schema's records: what it accepts, where it ends, and what it skips. -/
structure Exact (wire : Wire) (ty : Ty) : Prop where
  accepts : ∀ (body : Bytes) (len : Nat), wire.recordLen body = .ok len ↔
    len ≤ body.length ∧ ∃ value, ty.Encodes value (body.take len)
  /-- No encoding is the start of another one. -/
  unique : ∀ (body : Bytes) (len other : Nat) (value another : Avro.Value),
    len ≤ body.length → other ≤ body.length → ty.Encodes value (body.take len) →
      ty.Encodes another (body.take other) → len = other
  encoded : ∀ (value : Avro.Value) (bytes rest : Bytes), ty.encode value = some bytes →
    wire.recordLen (bytes ++ rest) = .ok bytes.length
  unskipped : ∀ body, wire.walk wire.root body = wire.walkEach wire.root body

theorem new_exact {schema : Except String Json} {wire : Wire}
    (accepted : Wire.new schema = .ok wire) :
    ∃ json ty, schema = .ok json ∧ schemaType json = some ty ∧ wire.Exact ty := by
  obtain ⟨json, ty, given, meant, typed, known⟩ := new_typed accepted
  have right := walk_right known typed
  have accepts : ∀ (body : Bytes) (len : Nat), wire.recordLen body = .ok len ↔
      len ≤ body.length ∧ ∃ value, ty.Encodes value (body.take len) := by
    intro body len
    rw [recordLen_iff]
    constructor
    · rintro ⟨rest, walked, rfl⟩
      obtain ⟨value, bytes, word, rfl⟩ := (right _ _).mp walked
      rw [List.length_append, Nat.add_sub_cancel, List.take_left]
      exact ⟨Nat.le_add_right _ _, value, word⟩
    · rintro ⟨within, value, word⟩
      have walked := right.on_word word (body.drop len)
      rw [List.take_append_drop] at walked
      refine ⟨_, walked, ?_⟩
      rw [List.length_drop]
      omega
  refine ⟨json, ty, given, meant, accepts, ?_, ?_, ?_⟩
  · intro body len other value another within within' word word'
    have one := (accepts body len).mpr ⟨within, value, word⟩
    have two := (accepts body other).mpr ⟨within', another, word'⟩
    exact Except.ok.inj (one.symm.trans two)
  · intro value bytes rest written
    apply (accepts _ _).mpr
    rw [List.take_left, List.length_append]
    exact ⟨Nat.le_add_right _ _, value, ty.encode_encodes value bytes written⟩
  · intro body
    exact walkNodes_unskipped (harmless_empty known) typed body

/-- A record of a number and an array of nulls. -/
def nullsSchema : Json :=
  .object ["type", "name", "fields"] [.string "record", .string "nulls", .array [
    .object ["name", "type"] [.string "number", .string "int"],
    .object ["name", "type"] [.string "nulls",
      .object ["type", "items"] [.string "array", .string "null"]]]]

theorem nullsSchema_exact :
    ∃ json ty, Except.ok nullsSchema = (.ok json : Except String Json) ∧
      schemaType json = some ty ∧
      Exact { nodes := [.record [0, 2], .array 1, .null, .int], empty := [false, false, true, false],
              root := 3 } ty :=
  new_exact rfl

end Wire

end Ddi.Kafka.Decode
