/-
Fitting decoded rows to what reads them, by name at every depth: a column of values of one type
into another type, each value with the reason it was rejected for, if it was.

A column is every value its array holds, and a value is fitted by itself but for what is decided
once for a column: the branch of a union, and whether any value is written as kafka-delta-ingest
wrote it.
-/

import Ddi.Kafka.KdiText

namespace Ddi.Kafka.Conform

/-- A value, and where it stood in kafka-delta-ingest's JSON. -/
structure Slot where
  cell : Cell
  stood : At

/-- What fitting a value made of it, and why it was rejected. -/
structure Fitted where
  cell : Cell
  bad : Option String

namespace Fitted

def clean (cell : Cell) : Fitted := { cell, bad := none }

end Fitted

/-- What a value is fitted into. -/
inductive Dest
  | target
  /-- The union, from a writer schema's rows, with the newest writer schema that has the field. -/
  | union (writer : Option Int) (newest : Nat)

/-- How kafka-delta-ingest's own text is written. -/
structure KdiText where
  compat : Bool := false
  nullText : Bool := false

structure Fitter where
  into : Dest
  text : KdiText := {}
  /-- The full name of each named type of the rows' writer schema, by the path of its values. -/
  names : List (String × String) := []

variable (arrow : Arrow) (fitter : Fitter)

/-! ### Reasons -/

def writerText (writer : Option Int) : String := writer.elim "?" toString

namespace Fitter

def notConverted (path : String) (source dest : DataType) : String :=
  match fitter.into with
  | .target =>
      s!"{path}: the value does not convert from {arrow.typeName source} to {arrow.typeName dest}"
  | .union writer newest =>
      s!"writer schema {writerText writer} field {path}: {arrow.typeName source} does not convert to " ++
        s!"{arrow.typeName dest} (its type in writer schema {newest}, the newest that has it)"

/-- The writer schema of the rows and that of the type, where rows go into the union. -/
def schemas : Option Int × Nat :=
  match fitter.into with
  | .union writer newest => (writer, newest)
  | .target => (none, 0)

def changed (path : String) (source dest : DataType) : String :=
  s!"writer schema {writerText fitter.schemas.1} field {path}: {arrow.typeName source} does not " ++
    s!"convert to {arrow.typeName dest} without changing the value (its type in writer schema " ++
    s!"{fitter.schemas.2}, the newest that has it)"

def dropped (path : String) : String :=
  s!"writer schema {writerText fitter.schemas.1} field {path}: the union the SQL runs over has no " ++
    s!"such field here (its type comes from writer schema {fitter.schemas.2}), and the value " ++
    "would be lost"

end Fitter

def nullIntoNotNull (path : String) : String :=
  s!"{path} is NOT NULL in the target, and this value is null"

def missingNotNull (path : String) : String :=
  s!"{path} is NOT NULL in the target, and nothing produces it (the row's writer schema has no " ++
    "such field)"

def fractionDropped (path : String) (dest : String) : String :=
  s!"{path}: the decimal has a fraction, which {dest} would drop"

/-! ### Plain values -/

def PlainType.isFloat : PlainType → Bool
  | .float16 | .float32 | .float64 => true
  | _ => false

def PlainType.isText : PlainType → Bool
  | .utf8 | .largeUtf8 | .utf8View => true
  | _ => false

def PlainType.isInteger : PlainType → Bool
  | .int8 | .int16 | .int32 | .int64 | .uint8 | .uint16 | .uint32 | .uint64 => true
  | _ => false

/-- The precision and scale of a decimal that is read from a text. -/
def decimalShape : PlainType → Option (Nat × Int)
  | .decimal128 precision scale => some (precision, scale)
  | .decimal256 precision scale => some (precision, scale)
  | _ => none

def PlainType.scale : PlainType → Option Int
  | .decimal32 _ scale | .decimal64 _ scale | .decimal128 _ scale | .decimal256 _ scale => some scale
  | _ => none

/-- A decimal with a fraction, going where only whole numbers go. -/
def decimalFractionDropped (source : DataType) (dest : PlainType) (cell : Cell) : Bool :=
  let whole := match dest with
    | .timestamp _ _ | .duration _ => true
    | dest => dest.isInteger
  match source, cell with
  | .plain type, .plain (some (.decimal unscaled)) =>
      match type.scale with
      | some scale => whole && 0 < scale && unscaled % 10 ^ scale.toNat != 0
      | none => false
  | _, _ => false

/-- A value that is not null converted, and whether that, cast back, is what it was. -/
def convert (source : DataType) (dest : PlainType) (cell : Cell) : Option (Value × Bool) :=
  if arrow.can source dest then
    match source, cell with
    | .plain own, .plain (some value) =>
        (arrow.cast own dest value).map fun out => (out, arrow.cast dest own out == some value)
    | .plain _, _ => none
    | _, cell => arrow.render source dest cell
  else none

namespace Fitter

/-- Into the union, a value that the conversion does not hold unchanged is rejected. -/
def unchanged (path : String) (source dest : DataType) (same : Bool) : Option String :=
  match fitter.into with
  | .target => none
  | .union _ _ => if same then none else some (fitter.changed arrow path source dest)

/-- A plain value cast leniently: one that the cast turns into a null is rejected. -/
def cast (source : DataType) (dest : PlainType) (path : String) (slot : Slot) : Fitted :=
  if slot.cell.isNull then .clean (.plain none)
  else
    match convert arrow source dest slot.cell with
    | none =>
        { cell := .plain none, bad := some (fitter.notConverted arrow path source (.plain dest)) }
    | some (value, same) =>
        let fraction := match fitter.into with
          | .target =>
              if decimalFractionDropped source dest slot.cell then
                some (fractionDropped path (arrow.typeName (.plain dest)))
              else none
          | .union _ _ => none
        { cell := .plain (some value)
          bad := (fitter.unchanged arrow path source (.plain dest) same).or fraction }

/-- A value that there is no place for. -/
def refused (source dest : DataType) (path : String) (slot : Slot) : Fitted where
  cell := nullCell dest
  bad := if slot.cell.isNull then none else some (fitter.notConverted arrow path source dest)

end Fitter

/-- The digits that are counted before a decimal's text is read. -/
def countedDigits (scale : Int) (text : String) : Nat :=
  count text.toList 0 none
where
  count : List Char → Nat → Option Nat → Nat
    | [], digits, _ => digits
    | char :: rest, digits, fraction =>
        if char = 'e' ∨ char = 'E' then digits
        else if char.isDigit then
          match fraction with
          | none => if digits = 0 ∧ char = '0' then count rest digits none
              else count rest (digits + 1) none
          | some places =>
              if (places : Int) < scale then count rest (digits + 1) (some (places + 1))
              else count rest digits (some places)
        else if char = '.' ∧ fraction.isNone then count rest digits (some 0)
        else count rest digits fraction

/-- The text of a float that is read into a decimal, where that can hold it. -/
def decimalText (bits : Nat) (precision : Nat) (scale : Int) : Option String :=
  if !arrow.isFinite bits then none
  else if arrow.isAtLeastPowerOfTen bits (max (precision - scale) 0 + 1) then none
  else some (arrow.display bits)

/-- The text that a decimal is read from. -/
def textOf (dest : PlainType) (value : Value) : Option String :=
  match value with
  | .float bits => (decimalShape dest).bind fun (precision, scale) => decimalText arrow bits precision scale
  | .text text => some text
  | _ => none

namespace Fitter

/-- A float or a text into a decimal, through its text. -/
def parseDecimal (own dest : PlainType) (path : String) (slot : Slot) : Fitted :=
  match slot.cell with
  | .plain (some value) =>
      let read := (textOf arrow dest value).bind fun text =>
        if countedDigits ((decimalShape dest).elim 0 Prod.snd) text ≤ 255 then
          arrow.parseDecimal dest text
        else none
      match read with
      | none =>
          { cell := .plain none
            bad := some (fitter.notConverted arrow path (.plain own) (.plain dest)) }
      | some unscaled =>
          { cell := .plain (some (.decimal unscaled))
            bad := fitter.unchanged arrow path (.plain own) (.plain dest)
              (arrow.cast dest own (.decimal unscaled) == some value) }
  | _ => .clean (.plain none)

/-! ### kafka-delta-ingest's text -/

/-- A null here becomes the text. -/
def nullWord (reach : Bool) (slot : Slot) : Bool :=
  fitter.text.nullText && reach && slot.stood.key

/-- The text in place of a null that asks for it. -/
def withNullWord (reach : Bool) (slot : Slot) (fitted : Fitted) : Fitted :=
  if fitted.cell.isNull && fitter.nullWord reach slot && fitted.bad.isNone then
    { fitted with cell := .plain (some (.text "null")) }
  else fitted

/-- A text's type, a dictionary of texts among them. -/
def isText : DataType → Bool
  | .plain (.dictionary value) => value.isText
  | .plain type => type.isText
  | _ => false

/-- A value going into a STRING where kafka-delta-ingest's text is written. -/
def kdiText (column : List Slot) (source : DataType) (path : String) (top reach : Bool)
    (slot : Slot) : Fitted :=
  let anyConverted := fitter.text.compat &&
    column.any fun slot => converted source slot.stood.shape
  if (isText source && !anyConverted) || !fitter.text.compat then
    if source = .plain .utf8 then fitter.withNullWord reach slot (.clean slot.cell)
    else if top && !column.any fun slot => fitter.nullWord reach slot && slot.cell.isNull then
      -- Nothing to write the text into: the coercer casts it.
      .clean slot.cell
    else fitter.withNullWord reach slot (fitter.cast arrow source .utf8 path slot)
  else if slot.cell.isNull then
    .clean (.plain (if fitter.nullWord reach slot then some (.text "null") else none))
  else
    match Conform.text arrow source slot.cell slot.stood.shape with
    | .ok text => .clean (.plain (some (.text text)))
    | .error why => { cell := .plain none, bad := some s!"{path}: {why}" }

end Fitter

/-! ### Structs, lists and maps -/

/-- Fitting into a smaller type: the column, the types, the path, whether this is a column of the
target's own, and how far kafka-delta-ingest's coercion reached. -/
abbrev Inner :=
  List Slot → DataType → DataType → String → Bool → Option Bool → Slot → Fitted

def childSlot (name : String) (place : Nat) (slot : Slot) : Slot where
  cell := slot.cell.child place
  stood := if slot.cell.valid then slot.stood.child name else .absent

def elementSlots (slot : Slot) : List Slot :=
  slot.cell.elements.map fun cell =>
    { cell, stood := if slot.cell.valid then slot.stood.element else .absent }

def keySlots (slot : Slot) : List Slot :=
  slot.cell.entries.map fun entry => { cell := entry.1, stood := .absent }

def valueSlots (slot : Slot) : List Slot :=
  slot.cell.entries.map fun entry =>
    { cell := entry.2, stood := if slot.cell.valid then slot.stood.value else .absent }

/-- A fitted value in its field: a null in one that is NOT NULL is rejected, and replaced. -/
def inField (type : DataType) (nullable : Bool) (path : String) (fitted : Fitted) : Fitted where
  cell := if nullable then fitted.cell else forceValid type fitted.cell
  bad := fitted.bad.or
    (if !nullable && fitted.cell.isNull then some (nullIntoNotNull path) else none)

namespace Fitter

variable (inner : Inner)

/-- One field of a struct, from the rows' field of exactly its name. -/
def field (column : List Slot) (source : List Field) (path : String) (kdi : Option Bool)
    (slot : Slot) (dest : Field) : Fitted :=
  let childPath := s!"{path}.{dest.name}"
  match fieldNamed dest.name source with
  | some (place, own) =>
      inField dest.type dest.nullable childPath
        (inner (column.map (childSlot dest.name place)) own.type dest.type childPath false kdi
          (childSlot dest.name place slot))
  | none =>
      { cell := if dest.nullable then nullCell dest.type else forceValid dest.type (nullCell dest.type)
        bad := if dest.nullable then none else some (missingNotNull childPath) }

/-- The first field of a record that has a value and no place in the type it goes into. -/
def lostField (source dest : List Field) (path : String) (cell : Cell) : Option String :=
  match fitter.into with
  | .target => none
  | .union _ _ =>
      (source.zipIdx.find? fun (field, place) =>
        (fieldNamed field.name dest).isNone && (cell.child place).valid).map fun (field, _) =>
          fitter.dropped s!"{path}.{field.name}"

/-- A struct into a struct, field by field of the one it goes into. -/
def structs (column : List Slot) (source dest : List Field) (path : String) (kdi : Option Bool)
    (slot : Slot) : Fitted :=
  let fitted := dest.map (field inner column source path kdi slot)
  { cell := .struct slot.cell.valid (fitted.map (·.cell))
    bad :=
      if slot.cell.valid then
        (fitted.findSome? (·.bad)).or (fitter.lostField source dest path slot.cell)
      else none }

/-- A list into a list, its elements in place. -/
def list (column : List Slot) (source dest : DataType) (nullable : Bool) (path : String)
    (kdi : Option Bool) (slot : Slot) : Fitted :=
  let itemPath := s!"{path}[]"
  let fitted := (elementSlots slot).map fun element =>
    inField dest nullable itemPath
      (inner (column.flatMap elementSlots) source dest itemPath false
        (kdi.map fun reach => reach && reachesElements dest) element)
  { cell := .list slot.cell.valid (fitted.map (·.cell))
    bad := if slot.cell.valid then fitted.findSome? (·.bad) else none }

end Fitter

/-- The text of a key of kafka-delta-ingest's maps. -/
def keyText : Cell → String
  | .plain (some (.text text)) => text
  | _ => ""

/-- One entry per key, the last one, in the keys' byte order. -/
def kdiOrder {α : Type} (entries : List (String × α)) : List α :=
  (Ordered.collect entries).map Prod.snd

namespace Fitter

variable (inner : Inner)

/-- The fitted keys and values of a map, in kafka-delta-ingest's order where it is written. -/
def ordered (toKey : DataType) (kdi : Option Bool) (entries : List (Fitted × Fitted)) :
    List (Fitted × Fitted) :=
  if kdi.isSome && fitter.text.compat && toKey == .plain .utf8 then
    kdiOrder (entries.map fun entry => (keyText entry.1.cell, entry))
  else entries

/-- A map into a map, keys and values in place. -/
def map (column : List Slot) (fromKey fromValue toKey toValue : DataType) (nullable : Bool)
    (path : String) (kdi : Option Bool) (slot : Slot) : Fitted :=
  let keyPath := path ++ "\x7bkey\x7d"
  let valuePath := path ++ "\x7b\x7d"
  let keys := (keySlots slot).map fun key =>
    inField toKey false keyPath
      (inner (column.flatMap keySlots) fromKey toKey keyPath false (kdi.map fun _ => false) key)
  let values := (valueSlots slot).map fun value =>
    inField toValue nullable valuePath
      (inner (column.flatMap valueSlots) fromValue toValue valuePath false
        (kdi.map fun _ => false) value)
  { cell := .map slot.cell.valid
      ((fitter.ordered toKey kdi (keys.zip values)).map fun entry => (entry.1.cell, entry.2.cell))
    bad :=
      if slot.cell.valid then (keys.findSome? (·.bad)).or (values.findSome? (·.bad)) else none }

end Fitter

/-! ### Unions -/

/-- What a column holds in one branch. -/
def branchSlots (branch : Nat) (name : String) (column : List Slot) : List Slot :=
  column.filterMap fun slot =>
    match slot.cell with
    | .union own held =>
        if own = branch then some { cell := held, stood := slot.stood.branch name } else none
    | _ => none

/-- Avro's schema resolution promotes a value of one type to the other. -/
def promotes : DataType → DataType → Bool
  | .plain .int32, .plain dest => dest = .int64 || dest = .float32 || dest = .float64
  | .plain .int64, .plain dest => dest = .float32 || dest = .float64
  | .plain .float32, .plain dest => dest = .float64
  | .plain .utf8, .plain dest => dest = .binary
  | .plain .binary, .plain dest => dest = .utf8
  | _, _ => false

/-- How well a record branch holds a record's fields: all of them, how many, how few others. -/
structure Rank where
  all : Bool
  held : Nat
  fields : Nat

def rank (children theirs : List Field) : Rank where
  all := children.all fun child => (fieldNamed child.name theirs).isSome
  held := (children.filter fun child => (fieldNamed child.name theirs).isSome).length
  fields := theirs.length

def Rank.better (next best : Rank) : Bool :=
  if next.all != best.all then next.all
  else if next.held ≠ best.held then best.held < next.held
  else next.fields < best.fields

/-- The record branch of a union that a record goes into by its structure, the first of the
best. -/
def bestRecord (children : List Field) (fields : List Field) : Option (Nat × Field) :=
  (fields.zipIdx.foldl
    (fun best (field, place) =>
      match field.type with
      | .struct theirs =>
          let own := rank children theirs.toList
          if own.held = 0 && !children.isEmpty then best
          else
            match best with
            | none => some (own, place, field)
            | some (held, _, _) => if own.better held then some (own, place, field) else best
      | _ => best) (none : Option (Rank × Nat × Field))).map Prod.snd

/-- The branch that Avro's own resolution picks, where it picks one. -/
def resolvedBranch (source : DataType) (fields : List Field) (name : Option String) :
    Option (Nat × Field) :=
  let named := name.bind fun name => fieldNamed name fields
  let same := findField (fun field => field.type == source || field.type == relax source) fields
  let kind := match source with
    | .struct children => bestRecord children.toList fields
    | .list .list _ _ =>
        findField (fun field => match field.type with | .list .list _ _ => true | _ => false) fields
    | .map _ _ _ =>
        findField (fun field => match field.type with | .map _ _ _ => true | _ => false) fields
    | _ => none
  let promoted := findField (fun field => promotes source field.type) fields
  ((named.or same).or kind).or promoted

def nullBranch (fields : List Field) : Option (Nat × Field) :=
  findField (fun field => field.type == .plain .null) fields

/-- The branches that a value has a cast to. -/
def castBranches (source : DataType) (fields : List Field) : List (Nat × PlainType) :=
  fields.zipIdx.filterMap fun (field, place) =>
    match field.type with
    | .plain .null => none
    | .plain dest => if arrow.can source dest then some (place, dest) else none
    | _ => none

namespace Fitter

variable (inner : Inner)

/-- The branch of a union that a column's values go into, and the values fitted to it: the one
Avro picks; else the first that every value converts to; else the first that any does. -/
def branchFor (column : List Slot) (source : DataType) (fields : List Field) (first : Field)
    (path : String) (name : Option String) (union : DataType) : Nat × (Slot → Fitted) :=
  match resolvedBranch source fields name with
  | some (branch, field) => (branch, inner column source field.type path false none)
  | none =>
      let candidates := castBranches arrow source fields
      let whole := candidates.find? fun candidate =>
        column.all fun slot => (fitter.cast arrow source candidate.2 path slot).bad.isNone
      match whole.or candidates.head? with
      | some (branch, dest) => (branch, fitter.cast arrow source dest path)
      | none =>
          let (branch, field) := (nullBranch fields).getD (0, first)
          (branch, fun slot =>
            { fitter.refused arrow source union path slot with cell := nullCell field.type })

/-- A plain value into a general union: a null into its null branch where it has one. -/
def wrapInUnion (column : List Slot) (source dest : DataType) (fields : List Field) (first : Field)
    (path : String) (slot : Slot) : Fitted :=
  let (branch, fit) := fitter.branchFor arrow inner column source fields first path
    (fitter.names.lookup path) dest
  let fitted := fit slot
  match nullBranch fields with
  | some (null, _) =>
      if slot.cell.isNull && null != branch then
        { fitted with cell := .union null (.plain none) }
      else { fitted with cell := .union branch fitted.cell }
  | none => { fitted with cell := .union branch fitted.cell }

def branchPath (path name : String) : String := s!"{path} (union branch {name})"

/-- A general union into another type: what it holds, fitted to that. -/
def unionTo (column : List Slot) (fields : List Field) (dest : DataType) (path : String)
    (kdi : Option Bool) (slot : Slot) : Fitted :=
  match slot.cell with
  | .union branch held =>
      match fields[branch]? with
      | some field =>
          inner (branchSlots branch field.name column) field.type dest (branchPath path field.name)
            false kdi { cell := held, stood := slot.stood.branch field.name }
      | none => .clean (nullCell dest)
  | _ => .clean (nullCell dest)

/-- A general union into another: each branch's values into the branch that takes them. -/
def unionToUnion (column : List Slot) (fromFields : List Field) (dest : DataType)
    (fields : List Field) (first : Field) (path : String) (slot : Slot) : Fitted :=
  match slot.cell with
  | .union branch held =>
      match fromFields[branch]? with
      | some field =>
          let (target, fit) := fitter.branchFor arrow inner
            (branchSlots branch field.name column) field.type fields first
            (branchPath path field.name) (some field.name) dest
          let fitted := fit { cell := held, stood := slot.stood.branch field.name }
          { fitted with cell := .union target fitted.cell }
      | none => .clean (nullCell dest)
  | _ => .clean (nullCell dest)

/-! ### Any type into any type -/

/-- Equal types still need work where a null may become the text, or entries be put in order. -/
def kdiWork (dest : DataType) (kdi : Option Bool) : Bool :=
  match kdi with
  | none => false
  | some reach =>
      (fitter.text.nullText && takesNullText dest reach) || (fitter.text.compat && hasMap dest)

/-- A value that no container takes part in: left for the coercer where it is a column's own. -/
def plain (source : DataType) (dest : PlainType) (path : String) (top : Bool) (slot : Slot) : Fitted :=
  match source with
  | .plain .null => .clean (.plain none)
  | .plain own =>
      if (own.isFloat || own.isText) && (decimalShape dest).isSome then
        fitter.parseDecimal arrow own dest path slot
      else if top then .clean slot.cell
      else fitter.cast arrow source dest path slot
  | source => if top then .clean slot.cell else fitter.cast arrow source dest path slot

/-- A value of one type fitted into another. Each step is into a smaller type of one of the two,
so that as many steps as they are large are enough. -/
def fitWithin : Nat → Inner
  | 0, _, _, dest, path, _, _, _ => { cell := nullCell dest, bad := some s!"{path}: too deep" }
  | steps + 1, column, source, dest, path, top, kdi, slot =>
      let inner := fitWithin steps
      if source = dest ∧ fitter.kdiWork dest kdi = false then .clean slot.cell
      else
        match source, dest with
        | .union fromName fromType fromRest, .union name type rest =>
            fitter.unionToUnion arrow inner column (branches fromName fromType fromRest)
              (.union name type rest) (branches name type rest) { name, type, nullable := true }
              path slot
        | .union name type rest, dest =>
            unionTo inner column (branches name type rest) dest path kdi slot
        | source, .union name type rest =>
            fitter.wrapInUnion arrow inner column source (.union name type rest)
              (branches name type rest) { name, type, nullable := true } path slot
        | source, .plain dest =>
            match kdi, dest with
            | some reach, .utf8 => fitter.kdiText arrow column source path top reach slot
            | _, dest => fitter.plain arrow source dest path top slot
        | .plain .null, dest => .clean (nullCell dest)
        | .struct source, .struct dest =>
            fitter.structs inner column source.toList dest.toList path kdi slot
        | .list _ source _, .list .list dest nullable =>
            list inner column source dest nullable path kdi slot
        | .map fromKey fromValue _, .map key value nullable =>
            fitter.map inner column fromKey fromValue key value nullable path kdi slot
        | source, dest => fitter.refused arrow source dest path slot

def fit (column : List Slot) (source dest : DataType) (path : String) (top : Bool)
    (kdi : Option Bool) (slot : Slot) : Fitted :=
  fitter.fitWithin arrow (source.size + dest.size) column source dest path top kdi slot

end Fitter

end Ddi.Kafka.Conform
