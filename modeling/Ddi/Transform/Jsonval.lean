/-
JSON text as Trino reads and writes it: a strict parser that keeps every number as the text it
was, the two generators, and Java's spellings of numbers.
-/

import Ddi.Lib.Assoc
import Ddi.Lib.Double
import Ddi.Lib.NumberText
import Mathlib.Data.String.Basic

namespace Ddi.Jsonval

/-- A parsed value. Objects keep the order of their members, and repeats. -/
inductive Json
  | null
  | bool (value : Bool)
  | number (text : String)
  | string (text : String)
  | array (items : List Json)
  | object (members : List (String × Json))

/-- A proof for every value from one for each kind, given it of what stands in a container. -/
@[elab_as_elim]
theorem Json.nested {motive : Json → Prop} (null : motive .null)
    (bool : ∀ value, motive (.bool value)) (number : ∀ text, motive (.number text))
    (string : ∀ text, motive (.string text))
    (array : ∀ items, (∀ item ∈ items, motive item) → motive (.array items))
    (object : ∀ members : List (String × Json), (∀ member ∈ members, motive member.2) →
      motive (.object members)) (json : Json) : motive json := by
  refine @Json.rec motive (fun items => ∀ item ∈ items, motive item)
    (fun members => ∀ member ∈ members, motive member.2) (fun member => motive member.2)
    null bool number string array object ?_ ?_ ?_ ?_ ?_ json
  · exact fun item inside => by cases inside
  · exact fun first rest holds all => List.forall_mem_cons.mpr ⟨holds, all⟩
  · exact fun member inside => by cases inside
  · exact fun first rest holds all => List.forall_mem_cons.mpr ⟨holds, all⟩
  · exact fun key value holds => holds

namespace Json

def asArray : Json → Option (List Json)
  | .array items => some items
  | _ => none

/-- The member under a key, the last one. -/
def get (key : String) : Json → Option Json
  | .object members => (members.reverse.find? fun member => member.1 == key).map Prod.snd
  | _ => none

end Json

/-! ### Numbers -/

/-- A number's text read as a double. -/
def parseF64 (text : String) : Option Double.Binary64 :=
  match NumberText.scan text.toList with
  | .ok (spelling, []) => some
      { negative := spelling.negative
        magnitude := Double.nearest (|spelling.value|) }
  | _ => none

/-- Numbers compare as doubles where both are read. -/
def sameNumber (first second : String) : Bool :=
  match parseF64 first, parseF64 second with
  | some one, some other => one.same other
  | _, _ => first == second

mutual

/-- Equality as a value. -/
def Json.sameValue : Json → Json → Bool
  | .number one, .number other => sameNumber one other
  | .array items, .array others => items.length == others.length && sameItems items others
  | .object members, .object others =>
      members.length == others.length && sameMembers members others
  | .null, .null => true
  | .bool one, .bool other => one == other
  | .string one, .string other => one == other
  | _, _ => false

def sameItems : List Json → List Json → Bool
  | item :: items, other :: others => item.sameValue other && sameItems items others
  | _, _ => true

/-- Each member is found among the others. -/
def sameMembers : List (String × Json) → List (String × Json) → Bool
  | [], _ => true
  | (key, value) :: members, others =>
      (others.any fun other => key == other.1 && value.sameValue other.2) &&
        sameMembers members others

end

/-! ### Parsing -/

def maxDepth : Nat := 512

def isSpace (c : Char) : Bool := c = ' ' || c = '\t' || c = '\n' || c = '\r'

def skipWs (chars : List Char) : List Char := chars.dropWhile isSpace

def byteLength (chars : List Char) : Nat := (chars.map Char.utf8Size).sum

def quoteMark : Char := Char.ofNat 34

def backslash : Char := Char.ofNat 92

section Parser

-- Where the parser is, is told by what is left: `size` is the text's, in bytes.
variable (shown : Char → String) (size : Nat)

def place (chars : List Char) : Nat := size - byteLength chars

def expect (want : Char) : List Char → Except String (List Char)
  | [] => .error s!"expected {shown want}, found the end of the text"
  | c :: rest =>
      if c = want then .ok rest
      else .error s!"expected {shown want} at byte {place size (c :: rest)}, found {shown c}"

def literal (word : String) (value : Json) (chars : List Char) :
    Except String (Json × List Char) :=
  if word.toList.isPrefixOf chars then .ok (value, chars.drop word.length)
  else .error s!"invalid literal at byte {place size chars}"

def hexDigit (c : Char) : Option Nat :=
  if c.isDigit then some (c.toNat - 48)
  else if 'a' ≤ c ∧ c ≤ 'f' then some (c.toNat - 87)
  else if 'A' ≤ c ∧ c ≤ 'F' then some (c.toNat - 55)
  else none

def hex4From (spot : Nat) : Nat → Nat → List Char → Except String (Nat × List Char)
  | 0, value, chars => .ok (value, chars)
  | _ + 1, _, [] => .error s!"truncated \\u escape at byte {spot}"
  | more + 1, value, c :: rest =>
      match hexDigit c with
      | none => .error s!"invalid \\u escape at byte {spot}"
      | some digit => hex4From spot more (16 * value + digit) rest

/-- Four hex digits: one UTF-16 unit. -/
def hex4 (spot : Nat) (chars : List Char) : Except String (Nat × List Char) := hex4From spot 4 0 chars

def isHigh (unit : Nat) : Bool := 0xD800 ≤ unit && unit < 0xDC00

def isLow (unit : Nat) : Bool := 0xDC00 ≤ unit && unit < 0xE000

def joined (high low : Nat) : Char :=
  Char.ofNat (0x10000 + (high - 0xD800) * 1024 + (low - 0xDC00))

/-- What follows the u of an escape: half a surrogate pair alone is refused. -/
def unicodeEscape (spot : Nat) (chars : List Char) : Except String (Char × List Char) := do
  let (unit, rest) ← hex4 spot chars
  if isHigh unit then
    match rest with
    | first :: second :: after =>
        if first = backslash ∧ second = 'u' then
          let (low, rest) ← hex4 spot after
          if isLow low then return (joined unit low, rest)
          else .error s!"invalid surrogate pair at byte {spot}"
        else .error s!"lone surrogate at byte {spot}"
    | _ => .error s!"lone surrogate at byte {spot}"
  else if isLow unit then .error s!"lone surrogate at byte {spot}"
  else return (Char.ofNat unit, rest)

/-- The character that a letter after a backslash stands for. -/
def named (letter : Char) : Option Char :=
  if letter = quoteMark ∨ letter = backslash ∨ letter = '/' then some letter
  else if letter = 'b' then some (Char.ofNat 8)
  else if letter = 'f' then some (Char.ofNat 12)
  else if letter = 'n' then some '\n'
  else if letter = 'r' then some '\r'
  else if letter = 't' then some '\t'
  else none

/-- The rest of a string, to its closing quote. -/
def stringFrom (start : Nat) : Nat → List Char → Except String (List Char × List Char)
  | 0, _ => .error s!"unterminated string starting at byte {start}"
  | _ + 1, [] => .error s!"unterminated string starting at byte {start}"
  | fuel + 1, c :: rest =>
      if c = quoteMark then .ok ([], rest)
      else if c = backslash then
        match rest with
        | [] => .error s!"unterminated escape at byte {place size (c :: rest)}"
        | letter :: after =>
            if letter = 'u' then do
              let (character, after) ← unicodeEscape (place size (c :: rest)) after
              let (text, rest) ← stringFrom start fuel after
              return (character :: text, rest)
            else
              match named letter with
              | some character => do
                  let (text, rest) ← stringFrom start fuel after
                  return (character :: text, rest)
              | none =>
                  .error s!"invalid escape \\{letter} at byte {place size (c :: rest)}"
      else if c.toNat < 0x20 then
        .error s!"control character {shown c} at byte {place size (c :: rest)} must be escaped"
      else do
        let (text, rest) ← stringFrom start fuel rest
        return (c :: text, rest)

def string (chars : List Char) : Except String (String × List Char) := do
  let rest ← expect shown size quoteMark chars
  let (text, rest) ← stringFrom shown size (place size chars) (rest.length + 1) rest
  return (String.ofList text, rest)

/-- The key of a member. -/
def memberKey : List Char → Except String (String × List Char)
  | [] => .error "expected a key, found the end of the text"
  | c :: rest =>
      if c = quoteMark then string shown size (c :: rest)
      else .error s!"expected a key at byte {place size (c :: rest)}, found {shown c}"

def faultText (start : Nat) : NumberText.Fault → String
  | .leadingZero => s!"number with a leading zero at byte {start}"
  | .noDigits => s!"invalid number at byte {start}"
  | .noFraction => s!"number with no digits after '.' at byte {start}"
  | .noExponent => s!"number with no exponent digits at byte {start}"

/-- A number, kept as text. -/
def number (chars : List Char) : Except String (Json × List Char) :=
  match NumberText.scan chars with
  | .ok (spelling, rest) => .ok (.number (String.ofList spelling.text), rest)
  | .error fault => .error (faultText (place size chars) fault)

def enter (depth : Nat) : Except String Nat :=
  if maxDepth < depth + 1 then .error s!"nested deeper than {maxDepth} levels"
  else .ok (depth + 1)

mutual

/-- A value, with the number of containers it stands in. The first argument is fuel: twice as
many steps as there are characters left are enough. -/
def value : Nat → Nat → List Char → Except String (Json × List Char)
  | 0, _, _ => .error "unexpected end of the text"
  | _ + 1, _, [] => .error "unexpected end of the text"
  | fuel + 1, depth, c :: rest =>
      if c = '\x7b' then do
        let depth ← enter depth
        if (skipWs rest).head? = some '\x7d' then return (.object [], (skipWs rest).tail)
        else
          let (members, rest) ← members fuel depth (skipWs rest)
          return (.object members, rest)
      else if c = '[' then do
        let depth ← enter depth
        if (skipWs rest).head? = some ']' then return (.array [], (skipWs rest).tail)
        else
          let (items, rest) ← items fuel depth (skipWs rest)
          return (.array items, rest)
      else if c = quoteMark then do
        let (text, rest) ← string shown size (c :: rest)
        return (.string text, rest)
      else if c = 't' then literal size "true" (.bool true) (c :: rest)
      else if c = 'f' then literal size "false" (.bool false) (c :: rest)
      else if c = 'n' then literal size "null" .null (c :: rest)
      else if c = '-' ∨ c.isDigit then number size (c :: rest)
      else .error s!"unexpected {shown c} at byte {place size (c :: rest)}"

/-- The members of an object from the first one's key to the closing brace. -/
def members : Nat → Nat → List Char → Except String (List (String × Json) × List Char)
  | 0, _, _ => .error "expected a key, found the end of the text"
  | fuel + 1, depth, chars => do
      let (key, rest) ← memberKey shown size (skipWs chars)
      let rest ← expect shown size ':' (skipWs rest)
      let (first, rest) ← value fuel depth (skipWs rest)
      match skipWs rest with
      | [] => .error "expected ',' or '\x7d', found the end of the text"
      | c :: after =>
          if c = ',' then do
            let (others, rest) ← members fuel depth after
            return ((key, first) :: others, rest)
          else if c = '\x7d' then return ([(key, first)], after)
          else .error (s!"expected ',' or '\x7d' at byte {place size (c :: after)}, found " ++ shown c)

/-- The elements of an array from the first one to the closing bracket. -/
def items : Nat → Nat → List Char → Except String (List Json × List Char)
  | 0, _, _ => .error "unexpected end of the text"
  | fuel + 1, depth, chars => do
      let (first, rest) ← value fuel depth (skipWs chars)
      match skipWs rest with
      | [] => .error "expected ',' or ']', found the end of the text"
      | c :: after =>
          if c = ',' then do
            let (others, rest) ← items fuel depth after
            return (first :: others, rest)
          else if c = ']' then return ([first], after)
          else .error s!"expected ',' or ']' at byte {place size (c :: after)}, found {shown c}"

end

end Parser

/-- A text read strictly: one value, and nothing after it. `shown` is how Rust shows a character
in a message. -/
def parse (shown : Char → String) (text : String) : Except String Json := do
  let chars := text.toList
  let size := byteLength chars
  let (json, rest) ← value shown size (2 * chars.length + 2) 0 (skipWs chars)
  match skipWs rest with
  | [] => return json
  | c :: after =>
      .error s!"unexpected {shown c} at byte {place size (c :: after)} after the value"

/-! ### Java's number spellings -/

def zeros (count : Nat) : List Char := List.replicate count '0'

/-- Digits written plainly, with at least one on each side of the point. -/
def plainLayout (digits : List Char) (exponent : Int) : List Char :=
  let point := exponent + 1
  if point ≤ 0 then '0' :: '.' :: (zeros (-point).toNat ++ digits)
  else if digits.length ≤ point.toNat then
    digits ++ zeros (point.toNat - digits.length) ++ ['.', '0']
  else digits.take point.toNat ++ '.' :: digits.drop point.toNat

/-- The shortest digits that a positive double is read back from, and its exponent. -/
def scientific (number : ℚ) : List Char × Int :=
  let found := Double.shortest number
  let digits := Nat.toDigits 10 found.1
  ((digits.reverse.dropWhile (· = '0')).reverse, found.2 + digits.length - 1)

def intText (number : Int) : List Char := (toString number).toList

/-- `Double.toString`. -/
def javaDouble (double : Double.Binary64) : List Char :=
  match double.magnitude with
  | .infinite => if double.negative then "-Infinity".toList else "Infinity".toList
  | .finite number =>
      let sign := if double.negative then ['-'] else []
      if number = 0 then sign ++ "0.0".toList
      else
        let (digits, exponent) := scientific number
        if 1 / 1000 ≤ number ∧ number < 10000000 then sign ++ plainLayout digits exponent
        else
          let rest := if digits.tail.isEmpty then ['0'] else digits.tail
          sign ++ digits.take 1 ++ '.' :: rest ++ 'E' :: intText exponent

/-- `BigDecimal.toString()` of the digits counted in tenths, as many times as the scale. -/
def javaBigdecimal (negative : Bool) (digits : List Char) (scale : Int) : List Char :=
  let digits := digits.dropWhile (· = '0')
  let digits := if digits.isEmpty then ['0'] else digits
  let precision : Int := digits.length
  let adjusted := -scale + (precision - 1)
  let sign := if negative && digits != ['0'] then ['-'] else []
  let body :=
    if scale = 0 then digits
    else if 0 < scale ∧ -6 ≤ adjusted then
      if scale < precision then
        digits.take (precision - scale).toNat ++ '.' :: digits.drop (precision - scale).toNat
      else '0' :: '.' :: (zeros (scale - precision).toNat ++ digits)
    else
      let rest := digits.tail
      let mantissa := if rest.isEmpty then digits.take 1 else digits.take 1 ++ '.' :: rest
      let power := if 0 ≤ adjusted then '+' :: intText adjusted else intText adjusted
      mantissa ++ 'E' :: power
  sign ++ body

/-- A text split at the first of some characters, which is left out. -/
def splitOnce (cut : Char → Bool) (text : List Char) : Option (List Char × List Char) :=
  match text.dropWhile fun c => !cut c with
  | [] => none
  | _ :: after => some (text.takeWhile fun c => !cut c, after)

def parseDigits (digits : List Char) : Option Nat :=
  if digits.isEmpty || digits.any fun digit => !digit.isDigit then none
  else some (NumberText.natural digits)

def parseI32 (text : List Char) : Option Int :=
  let read := match text with
    | '-' :: digits => (parseDigits digits).map fun (number : Nat) => -(number : Int)
    | '+' :: digits => (parseDigits digits).map fun (number : Nat) => (number : Int)
    | digits => (parseDigits digits).map fun (number : Nat) => (number : Int)
  read.filter fun number => -2 ^ 31 ≤ number && number < 2 ^ 31

/-- `new BigDecimal(text).toString()`, which an exponent past an int keeps as it is. -/
def javaBigdecimalText (text : List Char) : List Char :=
  let negative := text.head? == some '-'
  let rest := if negative then text.tail else text
  let respelt (mantissa : List Char) (exponent : Int) : List Char :=
    let (int, frac) := (splitOnce (· == '.') mantissa).getD (mantissa, [])
    javaBigdecimal negative (int ++ frac) (frac.length - exponent)
  match splitOnce (fun c => c == 'e' || c == 'E') rest with
  | some (mantissa, exponent) =>
      match parseI32 exponent with
      | some exponent => respelt mantissa exponent
      | none => text
  | none => respelt rest 0

/-! ### Writing -/

/-- How a number that was text becomes text again. -/
inductive Numbers
  | bigDecimal
  | javaDouble
  deriving DecidableEq

/-- How the members of an object are ordered. -/
inductive Members
  | verbatim
  /-- A repeated key keeps its first place and its last value. -/
  | lastWins
  /-- Sorted by key, after that. -/
  | sorted
  deriving DecidableEq

/-- Which of Jackson's generators writes. -/
inductive Generator
  | utf8
  | chars
  deriving DecidableEq

/-- The UTF-16 units of a character. -/
def units (c : Char) : List Nat :=
  if c.toNat < 0x10000 then [c.toNat]
  else [0xD800 + (c.toNat - 0x10000) / 1024, 0xDC00 + (c.toNat - 0x10000) % 1024]

def utf16 (text : String) : List Nat := text.toList.flatMap units

/-- Java's order of strings, by UTF-16 unit. -/
def javaStringLe (first second : String) : Bool := decide (utf16 first ≤ utf16 second)

def upperHex (digit : Nat) : Char :=
  if digit < 10 then Char.ofNat (48 + digit) else Char.ofNat (55 + digit)

/-- One UTF-16 unit as an escape. -/
def unitEscape (unit : Nat) : List Char :=
  [backslash, 'u', upperHex (unit / 4096 % 16), upperHex (unit / 256 % 16),
    upperHex (unit / 16 % 16), upperHex (unit % 16)]

def escapeChar (generator : Generator) (c : Char) : List Char :=
  if c = quoteMark then [backslash, quoteMark]
  else if c = backslash then [backslash, backslash]
  else if c = Char.ofNat 8 then [backslash, 'b']
  else if c = Char.ofNat 12 then [backslash, 'f']
  else if c = '\n' then [backslash, 'n']
  else if c = '\r' then [backslash, 'r']
  else if c = '\t' then [backslash, 't']
  else if c.toNat < 0x20 then unitEscape c.toNat
  else if 0xFFFF < c.toNat ∧ generator = .utf8 then (units c).flatMap unitEscape
  else [c]

def pushQuoted (generator : Generator) (text : String) : List Char :=
  quoteMark :: (text.toList.flatMap (escapeChar generator) ++ [quoteMark])

/-- A JSON string as Jackson's generator of bytes writes it. -/
def quote (text : String) : String := String.ofList (pushQuoted .utf8 text)

def numberText (numbers : Numbers) (text : String) : List Char :=
  if text.toList.any fun c => c == '.' || c == 'e' || c == 'E' then
    match numbers with
    | .bigDecimal => javaBigdecimalText text.toList
    | .javaDouble =>
        match parseF64 text with
        | some double =>
            if double.magnitude = .infinite then text.toList else javaDouble double
        | none => text.toList
  else text.toList

/-- The members of an object in the order that they are written in. -/
def ordered {α : Type} (members : Members) (pairs : List (String × α)) : List (String × α) :=
  match members with
  | .verbatim => pairs
  | .lastWins => pairs.foldl (fun seen pair => Assoc.put pair.1 pair.2 seen) []
  | .sorted =>
      (pairs.foldl (fun seen pair => Assoc.put pair.1 pair.2 seen) []).mergeSort
        fun first second => javaStringLe first.1 second.1

def separated (texts : List (List Char)) : List Char := (texts.intersperse [',']).flatten

section Writer

variable (members : Members) (numbers : Numbers) (generator : Generator)

mutual

/-- A value as compact text. The text of each member is made before they are ordered. -/
def write : Json → List Char
  | .null => "null".toList
  | .bool value => if value then "true".toList else "false".toList
  | .number text => numberText numbers text
  | .string text => pushQuoted generator text
  | .array items => '[' :: (separated (writeItems items) ++ [']'])
  | .object pairs =>
      '\x7b' :: (separated ((ordered members (writeMembers pairs)).map fun pair =>
        pushQuoted generator pair.1 ++ ':' :: pair.2) ++ ['\x7d'])

def writeItems : List Json → List (List Char)
  | [] => []
  | item :: items => write item :: writeItems items

def writeMembers : List (String × Json) → List (String × List Char)
  | [] => []
  | (key, value) :: pairs => (key, write value) :: writeMembers pairs

end

end Writer

def toString (json : Json) (members : Members) (numbers : Numbers) (generator : Generator) :
    String := String.ofList (write members numbers generator json)

/-! ### The functions -/

/-- `json_parse` of a value that is not null. -/
def jsonParse (shown : Char → String) (raw : String) : Except String String :=
  (parse shown raw).map fun doc => toString doc .sorted .bigDecimal .utf8

/-- What is looked for: the text as JSON, or as the string it is. -/
def needle (shown : Char → String) (text : String) : Json :=
  match parse shown text with
  | .ok json => json
  | .error _ => .string text

/-- `json_array_contains` of values that are not null. -/
def jsonArrayContains (shown : Char → String) (raw text : String) :
    Except String (Option Bool) :=
  (parse shown raw).map fun doc =>
    doc.asArray.map fun items => items.any fun item => item.sameValue (needle shown text)

end Ddi.Jsonval
