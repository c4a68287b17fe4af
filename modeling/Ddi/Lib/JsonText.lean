/-
Texts as JSON writes them.

A string stands between quotes with the characters that would end it or could
not be read back escaped, and an array lists its strings with commas between
them. Either can be read back from the start of a longer text, so no two
different ones are written alike.
-/

import Mathlib.Data.Nat.Notation
import Mathlib.Tactic.Common
import Mathlib.Tactic.IntervalCases

namespace JsonText

def quote : Char := Char.ofNat 34

def backslash : Char := Char.ofNat 92

def hexDigit (value : Nat) : Char :=
  if value < 10 then Char.ofNat (48 + value) else Char.ofNat (87 + value)

/-- A character inside a string. -/
def escapeChar (character : Char) : List Char :=
  if character = quote then [backslash, quote]
  else if character = backslash then [backslash, backslash]
  else if character = Char.ofNat 8 then [backslash, 'b']
  else if character = Char.ofNat 9 then [backslash, 't']
  else if character = Char.ofNat 10 then [backslash, 'n']
  else if character = Char.ofNat 12 then [backslash, 'f']
  else if character = Char.ofNat 13 then [backslash, 'r']
  else if character.toNat < 32 then
    [backslash, 'u', '0', '0', hexDigit (character.toNat / 16), hexDigit (character.toNat % 16)]
  else [character]

def escape (text : List Char) : List Char := text.flatMap escapeChar

def quoted (text : List Char) : List Char := quote :: escape text ++ [quote]

/-- The items of an array after the first. -/
def following : List (List Char) → List Char
  | [] => []
  | item :: rest => ',' :: quoted item ++ following rest

def items : List (List Char) → List Char
  | [] => []
  | item :: rest => quoted item ++ following rest

def array (texts : List (List Char)) : List Char := '[' :: items texts ++ [']']

/-- The character that an escape names. -/
def named (letter : Char) : Char :=
  if letter = 'b' then Char.ofNat 8
  else if letter = 't' then Char.ofNat 9
  else if letter = 'n' then Char.ofNat 10
  else if letter = 'f' then Char.ofNat 12
  else if letter = 'r' then Char.ofNat 13
  else letter

end JsonText
