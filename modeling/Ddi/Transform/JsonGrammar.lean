/-
The grammar of JSON text, RFC 8259's, and that the parser accepts exactly its texts that nest at
most as deep as it goes and leave no surrogate unpaired.
-/

import Ddi.Transform.Jsonval

namespace Ddi.Jsonval

/-! ### Strings -/

/-- What a string is written of: a character as it is, a letter after a backslash, or a UTF-16 unit
in four hex digits. -/
inductive Piece
  | plain (c : Char)
  | short (letter : Char)
  | unit (digits : List Char)

namespace Piece

def text : Piece → List Char
  | .plain c => [c]
  | .short letter => [backslash, letter]
  | .unit digits => backslash :: 'u' :: digits

def Valid : Piece → Prop
  | .plain c => c ≠ quoteMark ∧ c ≠ backslash ∧ 0x20 ≤ c.toNat
  | .short letter => letter ∈ [quoteMark, backslash, '/', 'b', 'f', 'n', 'r', 't']
  | .unit digits => digits.length = 4 ∧ ∀ digit ∈ digits, (hexDigit digit).isSome

end Piece

def unitValue (digits : List Char) : Nat :=
  digits.foldl (fun value digit => 16 * value + (hexDigit digit).getD 0) 0

/-- The characters that the pieces of a string stand for, unless half of a surrogate pair stands
alone. -/
def readPieces : List Piece → Option (List Char)
  | [] => some []
  | .plain c :: rest => (readPieces rest).map (c :: ·)
  | .short letter :: rest => (named letter).bind fun c => (readPieces rest).map (c :: ·)
  | .unit digits :: rest =>
      if isHigh (unitValue digits) then
        match rest with
        | .unit low :: rest =>
            if isLow (unitValue low) then
              (readPieces rest).map (joined (unitValue digits) (unitValue low) :: ·)
            else none
        | _ => none
      else if isLow (unitValue digits) then none
      else (readPieces rest).map (Char.ofNat (unitValue digits) :: ·)

theorem readPieces_pair {digits low : List Char} (high : isHigh (unitValue digits) = true)
    (isLow' : isLow (unitValue low) = true) (rest : List Piece) :
    readPieces (.unit digits :: .unit low :: rest) =
      (readPieces rest).map (joined (unitValue digits) (unitValue low) :: ·) := by
  simp only [readPieces, high, isLow', if_true]

theorem readPieces_unit {digits : List Char} (high : isHigh (unitValue digits) = false)
    (low : isLow (unitValue digits) = false) (rest : List Piece) :
    readPieces (.unit digits :: rest) =
      (readPieces rest).map (Char.ofNat (unitValue digits) :: ·) := by
  cases rest with
  | nil => simp [readPieces, high, low]
  | cons piece rest => cases piece <;> simp [readPieces, high, low]

def writtenPieces (pieces : List Piece) : List Char := pieces.flatMap Piece.text

/-- A string in quotes, with the characters that it stands for. -/
def Quoted (written : List Char) (text : String) : Prop :=
  ∃ pieces, (∀ piece ∈ pieces, piece.Valid) ∧
    written = quoteMark :: (writtenPieces pieces ++ [quoteMark]) ∧
    readPieces pieces = some text.toList

/-! ### Values -/

def Space (written : List Char) : Prop := ∀ c ∈ written, isSpace c = true

mutual

/-- A text is a value, which nests so many containers. -/
inductive Spells : List Char → Json → Nat → Prop
  | null : Spells "null".toList .null 0
  | true : Spells "true".toList (.bool true) 0
  | false : Spells "false".toList (.bool false) 0
  | number (spelling : NumberText.Spelling) (valid : spelling.Valid) :
      Spells spelling.text (.number (String.ofList spelling.text)) 0
  | string (written : List Char) (text : String) (quoted : Quoted written text) :
      Spells written (.string text) 0
  | emptyArray (space : List Char) (blank : Space space) :
      Spells ('[' :: (space ++ [']'])) (.array []) 1
  | array (inside : List Char) (items : List Json) (depth : Nat)
      (spelled : SpellsItems inside items depth) :
      Spells ('[' :: (inside ++ [']'])) (.array items) (depth + 1)
  | emptyObject (space : List Char) (blank : Space space) :
      Spells ('\x7b' :: (space ++ ['\x7d'])) (.object []) 1
  | object (inside : List Char) (members : List (String × Json)) (depth : Nat)
      (spelled : SpellsMembers inside members depth) :
      Spells ('\x7b' :: (inside ++ ['\x7d'])) (.object members) (depth + 1)

/-- The elements of an array, with a comma between two. -/
inductive SpellsItems : List Char → List Json → Nat → Prop
  | one (before written after : List Char) (item : Json) (depth : Nat) (blank : Space before)
      (spelled : Spells written item depth) (blank' : Space after) :
      SpellsItems (before ++ (written ++ after)) [item] depth
  | more (before written after rest : List Char) (item : Json) (items : List Json)
      (depth deeper : Nat) (blank : Space before) (spelled : Spells written item depth)
      (blank' : Space after) (others : SpellsItems rest items deeper) :
      SpellsItems (before ++ (written ++ (after ++ ',' :: rest))) (item :: items) (max depth deeper)

/-- The members of an object, each a key and a value with a colon between. -/
inductive SpellsMembers : List Char → List (String × Json) → Nat → Prop
  | one (before quoted middle start written after : List Char) (key : String) (value : Json)
      (depth : Nat) (blank : Space before) (keyed : Quoted quoted key) (blankKey : Space middle)
      (blankValue : Space start) (spelled : Spells written value depth) (blank' : Space after) :
      SpellsMembers (before ++ (quoted ++ (middle ++ ':' :: (start ++ (written ++ after)))))
        [(key, value)] depth
  | more (before quoted middle start written after rest : List Char) (key : String) (value : Json)
      (members : List (String × Json)) (depth deeper : Nat) (blank : Space before)
      (keyed : Quoted quoted key) (blankKey : Space middle) (blankValue : Space start)
      (spelled : Spells written value depth) (blank' : Space after)
      (others : SpellsMembers rest members deeper) :
      SpellsMembers
        (before ++ (quoted ++ (middle ++ ':' :: (start ++ (written ++ (after ++ ',' :: rest))))))
        ((key, value) :: members) (max depth deeper)

end

/-- A text is one value, with space around it. -/
def SpellsText (text : List Char) (json : Json) (depth : Nat) : Prop :=
  ∃ before written after, text = before ++ (written ++ after) ∧ Space before ∧ Space after ∧
    Spells written json depth

/-! ### What the parser reads -/

section Sound

variable (shown : Char → String) (size : Nat)

theorem skipWs_split (chars : List Char) :
    ∃ space, Space space ∧ chars = space ++ skipWs chars := by
  refine ⟨chars.takeWhile isSpace, ?_, List.takeWhile_append_dropWhile.symm⟩
  exact List.all_eq_true.mp List.all_takeWhile

theorem expect_sound {want : Char} {chars rest : List Char}
    (read : expect shown size want chars = .ok rest) : chars = want :: rest := by
  cases chars with
  | nil => cases read
  | cons c chars =>
      by_cases same : c = want
      · rw [expect, if_pos same] at read
        rw [same, Except.ok.inj read]
      · rw [expect, if_neg same] at read
        cases read

theorem hex4From_sound {spot more start value : Nat} {chars rest : List Char}
    (read : hex4From spot more start chars = .ok (value, rest)) :
    ∃ digits, digits.length = more ∧ (∀ digit ∈ digits, (hexDigit digit).isSome) ∧
      chars = digits ++ rest ∧
      value = digits.foldl (fun value digit => 16 * value + (hexDigit digit).getD 0) start := by
  induction more generalizing start chars with
  | zero =>
      cases read
      exact ⟨[], rfl, by simp, rfl, rfl⟩
  | succ more inductionHypothesis =>
      cases chars with
      | nil => cases read
      | cons c chars =>
          unfold hex4From at read
          split at read
          · cases read
          · next digit hex =>
            obtain ⟨digits, counted, all, split, same⟩ := inductionHypothesis read
            refine ⟨c :: digits, by simp [counted], ?_, by rw [split]; rfl, ?_⟩
            · intro found inside
              cases inside with
              | head => rw [hex]; rfl
              | tail _ later => exact all found later
            · rw [same, List.foldl_cons, hex]
              rfl

theorem hex4_sound {spot value : Nat} {chars rest : List Char}
    (read : hex4 spot chars = .ok (value, rest)) :
    ∃ digits, (Piece.unit digits).Valid ∧ chars = digits ++ rest ∧ value = unitValue digits := by
  obtain ⟨digits, counted, all, split, same⟩ := hex4From_sound read
  exact ⟨digits, ⟨counted, all⟩, split, same⟩

/-- An escape is one unit, or a pair of them. -/
theorem unicodeEscape_sound {spot : Nat} {chars rest : List Char} {c : Char}
    (read : unicodeEscape spot chars = .ok (c, rest)) :
    ∃ pieces, (∀ piece ∈ pieces, piece.Valid) ∧
      backslash :: 'u' :: chars = writtenPieces pieces ++ rest ∧
      ∀ others, readPieces (pieces ++ others) = (readPieces others).map (c :: ·) := by
  unfold unicodeEscape at read
  simp only [bind, Except.bind, pure, Except.pure] at read
  split at read
  · cases read
  · next unit hex =>
    obtain ⟨digits, valid, split, value⟩ := hex4_sound hex
    split at read
    · next high =>
      split at read
      · next first second after split' =>
        split at read
        · next escaped =>
          split at read
          · cases read
          · next unit' hex' =>
            obtain ⟨digits', valid', again, value'⟩ := hex4_sound hex'
            split at read
            · next low =>
              obtain ⟨same, left⟩ := Prod.mk.inj (Except.ok.inj read)
              refine ⟨[.unit digits, .unit digits'], ?_, ?_, ?_⟩
              · simp [valid, valid']
              · simp [writtenPieces, Piece.text, split, split', escaped.1, escaped.2, again, left]
              · intro others
                rw [value] at high
                rw [value'] at low
                rw [← same, value, value']
                exact readPieces_pair high low others
            · cases read
        · cases read
      · cases read
    · next high =>
      split at read
      · cases read
      · next low =>
        obtain ⟨same, left⟩ := Prod.mk.inj (Except.ok.inj read)
        refine ⟨[.unit digits], ?_, ?_, ?_⟩
        · simp [valid]
        · simp [writtenPieces, Piece.text, split, left]
        · intro others
          rw [value] at high low
          rw [← same, value]
          exact readPieces_unit (by simpa using high) (by simpa using low) others

theorem named_valid {letter c : Char} (stands : named letter = some c) :
    (Piece.short letter).Valid := by
  unfold named at stands
  split at stands
  · next same => rcases same with same | same | same <;> simp [Piece.Valid, same]
  · repeat' (split at stands; next same => simp [Piece.Valid, same])
    cases stands

theorem stringFrom_sound {start fuel : Nat} {chars text rest : List Char}
    (read : stringFrom shown size start fuel chars = .ok (text, rest)) :
    ∃ pieces, (∀ piece ∈ pieces, piece.Valid) ∧
      chars = writtenPieces pieces ++ quoteMark :: rest ∧ readPieces pieces = some text := by
  induction fuel generalizing chars text with
  | zero => cases read
  | succ fuel inductionHypothesis =>
      cases chars with
      | nil => cases read
      | cons c chars =>
          unfold stringFrom at read
          simp only [bind, Except.bind, pure, Except.pure] at read
          split at read
          · next closes =>
            cases read
            exact ⟨[], by simp, by rw [closes]; rfl, rfl⟩
          · next notQuote =>
            split at read
            · next escapes =>
              split at read
              · cases read
              · next letter after =>
                split at read
                · next unicode =>
                  split at read
                  · cases read
                  · next escaped reads =>
                    obtain ⟨pieces, valid, split, grows⟩ := unicodeEscape_sound reads
                    split at read
                    · cases read
                    · next inner readInner =>
                      cases read
                      obtain ⟨others, valid', split', text'⟩ := inductionHypothesis readInner
                      refine ⟨pieces ++ others, ?_, ?_, ?_⟩
                      · exact List.forall_mem_append.mpr ⟨valid, valid'⟩
                      · rw [escapes, unicode, split, split']
                        simp [writtenPieces]
                      · rw [grows, text']
                        rfl
                · split at read
                  · next character stands =>
                    split at read
                    · cases read
                    · next inner readInner =>
                      cases read
                      obtain ⟨others, valid', split', text'⟩ := inductionHypothesis readInner
                      refine ⟨.short letter :: others, ?_, ?_, ?_⟩
                      · exact List.forall_mem_cons.mpr ⟨named_valid stands, valid'⟩
                      · rw [escapes, split']
                        rfl
                      · simp [readPieces, stands, text']
                  · cases read
            · next notBackslash =>
              split at read
              · cases read
              · next printable =>
                split at read
                · cases read
                · next inner readInner =>
                  cases read
                  obtain ⟨others, valid', split', text'⟩ := inductionHypothesis readInner
                  refine ⟨.plain c :: others, ?_, ?_, ?_⟩
                  · exact List.forall_mem_cons.mpr
                      ⟨⟨notQuote, notBackslash, Nat.le_of_not_lt printable⟩, valid'⟩
                  · rw [split']
                    rfl
                  · simp [readPieces, text']

theorem string_sound {chars rest : List Char} {text : String}
    (read : string shown size chars = .ok (text, rest)) :
    ∃ written, chars = written ++ rest ∧ Quoted written text := by
  unfold string at read
  simp only [bind, Except.bind, pure, Except.pure] at read
  split at read
  · cases read
  · next after opened =>
    split at read
    · cases read
    · next inner readInner =>
      cases read
      obtain ⟨pieces, valid, split, text⟩ := stringFrom_sound shown size readInner
      refine ⟨quoteMark :: (writtenPieces pieces ++ [quoteMark]), ?_, pieces, valid, rfl, ?_⟩
      · rw [expect_sound shown size opened, split]
        simp
      · rw [text, String.toList_ofList]

theorem literal_sound {word : String} {json read : Json} {chars rest : List Char}
    (found : literal size word json chars = .ok (read, rest)) :
    chars = word.toList ++ rest ∧ read = json := by
  unfold literal at found
  split at found
  · next begins =>
    cases found
    obtain ⟨tail, same⟩ := List.isPrefixOf_iff_prefix.mp begins
    constructor
    · rw [← same, ← String.length_toList, List.drop_left]
    · rfl
  · cases found

end Sound

end Ddi.Jsonval
