/-
Texts that are put together of texts: what a text spells that is built of others, and that the
parser reads it back as long as it does not nest too deep.
-/

import Ddi.Transform.JavaDouble
import Ddi.Transform.JsonBuild
import Ddi.Transform.JsonUnambiguous
import Ddi.Transform.JsonWrite
import Mathlib.Data.List.Forall2

namespace Ddi.Jsonval

/-! ### Nesting -/

mutual

/-- How many containers stand in one another. -/
def nesting : Json → Nat
  | .null => 0
  | .bool _ => 0
  | .number _ => 0
  | .string _ => 0
  | .array items => nestingItems items + 1
  | .object members => nestingMembers members + 1

def nestingItems : List Json → Nat
  | [] => 0
  | item :: items => max (nesting item) (nestingItems items)

def nestingMembers : List (String × Json) → Nat
  | [] => 0
  | (_, value) :: members => max (nesting value) (nestingMembers members)

end

theorem SpellsItems.nesting {items : List Json}
    (each : ∀ item ∈ items, ∀ written depth, Spells written item depth → depth = nesting item) :
    ∀ inside depth, SpellsItems inside items depth → depth = nestingItems items := by
  induction items with
  | nil =>
      intro inside depth spelled
      cases spelled
  | cons item items inductionHypothesis =>
      intro inside depth spelled
      cases spelled with
      | one before written after _ _ _ value _ =>
          rw [nestingItems, ← each item List.mem_cons_self written depth value]
          exact (Nat.max_zero depth).symm
      | more before written after rest _ _ first deeper _ value _ others =>
          have later := inductionHypothesis
            (fun held among => each held (List.mem_cons_of_mem _ among)) rest deeper others
          rw [nestingItems, ← each item List.mem_cons_self written first value, ← later]

theorem SpellsMembers.nesting {members : List (String × Json)}
    (each : ∀ member ∈ members, ∀ written depth, Spells written member.2 depth →
      depth = nesting member.2) :
    ∀ inside depth, SpellsMembers inside members depth → depth = nestingMembers members := by
  induction members with
  | nil =>
      intro inside depth spelled
      cases spelled
  | cons member members inductionHypothesis =>
      intro inside depth spelled
      cases spelled with
      | one before quoted middle start written after key value _ _ _ _ _ spelt _ =>
          rw [nestingMembers, ← each (key, value) List.mem_cons_self written depth spelt]
          exact (Nat.max_zero depth).symm
      | more before quoted middle start written after rest key value _ first deeper _ _ _ _ spelt _
          others =>
          have later := inductionHypothesis
            (fun held among => each held (List.mem_cons_of_mem _ among)) rest deeper others
          rw [nestingMembers, ← each (key, value) List.mem_cons_self written first spelt, ← later]

/-- A value nests as deep as any text that spells it. -/
theorem Spells.nesting (json : Json) :
    ∀ written depth, Spells written json depth → depth = nesting json := by
  induction json using Json.nested with
  | null =>
      intro written depth spelled
      cases spelled
      rfl
  | bool value =>
      intro written depth spelled
      cases spelled <;> rfl
  | number text =>
      intro written depth spelled
      cases spelled
      rfl
  | string text =>
      intro written depth spelled
      cases spelled
      rfl
  | array items inductionHypothesis =>
      intro written depth spelled
      cases spelled with
      | emptyArray => rfl
      | array inside _ depth spelled =>
          exact congrArg Nat.succ (spelled.nesting inductionHypothesis inside depth)
  | object members inductionHypothesis =>
      intro written depth spelled
      cases spelled with
      | emptyObject => rfl
      | object inside _ depth spelled =>
          exact congrArg Nat.succ (spelled.nesting inductionHypothesis inside depth)

/-! ### What a text spells -/

/-- A text is JSON of a value, with space around it. -/
def Spelled (text : String) (json : Json) : Prop := ∃ depth, SpellsText text.toList json depth

theorem spelled_of_spells {written : List Char} {json : Json} {depth : Nat}
    (spelled : Spells written json depth) : Spelled (String.ofList written) json := by
  refine ⟨depth, [], written, [], ?_, space_nil, space_nil, spelled⟩
  rw [String.toList_ofList]
  simp

theorem Spelled.unique {text : String} {json other : Json} (spelled : Spelled text json)
    (spelled' : Spelled text other) : json = other := by
  obtain ⟨depth, one⟩ := spelled
  obtain ⟨depth', another⟩ := spelled'
  exact spellsText_unique one another

/-- The parser reads back what is spelled, unless it nests too deep. -/
theorem parse_spelled (shown : Char → String) (text : String) (json : Json) :
    parse shown text = .ok json ↔ Spelled text json ∧ nesting json ≤ maxDepth := by
  rw [parse_iff]
  constructor
  · intro found
    obtain ⟨depth, spelled, bound⟩ := found
    obtain ⟨before, written, after, same, blank, blank', value⟩ := spelled
    rw [← Spells.nesting json written depth value]
    exact ⟨⟨depth, before, written, after, same, blank, blank', value⟩, bound⟩
  · intro both
    obtain ⟨⟨depth, before, written, after, same, blank, blank', value⟩, bound⟩ := both
    rw [← Spells.nesting json written depth value] at bound
    exact ⟨depth, ⟨before, written, after, same, blank, blank', value⟩, bound⟩

/-- A JSON text has one value, which the parser reads unless it nests too deep: then the parser
refuses the text. -/
theorem parse_one (shown : Char → String) {text : String} {json : Json}
    (spelled : Spelled text json) :
    (∀ other, Spelled text other → other = json) ∧
      (nesting json ≤ maxDepth → parse shown text = .ok json) ∧
      (maxDepth < nesting json → ∃ error, parse shown text = .error error) := by
  refine ⟨fun other again => again.unique spelled, ?_, ?_⟩
  · intro shallow
    exact (parse_spelled shown text json).mpr ⟨spelled, shallow⟩
  · intro deep
    cases read : parse shown text with
    | error error => exact ⟨error, rfl⟩
    | ok other =>
        obtain ⟨again, shallow⟩ := (parse_spelled shown text other).mp read
        rw [again.unique spelled] at shallow
        exact absurd shallow (Nat.not_le.mpr deep)

theorem parse_one_list :
    Spelled "[true]" (.array [.bool true]) ∧
      parse String.singleton "[true]" = .ok (.array [.bool true]) := by
  have item := SpellsItems.one [] _ [] _ _ space_nil Spells.true space_nil
  have spelled : Spelled "[true]" (.array [.bool true]) :=
    spelled_of_spells (.array _ _ _ item)
  exact ⟨spelled, (parse_one String.singleton spelled).2.1 (by decide)⟩

theorem spelled_null : Spelled "null" .null := spelled_of_spells .null

theorem spelled_quote (text : String) : Spelled (quote text) (.string text) :=
  spelled_of_spells (.string _ _ (pushQuoted_quoted .utf8 text))

theorem spelled_number {spelling : NumberText.Spelling} (valid : spelling.Valid) :
    Spelled (String.ofList spelling.text) (.number (String.ofList spelling.text)) :=
  spelled_of_spells (.number spelling valid)

/-- Texts with commas between them are elements. -/
theorem spelled_items {texts : List String} {items : List Json}
    (each : List.Forall₂ Spelled texts items) (some : texts ≠ []) :
    ∃ depth, SpellsItems (separated (texts.map String.toList)) items depth := by
  induction each with
  | nil => exact (some rfl).elim
  | @cons text item texts items first rest inductionHypothesis =>
      obtain ⟨depth, before, written, after, same, blank, blank', value⟩ := first
      cases rest with
      | nil =>
          have one := SpellsItems.one before written after item depth blank value blank'
          rw [← same] at one
          exact ⟨depth, by simpa [separated] using one⟩
      | @cons next other texts items second rest =>
          obtain ⟨deeper, others⟩ := inductionHypothesis (List.cons_ne_nil _ _)
          have more := SpellsItems.more before written after _ item _ depth deeper blank value
            blank' others
          refine ⟨max depth deeper, ?_⟩
          rw [List.map_cons, List.map_cons, separated_cons, same]
          simpa using more

theorem spelled_bracketed {texts : List String} {items : List Json}
    (each : List.Forall₂ Spelled texts items) :
    Spelled (JsonBuild.bracketed texts) (.array items) := by
  cases texts with
  | nil =>
      cases each
      exact spelled_of_spells (.emptyArray [] space_nil)
  | cons text texts =>
      obtain ⟨depth, inside⟩ := spelled_items each (List.cons_ne_nil _ _)
      exact spelled_of_spells (.array _ _ _ inside)

/-- A quoted key and a text stand for a key and a value. -/
def SpelledMember (member : String × String) (pair : String × Json) : Prop :=
  member.1 = quote pair.1 ∧ Spelled member.2 pair.2

theorem spelled_members {members : List (String × String)} {pairs : List (String × Json)}
    (each : List.Forall₂ SpelledMember members pairs) (some : members ≠ []) :
    ∃ depth, SpellsMembers (separated (members.map fun member =>
      member.1.toList ++ ':' :: member.2.toList)) pairs depth := by
  induction each with
  | nil => exact (some rfl).elim
  | @cons member pair members pairs first rest inductionHypothesis =>
      obtain ⟨keyed, depth, before, written, after, same, blank, blank', value⟩ := first
      have quoted : Quoted member.1.toList pair.1 := by
        rw [keyed, quote, String.toList_ofList]
        exact pushQuoted_quoted .utf8 pair.1
      cases rest with
      | nil =>
          have one := SpellsMembers.one [] _ [] before written after pair.1 pair.2 depth space_nil
            quoted space_nil blank value blank'
          rw [← same] at one
          exact ⟨depth, by simpa [separated] using one⟩
      | @cons next other members pairs second rest =>
          obtain ⟨deeper, others⟩ := inductionHypothesis (List.cons_ne_nil _ _)
          have more := SpellsMembers.more [] _ [] before written after _ pair.1 pair.2 _ depth
            deeper space_nil quoted space_nil blank value blank' others
          refine ⟨max depth deeper, ?_⟩
          rw [List.map_cons, List.map_cons, separated_cons, same]
          simpa using more

theorem spelled_braced {members : List (String × String)} {pairs : List (String × Json)}
    (each : List.Forall₂ SpelledMember members pairs) :
    Spelled (JsonBuild.braced members) (.object pairs) := by
  cases members with
  | nil =>
      cases each
      exact spelled_of_spells (.emptyObject [] space_nil)
  | cons member members =>
      obtain ⟨depth, inside⟩ := spelled_members each (List.cons_ne_nil _ _)
      exact spelled_of_spells (.object _ _ _ inside)

/-! ### Numbers -/

/-- A number of a value. -/
def IsNumber (value : ℚ) (json : Json) : Prop :=
  ∃ text, json = .number text ∧ NumberText.valueOf text.toList = some value

/-- A number's text read as the nearest of a format. -/
def readAs (format : Binary.Format) (text : String) : Option Double.Binary64 :=
  match NumberText.scan text.toList with
  | .ok (spelling, []) => some
      { negative := spelling.negative
        magnitude := format.nearest (|spelling.value|) }
  | _ => none

theorem readAs_double : readAs Binary.binary64 = parseF64 := rfl

/-- The characters of a number. -/
theorem text_clear {spelling : NumberText.Spelling} (valid : spelling.Valid) {c : Char}
    (inside : c ∈ spelling.text) : c.isDigit = true ∨ c ∈ ['-', '.', 'e', 'E', '+'] := by
  unfold NumberText.Spelling.text at inside
  rw [List.append_assoc, List.append_assoc] at inside
  rcases List.mem_append.mp inside with sign | rest
  · right
    split at sign
    · rw [List.mem_singleton.mp sign]
      decide
    · cases sign
  · rw [← List.append_assoc] at rest
    rcases List.mem_append.mp rest with mantissa | power
    · rcases mantissa_clear valid mantissa with point | digit
      · right
        rw [point]
        decide
      · exact Or.inl digit
    · cases found : spelling.exponent with
      | none =>
          rw [found] at power
          cases power
      | some exponent =>
          rw [found] at power
          have held := valid.exponent exponent found
          rcases List.mem_cons.mp power with mark | signed
          · right
            rcases held.mark with small | large
            · rw [mark, small]
              decide
            · rw [mark, large]
              decide
          · rcases List.mem_append.mp signed with sign | digit
            · right
              rcases held.sign c (Option.mem_toList.mp sign) with plus | minus
              · rw [plus]
                decide
              · rw [minus]
                decide
            · exact Or.inl (held.digits c digit)

end Ddi.Jsonval

namespace Ddi.JsonBuild

open Ddi.Jsonval
open Binary (Format binary32 binary64)

/-- A number is written as it is. -/
theorem doubleJson_number {spelling : NumberText.Spelling} (valid : spelling.Valid) :
    doubleJson (String.ofList spelling.text) = String.ofList spelling.text := by
  unfold doubleJson
  apply if_neg
  intro word
  rcases word with none | infinite
  · have inside : 'N' ∈ spelling.text := by
      rw [← String.toList_ofList (l := spelling.text), none]
      decide
    rcases text_clear valid inside with digit | mark
    · cases digit
    · exact absurd mark (by decide)
  · have inside : 'y' ∈ spelling.text := by
      have last : 'y' ∈ "Infinity".toList := by decide
      rw [← String.toList_ofList (l := spelling.text)]
      exact (List.isSuffixOf_iff_suffix.mp infinite).subset last
    rcases text_clear valid inside with digit | mark
    · cases digit
    · exact absurd mark (by decide)

/-- What a float is as JSON: the word for it where it is no number, and otherwise a number that is
read as the very float. -/
def RealShows {format : Format} : Real format → Json → Prop
  | .nan, json => json = .string "NaN"
  | .number double _, json =>
      match double.magnitude with
      | .infinite => json = .string (if double.negative then "-Infinity" else "Infinity")
      | .finite _ => ∃ text, json = .number text ∧ readAs format text = some double

def realText {format : Format} : Real format → String
  | .nan => "NaN"
  | .number double _ => String.ofList (javaReal format double)

theorem javaDoubleText_eq : javaDoubleText = realText := by
  funext real
  cases real with
  | nan => rfl
  | number double holds => rfl

theorem javaFloatText_eq : javaFloatText = realText := by
  funext real
  cases real with
  | nan => rfl
  | number double holds => exact congrArg String.ofList (congrFun javaFloat_eq double)

theorem javaReal_infinite {format : Format} {double : Double.Binary64}
    (infinite : double.magnitude = .infinite) :
    String.ofList (javaReal format double) =
      if double.negative then "-Infinity" else "Infinity" := by
  simp only [javaReal, infinite]
  cases double.negative <;> rfl

theorem real_shows {format : Format} (real : Real format) :
    ∃ json, RealShows real json ∧ Spelled (doubleJson (realText real)) json := by
  cases real with
  | nan => exact ⟨_, rfl, spelled_quote "NaN"⟩
  | number double holds =>
      cases magnitude : double.magnitude with
      | infinite =>
          refine ⟨.string (if double.negative then "-Infinity" else "Infinity"), ?_, ?_⟩
          · rw [RealShows, magnitude]
          · rw [realText, javaReal_infinite magnitude]
            have word : doubleJson (if double.negative then "-Infinity" else "Infinity") =
                quote (if double.negative then "-Infinity" else "Infinity") := by
              cases double.negative with
              | true => exact if_pos (Or.inr (by decide))
              | false => exact if_pos (Or.inr (by decide))
            rw [word]
            exact spelled_quote _
      | finite number =>
          rw [magnitude] at holds
          obtain ⟨spelling, valid, same, sign, reads⟩ := javaReal_reads magnitude holds.1 holds.2
          refine ⟨.number (String.ofList spelling.text), ?_, ?_⟩
          · rw [RealShows, magnitude]
            refine ⟨_, rfl, ?_⟩
            have stops : NumberText.Stops [] := by
              intro first head
              cases head
            have scanned := NumberText.scan_complete valid stops
            rw [List.append_nil] at scanned
            simp only [readAs, String.toList_ofList, scanned]
            rw [reads, sign, ← magnitude]
          · rw [realText, same, doubleJson_number valid]
            exact spelled_number valid

/-- A double or a float is written as JSON that the parser reads as the very number: a double's text
as a double, a float's as a float. NaN and the infinities are the words for them. -/
theorem floats_read (shown : Char → String) (double : Real binary64) (float : Real binary32) :
    (∃ json, parse shown (doubleJson (javaDoubleText double)) = .ok json ∧ RealShows double json) ∧
      ∃ json, parse shown (doubleJson (javaFloatText float)) = .ok json ∧ RealShows float json := by
  have flat {format : Format} {real : Real format} {json : Json} (shows : RealShows real json) :
      nesting json ≤ maxDepth := by
    cases real with
    | nan =>
        cases shows
        exact Nat.zero_le _
    | number double holds =>
        rw [RealShows] at shows
        cases magnitude : double.magnitude with
        | infinite =>
            rw [magnitude] at shows
            cases shows
            exact Nat.zero_le _
        | finite number =>
            rw [magnitude] at shows
            obtain ⟨text, same, _⟩ := shows
            rw [same]
            exact Nat.zero_le _
  rw [javaDoubleText_eq, javaFloatText_eq]
  obtain ⟨json, shows, spelled⟩ := real_shows double
  obtain ⟨json', shows', spelled'⟩ := real_shows float
  exact ⟨⟨json, (parse_spelled shown _ _).mpr ⟨spelled, flat shows⟩, shows⟩,
    json', (parse_spelled shown _ _).mpr ⟨spelled', flat shows'⟩, shows'⟩

end Ddi.JsonBuild
