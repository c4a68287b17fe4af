/-
What `json_parse` stores: the same value, its keys increasing as Java orders strings, that is
stored as it is.
-/

import Ddi.Transform.JsonMeaning
import Ddi.Transform.JsonWrite
import Mathlib.Data.List.Lex

namespace Ddi.Jsonval

/-! ### Java's order of strings -/

theorem units_bmp {c : Char} (small : c.toNat < 0x10000) :
    units c = [c.toNat] ∧ isHigh c.toNat = false := by
  constructor
  · exact if_pos small
  · rw [isHigh, Bool.and_eq_false_iff]
    rcases c.valid with below | above
    · exact Or.inl (decide_eq_false (Nat.not_le.mpr below))
    · exact Or.inr (decide_eq_false (Nat.not_lt.mpr (Nat.le_trans (by decide) above.1.le)))

theorem units_astral {c : Char} (large : ¬c.toNat < 0x10000) :
    units c = [0xD800 + (c.toNat - 0x10000) / 1024, 0xDC00 + (c.toNat - 0x10000) % 1024] ∧
      isHigh (0xD800 + (c.toNat - 0x10000) / 1024) = true := by
  have bound : c.toNat < 0x110000 := by
    rcases c.valid with small | other
    · exact Nat.lt_trans small (by decide)
    · exact other.2
  constructor
  · exact if_neg large
  · rw [isHigh, Bool.and_eq_true, decide_eq_true_eq, decide_eq_true_eq]
    omega

theorem units_inj {first second : Char} {rest rest' : List Nat}
    (same : units first ++ rest = units second ++ rest') : first = second ∧ rest = rest' := by
  by_cases small : first.toNat < 0x10000
  · obtain ⟨one, low⟩ := units_bmp small
    by_cases small' : second.toNat < 0x10000
    · rw [one, (units_bmp small').1] at same
      obtain ⟨code, tails⟩ := List.cons.inj same
      exact ⟨Char.toNat_inj.mp code, tails⟩
    · obtain ⟨two, high⟩ := units_astral small'
      rw [one, two] at same
      rw [(List.cons.inj same).1, high] at low
      cases low
  · obtain ⟨two, high⟩ := units_astral small
    by_cases small' : second.toNat < 0x10000
    · obtain ⟨one, low⟩ := units_bmp small'
      rw [one, two] at same
      rw [(List.cons.inj same).1, low] at high
      cases high
    · obtain ⟨two', _⟩ := units_astral small'
      rw [two, two'] at same
      obtain ⟨highs, tails⟩ := List.cons.inj same
      obtain ⟨lows, ends⟩ := List.cons.inj tails
      have codes : first.toNat = second.toNat := by omega
      exact ⟨Char.toNat_inj.mp codes, ends⟩

/-- No two strings have the same UTF-16 units. -/
theorem utf16_inj {first second : String} (same : utf16 first = utf16 second) : first = second := by
  have chars (left right : List Char) (same : left.flatMap units = right.flatMap units) :
      left = right := by
    have some (c : Char) (rest : List Char) : (c :: rest).flatMap units ≠ [] := by
      intro none
      have counted := congrArg List.length none
      rw [List.flatMap_cons, List.length_append] at counted
      unfold units at counted
      split at counted <;> simp at counted
    induction left generalizing right with
    | nil =>
        cases right with
        | nil => rfl
        | cons c right => exact (some c right same.symm).elim
    | cons c left inductionHypothesis =>
        cases right with
        | nil => exact (some c left same).elim
        | cons other right =>
            rw [List.flatMap_cons, List.flatMap_cons] at same
            obtain ⟨first, rest⟩ := units_inj same
            rw [first, inductionHypothesis right rest]
  exact String.toList_inj.mp (chars _ _ same)

theorem javaStringLe_trans (first second third : String) (less : javaStringLe first second = true)
    (less' : javaStringLe second third = true) : javaStringLe first third = true := by
  simp only [javaStringLe, decide_eq_true_eq] at *
  exact le_trans less less'

theorem javaStringLe_total (first second : String) :
    (javaStringLe first second || javaStringLe second first) = true := by
  simp only [javaStringLe, Bool.or_eq_true, decide_eq_true_eq]
  exact le_total _ _

/-- Members whose keys increase as Java orders strings. -/
def Increasing {α : Type} (pairs : List (String × α)) : Prop :=
  pairs.Pairwise fun first second => utf16 first.1 < utf16 second.1

theorem pairwise_sorted {α : Type} (pairs : List (String × α)) :
    (pairs.mergeSort fun first second => javaStringLe first.1 second.1).Pairwise
      fun first second => javaStringLe first.1 second.1 = true := by
  apply List.pairwise_mergeSort
  · exact fun first second third => javaStringLe_trans first.1 second.1 third.1
  · exact fun first second => javaStringLe_total first.1 second.1

theorem increasing_sorted {α : Type} (pairs : List (String × α)) :
    Increasing (ordered .sorted pairs) := by
  have distinct : Assoc.Distinct (pairs.foldl (fun seen pair => Assoc.put pair.1 pair.2 seen) []) :=
    Assoc.Distinct.foldl_put List.Pairwise.nil Prod.fst Prod.snd
  have apart : Assoc.Distinct (ordered .sorted pairs) :=
    distinct.perm (List.mergeSort_perm _ _).symm fun away => away.symm
  have both := (pairwise_sorted _).and apart
  apply both.imp
  intro first second held
  obtain ⟨less, away⟩ := held
  simp only [javaStringLe, decide_eq_true_eq] at less
  exact lt_of_le_of_ne less fun same => away (utf16_inj same)

/-- Members whose keys increase are in order. -/
theorem Increasing.ordered {α : Type} {pairs : List (String × α)} (increasing : Increasing pairs) :
    ordered .sorted pairs = pairs := by
  have distinct : Assoc.Distinct ([] ++ pairs) :=
    increasing.imp fun less same => absurd (congrArg utf16 same) less.ne
  have whole := Assoc.Distinct.foldl_put_self distinct
  rw [List.nil_append] at whole
  simp only [Jsonval.ordered]
  rw [whole]
  apply List.mergeSort_of_pairwise
  apply increasing.imp
  intro first second less
  exact decide_eq_true less.le

/-! ### What stands in a value -/

/-- A value stands in another, at any depth. -/
inductive Within (inner : Json) : Json → Prop
  | self : Within inner inner
  | item (items : List Json) (item : Json) (among : item ∈ items) (within : Within inner item) :
      Within inner (.array items)
  | member (members : List (String × Json)) (member : String × Json) (among : member ∈ members)
      (within : Within inner member.2) : Within inner (.object members)

/-- Every number in a value is one of the grammar. -/
def Numbered (json : Json) : Prop :=
  ∀ text, Within (.number text) json →
    ∃ spelling : NumberText.Spelling, spelling.Valid ∧ text = String.ofList spelling.text

theorem Numbered.item {items : List Json} (numbered : Numbered (.array items)) {item : Json}
    (among : item ∈ items) : Numbered item :=
  fun text within => numbered text (.item items item among within)

theorem Numbered.member {members : List (String × Json)} (numbered : Numbered (.object members))
    {member : String × Json} (among : member ∈ members) : Numbered member.2 :=
  fun text within => numbered text (.member members member among within)

theorem numbered_of_spells (json : Json) :
    ∀ written depth, Spells written json depth → Numbered json := by
  induction json using Json.nested with
  | null =>
      intro written depth _ text within
      cases within
  | bool value =>
      intro written depth _ text within
      cases within
  | string value =>
      intro written depth _ text within
      cases within
  | number value =>
      intro written depth spelled text within
      cases within
      cases spelled with
      | number spelling valid => exact ⟨spelling, valid, rfl⟩
  | array items inductionHypothesis =>
      intro written depth spelled text within
      cases within with
      | item _ item among inside =>
          cases spelled with
          | emptyArray => cases among
          | array inner _ depth spelled =>
              obtain ⟨written, deep, _, spelt⟩ := spelled.each.2 item among
              exact inductionHypothesis item among written deep spelt text inside
  | object members inductionHypothesis =>
      intro written depth spelled text within
      cases within with
      | member _ member among inside =>
          cases spelled with
          | emptyObject => cases among
          | object inner _ depth spelled =>
              obtain ⟨written, deep, _, spelt⟩ := spelled.each.2 member among
              exact inductionHypothesis member among written deep spelt text inside

/-! ### What is stored -/

theorem valueOf_text {spelling : NumberText.Spelling} (valid : spelling.Valid) :
    NumberText.valueOf spelling.text = some spelling.value := by
  have stops : NumberText.Stops [] := by
    intro first head
    cases head
  have scanned := NumberText.scan_complete valid stops
  rw [List.append_nil] at scanned
  rw [NumberText.valueOf, scanned]

theorem denoteMembers_map {change : Json → Json} {members : List (String × Json)}
    (same : ∀ member ∈ members, denote (change member.2) = denote member.2) :
    denoteMembers (members.map fun member => (member.1, change member.2)) =
      denoteMembers members := by
  funext key
  induction members with
  | nil => rfl
  | cons member members inductionHypothesis =>
      have rest := inductionHypothesis fun member among =>
        same member (List.mem_cons_of_mem _ among)
      obtain ⟨own, value⟩ := member
      rw [List.map_cons, denoteMembers, denoteMembers, rest, same _ List.mem_cons_self]

/-- In whichever order members are written, they are the same map. -/
theorem denoteMembers_ordered (order : Members) (members : List (String × Json)) :
    denoteMembers (ordered order members) = denoteMembers members := by
  cases order with
  | verbatim => rfl
  | lastWins => exact denoteMembers_lastWins members
  | sorted =>
      rw [← denoteMembers_lastWins members]
      have distinct : Assoc.Distinct (ordered .lastWins members) :=
        Assoc.Distinct.foldl_put List.Pairwise.nil Prod.fst Prod.snd
      have perm : (ordered .sorted members).Perm (ordered .lastWins members) :=
        List.mergeSort_perm _ _
      have distinct' : Assoc.Distinct (ordered .sorted members) :=
        distinct.perm perm.symm fun away => away.symm
      funext key
      rw [denoteMembers_distinct distinct.nodup_keys, denoteMembers_distinct distinct'.nodup_keys,
        distinct.lookup_perm perm]

/-- Numbers respelt as `BigDecimal` and members in another order are the same value. -/
theorem denote_arranged (order : Members) (json : Json) :
    Numbered json → denote (arranged order .bigDecimal json) = denote json := by
  induction json using Json.nested with
  | null => exact fun _ => rfl
  | bool value => exact fun _ => rfl
  | string text => exact fun _ => rfl
  | number text =>
      intro numbered
      obtain ⟨spelling, valid, same⟩ := numbered text .self
      obtain ⟨written, valid', respelt, value, _⟩ := numberText_respells valid
      rw [arranged, denote, denote, same, respelt, String.toList_ofList, String.toList_ofList,
        valueOf_text valid, valueOf_text valid', value]
  | array items inductionHypothesis =>
      intro numbered
      rw [arranged, denote, denote, arrangedItems_map, denoteItems_map, denoteItems_map,
        List.map_map]
      congr 1
      apply List.map_congr_left
      intro item among
      exact inductionHypothesis item among (numbered.item among)
  | object members inductionHypothesis =>
      intro numbered
      rw [arranged, denote, denote, arrangedMembers_map, denoteMembers_ordered,
        denoteMembers_map fun member among =>
          inductionHypothesis member among (numbered.member among)]

theorem arranged_increasing (numbers : Numbers) (json : Json) :
    ∀ members, Within (.object members) (arranged .sorted numbers json) → Increasing members := by
  induction json using Json.nested with
  | null => intro members within; cases within
  | bool value => intro members within; cases within
  | string text => intro members within; cases within
  | number text => intro members within; cases within
  | array items inductionHypothesis =>
      intro members within
      rw [arranged, arrangedItems_map] at within
      cases within with
      | item _ item among inside =>
          obtain ⟨own, stands, same⟩ := List.mem_map.mp among
          rw [← same] at inside
          exact inductionHypothesis own stands members inside
  | object pairs inductionHypothesis =>
      intro members within
      rw [arranged, arrangedMembers_map] at within
      cases within with
      | self => exact increasing_sorted _
      | member _ member among inside =>
          obtain ⟨own, stands, same⟩ := List.mem_map.mp (mem_ordered among)
          rw [← same] at inside
          exact inductionHypothesis own stands members inside

/-- What was arranged is written as what it was arranged from. -/
theorem write_arranged (generator : Generator) (json : Json) :
    Numbered json → write .sorted .bigDecimal generator (arranged .sorted .bigDecimal json) =
      write .sorted .bigDecimal generator json := by
  induction json using Json.nested with
  | null => exact fun _ => rfl
  | bool value => exact fun _ => rfl
  | string text => exact fun _ => rfl
  | number text =>
      intro numbered
      obtain ⟨spelling, valid, same⟩ := numbered text .self
      obtain ⟨written, _, respelt, _, kept⟩ := numberText_respells valid
      rw [arranged, write, write, same, respelt, kept]
  | array items inductionHypothesis =>
      intro numbered
      rw [arranged, write, write, arrangedItems_map, writeItems_map, writeItems_map, List.map_map]
      congr 3
      apply List.map_congr_left
      intro item among
      exact inductionHypothesis item among (numbered.item among)
  | object members inductionHypothesis =>
      intro numbered
      have sorted : ordered .sorted (ordered .sorted members) = ordered .sorted members :=
        (increasing_sorted members).ordered
      have texts : ordered .sorted (writeMembers .sorted .bigDecimal generator
            (ordered .sorted (arrangedMembers .sorted .bigDecimal members))) =
          ordered .sorted (writeMembers .sorted .bigDecimal generator members) := by
        rw [arrangedMembers_map, ordered_map, writeMembers_map, writeMembers_map, ordered_map,
          ordered_map .sorted _ members, ordered_map, sorted, List.map_map]
        apply List.map_congr_left
        intro member among
        have inside := mem_ordered among
        exact congrArg (Prod.mk member.1)
          (inductionHypothesis member inside (numbered.member inside))
      rw [arranged, write, write, texts]

/-- The parser and the writers are inverse, and what `json_parse` stores of a text is the value of
that text, in one order of its members, and stays as it is. -/
theorem parse_writes (shown : Char → String) (text : String) (json : Json) :
    (parse shown text = .ok json ↔ ∃ depth, SpellsText text.toList json depth ∧ depth ≤ maxDepth) ∧
      (parse shown text = .ok json →
        (∀ members numbers generator, parse shown (toString json members numbers generator) =
          .ok (arranged members numbers json)) ∧
        ∃ stored, jsonParse shown text = .ok stored ∧
          ∃ kept, parse shown stored = .ok kept ∧ denote kept = denote json ∧
            (∀ members, Within (.object members) kept → Increasing members) ∧
            jsonParse shown stored = .ok stored) := by
  constructor
  · exact parse_iff shown text json
  · intro read
    have numbered : Numbered json := by
      obtain ⟨depth, ⟨_, written, _, _, _, _, spelled⟩, _⟩ := (parse_iff shown text json).mp read
      exact numbered_of_spells json written depth spelled
    have again := parse_toString shown read
    have stored : jsonParse shown text = .ok (toString json .sorted .bigDecimal .utf8) := by
      rw [jsonParse, read]
      rfl
    have kept : jsonParse shown (toString json .sorted .bigDecimal .utf8) =
        .ok (toString json .sorted .bigDecimal .utf8) := by
      rw [jsonParse, again, Except.map, toString, write_arranged .utf8 json numbered]
      rfl
    constructor
    · exact again
    · exact ⟨_, stored, _, again .sorted .bigDecimal .utf8, denote_arranged .sorted json numbered,
        arranged_increasing .bigDecimal json, kept⟩

/-- A list of one decimal number, spelled. -/
theorem spells_decimal : SpellsText "[1.50]".toList (.array [.number "1.50"]) 1 := by
  have valid : (⟨false, ['1'], some ['5', '0'], none⟩ : NumberText.Spelling).Valid :=
    { whole := List.cons_ne_nil _ _
      digits := NumberText.isDigit_singleton rfl
      leading := by
        intro zero
        cases zero
      fraction := by
        intro digits same
        cases same
        exact ⟨List.cons_ne_nil _ _, List.forall_mem_cons.mpr
          ⟨rfl, NumberText.isDigit_singleton rfl⟩⟩
      exponent := by
        intro exponent same
        cases same }
  have item := SpellsItems.one [] _ [] _ _ space_nil (.number _ valid) space_nil
  exact ⟨[], _, [], rfl, space_nil, space_nil, .array _ _ _ item⟩

theorem parse_writes_decimal :
    parse String.singleton "[1.50]" = .ok (.array [.number "1.50"]) ∧
      ∃ stored, jsonParse String.singleton "[1.50]" = .ok stored := by
  have both := parse_writes String.singleton "[1.50]" (.array [.number "1.50"])
  have read := both.1.mpr ⟨1, spells_decimal, by decide⟩
  obtain ⟨stored, parsed, _⟩ := (both.2 read).2
  exact ⟨read, stored, parsed⟩

end Ddi.Jsonval
