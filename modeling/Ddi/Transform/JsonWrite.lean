/-
What is written is JSON text of what was to be written: read again it is the same value, with its
numbers respelt and its members in the order they were written in.
-/

import Ddi.Transform.JsonRead
import Ddi.Transform.BigDecimal

namespace Ddi.Jsonval

/-! ### Strings -/

theorem hexDigit_upperHex : ∀ digit < 16, hexDigit (upperHex digit) = some digit := by decide

theorem unitEscape_piece (unit : Nat) (small : unit < 65536) :
    ∃ digits, (Piece.unit digits).Valid ∧ unitEscape unit = (Piece.unit digits).text ∧
      unitValue digits = unit := by
  refine ⟨_, ⟨rfl, ?_⟩, rfl, ?_⟩
  · intro digit inside
    simp only [List.mem_cons, List.not_mem_nil, or_false] at inside
    rcases inside with same | same | same | same <;>
      rw [same, hexDigit_upperHex _ (Nat.mod_lt _ (by decide))] <;> rfl
  · simp only [unitValue, List.foldl_cons, List.foldl_nil,
      hexDigit_upperHex _ (Nat.mod_lt _ (by decide : 0 < 16)), Option.getD_some]
    omega

/-- Pieces that a character is written as, wherever they stand. -/
def WrittenAs (pieces : List Piece) (c : Char) : Prop :=
  (∀ piece ∈ pieces, piece.Valid) ∧
    ∀ others, readPieces (pieces ++ others) = (readPieces others).map (c :: ·)

theorem writtenAs_short {letter c : Char} (valid : (Piece.short letter).Valid)
    (stands : named letter = some c) : WrittenAs [.short letter] c := by
  constructor
  · intro piece inside
    rw [List.mem_singleton.mp inside]
    exact valid
  · intro others
    simp [readPieces, stands]

theorem writtenAs_plain {c : Char} (notQuote : c ≠ quoteMark) (notBackslash : c ≠ backslash)
    (printable : 0x20 ≤ c.toNat) : WrittenAs [.plain c] c := by
  constructor
  · intro piece inside
    rw [List.mem_singleton.mp inside]
    exact ⟨notQuote, notBackslash, printable⟩
  · exact fun others => rfl

theorem writtenAs_control {c : Char} (control : c.toNat < 0x20) :
    ∃ pieces, WrittenAs pieces c ∧ unitEscape c.toNat = writtenPieces pieces := by
  obtain ⟨digits, valid, written, value⟩ := unitEscape_piece c.toNat (by omega)
  have high : isHigh (unitValue digits) = false := by
    rw [value, isHigh, Bool.and_eq_false_iff]
    exact Or.inl (decide_eq_false (by omega))
  have low : isLow (unitValue digits) = false := by
    rw [value, isLow, Bool.and_eq_false_iff]
    exact Or.inl (decide_eq_false (by omega))
  refine ⟨[.unit digits], ⟨?_, ?_⟩, ?_⟩
  · intro piece inside
    rw [List.mem_singleton.mp inside]
    exact valid
  · intro others
    rw [List.singleton_append, readPieces_unit high low, value, Char.ofNat_toNat]
  · simp [writtenPieces, written]

/-- An astral character as its two units. -/
theorem writtenAs_astral {c : Char} (astral : 0xFFFF < c.toNat) :
    ∃ pieces, WrittenAs pieces c ∧ (units c).flatMap unitEscape = writtenPieces pieces := by
  have bound : c.toNat < 0x110000 := by
    rcases c.valid with small | other
    · exact Nat.lt_trans small (by decide)
    · exact other.2
  obtain ⟨digits, valid, written, value⟩ :=
    unitEscape_piece (0xD800 + (c.toNat - 0x10000) / 1024) (by omega)
  obtain ⟨other, valid', written', value'⟩ :=
    unitEscape_piece (0xDC00 + (c.toNat - 0x10000) % 1024) (by omega)
  have high : isHigh (unitValue digits) = true := by
    rw [value, isHigh, Bool.and_eq_true, decide_eq_true_eq, decide_eq_true_eq]
    omega
  have low : isLow (unitValue other) = true := by
    rw [value', isLow, Bool.and_eq_true, decide_eq_true_eq, decide_eq_true_eq]
    omega
  have joins : joined (unitValue digits) (unitValue other) = c := by
    have code : 0x10000 + (unitValue digits - 0xD800) * 1024 + (unitValue other - 0xDC00) =
        c.toNat := by
      rw [value, value']
      omega
    unfold joined
    rw [code, Char.ofNat_toNat]
  refine ⟨[.unit digits, .unit other], ⟨?_, ?_⟩, ?_⟩
  · intro piece inside
    simp only [List.mem_cons, List.not_mem_nil, or_false] at inside
    rcases inside with same | same <;> rw [same]
    · exact valid
    · exact valid'
  · intro others
    rw [List.cons_append, List.singleton_append, readPieces_pair high low, joins]
  · have two : units c = [0xD800 + (c.toNat - 0x10000) / 1024,
        0xDC00 + (c.toNat - 0x10000) % 1024] := by
      unfold units
      rw [if_neg (by omega)]
    rw [two]
    simp [writtenPieces, written, written']

theorem escapeChar_pieces (generator : Generator) (c : Char) :
    ∃ pieces, WrittenAs pieces c ∧ escapeChar generator c = writtenPieces pieces := by
  have short {letter : Char} (valid : (Piece.short letter).Valid) (stands : named letter = some c) :
      ∃ pieces, WrittenAs pieces c ∧ [backslash, letter] = writtenPieces pieces :=
    ⟨_, writtenAs_short valid stands, rfl⟩
  unfold escapeChar
  split
  · next same => exact short (by simp [Piece.Valid]) (by rw [same]; rfl)
  · next notQuote =>
    split
    · next same => exact short (by simp [Piece.Valid]) (by rw [same]; rfl)
    · next notBackslash =>
      split
      · next same => exact short (by simp [Piece.Valid]) (by rw [same]; rfl)
      · split
        · next same => exact short (by simp [Piece.Valid]) (by rw [same]; rfl)
        · split
          · next same => exact short (by simp [Piece.Valid]) (by rw [same]; rfl)
          · split
            · next same => exact short (by simp [Piece.Valid]) (by rw [same]; rfl)
            · split
              · next same => exact short (by simp [Piece.Valid]) (by rw [same]; rfl)
              · split
                · next control => exact writtenAs_control control
                · next printable =>
                  split
                  · next astral => exact writtenAs_astral astral.1
                  · exact ⟨[.plain c], writtenAs_plain notQuote notBackslash
                      (Nat.le_of_not_lt printable), rfl⟩

/-- Every string is written as a string of the grammar that stands for it. -/
theorem pushQuoted_quoted (generator : Generator) (text : String) :
    Quoted (pushQuoted generator text) text := by
  have pieces (chars : List Char) : ∃ pieces, (∀ piece ∈ pieces, piece.Valid) ∧
      chars.flatMap (escapeChar generator) = writtenPieces pieces ∧
      readPieces pieces = some chars := by
    induction chars with
    | nil => exact ⟨[], by simp, rfl, rfl⟩
    | cons c chars inductionHypothesis =>
        obtain ⟨first, written, same⟩ := escapeChar_pieces generator c
        obtain ⟨others, valid, same', reads⟩ := inductionHypothesis
        refine ⟨first ++ others, ?_, ?_, ?_⟩
        · exact List.forall_mem_append.mpr ⟨written.1, valid⟩
        · rw [List.flatMap_cons, same, same']
          simp [writtenPieces]
        · rw [written.2, reads]
          rfl
  obtain ⟨pieces, valid, same, reads⟩ := pieces text.toList
  exact ⟨pieces, valid, by rw [pushQuoted, same], reads⟩

/-! ### Members in order -/

theorem ordered_map {α β : Type} (members : Members) (change : α → β)
    (pairs : List (String × α)) :
    ordered members (pairs.map fun pair => (pair.1, change pair.2)) =
      (ordered members pairs).map fun pair => (pair.1, change pair.2) := by
  have put := Assoc.foldl_put_map change pairs []
  rw [List.map_nil] at put
  cases members with
  | verbatim => rfl
  | lastWins => exact put
  | sorted =>
      simp only [ordered]
      rw [put]
      symm
      apply List.map_mergeSort
      intro first _ second _
      rfl

theorem mem_ordered {α : Type} {members : Members} {pairs : List (String × α)}
    {pair : String × α} (inside : pair ∈ ordered members pairs) : pair ∈ pairs := by
  have put {pair : String × α}
      (inside : pair ∈ pairs.foldl (fun seen pair => Assoc.put pair.1 pair.2 seen) []) :
      pair ∈ pairs := by
    rcases Assoc.mem_foldl_put inside with item | held
    · exact item
    · cases held
  cases members with
  | verbatim => exact inside
  | lastWins => exact put inside
  | sorted => exact put (List.mem_mergeSort.mp inside)

theorem writeItems_map (members : Members) (numbers : Numbers) (generator : Generator)
    (items : List Json) :
    writeItems members numbers generator items = items.map (write members numbers generator) := by
  induction items with
  | nil => rfl
  | cons item items inductionHypothesis => exact congrArg _ inductionHypothesis

theorem writeMembers_map (members : Members) (numbers : Numbers) (generator : Generator)
    (pairs : List (String × Json)) :
    writeMembers members numbers generator pairs =
      pairs.map fun pair => (pair.1, write members numbers generator pair.2) := by
  induction pairs with
  | nil => rfl
  | cons pair pairs inductionHypothesis => exact congrArg _ inductionHypothesis

/-! ### What is written -/

section Arranged

variable (members : Members) (numbers : Numbers)

mutual

/-- A value with its numbers respelt and the members of its objects in order. -/
def arranged : Json → Json
  | .null => .null
  | .bool value => .bool value
  | .number text => .number (String.ofList (numberText numbers text))
  | .string text => .string text
  | .array items => .array (arrangedItems items)
  | .object pairs => .object (ordered members (arrangedMembers pairs))

def arrangedItems : List Json → List Json
  | [] => []
  | item :: items => arranged item :: arrangedItems items

def arrangedMembers : List (String × Json) → List (String × Json)
  | [] => []
  | (key, value) :: pairs => (key, arranged value) :: arrangedMembers pairs

end

theorem arrangedItems_map (items : List Json) :
    arrangedItems members numbers items = items.map (arranged members numbers) := by
  induction items with
  | nil => rfl
  | cons item items inductionHypothesis => exact congrArg _ inductionHypothesis

theorem arrangedMembers_map (pairs : List (String × Json)) :
    arrangedMembers members numbers pairs =
      pairs.map fun pair => (pair.1, arranged members numbers pair.2) := by
  induction pairs with
  | nil => rfl
  | cons pair pairs inductionHypothesis => exact congrArg _ inductionHypothesis

end Arranged

theorem separated_cons (first second : List Char) (rest : List (List Char)) :
    separated (first :: second :: rest) = first ++ ',' :: separated (second :: rest) := by
  simp [separated]

theorem space_nil : Space [] := by
  intro c inside
  cases inside

theorem spellsItems_separated {α : Type} (text : α → List Char) (json : α → Json) {bound : Nat}
    {items : List α} (some : items ≠ [])
    (each : ∀ item ∈ items, ∃ depth ≤ bound, Spells (text item) (json item) depth) :
    ∃ depth ≤ bound, SpellsItems (separated (items.map text)) (items.map json) depth := by
  induction items with
  | nil => exact (some rfl).elim
  | cons item items inductionHypothesis =>
      obtain ⟨depth, below, spelled⟩ := each item List.mem_cons_self
      cases items with
      | nil =>
          have one := SpellsItems.one [] _ [] _ _ space_nil spelled space_nil
          exact ⟨depth, below, by simpa [separated] using one⟩
      | cons next items =>
          obtain ⟨deeper, below', others⟩ := inductionHypothesis (List.cons_ne_nil _ _)
            fun held inside => each held (List.mem_cons_of_mem _ inside)
          have more := SpellsItems.more [] _ [] _ _ _ _ _ space_nil spelled space_nil others
          refine ⟨max depth deeper, max_le below below', ?_⟩
          rw [List.map_cons, List.map_cons, separated_cons]
          simpa using more

theorem spellsMembers_separated (generator : Generator) {α : Type} (text : α → List Char)
    (json : α → Json) {bound : Nat} {pairs : List (String × α)} (some : pairs ≠ [])
    (each : ∀ pair ∈ pairs, ∃ depth ≤ bound, Spells (text pair.2) (json pair.2) depth) :
    ∃ depth ≤ bound, SpellsMembers
      (separated (pairs.map fun pair => pushQuoted generator pair.1 ++ ':' :: text pair.2))
      (pairs.map fun pair => (pair.1, json pair.2)) depth := by
  induction pairs with
  | nil => exact (some rfl).elim
  | cons pair pairs inductionHypothesis =>
      obtain ⟨depth, below, spelled⟩ := each pair List.mem_cons_self
      have keyed := pushQuoted_quoted generator pair.1
      cases pairs with
      | nil =>
          have one := SpellsMembers.one [] _ [] [] _ [] _ _ _ space_nil keyed space_nil space_nil
            spelled space_nil
          exact ⟨depth, below, by simpa [separated] using one⟩
      | cons next pairs =>
          obtain ⟨deeper, below', others⟩ := inductionHypothesis (List.cons_ne_nil _ _)
            fun held inside => each held (List.mem_cons_of_mem _ inside)
          have more := SpellsMembers.more [] _ [] [] _ [] _ _ _ _ _ _ space_nil keyed space_nil
            space_nil spelled space_nil others
          refine ⟨max depth deeper, max_le below below', ?_⟩
          rw [List.map_cons, List.map_cons, separated_cons]
          simpa using more

/-- Each element of what is spelled is spelled. -/
theorem SpellsItems.each {inside : List Char} {items : List Json} {depth : Nat}
    (spelled : SpellsItems inside items depth) :
    items ≠ [] ∧ ∀ item ∈ items, ∃ written inner, inner ≤ depth ∧ Spells written item inner := by
  induction items generalizing inside depth with
  | nil => cases spelled
  | cons item items inductionHypothesis =>
      refine ⟨List.cons_ne_nil _ _, ?_⟩
      cases spelled with
      | one before written after _ _ _ value _ =>
          intro held among
          rw [List.mem_singleton.mp among]
          exact ⟨written, depth, Nat.le_refl _, value⟩
      | more before written after rest _ _ first deeper _ value _ others =>
          intro held among
          cases among with
          | head => exact ⟨written, first, Nat.le_max_left _ _, value⟩
          | tail _ later =>
              obtain ⟨found, inner, below, same⟩ := (inductionHypothesis others).2 held later
              exact ⟨found, inner, Nat.le_trans below (Nat.le_max_right _ _), same⟩

theorem SpellsMembers.each {inside : List Char} {pairs : List (String × Json)} {depth : Nat}
    (spelled : SpellsMembers inside pairs depth) :
    pairs ≠ [] ∧ ∀ pair ∈ pairs, ∃ written inner, inner ≤ depth ∧ Spells written pair.2 inner := by
  induction pairs generalizing inside depth with
  | nil => cases spelled
  | cons pair pairs inductionHypothesis =>
      refine ⟨List.cons_ne_nil _ _, ?_⟩
      cases spelled with
      | one before quoted middle start written after key value _ _ _ _ _ spelt _ =>
          intro held among
          rw [List.mem_singleton.mp among]
          exact ⟨written, depth, Nat.le_refl _, spelt⟩
      | more before quoted middle start written after rest key value members first deeper _ _ _ _
          spelt _ others =>
          intro held among
          cases among with
          | head => exact ⟨written, first, Nat.le_max_left _ _, spelt⟩
          | tail _ later =>
              obtain ⟨found, inner, below, same⟩ := (inductionHypothesis others).2 held later
              exact ⟨found, inner, Nat.le_trans below (Nat.le_max_right _ _), same⟩

theorem ordered_ne_nil {α : Type} {members : Members} {pairs : List (String × α)}
    (some : pairs ≠ []) : ordered members pairs ≠ [] := by
  have put (entries : List (String × α)) (kept : entries ≠ [] ∨ pairs ≠ []) :
      pairs.foldl (fun seen pair => Assoc.put pair.1 pair.2 seen) entries ≠ [] := by
    clear some
    induction pairs generalizing entries with
    | nil =>
        rcases kept with held | never
        · exact held
        · exact (never rfl).elim
    | cons pair pairs inductionHypothesis =>
        apply inductionHypothesis
        left
        cases entries with
        | nil => exact List.cons_ne_nil _ _
        | cons head entries =>
            change (if head.1 = pair.1 then (pair.1, pair.2) :: entries
              else head :: Assoc.put pair.1 pair.2 entries) ≠ []
            split <;> exact List.cons_ne_nil _ _
  cases members with
  | verbatim => exact some
  | lastWins => exact put [] (Or.inr some)
  | sorted =>
      intro none
      have counted := congrArg List.length none
      simp only [ordered, List.length_mergeSort, List.length_nil] at counted
      exact put [] (Or.inr some) (List.length_eq_zero_iff.mp counted)

/-- What is written of a value spells it arranged, no deeper than it is. -/
theorem write_spells (members : Members) (numbers : Numbers) (generator : Generator) (json : Json) :
    ∀ written depth, Spells written json depth → ∃ inner ≤ depth,
      Spells (write members numbers generator json) (arranged members numbers json) inner := by
  induction json using Json.nested with
  | null => exact fun _ depth _ => ⟨0, Nat.zero_le _, .null⟩
  | bool value =>
      intro written depth spelled
      cases value with
      | true => exact ⟨0, Nat.zero_le _, .true⟩
      | false => exact ⟨0, Nat.zero_le _, .false⟩
  | string text =>
      exact fun _ depth _ => ⟨0, Nat.zero_le _, .string _ _ (pushQuoted_quoted generator text)⟩
  | number text =>
      intro written depth spelled
      cases spelled with
      | number spelling valid =>
          obtain ⟨respelt, validRespelt, same⟩ := numberText_spelling numbers valid
          refine ⟨0, Nat.zero_le _, ?_⟩
          rw [write, arranged, same]
          exact .number respelt validRespelt
  | array items inductionHypothesis =>
      intro written depth spelled
      rw [write, arranged, writeItems_map, arrangedItems_map]
      cases spelled with
      | emptyArray space blank => exact ⟨1, Nat.le_refl _, .emptyArray [] space_nil⟩
      | array inside _ depth spelled =>
          obtain ⟨some, each⟩ := spelled.each
          have written : ∀ item ∈ items, ∃ inner ≤ depth,
              Spells (write members numbers generator item) (arranged members numbers item) inner := by
            intro item among
            obtain ⟨written, inner, below, spelt⟩ := each item among
            obtain ⟨inner', below', again⟩ := inductionHypothesis item among written inner spelt
            exact ⟨inner', Nat.le_trans below' below, again⟩
          obtain ⟨inner, below, spelt⟩ := spellsItems_separated _ _ some written
          exact ⟨inner + 1, Nat.succ_le_succ below, .array _ _ _ spelt⟩
  | object pairs inductionHypothesis =>
      intro written depth spelled
      rw [write, arranged, writeMembers_map, arrangedMembers_map, ordered_map, ordered_map,
        List.map_map]
      cases spelled with
      | emptyObject space blank =>
          have none : ordered members ([] : List (String × Json)) = [] := by
            cases members
            · rfl
            · rfl
            · simp [ordered]
          rw [none]
          exact ⟨1, Nat.le_refl _, .emptyObject [] space_nil⟩
      | object inside _ depth spelled =>
          obtain ⟨some, each⟩ := spelled.each
          have written : ∀ pair ∈ ordered members pairs, ∃ inner ≤ depth,
              Spells (write members numbers generator pair.2) (arranged members numbers pair.2)
                inner := by
            intro pair among
            obtain ⟨written, inner, below, spelt⟩ := each pair (mem_ordered among)
            obtain ⟨inner', below', again⟩ :=
              inductionHypothesis pair (mem_ordered among) written inner spelt
            exact ⟨inner', Nat.le_trans below' below, again⟩
          obtain ⟨inner, below, spelt⟩ :=
            spellsMembers_separated generator _ _ (ordered_ne_nil some) written
          exact ⟨inner + 1, Nat.succ_le_succ below, .object _ _ _ spelt⟩

/-- A value that was read is written as a text that is read as it, arranged. -/
theorem parse_toString (shown : Char → String) {raw : String} {json : Json}
    (read : parse shown raw = .ok json) (members : Members) (numbers : Numbers)
    (generator : Generator) :
    parse shown (toString json members numbers generator) = .ok (arranged members numbers json) := by
  obtain ⟨depth, ⟨before, written, after, _, _, _, spelled⟩, bound⟩ :=
    (parse_iff shown raw json).mp read
  obtain ⟨inner, below, spelt⟩ := write_spells members numbers generator json written depth spelled
  refine (parse_iff shown _ _).mpr ⟨inner, ⟨[], _, [], ?_, space_nil, space_nil, spelt⟩,
    Nat.le_trans below bound⟩
  rw [toString, String.toList_ofList]
  simp

end Ddi.Jsonval
