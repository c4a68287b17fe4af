/-
The parser reads exactly the texts of the grammar that nest at most as deep as it goes, each as
the value it spells.
-/

import Ddi.Transform.JsonGrammar

namespace Ddi.Jsonval

theorem Space.append {first second : List Char} (blank : Space first) (blank' : Space second) :
    Space (first ++ second) := List.forall_mem_append.mpr ⟨blank, blank'⟩

theorem SpellsItems.space {before inside : List Char} {items : List Json} {depth : Nat}
    (blank : Space before) (spelled : SpellsItems inside items depth) :
    SpellsItems (before ++ inside) items depth := by
  cases spelled with
  | one before' written after item depth blank' value blankAfter =>
      rw [← List.append_assoc]
      exact .one _ _ _ _ _ (blank.append blank') value blankAfter
  | more before' written after rest item items depth deeper blank' value blankAfter others =>
      rw [← List.append_assoc]
      exact .more _ _ _ _ _ _ _ _ (blank.append blank') value blankAfter others

theorem SpellsMembers.space {before inside : List Char} {members : List (String × Json)}
    {depth : Nat} (blank : Space before) (spelled : SpellsMembers inside members depth) :
    SpellsMembers (before ++ inside) members depth := by
  cases spelled with
  | one before' quoted middle start written after key value depth blank' keyed mid begins spelt
      blankAfter =>
      rw [← List.append_assoc]
      exact .one _ _ _ _ _ _ _ _ _ (blank.append blank') keyed mid begins spelt blankAfter
  | more before' quoted middle start written after rest key value members depth deeper blank'
      keyed mid begins spelt blankAfter others =>
      rw [← List.append_assoc]
      exact .more _ _ _ _ _ _ _ _ _ _ _ _ (blank.append blank') keyed mid begins spelt blankAfter
        others

section Sound

variable (shown : Char → String) (size : Nat)

theorem enter_sound {depth inner : Nat} (entered : enter depth = .ok inner) :
    inner = depth + 1 ∧ inner ≤ maxDepth := by
  unfold enter at entered
  split at entered
  · cases entered
  · next shallow =>
    cases entered
    exact ⟨rfl, Nat.le_of_not_lt shallow⟩

theorem head_tail {chars : List Char} {c : Char} (head : chars.head? = some c) :
    chars = c :: chars.tail := by
  cases chars with
  | nil => cases head
  | cons first rest =>
      cases Option.some.inj head
      rfl

theorem memberKey_sound {chars rest : List Char} {key : String}
    (read : memberKey shown size chars = .ok (key, rest)) :
    ∃ quoted, chars = quoted ++ rest ∧ Quoted quoted key := by
  cases chars with
  | nil => cases read
  | cons c chars =>
      by_cases opens : c = quoteMark
      · rw [memberKey, if_pos opens] at read
        exact string_sound shown size read
      · rw [memberKey, if_neg opens] at read
        cases read

/-- What a read value, and the rest of a read object or array, is in the grammar. -/
structure Reads (fuel : Nat) : Prop where
  value : ∀ depth chars json rest, depth ≤ maxDepth →
    value shown size fuel depth chars = .ok (json, rest) →
    ∃ written inner, chars = written ++ rest ∧ Spells written json inner ∧
      depth + inner ≤ maxDepth
  members : ∀ depth chars pairs rest, depth ≤ maxDepth →
    members shown size fuel depth chars = .ok (pairs, rest) →
    ∃ inside inner, chars = inside ++ '\x7d' :: rest ∧ SpellsMembers inside pairs inner ∧
      depth + inner ≤ maxDepth
  items : ∀ depth chars elements rest, depth ≤ maxDepth →
    items shown size fuel depth chars = .ok (elements, rest) →
    ∃ inside inner, chars = inside ++ ']' :: rest ∧ SpellsItems inside elements inner ∧
      depth + inner ≤ maxDepth

theorem value_sound {fuel : Nat} (inner : Reads shown size fuel) (depth : Nat) (chars : List Char)
    (json : Json) (rest : List Char) (shallow : depth ≤ maxDepth)
    (read : value shown size (fuel + 1) depth chars = .ok (json, rest)) :
    ∃ written inner, chars = written ++ rest ∧ Spells written json inner ∧
      depth + inner ≤ maxDepth := by
  cases chars with
  | nil => cases read
  | cons c chars =>
      unfold value at read
      simp only [bind, Except.bind, pure, Except.pure] at read
      obtain ⟨space, blank, splitSpace⟩ := skipWs_split chars
      split at read
      · next brace =>
        split at read
        · cases read
        · next deeper entered =>
          obtain ⟨below, fits⟩ := enter_sound entered
          split at read
          · next closes =>
            cases read
            refine ⟨'\x7b' :: (space ++ ['\x7d']), 1, ?_, .emptyObject space blank, ?_⟩
            · have closing := splitSpace.trans (congrArg (space ++ ·) (head_tail closes))
              rw [brace]
              exact congrArg (List.cons _) (closing.trans (by simp))
            · rw [← below]
              exact fits
          · split at read
            · cases read
            · next found members =>
              cases read
              obtain ⟨inside, nested, split, spelled, bound⟩ :=
                inner.members deeper _ _ _ fits members
              refine ⟨_, _, ?_, .object _ _ _ (spelled.space blank), by omega⟩
              rw [brace, splitSpace, split]
              simp
      · split at read
        · next bracket =>
          split at read
          · cases read
          · next deeper entered =>
            obtain ⟨below, fits⟩ := enter_sound entered
            split at read
            · next closes =>
              cases read
              refine ⟨'[' :: (space ++ [']']), 1, ?_, .emptyArray space blank, ?_⟩
              · have closing := splitSpace.trans (congrArg (space ++ ·) (head_tail closes))
                rw [bracket]
                exact congrArg (List.cons _) (closing.trans (by simp))
              · rw [← below]
                exact fits
            · split at read
              · cases read
              · next found items =>
                cases read
                obtain ⟨inside, nested, split, spelled, bound⟩ :=
                  inner.items deeper _ _ _ fits items
                refine ⟨_, _, ?_, .array _ _ _ (spelled.space blank), by omega⟩
                rw [bracket, splitSpace, split]
                simp
        · split at read
          · split at read
            · cases read
            · next found text =>
              cases read
              obtain ⟨written, split, quoted⟩ := string_sound shown size text
              exact ⟨written, 0, split, .string _ _ quoted, shallow⟩
          · split at read
            · obtain ⟨split, same⟩ := literal_sound size read
              exact ⟨_, 0, split, same ▸ .true, shallow⟩
            · split at read
              · obtain ⟨split, same⟩ := literal_sound size read
                exact ⟨_, 0, split, same ▸ .false, shallow⟩
              · split at read
                · obtain ⟨split, same⟩ := literal_sound size read
                  exact ⟨_, 0, split, same ▸ .null, shallow⟩
                · split at read
                  · unfold number at read
                    split at read
                    · next spelling after scanned =>
                      cases read
                      obtain ⟨valid, split⟩ := NumberText.scan_sound scanned
                      exact ⟨_, 0, split, .number spelling valid, shallow⟩
                    · cases read
                  · cases read

/-- A comma and more, or the end. -/
theorem items_sound {fuel : Nat} (inner : Reads shown size fuel) (depth : Nat) (chars : List Char)
    (elements : List Json) (rest : List Char) (shallow : depth ≤ maxDepth)
    (read : items shown size (fuel + 1) depth chars = .ok (elements, rest)) :
    ∃ inside inner, chars = inside ++ ']' :: rest ∧ SpellsItems inside elements inner ∧
      depth + inner ≤ maxDepth := by
  unfold items at read
  simp only [bind, Except.bind, pure, Except.pure] at read
  obtain ⟨space, blank, splitSpace⟩ := skipWs_split chars
  split at read
  · cases read
  · next first readFirst =>
    obtain ⟨written, nested, split, spelled, bound⟩ := inner.value depth _ _ _ shallow readFirst
    obtain ⟨after, blankAfter, splitAfter⟩ := skipWs_split first.2
    split at read
    · cases read
    · next c tail next =>
      rw [next] at splitAfter
      split at read
      · next comma =>
        split at read
        · cases read
        · next others readOthers =>
          cases read
          obtain ⟨inside, deeper, splitRest, spelledRest, boundRest⟩ :=
            inner.items depth _ _ _ shallow readOthers
          refine ⟨_, _, ?_, .more space written after inside _ _ _ _ blank spelled blankAfter
            spelledRest, by omega⟩
          rw [splitSpace, split, splitAfter, comma, splitRest]
          simp
      · split at read
        · next closes =>
          cases read
          refine ⟨_, _, ?_, .one space written after _ _ blank spelled blankAfter, bound⟩
          rw [splitSpace, split, splitAfter, closes]
          simp
        · cases read

theorem members_sound {fuel : Nat} (inner : Reads shown size fuel) (depth : Nat)
    (chars : List Char) (pairs : List (String × Json)) (rest : List Char)
    (shallow : depth ≤ maxDepth)
    (read : members shown size (fuel + 1) depth chars = .ok (pairs, rest)) :
    ∃ inside inner, chars = inside ++ '\x7d' :: rest ∧ SpellsMembers inside pairs inner ∧
      depth + inner ≤ maxDepth := by
  unfold members at read
  simp only [bind, Except.bind, pure, Except.pure] at read
  obtain ⟨space, blank, splitSpace⟩ := skipWs_split chars
  split at read
  · cases read
  · next key readKey =>
    obtain ⟨quoted, splitKey, isKey⟩ := memberKey_sound shown size readKey
    obtain ⟨middle, blankMiddle, splitMiddle⟩ := skipWs_split key.2
    split at read
    · cases read
    · next afterColon colon =>
      have colonHead := expect_sound shown size colon
      rw [colonHead] at splitMiddle
      obtain ⟨start, blankStart, splitStart⟩ := skipWs_split afterColon
      split at read
      · cases read
      · next first readFirst =>
        obtain ⟨written, nested, split, spelled, bound⟩ :=
          inner.value depth _ _ _ shallow readFirst
        obtain ⟨after, blankAfter, splitAfter⟩ := skipWs_split first.2
        have whole : chars =
            space ++ (quoted ++ (middle ++ ':' :: (start ++ (written ++ (after ++ skipWs first.2)))))
            := by
          rw [← splitAfter, ← split, ← splitStart, ← splitMiddle, ← splitKey, ← splitSpace]
        split at read
        · cases read
        · next c tail next =>
          rw [next] at whole
          split at read
          · next comma =>
            split at read
            · cases read
            · next others readOthers =>
              cases read
              obtain ⟨inside, deeper, splitRest, spelledRest, boundRest⟩ :=
                inner.members depth _ _ _ shallow readOthers
              refine ⟨_, _, ?_, .more space quoted middle start written after inside _ _ _ _ _ blank
                isKey blankMiddle blankStart spelled blankAfter spelledRest, by omega⟩
              rw [whole, comma, splitRest]
              simp
          · split at read
            · next closes =>
              cases read
              refine ⟨_, _, ?_, .one space quoted middle start written after _ _ _ blank isKey
                blankMiddle blankStart spelled blankAfter, bound⟩
              rw [whole, closes]
              simp
            · cases read

theorem reads (fuel : Nat) : Reads shown size fuel := by
  induction fuel with
  | zero =>
      exact
        { value := fun depth chars json rest shallow read => by cases read
          members := fun depth chars pairs rest shallow read => by cases read
          items := fun depth chars elements rest shallow read => by cases read }
  | succ fuel inductionHypothesis =>
      exact
        { value := value_sound shown size inductionHypothesis
          members := members_sound shown size inductionHypothesis
          items := items_sound shown size inductionHypothesis }

end Sound

/-! ### What the grammar spells is read -/

section Complete

variable (shown : Char → String) (size : Nat)

theorem skipWs_append {space rest : List Char} (blank : Space space)
    (ends : ∀ c, rest.head? = some c → isSpace c = false) : skipWs (space ++ rest) = rest := by
  unfold skipWs
  rw [List.dropWhile_append_of_pos blank]
  cases rest with
  | nil => rfl
  | cons c rest => rw [List.dropWhile_cons, ends c rfl]; rfl

theorem skipWs_skipWs (chars : List Char) : skipWs (skipWs chars) = skipWs chars := by
  obtain ⟨space, blank, split⟩ := skipWs_split chars
  have ends : ∀ c, (skipWs chars).head? = some c → isSpace c = false := by
    intro c head
    have first := List.head?_dropWhile_not isSpace chars
    unfold skipWs at head
    rw [head] at first
    simpa using first
  have blank : Space [] := by intro c inside; cases inside
  exact skipWs_append blank ends

theorem expect_complete (c : Char) (rest : List Char) : expect shown size c (c :: rest) = .ok rest := by
  rw [expect, if_pos rfl]

theorem hex4From_complete (spot : Nat) {digits rest : List Char} (start : Nat)
    (all : ∀ digit ∈ digits, (hexDigit digit).isSome) :
    hex4From spot digits.length start (digits ++ rest) =
      .ok (digits.foldl (fun value digit => 16 * value + (hexDigit digit).getD 0) start, rest) := by
  induction digits generalizing start with
  | nil => rfl
  | cons digit digits inductionHypothesis =>
      obtain ⟨value, hex⟩ := Option.isSome_iff_exists.mp (all digit List.mem_cons_self)
      have others := inductionHypothesis (16 * start + value) fun found inside =>
        all found (List.mem_cons_of_mem _ inside)
      rw [List.length_cons, List.cons_append, hex4From, hex, List.foldl_cons, hex]
      exact others

theorem hex4_complete (spot : Nat) {digits rest : List Char} (valid : (Piece.unit digits).Valid) :
    hex4 spot (digits ++ rest) = .ok (unitValue digits, rest) := by
  obtain ⟨counted, all⟩ := valid
  unfold hex4
  rw [← counted]
  exact hex4From_complete spot 0 all

theorem unicodeEscape_unit (spot : Nat) {digits rest : List Char}
    (valid : (Piece.unit digits).Valid) (high : isHigh (unitValue digits) = false)
    (low : isLow (unitValue digits) = false) :
    unicodeEscape spot (digits ++ rest) = .ok (Char.ofNat (unitValue digits), rest) := by
  unfold unicodeEscape
  rw [hex4_complete spot valid]
  simp only [bind, Except.bind, high, low, Bool.false_eq_true, if_false]
  rfl

theorem unicodeEscape_pair (spot : Nat) {digits other rest : List Char}
    (valid : (Piece.unit digits).Valid) (valid' : (Piece.unit other).Valid)
    (high : isHigh (unitValue digits) = true) (low : isLow (unitValue other) = true) :
    unicodeEscape spot (digits ++ (backslash :: 'u' :: (other ++ rest))) =
      .ok (joined (unitValue digits) (unitValue other), rest) := by
  unfold unicodeEscape
  rw [hex4_complete spot valid]
  simp only [bind, Except.bind, high, if_true, and_self, hex4_complete spot valid', low]
  rfl

theorem named_u : named 'u' = none := by decide

theorem named_some {letter : Char} (valid : (Piece.short letter).Valid) :
    ∃ c, named letter = some c := by
  simp only [Piece.Valid, List.mem_cons, List.not_mem_nil, or_false] at valid
  rcases valid with same | same | same | same | same | same | same | same <;>
    exact ⟨_, by rw [same]; rfl⟩

theorem stringFrom_closes (start fuel : Nat) (rest : List Char) :
    stringFrom shown size start (fuel + 1) (quoteMark :: rest) = .ok ([], rest) := by
  rw [stringFrom.eq_def]
  exact if_pos rfl

theorem stringFrom_plain (start fuel : Nat) {c : Char} (rest : List Char) (notQuote : c ≠ quoteMark)
    (notBackslash : c ≠ backslash) (printable : 0x20 ≤ c.toNat) :
    stringFrom shown size start (fuel + 1) (c :: rest) =
      (stringFrom shown size start fuel rest).bind fun read => .ok (c :: read.1, read.2) := by
  rw [stringFrom.eq_def]
  simp only [if_neg notQuote, if_neg notBackslash, if_neg (Nat.not_lt.mpr printable)]
  rfl

theorem stringFrom_complete (start : Nat) {pieces : List Piece} {text rest : List Char} {fuel : Nat}
    (valid : ∀ piece ∈ pieces, piece.Valid) (reads : readPieces pieces = some text)
    (enough : pieces.length < fuel) :
    stringFrom shown size start fuel (writtenPieces pieces ++ quoteMark :: rest) =
      .ok (text, rest) := by
  have apart : backslash ≠ quoteMark := by decide
  induction fuel generalizing pieces text with
  | zero => cases enough
  | succ fuel inductionHypothesis =>
      cases pieces with
      | nil =>
          cases reads
          exact stringFrom_closes shown size start fuel rest
      | cons piece pieces =>
          obtain ⟨validPiece, validRest⟩ := List.forall_mem_cons.mp valid
          have enoughRest : pieces.length < fuel := Nat.lt_of_succ_lt_succ enough
          cases piece with
          | plain c =>
              obtain ⟨others, readOthers, same⟩ := Option.map_eq_some_iff.mp reads
              cases same
              change stringFrom shown size start (fuel + 1)
                (c :: (writtenPieces pieces ++ quoteMark :: rest)) = _
              obtain ⟨notQuote, notBackslash, printable⟩ := validPiece
              rw [stringFrom_plain shown size start fuel _ notQuote notBackslash printable,
                inductionHypothesis validRest readOthers enoughRest]
              rfl
          | short letter =>
              obtain ⟨c, stands⟩ := named_some validPiece
              rw [readPieces, stands, Option.bind_some] at reads
              obtain ⟨others, readOthers, same⟩ := Option.map_eq_some_iff.mp reads
              cases same
              have notU : letter ≠ 'u' := by
                intro unicode
                rw [unicode, named_u] at stands
                cases stands
              change stringFrom shown size start (fuel + 1)
                (backslash :: letter :: (writtenPieces pieces ++ quoteMark :: rest)) = _
              rw [stringFrom, if_neg apart, if_pos rfl]
              simp only [notU, if_false, stands,
                inductionHypothesis validRest readOthers enoughRest]
              rfl
          | unit digits =>
              by_cases high : isHigh (unitValue digits) = true
              · cases pieces with
                | nil => simp [readPieces, high] at reads
                | cons second pieces =>
                    cases second with
                    | plain c => simp [readPieces, high] at reads
                    | short letter => simp [readPieces, high] at reads
                    | unit other =>
                        by_cases low : isLow (unitValue other) = true
                        · rw [readPieces_pair high low] at reads
                          obtain ⟨others, readOthers, same⟩ := Option.map_eq_some_iff.mp reads
                          cases same
                          obtain ⟨validSecond, validOthers⟩ := List.forall_mem_cons.mp validRest
                          have fits : pieces.length < fuel := Nat.lt_of_succ_lt enoughRest
                          have written :
                              writtenPieces (.unit digits :: .unit other :: pieces) ++
                                quoteMark :: rest =
                              backslash :: 'u' :: (digits ++ (backslash :: 'u' :: (other ++
                                (writtenPieces pieces ++ quoteMark :: rest)))) := by
                            simp [writtenPieces, Piece.text]
                          rw [written, stringFrom, if_neg apart, if_pos rfl]
                          simp only [if_true, unicodeEscape_pair _ validPiece validSecond high low,
                            bind, Except.bind, inductionHypothesis validOthers readOthers fits]
                          rfl
                        · simp [readPieces, high, low] at reads
              · by_cases low : isLow (unitValue digits) = true
                · cases pieces with
                  | nil => simp [readPieces, high, low] at reads
                  | cons second pieces => cases second <;> simp [readPieces, high, low] at reads
                · have noHigh := Bool.eq_false_iff.mpr high
                  have noLow := Bool.eq_false_iff.mpr low
                  rw [readPieces_unit noHigh noLow] at reads
                  obtain ⟨others, readOthers, same⟩ := Option.map_eq_some_iff.mp reads
                  cases same
                  have written :
                      writtenPieces (.unit digits :: pieces) ++ quoteMark :: rest =
                      backslash :: 'u' ::
                        (digits ++ (writtenPieces pieces ++ quoteMark :: rest)) := by
                    simp [writtenPieces, Piece.text]
                  rw [written, stringFrom, if_neg apart, if_pos rfl]
                  simp only [if_true, unicodeEscape_unit _ validPiece noHigh noLow, bind,
                    Except.bind, inductionHypothesis validRest readOthers enoughRest]
                  rfl

theorem pieces_length (pieces : List Piece) : pieces.length ≤ (writtenPieces pieces).length := by
  induction pieces with
  | nil => exact Nat.le_refl _
  | cons piece pieces inductionHypothesis =>
      have first : 0 < piece.text.length := by cases piece <;> exact Nat.succ_pos _
      have whole : (writtenPieces (piece :: pieces)).length =
          piece.text.length + (writtenPieces pieces).length := by simp [writtenPieces]
      rw [whole, List.length_cons]
      omega

theorem string_complete {written : List Char} {text : String} (quoted : Quoted written text)
    (rest : List Char) :
    string shown size (written ++ rest) = .ok (text, rest) := by
  obtain ⟨pieces, valid, split, reads⟩ := quoted
  have shape : written ++ rest = quoteMark :: (writtenPieces pieces ++ quoteMark :: rest) := by
    rw [split]
    simp
  have enough : pieces.length < (writtenPieces pieces ++ quoteMark :: rest).length + 1 := by
    have bound := pieces_length pieces
    rw [List.length_append]
    omega
  unfold string
  rw [shape, expect_complete]
  simp only [bind, Except.bind, stringFrom_complete shown size _ valid reads enough]
  exact congrArg (fun text => Except.ok (text, rest)) String.ofList_toList

theorem literal_complete (word : String) (json : Json) (rest : List Char) :
    literal size word json (word.toList ++ rest) = .ok (json, rest) := by
  unfold literal
  rw [if_pos (List.isPrefixOf_iff_prefix.mpr (List.prefix_append _ _)), ← String.length_toList,
    List.drop_left]

/-! ### Values -/

theorem number_begins {spelling : NumberText.Spelling} (valid : spelling.Valid) :
    ∃ c tail, spelling.text = c :: tail ∧ (c = '-' ∨ c.isDigit = true) := by
  unfold NumberText.Spelling.text
  cases negative : spelling.negative with
  | true => exact ⟨'-', _, rfl, Or.inl rfl⟩
  | false =>
      cases whole : spelling.whole with
      | nil => exact (valid.whole whole).elim
      | cons digit digits =>
          have isDigit := valid.digits digit (by rw [whole]; exact List.mem_cons_self)
          exact ⟨digit, _, rfl, Or.inr isDigit⟩

theorem isSpace_of_number {c : Char} (begins : c = '-' ∨ c.isDigit = true) :
    isSpace c = false ∧ c ≠ '\x7b' ∧ c ≠ '[' ∧ c ≠ ']' ∧ c ≠ quoteMark ∧ c ≠ 't' ∧ c ≠ 'f' ∧
      c ≠ 'n' := by
  have apart (other : Char) (away : other ≠ '-' ∧ other.isDigit = false) : c ≠ other := by
    intro same
    rw [same] at begins
    rcases begins with minus | digit
    · exact away.1 minus
    · rw [away.2] at digit
      cases digit
  refine ⟨?_, apart _ (by decide), apart _ (by decide), apart _ (by decide), apart _ (by decide),
    apart _ (by decide), apart _ (by decide), apart _ (by decide)⟩
  simp [isSpace, apart ' ' (by decide), apart '\t' (by decide), apart '\n' (by decide),
    apart '\r' (by decide)]

/-- A value does not begin with space or the end of an array. -/
theorem spells_begins {written : List Char} {json : Json} {inner : Nat}
    (spelled : Spells written json inner) :
    ∃ c tail, written = c :: tail ∧ isSpace c = false ∧ c ≠ ']' := by
  cases spelled with
  | null => exact ⟨'n', _, rfl, by decide, by decide⟩
  | true => exact ⟨'t', _, rfl, by decide, by decide⟩
  | false => exact ⟨'f', _, rfl, by decide, by decide⟩
  | number spelling valid =>
      obtain ⟨c, tail, same, begins⟩ := number_begins valid
      obtain ⟨space, _, _, bracket, _⟩ := isSpace_of_number begins
      exact ⟨c, tail, same, space, bracket⟩
  | string written text quoted =>
      obtain ⟨pieces, _, split, _⟩ := quoted
      exact ⟨quoteMark, _, split, by decide, by decide⟩
  | emptyArray space blank => exact ⟨'[', _, rfl, by decide, by decide⟩
  | array inside items depth spelled => exact ⟨'[', _, rfl, by decide, by decide⟩
  | emptyObject space blank => exact ⟨'\x7b', _, rfl, by decide, by decide⟩
  | object inside members depth spelled => exact ⟨'\x7b', _, rfl, by decide, by decide⟩

theorem skipWs_value {space written : List Char} {json : Json} {inner : Nat} (blank : Space space)
    (spelled : Spells written json inner) (rest : List Char) :
    skipWs (space ++ (written ++ rest)) = written ++ rest := by
  obtain ⟨c, tail, same, notSpace, _⟩ := spells_begins spelled
  apply skipWs_append blank
  rw [same]
  intro first head
  cases Option.some.inj head
  exact notSpace

theorem skipWs_quoted {space quoted : List Char} {key : String} (blank : Space space)
    (isKey : Quoted quoted key) (rest : List Char) :
    skipWs (space ++ (quoted ++ rest)) = quoted ++ rest := by
  obtain ⟨pieces, _, split, _⟩ := isKey
  apply skipWs_append blank
  rw [split]
  intro first head
  cases Option.some.inj head
  decide

theorem skipWs_mark {space : List Char} (blank : Space space) {c : Char} (mark : isSpace c = false)
    (rest : List Char) : skipWs (space ++ c :: rest) = c :: rest := by
  apply skipWs_append blank
  intro first head
  cases Option.some.inj head
  exact mark

/-- No number goes on into space, a comma or the end of its container. -/
theorem stops_space {after : List Char} (blank : Space after) {c : Char}
    (mark : c = ',' ∨ c = ']' ∨ c = '\x7d') (rest : List Char) :
    NumberText.Stops (after ++ c :: rest) := by
  intro first head
  cases after with
  | nil =>
      cases Option.some.inj head
      rcases mark with same | same | same <;> rw [same] <;> decide
  | cons space after =>
      cases Option.some.inj head
      have isSpace := blank _ List.mem_cons_self
      simp only [Jsonval.isSpace, Bool.or_eq_true, decide_eq_true_eq] at isSpace
      rcases isSpace with ((same | same) | same) | same <;> rw [same] <;> decide

theorem enter_complete {depth : Nat} (fits : depth + 1 ≤ maxDepth) :
    enter depth = .ok (depth + 1) := by
  unfold enter
  rw [if_neg (Nat.not_lt.mpr fits)]

/-- What the grammar spells is read, by fuel for it. -/
structure Accepts (fuel : Nat) : Prop where
  value : ∀ depth written json inner rest, Spells written json inner →
    depth + inner ≤ maxDepth → 2 * written.length ≤ fuel → NumberText.Stops rest →
    value shown size fuel depth (written ++ rest) = .ok (json, rest)
  members : ∀ depth inside pairs inner rest, SpellsMembers inside pairs inner →
    depth + inner ≤ maxDepth → 2 * inside.length + 1 ≤ fuel →
    members shown size fuel depth (inside ++ '\x7d' :: rest) = .ok (pairs, rest)
  items : ∀ depth inside elements inner rest, SpellsItems inside elements inner →
    depth + inner ≤ maxDepth → 2 * inside.length + 1 ≤ fuel →
    items shown size fuel depth (inside ++ ']' :: rest) = .ok (elements, rest)

theorem items_skipWs (fuel depth : Nat) (chars : List Char) :
    items shown size fuel depth (skipWs chars) = items shown size fuel depth chars := by
  cases fuel with
  | zero => rfl
  | succ fuel => rw [items, items, skipWs_skipWs]

theorem members_skipWs (fuel depth : Nat) (chars : List Char) :
    members shown size fuel depth (skipWs chars) = members shown size fuel depth chars := by
  cases fuel with
  | zero => rfl
  | succ fuel => rw [members, members, skipWs_skipWs]

theorem items_begin {inside : List Char} {elements : List Json} {inner : Nat}
    (spelled : SpellsItems inside elements inner) (rest : List Char) :
    (skipWs (inside ++ rest)).head? ≠ some ']' := by
  have notEnd {before written after : List Char} {item : Json} {depth : Nat}
      (blank : Space before) (value : Spells written item depth) :
      (skipWs (before ++ (written ++ after))).head? ≠ some ']' := by
    rw [skipWs_value blank value]
    obtain ⟨c, tail, same, _, bracket⟩ := spells_begins value
    rw [same]
    exact fun head => bracket (Option.some.inj head)
  cases spelled with
  | one before written after item depth blank value blank' =>
      rw [List.append_assoc, List.append_assoc]
      exact notEnd blank value
  | more before written after rest item items depth deeper blank value blank' others =>
      rw [List.append_assoc, List.append_assoc]
      exact notEnd blank value

theorem members_begin {inside : List Char} {pairs : List (String × Json)} {inner : Nat}
    (spelled : SpellsMembers inside pairs inner) (rest : List Char) :
    (skipWs (inside ++ rest)).head? ≠ some '\x7d' := by
  have notEnd {before quoted after : List Char} {key : String} (blank : Space before)
      (isKey : Quoted quoted key) :
      (skipWs (before ++ (quoted ++ after))).head? ≠ some '\x7d' := by
    rw [skipWs_quoted blank isKey]
    obtain ⟨pieces, _, split, _⟩ := isKey
    rw [split]
    exact fun head => absurd (Option.some.inj head) (by decide)
  cases spelled with
  | one before quoted middle start written after key value depth blank keyed =>
      rw [List.append_assoc, List.append_assoc]
      exact notEnd blank keyed
  | more before quoted middle start written after rest key value members depth deeper blank keyed =>
      rw [List.append_assoc, List.append_assoc]
      exact notEnd blank keyed

theorem value_complete {fuel : Nat} (inner : Accepts shown size fuel) (depth : Nat)
    (written : List Char) (json : Json) (nested : Nat) (rest : List Char)
    (spelled : Spells written json nested) (bound : depth + nested ≤ maxDepth)
    (enough : 2 * written.length ≤ fuel + 1) (stops : NumberText.Stops rest) :
    value shown size (fuel + 1) depth (written ++ rest) = .ok (json, rest) := by
  cases spelled with
  | null => exact literal_complete size "null" .null rest
  | true => exact literal_complete size "true" (.bool true) rest
  | false => exact literal_complete size "false" (.bool false) rest
  | number spelling valid =>
      obtain ⟨c, tail, same, begins⟩ := number_begins valid
      obtain ⟨_, brace, bracket, _, quote, letterT, letterF, letterN⟩ := isSpace_of_number begins
      have scanned := NumberText.scan_complete valid stops
      have read : number size (spelling.text ++ rest) =
          .ok (.number (String.ofList spelling.text), rest) := by
        simp only [number, scanned]
      rw [same, List.cons_append] at read
      rw [same, List.cons_append, value]
      simp only [if_neg brace, if_neg bracket, if_neg quote, if_neg letterT, if_neg letterF,
        if_neg letterN, if_pos begins]
      exact read
  | string written text quoted =>
      have read := string_complete shown size quoted rest
      obtain ⟨pieces, _, split, _⟩ := quoted
      rw [split, List.cons_append] at read
      rw [split, List.cons_append, value]
      have brace : quoteMark ≠ '\x7b' := by decide
      have bracket : quoteMark ≠ '[' := by decide
      simp only [if_neg brace, if_neg bracket, if_true, read, bind, Except.bind]
      rfl
  | emptyArray space blank =>
      have closes := skipWs_mark blank (c := ']') (by decide) rest
      have brace : '[' ≠ '\x7b' := by decide
      rw [List.cons_append, List.append_assoc, List.singleton_append, value, if_neg brace,
        if_pos rfl]
      simp only [enter_complete bound, bind, Except.bind, closes, List.head?_cons, if_true]
      rfl
  | emptyObject space blank =>
      have closes := skipWs_mark blank (c := '\x7d') (by decide) rest
      rw [List.cons_append, List.append_assoc, List.singleton_append, value, if_pos rfl]
      simp only [enter_complete bound, bind, Except.bind, closes, List.head?_cons, if_true]
      rfl
  | array inside elements deeper spelled =>
      have brace : '[' ≠ '\x7b' := by decide
      have fits : depth + 1 ≤ maxDepth := by omega
      rw [List.cons_append, List.append_assoc, List.singleton_append, value, if_neg brace,
        if_pos rfl]
      rw [List.length_cons, List.length_append, List.length_singleton] at enough
      have read := inner.items (depth + 1) inside elements deeper rest spelled (by omega) (by omega)
      simp only [enter_complete fits, bind, Except.bind, if_neg (items_begin spelled _),
        items_skipWs, read]
      rfl
  | object inside pairs deeper spelled =>
      have fits : depth + 1 ≤ maxDepth := by omega
      rw [List.cons_append, List.append_assoc, List.singleton_append, value, if_pos rfl]
      rw [List.length_cons, List.length_append, List.length_singleton] at enough
      have read := inner.members (depth + 1) inside pairs deeper rest spelled (by omega) (by omega)
      simp only [enter_complete fits, bind, Except.bind, if_neg (members_begin spelled _),
        members_skipWs, read]
      rfl

theorem items_complete {fuel : Nat} (inner : Accepts shown size fuel) (depth : Nat)
    (inside : List Char) (elements : List Json) (nested : Nat) (rest : List Char)
    (spelled : SpellsItems inside elements nested) (bound : depth + nested ≤ maxDepth)
    (enough : 2 * inside.length + 1 ≤ fuel + 1) :
    items shown size (fuel + 1) depth (inside ++ ']' :: rest) = .ok (elements, rest) := by
  cases spelled with
  | one before written after item _ blank value blank' =>
      have stops := stops_space blank' (c := ']') (by simp) rest
      simp only [List.length_append] at enough
      have read := inner.value depth written item nested _ value bound (by omega) stops
      rw [List.append_assoc, List.append_assoc, items, skipWs_value blank value]
      simp only [read, bind, Except.bind, skipWs_mark blank' (c := ']') (by decide)]
      rw [if_neg (by decide), if_pos trivial]
      rfl
  | more before written after others item items first deeper blank value blank' spelledRest =>
      have stops := stops_space blank' (c := ',') (by simp) (others ++ ']' :: rest)
      simp only [List.length_append, List.length_cons] at enough
      have read := inner.value depth written item first _ value (by omega) (by omega) stops
      have readRest := inner.items depth others items deeper rest spelledRest (by omega) (by omega)
      rw [List.append_assoc, List.append_assoc, List.append_assoc, List.cons_append, Jsonval.items,
        skipWs_value blank value]
      simp only [read, bind, Except.bind, skipWs_mark blank' (c := ',') (by decide), if_true,
        readRest]
      rfl

theorem members_complete {fuel : Nat} (inner : Accepts shown size fuel) (depth : Nat)
    (inside : List Char) (pairs : List (String × Json)) (nested : Nat) (rest : List Char)
    (spelled : SpellsMembers inside pairs nested) (bound : depth + nested ≤ maxDepth)
    (enough : 2 * inside.length + 1 ≤ fuel + 1) :
    members shown size (fuel + 1) depth (inside ++ '\x7d' :: rest) = .ok (pairs, rest) := by
  have keyRead {quoted : List Char} {key : String} (isKey : Quoted quoted key) (rest : List Char) :
      memberKey shown size (quoted ++ rest) = .ok (key, rest) := by
    have read := string_complete shown size isKey rest
    obtain ⟨pieces, _, split, _⟩ := isKey
    rw [split, List.cons_append] at read ⊢
    rw [memberKey, if_pos rfl, read]
  cases spelled with
  | one before quoted middle start written after key value _ blank keyed blankKey blankValue
      spelt blank' =>
      have stops := stops_space blank' (c := '\x7d') (by simp) rest
      simp only [List.length_append, List.length_cons] at enough
      have read := inner.value depth written value nested _ spelt bound (by omega) stops
      simp only [List.append_assoc, List.cons_append]
      rw [members, skipWs_quoted blank keyed]
      simp only [keyRead keyed, bind, Except.bind, skipWs_mark blankKey (c := ':') (by decide),
        expect_complete, skipWs_value blankValue spelt, read,
        skipWs_mark blank' (c := '\x7d') (by decide)]
      rw [if_neg (by decide), if_pos trivial]
      rfl
  | more before quoted middle start written after others key value members first deeper blank
      keyed blankKey blankValue spelt blank' spelledRest =>
      have stops := stops_space blank' (c := ',') (by simp) (others ++ '\x7d' :: rest)
      simp only [List.length_append, List.length_cons] at enough
      have read := inner.value depth written value first _ spelt (by omega) (by omega) stops
      have readRest :=
        inner.members depth others members deeper rest spelledRest (by omega) (by omega)
      simp only [List.append_assoc, List.cons_append]
      rw [Jsonval.members, skipWs_quoted blank keyed]
      simp only [keyRead keyed, bind, Except.bind, skipWs_mark blankKey (c := ':') (by decide),
        expect_complete, skipWs_value blankValue spelt, read,
        skipWs_mark blank' (c := ',') (by decide), if_true, readRest]
      rfl

theorem accepts (fuel : Nat) : Accepts shown size fuel := by
  induction fuel with
  | zero =>
      exact
        { value := by
            intro depth written json inner rest spelled bound enough stops
            obtain ⟨c, tail, same, _, _⟩ := spells_begins spelled
            rw [same] at enough
            cases enough
          members := fun depth inside pairs inner rest spelled bound enough => by cases enough
          items := fun depth inside elements inner rest spelled bound enough => by cases enough }
  | succ fuel inductionHypothesis =>
      exact
        { value := value_complete shown size inductionHypothesis
          members := members_complete shown size inductionHypothesis
          items := items_complete shown size inductionHypothesis }

end Complete

/-- A text is accepted as a value exactly where it spells that, with space around it, and nests at
most as deep as the parser goes. -/
theorem parse_iff (shown : Char → String) (text : String) (json : Json) :
    parse shown text = .ok json ↔
      ∃ depth, SpellsText text.toList json depth ∧ depth ≤ maxDepth := by
  constructor
  · intro read
    unfold parse at read
    simp only [bind, Except.bind, pure, Except.pure] at read
    obtain ⟨before, blank, split⟩ := skipWs_split text.toList
    split at read
    · cases read
    · next found readValue =>
      obtain ⟨written, depth, splitValue, spelled, bound⟩ :=
        (reads shown _ _).value 0 _ _ _ (Nat.zero_le _) readValue
      obtain ⟨after, blank', splitAfter⟩ := skipWs_split found.2
      split at read
      · next ends =>
        cases read
        rw [ends, List.append_nil] at splitAfter
        refine ⟨depth, ⟨before, written, after, ?_, blank, blank', spelled⟩, by omega⟩
        rw [split, splitValue, splitAfter]
      · cases read
  · intro spelledText
    obtain ⟨depth, ⟨before, written, after, split, blank, blank', spelled⟩, bound⟩ := spelledText
    have stops : NumberText.Stops after := by
      cases after with
      | nil => exact fun first head => by cases head
      | cons c after =>
          intro first head
          have blank : Space [c] := fun found inside => blank' found (by
            rw [List.mem_singleton.mp inside]
            exact List.mem_cons_self)
          have ended := stops_space blank (c := ',') (by simp) []
          exact ended first head
    have enough : 2 * written.length ≤ 2 * text.toList.length + 2 := by
      rw [split, List.length_append, List.length_append]
      omega
    have skipped : skipWs text.toList = written ++ after := by
      rw [split, skipWs_value blank spelled]
    have read := (accepts shown (byteLength text.toList) (2 * text.toList.length + 2)).value 0
      written json depth after spelled (by omega) enough stops
    have ends : skipWs after = [] := by
      have ended : ∀ c, ([] : List Char).head? = some c → isSpace c = false := by
        intro c head
        cases head
      have all := skipWs_append blank' ended
      rwa [List.append_nil] at all
    unfold parse
    simp only [skipped, read, bind, Except.bind, ends]
    rfl

end Ddi.Jsonval
