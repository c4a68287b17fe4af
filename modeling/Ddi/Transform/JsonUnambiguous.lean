/-
The grammar of JSON is unambiguous: a text spells one value, however deep it nests.
-/

import Ddi.Transform.JsonRead

namespace Ddi.Jsonval

/-! ### The first character -/

/-- The kind of a value. -/
def Json.kind : Json → Nat
  | .object _ => 0
  | .array _ => 1
  | .string _ => 2
  | .bool true => 3
  | .bool false => 4
  | .null => 5
  | .number _ => 6

/-- The kind of value that a character begins. -/
def kindOf (c : Char) : Nat :=
  if c = '\x7b' then 0 else if c = '[' then 1 else if c = quoteMark then 2 else if c = 't' then 3
  else if c = 'f' then 4 else if c = 'n' then 5 else 6

theorem spells_kind {written : List Char} {json : Json} {depth : Nat}
    (spelled : Spells written json depth) :
    ∃ c tail, written = c :: tail ∧ kindOf c = json.kind := by
  cases spelled with
  | null => exact ⟨'n', _, rfl, rfl⟩
  | true => exact ⟨'t', _, rfl, rfl⟩
  | false => exact ⟨'f', _, rfl, rfl⟩
  | number spelling valid =>
      obtain ⟨c, tail, same, begins⟩ := number_begins valid
      obtain ⟨_, brace, bracket, _, quoted, yes, no, null⟩ := isSpace_of_number begins
      refine ⟨c, tail, same, ?_⟩
      rw [kindOf, if_neg brace, if_neg bracket, if_neg quoted, if_neg yes, if_neg no, if_neg null]
      rfl
  | string written text quoted =>
      obtain ⟨pieces, _, split, _⟩ := quoted
      exact ⟨quoteMark, _, split, rfl⟩
  | emptyArray space blank => exact ⟨'[', _, rfl, rfl⟩
  | array inside items depth spelled => exact ⟨'[', _, rfl, rfl⟩
  | emptyObject space blank => exact ⟨'\x7b', _, rfl, rfl⟩
  | object inside members depth spelled => exact ⟨'\x7b', _, rfl, rfl⟩

/-- Values that are spelled at one place are of one kind. -/
theorem same_kind {written written' rest rest' : List Char} {json other : Json}
    {depth depth' : Nat} (spelled : Spells written json depth)
    (spelled' : Spells written' other depth') (same : written ++ rest = written' ++ rest') :
    json.kind = other.kind := by
  obtain ⟨c, tail, split, own⟩ := spells_kind spelled
  obtain ⟨c', tail', split', own'⟩ := spells_kind spelled'
  rw [split, split'] at same
  rw [← own, ← own', (List.cons.inj same).1]

/-! ### One value -/

/-- Wherever a value is spelled, no other is. -/
def OneValue (json : Json) : Prop :=
  ∀ written depth other written' depth' rest rest', Spells written json depth →
    Spells written' other depth' → NumberText.Stops rest → NumberText.Stops rest' →
    written ++ rest = written' ++ rest' → json = other ∧ rest = rest'

theorem oneValue_number (text : String) : OneValue (.number text) := by
  intro written depth other written' depth' rest rest' spelled spelled' stops stops' same
  have kinds := same_kind spelled spelled' same
  cases other with
  | number text' =>
      cases spelled with
      | number spelling valid =>
          cases spelled' with
          | number spelling' valid' =>
              have read := NumberText.scan_complete valid stops
              rw [same, NumberText.scan_complete valid' stops'] at read
              cases read
              exact ⟨rfl, rfl⟩
  | object members => cases kinds
  | array items => cases kinds
  | string text' => cases kinds
  | bool value => cases value <;> cases kinds
  | null => cases kinds

theorem oneValue_string (text : String) : OneValue (.string text) := by
  intro written depth other written' depth' rest rest' spelled spelled' _ _ same
  have kinds := same_kind spelled spelled' same
  cases other with
  | string text' =>
      cases spelled with
      | string _ _ quoted =>
          cases spelled' with
          | string _ _ quoted' =>
              have read := string_complete String.singleton 0 quoted rest
              rw [same, string_complete String.singleton 0 quoted' rest'] at read
              cases read
              exact ⟨rfl, rfl⟩
  | object members => cases kinds
  | array items => cases kinds
  | number text' => cases kinds
  | bool value => cases value <;> cases kinds
  | null => cases kinds

theorem oneValue_null : OneValue .null := by
  intro written depth other written' depth' rest rest' spelled spelled' _ _ same
  have kinds := same_kind spelled spelled' same
  cases other with
  | null =>
      cases spelled
      cases spelled'
      exact ⟨rfl, List.append_cancel_left same⟩
  | object members => cases kinds
  | array items => cases kinds
  | number text => cases kinds
  | string text => cases kinds
  | bool value => cases value <;> cases kinds

theorem oneValue_bool (value : Bool) : OneValue (.bool value) := by
  intro written depth other written' depth' rest rest' spelled spelled' _ _ same
  have kinds := same_kind spelled spelled' same
  cases value with
  | true =>
      cases other with
      | bool value' =>
          cases value' with
          | true =>
              cases spelled
              cases spelled'
              exact ⟨rfl, List.append_cancel_left same⟩
          | false => cases kinds
      | object members => cases kinds
      | array items => cases kinds
      | number text => cases kinds
      | string text => cases kinds
      | null => cases kinds
  | false =>
      cases other with
      | bool value' =>
          cases value' with
          | false =>
              cases spelled
              cases spelled'
              exact ⟨rfl, List.append_cancel_left same⟩
          | true => cases kinds
      | object members => cases kinds
      | array items => cases kinds
      | number text => cases kinds
      | string text => cases kinds
      | null => cases kinds

/-- Of a value and the mark that follows it after space, neither can be another's. -/
theorem OneValue.first {json : Json} (one : OneValue json) {before before' written written' after
    after' rest rest' : List Char} {depth depth' : Nat} {other : Json} {mark mark' : Char}
    (blank : Space before) (blank' : Space before') (spelled : Spells written json depth)
    (spelled' : Spells written' other depth') (space : Space after) (space' : Space after')
    (marks : mark = ',' ∨ mark = ']' ∨ mark = '\x7d')
    (marks' : mark' = ',' ∨ mark' = ']' ∨ mark' = '\x7d')
    (same : before ++ (written ++ (after ++ mark :: rest)) =
      before' ++ (written' ++ (after' ++ mark' :: rest'))) :
    json = other ∧ mark = mark' ∧ rest = rest' := by
  have begun := congrArg skipWs same
  rw [skipWs_value blank spelled, skipWs_value blank' spelled'] at begun
  obtain ⟨values, follows⟩ := one written depth other written' depth' _ _ spelled spelled'
    (stops_space space marks rest) (stops_space space' marks' rest') begun
  have apart {c : Char} (marks : c = ',' ∨ c = ']' ∨ c = '\x7d') : isSpace c = false := by
    rcases marks with same | same | same <;> rw [same] <;> rfl
  have next := congrArg skipWs follows
  rw [skipWs_mark space (apart marks), skipWs_mark space' (apart marks')] at next
  exact ⟨values, List.cons.inj next⟩

theorem oneItems {items : List Json} (each : ∀ item ∈ items, OneValue item) :
    ∀ inside depth others inside' depth' rest rest', SpellsItems inside items depth →
      SpellsItems inside' others depth' → inside ++ ']' :: rest = inside' ++ ']' :: rest' →
      items = others ∧ rest = rest' := by
  induction items with
  | nil =>
      intro inside depth others inside' depth' rest rest' spelled
      cases spelled
  | cons item items inductionHypothesis =>
      intro inside depth others inside' depth' rest rest' spelled spelled' same
      have one := each item List.mem_cons_self
      cases spelled with
      | one before written after _ _ blank value space =>
          cases spelled' with
          | one before' written' after' _ _ blank' value' space' =>
              simp only [List.append_assoc] at same
              obtain ⟨values, _, left⟩ := one.first blank blank' value value' space space'
                (Or.inr (Or.inl rfl)) (Or.inr (Or.inl rfl)) same
              rw [values]
              exact ⟨rfl, left⟩
          | more before' written' after' more _ _ _ _ blank' value' space' _ =>
              simp only [List.append_assoc, List.cons_append] at same
              have both := one.first blank blank' value value' space space'
                (Or.inr (Or.inl rfl)) (Or.inl rfl) same
              exact absurd both.2.1 (by decide)
      | more before written after more _ _ _ _ blank value space later =>
          cases spelled' with
          | one before' written' after' _ _ blank' value' space' =>
              simp only [List.append_assoc, List.cons_append] at same
              have both := one.first blank blank' value value' space space'
                (Or.inl rfl) (Or.inr (Or.inl rfl)) same
              exact absurd both.2.1 (by decide)
          | more before' written' after' more' _ _ _ _ blank' value' space' later' =>
              simp only [List.append_assoc, List.cons_append] at same
              obtain ⟨values, _, left⟩ := one.first blank blank' value value' space space'
                (Or.inl rfl) (Or.inl rfl) same
              obtain ⟨others, left'⟩ := inductionHypothesis
                (fun held among => each held (List.mem_cons_of_mem _ among)) _ _ _ _ _ _ _ later
                later' left
              rw [values, others]
              exact ⟨rfl, left'⟩

/-- A key and the colon after it. -/
theorem oneKey {before before' quoted quoted' middle middle' rest rest' : List Char}
    {key key' : String} (blank : Space before) (blank' : Space before') (keyed : Quoted quoted key)
    (keyed' : Quoted quoted' key') (space : Space middle) (space' : Space middle')
    (same : before ++ (quoted ++ (middle ++ ':' :: rest)) =
      before' ++ (quoted' ++ (middle' ++ ':' :: rest'))) : key = key' ∧ rest = rest' := by
  have begun := congrArg skipWs same
  rw [skipWs_quoted blank keyed, skipWs_quoted blank' keyed'] at begun
  have read := string_complete String.singleton 0 keyed (middle ++ ':' :: rest)
  rw [begun, string_complete String.singleton 0 keyed'] at read
  obtain ⟨keys, follows⟩ := Prod.mk.inj (Except.ok.inj read)
  have next := congrArg skipWs follows
  rw [skipWs_mark space rfl, skipWs_mark space' rfl] at next
  exact ⟨keys.symm, (List.cons.inj next).2.symm⟩

theorem oneMembers {members : List (String × Json)}
    (each : ∀ member ∈ members, OneValue member.2) :
    ∀ inside depth others inside' depth' rest rest', SpellsMembers inside members depth →
      SpellsMembers inside' others depth' →
      inside ++ '\x7d' :: rest = inside' ++ '\x7d' :: rest' → members = others ∧ rest = rest' := by
  induction members with
  | nil =>
      intro inside depth others inside' depth' rest rest' spelled
      cases spelled
  | cons member members inductionHypothesis =>
      intro inside depth others inside' depth' rest rest' spelled spelled' same
      have one := each member List.mem_cons_self
      cases spelled with
      | one before quoted middle start written after key value _ blank keyed space blank₂ spelt
          space₂ =>
          cases spelled' with
          | one before' quoted' middle' start' written' after' key' value' _ blank' keyed' space'
              blank₂' spelt' space₂' =>
              simp only [List.append_assoc, List.cons_append] at same
              obtain ⟨keys, next⟩ := oneKey blank blank' keyed keyed' space space' same
              obtain ⟨values, _, left⟩ := one.first blank₂ blank₂' spelt spelt' space₂ space₂'
                (Or.inr (Or.inr rfl)) (Or.inr (Or.inr rfl)) next
              dsimp only at values
              rw [keys, values]
              exact ⟨rfl, left⟩
          | more before' quoted' middle' start' written' after' more key' value' _ _ _ blank'
              keyed' space' blank₂' spelt' space₂' _ =>
              simp only [List.append_assoc, List.cons_append] at same
              obtain ⟨keys, next⟩ := oneKey blank blank' keyed keyed' space space' same
              have both := one.first blank₂ blank₂' spelt spelt' space₂ space₂'
                (Or.inr (Or.inr rfl)) (Or.inl rfl) next
              exact absurd both.2.1 (by decide)
      | more before quoted middle start written after more key value _ _ _ blank keyed space blank₂
          spelt space₂ later =>
          cases spelled' with
          | one before' quoted' middle' start' written' after' key' value' _ blank' keyed' space'
              blank₂' spelt' space₂' =>
              simp only [List.append_assoc, List.cons_append] at same
              obtain ⟨keys, next⟩ := oneKey blank blank' keyed keyed' space space' same
              have both := one.first blank₂ blank₂' spelt spelt' space₂ space₂'
                (Or.inl rfl) (Or.inr (Or.inr rfl)) next
              exact absurd both.2.1 (by decide)
          | more before' quoted' middle' start' written' after' more' key' value' _ _ _ blank'
              keyed' space' blank₂' spelt' space₂' later' =>
              simp only [List.append_assoc, List.cons_append] at same
              obtain ⟨keys, next⟩ := oneKey blank blank' keyed keyed' space space' same
              obtain ⟨values, _, left⟩ := one.first blank₂ blank₂' spelt spelt' space₂ space₂'
                (Or.inl rfl) (Or.inl rfl) next
              obtain ⟨others, left'⟩ := inductionHypothesis
                (fun held among => each held (List.mem_cons_of_mem _ among)) _ _ _ _ _ _ _ later
                later' left
              dsimp only at values
              rw [keys, values, others]
              exact ⟨rfl, left'⟩

/-- An empty container does not begin as one with something in it. -/
theorem empty_apart {space inside rest rest' : List Char} {mark : Char} (blank : Space space)
    (isMark : isSpace mark = false)
    (begins : (skipWs (inside ++ mark :: rest')).head? ≠ some mark)
    (same : space ++ mark :: rest = inside ++ mark :: rest') : False := by
  rw [← same, skipWs_mark blank isMark] at begins
  exact begins rfl

theorem oneValue (json : Json) : OneValue json := by
  induction json using Json.nested with
  | null => exact oneValue_null
  | bool value => exact oneValue_bool value
  | number text => exact oneValue_number text
  | string text => exact oneValue_string text
  | array items inductionHypothesis =>
      intro written depth other written' depth' rest rest' spelled spelled' _ _ same
      have kinds := same_kind spelled spelled' same
      cases other with
      | array others =>
          cases spelled with
          | emptyArray space blank =>
              cases spelled' with
              | emptyArray space' blank' =>
                  simp only [List.cons_append, List.append_assoc, List.nil_append] at same
                  have next := congrArg skipWs (List.cons.inj same).2
                  rw [skipWs_mark blank rfl, skipWs_mark blank' rfl] at next
                  exact ⟨rfl, (List.cons.inj next).2⟩
              | array inside' _ _ inner' =>
                  simp only [List.cons_append, List.append_assoc, List.nil_append] at same
                  exact (empty_apart blank rfl (items_begin inner' _) (List.cons.inj same).2).elim
          | array inside _ _ inner =>
              cases spelled' with
              | emptyArray space' blank' =>
                  simp only [List.cons_append, List.append_assoc, List.nil_append] at same
                  exact (empty_apart blank' rfl (items_begin inner _)
                    (List.cons.inj same).2.symm).elim
              | array inside' _ _ inner' =>
                  simp only [List.cons_append, List.append_assoc, List.nil_append] at same
                  obtain ⟨values, left⟩ := oneItems inductionHypothesis _ _ _ _ _ _ _ inner inner'
                    (List.cons.inj same).2
                  exact ⟨congrArg Json.array values, left⟩
      | object members => cases kinds
      | number text => cases kinds
      | string text => cases kinds
      | bool value => cases value <;> cases kinds
      | null => cases kinds
  | object members inductionHypothesis =>
      intro written depth other written' depth' rest rest' spelled spelled' _ _ same
      have kinds := same_kind spelled spelled' same
      cases other with
      | object others =>
          cases spelled with
          | emptyObject space blank =>
              cases spelled' with
              | emptyObject space' blank' =>
                  simp only [List.cons_append, List.append_assoc, List.nil_append] at same
                  have next := congrArg skipWs (List.cons.inj same).2
                  rw [skipWs_mark blank rfl, skipWs_mark blank' rfl] at next
                  exact ⟨rfl, (List.cons.inj next).2⟩
              | object inside' _ _ inner' =>
                  simp only [List.cons_append, List.append_assoc, List.nil_append] at same
                  exact (empty_apart blank rfl (members_begin inner' _) (List.cons.inj same).2).elim
          | object inside _ _ inner =>
              cases spelled' with
              | emptyObject space' blank' =>
                  simp only [List.cons_append, List.append_assoc, List.nil_append] at same
                  exact (empty_apart blank' rfl (members_begin inner _)
                    (List.cons.inj same).2.symm).elim
              | object inside' _ _ inner' =>
                  simp only [List.cons_append, List.append_assoc, List.nil_append] at same
                  obtain ⟨values, left⟩ := oneMembers inductionHypothesis _ _ _ _ _ _ _ inner
                    inner' (List.cons.inj same).2
                  exact ⟨congrArg Json.object values, left⟩
      | array items => cases kinds
      | number text => cases kinds
      | string text => cases kinds
      | bool value => cases value <;> cases kinds
      | null => cases kinds

/-- A text spells one value. -/
theorem spellsText_unique {text : List Char} {json other : Json} {depth depth' : Nat}
    (spelled : SpellsText text json depth) (spelled' : SpellsText text other depth') :
    json = other := by
  obtain ⟨before, written, after, same, blank, space, value⟩ := spelled
  obtain ⟨before', written', after', same', blank', space', value'⟩ := spelled'
  have begun := congrArg skipWs (same.symm.trans same')
  rw [skipWs_value blank value, skipWs_value blank' value'] at begun
  have stops {after : List Char} (space : Space after) : NumberText.Stops after := by
    intro first head
    cases after with
    | nil => cases head
    | cons c after =>
        have longer := @stops_space (c :: after) space ',' (Or.inl rfl) []
        exact longer first head
  exact (oneValue json written depth other written' depth' after after' value value' (stops space)
    (stops space') begun).1

end Ddi.Jsonval
