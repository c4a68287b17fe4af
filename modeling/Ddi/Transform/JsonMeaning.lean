/-
What a parsed value denotes, and when equality as a value is equality of that: objects that repeat
a key and numbers that are one double are what it goes wrong on.
-/

import Ddi.Transform.Jsonval
import Mathlib.Data.List.Perm.Subperm
import Mathlib.Data.List.Nodup

namespace Ddi.Jsonval

/-- What JSON denotes: an object is what stands under each key, a number is a rational. -/
inductive Meaning
  | null
  | bool (value : Bool)
  /-- A text that is no number has no rational. -/
  | number (value : Option ℚ)
  | string (text : String)
  | array (items : List Meaning)
  | object (member : String → Option Meaning)

mutual

def denote : Json → Meaning
  | .null => .null
  | .bool value => .bool value
  | .number text => .number (NumberText.valueOf text.toList)
  | .string text => .string text
  | .array items => .array (denoteItems items)
  | .object members => .object (denoteMembers members)

def denoteItems : List Json → List Meaning
  | [] => []
  | item :: items => denote item :: denoteItems items

/-- Of a repeated key, the last member counts. -/
def denoteMembers : List (String × Json) → String → Option Meaning
  | [], _ => none
  | (own, value) :: members, key =>
      (denoteMembers members key).or (if own = key then some (denote value) else none)

end

/-! ### Objects as maps -/

theorem denoteItems_map (items : List Json) : denoteItems items = items.map denote := by
  induction items with
  | nil => rfl
  | cons item items inductionHypothesis => exact congrArg _ inductionHypothesis

/-- The member under a key denotes what the object does there. -/
theorem denoteMembers_get (members : List (String × Json)) (key : String) :
    denoteMembers members key = ((Json.object members).get key).map denote := by
  simp only [Json.get]
  induction members with
  | nil => rfl
  | cons member members inductionHypothesis =>
      obtain ⟨own, value⟩ := member
      rw [denoteMembers, inductionHypothesis, List.reverse_cons, List.find?_append]
      cases members.reverse.find? fun member => member.1 == key with
      | some last => rfl
      | none => by_cases same : own = key <;> simp [same]

theorem denoteMembers_distinct {members : List (String × Json)}
    (distinct : (members.map Prod.fst).Nodup) (key : String) :
    denoteMembers members key = (members.lookup key).map denote := by
  have entries : Assoc.Distinct members := List.pairwise_map.mp distinct
  rw [denoteMembers_get, ← entries.find?_reverse]
  simp [Json.get, beq_eq_decide]

/-- What a tree reader makes of an object denotes the same. -/
theorem denoteMembers_lastWins (members : List (String × Json)) :
    denoteMembers (ordered .lastWins members) = denoteMembers members := by
  funext key
  have distinct : Assoc.Distinct (ordered .lastWins members) :=
    Assoc.Distinct.foldl_put List.Pairwise.nil Prod.fst Prod.snd
  rw [denoteMembers_distinct distinct.nodup_keys, denoteMembers_get]
  have last := Assoc.lookup_foldl_put members Prod.fst Prod.snd [] key
  rw [List.lookup_nil, Option.or_none] at last
  simp only [ordered]
  rw [last]
  simp [Json.get, beq_eq_decide]

theorem lastWins_keys (members : List (String × Json)) (key : String) :
    key ∈ (ordered .lastWins members).map Prod.fst ↔ key ∈ members.map Prod.fst := by
  have last := Assoc.lookup_foldl_put members Prod.fst Prod.snd [] key
  rw [List.lookup_nil, Option.or_none] at last
  rw [Assoc.mem_keys_iff]
  simp only [ordered]
  rw [last]
  constructor
  · intro found
    obtain ⟨value, held⟩ := found
    obtain ⟨member, chosen, _same⟩ := Option.map_eq_some_iff.mp held
    have own : member.1 = key := by simpa using List.find?_some chosen
    exact List.mem_map.mpr
      ⟨member, List.mem_reverse.mp (List.mem_of_find?_eq_some chosen), own⟩
  · intro inside
    obtain ⟨member, among, own⟩ := List.mem_map.mp inside
    cases chosen : members.reverse.find? fun member => decide (member.1 = key) with
    | some last => exact ⟨last.2, rfl⟩
    | none =>
        have away := List.find?_eq_none.mp chosen member (List.mem_reverse.mpr among)
        simp [own] at away

/-- An object that a tree reader keeps as long as it is repeats no key. -/
theorem nodup_of_lastWins {members : List (String × Json)}
    (whole : (ordered .lastWins members).length = members.length) :
    (members.map Prod.fst).Nodup := by
  have distinct : Assoc.Distinct (ordered .lastWins members) :=
    Assoc.Distinct.foldl_put List.Pairwise.nil Prod.fst Prod.snd
  have inside : (ordered .lastWins members).map Prod.fst ⊆ members.map Prod.fst :=
    fun key => (lastWins_keys members key).mp
  have perm := (distinct.nodup_keys.subperm inside).perm_of_length_le (by simp [whole])
  exact perm.nodup_iff.mp distinct.nodup_keys

/-! ### Numbers -/

theorem parseF64_value {text : String} {value : ℚ}
    (spelled : NumberText.valueOf text.toList = some value) :
    ∃ spelling : NumberText.Spelling, spelling.value = value ∧ parseF64 text = some
      { negative := spelling.negative, magnitude := Double.nearest (|value|) } := by
  unfold NumberText.valueOf at spelled
  split at spelled
  · next spelling scanned =>
    cases spelled
    refine ⟨spelling, rfl, ?_⟩
    unfold parseF64
    rw [scanned]
  · cases spelled

/-- Two texts of one rational are one double. -/
theorem sameNumber_of_value {first second : String} {value : ℚ}
    (one : NumberText.valueOf first.toList = some value)
    (other : NumberText.valueOf second.toList = some value) : sameNumber first second = true := by
  obtain ⟨spelling, same, read⟩ := parseF64_value one
  obtain ⟨spelling', same', read'⟩ := parseF64_value other
  simp only [sameNumber, read, read', Double.Binary64.same, beq_self_eq_true, Bool.true_and,
    Bool.or_eq_true, beq_iff_eq]
  by_cases zero : value = 0
  · right
    rw [zero]
    rfl
  · left
    have signed := NumberText.negative_of_value spelling (same ▸ zero)
    have signed' := NumberText.negative_of_value spelling' (same' ▸ zero)
    rw [signed, signed', same, same']

theorem sameNumber_iff {first second : String} {one other : ℚ}
    (spelled : NumberText.valueOf first.toList = some one)
    (spelled' : NumberText.valueOf second.toList = some other)
    (apart : ∀ double double', parseF64 first = some double → parseF64 second = some double' →
      double.same double' = true → one = other) :
    sameNumber first second = true ↔ one = other := by
  constructor
  · intro same
    obtain ⟨_, _, read⟩ := parseF64_value spelled
    obtain ⟨_, _, read'⟩ := parseF64_value spelled'
    apply apart _ _ read read'
    simpa only [sameNumber, read, read'] using same
  · intro same
    exact sameNumber_of_value spelled (same ▸ spelled')

/-! ### Containers -/

theorem sameItems_iff {items others : List Json} (lengths : items.length = others.length)
    (exact : ∀ item ∈ items, ∀ other ∈ others,
      item.sameValue other = true ↔ denote item = denote other) :
    sameItems items others = true ↔ denoteItems items = denoteItems others := by
  induction items generalizing others with
  | nil =>
      cases others with
      | nil => simp [sameItems]
      | cons other others => cases lengths
  | cons item items inductionHypothesis =>
      cases others with
      | nil => cases lengths
      | cons other others =>
          have first := exact item List.mem_cons_self other List.mem_cons_self
          have rest := inductionHypothesis (Nat.succ.inj lengths) fun item inside other among =>
            exact item (List.mem_cons_of_mem _ inside) other (List.mem_cons_of_mem _ among)
          simp only [sameItems, denoteItems, Bool.and_eq_true, List.cons.injEq, first, rest]

theorem sameMembers_iff (members others : List (String × Json)) :
    sameMembers members others = true ↔
      ∀ member ∈ members, ∃ other ∈ others, member.1 = other.1 ∧
        member.2.sameValue other.2 = true := by
  induction members with
  | nil => simp [sameMembers]
  | cons member members inductionHypothesis =>
      obtain ⟨key, value⟩ := member
      simp only [sameMembers, Bool.and_eq_true, List.any_eq_true, beq_iff_eq, inductionHypothesis,
        List.forall_mem_cons]

/-- Where no key is repeated, as many members that are each found are the same map. -/
theorem objects_iff {members others : List (String × Json)}
    (distinct : (members.map Prod.fst).Nodup) (distinct' : (others.map Prod.fst).Nodup)
    (exact : ∀ member ∈ members, ∀ other ∈ others,
      member.2.sameValue other.2 = true ↔ denote member.2 = denote other.2) :
    (members.length == others.length && sameMembers members others) = true ↔
      denoteMembers members = denoteMembers others := by
  have entries : Assoc.Distinct members := List.pairwise_map.mp distinct
  have entries' : Assoc.Distinct others := List.pairwise_map.mp distinct'
  rw [Bool.and_eq_true, beq_iff_eq, sameMembers_iff]
  constructor
  · intro same
    obtain ⟨lengths, found⟩ := same
    have inside : members.map Prod.fst ⊆ others.map Prod.fst := by
      intro key among
      obtain ⟨member, stands, own⟩ := List.mem_map.mp among
      obtain ⟨other, held, keys, _same⟩ := found member stands
      exact List.mem_map.mpr ⟨other, held, by rw [← keys, own]⟩
    have perm := (distinct.subperm inside).perm_of_length_le (by simp [lengths])
    funext key
    rw [denoteMembers_distinct distinct, denoteMembers_distinct distinct']
    cases held : members.lookup key with
    | some value =>
        have stands := Assoc.mem_of_lookup held
        obtain ⟨other, among, keys, same⟩ := found _ stands
        have value_eq := (exact _ stands other among).mp same
        have held' := entries'.lookup_of_mem among
        rw [← keys] at held'
        rw [held', Option.map_some, Option.map_some, value_eq]
    | none =>
        have absent := (Assoc.lookup_eq_none_iff members key).mp held
        have absent' : others.lookup key = none :=
          (Assoc.lookup_eq_none_iff others key).mpr fun among =>
            absent (perm.mem_iff.mpr among)
        rw [absent']
  · intro same
    have looked (key : String) :
        (members.lookup key).map denote = (others.lookup key).map denote := by
      rw [← denoteMembers_distinct distinct, ← denoteMembers_distinct distinct', same]
    have keys (key : String) : key ∈ members.map Prod.fst ↔ key ∈ others.map Prod.fst := by
      have held := congrArg Option.isSome (looked key)
      rw [Option.isSome_map, Option.isSome_map] at held
      rw [Assoc.mem_keys_iff, Assoc.mem_keys_iff, ← Option.isSome_iff_exists,
        ← Option.isSome_iff_exists, held]
    constructor
    · have perm := (List.perm_ext_iff_of_nodup distinct distinct').mpr keys
      simpa using perm.length_eq
    · intro member stands
      have held := looked member.1
      rw [entries.lookup_of_mem stands, Option.map_some] at held
      obtain ⟨value, found, denoted⟩ := Option.map_eq_some_iff.mp held.symm
      have among := Assoc.mem_of_lookup found
      exact ⟨_, among, rfl, (exact member stands _ among).mpr denoted.symm⟩

/-! ### Equality as a value -/

/-- Values with all that stands in them, as a tree reader has it too. Each number is one. -/
structure Closed (values : Json → Prop) : Prop where
  item : ∀ items, values (.array items) → ∀ item ∈ items, values item
  member : ∀ members, values (.object members) → ∀ member ∈ members, values member.2
  read : ∀ members, values (.object members) → values (.object (ordered .lastWins members))
  spelled : ∀ text, values (.number text) → ∃ value, NumberText.valueOf text.toList = some value

/-- Equality as a value is an equality, that of what the values denote. -/
structure Judges (values : Json → Prop) : Prop where
  reflexive : ∀ json, values json → json.sameValue json = true
  symmetric : ∀ one other, values one → values other → one.sameValue other = true →
    other.sameValue one = true
  transitive : ∀ one other third, values one → values other → values third →
    one.sameValue other = true → other.sameValue third = true → one.sameValue third = true
  exact : ∀ one other, values one → values other →
    (one.sameValue other = true ↔ denote one = denote other)
  contains : ∀ shown raw text items, parse shown raw = .ok (.array items) →
    values (.array items) → values (needle shown text) →
    ∃ found, jsonArrayContains shown raw text = .ok (some found) ∧
      (found = true ↔ ∃ item ∈ items, denote item = denote (needle shown text))

/-- No object repeats a key. -/
def Unrepeated (values : Json → Prop) : Prop :=
  ∀ members, values (.object members) → (members.map Prod.fst).Nodup

/-- No two numbers are one double. -/
def DoublesApart (values : Json → Prop) : Prop :=
  ∀ first second, values (.number first) → values (.number second) →
    ∀ double double', parseF64 first = some double → parseF64 second = some double' →
      double.same double' = true →
      NumberText.valueOf first.toList = NumberText.valueOf second.toList

theorem sameValue_iff {values : Json → Prop} (closed : Closed values)
    (unrepeated : Unrepeated values) (apart : DoublesApart values) (one : Json) :
    ∀ other, values one → values other →
      (one.sameValue other = true ↔ denote one = denote other) := by
  induction one using Json.nested with
  | null => intro other _ _; cases other <;> simp [Json.sameValue, denote]
  | bool value => intro other _ _; cases other <;> simp [Json.sameValue, denote]
  | string text => intro other _ _; cases other <;> simp [Json.sameValue, denote]
  | number text =>
      intro other inside among
      cases other with
      | number text' =>
          obtain ⟨value, spelled⟩ := closed.spelled text inside
          obtain ⟨value', spelled'⟩ := closed.spelled text' among
          rw [Json.sameValue, denote, denote, spelled, spelled', Meaning.number.injEq,
            Option.some.injEq]
          apply sameNumber_iff spelled spelled'
          intro double double' read read' same
          have equal := apart text text' inside among double double' read read' same
          rw [spelled, spelled'] at equal
          exact Option.some.inj equal
      | _ => simp [Json.sameValue, denote]
  | array items inductionHypothesis =>
      intro other inside among
      cases other with
      | array others =>
          rw [Json.sameValue, denote, denote, Meaning.array.injEq, Bool.and_eq_true, beq_iff_eq]
          by_cases lengths : items.length = others.length
          · have same := sameItems_iff lengths fun item stands other held =>
              inductionHypothesis item stands other (closed.item items inside item stands)
                (closed.item others among other held)
            rw [same]
            exact and_iff_right lengths
          · rw [denoteItems_map, denoteItems_map]
            constructor
            · exact fun same => (lengths same.1).elim
            · intro same
              have counted := congrArg List.length same
              rw [List.length_map, List.length_map] at counted
              exact (lengths counted).elim
      | _ => simp [Json.sameValue, denote]
  | object members inductionHypothesis =>
      intro other inside among
      cases other with
      | object others =>
          rw [Json.sameValue, denote, denote, Meaning.object.injEq]
          apply objects_iff (unrepeated members inside) (unrepeated others among)
          intro member stands other held
          exact inductionHypothesis member stands other.2
            (closed.member members inside member stands) (closed.member others among other held)
      | _ => simp [Json.sameValue, denote]

theorem contains_iff {values : Json → Prop} (closed : Closed values)
    (exact : ∀ one other, values one → values other →
      (one.sameValue other = true ↔ denote one = denote other))
    {shown : Char → String} {raw text : String} {items : List Json}
    (read : parse shown raw = .ok (.array items)) (inside : values (.array items))
    (sought : values (needle shown text)) :
    ∃ found, jsonArrayContains shown raw text = .ok (some found) ∧
      (found = true ↔ ∃ item ∈ items, denote item = denote (needle shown text)) := by
  refine ⟨items.any fun item => item.sameValue (needle shown text), ?_, ?_⟩
  · simp [jsonArrayContains, read, Except.map, Json.asArray]
  · rw [List.any_eq_true]
    apply exists_congr
    intro item
    apply and_congr_right
    intro stands
    exact exact item _ (closed.item items inside item stands) sought

/-- Equality as a value is right on values exactly where no object of theirs repeats a key and no
two numbers of theirs are one double. -/
theorem sameValue_judges_iff {values : Json → Prop} (closed : Closed values) :
    Judges values ↔ Unrepeated values ∧ DoublesApart values := by
  constructor
  · intro judges
    constructor
    · intro members inside
      apply nodup_of_lastWins
      have same : (Json.object (ordered .lastWins members)).sameValue (.object members) = true := by
        apply (judges.exact _ _ (closed.read members inside) inside).mpr
        rw [denote, denote, denoteMembers_lastWins]
      rw [Json.sameValue, Bool.and_eq_true, beq_iff_eq] at same
      exact same.1
    · intro first second inside among double double' read read' same
      have judged : (Json.number first).sameValue (.number second) = true := by
        simpa only [Json.sameValue, sameNumber, read, read'] using same
      have equal := (judges.exact _ _ inside among).mp judged
      rw [denote, denote] at equal
      exact Meaning.number.inj equal
  · intro good
    obtain ⟨unrepeated, apart⟩ := good
    have exact (one other : Json) (inside : values one) (among : values other) :=
      sameValue_iff closed unrepeated apart one other inside among
    exact
      { reflexive := fun json inside => (exact json json inside inside).mpr rfl
        symmetric := fun one other inside among same =>
          (exact other one among inside).mpr ((exact one other inside among).mp same).symm
        transitive := fun one other third inside among last same same' =>
          (exact one third inside last).mpr
            (((exact one other inside among).mp same).trans
              ((exact other third among last).mp same'))
        exact := exact
        contains := fun shown raw text items read inside sought =>
          contains_iff closed exact read inside sought }

/-- A record with a number, and what stands in it. -/
def oneMember (json : Json) : Prop :=
  json = .object [("a", .number "1")] ∨ json = .number "1"

theorem oneMember_closed : Closed oneMember where
  item items inside := by
    obtain same | same := inside <;> cases same
  member members inside := by
    obtain same | same := inside
    · cases same
      intro member stands
      rw [List.mem_singleton.mp stands]
      exact Or.inr rfl
    · cases same
  read members inside := by
    obtain same | same := inside
    · cases same
      exact Or.inl rfl
    · cases same
  spelled text inside := by
    obtain same | same := inside
    · cases same
    · cases same
      exact ⟨_, rfl⟩

theorem oneMember_judges : Closed oneMember ∧
    (Judges oneMember ↔ Unrepeated oneMember ∧ DoublesApart oneMember) :=
  ⟨oneMember_closed, sameValue_judges_iff oneMember_closed⟩

/-- A repeated key stands in for a key that the other object has and it lacks. -/
theorem sameValue_oneSided :
    (Json.object [("a", .null), ("a", .null)]).sameValue (.object [("a", .null), ("b", .null)]) =
        true ∧
      (Json.object [("a", .null), ("b", .null)]).sameValue (.object [("a", .null), ("a", .null)]) =
        false := by
  decide

end Ddi.Jsonval
