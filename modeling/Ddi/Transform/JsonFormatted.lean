/-
What `FORMAT JSON` embeds of a text: the same value at every place, its floats as doubles, in a
text that it would embed as it is.
-/

import Ddi.Transform.JsonInvoke
import Ddi.Transform.JsonStored

namespace Ddi.Jsonval

/-! ### Places -/

inductive Step
  | key (name : String)
  | index (place : Nat)

/-- What stands at a step into a value: of members that share a key, the last. -/
def Json.enter (step : Step) (json : Json) : Option Json :=
  match step with
  | .key name => json.get name
  | .index place => json.asArray.bind fun items => items[place]?

/-- What stands at a place. -/
def Json.follow : List Step → Json → Option Json
  | [], json => some json
  | step :: path, json => (json.enter step).bind (follow path)

theorem get_object (members : List (String × Json)) (key : String) :
    (Json.object members).get key =
      (members.reverse.find? fun member => decide (member.1 = key)).map Prod.snd := by
  simp only [Json.get, beq_eq_decide]

theorem distinct_lastWins {α : Type} (pairs : List (String × α)) :
    Assoc.Distinct (ordered .lastWins pairs) :=
  Assoc.Distinct.foldl_put List.Pairwise.nil Prod.fst Prod.snd

theorem get_lastWins (members : List (String × Json)) (key : String) :
    (Json.object (ordered .lastWins members)).get key = (Json.object members).get key := by
  rw [get_object, get_object, (distinct_lastWins members).find?_reverse]
  have last := Assoc.lookup_foldl_put members Prod.fst Prod.snd [] key
  rw [List.lookup_nil, Option.or_none] at last
  exact last

theorem get_map (change : Json → Json) (members : List (String × Json)) (key : String) :
    (Json.object (members.map fun member => (member.1, change member.2))).get key =
      ((Json.object members).get key).map change := by
  rw [get_object, get_object, ← List.map_reverse, List.find?_map, Option.map_map, Option.map_map]
  rfl

/-- What is arranged has at each step what stands there, arranged. -/
theorem arranged_enter (numbers : Numbers) (step : Step) (json : Json) :
    (arranged .lastWins numbers json).enter step =
      (json.enter step).map (arranged .lastWins numbers) := by
  cases step with
  | key name =>
      cases json with
      | object members =>
          rw [arranged, arrangedMembers_map, ordered_map]
          change (Json.object ((ordered .lastWins members).map _)).get name =
            ((Json.object members).get name).map _
          rw [get_map, get_lastWins]
      | null => rfl
      | bool value => rfl
      | number text => rfl
      | string text => rfl
      | array items => rfl
  | index place =>
      cases json with
      | array items =>
          rw [arranged, arrangedItems_map]
          exact List.getElem?_map
      | null => rfl
      | bool value => rfl
      | number text => rfl
      | string text => rfl
      | object members => rfl

theorem arranged_follow (numbers : Numbers) (path : List Step) (json : Json) :
    (arranged .lastWins numbers json).follow path =
      (json.follow path).map (arranged .lastWins numbers) := by
  induction path generalizing json with
  | nil => rfl
  | cons step path inductionHypothesis =>
      rw [Json.follow, Json.follow, arranged_enter]
      cases json.enter step with
      | none => rfl
      | some inner => exact inductionHypothesis inner

theorem numbered_follow {path : List Step} {json inner : Json} (numbered : Numbered json)
    (stands : json.follow path = some inner) : Numbered inner := by
  induction path generalizing json with
  | nil =>
      cases stands
      exact numbered
  | cons step path inductionHypothesis =>
      rw [Json.follow] at stands
      cases entered : json.enter step with
      | none =>
          rw [entered] at stands
          cases stands
      | some next =>
          rw [entered] at stands
          refine inductionHypothesis ?_ stands
          cases step with
          | key name =>
              cases json with
              | object members =>
                  have found : (Json.object members).get name = some next := entered
                  rw [get_object] at found
                  obtain ⟨member, chosen, same⟩ := Option.map_eq_some_iff.mp found
                  rw [← same]
                  exact numbered.member (List.mem_reverse.mp (List.mem_of_find?_eq_some chosen))
              | null => cases entered
              | bool value => cases entered
              | number text => cases entered
              | string text => cases entered
              | array items => cases entered
          | index place =>
              cases json with
              | array items => exact numbered.item (List.mem_of_getElem? entered)
              | null => cases entered
              | bool value => cases entered
              | number text => cases entered
              | string text => cases entered
              | object members => cases entered

/-! ### Values that differ in the spelling of their floats -/

/-- Values of one kind: a number of another spelling only where both are one double, and never where
it is whole. What containers hold is told by the places in them. -/
def Alike : Json → Json → Prop
  | .null, .null => True
  | .bool one, .bool other => one = other
  | .string one, .string other => one = other
  | .number one, .number other =>
      parseF64 one = parseF64 other ∧
        ((one.toList.any fun c => c == '.' || c == 'e' || c == 'E') = false → one = other)
  | .array items, .array others => items.length = others.length
  | .object members, .object others =>
      ∀ key, key ∈ members.map Prod.fst ↔ key ∈ others.map Prod.fst
  | _, _ => False

theorem alike_arranged {json : Json} (numbered : Numbered json) :
    Alike json (arranged .lastWins .javaDouble json) := by
  cases json with
  | null => exact trivial
  | bool value => exact rfl
  | string text => exact rfl
  | number text =>
      obtain ⟨spelling, valid, same⟩ := numbered text .self
      rw [same]
      refine ⟨(numberText_double valid).1.symm, ?_⟩
      intro whole
      rw [numberText, if_neg (by rw [whole]; exact Bool.false_ne_true), String.ofList_toList]
  | array items =>
      change items.length = (arrangedItems .lastWins .javaDouble items).length
      rw [arrangedItems_map, List.length_map]
  | object members =>
      intro key
      have keys : (ordered .lastWins (arrangedMembers .lastWins .javaDouble members)).map Prod.fst =
          (ordered .lastWins members).map Prod.fst := by
        rw [arrangedMembers_map, ordered_map, List.map_map]
        rfl
      rw [keys]
      exact (lastWins_keys members key).symm

/-- No object within what is arranged repeats a key. -/
theorem arranged_distinct (numbers : Numbers) (json : Json) :
    ∀ members, Within (.object members) (arranged .lastWins numbers json) →
      (members.map Prod.fst).Nodup := by
  induction json using Json.nested with
  | null => intro members within; cases within
  | bool value => intro members within; cases within
  | string text => intro members within; cases within
  | number text => intro members within; cases within
  | array items inductionHypothesis =>
      intro members within
      rw [arranged, arrangedItems_map] at within
      cases within with
      | item _ item among inside =>
          obtain ⟨own, stands, same⟩ := List.mem_map.mp among
          rw [← same] at inside
          exact inductionHypothesis own stands members inside
  | object pairs inductionHypothesis =>
      intro members within
      rw [arranged, arrangedMembers_map] at within
      cases within with
      | self => exact (distinct_lastWins _).nodup_keys
      | member _ member among inside =>
          obtain ⟨own, stands, same⟩ := List.mem_map.mp (mem_ordered among)
          rw [← same] at inside
          exact inductionHypothesis own stands members inside

/-- What a tree reader arranged is written as what it was arranged from. -/
theorem write_lastWins (generator : Generator) (json : Json) :
    Numbered json → write .lastWins .javaDouble generator (arranged .lastWins .javaDouble json) =
      write .lastWins .javaDouble generator json := by
  induction json using Json.nested with
  | null => exact fun _ => rfl
  | bool value => exact fun _ => rfl
  | string text => exact fun _ => rfl
  | number text =>
      intro numbered
      obtain ⟨spelling, valid, same⟩ := numbered text .self
      rw [arranged, write, write, same, (numberText_double valid).2]
  | array items inductionHypothesis =>
      intro numbered
      rw [arranged, write, write, arrangedItems_map, writeItems_map, writeItems_map, List.map_map]
      congr 3
      apply List.map_congr_left
      intro item among
      exact inductionHypothesis item among (numbered.item among)
  | object members inductionHypothesis =>
      intro numbered
      have kept : ordered .lastWins (ordered .lastWins members) = ordered .lastWins members := by
        have whole : (ordered .lastWins members).foldl
            (fun held entry => Assoc.put entry.1 entry.2 held) [] =
              [] ++ ordered .lastWins members :=
          Assoc.Distinct.foldl_put_self (distinct_lastWins members)
        rw [List.nil_append] at whole
        exact whole
      have texts : ordered .lastWins (writeMembers .lastWins .javaDouble generator
            (ordered .lastWins (arrangedMembers .lastWins .javaDouble members))) =
          ordered .lastWins (writeMembers .lastWins .javaDouble generator members) := by
        rw [arrangedMembers_map, ordered_map, writeMembers_map, writeMembers_map, ordered_map,
          ordered_map .lastWins _ members, ordered_map, kept, List.map_map]
        apply List.map_congr_left
        intro member among
        have inside := mem_ordered among
        exact congrArg (Prod.mk member.1)
          (inductionHypothesis member inside (numbered.member inside))
      rw [arranged, write, write, texts]

end Ddi.Jsonval

namespace Ddi.JsonBuild

open Ddi.Jsonval

/-- `FORMAT JSON` refuses what is no JSON, and embeds of JSON a text that it would embed as it is,
which holds at each place what the text does, and no key twice. -/
theorem formatted_stable (arrow : Arrow) (text : String) :
    match parse arrow.shown text with
    | .error error => formatted arrow text = .error error
    | .ok json =>
        ∃ embedded kept, formatted arrow text = .ok embedded ∧
          parse arrow.shown embedded = .ok kept ∧ formatted arrow embedded = .ok embedded ∧
          (∀ path, Option.Rel Alike (json.follow path) (kept.follow path)) ∧
          ∀ members, Within (.object members) kept → (members.map Prod.fst).Nodup := by
  cases read : parse arrow.shown text with
  | error error =>
      change formatted arrow text = .error error
      rw [formatted, read]
      rfl
  | ok json =>
      have numbered : Numbered json := by
        obtain ⟨depth, ⟨_, written, _, _, _, _, spelled⟩, _⟩ :=
          (parse_iff arrow.shown text json).mp read
        exact numbered_of_spells json written depth spelled
      have again := parse_toString arrow.shown read .lastWins .javaDouble .utf8
      refine ⟨toString json .lastWins .javaDouble .utf8, arranged .lastWins .javaDouble json, ?_,
        again, ?_, ?_, arranged_distinct .javaDouble json⟩
      · rw [formatted, read]
        rfl
      · rw [formatted, again]
        exact congrArg (Except.ok ∘ String.ofList) (write_lastWins .utf8 json numbered)
      · intro path
        rw [arranged_follow]
        cases stands : json.follow path with
        | none => exact Option.Rel.none
        | some inner => exact Option.Rel.some (alike_arranged (numbered_follow numbered stands))

end Ddi.JsonBuild
