/-
Reading a byte string from its start. A reader is exact for a set of words when it
accepts what begins with one of them and nothing else, and leaves what follows it; then
no byte string begins with two different words.
-/

import Mathlib.Tactic.Common

namespace Walks

variable {ε α β Byte : Type}

theorem bind_ok_iff {first : Except ε α} {next : α → Except ε β} {result : β} :
    (first >>= next) = .ok result ↔ ∃ value, first = .ok value ∧ next value = .ok result := by
  cases first with
  | error error =>
      constructor
      · intro same
        cases same
      · rintro ⟨value, impossible, _next⟩
        cases impossible
  | ok value =>
      constructor
      · intro same
        exact ⟨value, rfl, same⟩
      · rintro ⟨other, same, held⟩
        cases same
        exact held

/-- The value of the word at the start, and what follows it. -/
def Reads (read : List Byte → Except ε (α × List Byte)) (Word : α → List Byte → Prop) : Prop :=
  ∀ body value rest, read body = .ok (value, rest) ↔
    ∃ bytes, Word value bytes ∧ body = bytes ++ rest

/-- What follows the word at the start. -/
def Passes (walk : List Byte → Except ε (List Byte)) (Word : α → List Byte → Prop) : Prop :=
  ∀ body rest, walk body = .ok rest ↔ ∃ value bytes, Word value bytes ∧ body = bytes ++ rest

theorem Reads.on_word {read : List Byte → Except ε (α × List Byte)} {Word : α → List Byte → Prop}
    (reads : Reads read Word) {value : α} {bytes : List Byte} (word : Word value bytes)
    (rest : List Byte) : read (bytes ++ rest) = .ok (value, rest) :=
  (reads _ _ _).mpr ⟨bytes, word, rfl⟩

theorem Passes.on_word {walk : List Byte → Except ε (List Byte)} {Word : α → List Byte → Prop}
    (passes : Passes walk Word) {value : α} {bytes : List Byte} (word : Word value bytes)
    (rest : List Byte) : walk (bytes ++ rest) = .ok rest :=
  (passes _ _).mpr ⟨value, bytes, word, rfl⟩

/-- No word is the start of another one. -/
theorem Passes.same_end {walk : List Byte → Except ε (List Byte)} {Word : α → List Byte → Prop}
    (passes : Passes walk Word) {value other : α} {bytes bytes' rest rest' : List Byte}
    (word : Word value bytes) (word' : Word other bytes') (same : bytes ++ rest = bytes' ++ rest') :
    bytes = bytes' := by
  have left := passes.on_word word rest
  rw [same, passes.on_word word' rest'] at left
  rw [Except.ok.inj left] at same
  exact List.append_cancel_right same

/-- A reader whose value is not kept. -/
theorem Reads.passes {read : List Byte → Except ε (α × List Byte)} {Word : α → List Byte → Prop}
    (reads : Reads read Word) :
    Passes (fun body => do let (_, rest) ← read body; return rest) Word := by
  intro body rest
  constructor
  · intro passed
    obtain ⟨⟨value, left⟩, held, same⟩ := bind_ok_iff.mp passed
    cases same
    obtain ⟨bytes, word, split⟩ := (reads _ _ _).mp held
    exact ⟨value, bytes, word, split⟩
  · rintro ⟨value, bytes, word, rfl⟩
    exact bind_ok_iff.mpr ⟨(value, rest), reads.on_word word rest, rfl⟩

/-- A word of one set and, after it, a word of another that depends on its value. -/
theorem Reads.then_passes {read : List Byte → Except ε (α × List Byte)}
    {walk : α → List Byte → Except ε (List Byte)} {First : α → List Byte → Prop}
    {Second : α → β → List Byte → Prop} (reads : Reads read First)
    (passes : ∀ value, Passes (walk value) (Second value)) :
    Passes (fun body => do let (value, rest) ← read body; walk value rest)
      fun (both : α × β) bytes => ∃ first second, First both.1 first ∧
        Second both.1 both.2 second ∧ bytes = first ++ second := by
  intro body rest
  constructor
  · intro passed
    obtain ⟨⟨value, left⟩, held, walked⟩ := bind_ok_iff.mp passed
    obtain ⟨first, word, rfl⟩ := (reads _ _ _).mp held
    obtain ⟨next, second, after, rfl⟩ := (passes value _ _).mp walked
    exact ⟨(value, next), first ++ second, ⟨first, second, word, after, rfl⟩,
      (List.append_assoc _ _ _).symm⟩
  · rintro ⟨⟨value, next⟩, bytes, ⟨first, second, word, after, rfl⟩, rfl⟩
    rw [List.append_assoc]
    exact bind_ok_iff.mpr
      ⟨(value, second ++ rest), reads.on_word word _, (passes value).on_word after rest⟩

theorem Passes.then_passes {walk next : List Byte → Except ε (List Byte)}
    {First : α → List Byte → Prop} {Second : β → List Byte → Prop} (passes : Passes walk First)
    (after : Passes next Second) :
    Passes (fun body => walk body >>= next)
      fun (both : α × β) bytes => ∃ first second, First both.1 first ∧
        Second both.2 second ∧ bytes = first ++ second := by
  intro body rest
  constructor
  · intro passed
    obtain ⟨left, held, walked⟩ := bind_ok_iff.mp passed
    obtain ⟨value, first, word, rfl⟩ := (passes _ _).mp held
    obtain ⟨other, second, later, rfl⟩ := (after _ _).mp walked
    exact ⟨(value, other), first ++ second, ⟨first, second, word, later, rfl⟩,
      (List.append_assoc _ _ _).symm⟩
  · rintro ⟨⟨value, other⟩, bytes, ⟨first, second, word, later, rfl⟩, rfl⟩
    rw [List.append_assoc]
    exact bind_ok_iff.mpr ⟨second ++ rest, passes.on_word word _, after.on_word later rest⟩

/-- The same words, whatever values they are words of. -/
theorem Passes.of_words {walk : List Byte → Except ε (List Byte)} {Word : α → List Byte → Prop}
    {Other : β → List Byte → Prop} (passes : Passes walk Word)
    (same : ∀ bytes, (∃ value, Word value bytes) ↔ ∃ value, Other value bytes) :
    Passes walk Other := by
  intro body rest
  rw [passes]
  constructor
  · rintro ⟨value, bytes, word, split⟩
    obtain ⟨other, also⟩ := (same bytes).mp ⟨value, word⟩
    exact ⟨other, bytes, also, split⟩
  · rintro ⟨other, bytes, word, split⟩
    obtain ⟨value, also⟩ := (same bytes).mpr ⟨other, word⟩
    exact ⟨value, bytes, also, split⟩

end Walks
