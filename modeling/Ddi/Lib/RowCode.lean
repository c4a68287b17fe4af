/-
Row codes: several values written one after another, compared as one word.

Each value has a code of its own. Where every code keeps the order of its
values and no word of it begins another, the rows compare as the words do,
whatever the lengths of the words are.
-/

import Mathlib.Data.List.Lex
import Mathlib.Order.Lattice

namespace RowCode

variable {V β : Type} [LinearOrder V] [LinearOrder β]

structure Ordered (code : V → List β) : Prop where
  mono : ∀ less more, less < more → code less < code more
  apart : ∀ one other, code one <+: code other → one = other

/-- The words of the values, one after another. -/
def encode : List (V → List β) → List V → List β
  | code :: codes, value :: values => code value ++ encode codes values
  | _, _ => []

/-- Words in order differ before one of them ends, or the lesser begins the greater. -/
theorem append_lt_append {less more : List β} (below : less < more) (apart : ¬ less <+: more)
    (tail others : List β) : less ++ tail < more ++ others := by
  induction less generalizing more with
  | nil => exact absurd List.nil_prefix apart
  | cons head less ih =>
      cases more with
      | nil => exact absurd below (List.not_lt_nil _)
      | cons first more =>
          rw [List.cons_append, List.cons_append, List.cons_lt_cons_iff]
          rcases List.cons_lt_cons_iff.mp below with under | ⟨same, under_rest⟩
          · exact Or.inl under
          · apply Or.inr
            subst same
            constructor
            · rfl
            · apply ih under_rest
              intro begins
              exact apart (List.cons_prefix_cons.mpr ⟨rfl, begins⟩)

theorem encode_lt {codes : List (V → List β)} (ordered : ∀ code, code ∈ codes → Ordered code)
    {less more : List V} (many : less.length = codes.length) (as_many : more.length = codes.length)
    (below : less < more) : encode codes less < encode codes more := by
  induction codes generalizing less more with
  | nil =>
      rw [List.length_eq_zero_iff.mp many, List.length_eq_zero_iff.mp as_many] at below
      exact absurd below (List.not_lt_nil _)
  | cons code codes ih =>
      have keeps := ordered code List.mem_cons_self
      cases less with
      | nil => cases many
      | cons head less =>
          cases more with
          | nil => cases as_many
          | cons first more =>
              change code head ++ encode codes less < code first ++ encode codes more
              rcases List.cons_lt_cons_iff.mp below with under | ⟨same, under_rest⟩
              · apply append_lt_append (keeps.mono head first under)
                intro begins
                exact absurd (keeps.apart head first begins) (ne_of_lt under)
              · subst same
                apply List.append_left_lt
                apply ih (fun code member => ordered code (List.mem_cons_of_mem _ member))
                · exact Nat.succ.inj many
                · exact Nat.succ.inj as_many
                · exact under_rest

/-- Rows compare as their codes do. -/
theorem encode_lt_iff {codes : List (V → List β)} (ordered : ∀ code, code ∈ codes → Ordered code)
    {one other : List V} (many : one.length = codes.length)
    (as_many : other.length = codes.length) :
    encode codes one < encode codes other ↔ one < other := by
  constructor
  · intro below
    rcases lt_trichotomy one other with less | same | more
    · exact less
    · rw [same] at below
      exact absurd below (lt_irrefl _)
    · exact absurd (encode_lt ordered as_many many more) (lt_asymm below)
  · exact encode_lt ordered many as_many

/-- Two rows of one length compare by what they start with, then by their last value. -/
theorem snoc_lt_snoc_iff {one other : List V} (many : one.length = other.length) (last end_ : V) :
    one ++ [last] < other ++ [end_] ↔ one < other ∨ (one = other ∧ last < end_) := by
  induction one generalizing other with
  | nil =>
      rw [List.length_eq_zero_iff.mp many.symm]
      simp [List.cons_lt_cons_iff]
  | cons head one ih =>
      cases other with
      | nil => cases many
      | cons first other =>
          rw [List.cons_append, List.cons_append, List.cons_lt_cons_iff, List.cons_lt_cons_iff,
            ih (Nat.succ.inj many), List.cons.injEq]
          constructor
          · rintro (under | ⟨same, under | ⟨rest, under⟩⟩)
            · exact Or.inl (Or.inl under)
            · exact Or.inl (Or.inr ⟨same, under⟩)
            · exact Or.inr ⟨⟨same, rest⟩, under⟩
          · rintro ((under | ⟨same, under⟩) | ⟨⟨same, rest⟩, under⟩)
            · exact Or.inl under
            · exact Or.inr ⟨same, Or.inl under⟩
            · exact Or.inr ⟨same, Or.inr ⟨rest, under⟩⟩

end RowCode
