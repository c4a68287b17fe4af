/-
A bounded walk back over numbered entries.

`look` answers at a number or says nothing, given how many entries have been
passed already; the walk goes down from a number until it answers, and gives
`exhausted` when it never does.
-/

import Mathlib.Tactic.Common

namespace WalkBack

variable {β : Type}

def walkBack (look : Nat → Nat → Option β) (exhausted : β) : Nat → Nat → β
  | 0, passed => (look 0 passed).getD exhausted
  | number + 1, passed =>
    match look (number + 1) passed with
    | some answer => answer
    | none => walkBack look exhausted number (passed + 1)

/-- `number` is where a walk from `first` gets its answer. -/
structure AnswersAt (look : Nat → Nat → Option β) (first passed : Nat) (answer : β)
    (number : Nat) : Prop where
  within : number ≤ first
  answered : look number (passed + (first - number)) = some answer
  silent : ∀ later, number < later → later ≤ first → look later (passed + (first - later)) = none

theorem walkBack_cases (look : Nat → Nat → Option β) (exhausted : β) (first passed : Nat) :
    (∃ number, AnswersAt look first passed (walkBack look exhausted first passed) number) ∨
      (walkBack look exhausted first passed = exhausted ∧
        ∀ number, number ≤ first → look number (passed + (first - number)) = none) := by
  induction first generalizing passed with
  | zero =>
      cases answer : look 0 passed with
      | some found =>
          refine Or.inl ⟨0, Nat.le_refl _, ?_, ?_⟩
          · rw [walkBack, answer]
            exact answer
          · intro later above atMost
            omega
      | none =>
          refine Or.inr ⟨?_, ?_⟩
          · rw [walkBack, answer]
            rfl
          · intro number atMost
            have here : number = 0 := by omega
            subst here
            exact answer
  | succ first ih =>
      cases answer : look (first + 1) passed with
      | some found =>
          refine Or.inl ⟨first + 1, Nat.le_refl _, ?_, ?_⟩
          · rw [walkBack, answer, Nat.sub_self]
            exact answer
          · intro later above atMost
            omega
      | none =>
          have onward : walkBack look exhausted (first + 1) passed =
              walkBack look exhausted first (passed + 1) := by
            rw [walkBack, answer]
          have shift : ∀ number, number ≤ first →
              passed + 1 + (first - number) = passed + (first + 1 - number) := by
            intro number atMost
            omega
          rw [onward]
          rcases ih (passed + 1) with ⟨number, answers⟩ | ⟨done, silent⟩
          · refine Or.inl ⟨number, Nat.le_succ_of_le answers.within, ?_, ?_⟩
            · rw [← shift number answers.within]
              exact answers.answered
            · intro later above atMost
              by_cases top : later = first + 1
              · rw [top, Nat.sub_self]
                exact answer
              · rw [← shift later (by omega)]
                exact answers.silent later above (by omega)
          · refine Or.inr ⟨done, fun number atMost => ?_⟩
            by_cases top : number = first + 1
            · rw [top, Nat.sub_self]
              exact answer
            · rw [← shift number (by omega)]
              exact silent number (by omega)

/-- The first number to answer, from the top, gives the walk's answer. -/
theorem walkBack_eq {look : Nat → Nat → Option β} {exhausted answer : β} {first passed number : Nat}
    (answers : AnswersAt look first passed answer number) :
    walkBack look exhausted first passed = answer := by
  rcases walkBack_cases look exhausted first passed with ⟨other, found⟩ | ⟨_done, silent⟩
  · rcases Nat.lt_trichotomy other number with below | same | above
    · have nothing := found.silent number below answers.within
      rw [answers.answered] at nothing
      cases nothing
    · subst same
      have agreed := found.answered
      rw [answers.answered] at agreed
      exact (Option.some.inj agreed).symm
    · have nothing := answers.silent other above found.within
      rw [found.answered] at nothing
      cases nothing
  · have nothing := silent number answers.within
    rw [answers.answered] at nothing
    cases nothing

end WalkBack
