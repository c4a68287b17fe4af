/-
What the walk from the head down to a checkpoint leaves for the checkpoint to answer.
-/

import Ddi.Kafka.LookupLog
import Ddi.Kafka.LookupListing

namespace Ddi.Kafka.Lookup.View

open Walks (bind_ok_iff)

variable {view : View} {wanted : List String}

/-- The walk has been down to the checkpoint, or to the first commit without one. -/
structure Descended (view : View) (wanted : List String) (head : Nat) (found : Found)
    (checkpoint : Option Checkpoint) : Prop where
  within : Within wanted found
  holds : ∀ id state, found.lookup id = some state → view.FoundAt id head state
  whole : checkpoint = none → ∀ id, id ∈ wanted → found.lookup id = none →
    ∀ version, version ≤ head → view.Silent id version
  down : ∀ own, checkpoint = some own →
    own.version ≤ head ∧ (∃ listing, view.listing = .ok listing ∧
      CompleteSet listing own.version own.files) ∧
    ∀ id, id ∈ wanted → found.lookup id = none → ∀ version, own.version ≤ version →
      version ≤ head → view.Quiet true own.version id version

theorem locateCheckpoint_ok {head : Nat} {checkpoint : Checkpoint}
    (located : view.locateCheckpoint head = .ok (some checkpoint)) :
    checkpoint.version ≤ head ∧ ∃ listing, view.listing = .ok listing ∧
      CompleteSet listing checkpoint.version checkpoint.files := by
  unfold locateCheckpoint at located
  cases hinted : view.hint with
  | error why =>
      rw [hinted] at located
      cases located
  | ok hint =>
      cases listed : view.listing with
      | error why =>
          rw [hinted, listed] at located
          cases located
      | ok listing =>
          rw [hinted, listed] at located
          obtain ⟨below, set⟩ := newestCheckpoint_complete (Except.ok.inj located)
          exact ⟨below, listing, rfl, set⟩

theorem Passed.start (checkpointed : Bool) (bottom head : Nat) :
    Passed view wanted checkpointed bottom head (head + 1) [] where
  within := .empty
  holds := nofun
  quiet := fun _id _among _absent version above within => by omega

theorem walkHead_ok {head : Nat} {found : Found} {headRead : Bool}
    (walked : view.walkHead head wanted = .ok (found, headRead)) :
    (headRead = true ∧ ∀ checkpointed bottom, bottom ≤ head →
      Passed view wanted checkpointed bottom head head found) ∨
    headRead = false ∧ found = [] ∧ view.served head = .missing := by
  unfold walkHead at walked
  obtain ⟨read, commit, rest⟩ := bind_ok_iff.mp walked
  rcases readCommit_ok commit with ⟨file, rfl, served⟩ | ⟨rfl, served⟩
  · obtain ⟨after, recorded, rest⟩ := bind_ok_iff.mp rest
    cases rest
    left
    refine ⟨rfl, ?_⟩
    intro checkpointed bottom below
    exact (Passed.start checkpointed bottom head).record below le_rfl served recorded
  · cases rest
    exact Or.inr ⟨rfl, rfl, served⟩

/-- Whatever the walk has passed when it ends, it has descended to its bottom. -/
theorem Passed.descended {checkpoint : Option Checkpoint} {head low : Nat} {found : Found}
    {enough : Bool}
    (passed : Passed view wanted checkpoint.isSome (checkpoint.elim 0 (·.version)) head low found)
    (located : ∀ own, checkpoint = some own → own.version ≤ head ∧
      ∃ listing, view.listing = .ok listing ∧ CompleteSet listing own.version own.files)
    (all : enough = true → allFound wanted found = true)
    (bottom : enough = false → low = checkpoint.elim 0 (·.version)) :
    Descended view wanted head found (if enough then none else checkpoint) := by
  cases enough with
  | true =>
      refine ⟨passed.within, passed.holds, ?_, nofun⟩
      intro _none id among absent
      obtain ⟨state, held⟩ := passed.within.all (all rfl) among
      cases absent.symm.trans held
  | false =>
      refine ⟨passed.within, passed.holds, ?_, ?_⟩
      · intro none_there id among absent version within
        obtain rfl : checkpoint = none := none_there
        rcases passed.quiet id among absent version (bottom rfl ▸ Nat.zero_le _) within with
          silent | ⟨impossible, _⟩
        · exact silent
        · cases impossible
      · intro own there
        obtain rfl : checkpoint = some own := there
        obtain ⟨below, listed⟩ := located own rfl
        refine ⟨below, listed, ?_⟩
        intro id among absent version above within
        exact passed.quiet id among absent version (bottom rfl ▸ above) within

theorem walkDown_ok {head : Nat} {found : Found} {checkpoint : Option Checkpoint}
    (walked : view.walkDown head wanted = .ok (found, checkpoint)) :
    Descended view wanted head found checkpoint := by
  unfold walkDown at walked
  obtain ⟨⟨first, headRead⟩, at_head, rest⟩ := bind_ok_iff.mp walked
  have head_walked := walkHead_ok at_head
  by_cases all : (headRead && allFound wanted first) = true
  · simp only [if_pos all] at rest
    cases rest
    rw [Bool.and_eq_true] at all
    rcases head_walked with ⟨_read, passed⟩ | ⟨unread, _⟩
    · have passed_head : Passed view wanted (none : Option Checkpoint).isSome
          ((none : Option Checkpoint).elim 0 (·.version)) head head found :=
        passed false 0 (Nat.zero_le _)
      have ended := passed_head.descended nofun (fun _enough => all.2)
        (fun enough : true = false => nomatch enough)
      exact ended
    · rw [unread] at all
      cases all.1
  · simp only [if_neg all] at rest
    obtain ⟨located, at_checkpoint, rest⟩ := bind_ok_iff.mp rest
    have where_located : ∀ own, located = some own → own.version ≤ head ∧
        ∃ listing, view.listing = .ok listing ∧ CompleteSet listing own.version own.files := by
      intro own same
      rw [same] at at_checkpoint
      exact locateCheckpoint_ok at_checkpoint
    by_cases gone : (!headRead && located.map (·.version) != some head) = true
    · simp only [if_pos gone] at rest
      cases rest
    · simp only [if_neg gone] at rest
      obtain ⟨⟨last, enough⟩, commits, rest⟩ := bind_ok_iff.mp rest
      cases rest
      have below : located.elim 0 (·.version) ≤ head := by
        cases located with
        | none => exact Nat.zero_le _
        | some own => exact (where_located own rfl).1
      rcases head_walked with ⟨_read, passed⟩ | ⟨unread, nothing, missing⟩
      · have start := passed located.isSome _ below
        have counted : located.elim 0 (·.version) + (head - located.elim 0 (·.version)) = head := by
          omega
        rw [← counted] at start
        obtain ⟨low, _above, passed_all, all_found, at_bottom⟩ :=
          start.walkCommits (by omega) commits
        rw [counted] at passed_all
        exact passed_all.descended where_located all_found at_bottom
      · -- The checkpoint stands in for the head's own commit, which is gone.
        subst unread
        cases located with
        | none => simp at gone
        | some own =>
            have at_head : own.version = head := by simpa using gone
            subst at_head
            subst nothing
            have skipped : Passed view wanted true own.version own.version own.version [] :=
              (Passed.start true own.version own.version).skip missing
            have start : Passed view wanted true own.version own.version
                (own.version + (own.version - own.version)) [] := by
              rw [Nat.sub_self]
              exact skipped
            obtain ⟨low, _above, passed_all, all_found, at_bottom⟩ :=
              start.walkCommits (by omega) commits
            have passed_to : Passed view wanted (some own).isSome ((some own).elim 0 (·.version))
                own.version low last := passed_all
            exact passed_to.descended where_located all_found at_bottom

end Ddi.Kafka.Lookup.View
