/-
What the walk over a target's log says of the whole history, the commit files that log retention
has removed included.
-/

import Ddi.Target

namespace Ddi

open Ddi.Delta
open WalkBack (AnswersAt)

variable {τ : Type}

/-- The newest commit that carries the application's `txn`, of all ever written. -/
def NewestOurs (log : DeltaLog τ) (appId : String) (ours : Nat) : Prop :=
  OursAt log.written appId ours ∧ ∀ later, ours < later → ¬ OursAt log.written appId later

/-- Where the walk cannot prove that nobody rewrote the target since our last commit, it says that
somebody did. -/
structure FailsTowardsDuplicates (log : DeltaLog τ) (appId : String) (maxScan : Nat) : Prop where
  leftAlone : targetState log appId maxScan = .oursOrUntouched →
    ∀ ours, NewestOurs log appId ours →
      ∀ later, ours < later → ¬ RewrittenAt log.written appId later
  exhausted : maxScan ≤ log.head →
    (∀ version, log.head < version + maxScan → version ≤ log.head → PassedOver log appId version) →
      ∃ version, targetState log appId maxScan = .overwrittenAt version
  missing : ∀ gone, gone ≤ log.head → log.readCommitEntry gone = none →
    (∀ later, gone < later → later ≤ log.head → PassedOver log appId later) →
      (∃ ours, OursAt log.written appId ours) →
        ∃ version, targetState log appId maxScan = .overwrittenAt version

/-- Retention has removed a commit file that the walk comes to before our newest commit. -/
def CutShort (log : DeltaLog τ) (appId : String) (maxScan : Nat) : Prop :=
  ∃ gone ours, gone ≤ log.head ∧ log.head - gone < maxScan ∧ log.readCommitEntry gone = none ∧
    (∀ later, gone < later → later ≤ log.head → PassedOver log appId later) ∧
    OursAt log.written appId ours

section Written

variable {log : DeltaLog τ} {appId : String} {version : Nat}

theorem OursAt.written (ours : OursAt log appId version) : OursAt log.written appId version := by
  obtain ⟨actions, found, carries⟩ := ours
  exact ⟨actions, DeltaLog.readCommitEntry_written found, carries⟩

theorem PassedOver.not_ours (passed : PassedOver log appId version) :
    ¬ OursAt log.written appId version := by
  obtain ⟨actions, found, foreign, _keeps⟩ := passed
  rintro ⟨other, found', carries⟩
  rw [DeltaLog.readCommitEntry_written found] at found'
  cases found'
  rw [foreign] at carries
  cases carries

theorem PassedOver.not_rewritten (passed : PassedOver log appId version) :
    ¬ RewrittenAt log.written appId version := by
  obtain ⟨actions, found, _foreign, keeps⟩ := passed
  rintro ⟨other, found', _foreign', rewrites⟩
  rw [DeltaLog.readCommitEntry_written found] at found'
  cases found'
  rw [keeps] at rewrites
  cases rewrites

theorem PassedOver.found (passed : PassedOver log appId version) :
    log.readCommitEntry version ≠ none := by
  obtain ⟨actions, found, _⟩ := passed
  rw [found]
  exact Option.some_ne_none actions

theorem OursAt.within (ours : OursAt log.written appId version) : version ≤ log.head := by
  obtain ⟨actions, found, _carries⟩ := ours
  have within : version < log.written.commits.length := DeltaLog.readCommitEntry_lt found
  change version < log.commits.length at within
  unfold DeltaLog.head
  omega

theorem RewrittenAt.within (rewritten : RewrittenAt log.written appId version) :
    version ≤ log.head := by
  obtain ⟨actions, found, _⟩ := rewritten
  have within : version < log.written.commits.length := DeltaLog.readCommitEntry_lt found
  change version < log.commits.length at within
  unfold DeltaLog.head
  omega

theorem targetStateLook_passed {maxScan scanned : Nat} (near : scanned < maxScan)
    (passed : PassedOver log appId version) :
    targetStateLook log appId maxScan version scanned = none := by
  obtain ⟨actions, found, foreign, keeps⟩ := passed
  unfold targetStateLook
  rw [if_neg (Nat.not_le_of_lt near), found]
  simp only [foreign, keeps, Bool.false_eq_true, if_false]

end Written

theorem targetState_of_gone {log : DeltaLog τ} {appId : String} {maxScan gone : Nat}
    (within : gone ≤ log.head) (near : log.head - gone < maxScan)
    (missing : log.readCommitEntry gone = none)
    (passed : ∀ later, gone < later → later ≤ log.head → PassedOver log appId later) :
    targetState log appId maxScan = .oursOrUntouched := by
  have answers : AnswersAt (targetStateLook log appId maxScan) log.head 0 .oursOrUntouched gone := by
    constructor
    · exact within
    · unfold targetStateLook
      rw [Nat.zero_add, if_neg (Nat.not_le_of_lt near), missing]
    · intro later above atMost
      rw [Nat.zero_add]
      apply targetStateLook_passed _ (passed later above atMost)
      omega
  exact WalkBack.walkBack_eq answers

/-- A walk that runs out of its budget takes the target for overwritten. -/
theorem targetState_of_exhausted {log : DeltaLog τ} {appId : String} {maxScan : Nat}
    (long : maxScan ≤ log.head)
    (passed : ∀ version, log.head < version + maxScan → version ≤ log.head →
      PassedOver log appId version) :
    targetState log appId maxScan = .overwrittenAt (log.head - maxScan) := by
  have answers : AnswersAt (targetStateLook log appId maxScan) log.head 0
      (.overwrittenAt (log.head - maxScan)) (log.head - maxScan) := by
    constructor
    · exact Nat.sub_le _ _
    · unfold targetStateLook
      rw [if_pos (by omega)]
    · intro later above atMost
      rw [Nat.zero_add]
      apply targetStateLook_passed _ (passed later (by omega) atMost)
      omega
  exact WalkBack.walkBack_eq answers

/-- The walk fails towards duplicates unless retention has cut it short. -/
theorem targetState_fails_towards_duplicates (log : DeltaLog τ) (appId : String) (maxScan : Nat) :
    FailsTowardsDuplicates log appId maxScan ↔ ¬ CutShort log appId maxScan := by
  constructor
  · rintro safe ⟨gone, ours, within, near, missing, passed, committed⟩
    obtain ⟨version, overwritten⟩ := safe.missing gone within missing passed ⟨ours, committed⟩
    rw [targetState_of_gone within near missing passed] at overwritten
    cases overwritten
  · intro whole
    constructor
    · intro state ours newest later above rewritten
      rcases targetState_oursOrUntouched state with ⟨version, within, near, why, passed⟩ | passed
      · rcases why with missing | found
        · exact whole ⟨version, ours, within, near, missing, passed, newest.1⟩
        · have not_later : version ≤ ours := by
            apply Nat.le_of_not_lt
            intro after
            exact newest.2 version after found.written
          exact (passed later (by omega) rewritten.within).not_rewritten rewritten
      · exact (passed ours newest.1.within).not_ours newest.1
    · intro long passed
      exact ⟨_, targetState_of_exhausted long passed⟩
    · rintro gone within missing passed ⟨ours, committed⟩
      cases state : targetState log appId maxScan with
      | overwrittenAt version => exact ⟨version, rfl⟩
      | oursOrUntouched =>
          exfalso
          rcases targetState_oursOrUntouched state with ⟨version, near_head, near, why, later_passed⟩ |
            all_passed
          · rcases why with missing' | found
            · exact whole ⟨version, ours, near_head, near, missing', later_passed, committed⟩
            · rcases Nat.lt_trichotomy gone version with before | same | after
              · exact (passed version before near_head).not_ours found.written
              · obtain ⟨actions, read, _carries⟩ := found
                rw [← same, missing] at read
                cases read
              · exact (later_passed gone after within).found missing
          · exact (all_passed gone within).found missing

/-- A commit of ours, a rewrite of another's and an append of a third, of which the first two are
gone from the log. -/
def retained : DeltaLog Nat :=
  { commits :=
      [{ actions := [.add { path := "ours", rows := [1, 2] }, .txn "ddi" 7] },
        { actions := [.remove { path := "ours" }, .add { path := "rebuilt", rows := [1] }] },
        { actions := [.add { path := "appended", rows := [3] }] }]
    reclaimed := fun version => decide (version < 2) }

/-- A target rebuilt since our last commit that is taken for untouched. -/
theorem retained_not_safe : ¬ FailsTowardsDuplicates retained "ddi" defaultMaxScan := by
  intro safe
  have passed : ∀ later, 1 < later → later ≤ retained.head → PassedOver retained "ddi" later := by
    intro later above atMost
    have head : retained.head = 2 := rfl
    have last : later = 2 := by omega
    subst last
    exact ⟨_, rfl, rfl, rfl⟩
  obtain ⟨version, overwritten⟩ :=
    safe.missing 1 (by decide) rfl passed ⟨0, _, rfl, by decide⟩
  have state : targetState retained "ddi" defaultMaxScan = .oursOrUntouched :=
    targetState_of_gone (by decide) (by decide) rfl passed
  rw [state] at overwritten
  cases overwritten

end Ddi
