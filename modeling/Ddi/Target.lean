/-
What the target's own log says: who wrote it last, and what this pipeline's
last commit recorded about itself.
-/

import Ddi.Cutoff
import Ddi.Error
import Ddi.Lib.WalkBack

namespace Ddi

open Ddi.Delta
open WalkBack (AnswersAt)

variable {τ : Type}

inductive TargetState
  | oursOrUntouched
  /-- Someone else rewrote the data after this pipeline's last append. -/
  | overwrittenAt (version : Nat)
  deriving DecidableEq

/-- How far back the target log is walked before giving up. -/
def defaultMaxScan : Nat := 10000

/-- Whether a commit carries the application's `txn` action. -/
def carriesTxn (appId : String) (actions : List (Action τ)) : Bool :=
  actions.any fun action =>
    match action with
    | .txn app _ => app == appId
    | _ => false

/-- Whether a commit removed data. -/
def rewritesData (actions : List (Action τ)) : Bool :=
  actions.any fun action =>
    match action with
    | .remove file => file.dataChange
    | _ => false

/-- What one commit of the walk settles. Ours comes before the removal test: an upsert of
ours removes files too. -/
def targetStateLook (log : DeltaLog τ) (appId : String) (maxScan version scanned : Nat) :
    Option TargetState :=
  if maxScan ≤ scanned then some (.overwrittenAt version)
  else
    match log.readCommitEntry version with
    | none => some .oursOrUntouched
    | some actions =>
      if carriesTxn appId actions then some .oursOrUntouched
      else if rewritesData actions then some (.overwrittenAt version)
      else none

/-- Walks the target's log backwards to see whether it was rewritten since this
pipeline's last append. -/
def targetState (log : DeltaLog τ) (appId : String) (maxScan : Nat) : TargetState :=
  WalkBack.walkBack (targetStateLook log appId maxScan) .oursOrUntouched log.head 0

/-- What this pipeline's last commit to the target recorded about itself. -/
structure OurLastCommit where
  commitVersion : Option Nat
  sourceTableId : Option String
  sourceTableIdVersion : Option Nat
  cutoff : Option RecordedCutoff

def OurLastCommit.default : OurLastCommit :=
  { commitVersion := none, sourceTableId := none, sourceTableIdVersion := none, cutoff := none }

def sourceTableIdKey : String := "ddi.sourceTableId"

def sourceTableIdVersionKey : String := "ddi.sourceTableIdVersion"

/-- The first value recorded under a key in the commit's `commitInfo` actions. -/
def commitInfoValue (actions : List (Action τ)) (key : String) : Option Json :=
  actions.findSome? fun action =>
    match action with
    | .commitInfo info => info.lookup key
    | _ => none

def recordedCutoff (actions : List (Action τ)) : Option RecordedCutoff :=
  actions.findSome? fun action =>
    match action with
    | .commitInfo info => RecordedCutoff.fromCommitInfo info
    | _ => none

def describeOurs (version : Nat) (actions : List (Action τ)) : OurLastCommit where
  commitVersion := some version
  sourceTableId := (commitInfoValue actions sourceTableIdKey).bind Json.asStr
  sourceTableIdVersion := (commitInfoValue actions sourceTableIdVersionKey).bind Json.asU64
  cutoff := recordedCutoff actions

def ourLastCommitLook (log : DeltaLog τ) (appId : String) (maxScan version scanned : Nat) :
    Option OurLastCommit :=
  if maxScan ≤ scanned then some .default
  else
    match log.readCommitEntry version with
    | none => some .default
    | some actions =>
      if carriesTxn appId actions then some (describeOurs version actions) else none

/-- Walks the target log backwards for the most recent commit that carries this
pipeline's `txn` action. -/
def ourLastCommit (log : DeltaLog τ) (appId : String) (maxScan : Nat) : OurLastCommit :=
  WalkBack.walkBack (ourLastCommitLook log appId maxScan) .default log.head 0

/-- A commit the walks pass over: there, not ours and removing no data. -/
def PassedOver (log : DeltaLog τ) (appId : String) (version : Nat) : Prop :=
  ∃ actions, log.readCommitEntry version = some actions ∧ carriesTxn appId actions = false ∧
    rewritesData actions = false

/-- A commit that carries the application's `txn` action. -/
def OursAt (log : DeltaLog τ) (appId : String) (version : Nat) : Prop :=
  ∃ actions, log.readCommitEntry version = some actions ∧ carriesTxn appId actions = true

/-- A commit of someone else's that removes data. -/
def RewrittenAt (log : DeltaLog τ) (appId : String) (version : Nat) : Prop :=
  ∃ actions, log.readCommitEntry version = some actions ∧ carriesTxn appId actions = false ∧
    rewritesData actions = true

private theorem targetStateLook_none {log : DeltaLog τ} {appId : String}
    {maxScan version scanned : Nat}
    (silent : targetStateLook log appId maxScan version scanned = none) :
    scanned < maxScan ∧ PassedOver log appId version := by
  unfold targetStateLook at silent
  split at silent
  · cases silent
  · rename_i within
    cases read : log.readCommitEntry version with
    | none =>
        rw [read] at silent
        cases silent
    | some actions =>
        rw [read] at silent
        cases ours : carriesTxn appId actions with
        | true =>
            simp only [ours, if_true] at silent
            cases silent
        | false =>
            cases removes : rewritesData actions with
            | true =>
                simp only [ours, removes, Bool.false_eq_true, if_false, if_true] at silent
                cases silent
            | false => exact ⟨by omega, actions, read, ours, removes⟩

private theorem targetStateLook_some {log : DeltaLog τ} {appId : String}
    {maxScan version scanned : Nat} {state : TargetState}
    (answered : targetStateLook log appId maxScan version scanned = some state) :
    (state = .overwrittenAt version ∧ (maxScan ≤ scanned ∨ RewrittenAt log appId version)) ∨
      (state = .oursOrUntouched ∧ scanned < maxScan ∧
        (log.readCommitEntry version = none ∨ OursAt log appId version)) := by
  unfold targetStateLook at answered
  split at answered
  · rename_i beyond
    cases answered
    exact Or.inl ⟨rfl, Or.inl beyond⟩
  · rename_i within
    cases read : log.readCommitEntry version with
    | none =>
        rw [read] at answered
        cases answered
        exact Or.inr ⟨rfl, by omega, Or.inl rfl⟩
    | some actions =>
        rw [read] at answered
        cases ours : carriesTxn appId actions with
        | true =>
            simp only [ours, if_true] at answered
            cases answered
            exact Or.inr ⟨rfl, by omega, Or.inr ⟨actions, read, ours⟩⟩
        | false =>
            cases removes : rewritesData actions with
            | true =>
                simp only [ours, removes, Bool.false_eq_true, if_false, if_true] at answered
                cases answered
                exact Or.inl ⟨rfl, Or.inr ⟨actions, read, ours, removes⟩⟩
            | false =>
                simp only [ours, removes, Bool.false_eq_true, if_false] at answered
                cases answered

/-- A target is taken for overwritten at the newest commit not passed over: one that removes
data, or one further back than the walk reaches. -/
theorem targetState_overwrittenAt {log : DeltaLog τ} {appId : String} {maxScan version : Nat}
    (state : targetState log appId maxScan = .overwrittenAt version) :
    version ≤ log.head ∧ (maxScan ≤ log.head - version ∨ RewrittenAt log appId version) ∧
      ∀ later, version < later → later ≤ log.head → PassedOver log appId later := by
  rcases WalkBack.walkBack_cases (targetStateLook log appId maxScan) .oursOrUntouched log.head 0
    with ⟨number, answers⟩ | ⟨exhausted, _silent⟩
  · change AnswersAt _ _ _ (targetState log appId maxScan) number at answers
    have answered := answers.answered
    rw [state, Nat.zero_add] at answered
    rcases targetStateLook_some answered with ⟨same, why⟩ | ⟨impossible, _why⟩
    · cases same
      refine ⟨answers.within, why, fun later above atMost => ?_⟩
      exact (targetStateLook_none (answers.silent later above atMost)).2
    · cases impossible
  · change targetState log appId maxScan = _ at exhausted
    rw [state] at exhausted
    cases exhausted

/-- A target is left alone when the newest commit not passed over is ours or gone, or there
is none. -/
theorem targetState_oursOrUntouched {log : DeltaLog τ} {appId : String} {maxScan : Nat}
    (state : targetState log appId maxScan = .oursOrUntouched) :
    (∃ version, version ≤ log.head ∧ log.head - version < maxScan ∧
      (log.readCommitEntry version = none ∨ OursAt log appId version) ∧
      ∀ later, version < later → later ≤ log.head → PassedOver log appId later) ∨
      ∀ version, version ≤ log.head → PassedOver log appId version := by
  rcases WalkBack.walkBack_cases (targetStateLook log appId maxScan) .oursOrUntouched log.head 0
    with ⟨number, answers⟩ | ⟨_exhausted, silent⟩
  · change AnswersAt _ _ _ (targetState log appId maxScan) number at answers
    have answered := answers.answered
    rw [state, Nat.zero_add] at answered
    rcases targetStateLook_some answered with ⟨impossible, _why⟩ | ⟨_same, near, why⟩
    · cases impossible
    · refine Or.inl ⟨number, answers.within, near, why, fun later above atMost => ?_⟩
      exact (targetStateLook_none (answers.silent later above atMost)).2
  · exact Or.inr fun version atMost => (targetStateLook_none (silent version atMost)).2

private theorem ourLastCommitLook_none {log : DeltaLog τ} {appId : String}
    {maxScan version scanned : Nat}
    (silent : ourLastCommitLook log appId maxScan version scanned = none) :
    ∃ actions, log.readCommitEntry version = some actions ∧ carriesTxn appId actions = false := by
  unfold ourLastCommitLook at silent
  split at silent
  · cases silent
  · cases read : log.readCommitEntry version with
    | none =>
        rw [read] at silent
        cases silent
    | some actions =>
        rw [read] at silent
        simp only at silent
        split at silent
        · cases silent
        · rename_i foreign
          exact ⟨actions, rfl, Bool.eq_false_iff.mpr foreign⟩

/-- The walk for our last commit either says nothing or describes the newest commit of ours,
with nothing of ours after it. -/
theorem ourLastCommit_cases (log : DeltaLog τ) (appId : String) (maxScan : Nat) :
    ourLastCommit log appId maxScan = .default ∨
      ∃ version actions, version ≤ log.head ∧ log.readCommitEntry version = some actions ∧
        carriesTxn appId actions = true ∧
        ourLastCommit log appId maxScan = describeOurs version actions ∧
        ∀ later, version < later → later ≤ log.head → ∃ actions,
          log.readCommitEntry later = some actions ∧ carriesTxn appId actions = false := by
  rcases WalkBack.walkBack_cases (ourLastCommitLook log appId maxScan) .default log.head 0
    with ⟨number, answers⟩ | ⟨exhausted, _silent⟩
  · change AnswersAt _ _ _ (ourLastCommit log appId maxScan) number at answers
    have answered := answers.answered
    rw [Nat.zero_add] at answered
    unfold ourLastCommitLook at answered
    split at answered
    · exact Or.inl (Option.some.inj answered).symm
    · cases read : log.readCommitEntry number with
      | none =>
          rw [read] at answered
          exact Or.inl (Option.some.inj answered).symm
      | some actions =>
          rw [read] at answered
          simp only at answered
          split at answered
          · rename_i ours
            refine Or.inr ⟨number, actions, answers.within, read, ours,
              (Option.some.inj answered).symm, fun later above atMost => ?_⟩
            exact ourLastCommitLook_none (answers.silent later above atMost)
          · cases answered
  · exact Or.inl exhausted

/-- The newest commit of ours that is near enough is the one described. -/
theorem ourLastCommit_eq {log : DeltaLog τ} {appId : String} {maxScan version : Nat}
    {actions : List (Action τ)} (found : log.readCommitEntry version = some actions)
    (ours : carriesTxn appId actions = true) (near : log.head - version < maxScan)
    (newest : ∀ later, version < later → later ≤ log.head → PassedOver log appId later) :
    ourLastCommit log appId maxScan = describeOurs version actions := by
  have within := DeltaLog.readCommitEntry_lt found
  have answers : AnswersAt (ourLastCommitLook log appId maxScan) log.head 0
      (describeOurs version actions) version := by
    constructor
    · unfold DeltaLog.head
      omega
    · unfold ourLastCommitLook
      rw [Nat.zero_add, if_neg (Nat.not_le_of_lt near), found]
      simp only [ours, if_true]
    · intro later above atMost
      obtain ⟨other, read, foreign, _keeps⟩ := newest later above atMost
      unfold ourLastCommitLook
      rw [Nat.zero_add, if_neg (by omega), read]
      simp only [foreign, Bool.false_eq_true, if_false]
  exact WalkBack.walkBack_eq answers

/-- The files live at the head: added and not removed since. -/
def applyFileActions (live : List (AddFile τ)) (actions : List (Action τ)) : List (AddFile τ) :=
  (live.filter fun file => !actions.any fun action =>
      match action with
      | .remove gone => gone.path == file.path
      | _ => false) ++
    actions.filterMap fun action =>
      match action with
      | .add file => some file
      | _ => none

def liveFiles (commits : List (Commit τ)) : List (AddFile τ) :=
  commits.foldl (fun live commit => applyFileActions live commit.actions) []

/-- The rows a reader of the table sees. -/
def tableRows (log : DeltaLog τ) : List τ := (liveFiles log.commits).flatMap AddFile.rows

end Ddi
