/-
What a lookup's snapshot is under any run of commits, clean-ups and replacements between the reads
that select it: the pinned version, beside a head of the table that the selection was made
against, or the head alone where its policy asks for that and history is gone.
-/

import Ddi.Lookup.Moments

namespace Ddi.Lookup

open Ddi.Delta Succession

variable {ρ : Type} {outside : Outside} {storage : Storage ρ} {lookup : ResolvedLookup}

/-! ### What each step reads -/

/-- The walk stops before a version that is not before the source, or at the last. -/
theorem advance_ok {sourceMillis : Int} {left version moment chosen load : Nat}
    (ran : advance outside storage lookup sourceMillis left version moment = (.ok chosen, load)) :
    moment ≤ load ∧ version ≤ chosen ∧ chosen ≤ version + left ∧
      (∀ passed, version < passed → passed ≤ chosen → ∃ read time, moment ≤ read ∧ read < load ∧
        storage.lookupLogTimestamp lookup.uri read passed = .ok time ∧
        time.timestampMillis < sourceMillis) ∧
      (chosen < version + left → ∃ read time, moment ≤ read ∧ read < load ∧
        storage.lookupLogTimestamp lookup.uri read (chosen + 1) = .ok time ∧
        sourceMillis ≤ time.timestampMillis) := by
  induction left generalizing version moment with
  | zero =>
      cases ran
      refine ⟨Nat.le_refl _, Nat.le_refl _, Nat.le_refl _, ?_, ?_⟩
      · intro passed above atMost
        omega
      · intro short
        omega
  | succ left ih =>
      rw [advance] at ran
      cases read : storage.lookupLogTimestamp lookup.uri moment (version + 1) with
      | error error =>
          rw [read] at ran
          cases ran
      | ok time =>
          rw [read] at ran
          dsimp only at ran
          by_cases after : sourceMillis ≤ time.timestampMillis
          · rw [if_pos after] at ran
            cases ran
            refine ⟨Nat.le_succ _, Nat.le_refl _, Nat.le_add_right _ _, ?_, ?_⟩
            · intro passed above atMost
              omega
            · intro _short
              exact ⟨moment, time, Nat.le_refl _, Nat.lt_succ_self _, read, after⟩
          · rw [if_neg after] at ran
            obtain ⟨onward, from_, within, passing, stopping⟩ := ih ran
            refine ⟨by omega, by omega, by omega, ?_, ?_⟩
            · intro passed above atMost
              rcases Nat.lt_or_eq_of_le above with later | next
              · obtain ⟨at_, own, started, ended, found, before⟩ := passing passed later atMost
                exact ⟨at_, own, by omega, ended, found, before⟩
              · subst next
                exact ⟨moment, time, Nat.le_refl _, by omega, read, by omega⟩
            · intro short
              obtain ⟨at_, own, started, ended, found, late⟩ := stopping (by omega)
              exact ⟨at_, own, by omega, ended, found, late⟩

/-- The walk finds history gone where an entry it comes to is not there. -/
theorem advance_gone {sourceMillis : Int} {left version moment later : Nat} {reason : String}
    (ran : advance outside storage lookup sourceMillis left version moment =
      (.error (.historyUnavailable reason), later)) :
    ∃ read passed text, moment ≤ read ∧ read < later ∧ passed ≤ version + left ∧
      storage.lookupLogTimestamp lookup.uri read passed = .error (.notFound text) := by
  induction left generalizing version moment with
  | zero => cases ran
  | succ left ih =>
      rw [advance] at ran
      cases read : storage.lookupLogTimestamp lookup.uri moment (version + 1) with
      | error error =>
          rw [read] at ran
          cases error with
          | notFound text =>
              cases ran
              exact ⟨moment, version + 1, text, Nat.le_refl _, Nat.lt_succ_self _, by omega, read⟩
          | other text => cases ran
      | ok time =>
          rw [read] at ran
          dsimp only at ran
          by_cases after : sourceMillis ≤ time.timestampMillis
          · rw [if_pos after] at ran
            cases ran
          · rw [if_neg after] at ran
            obtain ⟨at_, passed, text, started, ended, within, missing⟩ := ih ran
            exact ⟨at_, passed, text, by omega, ended, by omega, missing⟩

/-- A version is chosen as the baseline, or by the walk. -/
theorem chooseVersion_ok {asOf : DateTime} {head selected : Nat} {selectedMillis : Int}
    {moment chosen load : Nat} {usedPreHistory : Bool}
    (ran : chooseVersion outside storage lookup asOf head selected selectedMillis moment =
      (.ok (chosen, usedPreHistory), load)) :
    (usedPreHistory = true ∧ asOf.timestampMillis ≤ selectedMillis ∧
      lookup.preHistoryVersion = some chosen ∧ chosen ≤ head ∧ load = moment) ∨
    (usedPreHistory = false ∧ selectedMillis < asOf.timestampMillis ∧
      advance outside storage lookup asOf.timestampMillis (head - selected) selected moment =
        (.ok chosen, load)) := by
  unfold chooseVersion at ran
  by_cases late : asOf.timestampMillis ≤ selectedMillis
  · rw [if_pos late] at ran
    left
    cases configured : lookup.preHistoryVersion with
    | none =>
        rw [configured] at ran
        dsimp only at ran
        split at ran <;> cases ran
    | some baseline =>
        rw [configured] at ran
        dsimp only at ran
        by_cases past : head < baseline
        · rw [if_pos past] at ran
          cases ran
        · rw [if_neg past] at ran
          cases ran
          exact ⟨rfl, late, rfl, Nat.le_of_not_lt past, rfl⟩
  · rw [if_neg late] at ran
    right
    cases walked : advance outside storage lookup asOf.timestampMillis (head - selected) selected
        moment with
    | mk result after =>
        rw [walked] at ran
        cases result with
        | error error => cases ran
        | ok version =>
            cases ran
            exact ⟨rfl, by omega, rfl⟩

theorem chooseVersion_later {asOf : DateTime} {head selected : Nat} {selectedMillis : Int}
    {moment load : Nat} {choice : Nat × Bool}
    (ran : chooseVersion outside storage lookup asOf head selected selectedMillis moment =
      (.ok choice, load)) : moment ≤ load := by
  rcases chooseVersion_ok ran with ⟨_used, _late, _configured, _within, same⟩ |
    ⟨_used, _before, walked⟩
  · exact Nat.le_of_eq same.symm
  · exact (advance_ok walked).1

theorem chooseVersion_gone {asOf : DateTime} {head selected : Nat} {selectedMillis : Int}
    {moment later : Nat} {reason : String}
    (ran : chooseVersion outside storage lookup asOf head selected selectedMillis moment =
      (.error (.historyUnavailable reason), later)) :
    (asOf.timestampMillis ≤ selectedMillis ∧ 0 < selected ∧ later = moment) ∨
    advance outside storage lookup asOf.timestampMillis (head - selected) selected moment =
      (.error (.historyUnavailable reason), later) := by
  unfold chooseVersion at ran
  by_cases late : asOf.timestampMillis ≤ selectedMillis
  · rw [if_pos late] at ran
    left
    cases configured : lookup.preHistoryVersion with
    | none =>
        rw [configured] at ran
        dsimp only at ran
        by_cases positive : 0 < selected
        · rw [if_pos positive] at ran
          cases ran
          exact ⟨late, positive, rfl⟩
        · rw [if_neg positive] at ran
          cases ran
    | some baseline =>
        rw [configured] at ran
        dsimp only at ran
        split at ran <;> cases ran
  · rw [if_neg late] at ran
    right
    cases walked : advance outside storage lookup asOf.timestampMillis (head - selected) selected
        moment with
    | mk result after =>
        rw [walked] at ran
        cases result with
        | error error =>
            cases ran
            rfl
        | ok version => cases ran

/-- The reads of one selection, up to the version to load. -/
structure Selecting (outside : Outside) (storage : Storage ρ) (lookup : ResolvedLookup)
    (asOf : DateTime) (moment : Nat) (headTable selected : DeltaTable ρ) (head version : Nat)
    (cutoff time : DateTime) : Prop where
  opened : storage.opened lookup.uri moment = .ok headTable
  headVersion : headTable.version = some head
  spelt : outside.fromTimestampMillis (max (asOf.timestampMillis - 1) (-(2 ^ 63))) = some cutoff
  travelled : storage.openAtDatetime lookup.uri (moment + 1) cutoff = .ok selected
  selectedVersion : selected.version = some version
  timed : storage.lookupLogTimestamp lookup.uri (moment + 2) version = .ok time

/-- How one selection ends, but for errors that are not of history. -/
inductive Once (outside : Outside) (storage : Storage ρ) (lookup : ResolvedLookup)
    (asOf : DateTime) (moment : Nat) :
    Except SnapshotSelectionError (LookupSnapshots ρ) × Nat → Prop
  | selected (headTable selected table : DeltaTable ρ) (head version chosen load : Nat)
      (cutoff time : DateTime) (usedPreHistory : Bool)
      (selecting : Selecting outside storage lookup asOf moment headTable selected head version
        cutoff time)
      (chose : chooseVersion outside storage lookup asOf head version time.timestampMillis
        (moment + 3) = (.ok (chosen, usedPreHistory), load))
      (loaded : storage.openAtVersion lookup.uri load chosen = .ok table) :
      Once outside storage lookup asOf moment
        (.ok {
          selected := ⟨lookup.name, chosen, tableId table, usedPreHistory, false, table⟩
          head := ⟨lookup.name, head, tableId headTable, false, false, headTable⟩ }, load + 1)
  | untravelled (headTable : DeltaTable ρ) (head : Nat) (cutoff : DateTime) (error : StorageError)
      (reason : String) (opened : storage.opened lookup.uri moment = .ok headTable)
      (version : headTable.version = some head)
      (travelled : storage.openAtDatetime lookup.uri (moment + 1) cutoff = .error error)
      (missing : missingHistoricalSnapshot error = true) :
      Once outside storage lookup asOf moment (.error (.historyUnavailable reason), moment + 2)
  | untimed (headTable selected : DeltaTable ρ) (head version : Nat) (cutoff : DateTime)
      (reason text : String) (opened : storage.opened lookup.uri moment = .ok headTable)
      (headVersion : headTable.version = some head)
      (travelled : storage.openAtDatetime lookup.uri (moment + 1) cutoff = .ok selected)
      (selectedVersion : selected.version = some version)
      (timed : storage.lookupLogTimestamp lookup.uri (moment + 2) version =
        .error (.notFound text)) :
      Once outside storage lookup asOf moment (.error (.historyUnavailable reason), moment + 3)
  | unchosen (headTable selected : DeltaTable ρ) (head version later : Nat)
      (cutoff time : DateTime) (reason : String)
      (selecting : Selecting outside storage lookup asOf moment headTable selected head version
        cutoff time)
      (chose : chooseVersion outside storage lookup asOf head version time.timestampMillis
        (moment + 3) = (.error (.historyUnavailable reason), later)) :
      Once outside storage lookup asOf moment (.error (.historyUnavailable reason), later)
  | unloaded (headTable selected : DeltaTable ρ) (head version chosen load : Nat)
      (cutoff time : DateTime) (usedPreHistory : Bool) (reason : String) (error : StorageError)
      (selecting : Selecting outside storage lookup asOf moment headTable selected head version
        cutoff time)
      (chose : chooseVersion outside storage lookup asOf head version time.timestampMillis
        (moment + 3) = (.ok (chosen, usedPreHistory), load))
      (loaded : storage.openAtVersion lookup.uri load chosen = .error error)
      (missing : missingHistoricalSnapshot error = true) :
      Once outside storage lookup asOf moment (.error (.historyUnavailable reason), load + 1)
  | failed (error : Error) (later : Nat) :
      Once outside storage lookup asOf moment (.error (.other error), later)

end Ddi.Lookup
