/-
What is at a lookup's URI from moment to moment, and what the storage may answer of it.
-/

import Ddi.Lib.Succession
import Ddi.Lookup.Snapshots

namespace Ddi.Lookup

open Ddi.Delta Succession

variable {ρ : Type}

/-- The table ids that a commit gives. -/
def tableIds (commit : Commit ρ) : List (Option String) :=
  commit.actions.filterMap fun action =>
    match action with
    | .metaData metadata => some metadata.id
    | _ => none

theorem getLast?_tableIds (commit : Commit ρ) :
    (tableIds commit).getLast? = (DeltaLog.metadataOf commit.actions).map Metadata.id := by
  unfold tableIds DeltaLog.metadataOf
  rw [List.getLast?_filterMap, List.map_findSome?]
  congr 1
  funext action
  cases action <;> rfl

/-- The id of a table is the newest mark of its log. -/
theorem tableId_eq (commits : List (Commit ρ)) :
    tableId ⟨commits⟩ = ((commits.flatMap tableIds).getLast?).join := by
  unfold tableId
  rw [List.getLast?_flatMap]
  simp only [getLast?_tableIds]
  have renamed : (commits.reverse.findSome? fun commit =>
      (DeltaLog.metadataOf commit.actions).map Metadata.id) =
      (commits.reverse.findSome? fun commit =>
        DeltaLog.metadataOf commit.actions).map Metadata.id := by
    rw [List.map_findSome?]
    rfl
  rw [renamed]
  cases commits.reverse.findSome? fun commit => DeltaLog.metadataOf commit.actions <;> rfl

theorem mark_of_tableId {place : Place (Commit ρ)} {own : String}
    (identified : tableId ⟨place.log⟩ = some own) : place.mark tableIds = some (some own) := by
  rw [tableId_eq] at identified
  exact Option.join_eq_some_iff.mp identified

theorem version_eq_some {table : DeltaTable ρ} {version : Nat}
    (loaded : table.version = some version) : table.commits.length = version + 1 := by
  unfold DeltaTable.version at loaded
  cases commits : table.commits with
  | nil =>
      rw [commits] at loaded
      cases loaded
  | cons first later =>
      rw [commits] at loaded
      cases loaded
      rfl

/-- What the storage says of a table that is at its URI as a timeline has it. Time travel stops at
some version at or below the time asked, or at the oldest; what is not retained may be missing. -/
structure Serves (storage : Storage ρ) (uri : String) (timeline : Timeline (tableIds (ρ := ρ))) :
    Prop where
  opened : ∀ moment table, storage.opened uri moment = .ok table →
    table.commits = (timeline.place moment).log
  travelled : ∀ moment cutoff table, storage.openAtDatetime uri moment cutoff = .ok table →
    ∃ version commit, (timeline.place moment).log[version]? = some commit ∧
      table.commits = (timeline.place moment).log.take (version + 1) ∧
      (timeline.place moment).first ≤ version ∧
      ((commit.lastModified : Int) ≤ cutoff.timestampMillis ∨
        version = (timeline.place moment).first)
  travelMissing : ∀ moment cutoff error,
    storage.openAtDatetime uri moment cutoff = .error error →
    missingHistoricalSnapshot error = true →
    0 < (timeline.place moment).first ∨ (timeline.place moment).log = []
  timed : ∀ moment version time, storage.lookupLogTimestamp uri moment version = .ok time →
    ∃ commit, (timeline.place moment).log[version]? = some commit ∧
      (timeline.place moment).first ≤ version ∧ time.timestampMillis = commit.lastModified
  untimed : ∀ moment version text,
    storage.lookupLogTimestamp uri moment version = .error (.notFound text) →
    version < (timeline.place moment).first ∨ (timeline.place moment).log.length ≤ version
  loaded : ∀ moment version table, storage.openAtVersion uri moment version = .ok table →
    version < (timeline.place moment).log.length ∧
      table.commits = (timeline.place moment).log.take (version + 1)
  loadMissing : ∀ moment version error,
    storage.openAtVersion uri moment version = .error error →
    missingHistoricalSnapshot error = true →
    0 < (timeline.place moment).first ∨ (timeline.place moment).log.length ≤ version

/-- A version whose commit is before the source's millisecond. -/
def Below (place : Place (Commit ρ)) (sourceMillis : Int) (version : Nat) : Prop :=
  ∃ commit, place.log[version]? = some commit ∧ (commit.lastModified : Int) < sourceMillis

/-- Commit times do not go back. -/
def InOrder (place : Place (Commit ρ)) : Prop :=
  place.log.Pairwise fun earlier later => earlier.lastModified ≤ later.lastModified

/-- From a moment on, what is appended is at or after the source's millisecond. -/
def LandsAfter (timeline : Timeline (tableIds (ρ := ρ))) (sourceMillis : Int) (since : Nat) :
    Prop :=
  ∀ early late, since ≤ early → early ≤ late →
    (timeline.place early).log <+: (timeline.place late).log →
    ∀ version commit, (timeline.place early).log.length ≤ version →
      (timeline.place late).log[version]? = some commit → sourceMillis ≤ commit.lastModified

/-- A lookup table as Delta keeps one, over a time in which its writers' clock is the source's. -/
structure Regular (timeline : Timeline (tableIds (ρ := ρ))) (sourceMillis : Int) (since : Nat) :
    Prop where
  order : ∀ moment, InOrder (timeline.place moment)
  identified : ∀ moment, (timeline.place moment).log ≠ [] →
    ∃ own, tableId ⟨(timeline.place moment).log⟩ = some own
  lands : LandsAfter timeline sourceMillis since

/-- Some of the history that was there has left: entries removed, or the log replaced. -/
def Gone (timeline : Timeline (tableIds (ρ := ρ))) (moment later : Nat) : Prop :=
  ∃ early late, moment ≤ early ∧ early ≤ late ∧ late < later ∧
    (0 < (timeline.place late).first ∨
      ¬ (timeline.place early).log <+: (timeline.place late).log)

/-- The version to enrich from: the greatest before the source's millisecond, or the configured
baseline where none that is retained is before it. -/
inductive Pins (place : Place (Commit ρ)) (lookup : ResolvedLookup) (sourceMillis : Int) :
    Nat → Bool → Prop
  | newest (version : Nat) (retained : place.first ≤ version)
      (below : Below place sourceMillis version)
      (greatest : ∀ other, Below place sourceMillis other → other ≤ version) :
      Pins place lookup sourceMillis version false
  | baseline (version : Nat) (configured : lookup.preHistoryVersion = some version)
      (within : version < place.log.length)
      (nothing : ∀ other, place.first ≤ other → ¬ Below place sourceMillis other) :
      Pins place lookup sourceMillis version true

variable {place later : Place (Commit ρ)} {lookup : ResolvedLookup} {sourceMillis : Int}

theorem Below.lt {version : Nat} (below : Below place sourceMillis version) :
    version < place.log.length := by
  obtain ⟨commit, present, _early⟩ := below
  exact (List.getElem?_eq_some_iff.mp present).1

/-- In a log in order, what is at or before a commit in time is before it. -/
theorem Below.of_le (order : InOrder place) {version other : Nat}
    (below : Below place sourceMillis version) (le : other ≤ version) :
    Below place sourceMillis other := by
  rcases Nat.lt_or_eq_of_le le with before | same
  · obtain ⟨commit, present, early⟩ := below
    obtain ⟨within, at_⟩ := List.getElem?_eq_some_iff.mp present
    have inside : other < place.log.length := Nat.lt_trans before within
    refine ⟨place.log[other], List.getElem?_eq_getElem inside, ?_⟩
    have ordered := List.pairwise_iff_getElem.mp order other version inside within before
    rw [at_] at ordered
    omega
  · rw [same]
    exact below

theorem Below.extends {version : Nat} (same : place.Extends later)
    (below : Below place sourceMillis version) : Below later sourceMillis version := by
  obtain ⟨commit, present, early⟩ := below
  exact ⟨commit, same.get present, early⟩

/-- One version at most is pinned, one way. -/
theorem Pins.unique {version other : Nat} {used usedOther : Bool}
    (pins : Pins place lookup sourceMillis version used)
    (pinsOther : Pins place lookup sourceMillis other usedOther) :
    version = other ∧ used = usedOther := by
  cases pins with
  | newest retained below greatest =>
      cases pinsOther with
      | newest _retained belowOther greatestOther =>
          exact ⟨Nat.le_antisymm (greatestOther version below) (greatest other belowOther), rfl⟩
      | baseline _configured _within nothing => exact absurd below (nothing version retained)
  | baseline configured _within nothing =>
      cases pinsOther with
      | newest retained below _greatest => exact absurd below (nothing other retained)
      | baseline configuredOther _within _nothing =>
          rw [configured] at configuredOther
          exact ⟨Option.some.inj configuredOther, rfl⟩

/-- Commits at or after the source's millisecond leave the pinned version. -/
theorem Pins.extends {version : Nat} {used : Bool} (same : place.Extends later)
    (uncleaned : later.first = place.first)
    (after : ∀ other, Below later sourceMillis other → Below place sourceMillis other)
    (pins : Pins place lookup sourceMillis version used) :
    Pins later lookup sourceMillis version used := by
  cases pins with
  | newest retained below greatest =>
      apply Pins.newest
      · rw [uncleaned]
        exact retained
      · exact below.extends same
      · intro other belowLater
        exact greatest other (after other belowLater)
  | baseline configured within nothing =>
      apply Pins.baseline
      · exact configured
      · exact Nat.lt_of_lt_of_le within same.log.length_le
      · intro other retained belowLater
        rw [uncleaned] at retained
        exact nothing other retained (after other belowLater)

/-- What is below later was below before. -/
theorem LandsAfter.below {timeline : Timeline (tableIds (ρ := ρ))} {since early late : Nat}
    (lands : LandsAfter timeline sourceMillis since) (started : since ≤ early)
    (order : early ≤ late) (same : (timeline.place early).Extends (timeline.place late))
    {version : Nat} (below : Below (timeline.place late) sourceMillis version) :
    Below (timeline.place early) sourceMillis version := by
  obtain ⟨commit, present, before⟩ := below
  rcases Nat.lt_or_ge version (timeline.place early).log.length with inside | beyond
  · refine ⟨(timeline.place early).log[version], List.getElem?_eq_getElem inside, ?_⟩
    have kept := same.get (List.getElem?_eq_getElem inside)
    rw [present] at kept
    cases kept
    exact before
  · have after := lands early late started order same.log version commit beyond present
    omega

end Ddi.Lookup
