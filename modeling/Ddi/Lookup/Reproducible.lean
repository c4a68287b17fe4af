/-
A lookup's snapshot is the same whenever it is asked for: later commits do not move it, and it is
found where the storage answers and the table stays.
-/

import Ddi.Lookup.PinningSemantics

namespace Ddi.Lookup

open Ddi.Delta Succession

variable {ρ : Type} {outside : Outside} {storage : Storage ρ} {lookup : ResolvedLookup}
  {timeline : Timeline (tableIds (ρ := ρ))} {asOf : DateTime} {moment since : Nat}

/-- From a moment on, nothing happens at the URI but commits. -/
def OnlyCommits (timeline : Timeline (tableIds (ρ := ρ))) (since : Nat) : Prop :=
  ∀ early late, since ≤ early → early ≤ late →
    (timeline.place early).Extends (timeline.place late) ∧
      (timeline.place late).first = (timeline.place early).first

/-- Commits at or after the source's millisecond leave the pin where it is. -/
theorem Pins.onward {sourceMillis : Int} {early late version : Nat} {used : Bool}
    (commits : OnlyCommits timeline since) (lands : LandsAfter timeline sourceMillis since)
    (started : since ≤ early) (order : early ≤ late)
    (pins : Pins (timeline.place early) lookup sourceMillis version used) :
    Pins (timeline.place late) lookup sourceMillis version used := by
  obtain ⟨same, uncleaned⟩ := commits early late started order
  exact pins.extends same uncleaned fun _other below => lands.below started order same below

theorem Pins.lt {place : Place (Commit ρ)} {sourceMillis : Int} {version : Nat} {used : Bool}
    (pins : Pins place lookup sourceMillis version used) : version < place.log.length := by
  cases pins with
  | newest _retained below _greatest => exact below.lt
  | baseline _configured within _nothing => exact within

/-- The storage answers for what is there. -/
structure Answers (storage : Storage ρ) (uri : String) (timeline : Timeline (tableIds (ρ := ρ))) :
    Prop where
  opens : ∀ moment, (timeline.place moment).log ≠ [] →
    ∃ table, storage.opened uri moment = .ok table
  travels : ∀ moment cutoff, (timeline.place moment).log ≠ [] →
    ∃ table, storage.openAtDatetime uri moment cutoff = .ok table
  times : ∀ moment version, (timeline.place moment).first ≤ version →
    version < (timeline.place moment).log.length →
    ∃ time, storage.lookupLogTimestamp uri moment version = .ok time

variable (outside) in
theorem advance_total (sourceMillis : Int) {left version : Nat}
    (timed : ∀ read passed, moment ≤ read → version < passed → passed ≤ version + left →
      ∃ time, storage.lookupLogTimestamp lookup.uri read passed = .ok time) :
    ∃ chosen load,
      advance outside storage lookup sourceMillis left version moment = (.ok chosen, load) := by
  induction left generalizing version moment with
  | zero => exact ⟨version, moment, rfl⟩
  | succ left ih =>
      obtain ⟨time, read⟩ := timed moment (version + 1) (Nat.le_refl _) (Nat.lt_succ_self _)
        (by omega)
      rw [advance, read]
      dsimp only
      by_cases after : sourceMillis ≤ time.timestampMillis
      · rw [if_pos after]
        exact ⟨version, moment + 1, rfl⟩
      · rw [if_neg after]
        apply ih
        intro later passed order above atMost
        exact timed later passed (by omega) (by omega) (by omega)

/-- Where only commits land, the version to load is found. -/
theorem Selecting.found {headTable selected : DeltaTable ρ} {head own version : Nat}
    {cutoff time : DateTime} {used : Bool}
    (selecting : Selecting outside storage lookup asOf moment headTable selected head own
      cutoff time) (serves : Serves storage lookup.uri timeline) (exact_ : outside.Exact)
    (regular : Regular timeline asOf.timestampMillis moment)
    (commits : OnlyCommits timeline moment) (answers : Answers storage lookup.uri timeline)
    (pins : Pins (timeline.place moment) lookup asOf.timestampMillis version used) :
    ∃ load, chooseVersion outside storage lookup asOf head own time.timestampMillis (moment + 3) =
      (.ok (version, used), load) := by
  have headLength := selecting.headLength serves
  have inside := pins.lt
  have same : ∀ read, moment ≤ read → (timeline.place moment).Extends (timeline.place read) :=
    fun read order => (commits moment read (Nat.le_refl _) order).1
  have pinsNext := pins.onward commits regular.lands (Nat.le_refl _) (Nat.le_succ moment)
  by_cases late : asOf.timestampMillis ≤ time.timestampMillis
  · cases pinsNext with
    | newest retained below _greatest =>
        exact absurd below (selecting.nothing serves exact_ regular (Nat.le_refl _) late
          (fun read order _ended => same read order) retained)
    | baseline configured _within _nothing =>
        refine ⟨moment + 3, ?_⟩
        unfold chooseVersion
        rw [if_pos late, configured]
        dsimp only
        rw [if_neg (by omega)]
  · obtain ⟨_insideOwn, retained, _stop⟩ := selecting.stops serves exact_
    have timed : ∀ read passed, moment + 3 ≤ read → own < passed →
        passed ≤ own + (head - own) →
        ∃ time, storage.lookupLogTimestamp lookup.uri read passed = .ok time := by
      intro read passed order above atMost
      have grown := (same read (by omega)).log.length_le
      apply answers.times
      · rw [(commits moment read (Nat.le_refl _) (by omega)).2,
          ← (commits moment (moment + 1) (Nat.le_refl _) (by omega)).2]
        omega
      · omega
    obtain ⟨chosen, load, walked⟩ := advance_total outside asOf.timestampMillis timed
    have chose : chooseVersion outside storage lookup asOf head own time.timestampMillis
        (moment + 3) = (.ok (chosen, false), load) := by
      unfold chooseVersion
      rw [if_neg late, walked]
    obtain ⟨_within, pinsChosen⟩ := selecting.pinsChosen serves exact_ regular (Nat.le_refl _) chose
      fun read order _ended => same read order
    obtain ⟨rfl, rfl⟩ := pinsNext.unique pinsChosen
    exact ⟨load, chose⟩

end Ddi.Lookup
