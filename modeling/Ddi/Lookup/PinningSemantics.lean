/-
The snapshot that is selected, over any run of what may happen at the lookup's URI: the pinned
version beside a head of the table that it was selected against, or the head alone.
-/

import Ddi.Lookup.Pinning

namespace Ddi.Lookup

open Ddi.Delta Succession

variable {ρ : Type} {outside : Outside} {storage : Storage ρ} {lookup : ResolvedLookup}
  {timeline : Timeline (tableIds (ρ := ρ))} {asOf : DateTime} {moment since : Nat}

/-- A time that is spelt from its milliseconds has them. -/
def Outside.Exact (outside : Outside) : Prop :=
  ∀ millis time, outside.fromTimestampMillis millis = some time → time.timestampMillis = millis

section Selecting

variable {headTable selected : DeltaTable ρ} {head version : Nat} {cutoff time : DateTime}

theorem Selecting.headLength (selecting : Selecting outside storage lookup asOf moment headTable
      selected head version cutoff time) (serves : Serves storage lookup.uri timeline) :
    (timeline.place moment).log.length = head + 1 := by
  rw [← serves.opened moment headTable selecting.opened]
  exact version_eq_some selecting.headVersion

/-- Time travel stops before the source's millisecond, or at the oldest version. -/
theorem Selecting.stops (selecting : Selecting outside storage lookup asOf moment headTable
      selected head version cutoff time) (serves : Serves storage lookup.uri timeline)
    (exact_ : outside.Exact) :
    version < (timeline.place (moment + 1)).log.length ∧
      (timeline.place (moment + 1)).first ≤ version ∧
      (Below (timeline.place (moment + 1)) asOf.timestampMillis version ∨
        version = (timeline.place (moment + 1)).first) := by
  obtain ⟨own, commit, present, commits, retained, stop⟩ :=
    serves.travelled _ _ _ selecting.travelled
  obtain ⟨inside, _at⟩ := List.getElem?_eq_some_iff.mp present
  have length := version_eq_some selecting.selectedVersion
  rw [commits, List.length_take_of_le inside] at length
  obtain rfl := Nat.succ.inj length
  refine ⟨inside, retained, ?_⟩
  rcases stop with before | oldest
  · left
    refine ⟨commit, present, ?_⟩
    have lower := asOf.within
    have spelt := exact_ _ _ selecting.spelt
    unfold DateTime.timestampMillis at spelt before ⊢
    omega
  · right
    exact oldest

end Selecting

/-- What is not there any more shows that history is gone. -/
theorem gone_of_missing {early late version later : Nat} (began : moment ≤ early)
    (order : early ≤ late) (ended : late < later)
    (held : version < (timeline.place early).log.length)
    (missing : version < (timeline.place late).first ∨
      (timeline.place late).log.length ≤ version) : Gone timeline moment later := by
  refine ⟨early, late, began, order, ended, ?_⟩
  rcases missing with cleaned | short
  · left
    omega
  · right
    intro same
    have grown := same.length_le
    omega

/-- Where a selection finds history unavailable, some of it is gone. -/
theorem Once.gone (serves : Serves storage lookup.uri timeline) (exact_ : outside.Exact)
    {reason : String} {later : Nat}
    (once : Once outside storage lookup asOf moment (.error (.historyUnavailable reason), later)) :
    Gone timeline moment later := by
  cases once with
  | untravelled headTable head cutoff error _ opened version travelled missing =>
      refine ⟨moment, moment + 1, Nat.le_refl _, Nat.le_succ _, Nat.lt_succ_self _, ?_⟩
      rcases serves.travelMissing _ _ _ travelled missing with cleaned | empty
      · exact Or.inl cleaned
      · right
        intro same
        have length := version_eq_some version
        have grown := same.length_le
        rw [serves.opened _ _ opened] at length
        rw [empty, List.length_nil] at grown
        omega
  | untimed headTable selected head version cutoff _ text opened headVersion travelled
      selectedVersion timed =>
      obtain ⟨own, commit, present, commits, _retained, _stop⟩ := serves.travelled _ _ _ travelled
      obtain ⟨inside, _at⟩ := List.getElem?_eq_some_iff.mp present
      have length := version_eq_some selectedVersion
      rw [commits, List.length_take_of_le inside] at length
      obtain rfl := Nat.succ.inj length
      exact gone_of_missing (by omega : moment ≤ moment + 1) (Nat.le_succ _)
        (Nat.lt_succ_self _) inside
        (serves.untimed _ _ _ timed)
  | unchosen headTable selected head version _ cutoff time _ selecting chose =>
      obtain ⟨inside, retained, stop⟩ := selecting.stops serves exact_
      have headLength := selecting.headLength serves
      rcases chooseVersion_gone chose with ⟨late, positive, rfl⟩ | walked
      · obtain ⟨commit, present, kept, same⟩ := serves.timed _ _ _ selecting.timed
        rcases stop with ⟨own, presentOwn, before⟩ | oldest
        · -- the commit whose time was read is not the one that time travel stopped at
          refine ⟨moment + 1, moment + 2, Nat.le_succ _, Nat.le_succ _, Nat.lt_succ_self _, ?_⟩
          right
          intro grown
          have still := Place.get_of_log grown presentOwn
          rw [present] at still
          cases still
          omega
        · refine ⟨moment + 1, moment + 1, Nat.le_succ _, Nat.le_refl _, by omega, ?_⟩
          left
          omega
      · obtain ⟨read, passed, text, started, ended, within, missing⟩ := advance_gone walked
        rcases Nat.lt_or_ge head version with past | before
        · refine gone_of_missing (by omega : moment ≤ moment + 1) (by omega) ended ?_
            (serves.untimed _ _ _ missing)
          omega
        · refine gone_of_missing (Nat.le_refl moment) (by omega) ended ?_
            (serves.untimed _ _ _ missing)
          omega
  | unloaded headTable selected head version chosen load cutoff time usedPreHistory _ error
      selecting chose loaded missing =>
      obtain ⟨inside, retained, stop⟩ := selecting.stops serves exact_
      have headLength := selecting.headLength serves
      have unheld := serves.loadMissing _ _ _ loaded missing
      have left_ : ∀ early, moment ≤ early → early ≤ load →
          chosen < (timeline.place early).log.length → Gone timeline moment (load + 1) := by
        intro early began order held
        rcases unheld with cleaned | short
        · exact ⟨early, load, began, order, Nat.lt_succ_self _, Or.inl cleaned⟩
        · exact gone_of_missing began order (Nat.lt_succ_self _) held (Or.inr short)
      rcases chooseVersion_ok chose with ⟨_used, _late, _configured, within, rfl⟩ |
        ⟨_used, _before, walked⟩
      · exact left_ moment (Nat.le_refl _) (by omega) (by omega)
      · obtain ⟨onward, from_, within, _passing, _stopping⟩ := advance_ok walked
        rcases Nat.lt_or_ge head version with past | before
        · exact left_ (moment + 1) (by omega) (by omega) (by omega)
        · exact left_ moment (Nat.le_refl _) (by omega) (by omega)

/-- While the log stays, what was read at any moment holds at the first. -/
theorem Regular.below (regular : Regular timeline asOf.timestampMillis since)
    (started : since ≤ moment) {read version : Nat} (order : moment ≤ read)
    (same : (timeline.place moment).Extends (timeline.place read))
    (below : Below (timeline.place read) asOf.timestampMillis version) :
    Below (timeline.place moment) asOf.timestampMillis version :=
  regular.lands.below started order same below

theorem Serves.below_of_timed (serves : Serves storage lookup.uri timeline) {read version : Nat}
    {time : DateTime} {sourceMillis : Int}
    (timed : storage.lookupLogTimestamp lookup.uri read version = .ok time)
    (before : time.timestampMillis < sourceMillis) :
    Below (timeline.place read) sourceMillis version := by
  obtain ⟨commit, present, _kept, same⟩ := serves.timed _ _ _ timed
  refine ⟨commit, present, ?_⟩
  rw [← same]
  exact before

theorem Serves.not_below_of_timed (serves : Serves storage lookup.uri timeline)
    {read version : Nat} {time : DateTime} {sourceMillis : Int}
    (timed : storage.lookupLogTimestamp lookup.uri read version = .ok time)
    (after : sourceMillis ≤ time.timestampMillis) :
    ¬ Below (timeline.place read) sourceMillis version := by
  obtain ⟨commit, present, _kept, same⟩ := serves.timed _ _ _ timed
  intro below
  obtain ⟨own, presentOwn, before⟩ := below
  rw [present] at presentOwn
  cases presentOwn
  omega

section Pinned

variable {headTable selected table : DeltaTable ρ} {head version chosen load : Nat}
  {cutoff time : DateTime} {usedPreHistory : Bool}

/-- The walk ends at the greatest version before the source. -/
theorem Selecting.walked (selecting : Selecting outside storage lookup asOf moment headTable
      selected head version cutoff time) (serves : Serves storage lookup.uri timeline)
    (exact_ : outside.Exact) (regular : Regular timeline asOf.timestampMillis since)
    (started : since ≤ moment) (before : time.timestampMillis < asOf.timestampMillis)
    (walked : advance outside storage lookup asOf.timestampMillis (head - version) version
      (moment + 3) = (.ok chosen, load))
    (same : ∀ read, moment ≤ read → read ≤ load →
      (timeline.place moment).Extends (timeline.place read)) :
    chosen ≤ head ∧
      Pins (timeline.place (moment + 1)) lookup asOf.timestampMillis chosen false := by
  obtain ⟨onward, from_, within, passing, stopping⟩ := advance_ok walked
  obtain ⟨inside, retained, stop⟩ := selecting.stops serves exact_
  have headLength := selecting.headLength serves
  have back : ∀ {read other}, moment ≤ read → read ≤ load →
      Below (timeline.place read) asOf.timestampMillis other →
      Below (timeline.place moment) asOf.timestampMillis other :=
    fun order ended below => regular.below started order (same _ order ended) below
  have first := back (by omega) (by omega) (serves.below_of_timed selecting.timed before)
  have firstLt := first.lt
  have least : Below (timeline.place moment) asOf.timestampMillis chosen := by
    rcases Nat.lt_or_eq_of_le from_ with passed | stayed
    · obtain ⟨read, own, began, ended, timed, early⟩ := passing chosen passed (Nat.le_refl _)
      exact back (by omega) (by omega) (serves.below_of_timed timed early)
    · rw [← stayed]
      exact first
  refine ⟨by omega, ?_⟩
  apply Pins.newest
  · omega
  · exact least.extends (same _ (by omega) (by omega))
  · intro other below
    have held := back (by omega) (by omega) below
    have heldLt := held.lt
    by_contra beyond
    obtain ⟨read, own, began, ended, timed, late⟩ := stopping (by omega)
    have next := held.of_le (regular.order moment) (by omega : chosen + 1 ≤ other)
    exact serves.not_below_of_timed timed late (next.extends (same _ (by omega) (by omega)))

/-- Where time travel comes to a version that is not before the source, nothing retained is. -/
theorem Selecting.nothing (selecting : Selecting outside storage lookup asOf moment headTable
      selected head version cutoff time) (serves : Serves storage lookup.uri timeline)
    (exact_ : outside.Exact) (regular : Regular timeline asOf.timestampMillis since)
    (started : since ≤ moment) (late : asOf.timestampMillis ≤ time.timestampMillis)
    (same : ∀ read, moment ≤ read → read ≤ moment + 3 →
      (timeline.place moment).Extends (timeline.place read)) {other : Nat}
    (kept : (timeline.place (moment + 1)).first ≤ other) :
    ¬ Below (timeline.place (moment + 1)) asOf.timestampMillis other := by
  obtain ⟨inside, retained, stop⟩ := selecting.stops serves exact_
  have notFirst : ¬ Below (timeline.place (moment + 1)) asOf.timestampMillis version := by
    intro below
    have held := regular.below started (by omega) (same _ (by omega) (by omega)) below
    exact serves.not_below_of_timed selecting.timed late
      (held.extends (same _ (by omega) (by omega)))
  intro below
  rcases stop with before | oldest
  · exact notFirst before
  · exact notFirst (below.of_le (regular.order _) (by omega))

/-- The configured baseline is taken where nothing that is retained is before the source. -/
theorem Selecting.preHistory (selecting : Selecting outside storage lookup asOf moment headTable
      selected head version cutoff time) (serves : Serves storage lookup.uri timeline)
    (exact_ : outside.Exact) (regular : Regular timeline asOf.timestampMillis since)
    (started : since ≤ moment) (late : asOf.timestampMillis ≤ time.timestampMillis)
    (configured : lookup.preHistoryVersion = some chosen) (within : chosen ≤ head)
    (same : ∀ read, moment ≤ read → read ≤ moment + 3 →
      (timeline.place moment).Extends (timeline.place read)) :
    Pins (timeline.place (moment + 1)) lookup asOf.timestampMillis chosen true := by
  have headLength := selecting.headLength serves
  have grown := (same (moment + 1) (by omega) (by omega)).log.length_le
  apply Pins.baseline
  · exact configured
  · omega
  · intro other kept
    exact selecting.nothing serves exact_ regular started late same kept

/-- While the log stays the same, the version chosen is the pinned one. -/
theorem Selecting.pinsChosen (selecting : Selecting outside storage lookup asOf moment headTable
      selected head version cutoff time) (serves : Serves storage lookup.uri timeline)
    (exact_ : outside.Exact) (regular : Regular timeline asOf.timestampMillis since)
    (started : since ≤ moment)
    (chose : chooseVersion outside storage lookup asOf head version time.timestampMillis
      (moment + 3) = (.ok (chosen, usedPreHistory), load))
    (same : ∀ read, moment ≤ read → read ≤ load →
      (timeline.place moment).Extends (timeline.place read)) :
    chosen ≤ head ∧
      Pins (timeline.place (moment + 1)) lookup asOf.timestampMillis chosen usedPreHistory := by
  rcases chooseVersion_ok chose with ⟨rfl, late, configured, within, ended⟩ |
    ⟨rfl, before, walked⟩
  · exact ⟨within, selecting.preHistory serves exact_ regular started late configured within
      fun read order last => same read order (by omega)⟩
  · exact selecting.walked serves exact_ regular started before walked same

/-- The table that is loaded then is that version of it. -/
theorem Selecting.pins (selecting : Selecting outside storage lookup asOf moment headTable
      selected head version cutoff time) (serves : Serves storage lookup.uri timeline)
    (exact_ : outside.Exact) (regular : Regular timeline asOf.timestampMillis since)
    (started : since ≤ moment)
    (chose : chooseVersion outside storage lookup asOf head version time.timestampMillis
      (moment + 3) = (.ok (chosen, usedPreHistory), load))
    (loaded : storage.openAtVersion lookup.uri load chosen = .ok table)
    (same : ∀ read, moment ≤ read → read ≤ load →
      (timeline.place moment).Extends (timeline.place read)) :
    Pins (timeline.place (moment + 1)) lookup asOf.timestampMillis chosen usedPreHistory ∧
      table.commits = (timeline.place (moment + 1)).log.take (chosen + 1) := by
  have headLength := selecting.headLength serves
  have began := chooseVersion_later chose
  obtain ⟨within, pins⟩ := selecting.pinsChosen serves exact_ regular started chose same
  obtain ⟨_inside, commits⟩ := serves.loaded _ _ _ loaded
  have among : chosen + 1 ≤ (timeline.place moment).log.length := by omega
  refine ⟨pins, ?_⟩
  rw [commits, (same load (by omega) (Nat.le_refl _)).take among,
    (same (moment + 1) (by omega) (by omega)).take among]

end Pinned

/-! ### What is returned -/

/-- A pinned snapshot, and a head of the table that it was selected against. -/
structure Resolved (timeline : Timeline (tableIds (ρ := ρ))) (lookup : ResolvedLookup)
    (sourceMillis : Int) (began ended : Nat) (result : LookupSnapshots ρ) : Prop where
  pins : Pins (timeline.place (began + 1)) lookup sourceMillis result.selected.version
    result.selected.usedPreHistory
  content : result.selected.table.commits =
    (timeline.place (began + 1)).log.take (result.selected.version + 1)
  selectedId : result.selected.tableId = tableId result.selected.table
  pinned : result.selected.usedCurrent = false
  head : result.head.table.commits = (timeline.place ended).log
  headId : result.head.tableId = tableId result.head.table
  /-- The head's id is that of the table the selection was made against, which was not replaced. -/
  against : result.head.tableId = tableId ⟨(timeline.place began).log⟩
  unreplaced : ∀ read, began ≤ read → read ≤ ended →
    (timeline.place began).Extends (timeline.place read)

/-- One load of the head, for both. -/
structure Current (timeline : Timeline (tableIds (ρ := ρ))) (read : Nat)
    (result : LookupSnapshots ρ) : Prop where
  content : result.selected.table.commits = (timeline.place read).log
  head : result.head.table = result.selected.table
  selectedId : result.selected.tableId = tableId result.selected.table
  headId : result.head.tableId = result.selected.tableId
  used : result.selected.usedCurrent = true

/-- What both snapshots of a result say of themselves. -/
structure Named (lookup : ResolvedLookup) (result : LookupSnapshots ρ) : Prop where
  selected : result.selected.name = lookup.name
  head : result.head.name = lookup.name
  version : result.head.table.version = some result.head.version
  preHistory : result.head.usedPreHistory = false
  current : result.head.usedCurrent = false

/-- How a call that returns snapshots came to them. -/
inductive Returned (timeline : Timeline (tableIds (ρ := ρ))) (lookup : ResolvedLookup)
    (sourceMillis : Int) (moment later : Nat) (result : LookupSnapshots ρ) : Prop
  | resolved (began ended : Nat) (started : moment ≤ began) (order : began + 1 < ended)
      (last : later = ended + 1)
      (resolved : Resolved timeline lookup sourceMillis began ended result) :
      Returned timeline lookup sourceMillis moment later result
  | current (read : Nat) (started : moment ≤ read) (last : later = read + 1)
      (policy : lookup.tableIdChangePolicy = .useCurrent) (gone : Gone timeline moment later)
      (current : Current timeline read result) :
      Returned timeline lookup sourceMillis moment later result

theorem Gone.of_later {earlier last later : Nat} (gone : Gone timeline earlier last)
    (started : moment ≤ earlier) (ended : last ≤ later) : Gone timeline moment later := by
  obtain ⟨early, late, began, order, before, left_⟩ := gone
  exact ⟨early, late, Nat.le_trans started began, order, Nat.lt_of_lt_of_le before ended, left_⟩

theorem Returned.earlier {sourceMillis : Int} {earlier later : Nat} {result : LookupSnapshots ρ}
    (order : earlier ≤ moment)
    (returned : Returned timeline lookup sourceMillis moment later result) :
    Returned timeline lookup sourceMillis earlier later result := by
  cases returned with
  | resolved began ended started within last resolved =>
      exact .resolved began ended (Nat.le_trans order started) within last resolved
  | current read started last policy gone current =>
      exact .current read (Nat.le_trans order started) last policy
        (gone.of_later order (Nat.le_refl _)) current

theorem Returned.lt {sourceMillis : Int} {later : Nat} {result : LookupSnapshots ρ}
    (returned : Returned timeline lookup sourceMillis moment later result) : moment < later := by
  cases returned with
  | resolved began ended started within last _resolved => omega
  | current read started last _policy _gone _current => omega

/-- Under one table id at both ends the log was never replaced, so that the selection stands. -/
theorem Selecting.resolved {headTable selected table verified : DeltaTable ρ}
    {head version chosen load own : Nat} {cutoff time : DateTime} {usedPreHistory : Bool}
    (selecting : Selecting outside storage lookup asOf moment headTable selected head version
      cutoff time) (serves : Serves storage lookup.uri timeline) (exact_ : outside.Exact)
    (regular : Regular timeline asOf.timestampMillis since) (started : since ≤ moment)
    (chose : chooseVersion outside storage lookup asOf head version time.timestampMillis
      (moment + 3) = (.ok (chosen, usedPreHistory), load))
    (loaded : storage.openAtVersion lookup.uri load chosen = .ok table)
    (opened : storage.opened lookup.uri (load + 1) = .ok verified)
    (identified : tableId headTable = tableId verified) :
    Resolved timeline lookup asOf.timestampMillis moment (load + 1)
      { selected := ⟨lookup.name, chosen, tableId table, usedPreHistory, false, table⟩
        head := ⟨lookup.name, own, tableId verified, false, false, verified⟩ } := by
  have first := serves.opened _ _ selecting.opened
  have last := serves.opened _ _ opened
  have headLength := selecting.headLength serves
  have present : (timeline.place moment).log ≠ [] := by
    intro empty
    rw [empty] at headLength
    cases headLength
  obtain ⟨id, known⟩ := regular.identified moment present
  have knownLast : tableId ⟨(timeline.place (load + 1)).log⟩ = some id := by
    rw [← last, ← identified, ← known, ← first]
  have same : ∀ read, moment ≤ read → read ≤ load + 1 →
      (timeline.place moment).Extends (timeline.place read) :=
    fun read order ended => timeline.extends_of_mark order ended (mark_of_tableId known)
      (mark_of_tableId knownLast)
  have pins := selecting.pins serves exact_ regular started chose loaded
    fun read order ended => same read order (by omega)
  constructor
  · exact pins.1
  · exact pins.2
  · rfl
  · rfl
  · exact last
  · rfl
  · rw [← first]
    exact identified.symm
  · exact same

end Ddi.Lookup
