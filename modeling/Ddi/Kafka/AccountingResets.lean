/-
A reset keeps the accounting: what is read again is read from its offset in the target,
and what the batch or the buffer accounts for stays where it is.
-/

import Ddi.Kafka.Accounting

namespace Ddi.Kafka

open Registers (Writes read)

/-- A refresh and the reset after it succeed or fail together. -/
def Refresh.Whole : Refresh → Prop
  | .moved _ _ => False
  | _ => True

namespace Member

variable {brokers : Brokers} {log : List (Writes TxnId Int)} {member fresh : Member}
  {refresh : Refresh} {changed : List Int}

/-- What a refresh that succeeds leaves: the owned partitions at offsets read again, none without
one that had one, and those of them that changed. -/
structure Refreshed (before after : Member) (changed : List Int) : Prop where
  rest : ∃ handle fence, after = { before with handle := handle, fence := fence }
  owned : ∀ partition, before.isOwned partition = true →
    (after.fence.base.lookup partition).isSome
  kept : ∀ partition, before.isOwned partition = true →
    before.fence.baseOffset partition ≠ none → after.fence.baseOffset partition ≠ none
  unchanged : ∀ partition, before.isOwned partition = true → partition ∉ changed →
    after.fence.baseOffset partition = before.fence.baseOffset partition
  among : ∀ partition, partition ∈ changed → before.isOwned partition = true

theorem isOwned_iff (partition : Int) :
    member.isOwned partition = true ↔ partition ∈ member.parts.owned := by
  rw [Partitions.mem_owned_iff]
  rfl

theorem refreshThenReset_ok {owned : List Int}
    (done : (member.refreshThenReset log owned refresh).2 = none) :
    (∀ partition, partition ∈ owned →
      ((member.refreshThenReset log owned refresh).1.fence.base.lookup partition).isSome) ∧
    ∀ partition, partition ∈ owned → member.fence.baseOffset partition ≠ none →
      (member.refreshThenReset log owned refresh).1.fence.baseOffset partition ≠ none := by
  cases refresh with
  | unmoved error => cases done
  | moved version error => cases done
  | done version reading =>
      rcases reset_semantics member.fence
          (reading.answer (read (log.take (min version log.length)))) owned with
        ⟨txns, _answered, _none, _carried, vanished, base⟩ | ⟨failed, _carried, _base⟩
      · constructor
        · intro partition own
          refine Option.isSome_iff_exists.mpr ⟨_, (base partition).trans (if_pos own)⟩
        · intro partition own held
          obtain ⟨offset, known⟩ := Option.ne_none_iff_exists'.mp held
          have stays := vanished partition offset known own
          have found := (base partition).trans (if_pos own)
          change Fence.baseOffset (member.fence.reset
            (reading.answer (read (log.take (min version log.length)))) owned).1 partition ≠ none
          unfold Fence.baseOffset
          rw [found]
          exact stays
      · exact absurd done failed

theorem Refreshed.of_ok (resets : member.refreshAndReset log refresh = (fresh, .ok changed)) :
    Refreshed member fresh changed := by
  unfold refreshAndReset at resets
  cases done : (member.refreshThenReset log member.parts.owned refresh).2 with
  | some error =>
      simp only [done] at resets
      cases resets
  | none =>
      obtain ⟨owned, kept⟩ := refreshThenReset_ok done
      obtain ⟨handle, fence, same⟩ := member.refreshThenReset_rest log member.parts.owned refresh
      simp only [done] at resets
      obtain ⟨rfl, rfl⟩ := Prod.mk.inj resets |>.imp_right Except.ok.inj
      constructor
      · exact ⟨handle, fence, same⟩
      · exact fun partition own => owned partition ((isOwned_iff partition).mp own)
      · exact fun partition own => kept partition ((isOwned_iff partition).mp own)
      · intro partition own away
        by_contra apart
        apply away
        apply List.mem_filter.mpr
        constructor
        · rw [same]
          exact (isOwned_iff partition).mp own
        · simpa using apart
      · intro partition among
        have own := (List.mem_filter.mp among).1
        rw [same] at own
        exact (isOwned_iff partition).mpr own

theorem refreshThenReset_failed {owned : List Int} {error : KafkaError}
    (failed : (member.refreshThenReset log owned refresh).2 = some error) :
    (member.refreshThenReset log owned refresh).1.fence.base = member.fence.base := by
  cases refresh with
  | unmoved error => rfl
  | moved version error => rfl
  | done version reading =>
      rcases reset_semantics member.fence
          (reading.answer (read (log.take (min version log.length)))) owned with
        ⟨_txns, _answered, done, _carried, _vanished, _base⟩ | ⟨_failed, _carried, base⟩
      · cases failed.symm.trans done
      · exact base

theorem refreshed_failed {error : KafkaError}
    (fails : member.refreshAndReset log refresh = (fresh, .error error)) :
    SameData member fresh ∧ fresh.paused = member.paused ∧ fresh.held = member.held ∧
      fresh.work = member.work := by
  unfold refreshAndReset at fails
  cases failed : (member.refreshThenReset log member.parts.owned refresh).2 with
  | none =>
      simp only [failed] at fails
      cases fails
  | some failure =>
      have base := refreshThenReset_failed failed
      obtain ⟨handle, fence, same⟩ := member.refreshThenReset_rest log member.parts.owned refresh
      simp only [failed] at fails
      obtain ⟨rfl, _error⟩ := Prod.mk.inj fails
      refine ⟨⟨base, ?_, ?_, ?_, ?_, ?_⟩, ?_, ?_, ?_⟩
      all_goals rw [same]

/-! ### The target a partition is read from -/

theorem settledAt_of_base {one other : Member} {partition : Int}
    (same : other.fence.baseOffset partition = one.fence.baseOffset partition) :
    other.settledAt brokers partition = one.settledAt brokers partition := by
  unfold settledAt
  rw [same]

theorem nextInTarget_of_some {partition base : Int}
    (held : member.fence.baseOffset partition = some base) :
    member.nextInTarget partition = some (member.settledAt brokers partition + 1) := by
  unfold nextInTarget settledAt
  rw [held]
  rfl

theorem Refreshed.tracks (refreshed : Refreshed member fresh changed)
    (tracks : member.Tracks brokers) : fresh.Tracks brokers := by
  obtain ⟨handle, fence, rfl⟩ := refreshed.rest
  refine ⟨tracks.blocked, tracks.position, ?_⟩
  intro partition next start reread found
  have own : member.isOwned partition = true := by
    unfold isOwned
    rw [show member.parts.lookup partition = some (.ready next start reread) from found]
    rfl
  cases now : fence.baseOffset partition with
  | some base => exact nextInTarget_of_some now
  | none =>
      have before : member.fence.baseOffset partition = none := by
        by_contra held
        exact refreshed.kept partition own held now
      have target := tracks.target partition next start reread found
      unfold nextInTarget settledAt at target ⊢
      rw [before] at target
      simp only [now]
      exact target

/-! ### Repositioning -/

variable {survives : Option KafkaBatch}

theorem repositioned_ready {partition next start : Int} {reread : Option Reread}
    (found : (member.repositionChanged changed survives).parts.lookup partition =
      some (.ready next start reread)) :
    (∃ old first again, member.parts.lookup partition = some (.ready old first again)) ∧
    ((partition ∈ member.toReposition changed survives ∧
        next = (member.nextInTarget partition).getD 0 ∧ reread = none) ∨
      partition ∉ member.toReposition changed survives ∧
        member.parts.lookup partition = some (.ready next start reread)) := by
  rw [repositionChanged_lookup] at found
  obtain ⟨state, held, same⟩ := Option.map_eq_some_iff.mp found
  by_cases moved : partition ∈ member.toReposition changed survives
  · rw [if_pos moved] at same
    cases same
    constructor
    · obtain ⟨expected, ready, _moved⟩ := (mem_toReposition member).mp moved
      unfold nextExpected at ready
      rw [held] at ready
      cases state with
      | ready old first again => exact ⟨old, first, again, held⟩
      | blocked block => cases ready
    · exact Or.inl ⟨moved, rfl, rfl⟩
  · rw [if_neg moved] at same
    rw [same] at held
    exact ⟨⟨next, start, reread, held⟩, Or.inr ⟨moved, held⟩⟩

theorem repositionChanged_base :
    (member.repositionChanged changed survives).fence = member.fence := by
  exact (repositionChanged_view member changed survives).2

theorem repositionChanged_unbased :
    (member.repositionChanged changed survives).unbasedStart = member.unbasedStart := by
  unfold repositionChanged undisturbed
  by_cases moved : member.bufferMoved changed
  · simp only [if_pos moved]
    rfl
  · simp only [if_neg moved]

theorem repositionChanged_settledAt (partition : Int) :
    (member.repositionChanged changed survives).settledAt brokers partition =
      member.settledAt brokers partition := by
  unfold settledAt
  rw [repositionChanged_base]

theorem Tracks.repositionChanged (tracks : member.Tracks brokers) :
    (member.repositionChanged changed survives).Tracks brokers where
  blocked := by
    intro partition block found
    rw [repositionChanged_paused]
    rw [repositionChanged_lookup] at found
    obtain ⟨state, held, same⟩ := Option.map_eq_some_iff.mp found
    by_cases moved : partition ∈ member.toReposition changed survives
    · rw [if_pos moved] at same
      cases same
    · rw [if_neg moved] at same
      rw [same] at held
      exact List.mem_append_left _ (tracks.blocked partition block held)
  position := by
    intro partition next start reread found reading
    rw [repositionChanged_paused] at reading
    rcases (repositioned_ready found).2 with ⟨moved, _next, _reread⟩ | ⟨_away, held⟩
    · exact absurd (List.mem_append_right _ moved) reading
    · exact tracks.position partition next start reread held fun paused =>
        reading (List.mem_append_left _ paused)
  target := by
    intro partition next start reread found
    obtain ⟨⟨old, first, again, held⟩, _moved⟩ := repositioned_ready found
    have target := tracks.target partition old first again held
    rw [repositionChanged_settledAt]
    unfold nextInTarget at target ⊢
    rw [repositionChanged_base, repositionChanged_unbased]
    exact target

theorem repositioned_next (tracks : member.Tracks brokers) {partition next start : Int}
    {reread : Option Reread}
    (found : (member.repositionChanged changed survives).parts.lookup partition =
      some (.ready next start reread))
    (uncovered : ∀ batch, survives = some batch → batch.ranges.lookup partition = none)
    (unbuffered : (member.undisturbed changed).buf.ranges.lookup partition = none) :
    next = member.settledAt brokers partition + 1 ∧
      (reread = none ∨ partition ∉ changed ∧
        member.parts.lookup partition = some (.ready next start reread)) := by
  obtain ⟨⟨old, first, again, held⟩, moved⟩ := repositioned_ready found
  have target := tracks.target partition old first again held
  rcases moved with ⟨_moved, same, fresh⟩ | ⟨away, stays⟩
  · rw [target] at same
    exact ⟨same, Or.inl fresh⟩
  · have placed : ¬(partition ∈ member.again changed ∨
        (member.undisturbed changed).misplaced survives partition next = true) := fun apart =>
      away ((mem_toReposition member).mpr ⟨next, nextExpected_ready member stays, apart⟩)
    obtain ⟨unlisted, wellPlaced⟩ := not_or.mp placed
    constructor
    · unfold misplaced at wellPlaced
      rw [undisturbed_next, target, unbuffered] at wellPlaced
      cases survives with
      | none =>
          simp only [Bool.not_false, Option.isNone_none, Bool.true_and, bne_iff_ne, ne_eq,
            not_not] at wellPlaced
          exact wellPlaced.symm
      | some batch =>
          simp only [uncovered batch rfl, Option.isSome_none, Bool.not_false, Option.isNone_none,
            Bool.true_and, bne_iff_ne, ne_eq, not_not] at wellPlaced
          exact wellPlaced.symm
    · apply Or.inr
      constructor
      · intro listed
        apply unlisted
        unfold Member.again
        by_cases buffer : member.bufferMoved changed
        · rw [if_pos buffer]
          exact List.mem_append_left _ listed
        · rw [if_neg buffer]
          exact listed
      · exact stays

theorem repositionChanged_isOwned (partition : Int) :
    (member.repositionChanged changed survives).isOwned partition = member.isOwned partition := by
  unfold isOwned
  rw [repositionChanged_lookup, Option.isSome_map]

/-- A batch that has not moved is at its bases. -/
theorem atBases_of_unmoved {batch : KafkaBatch} (stays : member.movedPartition batch = none)
    (exact_ : batch.Exact brokers) : member.AtBases batch := by
  intro partition range inside
  have among : partition ∈ batch.ranges.map Prod.fst :=
    (Assoc.mem_keys_iff _ _).mpr ⟨range, inside⟩
  have here := List.find?_eq_none.mp stays partition among
  rw [Bool.or_eq_true_iff, not_or] at here
  obtain ⟨own, base⟩ := here
  constructor
  · simpa using own
  · rcases exact_ partition with ⟨first, last, held, _inside, known, _rows⟩ | ⟨outside, _rows⟩
    · have same : (member.fence.base.lookup partition).map Prod.fst = some held := by
        rw [← known]
        simpa using base
      rw [known]
      obtain ⟨entry, found, rfl⟩ := Option.map_eq_some_iff.mp same
      unfold Fence.baseOffset
      rw [found]
      rfl
    · rw [outside] at inside
      cases inside

theorem unmoved_of_atBases {batch : KafkaBatch} (stays : member.AtBases batch)
    (owned : ∀ partition, member.isOwned partition = true →
      (member.fence.base.lookup partition).isSome) : member.movedPartition batch = none := by
  apply List.find?_eq_none.mpr
  intro partition among
  obtain ⟨range, inside⟩ := (Assoc.mem_keys_iff _ _).mp among
  obtain ⟨own, base⟩ := stays partition range inside
  obtain ⟨entry, found⟩ := Option.isSome_iff_exists.mp (owned partition own)
  rw [base, own]
  unfold Fence.baseOffset
  rw [found]
  simp

/-- A refresh after which a batch is kept finds its partitions where the fence had them. -/
def KeepsPlace (log : List (Writes TxnId Int)) (member : Member) (batch : KafkaBatch)
    (refresh : Refresh) : Prop :=
  ∀ fresh changed, member.refreshAndReset log refresh = (fresh, .ok changed) →
    fresh.movedPartition batch = none →
      ∀ partition range, batch.ranges.lookup partition = some range → partition ∉ changed

theorem undisturbed_of_empty (empty : member.buf = {}) (changed : List Int) :
    member.undisturbed changed = member := by
  have still : member.bufferMoved changed = false := by
    unfold bufferMoved
    rw [empty]
    rfl
  unfold undisturbed
  rw [still]
  rfl

theorem again_of_empty (empty : member.buf = {}) (changed : List Int) :
    member.again changed = changed := by
  unfold again bufferMoved
  rw [empty]
  rfl

theorem repositionChanged_buf (empty : member.buf = {}) (changed : List Int)
    (survives : Option KafkaBatch) :
    (member.repositionChanged changed survives).buf = member.buf ∧
      (member.repositionChanged changed survives).decoder = member.decoder ∧
      (member.repositionChanged changed survives).stalled = member.stalled ∧
      (member.repositionChanged changed survives).held = member.held ∧
      (member.repositionChanged changed survives).work = member.work := by
  unfold repositionChanged
  rw [undisturbed_of_empty empty]
  exact ⟨rfl, rfl, rfl, rfl, rfl⟩

/-- Where the buffer is empty, what is ready and not covered expects the next offset by the
target, and nothing of it waits to be read again. -/
theorem Holds.repositioned {batch : KafkaBatch} (holds : member.Holds brokers batch)
    (refreshed : Refreshed member fresh changed) (tracks : member.Tracks brokers)
    {partition next start : Int} {reread : Option Reread}
    (found : (fresh.repositionChanged changed survives).parts.lookup partition =
      some (.ready next start reread))
    (uncovered : ∀ batch, survives = some batch → batch.ranges.lookup partition = none) :
    next = fresh.settledAt brokers partition + 1 ∧ reread = none := by
  have tracksFresh := refreshed.tracks tracks
  have empty : fresh.buf = {} := by
    obtain ⟨handle, fence, same⟩ := refreshed.rest
    rw [same]
    exact holds.buf
  obtain ⟨expects, placed⟩ := repositioned_next tracksFresh found uncovered
    (by rw [undisturbed_of_empty empty, empty]; rfl)
  refine ⟨expects, ?_⟩
  rcases placed with nothing | ⟨away, held⟩
  · exact nothing
  · have before : member.parts.lookup partition = some (.ready next start reread) := by
      obtain ⟨handle, fence, same⟩ := refreshed.rest
      rw [same] at held
      exact held
    have own : member.isOwned partition = true := by
      unfold isOwned
      rw [before]
      rfl
    have sameBase := refreshed.unchanged partition own away
    cases inside : batch.ranges.lookup partition with
    | some range => exact holds.read partition range next start reread inside before
    | none =>
        rcases holds.elsewhere partition next start reread inside before with
          ⟨nothing, _clear⟩ | ⟨expected, _waits, _there, base⟩
        · exact nothing
        · have here : fresh.settledAt brokers partition = next := by
            unfold settledAt
            rw [sameBase, base]
            rfl
          omega

theorem Holds.reset_kept {batch : KafkaBatch} (holds : member.Holds brokers batch)
    (tracks : member.Tracks brokers)
    (resets : member.refreshAndReset log refresh = (fresh, .ok changed))
    (keeps : KeepsPlace log member batch refresh) :
    (fresh.repositionChanged changed (some batch)).Holds brokers batch := by
  have refreshed := Refreshed.of_ok resets
  obtain ⟨handle, fence, same⟩ := refreshed.rest
  have empty : fresh.buf = {} := by
    rw [same]
    exact holds.buf
  obtain ⟨buf, decoder, stalled, held, _work⟩ :=
    repositionChanged_buf empty changed (some batch)
  have inside_same : ∀ partition range next start reread,
      batch.ranges.lookup partition = some range → partition ∉ changed →
      (fresh.repositionChanged changed (some batch)).parts.lookup partition =
        some (.ready next start reread) →
      member.parts.lookup partition = some (.ready next start reread) := by
    intro partition range next start reread inside away found
    rcases (repositioned_ready found).2 with ⟨moved, _next, _reread⟩ | ⟨_away, stays⟩
    · obtain ⟨expected, _ready, listed | misplaced⟩ := (mem_toReposition fresh).mp moved
      · rw [again_of_empty empty changed] at listed
        exact absurd listed away
      · unfold Member.misplaced at misplaced
        simp [inside] at misplaced
    · rw [same] at stays
      exact stays
  constructor
  · rw [buf, empty]
  · rw [decoder, same, holds.decoder]
  · rw [stalled, same, holds.stalled]
  · exact holds.exact
  · intro partition next start reread outside found
    obtain ⟨rfl, nothing⟩ := holds.repositioned refreshed tracks found
      (fun other covers => by cases covers; exact outside)
    rw [repositionChanged_settledAt]
    exact Or.inl ⟨nothing, .succ _ _⟩
  · intro partition range next start reread inside found
    rcases (repositioned_ready found).2 with ⟨_moved, _next, nothing⟩ | ⟨_away, stays⟩
    · exact nothing
    · rw [same] at stays
      exact holds.read partition range next start reread inside stays
  · intro stays partition first last next start reread inside found
    have freshStays : fresh.AtBases batch := by
      intro other range within
      obtain ⟨own, base⟩ := stays other range within
      rw [repositionChanged_isOwned] at own
      rw [repositionChanged_base] at base
      exact ⟨own, base⟩
    have ownedFresh : ∀ other, fresh.isOwned other = true →
        (fresh.fence.base.lookup other).isSome := by
      intro other own
      apply refreshed.owned
      rw [same] at own
      exact own
    have away := keeps fresh changed resets (unmoved_of_atBases freshStays ownedFresh)
    have before : member.AtBases batch := by
      intro other range within
      obtain ⟨own, base⟩ := freshStays other range within
      have ownBefore : member.isOwned other = true := by
        rw [same] at own
        exact own
      rw [refreshed.unchanged other ownBefore (away other range within)] at base
      exact ⟨ownBefore, base⟩
    exact holds.within before partition first last next start reread inside
      (inside_same partition _ next start reread inside (away partition _ inside) found)
  · intro holding partition own
    rw [repositionChanged_isOwned] at own
    rw [held] at holding
    rw [repositionChanged_paused]
    rw [same] at own holding ⊢
    exact List.mem_append_left _ (holds.paused holding partition own)

theorem Holds.reset_dropped {batch : KafkaBatch} (holds : member.Holds brokers batch)
    (tracks : member.Tracks brokers)
    (resets : member.refreshAndReset log refresh = (fresh, .ok changed)) :
    (fresh.repositionChanged changed none).Fills brokers := by
  have refreshed := Refreshed.of_ok resets
  obtain ⟨handle, fence, same⟩ := refreshed.rest
  have empty : fresh.buf = {} := by
    rw [same]
    exact holds.buf
  obtain ⟨sameBuf, decoder, stalled, _held, _work⟩ :=
    repositionChanged_buf empty changed none
  apply Fills.emptied
  · rw [sameBuf, empty]
  · rw [decoder, same]
    exact holds.decoder
  · rw [stalled, same]
    exact holds.stalled
  · intro partition next start reread found
    obtain ⟨rfl, nothing⟩ := holds.repositioned refreshed tracks found
      (fun other covers => by cases covers)
    rw [repositionChanged_settledAt]
    exact Or.inl ⟨nothing, .succ _ _⟩

end Member

end Ddi.Kafka
