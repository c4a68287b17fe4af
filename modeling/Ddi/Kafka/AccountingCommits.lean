/-
A batch tried, held, committed or given up keeps the accounting: one that lands moves each of its
partitions to the last message it holds of it.
-/

import Ddi.Kafka.AccountingEvents

namespace Ddi.Kafka

open Registers (Writes read)

namespace Member

variable {brokers : Brokers} {log : List (Writes TxnId Int)} {member fresh after : Member}
  {refresh : Refresh} {changed : List Int} {batch : KafkaBatch} {error : KafkaError}

/-! ### A member with a batch, and one without -/

theorem Accounts.of_holds (tracks : member.Tracks brokers) (lives : member.alive = some batch)
    (holds : member.Holds brokers batch) : member.Accounts brokers where
  tracks := tracks
  fills := by
    intro idle
    rw [lives] at idle
    cases idle
  holds := by
    intro other same
    rw [lives] at same
    cases same
    exact holds

theorem Accounts.of_fills (tracks : member.Tracks brokers) (idle : member.alive = none)
    (fills : member.Fills brokers) : member.Accounts brokers where
  tracks := tracks
  fills := fun _idle => fills
  holds := by
    intro other lives
    rw [idle] at lives
    cases lives

theorem pausesAll {partition : Int} (owned : member.isOwned partition = true) :
    partition ∈ member.pauseAll.paused :=
  List.mem_append_right _ ((isOwned_iff partition).mp owned)

theorem Holds.hold (holds : member.Holds brokers batch) (tracks : member.Tracks brokers)
    (why : HeldFor) : (member.hold batch why).Accounts brokers := by
  have same : SameData member (member.hold batch why) := ⟨rfl, rfl, rfl, rfl, rfl, rfl⟩
  apply Accounts.of_holds
  · exact tracks.of_same same fun _partition held => List.mem_append_left _ held
  · rfl
  · apply holds.of_same same
    intro _holding partition owned
    exact pausesAll owned

theorem Holds.holdForClass (holds : member.Holds brokers batch) (tracks : member.Tracks brokers)
    (settles : member.holdForClass batch error = some after) : after.Accounts brokers := by
  unfold Member.holdForClass at settles
  have blocked : ∀ why, ({ member with blocked := true }.hold batch why).Accounts brokers := by
    intro why
    have same : SameData member { member with blocked := true } := ⟨rfl, rfl, rfl, rfl, rfl, rfl⟩
    apply Holds.hold
    · exact holds.of_same same holds.paused
    · exact tracks.of_same same fun _partition held => held
  cases cls : error.kafkaClass with
  | consumerFatal =>
      rw [cls] at settles
      cases settles
  | replan | transient | capacity =>
      rw [cls] at settles
      cases settles
      exact holds.hold tracks _
  | blockingPipeline | blockingPartition | openRefusal =>
      rw [cls] at settles
      cases settles
      exact blocked _

/-- A batch tried next. -/
theorem Holds.retry (holds : member.Holds brokers batch) (tracks : member.Tracks brokers)
    (leaving : Bool) : Accounts brokers { member with work := .retry batch leaving } := by
  apply Accounts.of_holds
  · exact tracks.of_same ⟨rfl, rfl, rfl, rfl, rfl, rfl⟩ fun _partition held => held
  · rfl
  · exact holds.of_same ⟨rfl, rfl, rfl, rfl, rfl, rfl⟩ holds.paused

/-! ### The target read again for a batch -/

theorem Holds.refreshFails (holds : member.Holds brokers batch) (tracks : member.Tracks brokers)
    (fails : member.refreshAndReset log refresh = (fresh, .error error)) :
    fresh.Holds brokers batch ∧ fresh.Tracks brokers := by
  obtain ⟨same, paused, held, _work⟩ := refreshed_failed fails
  constructor
  · apply holds.of_same same
    intro holding partition owned
    rw [held] at holding
    rw [same.isOwned] at owned
    rw [paused]
    exact holds.paused holding partition owned
  · apply tracks.of_same same
    intro partition among
    rw [paused]
    exact among

theorem Holds.keptTracks (tracks : member.Tracks brokers)
    (resets : member.refreshAndReset log refresh = (fresh, .ok changed))
    (survives : Option KafkaBatch) : (fresh.repositionChanged changed survives).Tracks brokers :=
  ((Refreshed.of_ok resets).tracks tracks).repositionChanged

theorem repositionChanged_held {survives : Option KafkaBatch} :
    (member.repositionChanged changed survives).held = member.held := by
  unfold repositionChanged undisturbed
  by_cases moved : member.bufferMoved changed
  · simp only [if_pos moved]
    rfl
  · simp only [if_neg moved]

theorem Refreshed.held (refreshed : Refreshed member fresh changed) :
    fresh.held = member.held := by
  obtain ⟨handle, fence, same⟩ := refreshed.rest
  rw [same]

/-- A batch dropped by a reset leaves a buffer that fills. -/
theorem Holds.drops (holds : member.Holds brokers batch) (tracks : member.Tracks brokers)
    (free : member.held = none)
    (resets : member.refreshAndReset log refresh = (fresh, .ok changed)) :
    Accounts brokers
      { fresh.repositionChanged changed none with work := .polling, blocked := false } := by
  have same : SameData (fresh.repositionChanged changed none)
      { fresh.repositionChanged changed none with work := .polling, blocked := false } :=
    ⟨rfl, rfl, rfl, rfl, rfl, rfl⟩
  apply Accounts.of_fills
  · exact (Holds.keptTracks tracks resets none).of_same same fun _partition held => held
  · change (fresh.repositionChanged changed none).held.map Held.batch = none
    rw [repositionChanged_held, (Refreshed.of_ok resets).held, free]
    rfl
  · exact (holds.reset_dropped tracks resets).of_same same fun _partition held => held

theorem Holds.resetInPlace (holds : member.Holds brokers batch) (tracks : member.Tracks brokers)
    (free : member.held = none) (keeps : KeepsPlace log member batch refresh)
    (settles : member.resetInPlace log refresh batch = some after) : after.Accounts brokers := by
  unfold Member.resetInPlace at settles
  rcases resets : member.refreshAndReset log refresh with ⟨found, failure | changed⟩
  · rw [resets] at settles
    obtain ⟨kept, tracked⟩ := holds.refreshFails tracks resets
    exact kept.holdForClass tracked settles
  · rw [resets] at settles
    dsimp only at settles
    by_cases stays : (found.movedPartition batch).isNone
    · rw [if_pos stays] at settles
      cases settles
      exact (holds.reset_kept tracks resets keeps).retry (Holds.keptTracks tracks resets _) false
    · rw [if_neg stays] at settles
      cases settles
      exact holds.drops tracks free resets

theorem Holds.afterFailure (holds : member.Holds brokers batch) (tracks : member.Tracks brokers)
    (free : member.held = none)
    (keeps : error.kafkaClass = .replan → KeepsPlace log member batch refresh)
    (settles : member.afterFailure log refresh batch error = some after) :
    after.Accounts brokers := by
  unfold Member.afterFailure at settles
  by_cases replans : error.kafkaClass = .replan
  · rw [if_pos replans] at settles
    exact holds.resetInPlace tracks free (keeps replans) settles
  · rw [if_neg replans] at settles
    exact holds.holdForClass tracks settles

theorem Holds.recheckForBatch (holds : member.Holds brokers batch)
    (tracks : member.Tracks brokers) (polling : member.work = .polling)
    (free : member.held = none) (keeps : KeepsPlace log member batch refresh)
    (rechecks : member.recheckForBatch log refresh batch = some after) :
    after.Accounts brokers := by
  unfold Member.recheckForBatch at rechecks
  rcases resets : member.refreshAndReset log refresh with ⟨found, failure | changed⟩
  · rw [resets] at rechecks
    dsimp only at rechecks
    obtain ⟨kept, tracked⟩ := holds.refreshFails tracks resets
    by_cases fatal : failure.kafkaClass = .consumerFatal
    · rw [if_pos fatal] at rechecks
      cases rechecks
    · rw [if_neg fatal] at rechecks
      cases rechecks
      have same : SameData found { found with blocked := true } := ⟨rfl, rfl, rfl, rfl, rfl, rfl⟩
      apply Holds.hold
      · exact kept.of_same same kept.paused
      · exact tracked.of_same same fun _partition held => held
  · rw [resets] at rechecks
    dsimp only at rechecks
    by_cases stays : (found.movedPartition batch).isNone
    · rw [if_pos stays] at rechecks
      cases rechecks
      exact (holds.reset_kept tracks resets keeps).retry (Holds.keptTracks tracks resets _) false
    · rw [if_neg stays] at rechecks
      cases rechecks
      have working : (found.repositionChanged changed none).work = .polling := by
        have refreshed := Refreshed.of_ok resets
        obtain ⟨handle, fence, rest⟩ := refreshed.rest
        have empty : found.buf = {} := by
          rw [rest]
          exact holds.buf
        rw [(repositionChanged_buf empty changed none).2.2.2.2, rest]
        exact polling
      have dropped := holds.drops tracks free resets
      rw [← working] at dropped
      exact dropped

theorem Accounts.heldDue (accounts : member.Accounts brokers) (polling : member.work = .polling)
    {held : Held} (holding : member.held = some held)
    (keeps : held.heldFor = .operator →
      KeepsPlace log { member with held := none } held.batch refresh)
    (due : member.heldDue log refresh held = some after) : after.Accounts brokers := by
  have lives : member.alive = some held.batch := by
    unfold Member.alive
    rw [polling, holding]
    rfl
  have same : SameData member { member with held := none } := ⟨rfl, rfl, rfl, rfl, rfl, rfl⟩
  have holds : Holds brokers { member with held := none } held.batch := by
    apply (accounts.holds held.batch lives).of_same same
    intro impossible
    cases impossible
  have tracks : Tracks brokers { member with held := none } :=
    accounts.tracks.of_same same fun _partition paused => paused
  unfold Member.heldDue at due
  dsimp only at due
  by_cases operator : held.heldFor = .operator
  · rw [if_pos operator] at due
    exact holds.recheckForBatch tracks polling rfl (keeps operator) due
  · rw [if_neg operator] at due
    cases due
    exact holds.retry tracks false

/-! ### Trying a commit -/

/-- The refresh before a commit keeps what is held and what the batch is in the middle of. -/
theorem Holds.freshen (holds : member.Holds brokers batch) (tracks : member.Tracks brokers)
    {aging : Option Refresh}
    (keeps : ∀ refresh, aging = some refresh → KeepsPlace log member batch refresh) :
    (member.freshen log batch aging).1.Holds brokers batch ∧
      (member.freshen log batch aging).1.Tracks brokers ∧
      (member.freshen log batch aging).1.held = member.held := by
  cases aging with
  | none => exact ⟨holds, tracks, rfl⟩
  | some refresh =>
      unfold Member.freshen
      dsimp only
      rcases resets : member.refreshAndReset log refresh with ⟨found, failure | changed⟩
      · obtain ⟨kept, tracked⟩ := holds.refreshFails tracks resets
        exact ⟨kept, tracked, (refreshed_failed resets).2.2.1⟩
      · refine ⟨holds.reset_kept tracks resets (keeps refresh rfl),
          Holds.keptTracks tracks resets _, ?_⟩
        dsimp only
        rw [repositionChanged_held, (Refreshed.of_ok resets).held]

/-- What an attempt that gets as far as its commit relies on. -/
structure Sends (member : Member) (batch : KafkaBatch) (offsets : KafkaOffsets) : Prop where
  stays : member.movedPartition batch = none
  offsets : offsets = member.fence.offsets batch.ranges batch.marks
  carried : ∀ partition, partition ∈ batch.ranges.map Prod.fst → partition ∈ member.fence.carried

theorem movedPartition_congr {one other : Member} (parts : other.parts = one.parts)
    (base : other.fence.base = one.fence.base) :
    other.movedPartition batch = one.movedPartition batch := by
  unfold movedPartition isOwned
  rw [parts, base]

theorem plan_sends {attempt : Attempt} (stays : member.movedPartition batch = none) :
    SameData member (member.plan log attempt batch).1 ∧
      (member.plan log attempt batch).1.held = member.held ∧
      (member.plan log attempt batch).1.paused = member.paused ∧
      ∀ offsets, (member.plan log attempt batch).2 = .ok offsets →
        Sends (member.plan log attempt batch).1 batch offsets := by
  obtain ⟨base, _kept, _new, carries⟩ := verify_semantics member.fence
    (attempt.reading.answer (member.table log)) batch.ranges
  unfold Member.plan
  dsimp only
  rcases verifies : member.fence.verify (attempt.reading.answer (member.table log))
      batch.ranges with
    ⟨fence, _ | failure⟩
  · rw [verifies] at base carries
    dsimp only
    cases attempt.late with
    | some failure =>
        refine ⟨⟨base, rfl, rfl, rfl, rfl, rfl⟩, rfl, rfl, ?_⟩
        intro offsets impossible
        cases impossible
    | none =>
        refine ⟨⟨base, rfl, rfl, rfl, rfl, rfl⟩, rfl, rfl, ?_⟩
        intro offsets same
        cases same
        constructor
        · rw [← stays]
          exact movedPartition_congr rfl base
        · rfl
        · exact carries rfl
  · rw [verifies] at base
    refine ⟨⟨base, rfl, rfl, rfl, rfl, rfl⟩, rfl, rfl, ?_⟩
    intro offsets impossible
    cases impossible

theorem Holds.tryCommit (holds : member.Holds brokers batch) (tracks : member.Tracks brokers)
    {attempt : Attempt}
    (keeps : ∀ refresh, attempt.aging = some refresh → KeepsPlace log member batch refresh) :
    (member.tryCommit log attempt batch).1.Holds brokers batch ∧
      (member.tryCommit log attempt batch).1.Tracks brokers ∧
      (member.tryCommit log attempt batch).1.held = member.held ∧
      ∀ offsets, (member.tryCommit log attempt batch).2 = .ok offsets →
        Sends (member.tryCommit log attempt batch).1 batch offsets := by
  have freshens := holds.freshen tracks keeps
  unfold Member.tryCommit
  dsimp only
  generalize member.freshen log batch attempt.aging = result at freshens ⊢
  obtain ⟨found, _ | failure⟩ := result
  · obtain ⟨kept, tracked, held⟩ := freshens
    dsimp only at kept tracked held ⊢
    cases moved : found.movedPartition batch with
    | some partition =>
        refine ⟨kept, tracked, held, ?_⟩
        intro offsets impossible
        cases impossible
    | none =>
        cases attempt.early with
        | some failure =>
            refine ⟨kept, tracked, held, ?_⟩
            intro offsets impossible
            cases impossible
        | none =>
            obtain ⟨same, sameHeld, samePaused, sends⟩ := @plan_sends log found batch attempt moved
            refine ⟨kept.of_same same ?_, tracked.of_same same ?_, sameHeld.trans held, sends⟩
            · intro holding partition owned
              rw [sameHeld] at holding
              rw [same.isOwned] at owned
              rw [samePaused]
              exact kept.paused holding partition owned
            · intro partition paused
              rw [samePaused]
              exact paused
  · obtain ⟨kept, tracked, held⟩ := freshens
    refine ⟨kept, tracked, held, ?_⟩
    intro offsets impossible
    cases impossible

theorem Holds.failed (holds : member.Holds brokers batch) (tracks : member.Tracks brokers)
    (leaving : Bool) (error : KafkaError) :
    (member.failed batch leaving error).Accounts brokers := by
  unfold Member.failed
  cases leaving with
  | true => exact Accounts.unassign
  | false =>
      apply Accounts.of_holds
      · exact tracks.of_same ⟨rfl, rfl, rfl, rfl, rfl, rfl⟩ fun _partition held => held
      · rfl
      · exact holds.of_same ⟨rfl, rfl, rfl, rfl, rfl, rfl⟩ holds.paused

/-! ### What a member in the middle of a batch relies on -/

/-- Only a member that polls holds a batch for later, and a commit is on its way as planned. -/
structure Orderly (member : Member) : Prop where
  free : member.work ≠ .polling → member.held = none
  sends : ∀ batch offsets leaving, member.work = .committing batch offsets leaving →
    Sends member batch offsets

theorem Orderly.polls (polling : member.work = .polling) : member.Orderly where
  free := fun other => absurd polling other
  sends := by
    intro batch offsets leaving sending
    rw [polling] at sending
    cases sending

theorem Orderly.tries {leaving : Bool} (free : member.held = none)
    (trying : member.work = .retry batch leaving) : member.Orderly where
  free := fun _other => free
  sends := by
    intro other offsets leaves sending
    rw [trying] at sending
    cases sending

theorem Orderly.fails (free : member.held = none) (failing : member.work = .failing batch error) :
    member.Orderly where
  free := fun _other => free
  sends := by
    intro other offsets leaves sending
    rw [failing] at sending
    cases sending

theorem Orderly.failed (free : member.held = none) (batch : KafkaBatch) (leaving : Bool)
    (error : KafkaError) : (member.failed batch leaving error).Orderly := by
  unfold Member.failed
  cases leaving with
  | true => exact .polls rfl
  | false => exact .fails free rfl

theorem attempted_keeps (accounts : member.Accounts brokers) (orderly : member.Orderly)
    {leaving : Bool} (trying : member.work = .retry batch leaving) {attempt : Attempt}
    (keeps : ∀ refresh, attempt.aging = some refresh → KeepsPlace log member batch refresh) :
    (member.attempted log attempt batch leaving).Accounts brokers ∧
      (member.attempted log attempt batch leaving).Orderly := by
  have lives : member.alive = some batch := by
    unfold Member.alive
    rw [trying]
  have free : member.held = none := by
    apply orderly.free
    rw [trying]
    intro impossible
    cases impossible
  obtain ⟨holds, tracks, held, sends⟩ :=
    (accounts.holds batch lives).tryCommit accounts.tracks keeps
  unfold Member.attempted
  rcases tries : member.tryCommit log attempt batch with ⟨found, failure | offsets⟩
  · rw [tries] at holds tracks held
    dsimp only at holds tracks held ⊢
    exact ⟨holds.failed tracks leaving failure, .failed (held.trans free) batch leaving failure⟩
  · rw [tries] at holds tracks held sends
    dsimp only at holds tracks held sends ⊢
    have planned := sends offsets rfl
    constructor
    · apply Accounts.of_holds
      · exact tracks.of_same ⟨rfl, rfl, rfl, rfl, rfl, rfl⟩ fun _partition paused => paused
      · rfl
      · exact holds.of_same ⟨rfl, rfl, rfl, rfl, rfl, rfl⟩ holds.paused
    · constructor
      · exact fun _other => held.trans free
      · intro other sent leaves sending
        cases sending
        exact ⟨planned.stays, planned.offsets, planned.carried⟩

theorem refused_keeps (accounts : member.Accounts brokers) (orderly : member.Orderly)
    (error : KafkaError) :
    (member.refused error).Accounts brokers ∧ (member.refused error).Orderly := by
  unfold Member.refused
  cases working : member.work with
  | polling => exact ⟨accounts, orderly⟩
  | retry batch leaving => exact ⟨accounts, orderly⟩
  | failing batch failure => exact ⟨accounts, orderly⟩
  | committing batch offsets leaving =>
      have lives : member.alive = some batch := by
        unfold Member.alive
        rw [working]
      have free : member.held = none := by
        apply orderly.free
        rw [working]
        intro impossible
        cases impossible
      exact ⟨(accounts.holds batch lives).failed accounts.tracks leaving error,
        .failed free batch leaving error⟩

/-! ### A commit that landed -/

/-- A partition of a batch about to be sent has an offset in the fence. -/
theorem Sends.known {offsets : KafkaOffsets} (sends : Sends member batch offsets)
    (exact_ : batch.Exact brokers) {partition : Int} {range : Int × Int}
    (inside : batch.ranges.lookup partition = some range) :
    (member.fence.base.lookup partition).isSome := by
  have among : partition ∈ batch.ranges.map Prod.fst :=
    (Assoc.mem_keys_iff _ _).mpr ⟨range, inside⟩
  have here := List.find?_eq_none.mp sends.stays partition among
  rw [Bool.or_eq_true_iff, not_or] at here
  rcases exact_ partition with ⟨first, last, held, _inside, known, _rows⟩ | ⟨outside, _rows⟩
  · have same : (member.fence.base.lookup partition).map Prod.fst = some held := by
      rw [← known]
      simpa using here.2
    rw [← Option.isSome_map, same]
    rfl
  · rw [outside] at inside
    cases inside

/-- A commit that was planned moves its own partitions, and no other. -/
theorem Sends.committed_base {offsets : KafkaOffsets} (sends : Sends member batch offsets)
    (exact_ : batch.Exact brokers) (partition : Int) :
    (member.fence.committed offsets).baseOffset partition =
      match batch.ranges.lookup partition with
      | some range => some range.2
      | none => member.fence.baseOffset partition := by
  have asserts : offsets.assert =
      (member.fence.assertMap batch.ranges batch.marks).1 := by
    rw [sends.offsets]
    rfl
  cases inside : batch.ranges.lookup partition with
  | some range =>
      rw [committed_baseOffset (sends.known exact_ inside), asserts, assertMap_lookup]
      unfold assertedAt
      rw [inside]
      rfl
  | none =>
      cases found : member.fence.base.lookup partition with
      | none =>
          unfold Fence.baseOffset
          rw [committed_lookup, found]
          rfl
      | some held =>
          rw [committed_baseOffset (by rw [found]; rfl)]
          cases asserted : offsets.assert.lookup partition with
          | none => rfl
          | some version =>
              rw [asserts] at asserted
              rcases assertMap_semantics asserted with ⟨first, within⟩ | ⟨_outside, _carried, base⟩
              · rw [inside] at within
                cases within
              · rw [base]
                rfl

/-- What a commit that landed leaves, for what the partitions expect. -/
structure Lands (member after : Member) (batch : KafkaBatch) : Prop where
  base : ∀ partition, after.fence.baseOffset partition =
    match batch.ranges.lookup partition with
    | some range => some range.2
    | none => member.fence.baseOffset partition
  parts : after.parts = member.parts
  unbasedStart : after.unbasedStart = member.unbasedStart
  paused : ∀ partition, partition ∈ member.paused → partition ∈ after.paused

theorem Lands.settledAt (lands : Lands member after batch) (partition : Int) :
    after.settledAt brokers partition =
      match batch.ranges.lookup partition with
      | some range => range.2
      | none => member.settledAt brokers partition := by
  unfold Member.settledAt
  rw [lands.base]
  cases batch.ranges.lookup partition with
  | none => rfl
  | some range => rfl

theorem Lands.tracks (lands : Lands member after batch) (tracks : member.Tracks brokers) :
    after.Tracks brokers := by
  constructor
  · intro partition block found
    rw [lands.parts] at found
    exact lands.paused partition (tracks.blocked partition block found)
  · intro partition next start reread found reading
    rw [lands.parts] at found
    exact tracks.position partition next start reread found fun held =>
      reading (lands.paused partition held)
  · intro partition next start reread found
    rw [lands.parts] at found
    have target := tracks.target partition next start reread found
    cases base : after.fence.baseOffset partition with
    | some held => exact nextInTarget_of_some base
    | none =>
        have same := lands.base partition
        rw [base] at same
        cases inside : batch.ranges.lookup partition with
        | some range =>
            rw [inside] at same
            cases same
        | none =>
            rw [inside] at same
            dsimp only at same
            unfold nextInTarget Member.settledAt at target ⊢
            rw [base, lands.unbasedStart]
            rw [← same] at target
            exact target

theorem Lands.fills (lands : Lands member after batch) (holds : member.Holds brokers batch)
    (stays : member.AtBases batch) (buf : after.buf = member.buf)
    (decoder : after.decoder = member.decoder) (stalled : after.stalled = member.stalled) :
    after.Fills brokers := by
  apply Fills.emptied
  · rw [buf, holds.buf]
  · rw [decoder, holds.decoder]
  · rw [stalled, holds.stalled]
  · intro partition next start reread found
    rw [lands.parts] at found
    rw [lands.settledAt]
    cases inside : batch.ranges.lookup partition with
    | some range =>
        apply Or.inl
        constructor
        · exact holds.read partition range next start reread inside found
        · exact holds.within stays partition range.1 range.2 next start reread inside found
    | none =>
        rcases holds.elsewhere partition next start reread inside found with
          clear | ⟨expected, waits, there, base⟩
        · exact Or.inl clear
        · apply Or.inr
          refine ⟨expected, waits, there, ?_⟩
          rw [lands.base, inside]
          exact base

theorem heard_keeps (accounts : member.Accounts brokers) (orderly : member.Orderly)
    (unwritable : Bool) :
    (member.heard log unwritable).Accounts brokers ∧ (member.heard log unwritable).Orderly := by
  unfold Member.heard
  cases working : member.work with
  | polling => exact ⟨accounts, orderly⟩
  | retry batch leaving => exact ⟨accounts, orderly⟩
  | failing batch failure => exact ⟨accounts, orderly⟩
  | committing batch offsets leaving =>
      have lives : member.alive = some batch := by
        unfold Member.alive
        rw [working]
      have free : member.held = none := by
        apply orderly.free
        rw [working]
        intro impossible
        cases impossible
      have holds := accounts.holds batch lives
      have sends := orderly.sends batch offsets leaving working
      have lands : Lands member (member.committed log offsets unwritable) batch := by
        unfold Member.committed
        cases unwritable with
        | true =>
            exact ⟨sends.committed_base holds.exact, rfl, rfl, fun _partition held =>
              List.mem_append_left _ held⟩
        | false => exact ⟨sends.committed_base holds.exact, rfl, rfl, fun _partition held => held⟩
      have landed : (member.committed log offsets unwritable).Accounts brokers := by
        apply Accounts.of_fills
        · exact lands.tracks accounts.tracks
        · unfold Member.committed
          cases unwritable with
          | true =>
              change member.held.map Held.batch = none
              rw [free]
              rfl
          | false =>
              change member.held.map Held.batch = none
              rw [free]
              rfl
        · apply lands.fills holds (atBases_of_unmoved sends.stays holds.exact)
          · unfold Member.committed
            cases unwritable <;> rfl
          · unfold Member.committed
            cases unwritable <;> rfl
          · unfold Member.committed
            cases unwritable <;> rfl
      cases leaving with
      | true => exact ⟨Accounts.unassign, .polls rfl⟩
      | false =>
          refine ⟨landed, .polls ?_⟩
          unfold Member.committed
          cases unwritable <;> rfl

end Member

end Ddi.Kafka
