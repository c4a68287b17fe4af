/-
The buffer over whole runs, whatever is delivered, stored or moved: it accounts for exactly the
messages in the decoder and the one that waits for its schema, and a batch for exactly the ones it
was closed over.
-/

import Ddi.Kafka.AccountingSteps
import Ddi.Kafka.Handle

namespace Ddi.Kafka

open Registers (Writes read)

/-- The buffer that took messages one after another. -/
def Buffer.takeAll (messages : List KafkaMessage) : Buffer :=
  messages.foldl (fun buf message => buf.take message.partition message.mark) {}

theorem Buffer.takeAll_snoc (messages : List KafkaMessage) (message : KafkaMessage) :
    Buffer.takeAll (messages ++ [message]) =
      (Buffer.takeAll messages).take message.partition message.mark := by
  unfold takeAll
  rw [List.foldl_append]
  rfl

/-- A batch has the rows of some messages, and the offsets and marks of all of them. -/
def KafkaBatch.FromMessages (batch : KafkaBatch) : Prop :=
  ∃ messages, batch.ranges = (Buffer.takeAll messages).ranges ∧
    batch.marks = (Buffer.takeAll messages).marks ∧
      batch.decoded = messages.filter fun message => message.payload == .row

namespace Member

variable {log : List (Writes TxnId Int)} {explicit : Int → Option Int} {member after : Member}

/-- What every event keeps of the buffer. -/
structure Agrees (member : Member) : Prop where
  buf : member.buf = Buffer.takeAll member.buffered
  waits : member.stalled.isSome ∨ member.held.isSome → ∀ partition,
    member.isOwned partition = true → partition ∈ member.paused
  owns : member.stalled.isSome → ∃ partition, member.isOwned partition = true
  free : member.work ≠ .polling → member.held = none
  alone : member.alive.isSome → member.buffered = []
  batch : ∀ batch, member.alive = some batch → batch.FromMessages

/-- Nothing of the buffer, of what is held and of what is owned differs, and nothing resumes. -/
structure Leaves (before after : Member) : Prop where
  buf : after.buf = before.buf
  decoder : after.decoder = before.decoder
  stalled : after.stalled = before.stalled
  held : after.held = before.held
  work : after.work = before.work
  owned : ∀ partition, after.isOwned partition = before.isOwned partition
  paused : ∀ partition, partition ∈ before.paused → partition ∈ after.paused

theorem Leaves.refl (member : Member) : Leaves member member :=
  ⟨rfl, rfl, rfl, rfl, rfl, fun _ => rfl, fun _ held => held⟩

theorem Leaves.trans {first second third : Member} (one : Leaves first second)
    (other : Leaves second third) : Leaves first third where
  buf := other.buf.trans one.buf
  decoder := other.decoder.trans one.decoder
  stalled := other.stalled.trans one.stalled
  held := other.held.trans one.held
  work := other.work.trans one.work
  owned := fun partition => (other.owned partition).trans (one.owned partition)
  paused := fun partition held => other.paused partition (one.paused partition held)

theorem Leaves.pause (member : Member) (partitions : List Int) :
    Leaves member (member.pause partitions) :=
  ⟨rfl, rfl, rfl, rfl, rfl, fun _ => rfl, fun _ held => List.mem_append_left _ held⟩

theorem isOwned_put {parts : Partitions} {partition : Int} (state : State)
    (owned : (parts.lookup partition).isSome = true) (other : Int) :
    ((Assoc.put partition state parts).lookup other).isSome = (parts.lookup other).isSome := by
  rw [Assoc.lookup_put]
  by_cases same : other = partition
  · rw [if_pos same, same, owned]
    rfl
  · rw [if_neg same]

theorem Leaves.blockPartition {partition : Int} (owned : member.isOwned partition = true)
    (block : Block) : Leaves member (member.blockPartition partition block) :=
  ⟨rfl, rfl, rfl, rfl, rfl, isOwned_put _ owned, fun _ held => List.mem_append_left _ held⟩

theorem Leaves.blockAll (blocks : List (Int × Block))
    (owned : ∀ entry ∈ blocks, member.isOwned entry.1 = true) :
    Leaves member (member.blockAll blocks) := by
  unfold Member.blockAll
  induction blocks generalizing member with
  | nil => exact .refl member
  | cons entry blocks ih =>
      rw [List.foldl_cons]
      have first : Leaves member (member.blockPartition entry.1 entry.2) :=
        .blockPartition (owned entry List.mem_cons_self) entry.2
      apply first.trans
      apply ih
      intro other later
      rw [first.owned]
      exact owned other (List.mem_cons_of_mem _ later)

theorem owned_of_expected {partition next : Int}
    (expected : member.nextExpected partition = some next) :
    member.isOwned partition = true := by
  unfold nextExpected at expected
  unfold isOwned
  cases found : member.parts.lookup partition with
  | none =>
      rw [found] at expected
      cases expected
  | some state => rfl

theorem Leaves.outOfRange (member : Member) (watermarks : Watermarks) :
    Leaves member (member.outOfRange watermarks) := by
  unfold Member.outOfRange
  cases watermarks with
  | none => exact .pause member _
  | some ranges =>
      dsimp only
      by_cases nobody : (member.offenders ranges).isEmpty
      · rw [if_pos nobody]
        exact .pause member _
      · rw [if_neg nobody]
        apply Leaves.blockAll
        intro entry among
        obtain ⟨held, ready, offends⟩ := List.mem_filterMap.mp among
        obtain ⟨block, _found, same⟩ := Option.map_eq_some_iff.mp offends
        obtain ⟨partition, _owned, expects⟩ := List.mem_filterMap.mp ready
        obtain ⟨next, expected, pair⟩ := Option.map_eq_some_iff.mp expects
        cases same
        cases pair
        exact owned_of_expected expected

theorem Leaves.refreshAndReset (member : Member) (refresh : Refresh) :
    Leaves member (member.refreshAndReset log refresh).1 := by
  obtain ⟨handle, fence, same⟩ := member.refreshAndReset_rest log refresh
  rw [same]
  exact ⟨rfl, rfl, rfl, rfl, rfl, fun _ => rfl, fun _ held => held⟩

theorem Leaves.takeUp {partition : Int} (owned : member.isOwned partition = true)
    (start : Start) : Leaves member (member.takeUp partition start) := by
  have puts := takeUp_puts owned start
  refine ⟨puts.buf, puts.decoder, puts.stalled, puts.held, ?_, ?_, puts.paused⟩
  · cases start <;> rfl
  · exact fun other => puts.isOwned other

theorem Leaves.resolveAll (ranges : List (Int × Int × Int)) (partitions : List Int)
    (owned : ∀ partition ∈ partitions, member.isOwned partition = true) :
    Leaves member (member.resolveAll explicit ranges partitions) := by
  unfold Member.resolveAll
  induction partitions generalizing member with
  | nil => exact .refl member
  | cons partition partitions ih =>
      rw [List.foldl_cons]
      have first : Leaves member (member.resolveOne explicit ranges partition) := by
        unfold Member.resolveOne
        cases ranges.lookup partition with
        | none => exact .refl member
        | some range => exact .takeUp (owned partition List.mem_cons_self) _
      apply first.trans
      apply ih
      intro other later
      rw [first.owned]
      exact owned other (List.mem_cons_of_mem _ later)

theorem Leaves.buffered (leaves : Leaves member after) : after.buffered = member.buffered := by
  unfold Member.buffered
  rw [leaves.decoder, leaves.stalled]

theorem Leaves.alive (leaves : Leaves member after) : after.alive = member.alive := by
  unfold Member.alive
  rw [leaves.work, leaves.held]

theorem Agrees.leaves (agrees : member.Agrees) (leaves : Leaves member after) : after.Agrees where
  buf := by
    rw [leaves.buf, leaves.buffered]
    exact agrees.buf
  waits := by
    intro waits partition owned
    rw [leaves.stalled, leaves.held] at waits
    rw [leaves.owned] at owned
    exact leaves.paused partition (agrees.waits waits partition owned)
  owns := by
    intro waits
    rw [leaves.stalled] at waits
    obtain ⟨partition, owned⟩ := agrees.owns waits
    exact ⟨partition, (leaves.owned partition).trans owned⟩
  free := by
    rw [leaves.work, leaves.held]
    exact agrees.free
  alone := by
    rw [leaves.alive, leaves.buffered]
    exact agrees.alone
  batch := by
    rw [leaves.alive]
    exact agrees.batch

/-- A member with nothing buffered, at whatever batch it is. -/
theorem Agrees.bare (buf : member.buf = {}) (decoder : member.decoder = [])
    (stalled : member.stalled = none)
    (held : member.held.isSome → ∀ partition, member.isOwned partition = true →
      partition ∈ member.paused)
    (free : member.work ≠ .polling → member.held = none)
    (batch : ∀ batch, member.alive = some batch → batch.FromMessages) : member.Agrees := by
  have nothing : member.buffered = [] := by
    unfold Member.buffered
    rw [decoder, stalled]
    rfl
  refine ⟨?_, ?_, ?_, free, fun _lives => nothing, batch⟩
  · rw [buf, nothing]
    rfl
  · intro waits partition owned
    rcases waits with impossible | holding
    · rw [stalled] at impossible
      cases impossible
    · exact held holding partition owned
  · intro impossible
    rw [stalled] at impossible
    cases impossible

/-- A member without a batch. -/
theorem Agrees.of_idle (idle : member.alive = none)
    (buf : member.buf = Buffer.takeAll member.buffered)
    (waits : member.stalled.isSome ∨ member.held.isSome → ∀ partition,
      member.isOwned partition = true → partition ∈ member.paused)
    (owns : member.stalled.isSome → ∃ partition, member.isOwned partition = true)
    (free : member.work ≠ .polling → member.held = none) : member.Agrees := by
  refine ⟨buf, waits, owns, free, ?_, ?_⟩
  · intro lives
    rw [idle] at lives
    cases lives
  · intro batch lives
    rw [idle] at lives
    cases lives

theorem Agrees.unowned (handle : Nat) (fence : Fence) :
    Agrees { handle := handle, fence := fence } := by
  apply Agrees.bare rfl rfl rfl
  · intro impossible
    cases impossible
  · exact fun other => absurd rfl other
  · intro batch impossible
    cases impossible

/-- Nothing is buffered while there is a batch. -/
theorem Agrees.empty (agrees : member.Agrees) {batch : KafkaBatch}
    (lives : member.alive = some batch) :
    member.buf = {} ∧ member.decoder = [] ∧ member.stalled = none := by
  have nothing := agrees.alone (by rw [lives]; rfl)
  have buf := agrees.buf
  rw [nothing] at buf
  obtain ⟨decoder, stalled⟩ := List.append_eq_nil_iff.mp nothing
  exact ⟨buf, decoder, by simpa using stalled⟩

/-! ### Messages -/

theorem admitMessage_owned (parts : Partitions) (partition : Int) (mark : MessageMark)
    (other : Int) :
    ((parts.admitMessage partition mark).1.lookup other).isSome = (parts.lookup other).isSome := by
  unfold Partitions.admitMessage
  cases found : parts.lookup partition with
  | none => rfl
  | some state =>
      cases state with
      | blocked block => rfl
      | ready next start reread =>
          apply isOwned_put
          rw [found]
          rfl

/-- Only a message of a partition that is owned is taken or blocks. -/
theorem admitMessage_decides {parts after : Partitions} {partition : Int} {mark : MessageMark}
    {admits : Admit} (decides : parts.admitMessage partition mark = (after, admits))
    (notDropped : ∀ why, admits ≠ .drop why) : (parts.lookup partition).isSome = true := by
  unfold Partitions.admitMessage at decides
  cases found : parts.lookup partition with
  | none =>
      rw [found] at decides
      cases decides
      exact absurd rfl (notDropped _)
  | some state => rfl

theorem Agrees.feed (agrees : member.Agrees) {message : KafkaMessage} {parts : Partitions}
    (owned : ∀ partition, (parts.lookup partition).isSome = member.isOwned partition)
    (own : member.isOwned message.partition = true) (stalled : member.stalled = none)
    (idle : member.alive = none) (fed : Fed) :
    ({ member with
      parts := parts
      buf := member.buf.take message.partition message.mark }.feed message fed).Agrees := by
  have buf : member.buf.take message.partition message.mark =
      Buffer.takeAll (member.decoder ++ [message]) := by
    rw [agrees.buf, Buffer.takeAll_snoc]
    unfold Member.buffered
    rw [stalled]
    simp
  cases fed with
  | taken =>
      apply Agrees.of_idle
      · exact idle
      · change member.buf.take message.partition message.mark =
          Buffer.takeAll ((member.decoder ++ [message]) ++ member.stalled.toList)
        rw [stalled]
        simpa using buf
      · intro waits partition held
        exact agrees.waits waits partition ((owned partition).symm.trans held)
      · intro waits
        change member.stalled.isSome at waits
        rw [stalled] at waits
        cases waits
      · exact agrees.free
  | waits =>
      apply Agrees.of_idle
      · exact idle
      · exact buf
      · intro _waits partition held
        exact List.mem_append_right _ ((@isOwned_iff { member with parts := parts } _).mp held)
      · exact fun _waits => ⟨message.partition, (owned _).trans own⟩
      · exact agrees.free

theorem Agrees.take (agrees : member.Agrees) (polling : member.work = .polling)
    (message : KafkaMessage) (fed : Fed) : (member.take message fed).Agrees := by
  unfold Member.take
  by_cases paused : message.partition ∈ member.paused
  · rw [if_pos paused]
    exact agrees
  · rw [if_neg paused]
    have owned := admitMessage_owned member.parts message.partition message.mark
    rcases decides : member.parts.admitMessage message.partition message.mark with
      ⟨parts, gap | why | block⟩
    · rw [decides] at owned
      have own : member.isOwned message.partition = true :=
        admitMessage_decides decides fun why impossible => by cases impossible
      have notWaiting : ¬(member.stalled.isSome ∨ member.held.isSome) := fun waits =>
        paused (agrees.waits waits _ own)
      obtain ⟨stalled, held⟩ := not_or.mp notWaiting
      rw [Option.not_isSome_iff_eq_none] at stalled held
      exact agrees.feed owned own stalled (idle_of_polling polling held) fed
    · rw [decides] at owned
      apply agrees.leaves
      exact ⟨rfl, rfl, rfl, rfl, rfl, owned, fun _ held => held⟩
    · rw [decides] at owned
      have own : member.isOwned message.partition = true :=
        admitMessage_decides decides fun why impossible => by cases impossible
      apply agrees.leaves
      have first : Leaves member { member with parts := parts } :=
        ⟨rfl, rfl, rfl, rfl, rfl, owned, fun _ held => held⟩
      apply first.trans
      apply Leaves.blockPartition
      rw [first.owned]
      exact own

theorem Agrees.feedStalled (agrees : member.Agrees) (fed : Fed) :
    (member.feedStalled fed).Agrees := by
  unfold Member.feedStalled
  cases waiting : member.stalled with
  | none => exact agrees
  | some message =>
      have idle : member.alive = none := by
        cases lives : member.alive with
        | none => rfl
        | some batch =>
            have nothing := (agrees.empty lives).2.2
            rw [waiting] at nothing
            cases nothing
      have buffered : member.buffered = member.decoder ++ [message] := by
        unfold Member.buffered
        rw [waiting]
        rfl
      have buf := agrees.buf
      rw [buffered] at buf
      cases fed with
      | taken =>
          apply Agrees.of_idle
          · exact idle
          · change member.buf = Buffer.takeAll ((member.decoder ++ [message]) ++ [])
            rw [List.append_nil]
            exact buf
          · intro _waits partition owned
            apply agrees.waits _ partition owned
            rw [waiting]
            exact Or.inl rfl
          · intro impossible
            cases impossible
          · exact agrees.free
      | waits =>
          apply agrees.leaves
          exact ⟨rfl, rfl, waiting.symm, rfl, rfl, fun _ => rfl,
            fun _ held => List.mem_append_left _ held⟩

/-! ### Resets and rechecks -/

theorem Agrees.repositionChanged (agrees : member.Agrees) (changed : List Int)
    (survives : Option KafkaBatch) : (member.repositionChanged changed survives).Agrees := by
  have owned : ∀ partition, (member.repositionChanged changed survives).isOwned partition =
      member.isOwned partition := fun partition => repositionChanged_isOwned partition
  have paused : ∀ partition, partition ∈ member.paused →
      partition ∈ (member.repositionChanged changed survives).paused := by
    intro partition held
    rw [repositionChanged_paused]
    exact List.mem_append_left _ held
  have held : (member.repositionChanged changed survives).held = member.held :=
    repositionChanged_held
  have work : (member.repositionChanged changed survives).work = member.work :=
    repositionChanged_work
  by_cases moved : member.bufferMoved changed
  · have dropped : member.undisturbed changed = member.discard := if_pos moved
    apply Agrees.bare
    · unfold Member.repositionChanged
      rw [dropped]
      rfl
    · unfold Member.repositionChanged
      rw [dropped]
      rfl
    · unfold Member.repositionChanged
      rw [dropped]
      rfl
    · intro holding partition own
      rw [held] at holding
      rw [owned] at own
      exact paused partition (agrees.waits (Or.inr holding) partition own)
    · rw [work, held]
      exact agrees.free
    · intro batch lives
      rw [repositionChanged_alive] at lives
      exact agrees.batch batch lives
  · have kept : member.undisturbed changed = member := if_neg moved
    apply agrees.leaves
    refine ⟨?_, ?_, ?_, held, work, owned, paused⟩
    · unfold Member.repositionChanged
      rw [kept]
    · unfold Member.repositionChanged
      rw [kept]
    · unfold Member.repositionChanged
      rw [kept]

theorem Agrees.refreshed (agrees : member.Agrees) {refresh : Refresh} {found : Member}
    {outcome : Except KafkaError (List Int)}
    (resets : member.refreshAndReset log refresh = (found, outcome)) :
    found.Agrees ∧ found.held = member.held ∧ found.alive = member.alive ∧
      found.work = member.work := by
  have leaves := @Leaves.refreshAndReset log member refresh
  rw [resets] at leaves
  exact ⟨agrees.leaves leaves, leaves.held, leaves.alive, leaves.work⟩

/-- What is done about what is blocked touches nothing else. -/
theorem Agrees.unblocked (agrees : member.Agrees) (blocked : Bool) :
    Agrees { member with blocked := blocked } :=
  agrees.leaves ⟨rfl, rfl, rfl, rfl, rfl, fun _ => rfl, fun _ held => held⟩

theorem Agrees.recheckBlocked (agrees : member.Agrees) {refresh : Refresh}
    {watermarks : Watermarks}
    (rechecks : member.recheckBlocked log explicit refresh watermarks = some after) :
    after.Agrees := by
  unfold Member.recheckBlocked at rechecks
  rcases resets : member.refreshAndReset log refresh with ⟨found, error | changed⟩
  · rw [resets] at rechecks
    dsimp only at rechecks
    by_cases fatal : error.kafkaClass = .consumerFatal
    · rw [if_pos fatal] at rechecks
      cases rechecks
    · rw [if_neg fatal] at rechecks
      cases rechecks
      exact (agrees.refreshed resets).1.unblocked _
  · rw [resets] at rechecks
    dsimp only at rechecks
    have again := (agrees.refreshed resets).1.repositionChanged changed none
    by_cases nobody : (found.repositionChanged changed none).toResolve.isEmpty
    · rw [if_pos nobody] at rechecks
      cases rechecks
      exact again.unblocked false
    · rw [if_neg nobody] at rechecks
      cases watermarks with
      | none =>
          cases rechecks
          exact again
      | some ranges =>
          cases rechecks
          apply (again.unblocked false).leaves
          apply Leaves.resolveAll
          intro partition among
          obtain ⟨block, held⟩ := toResolve_blocked among
          exact isOwned_of_lookup held

theorem Agrees.assign (agrees : member.Agrees) (polling : member.work = .polling)
    (nothing : member.parts = []) (free : member.held = none) {partitions : List Int}
    {refresh : Refresh} {watermarks : Watermarks}
    (assigns : member.assign log explicit partitions refresh watermarks = some after) :
    after.Agrees := by
  have stalled : member.stalled = none := by
    cases waiting : member.stalled with
    | none => rfl
    | some message =>
        obtain ⟨partition, owned⟩ := agrees.owns (by rw [waiting]; rfl)
        unfold isOwned at owned
        rw [nothing] at owned
        cases owned
  obtain ⟨handle, fence, rest⟩ := member.refreshThenReset_rest log partitions refresh
  unfold Member.assign Member.readStarts at assigns
  rcases resets : member.refreshThenReset log partitions refresh with ⟨found, outcome⟩
  rw [resets] at assigns rest
  dsimp only at rest
  have takes : ∀ (blocked : Bool) (start : Int → Start),
      ({ found with blocked := blocked }.takeStarts partitions start).Agrees := by
    intro blocked start
    rw [rest]
    apply Agrees.of_idle
    · exact idle_of_polling polling free
    · exact agrees.buf
    · intro waits
      change member.stalled.isSome ∨ member.held.isSome at waits
      rw [stalled, free] at waits
      rcases waits with impossible | impossible
      · cases impossible
      · cases impossible
    · intro waits
      change member.stalled.isSome at waits
      rw [stalled] at waits
      cases waits
    · exact agrees.free
  have blocked : ∀ error : KafkaError,
      (if error.kafkaClass = .consumerFatal then none
        else some ({ found with blocked := true }.takeStarts partitions fun _ =>
          .blocked .unresolved)) = some after → after.Agrees := by
    intro error took
    by_cases fatal : error.kafkaClass = .consumerFatal
    · rw [if_pos fatal] at took
      cases took
    · rw [if_neg fatal] at took
      cases took
      exact takes true _
  cases outcome with
  | some error => exact blocked error assigns
  | none =>
      cases watermarks with
      | none => exact blocked _ assigns
      | some ranges =>
          cases assigns
          exact takes found.blocked _

/-! ### Batches -/

theorem Agrees.closedBatch (agrees : member.Agrees) (stalled : member.stalled = none) :
    member.closedBatch.FromMessages := by
  have buffered : member.buffered = member.decoder := by
    unfold Member.buffered
    rw [stalled]
    exact List.append_nil _
  refine ⟨member.decoder, ?_, ?_, rfl⟩
  · rw [← buffered, ← agrees.buf]
    rfl
  · rw [← buffered, ← agrees.buf]
    rfl

theorem Agrees.closeBatch (agrees : member.Agrees) (free : member.held = none)
    (stalled : member.stalled = none) (leaving : Bool) : (member.closeBatch leaving).Agrees := by
  apply Agrees.bare
  · rfl
  · rfl
  · exact stalled
  · intro holding
    change member.held.isSome at holding
    rw [free] at holding
    cases holding
  · exact fun _other => free
  · intro batch lives
    cases lives
    exact agrees.closedBatch stalled

/-- A member with a batch at another step of it. -/
theorem Agrees.at_batch (agrees : member.Agrees) {batch : KafkaBatch}
    (lives : member.alive = some batch) (buf : after.buf = member.buf)
    (decoder : after.decoder = member.decoder) (stalled : after.stalled = member.stalled)
    (held : after.held.isSome → ∀ partition, after.isOwned partition = true →
      partition ∈ after.paused)
    (free : after.work ≠ .polling → after.held = none)
    (same : ∀ other, after.alive = some other → other = batch) : after.Agrees := by
  obtain ⟨emptyBuf, emptyDecoder, emptyStalled⟩ := agrees.empty lives
  apply Agrees.bare
  · rw [buf, emptyBuf]
  · rw [decoder, emptyDecoder]
  · rw [stalled, emptyStalled]
  · exact held
  · exact free
  · intro other now
    rw [same other now]
    exact agrees.batch batch lives

theorem Agrees.hold (agrees : member.Agrees) {batch : KafkaBatch}
    (lives : member.alive = some batch) (why : HeldFor) : (member.hold batch why).Agrees := by
  apply agrees.at_batch lives
  · rfl
  · rfl
  · rfl
  · exact fun _holding partition owned => pausesAll owned
  · exact fun other => absurd rfl other
  · intro other same
    cases same
    rfl

theorem Agrees.holdForClass (agrees : member.Agrees) {batch : KafkaBatch} {error : KafkaError}
    (lives : member.alive = some batch)
    (holds : member.holdForClass batch error = some after) : after.Agrees := by
  unfold Member.holdForClass at holds
  cases cls : error.kafkaClass with
  | consumerFatal =>
      rw [cls] at holds
      cases holds
  | replan | transient | capacity =>
      rw [cls] at holds
      cases holds
      exact agrees.hold lives _
  | blockingPipeline | blockingPartition | openRefusal =>
      rw [cls] at holds
      cases holds
      exact Agrees.hold (agrees.unblocked true) lives _

theorem Agrees.retry (agrees : member.Agrees) {batch : KafkaBatch}
    (lives : member.alive = some batch) (free : member.held = none) (leaving : Bool) :
    Agrees { member with work := .retry batch leaving } := by
  apply agrees.at_batch lives
  · rfl
  · rfl
  · rfl
  · intro holding
    change member.held.isSome at holding
    rw [free] at holding
    cases holding
  · exact fun _other => free
  · intro other same
    cases same
    rfl

/-- A batch that is dropped. -/
theorem Agrees.drops (agrees : member.Agrees) {batch : KafkaBatch}
    (lives : member.alive = some batch) (free : member.held = none) (blocked : Bool) :
    Agrees { member with work := .polling, blocked := blocked } := by
  apply agrees.at_batch lives
  · rfl
  · rfl
  · rfl
  · intro holding
    change member.held.isSome at holding
    rw [free] at holding
    cases holding
  · exact fun other => absurd rfl other
  · intro other same
    change member.held.map Held.batch = some other at same
    rw [free] at same
    cases same

theorem Agrees.afterFailure (agrees : member.Agrees) {batch : KafkaBatch} {error : KafkaError}
    {refresh : Refresh} (lives : member.alive = some batch) (free : member.held = none)
    (settles : member.afterFailure log refresh batch error = some after) : after.Agrees := by
  unfold Member.afterFailure at settles
  by_cases replans : error.kafkaClass = .replan
  · rw [if_pos replans] at settles
    unfold Member.resetInPlace at settles
    rcases resets : member.refreshAndReset log refresh with ⟨found, failure | changed⟩
    · rw [resets] at settles
      obtain ⟨again, _held, alive, _work⟩ := agrees.refreshed resets
      exact again.holdForClass (alive.trans lives) settles
    · rw [resets] at settles
      dsimp only at settles
      obtain ⟨again, held, alive, _work⟩ := agrees.refreshed resets
      by_cases stays : (found.movedPartition batch).isNone
      · rw [if_pos stays] at settles
        cases settles
        apply Agrees.retry (again.repositionChanged changed (some batch))
        · rw [repositionChanged_alive, alive, lives]
        · rw [repositionChanged_held, held, free]
      · rw [if_neg stays] at settles
        cases settles
        apply Agrees.drops (again.repositionChanged changed none)
        · rw [repositionChanged_alive, alive, lives]
        · rw [repositionChanged_held, held, free]
  · rw [if_neg replans] at settles
    exact agrees.holdForClass lives settles

theorem Agrees.failed (agrees : member.Agrees) {batch : KafkaBatch}
    (lives : member.alive = some batch) (free : member.held = none) (leaving : Bool)
    (error : KafkaError) : (member.failed batch leaving error).Agrees := by
  unfold Member.failed
  cases leaving with
  | true => exact .unowned _ _
  | false =>
      apply agrees.at_batch lives
      · rfl
      · rfl
      · rfl
      · intro holding
        change member.held.isSome at holding
        rw [free] at holding
        cases holding
      · exact fun _other => free
      · intro other same
        cases same
        rfl

theorem Agrees.heldDue (agrees : member.Agrees) (polling : member.work = .polling) {held : Held}
    {refresh : Refresh} (holding : member.held = some held)
    (due : member.heldDue log refresh held = some after) : after.Agrees := by
  have lives : member.alive = some held.batch := by
    unfold alive
    rw [polling, holding]
    rfl
  -- the batch is on its way from here, and nothing is held
  have taken : Agrees { member with held := none, work := .retry held.batch false } := by
    apply agrees.at_batch lives
    · rfl
    · rfl
    · rfl
    · intro impossible
      cases impossible
    · exact fun _other => rfl
    · intro other same
      cases same
      rfl
  unfold Member.heldDue at due
  dsimp only at due
  by_cases operator : held.heldFor = .operator
  · rw [if_pos operator] at due
    have free : Agrees { member with held := none } := by
      apply agrees.at_batch lives
      · rfl
      · rfl
      · rfl
      · intro impossible
        cases impossible
      · exact fun _other => rfl
      · intro other same
        unfold Member.alive at same
        dsimp only at same
        rw [polling] at same
        cases same
    have batch := agrees.batch held.batch lives
    obtain ⟨emptyBuf, emptyDecoder, emptyStalled⟩ := agrees.empty lives
    unfold Member.recheckForBatch at due
    rcases resets : Member.refreshAndReset log { member with held := none } refresh with
      ⟨found, failure | changed⟩
    · rw [resets] at due
      dsimp only at due
      obtain ⟨again, _held, _alive, _work⟩ := free.refreshed resets
      obtain ⟨handle, fence, rest⟩ :=
        Member.refreshAndReset_rest { member with held := none } log refresh
      rw [resets] at rest
      dsimp only at rest
      by_cases fatal : failure.kafkaClass = .consumerFatal
      · rw [if_pos fatal] at due
        cases due
      · rw [if_neg fatal] at due
        cases due
        rw [rest]
        apply Agrees.bare
        · exact emptyBuf
        · exact emptyDecoder
        · exact emptyStalled
        · exact fun _holding partition owned => pausesAll owned
        · exact fun other => absurd rfl other
        · intro other same
          cases same
          exact batch
    · rw [resets] at due
      dsimp only at due
      obtain ⟨again, unheld, idle, working⟩ := free.refreshed resets
      by_cases stays : (found.movedPartition held.batch).isNone
      · rw [if_pos stays] at due
        cases due
        have moved := again.repositionChanged changed (some held.batch)
        have still : (found.repositionChanged changed (some held.batch)).buffered = [] := by
          have bare : found.buf = {} := by
            obtain ⟨handle, fence, rest⟩ :=
              Member.refreshAndReset_rest { member with held := none } log refresh
            rw [resets] at rest
            dsimp only at rest
            rw [rest]
            exact emptyBuf
          have kept := repositionChanged_buf bare changed (some held.batch)
          obtain ⟨handle, fence, rest⟩ :=
            Member.refreshAndReset_rest { member with held := none } log refresh
          rw [resets] at rest
          dsimp only at rest
          unfold Member.buffered
          rw [kept.2.1, kept.2.2.1, rest]
          change member.decoder ++ member.stalled.toList = []
          rw [emptyDecoder, emptyStalled]
          rfl
        have heldNone : (found.repositionChanged changed (some held.batch)).held = none := by
          rw [repositionChanged_held, unheld]
        obtain ⟨decoder, stalled⟩ := List.append_eq_nil_iff.mp still
        apply Agrees.bare
        · have buf := moved.buf
          rw [still] at buf
          exact buf
        · exact decoder
        · simpa using stalled
        · intro holding
          change (found.repositionChanged changed (some held.batch)).held.isSome at holding
          rw [heldNone] at holding
          cases holding
        · exact fun _other => heldNone
        · intro other same
          cases same
          exact batch
      · rw [if_neg stays] at due
        cases due
        exact (again.repositionChanged changed none).unblocked false
  · rw [if_neg operator] at due
    cases due
    exact taken

/-! ### Commits -/

theorem Leaves.plan (member : Member) (attempt : Attempt) (batch : KafkaBatch) :
    Leaves member (member.plan log attempt batch).1 := by
  have fenced : ∀ fence : Fence, Leaves member { member with fence := fence } := fun _fence =>
    ⟨rfl, rfl, rfl, rfl, rfl, fun _ => rfl, fun _ held => held⟩
  unfold Member.plan
  dsimp only
  rcases member.fence.verify (attempt.reading.answer (member.table log)) batch.ranges with
    ⟨fence, _ | failure⟩
  · cases attempt.late with
    | none => exact fenced fence
    | some failure => exact fenced fence
  · exact fenced fence

theorem Agrees.tryCommit (agrees : member.Agrees) {batch : KafkaBatch}
    (lives : member.alive = some batch) (free : member.held = none) (attempt : Attempt) :
    (member.tryCommit log attempt batch).1.Agrees ∧
      (member.tryCommit log attempt batch).1.alive = some batch ∧
      (member.tryCommit log attempt batch).1.held = none := by
  have freshens : (member.freshen log batch attempt.aging).1.Agrees ∧
      (member.freshen log batch attempt.aging).1.alive = some batch ∧
      (member.freshen log batch attempt.aging).1.held = none := by
    unfold Member.freshen
    cases attempt.aging with
    | none => exact ⟨agrees, lives, free⟩
    | some refresh =>
        dsimp only
        rcases resets : member.refreshAndReset log refresh with ⟨found, failure | changed⟩
        · obtain ⟨again, held, alive, _work⟩ := agrees.refreshed resets
          exact ⟨again, alive.trans lives, held.trans free⟩
        · obtain ⟨again, held, alive, _work⟩ := agrees.refreshed resets
          refine ⟨again.repositionChanged changed (some batch), ?_, ?_⟩
          · dsimp only
            rw [repositionChanged_alive, alive, lives]
          · dsimp only
            rw [repositionChanged_held, held, free]
  unfold Member.tryCommit
  dsimp only
  generalize member.freshen log batch attempt.aging = result at freshens ⊢
  obtain ⟨found, _ | failure⟩ := result
  · dsimp only at freshens ⊢
    cases found.movedPartition batch with
    | some partition => exact freshens
    | none =>
        cases attempt.early with
        | some failure => exact freshens
        | none =>
            have leaves := @Leaves.plan log found attempt batch
            exact ⟨freshens.1.leaves leaves, leaves.alive.trans freshens.2.1,
              leaves.held.trans freshens.2.2⟩
  · exact freshens

theorem Agrees.attempted (agrees : member.Agrees) {batch : KafkaBatch} {leaving : Bool}
    (trying : member.work = .retry batch leaving) (attempt : Attempt) :
    (member.attempted log attempt batch leaving).Agrees := by
  have lives : member.alive = some batch := by
    unfold alive
    rw [trying]
  have free : member.held = none := by
    apply agrees.free
    rw [trying]
    intro impossible
    cases impossible
  obtain ⟨again, alive, held⟩ := @Agrees.tryCommit log member agrees batch lives free attempt
  unfold Member.attempted
  rcases tries : member.tryCommit log attempt batch with ⟨found, failure | offsets⟩
  · rw [tries] at again alive held
    exact Agrees.failed again alive held leaving failure
  · rw [tries] at again alive held
    dsimp only at again alive held ⊢
    apply again.at_batch alive
    · rfl
    · rfl
    · rfl
    · intro holding
      change found.held.isSome at holding
      rw [held] at holding
      cases holding
    · exact fun _other => held
    · intro other same
      cases same
      rfl

theorem Agrees.refused (agrees : member.Agrees) (error : KafkaError) :
    (member.refused error).Agrees := by
  unfold Member.refused
  cases working : member.work with
  | polling => exact agrees
  | retry batch leaving => exact agrees
  | failing batch failure => exact agrees
  | committing batch offsets leaving =>
      apply agrees.failed
      · unfold alive
        rw [working]
      · apply agrees.free
        rw [working]
        intro impossible
        cases impossible

theorem Agrees.heard (agrees : member.Agrees) (unwritable : Bool) :
    (member.heard log unwritable).Agrees := by
  unfold Member.heard
  cases working : member.work with
  | polling => exact agrees
  | retry batch leaving => exact agrees
  | failing batch failure => exact agrees
  | committing batch offsets leaving =>
      have lives : member.alive = some batch := by
        unfold alive
        rw [working]
      have free : member.held = none := by
        apply agrees.free
        rw [working]
        intro impossible
        cases impossible
      cases leaving with
      | true => exact .unowned _ _
      | false =>
          have settled : Agrees { member with
              handle := log.length + 1
              fence := member.fence.committed offsets
              work := .polling
              blocked := unwritable } :=
            (agrees.drops lives free unwritable).leaves
              ⟨rfl, rfl, rfl, rfl, rfl, fun _ => rfl, fun _ held => held⟩
          unfold Member.committed
          cases unwritable with
          | true => exact settled.leaves (.pause _ _)
          | false => exact settled

theorem Agrees.flushThenUnassign (agrees : member.Agrees) (polling : member.work = .polling) :
    member.flushThenUnassign.Agrees := by
  unfold Member.flushThenUnassign
  by_cases nothing : member.parts.isEmpty || member.blocked || member.stalled.isSome
  · rw [if_pos nothing]
    exact .unowned _ _
  · rw [if_neg nothing]
    cases holding : member.held with
    | some held =>
        have lives : member.alive = some held.batch := by
          unfold alive
          rw [polling, holding]
          rfl
        apply agrees.at_batch lives
        · rfl
        · rfl
        · rfl
        · intro impossible
          cases impossible
        · exact fun _other => rfl
        · intro other same
          cases same
          rfl
    | none =>
        dsimp only
        by_cases empty : member.buf.isEmpty
        · rw [if_pos empty]
          exact .unowned _ _
        · rw [if_neg empty]
          have stalled : member.stalled = none := by
            cases waits : member.stalled with
            | none => rfl
            | some message =>
                rw [waits] at nothing
                exact absurd (by simp) nothing
          exact agrees.closeBatch holding stalled true

/-- Whatever happens to a member, its buffer accounts for what its decoder and its schema wait
hold. -/
theorem Agrees.react (agrees : member.Agrees) {event : Event}
    (reacts : member.react log explicit event = some after) : after.Agrees := by
  unfold Member.react at reacts
  cases working : member.work with
  | retry batch leaving =>
      rw [working] at reacts
      cases event with
      | attempt tried =>
          cases reacts
          exact agrees.attempted working tried
      | _ => cases reacts
  | failing batch error =>
      rw [working] at reacts
      cases event with
      | settle refresh =>
          apply agrees.afterFailure _ _ reacts
          · unfold alive
            rw [working]
          · apply agrees.free
            rw [working]
            intro impossible
            cases impossible
      | _ => cases reacts
  | committing batch offsets leaving =>
      rw [working] at reacts
      cases reacts
  | polling =>
      rw [working] at reacts
      unfold Member.polled at reacts
      cases event with
      | assign partitions refresh watermarks =>
          dsimp only at reacts
          by_cases free : member.parts.isEmpty && member.held.isNone
          · rw [if_pos free] at reacts
            obtain ⟨nothing, unheld⟩ := Bool.and_eq_true_iff.mp free
            exact agrees.assign working (List.isEmpty_iff.mp nothing)
              (Option.isNone_iff_eq_none.mp unheld) reacts
          · rw [if_neg free] at reacts
            cases reacts
      | revoke =>
          cases reacts
          exact agrees.flushThenUnassign working
      | lost =>
          cases reacts
          exact .unowned _ _
      | deliver message fed =>
          cases reacts
          exact agrees.take working message fed
      | feedStalled fed =>
          cases reacts
          exact agrees.feedStalled fed
      | outOfRange watermarks =>
          cases reacts
          exact agrees.leaves (.outOfRange member watermarks)
      | close =>
          dsimp only at reacts
          by_cases closes : member.held.isNone && member.stalled.isNone && !member.buf.isEmpty
          · rw [if_pos closes] at reacts
            cases reacts
            obtain ⟨both, _buffered⟩ := Bool.and_eq_true_iff.mp closes
            obtain ⟨unheld, unstalled⟩ := Bool.and_eq_true_iff.mp both
            exact agrees.closeBatch (Option.isNone_iff_eq_none.mp unheld)
              (Option.isNone_iff_eq_none.mp unstalled) false
          · rw [if_neg closes] at reacts
            cases reacts
      | due refresh =>
          obtain ⟨held, holding, due⟩ := Option.bind_eq_some_iff.mp reacts
          exact agrees.heldDue working holding due
      | recheck refresh watermarks =>
          dsimp only at reacts
          by_cases free : member.held.isNone
          · rw [if_pos free] at reacts
            exact agrees.recheckBlocked reacts
          · rw [if_neg free] at reacts
            cases reacts
      | release unsought =>
          dsimp only at reacts
          by_cases free : member.held.isNone && member.stalled.isNone && !member.blocked
          · rw [if_pos free] at reacts
            cases reacts
            obtain ⟨both, _unblocked⟩ := Bool.and_eq_true_iff.mp free
            obtain ⟨unheld, unstalled⟩ := Bool.and_eq_true_iff.mp both
            apply Agrees.of_idle
            · exact idle_of_polling working (Option.isNone_iff_eq_none.mp unheld)
            · exact agrees.buf
            · intro waits
              change member.stalled.isSome ∨ member.held.isSome at waits
              rw [Option.isNone_iff_eq_none.mp unheld,
                Option.isNone_iff_eq_none.mp unstalled] at waits
              rcases waits with impossible | impossible
              · cases impossible
              · cases impossible
            · exact agrees.owns
            · exact agrees.free
          · rw [if_neg free] at reacts
            cases reacts
      | attempt tried => cases reacts
      | settle refresh => cases reacts

end Member

namespace Group

variable {explicit : Int → Option Int} {group after : Group}

/-- What every event of a group keeps of its buffers and batches. -/
structure Whole (group : Group) : Prop where
  members : ∀ member, member ∈ group.members → member.Agrees
  floating : ∀ sent, sent ∈ group.floating → sent.2.FromMessages
  log : ∀ commit, commit ∈ group.log → ∀ batch, commit.batch = some batch → batch.FromMessages

theorem Whole.sent (whole : group.Whole) {member : Member} (among : member ∈ group.members)
    {sent : Plan × KafkaBatch} (sends : member.sent = some sent) : sent.2.FromMessages := by
  unfold Member.sent at sends
  cases working : member.work with
  | polling =>
      rw [working] at sends
      cases sends
  | retry batch leaving =>
      rw [working] at sends
      cases sends
  | failing batch error =>
      rw [working] at sends
      cases sends
  | committing batch offsets leaving =>
      rw [working] at sends
      cases sends
      apply (whole.members member among).batch
      unfold Member.alive
      rw [working]

theorem Whole.set (whole : group.Whole) {index : Nat} {next : Member} (agrees : next.Agrees) :
    (group.set index next).Whole where
  members := by
    intro member among
    rcases List.mem_or_eq_of_mem_set among with old | same
    · exact whole.members member old
    · rw [same]
      exact agrees
  floating := whole.floating
  log := whole.log

theorem Whole.append (whole : group.Whole) {sent : Plan × KafkaBatch}
    (from_ : sent.2.FromMessages) : (group.append sent).Whole where
  members := whole.members
  floating := whole.floating
  log := by
    intro commit among batch holds
    rcases List.mem_append.mp among with old | new
    · exact whole.log commit old batch holds
    · rw [List.mem_singleton.mp new] at holds
      cases holds
      exact from_

theorem Whole.floats (whole : group.Whole) {floating : List (Plan × KafkaBatch)}
    (from_ : ∀ sent, sent ∈ floating → sent.2.FromMessages) :
    Whole { group with floating := floating } :=
  ⟨whole.members, from_, whole.log⟩

theorem Whole.step {event : Event} (whole : group.Whole)
    (happens : group.apply explicit event = some after) : after.Whole := by
  cases event with
  | ofMember index event =>
      obtain ⟨member, found, reacts⟩ := Option.bind_eq_some_iff.mp happens
      obtain ⟨next, reacted, same⟩ := Option.bind_eq_some_iff.mp reacts
      cases same
      exact whole.set ((whole.members member (List.mem_of_getElem? found)).react reacted)
  | landed index unwritable =>
      obtain ⟨member, found, lands⟩ := Option.bind_eq_some_iff.mp happens
      obtain ⟨sent, sends, lands⟩ := Option.bind_eq_some_iff.mp lands
      have among := List.mem_of_getElem? found
      by_cases through : sent.1.letThrough group.txns
      · rw [if_pos through] at lands
        cases lands
        exact (whole.append (whole.sent among sends)).set
          ((whole.members member among).heard unwritable)
      · rw [if_neg through] at lands
        cases lands
  | unheard index error =>
      obtain ⟨member, found, lands⟩ := Option.bind_eq_some_iff.mp happens
      obtain ⟨sent, sends, lands⟩ := Option.bind_eq_some_iff.mp lands
      have among := List.mem_of_getElem? found
      by_cases through : sent.1.letThrough group.txns
      · rw [if_pos through] at lands
        cases lands
        exact (whole.append (whole.sent among sends)).set
          ((whole.members member among).refused error)
      · rw [if_neg through] at lands
        cases lands
  | refused index error =>
      obtain ⟨member, found, refuses⟩ := Option.bind_eq_some_iff.mp happens
      obtain ⟨_sent, _sends, same⟩ := Option.bind_eq_some_iff.mp refuses
      cases same
      exact whole.set ((whole.members member (List.mem_of_getElem? found)).refused error)
  | timedOut index =>
      obtain ⟨member, found, leaves⟩ := Option.bind_eq_some_iff.mp happens
      obtain ⟨sent, sends, leaves⟩ := Option.bind_eq_some_iff.mp leaves
      by_cases leaving : member.leaves
      · rw [if_pos leaving] at leaves
        cases leaves
        have from_ : ∀ other, other ∈ sent :: group.floating → other.2.FromMessages := by
          intro other among
          rcases List.mem_cons.mp among with same | before
          · rw [same]
            exact whole.sent (List.mem_of_getElem? found) sends
          · exact whole.floating other before
        exact (whole.floats from_).set (.unowned _ _)
      · rw [if_neg leaving] at leaves
        cases leaves
  | restarted index handle =>
      obtain ⟨member, found, same⟩ := Option.bind_eq_some_iff.mp happens
      cases same
      have from_ : ∀ other, other ∈ member.sent.toList ++ group.floating →
          other.2.FromMessages := by
        intro other among
        rcases List.mem_append.mp among with sends | before
        · exact whole.sent (List.mem_of_getElem? found) (Option.mem_toList.mp sends)
        · exact whole.floating other before
      exact (whole.floats from_).set (.unowned _ _)
  | joined handle =>
      cases happens
      refine ⟨?_, whole.floating, whole.log⟩
      intro member among
      rcases List.mem_append.mp among with old | new
      · exact whole.members member old
      · rw [List.mem_singleton.mp new]
        exact .unowned _ _
  | lands index =>
      obtain ⟨sent, found, lands⟩ := Option.bind_eq_some_iff.mp happens
      by_cases through : sent.1.letThrough group.txns
      · rw [if_pos through] at lands
        cases lands
        apply (whole.append (whole.floating sent (List.mem_of_getElem? found))).floats
        exact fun other among => whole.floating other (List.mem_of_mem_eraseIdx among)
      · rw [if_neg through] at lands
        cases lands
  | foreign txns =>
      cases happens
      refine ⟨whole.members, whole.floating, ?_⟩
      intro commit among batch holds
      rcases List.mem_append.mp among with old | new
      · exact whole.log commit old batch holds
      · rw [List.mem_singleton.mp new] at holds
        cases holds

end Group

end Ddi.Kafka
