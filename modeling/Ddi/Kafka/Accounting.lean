/-
What a member has accounted for of each partition: its offset in the target, what its
buffer took past that, and the offset it expects next.

Without a batch on its way, the messages buffered of a partition are the topic's past
its offset and up to the last one taken. With one, the batch holds those past the
offset it was read from.
-/

import Ddi.Kafka.MemberSemantics
import Ddi.Kafka.Topic

namespace Ddi.Kafka

open Registers (Writes read)

/-- What the brokers have, as one member meets it. -/
structure Brokers where
  topic : Topic
  explicit : Int → Option Int
  low : Int → Int
  high : Int → Int
  /-- The offset the member's consumer delivers a partition from next. -/
  position : Int → Int

namespace Member

variable (brokers : Brokers) (member : Member)

/-- A partition's offset in the target, or the one before its first. -/
def settledAt (partition : Int) : Int :=
  accounted (member.fence.baseOffset partition) (brokers.explicit partition)

def lastTaken (partition : Int) : Option Int := (member.buf.ranges.lookup partition).map Prod.snd

/-- The last offset accounted for, by the target or by the buffer. -/
def reached (partition : Int) : Int :=
  (member.lastTaken partition).getD (member.settledAt brokers partition)

/-- What the buffer took, the message that waits for its schema included. -/
def buffered : List KafkaMessage := member.decoder ++ member.stalled.toList

/-- The batch a member holds or tries to commit. -/
def alive : Option KafkaBatch :=
  match member.work with
  | .polling => member.held.map Held.batch
  | .retry batch _ => some batch
  | .committing batch _ _ => some batch
  | .failing batch _ => some batch

/-- A ready partition waits to read its stored offset again. -/
def Rereads (partition next : Int) (reread : Option Reread) : Prop :=
  ∃ expected, reread = some expected ∧ expected.offset = next ∧
    member.fence.baseOffset partition = some next

/-- What holds of the partitions whatever the member is doing. -/
structure Tracks : Prop where
  blocked : ∀ partition block, member.parts.lookup partition = some (.blocked block) →
    partition ∈ member.paused
  position : ∀ partition next start reread,
    member.parts.lookup partition = some (.ready next start reread) →
      partition ∉ member.paused → ∀ message, message ∈ brokers.topic.messages partition →
        next ≤ message.mark.offset → brokers.position partition ≤ message.mark.offset
  target : ∀ partition next start reread,
    member.parts.lookup partition = some (.ready next start reread) →
      member.nextInTarget partition = some (member.settledAt brokers partition + 1)

/-- What holds of the buffer while no batch is on its way. -/
structure Fills : Prop where
  rows : ∀ partition, member.buffered.filter (fun message => message.partition == partition) =
    brokers.topic.between partition (member.settledAt brokers partition)
      (member.reached brokers partition)
  past : ∀ partition last, member.lastTaken partition = some last →
    member.settledAt brokers partition < last
  owned : ∀ partition last, member.lastTaken partition = some last →
    member.isOwned partition = true
  ready : ∀ partition next start reread,
    member.parts.lookup partition = some (.ready next start reread) →
      (reread = none ∧ brokers.topic.Next partition (member.reached brokers partition) next ∧
        ∀ last, member.lastTaken partition = some last → next ≤ brokers.high partition) ∨
      member.lastTaken partition = none ∧ member.Rereads partition next reread
  trimmed : ∀ partition block last,
    member.parts.lookup partition = some (.blocked block) →
      member.lastTaken partition = some last →
        member.settledAt brokers partition + 1 < brokers.low partition
  empty : member.buf.isEmpty = true → member.buf.ranges = []
  stalls : ∀ message, member.stalled = some message → ∀ partition,
    member.isOwned partition = true → partition ∈ member.paused

end Member

/-- A batch holds, of each partition it read, exactly the rows past the offset it was read from
and up to the last one read. -/
def KafkaBatch.Exact (brokers : Brokers) (batch : KafkaBatch) : Prop :=
  ∀ partition,
    (∃ first last base, batch.ranges.lookup partition = some (first, last) ∧
      batch.bases.lookup partition = some base ∧
      batch.decoded.filter (fun message => message.partition == partition) =
        (brokers.topic.between partition (accounted base (brokers.explicit partition)) last).filter
          fun message => message.payload == .row) ∨
    batch.ranges.lookup partition = none ∧
      batch.decoded.filter (fun message => message.partition == partition) = []

namespace Member

/-- Every partition of a batch is owned, at the offset the batch was read from. -/
def AtBases (member : Member) (batch : KafkaBatch) : Prop :=
  ∀ partition range, batch.ranges.lookup partition = some range →
    member.isOwned partition = true ∧
      batch.bases.lookup partition = some (member.fence.baseOffset partition)

/-- What holds of a batch on its way and of the partitions beside it. -/
structure Holds (brokers : Brokers) (member : Member) (batch : KafkaBatch) : Prop where
  buf : member.buf = {}
  decoder : member.decoder = []
  stalled : member.stalled = none
  exact : batch.Exact brokers
  elsewhere : ∀ partition next start reread, batch.ranges.lookup partition = none →
    member.parts.lookup partition = some (.ready next start reread) →
      (reread = none ∧
        brokers.topic.Next partition (member.settledAt brokers partition) next) ∨
      member.Rereads partition next reread
  read : ∀ partition range next start reread, batch.ranges.lookup partition = some range →
    member.parts.lookup partition = some (.ready next start reread) → reread = none
  within : member.AtBases batch →
    ∀ partition first last next start reread, batch.ranges.lookup partition = some (first, last) →
      member.parts.lookup partition = some (.ready next start reread) →
        brokers.topic.Next partition last next
  paused : member.held.isSome → ∀ partition, member.isOwned partition = true →
    partition ∈ member.paused

/-- What every event keeps of a member. -/
structure Accounts (brokers : Brokers) (member : Member) : Prop where
  tracks : member.Tracks brokers
  fills : member.alive = none → member.Fills brokers
  holds : ∀ batch, member.alive = some batch → member.Holds brokers batch

variable {brokers : Brokers} {member after : Member}

/-! ### What is the same of two members -/

/-- Everything the accounting is about is the same in both. -/
structure SameData (before after : Member) : Prop where
  base : after.fence.base = before.fence.base
  parts : after.parts = before.parts
  buf : after.buf = before.buf
  decoder : after.decoder = before.decoder
  stalled : after.stalled = before.stalled
  unbasedStart : after.unbasedStart = before.unbasedStart

theorem baseOffset_congr {one other : Fence} (base : other.base = one.base) (partition : Int) :
    other.baseOffset partition = one.baseOffset partition := by
  unfold Fence.baseOffset
  rw [base]

theorem SameData.settledAt (same : SameData member after) (partition : Int) :
    after.settledAt brokers partition = member.settledAt brokers partition := by
  unfold Member.settledAt
  rw [baseOffset_congr same.base]

theorem SameData.lastTaken (same : SameData member after) (partition : Int) :
    after.lastTaken partition = member.lastTaken partition := by
  unfold Member.lastTaken
  rw [same.buf]

theorem SameData.reached (same : SameData member after) (partition : Int) :
    after.reached brokers partition = member.reached brokers partition := by
  unfold Member.reached
  rw [same.lastTaken, same.settledAt]

theorem SameData.buffered (same : SameData member after) : after.buffered = member.buffered := by
  unfold Member.buffered
  rw [same.decoder, same.stalled]

theorem SameData.isOwned (same : SameData member after) (partition : Int) :
    after.isOwned partition = member.isOwned partition := by
  unfold Member.isOwned
  rw [same.parts]

theorem SameData.nextInTarget (same : SameData member after) (partition : Int) :
    after.nextInTarget partition = member.nextInTarget partition := by
  unfold Member.nextInTarget
  rw [baseOffset_congr same.base, same.unbasedStart]

theorem SameData.atBases (same : SameData member after) {batch : KafkaBatch}
    (stays : after.AtBases batch) : member.AtBases batch := by
  intro partition range inside
  obtain ⟨own, base⟩ := stays partition range inside
  rw [same.isOwned] at own
  rw [baseOffset_congr same.base] at base
  exact ⟨own, base⟩

theorem SameData.rereads (same : SameData member after) {partition next : Int}
    {reread : Option Reread} (rereads : member.Rereads partition next reread) :
    after.Rereads partition next reread := by
  obtain ⟨expected, waits, there, base⟩ := rereads
  exact ⟨expected, waits, there, (baseOffset_congr same.base partition).trans base⟩

theorem Tracks.of_same (tracks : member.Tracks brokers) (same : SameData member after)
    (paused : ∀ partition, partition ∈ member.paused → partition ∈ after.paused) :
    after.Tracks brokers where
  blocked := by
    intro partition block found
    rw [same.parts] at found
    exact paused partition (tracks.blocked partition block found)
  position := by
    intro partition next start reread found reading
    rw [same.parts] at found
    exact tracks.position partition next start reread found fun held =>
      reading (paused partition held)
  target := by
    intro partition next start reread found
    rw [same.parts] at found
    rw [same.nextInTarget, same.settledAt]
    exact tracks.target partition next start reread found

theorem Fills.of_same (fills : member.Fills brokers) (same : SameData member after)
    (paused : ∀ partition, partition ∈ member.paused → partition ∈ after.paused) :
    after.Fills brokers where
  rows := by
    intro partition
    rw [same.buffered, same.settledAt, same.reached]
    exact fills.rows partition
  past := by
    intro partition last
    rw [same.lastTaken, same.settledAt]
    exact fills.past partition last
  owned := by
    intro partition last
    rw [same.lastTaken, same.isOwned]
    exact fills.owned partition last
  ready := by
    intro partition next start reread found
    rw [same.parts] at found
    rw [same.lastTaken, same.reached]
    exact (fills.ready partition next start reread found).imp_right fun ⟨nothing, rereads⟩ =>
      ⟨nothing, same.rereads rereads⟩
  trimmed := by
    intro partition block last found
    rw [same.parts] at found
    rw [same.lastTaken, same.settledAt]
    exact fills.trimmed partition block last found
  empty := by
    rw [same.buf]
    exact fills.empty
  stalls := by
    intro message waits partition own
    rw [same.stalled] at waits
    rw [same.isOwned] at own
    exact paused partition (fills.stalls message waits partition own)

theorem Holds.of_same {batch : KafkaBatch} (holds : member.Holds brokers batch)
    (same : SameData member after)
    (paused : after.held.isSome → ∀ partition, after.isOwned partition = true →
      partition ∈ after.paused) : after.Holds brokers batch where
  buf := by rw [same.buf, holds.buf]
  decoder := by rw [same.decoder, holds.decoder]
  stalled := by rw [same.stalled, holds.stalled]
  exact := holds.exact
  elsewhere := by
    intro partition next start reread outside found
    rw [same.parts] at found
    rw [same.settledAt]
    exact (holds.elsewhere partition next start reread outside found).imp_right same.rereads
  read := by
    intro partition range next start reread inside found
    rw [same.parts] at found
    exact holds.read partition range next start reread inside found
  within := by
    intro stays partition first last next start reread inside found
    rw [same.parts] at found
    exact holds.within (same.atBases stays) partition first last next start reread inside found
  paused := paused

theorem Tracks.unowned (nothing : member.parts = []) : member.Tracks brokers where
  blocked := by
    intro partition block found
    rw [nothing] at found
    cases found
  position := by
    intro partition next start reread found
    rw [nothing] at found
    cases found
  target := by
    intro partition next start reread found
    rw [nothing] at found
    cases found

/-- A buffer that took nothing fills, where what is ready expects the next message by the target. -/
theorem Fills.unread (nothing : ∀ partition, member.lastTaken partition = none)
    (bare : member.buffered = []) (empty : member.buf.isEmpty = true → member.buf.ranges = [])
    (ready : ∀ partition next start reread,
      member.parts.lookup partition = some (.ready next start reread) →
        (reread = none ∧
          brokers.topic.Next partition (member.settledAt brokers partition) next) ∨
        member.Rereads partition next reread) : member.Fills brokers := by
  have atTarget : ∀ partition,
      member.reached brokers partition = member.settledAt brokers partition := by
    intro partition
    unfold Member.reached
    rw [nothing]
    rfl
  constructor
  · intro partition
    rw [atTarget, Topic.between_self, bare]
    rfl
  · intro partition last taken
    rw [nothing] at taken
    cases taken
  · intro partition last taken
    rw [nothing] at taken
    cases taken
  · intro partition next start reread found
    rw [atTarget]
    rcases ready partition next start reread found with ⟨fresh, clear⟩ | rereads
    · apply Or.inl
      refine ⟨fresh, clear, ?_⟩
      intro last taken
      rw [nothing] at taken
      cases taken
    · exact Or.inr ⟨nothing partition, rereads⟩
  · intro partition block last _found taken
    rw [nothing] at taken
    cases taken
  · exact empty
  · intro message waits
    unfold Member.buffered at bare
    rw [waits] at bare
    exact absurd (List.append_eq_nil_iff.mp bare).2 (List.cons_ne_nil _ _)

/-- A buffer that is empty fills. -/
theorem Fills.emptied (buf : member.buf = {}) (decoder : member.decoder = [])
    (stalled : member.stalled = none)
    (ready : ∀ partition next start reread,
      member.parts.lookup partition = some (.ready next start reread) →
        (reread = none ∧
          brokers.topic.Next partition (member.settledAt brokers partition) next) ∨
        member.Rereads partition next reread) : member.Fills brokers := by
  apply Fills.unread
  · intro partition
    unfold Member.lastTaken
    rw [buf]
    rfl
  · unfold Member.buffered
    rw [decoder, stalled]
    rfl
  · intro _empty
    rw [buf]
  · exact ready

/-- A member that owns nothing and is in the middle of nothing. -/
theorem Accounts.idle (handle : Nat) (fence : Fence) :
    Accounts brokers { handle := handle, fence := fence } where
  tracks := .unowned rfl
  fills := fun _ => .emptied rfl rfl rfl fun partition next start reread found => by cases found
  holds := by
    intro batch lives
    cases lives

theorem Accounts.unassign : member.unassign.Accounts brokers := .idle _ _

/-- Retention and new messages leave what was accounted for. -/
theorem Accounts.grows {low high : Int → Int} (accounts : member.Accounts brokers)
    (trims : ∀ partition, brokers.low partition ≤ low partition)
    (adds : ∀ partition, brokers.high partition ≤ high partition) :
    member.Accounts { brokers with low := low, high := high } where
  tracks := ⟨accounts.tracks.blocked, accounts.tracks.position, accounts.tracks.target⟩
  fills := by
    intro idle
    have fills := accounts.fills idle
    refine ⟨fills.rows, fills.past, fills.owned, ?_, ?_, fills.empty, fills.stalls⟩
    · intro partition next start reread found
      rcases fills.ready partition next start reread found with ⟨fresh, clear, bounds⟩ | rereads
      · apply Or.inl
        refine ⟨fresh, clear, ?_⟩
        intro last taken
        exact Int.le_trans (bounds last taken) (adds partition)
      · exact Or.inr rereads
    · intro partition block last found taken
      exact Int.lt_of_lt_of_le (fills.trimmed partition block last found taken) (trims partition)
  holds := by
    intro batch lives
    have holds := accounts.holds batch lives
    exact ⟨holds.buf, holds.decoder, holds.stalled, holds.exact, holds.elsewhere, holds.read,
      holds.within, holds.paused⟩

end Member

end Ddi.Kafka
