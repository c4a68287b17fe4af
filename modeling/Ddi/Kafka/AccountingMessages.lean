/-
A message that is taken keeps the accounting, as what is met while polling does: a partition out of
its range, one released again, a batch closed over what was taken.
-/

import Ddi.Kafka.AccountingResets

namespace Ddi.Kafka

namespace Brokers

variable (brokers : Brokers)

/-- The consumer hands over the next message from its position on, below the high watermark. -/
structure Delivers (message : KafkaMessage) : Prop where
  held : message ∈ brokers.topic.messages message.partition
  first : ∀ other, other ∈ brokers.topic.messages message.partition →
    brokers.position message.partition ≤ other.mark.offset →
      message.mark.offset ≤ other.mark.offset
  below : message.mark.offset < brokers.high message.partition

/-- The consumer's position after a message. -/
def past (message : KafkaMessage) : Brokers :=
  { brokers with
    position := fun partition =>
      if partition = message.partition then message.mark.offset + 1
      else brokers.position partition }

/-- Where the consumer stands once partitions are released: at what each expects. -/
def released (before after : Member) : Brokers :=
  { brokers with
    position := fun partition =>
      if partition ∈ before.paused ∧ partition ∉ after.paused then
        (before.nextExpected partition).getD (brokers.position partition)
      else brokers.position partition }

/-- Where the consumer stands once partitions are assigned: at the start of each. -/
def assigned (after : Member) : Brokers :=
  { brokers with
    position := fun partition =>
      (after.started.lookup partition).getD (brokers.position partition) }

/-- The watermarks of all the partitions. -/
def Covers (watermarks : Watermarks) (partitions : List Int) : Prop :=
  ∀ ranges, watermarks = some ranges → ∀ partition, partition ∈ partitions →
    (ranges.lookup partition).isSome

/-- The watermarks read are the brokers' own. -/
def Truthful (watermarks : Watermarks) : Prop :=
  ∀ ranges, watermarks = some ranges → ∀ partition range,
    ranges.lookup partition = some range →
      range = (brokers.low partition, brokers.high partition)

end Brokers

namespace Member

variable {brokers : Brokers} {member after : Member}

/-! ### Where the consumer stands -/

/-- The accounting asks of a position only that it is not past what an unpaused partition
expects. -/
theorem Accounts.stands (accounts : member.Accounts brokers) {position : Int → Int}
    (reads : ∀ partition next start reread,
      member.parts.lookup partition = some (.ready next start reread) →
        partition ∉ member.paused → ∀ message, message ∈ brokers.topic.messages partition →
          next ≤ message.mark.offset → position partition ≤ message.mark.offset) :
    member.Accounts { brokers with position := position } where
  tracks := ⟨accounts.tracks.blocked, reads, accounts.tracks.target⟩
  fills := by
    intro idle
    have fills := accounts.fills idle
    exact ⟨fills.rows, fills.past, fills.owned, fills.ready, fills.trimmed, fills.empty,
      fills.stalls⟩
  holds := by
    intro batch lives
    have holds := accounts.holds batch lives
    exact ⟨holds.buf, holds.decoder, holds.stalled, holds.exact, holds.elsewhere, holds.read,
      holds.within, holds.paused⟩

/-- A message that changes nothing leaves the accounting, where it is no message that an unpaused
partition waits for. -/
theorem Accounts.passed (accounts : member.Accounts brokers) {message : KafkaMessage}
    (known : ∀ next start reread,
      member.parts.lookup message.partition = some (.ready next start reread) →
        message.partition ∉ member.paused → message.mark.offset < next) :
    member.Accounts (brokers.past message) := by
  apply accounts.stands
  intro partition next start reread found reading other among expected
  by_cases same : partition = message.partition
  · rw [if_pos same]
    rw [same] at found reading
    have before := known next start reread found reading
    omega
  · rw [if_neg same]
    exact accounts.tracks.position partition next start reread found reading other among expected

/-! ### A message taken -/

/-- What taking a message changes. -/
structure Takes (member after : Member) (message : KafkaMessage) (start : Int) : Prop where
  parts : ∀ partition, after.parts.lookup partition =
    if partition = message.partition then some (.ready (message.mark.offset + 1) start none)
    else member.parts.lookup partition
  fence : after.fence = member.fence
  unbasedStart : after.unbasedStart = member.unbasedStart
  buf : after.buf = member.buf.take message.partition message.mark
  buffered : after.buffered = member.buffered ++ [message]
  paused : ∀ partition, partition ∈ member.paused → partition ∈ after.paused
  stalls : ∀ own, after.stalled = some own → ∀ partition, after.isOwned partition = true →
    partition ∈ after.paused
  alive : after.alive = member.alive

variable {message : KafkaMessage} {next start own : Int} {reread : Option Reread}

theorem Takes.settledAt (takes : Takes member after message own) (partition : Int) :
    after.settledAt brokers partition = member.settledAt brokers partition :=
  settledAt_of_base (baseOffset_congr (by rw [takes.fence]) partition)

theorem Takes.lastTaken (takes : Takes member after message own) (partition : Int) :
    after.lastTaken partition =
      if partition = message.partition then some message.mark.offset
      else member.lastTaken partition := by
  unfold Member.lastTaken
  rw [takes.buf]
  unfold Buffer.take
  dsimp only
  rw [Assoc.lookup_put]
  by_cases same : partition = message.partition
  · rw [if_pos same, if_pos same]
    cases member.buf.ranges.lookup message.partition with
    | none => rfl
    | some range => rfl
  · rw [if_neg same, if_neg same]

theorem Takes.reached (takes : Takes member after message own) (partition : Int) :
    after.reached brokers partition =
      if partition = message.partition then message.mark.offset
      else member.reached brokers partition := by
  unfold Member.reached
  rw [takes.lastTaken, takes.settledAt]
  by_cases same : partition = message.partition
  · rw [if_pos same, if_pos same]
    rfl
  · rw [if_neg same, if_neg same]

theorem Takes.isOwned (takes : Takes member after message own)
    (found : member.parts.lookup message.partition = some (.ready next start reread))
    (partition : Int) : after.isOwned partition = member.isOwned partition := by
  unfold Member.isOwned
  rw [takes.parts]
  by_cases same : partition = message.partition
  · rw [if_pos same, same, found]
    rfl
  · rw [if_neg same]

/-- What a partition has reached is not before its offset in the target. -/
theorem Fills.settled_le (fills : member.Fills brokers) (partition : Int) :
    member.settledAt brokers partition ≤ member.reached brokers partition := by
  unfold Member.reached
  cases taken : member.lastTaken partition with
  | none => exact Int.le_refl _
  | some last => exact Int.le_of_lt (fills.past partition last taken)

/-- The next message past what an unpaused partition has reached is the one delivered. -/
theorem Fills.delivered (fills : member.Fills brokers) (tracks : member.Tracks brokers)
    (delivers : brokers.Delivers message) (reading : message.partition ∉ member.paused)
    (found : member.parts.lookup message.partition = some (.ready next start reread))
    (past : reread = none ∧ next ≤ message.mark.offset ∨
      ∃ expected, reread = some expected ∧ expected.offset < message.mark.offset) :
    brokers.topic.Next message.partition (member.reached brokers message.partition)
      message.mark.offset := by
  have standing : ∀ other, other ∈ brokers.topic.messages message.partition →
      next ≤ other.mark.offset → message.mark.offset ≤ other.mark.offset := by
    intro other among expected
    exact delivers.first other among
      (tracks.position message.partition next start reread found reading other among expected)
  have gap : brokers.topic.Clear message.partition (member.reached brokers message.partition) next ∧
      member.reached brokers message.partition < message.mark.offset := by
    rcases fills.ready message.partition next start reread found with
      ⟨fresh, beyond, _within⟩ | ⟨nothing, expected, waits, there, base⟩
    · rcases past with ⟨_fresh, expects⟩ | ⟨expected, waits, _past⟩
      · exact ⟨beyond.clear, Int.lt_of_lt_of_le beyond.ahead expects⟩
      · rw [fresh] at waits
        cases waits
    · have atTarget : member.reached brokers message.partition = next := by
        unfold Member.reached Member.settledAt
        rw [nothing, base]
        rfl
      rw [atTarget]
      constructor
      · exact fun other _among later => Int.le_of_lt later
      · rcases past with ⟨fresh, _expects⟩ | ⟨other, same, later⟩
        · rw [fresh] at waits
          cases waits
        · rw [waits] at same
          cases same
          rw [← there]
          exact later
  constructor
  · exact gap.2
  · intro other among later
    exact standing other among (gap.1 other among later)

theorem Tracks.takes (tracks : member.Tracks brokers) (takes : Takes member after message start)
    (found : member.parts.lookup message.partition = some (.ready next start reread)) :
    after.Tracks (brokers.past message) where
  blocked := by
    intro partition block blocked
    rw [takes.parts] at blocked
    by_cases same : partition = message.partition
    · rw [if_pos same] at blocked
      cases blocked
    · rw [if_neg same] at blocked
      exact takes.paused partition (tracks.blocked partition block blocked)
  position := by
    intro partition expected first again ready reading other among later
    unfold Brokers.past
    dsimp only
    rw [takes.parts] at ready
    by_cases same : partition = message.partition
    · rw [if_pos same] at ready ⊢
      cases ready
      exact later
    · rw [if_neg same] at ready ⊢
      exact tracks.position partition expected first again ready
        (fun held => reading (takes.paused partition held)) other among later
  target := by
    intro partition expected first again ready
    have before : ∃ old since rest,
        member.parts.lookup partition = some (.ready old since rest) := by
      rw [takes.parts] at ready
      by_cases same : partition = message.partition
      · rw [same]
        exact ⟨next, start, reread, found⟩
      · rw [if_neg same] at ready
        exact ⟨expected, first, again, ready⟩
    obtain ⟨old, since, rest, held⟩ := before
    have target := tracks.target partition old since rest held
    change after.nextInTarget partition = some (after.settledAt brokers partition + 1)
    rw [takes.settledAt]
    unfold Member.nextInTarget at target ⊢
    rw [takes.fence, takes.unbasedStart]
    exact target

theorem Fills.takes (fills : member.Fills brokers) (takes : Takes member after message start)
    (delivers : brokers.Delivers message)
    (found : member.parts.lookup message.partition = some (.ready next start reread))
    (beyond : brokers.topic.Next message.partition
      (member.reached brokers message.partition) message.mark.offset) :
    after.Fills (brokers.past message) := by
  have settled := fills.settled_le message.partition
  constructor
  · intro partition
    change after.buffered.filter _ = brokers.topic.between partition
      (after.settledAt brokers partition) (after.reached brokers partition)
    rw [takes.buffered, takes.settledAt, takes.reached, List.filter_append, fills.rows]
    by_cases same : partition = message.partition
    · subst same
      rw [if_pos rfl, Topic.between_snoc delivers.held settled beyond.ahead beyond.clear]
      simp
    · rw [if_neg same]
      have apart : message.partition ≠ partition := fun equal => same equal.symm
      simp [apart]
  · intro partition last taken
    change after.settledAt brokers partition < last
    rw [takes.settledAt]
    rw [takes.lastTaken] at taken
    by_cases same : partition = message.partition
    · rw [if_pos same] at taken
      cases taken
      rw [same]
      exact Int.lt_of_le_of_lt settled beyond.ahead
    · rw [if_neg same] at taken
      exact fills.past partition last taken
  · intro partition last taken
    rw [takes.isOwned found]
    rw [takes.lastTaken] at taken
    by_cases same : partition = message.partition
    · unfold Member.isOwned
      rw [same, found]
      rfl
    · rw [if_neg same] at taken
      exact fills.owned partition last taken
  · intro partition expected first again ready
    change (again = none ∧ brokers.topic.Next partition (after.reached brokers partition) expected ∧
      ∀ last, after.lastTaken partition = some last → expected ≤ brokers.high partition) ∨
      after.lastTaken partition = none ∧ after.Rereads partition expected again
    rw [takes.parts] at ready
    rw [takes.lastTaken, takes.reached]
    by_cases same : partition = message.partition
    · rw [if_pos same] at ready ⊢
      rw [if_pos same]
      cases ready
      apply Or.inl
      refine ⟨rfl, .succ _ _, ?_⟩
      intro last taken
      rw [same]
      exact Int.add_one_le_of_lt delivers.below
    · rw [if_neg same] at ready ⊢
      rw [if_neg same]
      rcases fills.ready partition expected first again ready with clear | ⟨nothing, rereads⟩
      · exact Or.inl clear
      · apply Or.inr
        constructor
        · exact nothing
        · obtain ⟨waiting, waits, there, base⟩ := rereads
          exact ⟨waiting, waits, there, by rw [takes.fence]; exact base⟩
  · intro partition block last blocked taken
    change after.settledAt brokers partition + 1 < brokers.low partition
    rw [takes.settledAt]
    rw [takes.parts] at blocked
    rw [takes.lastTaken] at taken
    by_cases same : partition = message.partition
    · rw [if_pos same] at blocked
      cases blocked
    · rw [if_neg same] at blocked taken
      exact fills.trimmed partition block last blocked taken
  · intro empty
    rw [takes.buf] at empty
    cases empty
  · exact takes.stalls

/-! ### One partition in another state -/

/-- What a new state of one partition changes. -/
structure Puts (member after : Member) (own : Int) (state : State) : Prop where
  parts : ∀ partition, after.parts.lookup partition =
    if partition = own then some state else member.parts.lookup partition
  owned : member.isOwned own = true
  fence : after.fence = member.fence
  buf : after.buf = member.buf
  decoder : after.decoder = member.decoder
  stalled : after.stalled = member.stalled
  paused : ∀ partition, partition ∈ member.paused → partition ∈ after.paused
  alive : after.alive = member.alive
  held : after.held = member.held

variable {state : State}

theorem Puts.settledAt (puts : Puts member after own state) (partition : Int) :
    after.settledAt brokers partition = member.settledAt brokers partition :=
  settledAt_of_base (baseOffset_congr (by rw [puts.fence]) partition)

theorem Puts.lastTaken (puts : Puts member after own state) (partition : Int) :
    after.lastTaken partition = member.lastTaken partition := by
  unfold Member.lastTaken
  rw [puts.buf]

theorem Puts.reached (puts : Puts member after own state) (partition : Int) :
    after.reached brokers partition = member.reached brokers partition := by
  unfold Member.reached
  rw [puts.lastTaken, puts.settledAt]

theorem Puts.isOwned (puts : Puts member after own state) (partition : Int) :
    after.isOwned partition = member.isOwned partition := by
  have owned := puts.owned
  unfold Member.isOwned at owned ⊢
  rw [puts.parts]
  by_cases same : partition = own
  · rw [if_pos same, same, owned]
    rfl
  · rw [if_neg same]

theorem Puts.rereads (puts : Puts member after own state) {partition expected : Int}
    {again : Option Reread} (rereads : member.Rereads partition expected again) :
    after.Rereads partition expected again := by
  obtain ⟨waiting, waits, there, base⟩ := rereads
  refine ⟨waiting, waits, there, ?_⟩
  rw [puts.fence]
  exact base

theorem Fills.puts (fills : member.Fills brokers) (puts : Puts member after own state)
    (ready : ∀ expected first again, state = .ready expected first again →
      (again = none ∧ brokers.topic.Next own (member.reached brokers own) expected ∧
        ∀ last, member.lastTaken own = some last → expected ≤ brokers.high own) ∨
      member.lastTaken own = none ∧ member.Rereads own expected again)
    (blocked : ∀ block last, state = .blocked block → member.lastTaken own = some last →
      member.settledAt brokers own + 1 < brokers.low own) : after.Fills brokers where
  rows := by
    intro partition
    unfold Member.buffered
    rw [puts.decoder, puts.stalled, puts.settledAt, puts.reached]
    exact fills.rows partition
  past := by
    intro partition last
    rw [puts.lastTaken, puts.settledAt]
    exact fills.past partition last
  owned := by
    intro partition last
    rw [puts.lastTaken, puts.isOwned]
    exact fills.owned partition last
  ready := by
    intro partition expected first again found
    rw [puts.parts] at found
    rw [puts.lastTaken, puts.reached]
    by_cases same : partition = own
    · rw [if_pos same] at found
      rw [same]
      exact (ready expected first again (Option.some.inj found)).imp_right fun waits =>
        ⟨waits.1, puts.rereads waits.2⟩
    · rw [if_neg same] at found
      exact (fills.ready partition expected first again found).imp_right fun waits =>
        ⟨waits.1, puts.rereads waits.2⟩
  trimmed := by
    intro partition block last found taken
    rw [puts.parts] at found
    rw [puts.lastTaken] at taken
    rw [puts.settledAt]
    by_cases same : partition = own
    · rw [if_pos same] at found
      rw [same] at taken ⊢
      exact blocked block last (Option.some.inj found) taken
    · rw [if_neg same] at found
      exact fills.trimmed partition block last found taken
  empty := by
    rw [puts.buf]
    exact fills.empty
  stalls := by
    intro message waits partition owned
    rw [puts.stalled] at waits
    rw [puts.isOwned] at owned
    exact puts.paused partition (fills.stalls message waits partition owned)

theorem Holds.puts {batch : KafkaBatch} {block : Block} (holds : member.Holds brokers batch)
    (puts : Puts member after own (.blocked block)) : after.Holds brokers batch := by
  have before : ∀ partition expected first again,
      after.parts.lookup partition = some (.ready expected first again) →
        member.parts.lookup partition = some (.ready expected first again) := by
    intro partition expected first again found
    rw [puts.parts] at found
    by_cases same : partition = own
    · rw [if_pos same] at found
      cases found
    · rw [if_neg same] at found
      exact found
  constructor
  · rw [puts.buf, holds.buf]
  · rw [puts.decoder, holds.decoder]
  · rw [puts.stalled, holds.stalled]
  · exact holds.exact
  · intro partition expected first again outside found
    rw [puts.settledAt]
    exact (holds.elsewhere partition expected first again outside
      (before partition expected first again found)).imp_right puts.rereads
  · intro partition range expected first again inside found
    exact holds.read partition range expected first again inside
      (before partition expected first again found)
  · intro stays partition first last expected begun again inside found
    have atBases : member.AtBases batch := by
      intro other range within
      obtain ⟨owned, base⟩ := stays other range within
      rw [puts.isOwned] at owned
      rw [puts.fence] at base
      exact ⟨owned, base⟩
    exact holds.within atBases partition first last expected begun again inside
      (before partition expected begun again found)
  · intro holding partition owned
    rw [puts.held] at holding
    rw [puts.isOwned] at owned
    exact puts.paused partition (holds.paused holding partition owned)

theorem Tracks.blocks {block : Block} (tracks : member.Tracks brokers)
    (puts : Puts member after own (.blocked block))
    (unbased : after.unbasedStart = member.unbasedStart) (pauses : own ∈ after.paused) :
    after.Tracks brokers := by
  constructor
  · intro partition other found
    rw [puts.parts] at found
    by_cases same : partition = own
    · rw [same]
      exact pauses
    · rw [if_neg same] at found
      exact puts.paused partition (tracks.blocked partition other found)
  · intro partition expected first again found reading
    rw [puts.parts] at found
    by_cases same : partition = own
    · rw [if_pos same] at found
      cases found
    · rw [if_neg same] at found
      exact tracks.position partition expected first again found fun held =>
        reading (puts.paused partition held)
  · intro partition expected first again found
    rw [puts.parts] at found
    by_cases same : partition = own
    · rw [if_pos same] at found
      cases found
    · rw [if_neg same] at found
      have target := tracks.target partition expected first again found
      rw [puts.settledAt]
      unfold Member.nextInTarget at target ⊢
      rw [puts.fence, unbased]
      exact target

/-- A partition that blocks, when nothing of it is buffered or what it expects is gone. -/
theorem Accounts.blockPartition (accounts : member.Accounts brokers)
    (owned : member.isOwned own = true) (block : Block)
    (trimmed : ∀ last, member.alive = none → member.lastTaken own = some last →
      member.settledAt brokers own + 1 < brokers.low own) :
    (member.blockPartition own block).Accounts brokers := by
  have puts : Puts member (member.blockPartition own block) own (.blocked block) := by
    constructor
    · intro partition
      exact Assoc.lookup_put _ _ _ _
    · exact owned
    · rfl
    · rfl
    · rfl
    · rfl
    · exact fun partition held => List.mem_append_left _ held
    · rfl
    · rfl
  constructor
  · exact accounts.tracks.blocks puts rfl (List.mem_append_right _ List.mem_cons_self)
  · intro idle
    apply (accounts.fills idle).puts puts
    · intro expected first again impossible
      cases impossible
    · intro other last _same taken
      exact trimmed last idle taken
  · intro batch lives
    exact (accounts.holds batch lives).puts puts

/-! ### Taking a message -/

theorem admitReady_duplicate {mark : MessageMark}
    (drops : (Partitions.admitReady next start reread mark).2 = .drop .duplicate) :
    reread = none ∧ mark.offset < next ∨
      ∃ expected, reread = some expected ∧ mark.offset < expected.offset := by
  unfold Partitions.admitReady at drops
  cases reread with
  | none =>
      dsimp only at drops
      by_cases before : mark.offset < next
      · exact Or.inl ⟨rfl, before⟩
      · rw [if_neg before] at drops
        cases drops
  | some expected =>
      dsimp only at drops
      by_cases there : mark.offset = expected.offset
      · rw [if_pos there] at drops
        cases expected with
        | unverifiable offset => cases drops
        | expect recorded =>
            dsimp only at drops
            by_cases other :
                (recorded.timestampMs, recorded.valueLen) ≠ (mark.timestampMs, mark.valueLen)
            · rw [if_pos other] at drops
              cases drops
            · rw [if_neg other] at drops
              cases drops
      · rw [if_neg there] at drops
        by_cases before : mark.offset < expected.offset
        · exact Or.inr ⟨expected, rfl, before⟩
        · rw [if_neg before] at drops
          cases drops

/-- An unpaused partition that is owned is read while no batch is on its way. -/
theorem Accounts.idle_of_reading (accounts : member.Accounts brokers)
    (polling : member.work = .polling) (owned : member.isOwned own = true)
    (reading : own ∉ member.paused) : member.alive = none := by
  cases lives : member.alive with
  | none => rfl
  | some batch =>
      have holding : member.held.isSome = true := by
        unfold Member.alive at lives
        rw [polling] at lives
        obtain ⟨held, found, _same⟩ := Option.map_eq_some_iff.mp lives
        rw [found]
        rfl
      exact absurd ((accounts.holds batch lives).paused holding own owned) reading

theorem isOwned_of_lookup (found : member.parts.lookup own = some state) :
    member.isOwned own = true := by
  unfold isOwned
  rw [found]
  rfl

/-- The stored message was there: the next one is expected. -/
theorem Accounts.readAgain (accounts : member.Accounts brokers)
    (idle : member.alive = none)
    (found : member.parts.lookup message.partition = some (.ready next start reread))
    {expected : Reread} (waits : reread = some expected)
    (there : message.mark.offset = expected.offset) :
    Accounts (brokers.past message)
      { member with
        parts := Assoc.put message.partition (.ready (message.mark.offset + 1) start none)
          member.parts } := by
  have fills := accounts.fills idle
  rcases fills.ready message.partition next start reread found with
    ⟨fresh, _beyond⟩ | ⟨nothing, other, same, expects, base⟩
  · rw [fresh] at waits
    cases waits
  · rw [waits] at same
    cases same
    have atTarget : member.settledAt brokers message.partition = message.mark.offset := by
      unfold Member.settledAt
      rw [base, there, expects]
      rfl
    have puts : Puts member
        { member with
          parts := Assoc.put message.partition (.ready (message.mark.offset + 1) start none)
            member.parts } message.partition (.ready (message.mark.offset + 1) start none) := by
      constructor
      · intro partition
        exact Assoc.lookup_put _ _ _ _
      · exact isOwned_of_lookup found
      · rfl
      · rfl
      · rfl
      · rfl
      · exact fun partition held => held
      · rfl
      · rfl
    constructor
    · constructor
      · intro partition block blocked
        rw [puts.parts] at blocked
        by_cases same : partition = message.partition
        · rw [if_pos same] at blocked
          cases blocked
        · rw [if_neg same] at blocked
          exact accounts.tracks.blocked partition block blocked
      · intro partition later first again ready reading other among past
        unfold Brokers.past
        dsimp only
        rw [puts.parts] at ready
        by_cases same : partition = message.partition
        · rw [if_pos same] at ready ⊢
          cases ready
          exact past
        · rw [if_neg same] at ready ⊢
          exact accounts.tracks.position partition later first again ready reading other among past
      · intro partition later first again ready
        have target := accounts.tracks.target message.partition next start reread found
        rw [puts.parts] at ready
        by_cases same : partition = message.partition
        · rw [same]
          exact target
        · rw [if_neg same] at ready
          exact accounts.tracks.target partition later first again ready
    · intro _idle
      have filled := fills.puts puts
        (by
          intro later first again same
          cases same
          apply Or.inl
          have reached : member.reached brokers message.partition = message.mark.offset := by
            unfold Member.reached
            rw [nothing]
            exact atTarget
          rw [reached]
          refine ⟨rfl, .succ _ _, ?_⟩
          intro last taken
          rw [nothing] at taken
          cases taken)
        (by
          intro block last impossible
          cases impossible)
      exact ⟨filled.rows, filled.past, filled.owned, filled.ready, filled.trimmed, filled.empty,
        filled.stalls⟩
    · intro batch lives
      rw [show member.alive = some batch from lives] at idle
      cases idle

/-- Taking a message into the buffer, whichever way the decoder takes it. -/
theorem takes_feed (fed : Fed) (idle : member.stalled = none) :
    Takes member
      ({ member with
        parts := Assoc.put message.partition (.ready (message.mark.offset + 1) start none)
          member.parts
        buf := member.buf.take message.partition message.mark }.feed message fed)
      message start := by
  constructor
  · intro partition
    cases fed with
    | taken => exact Assoc.lookup_put _ _ _ _
    | waits => exact Assoc.lookup_put _ _ _ _
  · cases fed <;> rfl
  · cases fed <;> rfl
  · cases fed <;> rfl
  · cases fed with
    | taken =>
        change (member.decoder ++ [message]) ++ member.stalled.toList =
          (member.decoder ++ member.stalled.toList) ++ [message]
        rw [idle]
        simp
    | waits =>
        change member.decoder ++ [message] = (member.decoder ++ member.stalled.toList) ++ [message]
        rw [idle]
        simp
  · intro partition held
    cases fed with
    | taken => exact held
    | waits => exact List.mem_append_left _ held
  · intro waiting waits partition owned
    cases fed with
    | taken =>
        rw [show member.stalled = some waiting from waits] at idle
        cases idle
    | waits => exact List.mem_append_right _ ((isOwned_iff partition).mp owned)
  · cases fed <;> rfl

theorem Accounts.take (accounts : member.Accounts brokers) (polling : member.work = .polling)
    (fed : Fed) (delivers : message.partition ∉ member.paused → brokers.Delivers message) :
    (member.take message fed).Accounts (brokers.past message) := by
  unfold Member.take
  by_cases paused : message.partition ∈ member.paused
  · rw [if_pos paused]
    exact accounts.passed fun _next _start _reread _found reading => absurd paused reading
  · rw [if_neg paused]
    cases found : member.parts.lookup message.partition with
    | none =>
        rw [Partitions.admitMessage_unowned found]
        apply accounts.passed
        intro next start reread held
        rw [found] at held
        cases held
    | some state =>
        cases state with
        | blocked block => exact absurd (accounts.tracks.blocked _ block found) paused
        | ready next start reread =>
            have idle := accounts.idle_of_reading polling (isOwned_of_lookup found) paused
            have fills := accounts.fills idle
            have admits : member.parts.admitMessage message.partition message.mark =
                (Assoc.put message.partition
                  (Partitions.admitReady next start reread message.mark).1 member.parts,
                  (Partitions.admitReady next start reread message.mark).2) := by
              unfold Partitions.admitMessage
              rw [found]
            rw [admits]
            rcases Partitions.admitReady_cases next start reread message.mark with
              same | ⟨recorded, waits, there, same⟩ | ⟨expected, waits, there, same⟩ |
              ⟨gap, past, same⟩
            · have drops : (Partitions.admitReady next start reread message.mark).2 =
                  .drop .duplicate := by rw [same]
              rw [same]
              dsimp only
              rw [Assoc.put_same found]
              apply accounts.passed
              intro expects first again held _reading
              rw [found] at held
              cases held
              rcases admitReady_duplicate drops with ⟨_fresh, before⟩ | ⟨expected, waits, before⟩
              · exact before
              · rcases fills.ready _ next start reread found with
                  ⟨fresh, _beyond⟩ | ⟨_nothing, other, known, there, _base⟩
                · rw [fresh] at waits
                  cases waits
                · rw [waits] at known
                  cases known
                  rw [there] at before
                  exact before
            · rw [same]
              dsimp only
              rw [Assoc.put_same found]
              have blocked := accounts.blockPartition (isOwned_of_lookup found)
                (.replaced recorded message.mark) (by
                  intro last _idle taken
                  rcases fills.ready _ next start reread found with
                    ⟨fresh, _beyond⟩ | ⟨nothing, _rereads⟩
                  · rw [fresh] at waits
                    cases waits
                  · rw [nothing] at taken
                    cases taken)
              apply blocked.passed
              intro expects first again held reading
              exact absurd (List.mem_append_right _ List.mem_cons_self) reading
            · rw [same]
              exact accounts.readAgain idle found waits there
            · rw [same]
              dsimp only
              have stalled : member.stalled = none := by
                cases waiting : member.stalled with
                | none => rfl
                | some own =>
                    exact absurd (fills.stalls own waiting _ (isOwned_of_lookup found)) paused
              have takes := @takes_feed member message start fed stalled
              have beyond := fills.delivered accounts.tracks (delivers paused) paused found past
              constructor
              · exact accounts.tracks.takes takes found
              · intro _idle
                exact fills.takes takes (delivers paused) found beyond
              · intro batch lives
                rw [takes.alive, idle] at lives
                cases lives

/-! ### What else is met while polling -/

/-- The same data under more pauses. -/
theorem Accounts.pauses (accounts : member.Accounts brokers) (same : SameData member after)
    (paused : ∀ partition, partition ∈ member.paused → partition ∈ after.paused)
    (alive : after.alive = member.alive) (held : after.held = member.held) :
    after.Accounts brokers where
  tracks := accounts.tracks.of_same same paused
  fills := by
    intro idle
    rw [alive] at idle
    exact (accounts.fills idle).of_same same paused
  holds := by
    intro batch lives
    rw [alive] at lives
    have holds := accounts.holds batch lives
    apply holds.of_same same
    intro holding partition owned
    rw [held] at holding
    rw [same.isOwned] at owned
    exact paused partition (holds.paused holding partition owned)

theorem Accounts.pause (accounts : member.Accounts brokers) (partitions : List Int) :
    (member.pause partitions).Accounts brokers :=
  accounts.pauses ⟨rfl, rfl, rfl, rfl, rfl, rfl⟩
    (fun _partition held => List.mem_append_left _ held) rfl rfl

theorem Accounts.feedStalled (accounts : member.Accounts brokers) (fed : Fed) :
    (member.feedStalled fed).Accounts brokers := by
  unfold Member.feedStalled
  cases waits : member.stalled with
  | none => exact accounts
  | some message =>
      have idle : member.alive = none := by
        cases lives : member.alive with
        | none => rfl
        | some batch =>
            have nothing := (accounts.holds batch lives).stalled
            rw [waits] at nothing
            cases nothing
      have fills := accounts.fills idle
      cases fed with
      | taken =>
          constructor
          · exact ⟨accounts.tracks.blocked, accounts.tracks.position, accounts.tracks.target⟩
          · intro _idle
            refine ⟨?_, fills.past, fills.owned, fills.ready, fills.trimmed, fills.empty, ?_⟩
            · intro partition
              have rows := fills.rows partition
              unfold Member.buffered at rows
              rw [waits] at rows
              change ((member.decoder ++ [message]) ++ []).filter _ = _
              rw [List.append_nil]
              exact rows
            · intro other impossible
              cases impossible
          · intro batch lives
            rw [show member.alive = some batch from lives] at idle
            cases idle
      | waits =>
          apply accounts.pauses
          · exact ⟨rfl, rfl, rfl, rfl, waits.symm, rfl⟩
          · exact fun partition held => List.mem_append_left _ held
          · rfl
          · rfl

/-! ### Partitions out of range -/

theorem offence_cases {watermarks : List (Int × Int × Int)} {block : Block}
    (offends : offence watermarks own next = some block) :
    ∃ range, watermarks.lookup own = some range ∧ (next < range.1 ∨ range.2 < next) := by
  unfold offence at offends
  cases found : watermarks.lookup own with
  | none =>
      rw [found] at offends
      cases offends
  | some range =>
      rw [found] at offends
      dsimp only at offends
      refine ⟨range, rfl, ?_⟩
      by_cases trimmed : next < range.1
      · exact Or.inl trimmed
      · rw [if_neg trimmed] at offends
        by_cases past : range.2 < next
        · exact Or.inr past
        · rw [if_neg past] at offends
          cases offends

/-- What is ready, and out of what the brokers have, has nothing in the buffer that could be read
again. -/
theorem Fills.offends (fills : member.Fills brokers) {ranges : List (Int × Int × Int)}
    (truthful : brokers.Truthful (some ranges)) {block : Block}
    (ready : member.nextExpected own = some next) (offends : offence ranges own next = some block)
    {last : Int} (taken : member.lastTaken own = some last) :
    member.settledAt brokers own + 1 < brokers.low own := by
  obtain ⟨range, found, apart⟩ := offence_cases offends
  have same := truthful ranges rfl own range found
  unfold nextExpected at ready
  cases held : member.parts.lookup own with
  | none =>
      rw [held] at ready
      cases ready
  | some state =>
      cases state with
      | blocked block =>
          rw [held] at ready
          cases ready
      | ready expected first again =>
          rw [held] at ready
          cases ready
          rcases fills.ready own next first again held with ⟨_fresh, beyond, within⟩ | ⟨nothing, _⟩
          · have past := fills.past own last taken
            have reached : member.reached brokers own = last := by
              unfold Member.reached
              rw [taken]
              rfl
            have ahead := beyond.ahead
            have high := within last taken
            rw [reached] at ahead
            rw [same] at apart
            rcases apart with trimmed | past
            · dsimp only at trimmed
              omega
            · dsimp only at past
              omega
          · rw [nothing] at taken
            cases taken

theorem Accounts.blockAll (accounts : member.Accounts brokers) (blocks : List (Int × Block))
    (owned : ∀ entry ∈ blocks, member.isOwned entry.1 = true)
    (trimmed : ∀ entry ∈ blocks, ∀ last, member.alive = none →
      member.lastTaken entry.1 = some last →
        member.settledAt brokers entry.1 + 1 < brokers.low entry.1) :
    (member.blockAll blocks).Accounts brokers := by
  unfold Member.blockAll
  induction blocks generalizing member with
  | nil => exact accounts
  | cons entry blocks ih =>
      rw [List.foldl_cons]
      have first := accounts.blockPartition (owned entry List.mem_cons_self) entry.2
        (trimmed entry List.mem_cons_self)
      apply ih first
      · intro other later
        have before := owned other (List.mem_cons_of_mem _ later)
        unfold isOwned at before ⊢
        change ((Assoc.put entry.1 _ member.parts).lookup other.1).isSome = true
        rw [Assoc.lookup_put]
        by_cases same : other.1 = entry.1
        · rw [if_pos same]
          rfl
        · rw [if_neg same]
          exact before
      · exact fun other later => trimmed other (List.mem_cons_of_mem _ later)

theorem Accounts.outOfRange (accounts : member.Accounts brokers) {watermarks : Watermarks}
    (truthful : brokers.Truthful watermarks) :
    (member.outOfRange watermarks).Accounts brokers := by
  unfold Member.outOfRange
  cases watermarks with
  | none => exact accounts.pause _
  | some ranges =>
      dsimp only
      by_cases nobody : (member.offenders ranges).isEmpty
      · rw [if_pos nobody]
        exact accounts.pause _
      · rw [if_neg nobody]
        have offending : ∀ entry ∈ member.offenders ranges, ∃ next,
            member.nextExpected entry.1 = some next ∧
              offence ranges entry.1 next = some entry.2 := by
          intro entry among
          obtain ⟨held, ready, offends⟩ := List.mem_filterMap.mp among
          obtain ⟨block, found, same⟩ := Option.map_eq_some_iff.mp offends
          obtain ⟨partition, _owned, expects⟩ := List.mem_filterMap.mp ready
          obtain ⟨next, expected, pair⟩ := Option.map_eq_some_iff.mp expects
          cases same
          cases pair
          exact ⟨next, expected, found⟩
        apply accounts.blockAll
        · intro entry among
          obtain ⟨next, expected, _offends⟩ := offending entry among
          unfold nextExpected at expected
          unfold isOwned
          cases held : member.parts.lookup entry.1 with
          | none =>
              rw [held] at expected
              cases expected
          | some state => rfl
        · intro entry among last idle taken
          obtain ⟨next, expected, offends⟩ := offending entry among
          exact (accounts.fills idle).offends truthful expected offends taken

/-! ### Releasing and closing -/

theorem Accounts.release (accounts : member.Accounts brokers) (unsought : List Int)
    (idle : member.alive = none) (stalled : member.stalled = none) :
    (member.release unsought).Accounts (brokers.released member (member.release unsought)) := by
  have fills := accounts.fills idle
  constructor
  · constructor
    · intro partition block found
      have blocked : member.parts.lookup partition = some (.blocked block) := found
      apply (mem_release_paused member unsought partition).mpr
      constructor
      · exact accounts.tracks.blocked partition block blocked
      · rw [nextExpected_blocked member blocked]
        exact ite_self _
    · intro partition next start reread found reading message among later
      have ready : member.parts.lookup partition = some (.ready next start reread) := found
      unfold Brokers.released
      dsimp only
      by_cases paused : partition ∈ member.paused
      · rw [if_pos ⟨paused, reading⟩, nextExpected_ready member ready]
        exact later
      · rw [if_neg fun both => paused both.1]
        exact accounts.tracks.position partition next start reread ready paused message among later
    · exact accounts.tracks.target
  · intro _idle
    refine ⟨fills.rows, fills.past, fills.owned, fills.ready, fills.trimmed, fills.empty, ?_⟩
    intro message waits
    rw [show member.stalled = some message from waits] at stalled
    cases stalled
  · intro batch lives
    rw [show member.alive = some batch from lives] at idle
    cases idle

/-- A batch closed over what was taken holds it, partition by partition. -/
theorem Fills.closedBatch (fills : member.Fills brokers) (stalled : member.stalled = none) :
    member.closedBatch.Exact brokers := by
  intro partition
  have rows := fills.rows partition
  have decoded : member.decoder.filter (fun message => message.partition == partition) =
      brokers.topic.between partition (member.settledAt brokers partition)
        (member.reached brokers partition) := by
    unfold Member.buffered at rows
    rw [stalled] at rows
    rw [← rows]
    simp
  have sorted : member.closedBatch.decoded.filter (fun message => message.partition == partition) =
      (member.decoder.filter fun message => message.partition == partition).filter
        fun message => message.payload == .row := by
    unfold Member.closedBatch
    rw [List.filter_filter, List.filter_filter]
    apply List.filter_congr
    intro message _among
    exact Bool.and_comm _ _
  cases inside : member.buf.ranges.lookup partition with
  | none =>
      right
      constructor
      · exact inside
      · have reached : member.reached brokers partition = member.settledAt brokers partition := by
          unfold Member.reached Member.lastTaken
          rw [inside]
          rfl
        rw [sorted, decoded, reached, Topic.between_self]
        rfl
  | some range =>
      left
      refine ⟨range.1, range.2, member.fence.baseOffset partition, inside, ?_, ?_⟩
      · unfold Member.closedBatch
        dsimp only
        rw [Assoc.lookup_map member.buf.ranges fun own _range => member.fence.baseOffset own,
          inside]
        rfl
      · have reached : member.reached brokers partition = range.2 := by
          unfold Member.reached Member.lastTaken
          rw [inside]
          rfl
        rw [sorted, decoded, reached]
        rfl

theorem Accounts.closeBatch (accounts : member.Accounts brokers) (idle : member.alive = none)
    (held : member.held = none) (stalled : member.stalled = none) (leaving : Bool) :
    (member.closeBatch leaving).Accounts brokers := by
  have fills := accounts.fills idle
  constructor
  · exact ⟨accounts.tracks.blocked, accounts.tracks.position, accounts.tracks.target⟩
  · intro impossible
    cases impossible
  · intro batch lives
    cases lives
    constructor
    · rfl
    · rfl
    · exact stalled
    · exact fills.closedBatch stalled
    · intro partition next start reread outside found
      have unread : member.lastTaken partition = none := by
        unfold Member.lastTaken
        rw [show member.buf.ranges.lookup partition = none from outside]
        rfl
      have reached : member.reached brokers partition = member.settledAt brokers partition := by
        unfold Member.reached
        rw [unread]
        rfl
      rcases fills.ready partition next start reread found with ⟨fresh, beyond, _within⟩ | rereads
      · rw [reached] at beyond
        exact Or.inl ⟨fresh, beyond⟩
      · exact Or.inr rereads.2
    · intro partition range next start reread inside found
      have taken : member.lastTaken partition = some range.2 := by
        unfold Member.lastTaken
        rw [show member.buf.ranges.lookup partition = some range from inside]
        rfl
      rcases fills.ready partition next start reread found with ⟨fresh, _beyond⟩ | ⟨nothing, _⟩
      · exact fresh
      · rw [nothing] at taken
        cases taken
    · intro _stays partition first last next start reread inside found
      have taken : member.lastTaken partition = some last := by
        unfold Member.lastTaken
        rw [show member.buf.ranges.lookup partition = some (first, last) from inside]
        rfl
      have reached : member.reached brokers partition = last := by
        unfold Member.reached
        rw [taken]
        rfl
      rcases fills.ready partition next start reread found with ⟨_fresh, beyond, _⟩ | ⟨nothing, _⟩
      · rw [reached] at beyond
        exact beyond
      · rw [nothing] at taken
        cases taken
    · intro holding
      rw [show (member.closeBatch leaving).held = none from held] at holding
      cases holding

end Member

end Ddi.Kafka
