/-
The re-read of a stored offset over whole runs.

A partition resumed at its stored offset with a mark is watched until the message
there was compared, or one past it came in a delivery that started there. As long as
no reset repositions a partition that is watched, nothing of it is taken before.
-/

import Ddi.Kafka.MemberSemantics

namespace Ddi.Kafka

open Registers (Writes)

namespace Member

variable (member : Member)

/-- The mark a partition's next message is to be compared with. -/
def pending (partition : Int) : Option MessageMark :=
  match member.parts.lookup partition with
  | some (.ready _ _ (some (.expect mark))) => some mark
  | _ => none

/-- A message is taken into the buffer. -/
def takes (message : KafkaMessage) : Bool :=
  decide (message.partition ∉ member.paused) &&
    match (member.parts.admitMessage message.partition message.mark).2 with
    | .take _ => true
    | _ => false

/-- The message at the stored offset is compared with its mark. -/
def compares (message : KafkaMessage) (mark : MessageMark) : Bool :=
  decide (message.partition ∉ member.paused) &&
    decide (member.pending message.partition = some mark) &&
    decide (message.mark.offset = mark.offset)

/-- A message past the stored offset comes in a delivery that started there. -/
def passes (message : KafkaMessage) (mark : MessageMark) : Bool :=
  decide (message.partition ∉ member.paused) &&
    decide (mark.offset < message.mark.offset) &&
    decide (member.started.lookup message.partition = some mark.offset)

def settles (message : KafkaMessage) (mark : MessageMark) : Bool :=
  member.compares message mark || member.passes message mark

end Member

/-- The marks that are watched, by partition. -/
abbrev Watch := Int → Option MessageMark

/-- A resume with a mark to compare opens a watch, or replaces it; a message that settles it
closes it, and so does giving the partition up. -/
def watchAfter (watch : Watch) (before after : Member) (delivered : Option KafkaMessage) : Watch :=
  fun partition =>
    match after.pending partition with
    | some mark => some mark
    | none =>
        if after.isOwned partition then
          (watch partition).filter fun mark =>
            !delivered.any fun message =>
              decide (message.partition = partition) && before.settles message mark
        else none

/-- A message is taken of a partition whose watch it does not settle. -/
def bypasses (watch : Watch) (member : Member) (message : KafkaMessage) : Bool :=
  member.takes message &&
    match watch message.partition with
    | some mark => !member.settles message mark
    | none => false

namespace Member

variable {member : Member}

theorem pending_ready {partition : Int} {mark : MessageMark}
    (waits : member.pending partition = some mark) :
    ∃ next start, member.parts.lookup partition = some (.ready next start (some (.expect mark))) := by
  unfold pending at waits
  rcases found : member.parts.lookup partition with _ | ⟨next, start, _ | ⟨recorded | offset⟩⟩ | block
  · rw [found] at waits
    cases waits
  · rw [found] at waits
    cases waits
  · rw [found] at waits
    cases waits
    exact ⟨next, start, rfl⟩
  · rw [found] at waits
    cases waits
  · rw [found] at waits
    cases waits

theorem pending_of_lookup {partition next start : Int} {mark : MessageMark}
    (found : member.parts.lookup partition = some (.ready next start (some (.expect mark)))) :
    member.pending partition = some mark := by
  unfold pending
  rw [found]

/-- What a member keeps of the partitions it waits with. -/
structure Waiting (member : Member) : Prop where
  blocked : ∀ partition block, member.parts.lookup partition = some (.blocked block) →
    partition ∈ member.paused
  pending : ∀ partition next start mark,
    member.parts.lookup partition = some (.ready next start (some (.expect mark))) →
      next = mark.offset ∧
        (partition ∈ member.paused ∨ member.started.lookup partition = some mark.offset)

theorem Waiting.unowned {member : Member} (nothing : member.parts = []) : member.Waiting where
  blocked := by
    intro partition block found
    rw [nothing] at found
    cases found
  pending := by
    intro partition next start mark found
    rw [nothing] at found
    cases found

/-- Pausing more of the same partitions keeps them. -/
theorem Waiting.of_same {after : Member} (waiting : member.Waiting)
    (parts : ∀ partition, after.parts.lookup partition = member.parts.lookup partition)
    (paused : ∀ partition, partition ∈ member.paused → partition ∈ after.paused)
    (started : after.started = member.started) : after.Waiting where
  blocked := by
    intro partition block found
    rw [parts] at found
    exact paused partition (waiting.blocked partition block found)
  pending := by
    intro partition next start mark found
    rw [parts] at found
    obtain ⟨same, position⟩ := waiting.pending partition next start mark found
    rw [started]
    exact ⟨same, position.imp_left (paused partition)⟩

theorem Waiting.pauseAll (waiting : member.Waiting) : member.pauseAll.Waiting :=
  waiting.of_same (fun _ => rfl) (fun _ present => List.mem_append_left _ present) rfl

theorem Waiting.repositionChanged (waiting : member.Waiting) (changed : List Int)
    (survives : Option KafkaBatch) : (member.repositionChanged changed survives).Waiting where
  blocked := by
    intro partition block found
    rw [repositionChanged_paused]
    rw [repositionChanged_lookup] at found
    apply List.mem_append_left
    by_cases moved : partition ∈ member.toReposition changed survives
    · simp only [if_pos moved] at found
      obtain ⟨state, _held, same⟩ := Option.map_eq_some_iff.mp found
      cases same
    · simp only [if_neg moved, Option.map_id_fun', id] at found
      exact waiting.blocked partition block found
  pending := by
    intro partition next start mark found
    rw [repositionChanged_paused, repositionChanged_started]
    rw [repositionChanged_lookup] at found
    by_cases moved : partition ∈ member.toReposition changed survives
    · simp only [if_pos moved] at found
      obtain ⟨state, _held, same⟩ := Option.map_eq_some_iff.mp found
      cases same
    · simp only [if_neg moved, Option.map_id_fun', id] at found
      obtain ⟨same, position⟩ := waiting.pending partition next start mark found
      exact ⟨same, position.imp_left (List.mem_append_left _)⟩

theorem Waiting.refreshAndReset (waiting : member.Waiting) (log : List (Writes TxnId Int))
    (refresh : Refresh) : (member.refreshAndReset log refresh).1.Waiting := by
  obtain ⟨handle, fence, same⟩ := member.refreshAndReset_rest log refresh
  rw [same]
  exact waiting.of_same (fun _ => rfl) (fun _ present => present) rfl

theorem startOf_pending {explicit : Int → Option Int} {partition low high offset : Int}
    {mark : MessageMark}
    (starts : member.startOf explicit partition low high = .ready offset (some (.expect mark))) :
    offset = mark.offset := by
  obtain ⟨_low, none | ⟨_stored, reread⟩⟩ := resolve_ready starts
  · cases none.1
  · have same := rereadAt_offset
      (((member.fence.base.lookup partition).getD (none, none)).2) offset
    rw [← Option.some_inj.mp reread] at same
    exact same.symm

theorem Waiting.resolveAll (waiting : member.Waiting) (explicit : Int → Option Int)
    (ranges : List (Int × Int × Int)) {partitions : List Int}
    (paused : ∀ partition, partition ∈ partitions → partition ∈ member.paused) :
    (member.resolveAll explicit ranges partitions).Waiting where
  blocked := by
    intro partition block found
    rw [resolveAll_paused]
    rw [resolveAll_lookup] at found
    by_cases among : partition ∈ partitions
    · exact paused partition among
    · rw [if_neg among] at found
      exact waiting.blocked partition block found
  pending := by
    intro partition next start mark found
    rw [resolveAll_paused, resolveAll_started]
    rw [resolveAll_lookup] at found
    by_cases among : partition ∈ partitions
    · rw [if_pos among] at found
      constructor
      · cases finds : member.found explicit ranges partition with
        | none =>
            rw [finds] at found
            exact (waiting.pending partition next start mark found).1
        | some resolved =>
            rw [finds] at found
            obtain ⟨range, _present, starts⟩ := Option.map_eq_some_iff.mp finds
            cases resolved with
            | blocked block => cases found
            | ready offset reread =>
                cases found
                exact startOf_pending starts
      · exact Or.inl (paused partition among)
    · rw [if_neg among] at found
      exact waiting.pending partition next start mark found

theorem Waiting.feed (waiting : member.Waiting) (message : KafkaMessage) (fed : Fed) :
    (member.feed message fed).Waiting := by
  cases fed with
  | taken => exact waiting.of_same (fun _ => rfl) (fun _ present => present) rfl
  | waits =>
      exact waiting.of_same (fun _ => rfl) (fun _ present => List.mem_append_left _ present) rfl

theorem Waiting.feedStalled (waiting : member.Waiting) (fed : Fed) :
    (member.feedStalled fed).Waiting := by
  unfold Member.feedStalled
  cases member.stalled with
  | none => exact waiting
  | some message =>
      apply Waiting.feed
      exact waiting.of_same (fun _ => rfl) (fun _ present => present) rfl

theorem Waiting.blockPartition (waiting : member.Waiting) (partition : Int) (block : Block) :
    (member.blockPartition partition block).Waiting where
  blocked := by
    intro other held found
    by_cases same : other = partition
    · subst same
      exact List.mem_append_right _ (List.mem_singleton.mpr rfl)
    · change (Assoc.put partition _ member.parts).lookup other = _ at found
      rw [Assoc.lookup_put_of_ne _ same] at found
      exact List.mem_append_left _ (waiting.blocked other held found)
  pending := by
    intro other next start mark found
    change (Assoc.put partition _ member.parts).lookup other = _ at found
    by_cases same : other = partition
    · subst same
      rw [Assoc.lookup_put_self] at found
      cases found
    · rw [Assoc.lookup_put_of_ne _ same] at found
      obtain ⟨expected, position⟩ := waiting.pending other next start mark found
      exact ⟨expected, position.imp_left (List.mem_append_left _)⟩

theorem Waiting.blockAll (waiting : member.Waiting) (blocks : List (Int × Block)) :
    (member.blockAll blocks).Waiting := by
  unfold Member.blockAll
  induction blocks generalizing member with
  | nil => exact waiting
  | cons head blocks ih => exact ih (waiting.blockPartition head.1 head.2)

theorem Waiting.outOfRange (waiting : member.Waiting) (watermarks : Watermarks) :
    (member.outOfRange watermarks).Waiting := by
  have more : ∀ partitions, (member.pause partitions).Waiting := fun partitions =>
    waiting.of_same (fun _ => rfl) (fun _ present => List.mem_append_left _ present) rfl
  unfold Member.outOfRange
  cases watermarks with
  | none => exact more _
  | some ranges =>
      by_cases nobody : (member.offenders ranges).isEmpty
      · simp only [if_pos nobody]
        exact more _
      · simp only [if_neg nobody]
        exact waiting.blockAll _

theorem Waiting.admitted (waiting : member.Waiting) (partition : Int) (mark : MessageMark) :
    Waiting { member with parts := (member.parts.admitMessage partition mark).1 } where
  blocked := by
    intro other block found
    exact waiting.blocked other block (Partitions.admitMessage_keeps found fun _ _ same => by cases same)
  pending := by
    intro other next start recorded found
    exact waiting.pending other next start recorded
      (Partitions.admitMessage_keeps found fun _ _ same => by cases same)

theorem Waiting.take (waiting : member.Waiting) (message : KafkaMessage) (fed : Fed) :
    (member.take message fed).Waiting := by
  have admitted := waiting.admitted message.partition message.mark
  unfold Member.take
  by_cases paused : message.partition ∈ member.paused
  · rw [if_pos paused]
    exact waiting
  · rw [if_neg paused]
    generalize member.parts.admitMessage message.partition message.mark = result at admitted ⊢
    obtain ⟨parts, gap | why | block⟩ := result
    · apply Waiting.feed
      exact admitted.of_same (fun _ => rfl) (fun _ present => present) rfl
    · exact admitted
    · exact admitted.blockPartition message.partition block

theorem Waiting.release (waiting : member.Waiting) (unsought : List Int) :
    (member.release unsought).Waiting where
  blocked := by
    intro partition block found
    rw [mem_release_paused]
    constructor
    · exact waiting.blocked partition block found
    · have expects : member.nextExpected partition = none := nextExpected_blocked member found
      rw [expects, ite_self]
  pending := by
    intro partition next start mark found
    obtain ⟨same, position⟩ := waiting.pending partition next start mark found
    constructor
    · exact same
    · rw [mem_release_paused, release_started]
      have expects : member.nextExpected partition = some next := nextExpected_ready member found
      by_cases resumes : member.isResumed unsought partition
      · rw [if_pos resumes, expects, same]
        exact Or.inr rfl
      · rw [if_neg resumes]
        exact position.imp_left fun paused => ⟨paused, rfl⟩

theorem Waiting.takeStarts (member : Member) (partitions : List Int) {start : Int → Start}
    (checked : ∀ partition offset mark, start partition = .ready offset (some (.expect mark)) →
      offset = mark.offset) : (member.takeStarts partitions start).Waiting where
  blocked := by
    intro partition block found
    rw [takeStarts_lookup] at found
    rw [mem_takeStarts_paused]
    by_cases among : partition ∈ partitions
    · rw [if_pos among] at found
      constructor
      · exact among
      · cases starts : start partition with
        | ready offset reread =>
            rw [starts] at found
            cases found
        | blocked block => rfl
    · rw [if_neg among] at found
      cases found
  pending := by
    intro partition next start' mark found
    rw [takeStarts_lookup] at found
    rw [takeStarts_started]
    by_cases among : partition ∈ partitions
    · rw [if_pos among] at found ⊢
      cases starts : start partition with
      | ready offset reread =>
          rw [starts] at found
          cases found
          have same := checked partition next mark starts
          rw [← same]
          exact ⟨rfl, Or.inr rfl⟩
      | blocked block =>
          rw [starts] at found
          cases found
    · rw [if_neg among] at found
      cases found

end Member

end Ddi.Kafka
