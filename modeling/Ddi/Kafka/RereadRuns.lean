/-
Watches over whole runs: which events keep a partition that is watched waiting, and
that then no message of it is taken before its re-read is settled.
-/

import Ddi.Kafka.Reread

namespace Ddi.Kafka

open Registers (Writes)

namespace Member

variable {log : List (Writes TxnId Int)} {explicit : Int → Option Int} {member after : Member}

def IsBlocked (member : Member) (partition : Int) : Prop :=
  ∃ block, member.parts.lookup partition = some (.blocked block)

/-- What waits in one waits, or is blocked, in the other. -/
structure Carries (before after : Member) : Prop where
  pending : ∀ partition mark, before.pending partition = some mark →
    after.pending partition = some mark ∨ after.IsBlocked partition
  blocked : ∀ partition, before.IsBlocked partition → after.IsBlocked partition

theorem Carries.of_parts {before after : Member}
    (same : ∀ partition, after.parts.lookup partition = before.parts.lookup partition) :
    Carries before after where
  pending := by
    intro partition mark waits
    apply Or.inl
    obtain ⟨next, start, found⟩ := pending_ready waits
    rw [← same] at found
    exact pending_of_lookup found
  blocked := by
    rintro partition ⟨block, found⟩
    rw [← same] at found
    exact ⟨block, found⟩

theorem Carries.trans {first second third : Member} (one : Carries first second)
    (other : Carries second third) : Carries first third where
  pending := by
    intro partition mark waits
    rcases one.pending partition mark waits with still | blocked
    · exact other.pending partition mark still
    · exact Or.inr (other.blocked partition blocked)
  blocked := fun partition blocked => other.blocked partition (one.blocked partition blocked)

theorem Carries.refl (member : Member) : Carries member member := .of_parts fun _ => rfl

/-! ### Resets that leave what waits -/

/-- A refresh that succeeds finds every partition that waits at an unchanged offset, and in the
batch that is kept or in a buffer that is. -/
def Spares (log : List (Writes TxnId Int)) (member : Member)
    (kept : Member → Option KafkaBatch) (refresh : Refresh) : Prop :=
  ∀ fresh changed, member.refreshAndReset log refresh = (fresh, .ok changed) →
    ∀ partition mark, member.pending partition = some mark →
      partition ∉ changed ∧
      ((member.buf.ranges.lookup partition).isSome → member.bufferMoved changed = false) ∧
      ((∃ batch, kept fresh = some batch ∧ (batch.ranges.lookup partition).isSome) ∨
        (member.buf.ranges.lookup partition).isSome)

theorem undisturbed_of_kept {changed : List Int} (kept : member.bufferMoved changed = false) :
    member.undisturbed changed = member := by
  unfold undisturbed
  rw [kept]
  rfl

theorem not_toReposition {changed : List Int} {survives : Option KafkaBatch} {partition : Int}
    (unchanged : partition ∉ changed)
    (stays : (member.buf.ranges.lookup partition).isSome → member.bufferMoved changed = false)
    (accounted : (∃ batch, survives = some batch ∧ (batch.ranges.lookup partition).isSome) ∨
      (member.buf.ranges.lookup partition).isSome) :
    partition ∉ member.toReposition changed survives := by
  intro among
  obtain ⟨next, _expected, again | misplaced⟩ := (mem_toReposition member).mp among
  · unfold Member.again at again
    cases moved : member.bufferMoved changed with
    | false =>
        rw [moved] at again
        exact unchanged again
    | true =>
        rw [moved] at again
        rcases List.mem_append.mp again with listed | buffered
        · exact unchanged listed
        · obtain ⟨range, found⟩ := (Assoc.mem_keys_iff _ _).mp buffered
          rw [stays (by rw [found]; rfl)] at moved
          cases moved
  · unfold Member.misplaced at misplaced
    rcases accounted with ⟨batch, rfl, covers⟩ | buffered
    · simp [covers] at misplaced
    · rw [undisturbed_of_kept (stays buffered)] at misplaced
      simp [Option.isNone_iff_eq_none, Option.isSome_iff_ne_none.mp buffered] at misplaced

theorem Carries.reposition {changed : List Int} {survives : Option KafkaBatch}
    (spared : ∀ partition mark, member.pending partition = some mark →
      partition ∉ member.toReposition changed survives) :
    Carries member (member.repositionChanged changed survives) where
  pending := by
    intro partition mark waits
    apply Or.inl
    obtain ⟨next, start, found⟩ := pending_ready waits
    have still : (member.repositionChanged changed survives).parts.lookup partition =
        some (.ready next start (some (.expect mark))) := by
      rw [repositionChanged_lookup, found]
      simp only [if_neg (spared partition mark waits), Option.map_some]
    exact pending_of_lookup still
  blocked := by
    rintro partition ⟨block, found⟩
    refine ⟨block, ?_⟩
    rw [repositionChanged_lookup, found]
    have away : partition ∉ member.toReposition changed survives := by
      intro among
      obtain ⟨next, expected, _moved⟩ := (mem_toReposition member).mp among
      rw [nextExpected_blocked member found] at expected
      cases expected
    simp only [if_neg away, Option.map_some]

theorem repositionChanged_blocked {changed : List Int} {survives : Option KafkaBatch}
    {partition : Int}
    (blocked : (member.repositionChanged changed survives).IsBlocked partition) :
    member.IsBlocked partition := by
  obtain ⟨block, found⟩ := blocked
  rw [repositionChanged_lookup] at found
  obtain ⟨state, held, same⟩ := Option.map_eq_some_iff.mp found
  by_cases moved : partition ∈ member.toReposition changed survives
  · rw [if_pos moved] at same
    cases same
  · rw [if_neg moved] at same
    rw [same] at held
    exact ⟨block, held⟩

/-- A recheck resolves no watched partition to a start without a mark to compare. -/
def ResumesChecked (log : List (Writes TxnId Int)) (explicit : Int → Option Int) (watch : Watch)
    (member : Member) (refresh : Refresh) (watermarks : Watermarks) : Prop :=
  ∀ fresh changed, member.refreshAndReset log refresh = (fresh, .ok changed) →
    ∀ partition mark, watch partition = some mark → member.IsBlocked partition →
      ∀ ranges offset reread, watermarks = some ranges →
        fresh.found explicit ranges partition = some (.ready offset reread) →
          ∃ recorded, reread = some (.expect recorded)

/-- The batch that a reset keeps. -/
def kept (batch : KafkaBatch) (fresh : Member) : Option KafkaBatch :=
  if (fresh.movedPartition batch).isNone then some batch else none

/-- The event's resets leave the partitions that wait for their re-read. -/
def Event.Spares (log : List (Writes TxnId Int)) (explicit : Int → Option Int) (watch : Watch)
    (member : Member) : Event → Prop
  | .attempt tried => ∀ batch leaving refresh, member.work = .retry batch leaving →
      tried.aging = some refresh → Member.Spares log member (fun _ => some batch) refresh
  | .settle refresh => ∀ batch error, member.work = .failing batch error →
      error.kafkaClass = .replan → Member.Spares log member (kept batch) refresh
  | .due refresh => ∀ held, member.held = some held → held.heldFor = .operator →
      Member.Spares log { member with held := none } (kept held.batch) refresh
  | .recheck refresh watermarks => Member.Spares log member (fun _ => none) refresh ∧
      ResumesChecked log explicit watch member refresh watermarks
  | _ => True

/-- What waits, or is blocked while it is watched, is so after, unless its partition was given up
or the message delivered settled it. -/
def Stays (watch : Watch) (before after : Member) (delivered : Option KafkaMessage) : Prop :=
  ∀ partition mark, watch partition = some mark →
    (before.pending partition = some mark ∨ before.IsBlocked partition) →
    (∀ message, delivered = some message → message.partition = partition →
      before.settles message mark = false) →
    (∃ other, after.pending partition = some other) ∨ after.IsBlocked partition ∨
      after.isOwned partition = false

theorem Carries.stays {watch : Watch} {delivered : Option KafkaMessage}
    (carries : Carries member after) : Stays watch member after delivered := by
  intro partition mark _watched before _unsettled
  rcases before with waits | blocked
  · exact (carries.pending partition mark waits).imp (fun still => ⟨mark, still⟩) Or.inl
  · exact Or.inr (Or.inl (carries.blocked partition blocked))

theorem Stays.of_unowned {watch : Watch} {delivered : Option KafkaMessage}
    (nothing : after.parts = []) : Stays watch member after delivered := by
  intro partition mark _watched _before _unsettled
  apply Or.inr
  apply Or.inr
  unfold isOwned
  rw [nothing]
  rfl

/-- Both of what is kept of a member by an event. -/
structure Keeps (watch : Watch) (delivered : Option KafkaMessage) (before after : Member) :
    Prop where
  waiting : after.Waiting
  stays : Stays watch before after delivered

theorem Keeps.of_same {watch : Watch} {delivered : Option KafkaMessage} (waiting : member.Waiting)
    (parts : after.parts = member.parts)
    (paused : ∀ partition, partition ∈ member.paused → partition ∈ after.paused)
    (started : after.started = member.started) : Keeps watch delivered member after where
  waiting := waiting.of_same (fun _ => by rw [parts]) paused started
  stays := (Carries.of_parts fun _ => by rw [parts]).stays

theorem Keeps.unassign {watch : Watch} {delivered : Option KafkaMessage} {other : Member} :
    Keeps watch delivered member other.unassign where
  waiting := .unowned rfl
  stays := .of_unowned rfl

theorem reset_carries {refresh : Refresh} {keep : Member → Option KafkaBatch} {fresh : Member}
    {changed : List Int} (spares : Spares log member keep refresh)
    (resets : member.refreshAndReset log refresh = (fresh, .ok changed)) :
    Carries member (fresh.repositionChanged changed (keep fresh)) := by
  obtain ⟨handle, fence, same⟩ := member.refreshAndReset_rest log refresh
  rw [resets] at same
  simp only at same
  have refreshed : Carries member fresh := .of_parts fun _ => by rw [same]
  apply refreshed.trans
  apply Carries.reposition
  intro partition mark waits
  have before : member.pending partition = some mark := by
    rw [same] at waits
    exact waits
  obtain ⟨unchanged, stays, accounted⟩ := spares fresh changed resets partition mark before
  apply not_toReposition unchanged
  · intro buffered
    rw [same] at buffered ⊢
    exact stays buffered
  · apply accounted.imp_right
    intro buffered
    rw [same]
    exact buffered

theorem refreshed_carries (refresh : Refresh) :
    Carries member (member.refreshAndReset log refresh).1 := by
  obtain ⟨handle, fence, same⟩ := member.refreshAndReset_rest log refresh
  rw [same]
  exact .of_parts fun _ => rfl

theorem Keeps.holdForClass {watch : Watch} {delivered : Option KafkaMessage}
    (waiting : member.Waiting) {batch : KafkaBatch} {error : KafkaError}
    (holds : member.holdForClass batch error = some after) :
    Keeps watch delivered member after := by
  have held : ∀ (blocked : Bool) (why : HeldFor),
      Keeps watch delivered member ({ member with blocked := blocked }.hold batch why) :=
    fun _ _ => .of_same waiting rfl (fun _ present => List.mem_append_left _ present) rfl
  unfold Member.holdForClass at holds
  cases cls : error.kafkaClass with
  | consumerFatal =>
      rw [cls] at holds
      cases holds
  | replan | transient | capacity =>
      rw [cls] at holds
      cases holds
      exact held member.blocked _
  | blockingPipeline | blockingPartition | openRefusal =>
      rw [cls] at holds
      cases holds
      exact held true _

/-- A member waits on, and carries what waited before. -/
structure Goes (before after : Member) : Prop where
  waiting : after.Waiting
  carries : Carries before after

theorem Goes.keeps {watch : Watch} {delivered : Option KafkaMessage} (goes : Goes member after) :
    Keeps watch delivered member after where
  waiting := goes.waiting
  stays := goes.carries.stays

theorem Goes.refl (waiting : member.Waiting) : Goes member member := ⟨waiting, .refl member⟩

/-- From there on nothing of the partitions changes, except that more are paused. -/
theorem Goes.of_same {between : Member} (goes : Goes member between)
    (parts : after.parts = between.parts)
    (paused : ∀ partition, partition ∈ between.paused → partition ∈ after.paused)
    (started : after.started = between.started) : Goes member after where
  waiting := goes.waiting.of_same (fun _ => by rw [parts]) paused started
  carries := goes.carries.trans (.of_parts fun _ => by rw [parts])

variable (log) in
theorem Goes.refreshed (waiting : member.Waiting) (refresh : Refresh) :
    Goes member (member.refreshAndReset log refresh).1 :=
  ⟨waiting.refreshAndReset log refresh, refreshed_carries refresh⟩

theorem Goes.reset (waiting : member.Waiting) {refresh : Refresh}
    {keep : Member → Option KafkaBatch} {fresh : Member} {changed : List Int}
    (spares : Spares log member keep refresh)
    (resets : member.refreshAndReset log refresh = (fresh, .ok changed)) :
    Goes member (fresh.repositionChanged changed (keep fresh)) where
  waiting := by
    have refreshed := waiting.refreshAndReset log refresh
    rw [resets] at refreshed
    exact refreshed.repositionChanged changed (keep fresh)
  carries := reset_carries spares resets

theorem Goes.holdForClass {between : Member} (goes : Goes member between) {batch : KafkaBatch}
    {error : KafkaError} (holds : between.holdForClass batch error = some after) :
    Goes member after := by
  have held : ∀ (blocked : Bool) (why : HeldFor),
      Goes member ({ between with blocked := blocked }.hold batch why) :=
    fun _ _ => goes.of_same rfl (fun _ present => List.mem_append_left _ present) rfl
  unfold Member.holdForClass at holds
  cases cls : error.kafkaClass with
  | consumerFatal =>
      rw [cls] at holds
      cases holds
  | replan | transient | capacity =>
      rw [cls] at holds
      cases holds
      exact held between.blocked _
  | blockingPipeline | blockingPartition | openRefusal =>
      rw [cls] at holds
      cases holds
      exact held true _

theorem Goes.freshen (waiting : member.Waiting) (batch : KafkaBatch) {aging : Option Refresh}
    (spares : ∀ refresh, aging = some refresh →
      Spares log member (fun _ => some batch) refresh) :
    Goes member (member.freshen log batch aging).1 := by
  unfold Member.freshen
  cases aging with
  | none => exact .refl waiting
  | some refresh =>
      simp only
      cases resets : member.refreshAndReset log refresh with
      | mk fresh outcome =>
          cases outcome with
          | error error =>
              have refreshed := Goes.refreshed log waiting refresh
              rw [resets] at refreshed
              exact refreshed
          | ok changed => exact .reset waiting (spares refresh rfl) resets

theorem Goes.tryCommit (waiting : member.Waiting) {attempt : Attempt} {batch : KafkaBatch}
    (spares : ∀ refresh, attempt.aging = some refresh →
      Spares log member (fun _ => some batch) refresh) :
    Goes member (member.tryCommit log attempt batch).1 := by
  have fresh := Goes.freshen waiting batch spares
  unfold Member.tryCommit
  simp only
  generalize member.freshen log batch attempt.aging = result at fresh ⊢
  obtain ⟨between, _ | error⟩ := result
  · simp only at fresh ⊢
    cases between.movedPartition batch with
    | some partition => exact fresh
    | none =>
        cases attempt.early with
        | some error => exact fresh
        | none =>
            simp only
            unfold Member.plan
            simp only
            cases (between.fence.verify (attempt.reading.answer (between.table log))
              batch.ranges).2 with
            | some error => exact fresh.of_same rfl (fun _ present => present) rfl
            | none =>
                cases attempt.late with
                | some error => exact fresh.of_same rfl (fun _ present => present) rfl
                | none => exact fresh.of_same rfl (fun _ present => present) rfl
  · exact fresh

theorem Keeps.attempted {watch : Watch} {delivered : Option KafkaMessage}
    (waiting : member.Waiting) {attempt : Attempt} {batch : KafkaBatch} (leaving : Bool)
    (spares : ∀ refresh, attempt.aging = some refresh →
      Spares log member (fun _ => some batch) refresh) :
    Keeps watch delivered member (member.attempted log attempt batch leaving) := by
  have tried := Goes.tryCommit waiting spares
  unfold Member.attempted
  generalize member.tryCommit log attempt batch = result at tried ⊢
  obtain ⟨between, error | offsets⟩ := result
  · simp only
    unfold Member.failed
    cases leaving with
    | true => exact .unassign
    | false =>
        apply Goes.keeps
        exact tried.of_same rfl (fun _ present => present) rfl
  · apply Goes.keeps
    exact tried.of_same rfl (fun _ present => present) rfl

/-- A reset that keeps the batch or drops it. -/
theorem Goes.kept (waiting : member.Waiting) {refresh : Refresh} {batch : KafkaBatch}
    {fresh : Member} {changed : List Int}
    (spares : Spares log member (Member.kept batch) refresh)
    (resets : member.refreshAndReset log refresh = (fresh, .ok changed)) :
    Goes member (fresh.repositionChanged changed
      (if (fresh.movedPartition batch).isNone then some batch else none)) :=
  .reset waiting spares resets

theorem Goes.afterFailure (waiting : member.Waiting) {refresh : Refresh} {batch : KafkaBatch}
    {error : KafkaError}
    (spares : error.kafkaClass = .replan → Spares log member (Member.kept batch) refresh)
    (settles : member.afterFailure log refresh batch error = some after) : Goes member after := by
  unfold Member.afterFailure at settles
  by_cases replans : error.kafkaClass = .replan
  · rw [if_pos replans] at settles
    unfold Member.resetInPlace at settles
    cases resets : member.refreshAndReset log refresh with
    | mk fresh outcome =>
        rw [resets] at settles
        cases outcome with
        | error failure =>
            have refreshed := Goes.refreshed log waiting refresh
            rw [resets] at refreshed
            exact refreshed.holdForClass settles
        | ok changed =>
            have reset := Goes.kept waiting (spares replans) resets
            simp only at settles
            by_cases stays : (fresh.movedPartition batch).isNone
            · rw [if_pos stays] at settles reset
              cases settles
              exact reset.of_same rfl (fun _ present => present) rfl
            · rw [if_neg stays] at settles reset
              cases settles
              exact reset.of_same rfl (fun _ present => present) rfl
  · rw [if_neg replans] at settles
    exact (Goes.refl waiting).holdForClass settles

theorem Goes.heldDue (waiting : member.Waiting) {refresh : Refresh} {held : Held}
    (spares : held.heldFor = .operator →
      Spares log { member with held := none } (Member.kept held.batch) refresh)
    (due : member.heldDue log refresh held = some after) : Goes member after := by
  have taken : Waiting { member with held := none } :=
    waiting.of_same (fun _ => rfl) (fun _ present => present) rfl
  have same : Carries member { member with held := none } := .of_parts fun _ => rfl
  suffices goes : Goes { member with held := none } after from
    ⟨goes.waiting, same.trans goes.carries⟩
  unfold Member.heldDue at due
  simp only at due
  by_cases operator : held.heldFor = .operator
  · rw [if_pos operator] at due
    unfold Member.recheckForBatch at due
    cases resets : Member.refreshAndReset log { member with held := none } refresh with
    | mk fresh outcome =>
        rw [resets] at due
        cases outcome with
        | error failure =>
            have refreshed := Goes.refreshed log taken refresh
            rw [resets] at refreshed
            simp only at due
            by_cases fatal : failure.kafkaClass = .consumerFatal
            · rw [if_pos fatal] at due
              cases due
            · rw [if_neg fatal] at due
              cases due
              exact refreshed.of_same rfl (fun _ present => List.mem_append_left _ present) rfl
        | ok changed =>
            have reset := Goes.kept taken (spares operator) resets
            simp only at due
            by_cases stays : (fresh.movedPartition held.batch).isNone
            · rw [if_pos stays] at due reset
              cases due
              exact reset.of_same rfl (fun _ present => present) rfl
            · rw [if_neg stays] at due reset
              cases due
              exact reset.of_same rfl (fun _ present => present) rfl
  · rw [if_neg operator] at due
    cases due
    exact (Goes.refl taken).of_same rfl (fun _ present => present) rfl

theorem Keeps.recheckBlocked {watch : Watch} {delivered : Option KafkaMessage}
    (waiting : member.Waiting) {refresh : Refresh} {watermarks : Watermarks}
    (spares : Spares log member (fun _ => none) refresh)
    (checked : ResumesChecked log explicit watch member refresh watermarks)
    (rechecked : member.recheckBlocked log explicit refresh watermarks = some after) :
    Keeps watch delivered member after := by
  unfold Member.recheckBlocked at rechecked
  cases resets : member.refreshAndReset log refresh with
  | mk fresh outcome =>
      rw [resets] at rechecked
      cases outcome with
      | error failure =>
          have refreshed := Goes.refreshed log waiting refresh
          rw [resets] at refreshed
          simp only at rechecked
          by_cases fatal : failure.kafkaClass = .consumerFatal
          · rw [if_pos fatal] at rechecked
            cases rechecked
          · rw [if_neg fatal] at rechecked
            cases rechecked
            apply Goes.keeps
            exact refreshed.of_same rfl (fun _ present => present) rfl
      | ok changed =>
          have reset := Goes.reset waiting spares resets
          have view := repositionChanged_view fresh changed none
          have wasBlocked : ∀ partition,
              (fresh.repositionChanged changed none).IsBlocked partition →
                member.IsBlocked partition := by
            intro partition blocked
            obtain ⟨handle, fence, same⟩ := member.refreshAndReset_rest log refresh
            rw [resets] at same
            simp only at same
            have before := repositionChanged_blocked blocked
            rw [same] at before
            exact before
          have checkedHere := checked fresh changed resets
          simp only at rechecked reset
          generalize fresh.repositionChanged changed none = again at rechecked reset view wasBlocked
          by_cases nobody : again.toResolve.isEmpty
          · rw [if_pos nobody] at rechecked
            cases rechecked
            apply Goes.keeps
            exact reset.of_same rfl (fun _ present => present) rfl
          · rw [if_neg nobody] at rechecked
            cases watermarks with
            | none =>
                cases rechecked
                exact reset.keeps
            | some ranges =>
                cases rechecked
                have unblocked : Goes member { again with blocked := false } :=
                  reset.of_same rfl (fun _ present => present) rfl
                constructor
                · apply unblocked.waiting.resolveAll
                  intro partition among
                  obtain ⟨block, found⟩ := mem_toResolve again among
                  exact reset.waiting.blocked partition block found
                · intro partition mark watched before _unsettled
                  have lookup := resolveAll_lookup { again with blocked := false } explicit ranges
                    again.toResolve partition
                  have sameFence : ({ again with blocked := false } : Member).fence = fresh.fence :=
                    view.2
                  rw [found_of_fence fresh sameFence] at lookup
                  have stays : again.pending partition = some mark ∨ again.IsBlocked partition := by
                    rcases before with waits | blocked
                    · exact reset.carries.pending partition mark waits
                    · exact Or.inr (reset.carries.blocked partition blocked)
                  rcases stays with waits | ⟨block, blocked⟩
                  · obtain ⟨next, start, found⟩ := pending_ready waits
                    have away : partition ∉ again.toResolve := by
                      intro among
                      obtain ⟨block, blocked⟩ := mem_toResolve again among
                      rw [found] at blocked
                      cases blocked
                    rw [if_neg away] at lookup
                    exact Or.inl ⟨mark, pending_of_lookup (lookup.trans found)⟩
                  · by_cases among : partition ∈ again.toResolve
                    · rw [if_pos among] at lookup
                      cases finds : fresh.found explicit ranges partition with
                      | none =>
                          rw [finds] at lookup
                          exact Or.inr (Or.inl ⟨block, lookup.trans blocked⟩)
                      | some start =>
                          rw [finds] at lookup
                          cases start with
                          | blocked other => exact Or.inr (Or.inl ⟨other, lookup⟩)
                          | ready offset reread =>
                              obtain ⟨recorded, rfl⟩ := checkedHere partition mark watched
                                (wasBlocked partition ⟨block, blocked⟩) ranges offset reread rfl
                                finds
                              exact Or.inl ⟨recorded, pending_of_lookup lookup⟩
                    · rw [if_neg among] at lookup
                      exact Or.inr (Or.inl ⟨block, lookup.trans blocked⟩)

theorem feed_parts (message : KafkaMessage) (fed : Fed) :
    (member.feed message fed).parts = member.parts := by
  cases fed with
  | taken => rfl
  | waits => rfl

variable (member) in
theorem take_lookup {message : KafkaMessage} (fed : Fed)
    (reading : message.partition ∉ member.paused) (partition : Int) :
    (member.take message fed).parts.lookup partition =
      match (member.parts.admitMessage message.partition message.mark).2 with
      | .block block =>
          if partition = message.partition then some (.blocked block)
          else (member.parts.admitMessage message.partition message.mark).1.lookup partition
      | _ => (member.parts.admitMessage message.partition message.mark).1.lookup partition := by
  unfold Member.take
  rw [if_neg reading]
  generalize member.parts.admitMessage message.partition message.mark = result
  obtain ⟨parts, gap | why | block⟩ := result
  · simp only [feed_parts]
  · rfl
  · exact Assoc.lookup_put _ _ _ _

variable (member) in
theorem take_lookup_of_ne {message : KafkaMessage} (fed : Fed) {partition : Int}
    (away : partition ≠ message.partition) :
    (member.take message fed).parts.lookup partition = member.parts.lookup partition := by
  by_cases paused : message.partition ∈ member.paused
  · unfold Member.take
    rw [if_pos paused]
  · rw [take_lookup member fed paused, Partitions.admitMessage_of_ne _ away]
    cases (member.parts.admitMessage message.partition message.mark).2 with
    | take gap => rfl
    | drop why => rfl
    | block block => exact if_neg away

theorem settles_of_compare {message : KafkaMessage} {mark : MessageMark}
    (reading : message.partition ∉ member.paused)
    (waits : member.pending message.partition = some mark)
    (there : message.mark.offset = mark.offset) : member.settles message mark = true := by
  unfold settles compares
  simp [reading, waits, there]

theorem settles_of_pass {message : KafkaMessage} {mark : MessageMark}
    (reading : message.partition ∉ member.paused) (past : mark.offset < message.mark.offset)
    (started : member.started.lookup message.partition = some mark.offset) :
    member.settles message mark = true := by
  unfold settles passes
  simp [reading, past, started]

theorem Keeps.take {watch : Watch} (waiting : member.Waiting) (message : KafkaMessage)
    (fed : Fed) : Keeps watch (some message) member (member.take message fed) where
  waiting := waiting.take message fed
  stays := by
    intro partition mark _watched before unsettled
    by_cases same : partition = message.partition
    · subst same
      by_cases paused : message.partition ∈ member.paused
      · unfold Member.take
        rw [if_pos paused]
        exact before.imp (fun waits => ⟨mark, waits⟩) Or.inl
      · have lookup := take_lookup member fed paused message.partition
        have open_ := unsettled message rfl rfl
        rcases before with waits | ⟨block, blocked⟩
        · obtain ⟨next, start, found⟩ := pending_ready waits
          obtain ⟨decision, parts⟩ := Partitions.admitMessage_ready found message.mark
          rw [decision, parts] at lookup
          rcases Partitions.admitReady_cases next start (some (.expect mark)) message.mark with
            same | ⟨recorded, _expects, _there, same⟩ | ⟨expected, expects, there, _same⟩ |
              ⟨gap, past, _same⟩
          · rw [same] at lookup
            exact Or.inl ⟨mark, pending_of_lookup lookup⟩
          · rw [same] at lookup
            simp only [if_true] at lookup
            exact Or.inr (Or.inl ⟨_, lookup⟩)
          · cases expects
            rw [settles_of_compare paused waits there] at open_
            cases open_
          · rcases past with ⟨nothing, _next⟩ | ⟨expected, expects, past⟩
            · cases nothing
            · cases expects
              rcases (waiting.pending _ next start mark found).2 with held | started
              · exact absurd held paused
              · rw [settles_of_pass paused past started] at open_
                cases open_
        · rw [Partitions.admitMessage_blocked blocked] at lookup
          exact Or.inr (Or.inl ⟨block, lookup.trans blocked⟩)
    · have lookup := take_lookup_of_ne member fed same
      rcases before with waits | ⟨block, blocked⟩
      · obtain ⟨next, start, found⟩ := pending_ready waits
        exact Or.inl ⟨mark, pending_of_lookup (lookup.trans found)⟩
      · exact Or.inr (Or.inl ⟨block, lookup.trans blocked⟩)

/-- The message an event delivers. -/
def Event.delivered : Event → Option KafkaMessage
  | .deliver message _ => some message
  | _ => none

theorem Goes.blockAll (waiting : member.Waiting) (blocks : List (Int × Block)) :
    Goes member (member.blockAll blocks) where
  waiting := waiting.blockAll blocks
  carries := by
    constructor
    · intro partition mark waits
      obtain ⟨next, start, found⟩ := pending_ready waits
      rcases blockAll_lookup member blocks partition with ⟨block, _among, blocked⟩ | ⟨_away, same⟩
      · exact Or.inr ⟨block, blocked⟩
      · exact Or.inl (pending_of_lookup (same.trans found))
    · rintro partition ⟨block, found⟩
      rcases blockAll_lookup member blocks partition with ⟨other, _among, blocked⟩ | ⟨_away, same⟩
      · exact ⟨other, blocked⟩
      · exact ⟨block, same.trans found⟩

theorem Goes.outOfRange (waiting : member.Waiting) (watermarks : Watermarks) :
    Goes member (member.outOfRange watermarks) := by
  have more : ∀ partitions, Goes member (member.pause partitions) := fun partitions =>
    (Goes.refl waiting).of_same rfl (fun _ present => List.mem_append_left _ present) rfl
  unfold Member.outOfRange
  cases watermarks with
  | none => exact more _
  | some ranges =>
      by_cases nobody : (member.offenders ranges).isEmpty
      · simp only [if_pos nobody]
        exact more _
      · simp only [if_neg nobody]
        exact .blockAll waiting _

theorem Goes.feedStalled (waiting : member.Waiting) (fed : Fed) :
    Goes member (member.feedStalled fed) where
  waiting := waiting.feedStalled fed
  carries := by
    apply Carries.of_parts
    intro partition
    unfold Member.feedStalled
    cases member.stalled with
    | none => rfl
    | some message => simp only [feed_parts]

theorem Waiting.assign {partitions : List Int} {refresh : Refresh} {watermarks : Watermarks}
    (assigned : member.assign log explicit partitions refresh watermarks = some after) :
    after.Waiting := by
  have unread : ∀ fresh : Member, ({ fresh with blocked := true }.takeStarts partitions
      fun _ => .blocked .unresolved).Waiting := by
    intro fresh
    apply Waiting.takeStarts
    intro partition offset mark starts
    cases starts
  unfold Member.assign Member.readStarts at assigned
  generalize member.refreshThenReset log partitions refresh = result at assigned
  obtain ⟨fresh, _ | failure⟩ := result
  · simp only at assigned
    cases watermarks with
    | none =>
        by_cases fatal : (KafkaError.raised .transient).kafkaClass = .consumerFatal
        · cases fatal
        · simp only [if_neg fatal] at assigned
          cases assigned
          exact unread fresh
    | some ranges =>
        cases assigned
        apply Waiting.takeStarts
        intro partition offset mark starts
        exact startOf_pending starts
  · simp only at assigned
    by_cases fatal : failure.kafkaClass = .consumerFatal
    · rw [if_pos fatal] at assigned
      cases assigned
    · rw [if_neg fatal] at assigned
      cases assigned
      exact unread fresh

theorem Keeps.polled {watch : Watch} (waiting : member.Waiting) {event : Event}
    (spares : event.Spares log explicit watch member)
    (polls : member.polled log explicit event = some after) :
    Keeps watch event.delivered member after := by
  have same : Goes member member := .refl waiting
  unfold Member.polled at polls
  cases event with
  | assign partitions refresh watermarks =>
      by_cases free : member.parts.isEmpty && member.held.isNone
      · simp only [if_pos free] at polls
        constructor
        · exact Waiting.assign polls
        · intro partition mark _watched before _unsettled
          have nothing := List.isEmpty_iff.mp (Bool.and_eq_true_iff.mp free).1
          rcases before with waits | ⟨block, blocked⟩
          · obtain ⟨next, start, found⟩ := pending_ready waits
            rw [nothing] at found
            cases found
          · rw [nothing] at blocked
            cases blocked
      · simp only [if_neg free] at polls
        cases polls
  | revoke =>
      cases polls
      unfold Member.flushThenUnassign
      by_cases nothing : member.parts.isEmpty || member.blocked || member.stalled.isSome
      · rw [if_pos nothing]
        exact .unassign
      · rw [if_neg nothing]
        cases member.held with
        | some held =>
            apply Goes.keeps
            exact same.of_same rfl (fun _ present => present) rfl
        | none =>
            by_cases empty : member.buf.isEmpty
            · simp only [if_pos empty]
              exact .unassign
            · simp only [if_neg empty]
              apply Goes.keeps
              exact same.of_same rfl (fun _ present => present) rfl
  | lost =>
      cases polls
      exact .unassign
  | deliver message fed =>
      cases polls
      exact .take waiting message fed
  | feedStalled fed =>
      cases polls
      exact (Goes.feedStalled waiting fed).keeps
  | outOfRange watermarks =>
      cases polls
      exact (Goes.outOfRange waiting watermarks).keeps
  | close =>
      by_cases closes : member.held.isNone && member.stalled.isNone && !member.buf.isEmpty
      · simp only [if_pos closes] at polls
        cases polls
        apply Goes.keeps
        exact same.of_same rfl (fun _ present => present) rfl
      · simp only [if_neg closes] at polls
        cases polls
  | due refresh =>
      obtain ⟨held, found, due⟩ := Option.bind_eq_some_iff.mp polls
      exact (Goes.heldDue waiting (spares held found) due).keeps
  | recheck refresh watermarks =>
      by_cases free : member.held.isNone
      · simp only [if_pos free] at polls
        exact .recheckBlocked waiting spares.1 spares.2 polls
      · simp only [if_neg free] at polls
        cases polls
  | release unsought =>
      by_cases free : member.held.isNone && member.stalled.isNone && !member.blocked
      · simp only [if_pos free] at polls
        cases polls
        constructor
        · exact waiting.release unsought
        · exact (Carries.of_parts fun _ => rfl).stays
      · simp only [if_neg free] at polls
        cases polls
  | attempt tried => cases polls
  | settle refresh => cases polls

theorem Keeps.react {watch : Watch} (waiting : member.Waiting) {event : Event}
    (spares : event.Spares log explicit watch member)
    (reacts : member.react log explicit event = some after) :
    Keeps watch event.delivered member after := by
  unfold Member.react at reacts
  cases working : member.work with
  | polling =>
      simp only [working] at reacts
      exact .polled waiting spares reacts
  | retry batch leaving =>
      simp only [working] at reacts
      cases event with
      | attempt tried =>
          cases reacts
          exact .attempted waiting leaving fun refresh same =>
            spares batch leaving refresh working same
      | _ => cases reacts
  | failing batch error =>
      simp only [working] at reacts
      cases event with
      | settle refresh =>
          exact (Goes.afterFailure waiting (spares batch error working) reacts).keeps
      | _ => cases reacts
  | committing batch offsets leaving =>
      simp only [working] at reacts
      cases reacts

theorem Keeps.failed {watch : Watch} (waiting : member.Waiting) (batch : KafkaBatch)
    (leaving : Bool) (error : KafkaError) :
    Keeps watch none member (member.failed batch leaving error) := by
  unfold Member.failed
  cases leaving with
  | true => exact .unassign
  | false =>
      apply Goes.keeps
      exact (Goes.refl waiting).of_same rfl (fun _ present => present) rfl

theorem Keeps.refused {watch : Watch} (waiting : member.Waiting) (error : KafkaError) :
    Keeps watch none member (member.refused error) := by
  unfold Member.refused
  cases member.work with
  | committing batch offsets leaving => exact .failed waiting batch leaving error
  | polling => exact (Goes.refl waiting).keeps
  | retry batch leaving => exact (Goes.refl waiting).keeps
  | failing batch failure => exact (Goes.refl waiting).keeps

theorem Keeps.heard {watch : Watch} (waiting : member.Waiting) (unwritable : Bool) :
    Keeps watch none member (member.heard log unwritable) := by
  unfold Member.heard
  cases member.work with
  | committing batch offsets leaving =>
      cases leaving with
      | true => exact .unassign
      | false =>
          apply Goes.keeps
          unfold Member.committed
          cases unwritable with
          | true =>
              exact (Goes.refl waiting).of_same rfl
                (fun _ present => List.mem_append_left _ present) rfl
          | false => exact (Goes.refl waiting).of_same rfl (fun _ present => present) rfl
  | polling => exact (Goes.refl waiting).keeps
  | retry batch leaving => exact (Goes.refl waiting).keeps
  | failing batch failure => exact (Goes.refl waiting).keeps

/-- What is watched waits, or is blocked. -/
def Watched (watch : Watch) (member : Member) : Prop :=
  ∀ partition mark, watch partition = some mark →
    member.pending partition = some mark ∨ member.IsBlocked partition

theorem Watched.next {watch : Watch} {delivered : Option KafkaMessage}
    (watched : Watched watch member) (stays : Stays watch member after delivered) :
    Watched (watchAfter watch member after delivered) after := by
  intro partition mark opened
  unfold watchAfter at opened
  cases waits : after.pending partition with
  | some other =>
      simp only [waits] at opened
      exact Or.inl opened
  | none =>
      simp only [waits] at opened
      by_cases own : after.isOwned partition
      · rw [if_pos own] at opened
        obtain ⟨before, unsettled⟩ := Option.filter_eq_some_iff.mp opened
        have open_ : ∀ message, delivered = some message → message.partition = partition →
            member.settles message mark = false := by
          rintro message rfl same
          simpa [same] using unsettled
        rcases stays partition mark before (watched partition mark before) open_ with
          ⟨other, still⟩ | blocked | gone
        · rw [waits] at still
          cases still
        · exact Or.inr blocked
        · rw [gone] at own
          cases own
      · rw [if_neg own] at opened
        cases opened

theorem Watched.not_bypassed {watch : Watch} (watched : Watched watch member)
    (waiting : member.Waiting) (message : KafkaMessage) :
    bypasses watch member message = false := by
  unfold bypasses
  cases opened : watch message.partition with
  | none => exact Bool.and_false _
  | some mark =>
      by_cases paused : message.partition ∈ member.paused
      · simp [takes, paused]
      · rcases watched message.partition mark opened with waits | ⟨block, blocked⟩
        · obtain ⟨next, start, found⟩ := pending_ready waits
          have decision := (Partitions.admitMessage_ready found message.mark).1
          rcases Partitions.admitReady_cases next start (some (.expect mark)) message.mark with
            same | ⟨recorded, _expects, _there, same⟩ | ⟨expected, _expects, _there, same⟩ |
              ⟨gap, past, _same⟩
          · simp [takes, decision, same]
          · simp [takes, decision, same]
          · simp [takes, decision, same]
          · rcases past with ⟨nothing, _next⟩ | ⟨expected, expects, past⟩
            · cases nothing
            · cases expects
              rcases (waiting.pending _ next start mark found).2 with held | started
              · exact absurd held paused
              · simp [settles_of_pass paused past started]
        · simp [takes, Partitions.admitMessage_blocked blocked]

end Member

namespace Group

variable {explicit : Int → Option Int}

/-- The message an event delivers to a member. -/
def Event.deliveredTo (index : Nat) : Event → Option KafkaMessage
  | .ofMember own event => if own = index then event.delivered else none
  | _ => none

/-- The watches of every member after an event. -/
def watchAfter (watch : Nat → Watch) (before after : Group) (event : Event) : Nat → Watch :=
  fun index =>
    match before.members[index]?, after.members[index]? with
    | some one, some other =>
        Kafka.watchAfter (watch index) one other (event.deliveredTo index)
    | _, _ => fun _ => none

/-- An event whose resets leave what waits for a re-read. -/
def Spares (explicit : Int → Option Int) (group : Group) (watch : Nat → Watch) : Event → Prop
  | .ofMember index event => ∀ member, group.members[index]? = some member →
      event.Spares group.txns explicit (watch index) member
  | _ => True

/-- A run with what is watched in it; each event meets a condition where it happens. -/
inductive WatchedRuns (explicit : Int → Option Int)
    (condition : Group → (Nat → Watch) → Event → Prop) (first : Group) :
    Group → (Nat → Watch) → Prop
  | refl : WatchedRuns explicit condition first first fun _ _ => none
  | tail {before after : Group} {watch : Nat → Watch} {event : Event}
      (earlier : WatchedRuns explicit condition first before watch)
      (meets : condition before watch event)
      (happens : before.apply explicit event = some after) :
      WatchedRuns explicit condition first after (watchAfter watch before after event)

/-- Every member waits with what is watched of it. -/
def Guarded (group : Group) (watch : Nat → Watch) : Prop :=
  ∀ index member, group.members[index]? = some member →
    member.Waiting ∧ Member.Watched (watch index) member

/-- What an event makes of each member: what it keeps of the one before, or one that owns
nothing. -/
theorem apply_members {group after : Group} {watch : Nat → Watch} {event : Event}
    (guarded : group.Guarded watch) (spares : group.Spares explicit watch event)
    (happens : group.apply explicit event = some after) {index : Nat} {other : Member}
    (found : after.members[index]? = some other) :
    (∃ member, group.members[index]? = some member ∧
      Member.Keeps (watch index) (event.deliveredTo index) member other) ∨
    group.members[index]? = none ∧ other.parts = [] := by
  have set_cases : ∀ {own : Nat} {member next : Member} {delivered : Option KafkaMessage},
      group.members[own]? = some member → (group.members.set own next)[index]? = some other →
      (own = index → Member.Keeps (watch index) delivered member next) →
      (own ≠ index → delivered = none) →
      ∃ member, group.members[index]? = some member ∧
        Member.Keeps (watch index) delivered member other := by
    intro own member next delivered held set keeps elsewhere
    rw [List.getElem?_set] at set
    by_cases same : own = index
    · subst same
      have bound := (List.getElem?_eq_some_iff.mp held).1
      simp only [if_true, if_pos bound] at set
      cases set
      exact ⟨member, held, keeps rfl⟩
    · rw [if_neg same] at set
      refine ⟨other, set, ?_⟩
      rw [elsewhere same]
      exact (Member.Goes.refl (guarded index other set).1).keeps
  cases event with
  | ofMember own event =>
      obtain ⟨member, held, reacts⟩ := Option.bind_eq_some_iff.mp happens
      obtain ⟨next, reacted, same⟩ := Option.bind_eq_some_iff.mp reacts
      cases same
      apply Or.inl
      apply set_cases held found
      · rintro rfl
        simp only [Event.deliveredTo, if_true]
        exact .react (guarded own member held).1 (spares member held) reacted
      · intro elsewhere
        simp only [Event.deliveredTo, if_neg elsewhere]
  | landed own unwritable =>
      obtain ⟨member, held, lands⟩ := Option.bind_eq_some_iff.mp happens
      obtain ⟨sent, _sends, lands⟩ := Option.bind_eq_some_iff.mp lands
      by_cases through : sent.1.letThrough group.txns
      · simp only [if_pos through] at lands
        cases lands
        apply Or.inl
        apply set_cases held found
        · rintro rfl
          exact .heard (guarded own member held).1 unwritable
        · exact fun _ => rfl
      · simp only [if_neg through] at lands
        cases lands
  | unheard own error =>
      obtain ⟨member, held, lands⟩ := Option.bind_eq_some_iff.mp happens
      obtain ⟨sent, _sends, lands⟩ := Option.bind_eq_some_iff.mp lands
      by_cases through : sent.1.letThrough group.txns
      · simp only [if_pos through] at lands
        cases lands
        apply Or.inl
        apply set_cases held found
        · rintro rfl
          exact .refused (guarded own member held).1 error
        · exact fun _ => rfl
      · simp only [if_neg through] at lands
        cases lands
  | refused own error =>
      obtain ⟨member, held, refuses⟩ := Option.bind_eq_some_iff.mp happens
      obtain ⟨_sent, _sends, same⟩ := Option.bind_eq_some_iff.mp refuses
      cases same
      apply Or.inl
      apply set_cases held found
      · rintro rfl
        exact .refused (guarded own member held).1 error
      · exact fun _ => rfl
  | timedOut own =>
      obtain ⟨member, held, leaves⟩ := Option.bind_eq_some_iff.mp happens
      obtain ⟨sent, _sends, leaves⟩ := Option.bind_eq_some_iff.mp leaves
      by_cases leaving : member.leaves
      · simp only [if_pos leaving] at leaves
        cases leaves
        apply Or.inl
        exact set_cases held found (fun _ => .unassign) fun _ => rfl
      · simp only [if_neg leaving] at leaves
        cases leaves
  | restarted own handle =>
      obtain ⟨member, held, same⟩ := Option.bind_eq_some_iff.mp happens
      cases same
      apply Or.inl
      exact set_cases held found (fun _ => ⟨.unowned rfl, .of_unowned rfl⟩) fun _ => rfl
  | joined handle =>
      cases happens
      rcases Nat.lt_or_ge index group.members.length with within | beyond
      · rw [List.getElem?_append_left within] at found
        exact Or.inl ⟨other, found, (Member.Goes.refl (guarded index other found).1).keeps⟩
      · rw [List.getElem?_append_right beyond] at found
        apply Or.inr
        constructor
        · exact List.getElem?_eq_none beyond
        · rw [List.mem_singleton.mp (List.mem_of_getElem? found)]
          rfl
  | lands own =>
      obtain ⟨sent, _found, lands⟩ := Option.bind_eq_some_iff.mp happens
      by_cases through : sent.1.letThrough group.txns
      · simp only [if_pos through] at lands
        cases lands
        exact Or.inl ⟨other, found, (Member.Goes.refl (guarded index other found).1).keeps⟩
      · simp only [if_neg through] at lands
        cases lands
  | foreign txns =>
      cases happens
      exact Or.inl ⟨other, found, (Member.Goes.refl (guarded index other found).1).keeps⟩

theorem Guarded.step {group after : Group} {watch : Nat → Watch} {event : Event}
    (guarded : group.Guarded watch) (spares : group.Spares explicit watch event)
    (happens : group.apply explicit event = some after) :
    after.Guarded (watchAfter watch group after event) := by
  intro index other found
  unfold watchAfter
  rcases apply_members guarded spares happens found with ⟨member, held, keeps⟩ | ⟨fresh, nothing⟩
  · rw [held, found]
    exact ⟨keeps.waiting, Member.Watched.next (guarded index member held).2 keeps.stays⟩
  · rw [fresh]
    constructor
    · exact .unowned nothing
    · intro partition mark opened
      cases opened

/-- In every run whose resets spare the partitions that wait for their re-read, no member takes a
message of a partition before its re-read is settled. -/
theorem reread_first {log : List TargetCommit} {last : Group} {watch : Nat → Watch}
    (runs : WatchedRuns explicit (fun group watch event => group.Spares explicit watch event)
      { log := log, members := [] } last watch) :
    ∀ index member message, last.members[index]? = some member →
      bypasses (watch index) member message = false := by
  have guarded : last.Guarded watch := by
    induction runs with
    | refl =>
        intro index member found
        cases found
    | tail _earlier meets happens ih => exact ih.step meets happens
  intro index member message found
  obtain ⟨waiting, watched⟩ := guarded index member found
  exact watched.not_bypassed waiting message

/-! ### A re-read that a reset of another partition's batch drops -/

/-- The member owns partitions 0 and 1, each stored at 5; partition 1 is read first. -/
def quietPartition (aging : Option Refresh) : List Event := [
  .joined 1,
  .ofMember 0 (.assign [0, 1] (.done 1 (.marks [(0, ⟨5, 105, 10⟩)])) (some [(0, 0, 9), (1, 0, 9)])),
  .ofMember 0 (.deliver ⟨1, ⟨5, 105, 10⟩, .row⟩ .taken),
  .ofMember 0 (.deliver ⟨1, ⟨6, 106, 10⟩, .row⟩ .taken),
  .ofMember 0 .close,
  .ofMember 0 (.attempt { aging := aging }),
  .landed 0 false,
  .ofMember 0 (.release [])]

def bothStored : Group :=
  { log := [{ txns := [(.partition 0, 5), (.partition 1, 5)] }], members := [] }

/-- The group and its watches after events that can all happen. -/
def watchedRun (explicit : Int → Option Int) :
    Group → (Nat → Watch) → List Event → Option (Group × (Nat → Watch))
  | group, watch, [] => some (group, watch)
  | group, watch, event :: rest =>
      match group.apply explicit event with
      | some after => watchedRun explicit after (watchAfter watch group after event) rest
      | none => none

theorem WatchedRuns.extend {condition : Group → (Nat → Watch) → Event → Prop}
    {events : List Event} {first between last : Group} {watch before : Nat → Watch}
    (earlier : WatchedRuns explicit condition first between before)
    (runs : watchedRun explicit between before events = some (last, watch))
    (meets : ∀ group watch event, event ∈ events → condition group watch event) :
    WatchedRuns explicit condition first last watch := by
  induction events generalizing between before with
  | nil =>
      cases runs
      exact earlier
  | cons event events ih =>
      unfold watchedRun at runs
      cases happens : between.apply explicit event with
      | none =>
          rw [happens] at runs
          cases runs
      | some after =>
          rw [happens] at runs
          apply ih (earlier.tail (meets between before event List.mem_cons_self) happens) runs
          exact fun group watch other later =>
            meets group watch other (List.mem_cons_of_mem _ later)

def quietAfter (aging : Option Refresh) : Group × (Nat → Watch) :=
  (watchedRun (fun _ => none) bothStored (fun _ _ => none) (quietPartition aging)).getD
    (bothStored, fun _ _ => none)

/-- A message past the stored offset of a topic that may be another. -/
def pastMessage : KafkaMessage := ⟨0, ⟨6, 999, 99⟩, .row⟩

theorem quietPartition_reread :
    ∃ member, (quietAfter none).1.members[0]? = some member ∧
      bypasses ((quietAfter none).2 0) member pastMessage = false := by
  have runs : watchedRun (fun _ => none) bothStored (fun _ _ => none) (quietPartition none) =
      some (quietAfter none) := rfl
  have reread : ∀ member, (quietAfter none).1.members[0]? = some member →
      bypasses ((quietAfter none).2 0) member pastMessage = false := by
    intro member found
    apply reread_first (.extend .refl runs _) 0 member pastMessage found
    intro group watch event among
    simp only [quietPartition, List.mem_cons, List.not_mem_nil, or_false] at among
    rcases among with rfl | rfl | rfl | rfl | rfl | rfl | rfl | rfl
    all_goals first
      | trivial
      | exact fun _ _ => trivial
      | exact fun _ _ _ _ _ _ same => nomatch same
  exact ⟨_, rfl, reread _ rfl⟩

/-- The aging refresh of partition 1's commit drops the re-read that partition 0 waits for. -/
theorem quietPartition_bypassed :
    ∃ last watch member,
      WatchedRuns (fun _ => none) (fun _ _ _ => True) bothStored last watch ∧
        last.members[0]? = some member ∧ bypasses (watch 0) member pastMessage = true := by
  have runs : watchedRun (fun _ => none) bothStored (fun _ _ => none)
      (quietPartition (some (.done 1 (.marks [(0, ⟨5, 105, 10⟩)])))) =
        some (quietAfter (some (.done 1 (.marks [(0, ⟨5, 105, 10⟩)])))) := rfl
  exact ⟨_, _, _, .extend .refl runs fun _ _ _ _ => trivial, rfl, by decide⟩

end Group

end Ddi.Kafka
