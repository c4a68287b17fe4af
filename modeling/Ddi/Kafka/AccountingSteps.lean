/-
One event of a member keeps the accounting, whatever the member is in the middle of.

It rests on every reset that keeps a batch finding the batch's partitions where they were: one that
another writer moved and moved back is read again although the batch holds its messages.
-/

import Ddi.Kafka.AccountingCommits

namespace Ddi.Kafka

open Registers (Writes read)

/-- The brokers as a member meets them once an event is behind it. -/
def Brokers.after (brokers : Brokers) (before after : Member) : Member.Event → Brokers
  | .deliver message _ => brokers.past message
  | .assign _ _ _ => brokers.assigned after
  | .release _ => brokers.released before after
  | _ => brokers

namespace Member

variable {brokers : Brokers} {log : List (Writes TxnId Int)} {member after : Member}

/-- The messages and the watermarks of an event are the brokers' own. -/
def Event.Possible (brokers : Brokers) (member : Member) : Event → Prop
  | .deliver message _ => message.partition ∉ member.paused → brokers.Delivers message
  | .outOfRange watermarks => brokers.Truthful watermarks
  | .recheck _ watermarks => brokers.Truthful watermarks
  | .assign partitions _ watermarks =>
      brokers.Truthful watermarks ∧ Brokers.Covers watermarks partitions
  | _ => True

/-- The event's resets that keep a batch find its partitions where they were. -/
def Event.KeepsPlace (log : List (Writes TxnId Int)) (member : Member) : Event → Prop
  | .attempt tried => ∀ batch leaving refresh, member.work = .retry batch leaving →
      tried.aging = some refresh → Member.KeepsPlace log member batch refresh
  | .settle refresh => ∀ batch error, member.work = .failing batch error →
      error.kafkaClass = .replan → Member.KeepsPlace log member batch refresh
  | .due refresh => ∀ held, member.held = some held → held.heldFor = .operator →
      Member.KeepsPlace log { member with held := none } held.batch refresh
  | _ => True

/-! ### What a member is in the middle of -/

theorem feed_work (message : KafkaMessage) (fed : Fed) :
    (member.feed message fed).work = member.work := by
  cases fed <;> rfl

theorem take_work (message : KafkaMessage) (fed : Fed) :
    (member.take message fed).work = member.work := by
  unfold take
  by_cases paused : message.partition ∈ member.paused
  · rw [if_pos paused]
  · rw [if_neg paused]
    rcases member.parts.admitMessage message.partition message.mark with ⟨parts, _ | _ | _⟩
    · exact feed_work message fed
    · rfl
    · rfl

theorem feedStalled_work (fed : Fed) : (member.feedStalled fed).work = member.work := by
  unfold feedStalled
  cases member.stalled with
  | none => rfl
  | some message => exact feed_work message fed

theorem outOfRange_work (watermarks : Watermarks) :
    (member.outOfRange watermarks).work = member.work := by
  have blocks : ∀ (entries : List (Int × Block)) (member : Member),
      (member.blockAll entries).work = member.work := by
    intro entries
    unfold blockAll
    induction entries with
    | nil => exact fun member => rfl
    | cons entry entries ih => exact fun member => ih (member.blockPartition entry.1 entry.2)
  unfold outOfRange
  cases watermarks with
  | none => rfl
  | some ranges =>
      by_cases nobody : (member.offenders ranges).isEmpty
      · simp only [if_pos nobody]
        rfl
      · simp only [if_neg nobody]
        exact blocks _ member

theorem resolveAll_work (explicit : Int → Option Int) (ranges : List (Int × Int × Int))
    (partitions : List Int) :
    (member.resolveAll explicit ranges partitions).work = member.work := by
  unfold resolveAll
  induction partitions generalizing member with
  | nil => rfl
  | cons partition partitions ih =>
      rw [List.foldl_cons, ih, resolveOne_eq]
      cases member.found explicit ranges partition with
      | none => rfl
      | some start => cases start <;> rfl

theorem repositionChanged_work {changed : List Int} {survives : Option KafkaBatch} :
    (member.repositionChanged changed survives).work = member.work := by
  unfold repositionChanged undisturbed
  by_cases moved : member.bufferMoved changed
  · simp only [if_pos moved]
    rfl
  · simp only [if_neg moved]

theorem refreshAndReset_work (refresh : Refresh) :
    (member.refreshAndReset log refresh).1.work = member.work := by
  obtain ⟨handle, fence, same⟩ := member.refreshAndReset_rest log refresh
  rw [same]

theorem recheckBlocked_work {explicit : Int → Option Int} {refresh : Refresh}
    {watermarks : Watermarks}
    (rechecks : member.recheckBlocked log explicit refresh watermarks = some after) :
    after.work = member.work := by
  have working := @refreshAndReset_work log member refresh
  unfold recheckBlocked at rechecks
  rcases resets : member.refreshAndReset log refresh with ⟨found, error | changed⟩
  · rw [resets] at rechecks working
    dsimp only at rechecks working
    by_cases fatal : error.kafkaClass = .consumerFatal
    · rw [if_pos fatal] at rechecks
      cases rechecks
    · rw [if_neg fatal] at rechecks
      cases rechecks
      exact working
  · rw [resets] at rechecks working
    dsimp only at rechecks working
    have again : (found.repositionChanged changed none).work = member.work :=
      repositionChanged_work.trans working
    by_cases nobody : (found.repositionChanged changed none).toResolve.isEmpty
    · rw [if_pos nobody] at rechecks
      cases rechecks
      exact again
    · rw [if_neg nobody] at rechecks
      cases watermarks with
      | none =>
          cases rechecks
          exact again
      | some ranges =>
          cases rechecks
          rw [resolveAll_work]
          exact again

theorem assign_work {explicit : Int → Option Int} {partitions : List Int} {refresh : Refresh}
    {watermarks : Watermarks}
    (assigns : member.assign log explicit partitions refresh watermarks = some after) :
    after.work = member.work := by
  obtain ⟨handle, fence, rest⟩ := member.refreshThenReset_rest log partitions refresh
  have working : (member.refreshThenReset log partitions refresh).1.work = member.work := by
    rw [rest]
  unfold assign readStarts at assigns
  rcases resets : member.refreshThenReset log partitions refresh with ⟨found, outcome⟩
  rw [resets] at assigns working
  dsimp only at working
  have blocked : ∀ error : KafkaError,
      (if error.kafkaClass = .consumerFatal then none
        else some ({ found with blocked := true }.takeStarts partitions fun _ =>
          .blocked .unresolved)) = some after → after.work = member.work := by
    intro error takes
    by_cases fatal : error.kafkaClass = .consumerFatal
    · rw [if_pos fatal] at takes
      cases takes
    · rw [if_neg fatal] at takes
      cases takes
      exact working
  cases outcome with
  | some error => exact blocked error assigns
  | none =>
      cases watermarks with
      | none => exact blocked _ assigns
      | some ranges =>
          cases assigns
          exact working

/-- A member that polls, settles or rechecks is never left with a commit on its way. -/
def Quiet (member : Member) : Prop :=
  member.work = .polling ∨
    member.held = none ∧ ((∃ batch leaving, member.work = .retry batch leaving) ∨
      ∃ batch error, member.work = .failing batch error)

theorem Quiet.orderly (quiet : member.Quiet) : member.Orderly := by
  rcases quiet with polling | ⟨free, ⟨batch, leaving, trying⟩ | ⟨batch, error, failing⟩⟩
  · exact .polls polling
  · exact .tries free trying
  · exact .fails free failing

theorem holdForClass_quiet {batch : KafkaBatch} {error : KafkaError}
    (holds : member.holdForClass batch error = some after) : after.Quiet := by
  unfold holdForClass at holds
  cases cls : error.kafkaClass with
  | consumerFatal =>
      rw [cls] at holds
      cases holds
  | replan | transient | capacity | blockingPipeline | blockingPartition | openRefusal =>
      rw [cls] at holds
      cases holds
      exact Or.inl rfl

theorem afterFailure_quiet {batch : KafkaBatch} {error : KafkaError} {refresh : Refresh}
    (free : member.held = none)
    (settles : member.afterFailure log refresh batch error = some after) : after.Quiet := by
  unfold afterFailure at settles
  by_cases replans : error.kafkaClass = .replan
  · rw [if_pos replans] at settles
    unfold resetInPlace at settles
    rcases resets : member.refreshAndReset log refresh with ⟨found, failure | changed⟩
    · rw [resets] at settles
      exact holdForClass_quiet settles
    · rw [resets] at settles
      dsimp only at settles
      by_cases stays : (found.movedPartition batch).isNone
      · rw [if_pos stays] at settles
        cases settles
        apply Or.inr
        refine ⟨?_, Or.inl ⟨batch, false, rfl⟩⟩
        dsimp only
        rw [repositionChanged_held, (Refreshed.of_ok resets).held, free]
      · rw [if_neg stays] at settles
        cases settles
        exact Or.inl rfl
  · rw [if_neg replans] at settles
    exact holdForClass_quiet settles

theorem heldDue_quiet {held : Held} {refresh : Refresh} (polling : member.work = .polling)
    (due : member.heldDue log refresh held = some after) : after.Quiet := by
  unfold heldDue at due
  dsimp only at due
  by_cases operator : held.heldFor = .operator
  · rw [if_pos operator] at due
    unfold recheckForBatch at due
    rcases resets : refreshAndReset log { member with held := none } refresh with
      ⟨found, failure | changed⟩
    · rw [resets] at due
      dsimp only at due
      by_cases fatal : failure.kafkaClass = .consumerFatal
      · rw [if_pos fatal] at due
        cases due
      · rw [if_neg fatal] at due
        cases due
        exact Or.inl rfl
    · rw [resets] at due
      dsimp only at due
      have working := @refreshAndReset_work log { member with held := none } refresh
      rw [resets] at working
      by_cases stays : (found.movedPartition held.batch).isNone
      · rw [if_pos stays] at due
        cases due
        apply Or.inr
        refine ⟨?_, Or.inl ⟨held.batch, false, rfl⟩⟩
        dsimp only
        rw [repositionChanged_held, (Refreshed.of_ok resets).held]
      · rw [if_neg stays] at due
        cases due
        apply Or.inl
        dsimp only
        rw [repositionChanged_work]
        exact working.trans polling
  · rw [if_neg operator] at due
    cases due
    exact Or.inr ⟨rfl, Or.inl ⟨held.batch, false, rfl⟩⟩

/-! ### One event of a member -/

theorem idle_of_polling (polling : member.work = .polling) (free : member.held = none) :
    member.alive = none := by
  unfold alive
  rw [polling, free]
  rfl

theorem flushThenUnassign_keeps (accounts : member.Accounts brokers)
    (polling : member.work = .polling) :
    member.flushThenUnassign.Accounts brokers ∧ member.flushThenUnassign.Quiet := by
  unfold flushThenUnassign
  by_cases nothing : member.parts.isEmpty || member.blocked || member.stalled.isSome
  · rw [if_pos nothing]
    exact ⟨.unassign, Or.inl rfl⟩
  · rw [if_neg nothing]
    cases holding : member.held with
    | some held =>
        have lives : member.alive = some held.batch := by
          unfold alive
          rw [polling, holding]
          rfl
        have same : SameData member { member with held := none } :=
          ⟨rfl, rfl, rfl, rfl, rfl, rfl⟩
        have holds : Holds brokers { member with held := none } held.batch := by
          apply (accounts.holds held.batch lives).of_same same
          intro impossible
          cases impossible
        have tracks : Tracks brokers { member with held := none } :=
          accounts.tracks.of_same same fun _partition paused => paused
        exact ⟨holds.retry tracks true, Or.inr ⟨rfl, Or.inl ⟨held.batch, true, rfl⟩⟩⟩
    | none =>
        dsimp only
        by_cases empty : member.buf.isEmpty
        · rw [if_pos empty]
          exact ⟨.unassign, Or.inl rfl⟩
        · rw [if_neg empty]
          have stalled : member.stalled = none := by
            cases waits : member.stalled with
            | none => rfl
            | some message =>
                rw [waits] at nothing
                exact absurd (by simp) nothing
          constructor
          · exact accounts.closeBatch (idle_of_polling polling holding) holding stalled true
          · exact Or.inr ⟨holding, Or.inl ⟨member.closedBatch, true, rfl⟩⟩

theorem polled_keeps (accounts : member.Accounts brokers) (polling : member.work = .polling)
    {event : Event} (possible : event.Possible brokers member)
    (keeps : event.KeepsPlace log member)
    (polls : member.polled log brokers.explicit event = some after) :
    after.Accounts (brokers.after member after event) ∧ after.Orderly := by
  unfold polled at polls
  cases event with
  | assign partitions refresh watermarks =>
      dsimp only at polls
      by_cases free : member.parts.isEmpty && member.held.isNone
      · rw [if_pos free] at polls
        obtain ⟨nothing, unheld⟩ := Bool.and_eq_true_iff.mp free
        constructor
        · exact accounts.assign polling (List.isEmpty_iff.mp nothing)
            (Option.isNone_iff_eq_none.mp unheld) possible.1 possible.2 polls
        · exact .polls ((assign_work polls).trans polling)
      · rw [if_neg free] at polls
        cases polls
  | revoke =>
      cases polls
      obtain ⟨accounted, quiet⟩ := flushThenUnassign_keeps accounts polling
      exact ⟨accounted, quiet.orderly⟩
  | lost =>
      cases polls
      exact ⟨.unassign, .polls rfl⟩
  | deliver message fed =>
      cases polls
      constructor
      · exact accounts.take polling fed possible
      · exact .polls ((take_work message fed).trans polling)
  | feedStalled fed =>
      cases polls
      constructor
      · exact accounts.feedStalled fed
      · exact .polls ((feedStalled_work fed).trans polling)
  | outOfRange watermarks =>
      cases polls
      constructor
      · exact accounts.outOfRange possible
      · exact .polls ((outOfRange_work watermarks).trans polling)
  | close =>
      dsimp only at polls
      by_cases closes : member.held.isNone && member.stalled.isNone && !member.buf.isEmpty
      · rw [if_pos closes] at polls
        cases polls
        obtain ⟨both, _buffered⟩ := Bool.and_eq_true_iff.mp closes
        obtain ⟨unheld, unstalled⟩ := Bool.and_eq_true_iff.mp both
        have free := Option.isNone_iff_eq_none.mp unheld
        constructor
        · exact accounts.closeBatch (idle_of_polling polling free) free
            (Option.isNone_iff_eq_none.mp unstalled) false
        · exact .tries free rfl
      · rw [if_neg closes] at polls
        cases polls
  | due refresh =>
      obtain ⟨held, holding, due⟩ := Option.bind_eq_some_iff.mp polls
      constructor
      · exact accounts.heldDue polling holding (keeps held holding) due
      · exact (heldDue_quiet polling due).orderly
  | recheck refresh watermarks =>
      dsimp only at polls
      by_cases free : member.held.isNone
      · rw [if_pos free] at polls
        have unheld := Option.isNone_iff_eq_none.mp free
        constructor
        · exact accounts.recheckBlocked (idle_of_polling polling unheld) possible polls
        · exact .polls ((recheckBlocked_work polls).trans polling)
      · rw [if_neg free] at polls
        cases polls
  | release unsought =>
      dsimp only at polls
      by_cases free : member.held.isNone && member.stalled.isNone && !member.blocked
      · rw [if_pos free] at polls
        cases polls
        obtain ⟨both, _unblocked⟩ := Bool.and_eq_true_iff.mp free
        obtain ⟨unheld, unstalled⟩ := Bool.and_eq_true_iff.mp both
        constructor
        · exact accounts.release unsought
            (idle_of_polling polling (Option.isNone_iff_eq_none.mp unheld))
            (Option.isNone_iff_eq_none.mp unstalled)
        · exact .polls polling
      · rw [if_neg free] at polls
        cases polls
  | attempt tried => cases polls
  | settle refresh => cases polls

theorem react_keeps (accounts : member.Accounts brokers) (orderly : member.Orderly)
    {event : Event} (possible : event.Possible brokers member)
    (keeps : event.KeepsPlace log member)
    (reacts : member.react log brokers.explicit event = some after) :
    after.Accounts (brokers.after member after event) ∧ after.Orderly := by
  unfold react at reacts
  cases working : member.work with
  | polling =>
      rw [working] at reacts
      exact polled_keeps accounts working possible keeps reacts
  | retry batch leaving =>
      rw [working] at reacts
      cases event with
      | attempt tried =>
          cases reacts
          exact attempted_keeps accounts orderly working fun refresh same =>
            keeps batch leaving refresh working same
      | _ => cases reacts
  | failing batch error =>
      rw [working] at reacts
      cases event with
      | settle refresh =>
          have lives : member.alive = some batch := by
            unfold alive
            rw [working]
          have free : member.held = none := by
            apply orderly.free
            rw [working]
            intro impossible
            cases impossible
          constructor
          · exact (accounts.holds batch lives).afterFailure accounts.tracks free
              (keeps batch error working) reacts
          · exact (afterFailure_quiet free reacts).orderly
      | _ => cases reacts
  | committing batch offsets leaving =>
      rw [working] at reacts
      cases reacts

end Member

end Ddi.Kafka
