/-
The target handle of every member over whole runs: what the fence carries is what the
table has at the handle's version, as long as no refresh moves the handle over a
carried partition's transaction and then fails.
-/

import Ddi.Kafka.MemberSemantics

namespace Ddi.Kafka

open Registers (Writes read)

theorem Reading.truthful (reading : Reading) (table : TxnId → Option Int) :
    (reading.answer table).Truthful table := by
  intro txns answered id
  cases reading with
  | retention => cases answered
  | failed cls => cases answered
  | marks beside =>
      cases answered
      rfl

namespace Member

variable (log : List (Writes TxnId Int)) (explicit : Int → Option Int) (member : Member)

/-! ### What the handle's table is to the fence -/

/-- The handle's version is in the log, and the fence carries what its table has. -/
structure Sees : Prop where
  within : member.handle ≤ log.length
  current : Current member.fence (member.table log)

variable {log explicit member}

theorem Sees.of_view {after : Member} (sees : member.Sees log) (same : SameView member after) :
    after.Sees log where
  within := by
    rw [same.1]
    exact sees.within
  current := by
    unfold Member.table
    rw [same.1, same.2]
    exact sees.current

theorem Sees.later (sees : member.Sees log) (more : List (Writes TxnId Int)) :
    member.Sees (log ++ more) where
  within := by
    rw [List.length_append]
    exact Nat.le_add_right_of_le sees.within
  current := by
    unfold Member.table
    rw [List.take_append_of_le_length sees.within]
    exact sees.current

end Member

/-- A refresh that moves the handle and then fails leaves it where every carried partition has
the offset the fence has for it. -/
def Refresh.Harmless (log : List (Writes TxnId Int)) (fence : Fence) : Refresh → Prop
  | .moved version _ => ∀ partition, partition ∈ fence.carried →
      read (log.take (min version log.length)) (.partition partition) = fence.baseOffset partition
  | _ => True

namespace Member

variable {log : List (Writes TxnId Int)} {explicit : Int → Option Int} {member : Member}

theorem Sees.refreshThenReset (sees : member.Sees log) (owned : List Int) {refresh : Refresh}
    (harmless : refresh.Harmless log member.fence) :
    (member.refreshThenReset log owned refresh).1.Sees log := by
  cases refresh with
  | unmoved error => exact sees
  | moved version error =>
      constructor
      · exact Nat.min_le_right version log.length
      · exact ⟨sees.current.owned, harmless⟩
  | done version reading =>
      constructor
      · exact Nat.min_le_right version log.length
      · exact Current.reset (reading.truthful _) owned

theorem Sees.refreshAndReset (sees : member.Sees log) {refresh : Refresh}
    (harmless : refresh.Harmless log member.fence) :
    (member.refreshAndReset log refresh).1.Sees log := by
  rw [refreshAndReset_fst]
  exact sees.refreshThenReset member.parts.owned harmless

theorem Sees.unassign (sees : member.Sees log) : member.unassign.Sees log := by
  constructor
  · exact sees.within
  · change Current (forgetAll member.fence member.parts.owned) (member.table log)
    have forgets : ∀ (partitions : List Int) (fence : Fence), Current fence (member.table log) →
        Current (forgetAll fence partitions) (member.table log) := by
      intro partitions
      induction partitions with
      | nil =>
          intro fence current
          exact current
      | cons partition partitions ih =>
          intro fence current
          exact ih (fence.forget partition) (current.forget partition)
    exact forgets _ _ sees.current

theorem Sees.failed (sees : member.Sees log) (batch : KafkaBatch) (leaving : Bool)
    (error : KafkaError) : (member.failed batch leaving error).Sees log := by
  unfold Member.failed
  cases leaving with
  | true => exact sees.unassign
  | false => exact sees.of_view ⟨rfl, rfl⟩

theorem Sees.freshen (sees : member.Sees log) (batch : KafkaBatch) {aging : Option Refresh}
    (harmless : ∀ refresh, aging = some refresh → refresh.Harmless log member.fence) :
    (member.freshen log batch aging).1.Sees log := by
  cases aging with
  | none => exact sees
  | some refresh =>
      have fresh := sees.refreshAndReset (harmless refresh rfl)
      unfold Member.freshen
      simp only
      generalize member.refreshAndReset log refresh = result at fresh ⊢
      obtain ⟨after, error | changed⟩ := result
      · exact fresh
      · exact fresh.of_view (repositionChanged_view _ _ _)

theorem Sees.plan (sees : member.Sees log) (attempt : Attempt) (batch : KafkaBatch) :
    (member.plan log attempt batch).1.Sees log := by
  have verified : Sees log { member with
      fence := (member.fence.verify (attempt.reading.answer (member.table log)) batch.ranges).1 } :=
    ⟨sees.within, sees.current.verify (attempt.reading.truthful _) batch.ranges⟩
  unfold Member.plan
  simp only
  cases (member.fence.verify (attempt.reading.answer (member.table log)) batch.ranges).2 with
  | some error => exact verified
  | none =>
      cases attempt.late with
      | some error => exact verified
      | none => exact verified

theorem Sees.tryCommit (sees : member.Sees log) {attempt : Attempt}
    (harmless : ∀ refresh, attempt.aging = some refresh → refresh.Harmless log member.fence)
    (batch : KafkaBatch) : (member.tryCommit log attempt batch).1.Sees log := by
  have fresh := sees.freshen batch harmless
  unfold Member.tryCommit
  simp only
  generalize member.freshen log batch attempt.aging = result at fresh ⊢
  obtain ⟨after, _ | error⟩ := result
  · simp only
    cases after.movedPartition batch with
    | some partition => exact fresh
    | none =>
        cases attempt.early with
        | some error => exact fresh
        | none => exact Sees.plan fresh attempt batch
  · exact fresh

theorem Sees.attempted (sees : member.Sees log) {attempt : Attempt}
    (harmless : ∀ refresh, attempt.aging = some refresh → refresh.Harmless log member.fence)
    (batch : KafkaBatch) (leaving : Bool) :
    (member.attempted log attempt batch leaving).Sees log := by
  have tried := sees.tryCommit harmless batch
  unfold Member.attempted
  generalize member.tryCommit log attempt batch = result at tried ⊢
  obtain ⟨after, error | offsets⟩ := result
  · exact Sees.failed tried batch leaving error
  · exact Sees.of_view tried ⟨rfl, rfl⟩

theorem Sees.afterFailure (sees : member.Sees log) {refresh : Refresh}
    (harmless : refresh.Harmless log member.fence) {batch : KafkaBatch} {error : KafkaError}
    {after : Member} (settles : member.afterFailure log refresh batch error = some after) :
    after.Sees log := by
  unfold Member.afterFailure at settles
  by_cases replans : error.kafkaClass = .replan
  · rw [if_pos replans] at settles
    unfold Member.resetInPlace at settles
    have fresh := sees.refreshAndReset harmless
    generalize member.refreshAndReset log refresh = result at fresh settles
    obtain ⟨again, failure | changed⟩ := result
    · exact Sees.of_view fresh (holdForClass_view again settles)
    · simp only at settles
      by_cases stays : (again.movedPartition batch).isNone
      · rw [if_pos stays] at settles
        cases settles
        exact (Sees.of_view fresh (repositionChanged_view again changed (some batch))).of_view
          ⟨rfl, rfl⟩
      · rw [if_neg stays] at settles
        cases settles
        exact (Sees.of_view fresh (repositionChanged_view again changed none)).of_view ⟨rfl, rfl⟩
  · rw [if_neg replans] at settles
    exact sees.of_view (holdForClass_view member settles)

theorem Sees.heldDue (sees : member.Sees log) {refresh : Refresh}
    (harmless : refresh.Harmless log member.fence) {held : Held} {after : Member}
    (due : member.heldDue log refresh held = some after) : after.Sees log := by
  have taken : Sees log { member with held := none } := sees.of_view ⟨rfl, rfl⟩
  unfold Member.heldDue at due
  simp only at due
  by_cases operator : held.heldFor = .operator
  · rw [if_pos operator] at due
    unfold Member.recheckForBatch at due
    have fresh := taken.refreshAndReset harmless
    generalize Member.refreshAndReset log { member with held := none } refresh = result at fresh due
    obtain ⟨again, failure | changed⟩ := result
    · simp only at due
      by_cases fatal : failure.kafkaClass = .consumerFatal
      · rw [if_pos fatal] at due
        cases due
      · rw [if_neg fatal] at due
        cases due
        exact Sees.of_view fresh ⟨rfl, rfl⟩
    · simp only at due
      by_cases stays : (again.movedPartition held.batch).isNone
      · rw [if_pos stays] at due
        cases due
        exact (Sees.of_view fresh (repositionChanged_view again changed (some held.batch))).of_view
          ⟨rfl, rfl⟩
      · rw [if_neg stays] at due
        cases due
        exact (Sees.of_view fresh (repositionChanged_view again changed none)).of_view ⟨rfl, rfl⟩
  · rw [if_neg operator] at due
    cases due
    exact taken.of_view ⟨rfl, rfl⟩

theorem Sees.recheckBlocked (sees : member.Sees log) {refresh : Refresh}
    (harmless : refresh.Harmless log member.fence) {watermarks : Watermarks} {after : Member}
    (rechecked : member.recheckBlocked log explicit refresh watermarks = some after) :
    after.Sees log := by
  unfold Member.recheckBlocked at rechecked
  have fresh := sees.refreshAndReset harmless
  generalize member.refreshAndReset log refresh = result at fresh rechecked
  obtain ⟨found, failure | changed⟩ := result
  · simp only at rechecked
    by_cases fatal : failure.kafkaClass = .consumerFatal
    · rw [if_pos fatal] at rechecked
      cases rechecked
    · rw [if_neg fatal] at rechecked
      cases rechecked
      exact Sees.of_view fresh ⟨rfl, rfl⟩
  · simp only at rechecked
    have again := Sees.of_view fresh (repositionChanged_view found changed none)
    by_cases nobody : (found.repositionChanged changed none).toResolve.isEmpty
    · rw [if_pos nobody] at rechecked
      cases rechecked
      exact again.of_view ⟨rfl, rfl⟩
    · rw [if_neg nobody] at rechecked
      cases watermarks with
      | none =>
          cases rechecked
          exact again
      | some ranges =>
          cases rechecked
          apply Sees.of_view _ (resolveAll_view _ explicit ranges _)
          exact again.of_view ⟨rfl, rfl⟩

theorem Sees.assign (sees : member.Sees log) {partitions : List Int} {refresh : Refresh}
    (harmless : refresh.Harmless log member.fence) {watermarks : Watermarks} {after : Member}
    (assigned : member.assign log explicit partitions refresh watermarks = some after) :
    after.Sees log := by
  unfold Member.assign Member.readStarts at assigned
  have fresh := sees.refreshThenReset partitions harmless
  generalize member.refreshThenReset log partitions refresh = result at fresh assigned
  obtain ⟨found, _ | failure⟩ := result
  · simp only at assigned
    cases watermarks with
    | none =>
        simp only at assigned
        by_cases fatal : (KafkaError.raised .transient).kafkaClass = .consumerFatal
        · cases fatal
        · rw [if_neg fatal] at assigned
          cases assigned
          exact Sees.of_view fresh ⟨rfl, rfl⟩
    | some ranges =>
        cases assigned
        exact Sees.of_view fresh ⟨rfl, rfl⟩
  · simp only at assigned
    by_cases fatal : failure.kafkaClass = .consumerFatal
    · rw [if_pos fatal] at assigned
      cases assigned
    · rw [if_neg fatal] at assigned
      cases assigned
      exact Sees.of_view fresh ⟨rfl, rfl⟩

/-- The refresh an event makes. -/
def Event.refresh : Event → Option Refresh
  | .assign _ refresh _ => some refresh
  | .due refresh => some refresh
  | .recheck refresh _ => some refresh
  | .settle refresh => some refresh
  | .attempt tried => tried.aging
  | _ => none

theorem Sees.polled (sees : member.Sees log) {event : Event}
    (harmless : ∀ refresh, event.refresh = some refresh → refresh.Harmless log member.fence)
    {after : Member} (polls : member.polled log explicit event = some after) : after.Sees log := by
  unfold Member.polled at polls
  cases event with
  | assign partitions refresh watermarks =>
      by_cases free : member.parts.isEmpty && member.held.isNone
      · simp only [if_pos free] at polls
        exact sees.assign (harmless refresh rfl) polls
      · simp only [if_neg free] at polls
        cases polls
  | revoke =>
      cases polls
      unfold Member.flushThenUnassign
      by_cases nothing : member.parts.isEmpty || member.blocked || member.stalled.isSome
      · rw [if_pos nothing]
        exact sees.unassign
      · rw [if_neg nothing]
        cases member.held with
        | some held => exact sees.of_view ⟨rfl, rfl⟩
        | none =>
            by_cases empty : member.buf.isEmpty
            · simp only [if_pos empty]
              exact sees.unassign
            · simp only [if_neg empty]
              exact sees.of_view ⟨rfl, rfl⟩
  | lost =>
      cases polls
      exact sees.unassign
  | deliver message fed =>
      cases polls
      exact sees.of_view (take_view member message fed)
  | feedStalled fed =>
      cases polls
      exact sees.of_view (feedStalled_view member fed)
  | outOfRange watermarks =>
      cases polls
      exact sees.of_view (outOfRange_view member watermarks)
  | close =>
      by_cases closes : member.held.isNone && member.stalled.isNone && !member.buf.isEmpty
      · simp only [if_pos closes] at polls
        cases polls
        exact sees.of_view ⟨rfl, rfl⟩
      · simp only [if_neg closes] at polls
        cases polls
  | due refresh =>
      obtain ⟨held, _found, due⟩ := Option.bind_eq_some_iff.mp polls
      exact sees.heldDue (harmless refresh rfl) due
  | recheck refresh watermarks =>
      by_cases free : member.held.isNone
      · simp only [if_pos free] at polls
        exact sees.recheckBlocked (harmless refresh rfl) polls
      · simp only [if_neg free] at polls
        cases polls
  | release unsought =>
      by_cases free : member.held.isNone && member.stalled.isNone && !member.blocked
      · simp only [if_pos free] at polls
        cases polls
        exact sees.of_view ⟨rfl, rfl⟩
      · simp only [if_neg free] at polls
        cases polls
  | attempt attempt => cases polls
  | settle refresh => cases polls

theorem Sees.react (sees : member.Sees log) {event : Event}
    (harmless : ∀ refresh, event.refresh = some refresh → refresh.Harmless log member.fence)
    {after : Member} (reacts : member.react log explicit event = some after) : after.Sees log := by
  unfold Member.react at reacts
  cases working : member.work with
  | polling =>
      simp only [working] at reacts
      exact sees.polled harmless reacts
  | retry batch leaving =>
      simp only [working] at reacts
      cases event with
      | attempt attempt =>
          cases reacts
          exact sees.attempted (fun refresh same => harmless refresh same) batch leaving
      | _ => cases reacts
  | failing batch error =>
      simp only [working] at reacts
      cases event with
      | settle refresh => exact sees.afterFailure (harmless refresh rfl) reacts
      | _ => cases reacts
  | committing batch offsets leaving =>
      simp only [working] at reacts
      cases reacts

theorem Sees.refused (sees : member.Sees log) (error : KafkaError) :
    (member.refused error).Sees log := by
  unfold Member.refused
  cases member.work with
  | committing batch offsets leaving => exact sees.failed batch leaving error
  | polling => exact sees
  | retry batch leaving => exact sees
  | failing batch failure => exact sees

theorem heard_sees {sent : Plan × KafkaBatch} (unwritable : Bool)
    (sends : member.sent = some sent) :
    (member.heard log unwritable).Sees (log ++ [sent.1.offsets.txns]) := by
  unfold Member.sent at sends
  unfold Member.heard
  cases working : member.work with
  | committing batch offsets leaving =>
      rw [working] at sends
      cases sends
      have landed : Sees (log ++ [offsets.txns]) (member.committed log offsets unwritable) := by
        have whole : (log ++ [offsets.txns]).take (log.length + 1) = log ++ [offsets.txns] :=
          List.take_of_length_le (by simp)
        unfold Member.committed
        cases unwritable with
        | true =>
            constructor
            · simp [Member.pauseAll, Member.pause]
            · change Current _ (read ((log ++ [offsets.txns]).take (log.length + 1)))
              rw [whole]
              exact Current.committed member.fence log offsets
        | false =>
            constructor
            · simp
            · change Current _ (read ((log ++ [offsets.txns]).take (log.length + 1)))
              rw [whole]
              exact Current.committed member.fence log offsets
      cases leaving with
      | true => exact landed.unassign
      | false => exact landed
  | polling =>
      rw [working] at sends
      cases sends
  | retry batch leaving =>
      rw [working] at sends
      cases sends
  | failing batch failure =>
      rw [working] at sends
      cases sends

/-- Where a commit is planned, the fence carries what the handle's table has. -/
def PlansCurrent (log : List (Writes TxnId Int)) (member : Member) : Prop :=
  ∀ batch offsets leaving, member.work = .committing batch offsets leaving →
    ∀ partition, partition ∈ member.fence.carried →
      member.table log (.partition partition) = member.fence.baseOffset partition

end Member

namespace Group

variable {explicit : Int → Option Int}

/-- The event's refresh does not leave a handle moved over a carried partition's transaction. -/
def Harmless (group : Group) : Event → Prop
  | .ofMember index event => ∀ member, group.members[index]? = some member →
      ∀ refresh, event.refresh = some refresh → refresh.Harmless group.txns member.fence
  | _ => True

def AllSee (group : Group) : Prop := ∀ member, member ∈ group.members → member.Sees group.txns

theorem txns_append (group : Group) (sent : Plan × KafkaBatch) :
    (group.append sent).txns = group.txns ++ [sent.1.offsets.txns] := by
  unfold Group.append Group.txns
  rw [List.map_append]
  rfl

theorem AllSee.set {group : Group} (all : group.AllSee) {index : Nat} {member : Member}
    (sees : member.Sees group.txns) : (group.set index member).AllSee := by
  intro other among
  rcases List.mem_or_eq_of_mem_set among with old | rfl
  · exact all other old
  · exact sees

theorem AllSee.append {group : Group} (all : group.AllSee) (sent : Plan × KafkaBatch) :
    (group.append sent).AllSee := by
  intro member among
  rw [txns_append]
  exact (all member among).later _

theorem fresh_sees (group : Group) (handle : Nat) : (group.fresh handle).Sees group.txns where
  within := by
    unfold Group.txns
    rw [List.length_map]
    exact Nat.min_le_right handle group.log.length
  current := Current.fresh

theorem AllSee.apply {group after : Group} {event : Event} (all : group.AllSee)
    (harmless : group.Harmless event) (happens : group.apply explicit event = some after) :
    after.AllSee := by
  cases event with
  | ofMember index event =>
      obtain ⟨member, found, reacts⟩ := Option.bind_eq_some_iff.mp happens
      obtain ⟨next, reacted, same⟩ := Option.bind_eq_some_iff.mp reacts
      cases same
      apply all.set
      exact (all member (List.mem_of_getElem? found)).react (harmless member found) reacted
  | landed index unwritable =>
      obtain ⟨member, found, lands⟩ := Option.bind_eq_some_iff.mp happens
      obtain ⟨sent, sends, lands⟩ := Option.bind_eq_some_iff.mp lands
      by_cases through : sent.1.letThrough group.txns
      · simp only [if_pos through] at lands
        cases lands
        apply (all.append sent).set
        rw [txns_append]
        exact Member.heard_sees unwritable sends
      · simp only [if_neg through] at lands
        cases lands
  | unheard index error =>
      obtain ⟨member, found, lands⟩ := Option.bind_eq_some_iff.mp happens
      obtain ⟨sent, _sends, lands⟩ := Option.bind_eq_some_iff.mp lands
      by_cases through : sent.1.letThrough group.txns
      · simp only [if_pos through] at lands
        cases lands
        apply (all.append sent).set
        rw [txns_append]
        exact ((all member (List.mem_of_getElem? found)).refused error).later _
      · simp only [if_neg through] at lands
        cases lands
  | refused index error =>
      obtain ⟨member, found, refuses⟩ := Option.bind_eq_some_iff.mp happens
      obtain ⟨_sent, _sends, same⟩ := Option.bind_eq_some_iff.mp refuses
      cases same
      exact all.set ((all member (List.mem_of_getElem? found)).refused error)
  | timedOut index =>
      obtain ⟨member, found, leaves⟩ := Option.bind_eq_some_iff.mp happens
      obtain ⟨sent, _sends, leaves⟩ := Option.bind_eq_some_iff.mp leaves
      by_cases leaving : member.leaves
      · simp only [if_pos leaving] at leaves
        cases leaves
        have sees := (all member (List.mem_of_getElem? found)).unassign
        exact AllSee.set (fun other among => all other among) sees
      · simp only [if_neg leaving] at leaves
        cases leaves
  | restarted index handle =>
      obtain ⟨_member, _found, same⟩ := Option.bind_eq_some_iff.mp happens
      cases same
      exact AllSee.set (fun other among => all other among) (fresh_sees group handle)
  | joined handle =>
      cases happens
      intro member among
      rcases List.mem_append.mp among with old | new
      · exact all member old
      · rw [List.mem_singleton.mp new]
        exact fresh_sees group handle
  | lands index =>
      obtain ⟨sent, _found, lands⟩ := Option.bind_eq_some_iff.mp happens
      by_cases through : sent.1.letThrough group.txns
      · simp only [if_pos through] at lands
        cases lands
        exact fun member among => all.append sent member among
      · simp only [if_neg through] at lands
        cases lands
  | foreign txns =>
      cases happens
      intro member among
      have grown : Group.txns { group with log := group.log ++ [{ txns := txns }] } =
          group.txns ++ [txns] := List.map_append
      rw [grown]
      exact (all member among).later _

/-- In every run whose refreshes are harmless, whenever a commit is planned every carried
partition has in the fence the transaction the table has at the handle's version. -/
theorem plans_current {log : List TargetCommit} {last : Group}
    (runs : Runs explicit Harmless { log := log, members := [] } last) :
    ∀ member, member ∈ last.members → member.PlansCurrent last.txns := by
  have all : last.AllSee := by
    apply runs.invariant
    · intro member among
      cases among
    · intro before event after all harmless happens
      exact all.apply harmless happens
  intro member among _batch _offsets _leaving _planned partition carried
  exact (all member among).current.known partition carried

/-! ### A member that commits from a handle moved under its offsets -/

def sampleMessage (offset : Int) : KafkaMessage := ⟨0, ⟨offset, 100 + offset, 10⟩, .row⟩

def storedAt (offset : Int) : Group := { log := [{ txns := [(.partition 0, offset)] }], members := [] }

/-- A member assigned partition 0 reads message 6 and tries to commit it. -/
def firstAttempt : List Event := [
  .joined 1,
  .ofMember 0 (.assign [0] (.done 1 (.marks [])) (some [(0, 0, 100)])),
  .ofMember 0 (.deliver (sampleMessage 5) .taken),
  .ofMember 0 (.deliver (sampleMessage 6) .taken),
  .ofMember 0 .close,
  .ofMember 0 (.attempt {})]

/-- Another writer commits the partition first; the refresh that follows moves the handle and
then fails, and the batch is tried again. -/
def secondAttempt : List Event := [
  .foreign [(.partition 0, 9)],
  .refused 0 .conflict,
  .ofMember 0 (.settle (.moved 2 (.raised .transient))),
  .ofMember 0 (.due (.unmoved (.raised .transient))),
  .ofMember 0 (.attempt {})]

def attempted (events : List Event) : Group :=
  ((storedAt 5).run (fun _ => none) events).getD (storedAt 5)

theorem firstAttempt_current :
    ∃ member, member ∈ (attempted firstAttempt).members ∧
      member.PlansCurrent (attempted firstAttempt).txns := by
  have runs : (storedAt 5).run (fun _ => none) firstAttempt = some (attempted firstAttempt) := rfl
  have current : ∀ member, member ∈ (attempted firstAttempt).members →
      member.PlansCurrent (attempted firstAttempt).txns := by
    apply plans_current
    apply Runs.of_run runs
    intro group event among
    simp only [firstAttempt, List.mem_cons, List.not_mem_nil, or_false] at among
    rcases among with rfl | rfl | rfl | rfl | rfl | rfl
    all_goals first | trivial | exact fun _ _ refresh same => by cases same <;> trivial
  exact ⟨_, List.mem_cons_self, current _ List.mem_cons_self⟩

/-- Message 6 is committed again over an offset of 9, which the fence does not know. -/
theorem secondAttempt_stale :
    ∃ last, Runs (fun _ => none) (fun _ _ => True) (storedAt 5) last ∧
      ¬ ∀ member, member ∈ last.members → member.PlansCurrent last.txns := by
  have runs : (storedAt 5).run (fun _ => none) (firstAttempt ++ secondAttempt) =
      some (attempted (firstAttempt ++ secondAttempt)) := rfl
  refine ⟨_, Runs.of_run runs fun _ _ _ => trivial, ?_⟩
  intro current
  have planned := current _ List.mem_cons_self _ _ _ rfl 0 (by decide)
  exact absurd planned (by decide)

end Group

end Ddi.Kafka
