/-
The members of one pipeline's group over one target, and everything that can happen
to them in any order.

A commit that was sent lands when nothing after its snapshot wrote an id it carries.
One whose sender stopped waiting for it may land later.
-/

import Ddi.Kafka.Member

namespace Ddi.Kafka

open Registers (Writes read)

namespace Member

/-- What happens to a member by itself. -/
inductive Event
  | assign (partitions : List Int) (refresh : Refresh) (watermarks : Watermarks)
  | revoke
  /-- A revoke of partitions that were lost. -/
  | lost
  | deliver (message : KafkaMessage) (fed : Fed)
  | feedStalled (fed : Fed)
  | outOfRange (watermarks : Watermarks)
  | close
  | due (refresh : Refresh)
  | recheck (refresh : Refresh) (watermarks : Watermarks)
  | release (unsought : List Int)
  | attempt (attempt : Attempt)
  | settle (refresh : Refresh)
  deriving DecidableEq

variable (log : List (Writes TxnId Int)) (explicit : Int → Option Int) (member : Member)

/-- What an attempt that failed leads to: a flush's batch is dropped with its partitions. -/
def failed (batch : KafkaBatch) (leaving : Bool) (error : KafkaError) : Member :=
  if leaving then member.unassign else { member with work := .failing batch error }

def attempted (attempt : Attempt) (batch : KafkaBatch) (leaving : Bool) : Member :=
  match member.tryCommit log attempt batch with
  | (after, .error error) => after.failed batch leaving error
  | (after, .ok offsets) => { after with work := .committing batch offsets leaving }

/-- What a member that is polling does. -/
def polled : Event → Option Member
  | .assign partitions refresh watermarks =>
      -- the group gives partitions only to a member that has given up the ones before
      if member.parts.isEmpty && member.held.isNone then
        member.assign log explicit partitions refresh watermarks
      else none
  | .revoke => some member.flushThenUnassign
  | .lost => some member.unassign
  | .deliver message fed => some (member.take message fed)
  | .feedStalled fed => some (member.feedStalled fed)
  | .outOfRange watermarks => some (member.outOfRange watermarks)
  | .close =>
      if member.held.isNone && member.stalled.isNone && !member.buf.isEmpty then
        some (member.closeBatch false)
      else none
  | .due refresh => member.held.bind (member.heldDue log refresh)
  | .recheck refresh watermarks =>
      if member.held.isNone then member.recheckBlocked log explicit refresh watermarks else none
  | .release unsought =>
      if member.held.isNone && member.stalled.isNone && !member.blocked then
        some (member.release unsought)
      else none
  | .attempt _ => none
  | .settle _ => none

def react (event : Event) : Option Member :=
  match member.work with
  | .polling => member.polled log explicit event
  | .retry batch leaving =>
      match event with
      | .attempt attempt => some (member.attempted log attempt batch leaving)
      | _ => none
  | .failing batch error =>
      match event with
      | .settle refresh => member.afterFailure log refresh batch error
      | _ => none
  | .committing _ _ _ => none

/-- The commit a member has on its way. -/
def sent : Option (Plan × KafkaBatch) :=
  match member.work with
  | .committing batch offsets _ => some (⟨member.handle, offsets, []⟩, batch)
  | _ => none

/-- A flush with a time box is what the member is in the middle of. -/
def leaves : Bool :=
  match member.work with
  | .committing _ _ leaving => leaving
  | _ => false

/-- The commit landed, and the member hears of it. -/
def heard (unwritable : Bool) : Member :=
  match member.work with
  | .committing _ offsets leaving =>
      let after := member.committed log offsets unwritable
      if leaving then after.unassign else after
  | _ => member

/-- What came back of the commit is an error. -/
def refused (error : KafkaError) : Member :=
  match member.work with
  | .committing batch _ leaving => member.failed batch leaving error
  | _ => member

end Member

/-- A commit of the target: the transactions it carries, and the batch of a member's commit. -/
structure TargetCommit where
  txns : Writes TxnId Int
  batch : Option KafkaBatch := none
  deriving DecidableEq

structure Group where
  log : List TargetCommit
  members : List Member
  /-- Commits on their way whose sender no longer waits for them. -/
  floating : List (Plan × KafkaBatch) := []
  deriving DecidableEq

namespace Group

variable (explicit : Int → Option Int) (group : Group)

def txns : List (Writes TxnId Int) := group.log.map TargetCommit.txns

inductive Event
  | ofMember (index : Nat) (event : Member.Event)
  /-- A member's commit lands, and it hears so. -/
  | landed (index : Nat) (unwritable : Bool)
  /-- A member's commit lands, and an error comes back. -/
  | unheard (index : Nat) (error : KafkaError)
  /-- A member's commit does not land. -/
  | refused (index : Nat) (error : KafkaError)
  /-- A revoke's flush runs out of time with its commit on its way. -/
  | timedOut (index : Nat)
  /-- A member ends, and another process takes its place with the target at a version. -/
  | restarted (index : Nat) (handle : Nat)
  | joined (handle : Nat)
  /-- A commit nobody waits for lands. -/
  | lands (index : Nat)
  /-- Another writer commits. -/
  | foreign (txns : Writes TxnId Int)
  deriving DecidableEq

def set (index : Nat) (member : Member) : Group :=
  { group with members := group.members.set index member }

def append (sent : Plan × KafkaBatch) : Group :=
  { group with log := group.log ++ [{ txns := sent.1.offsets.txns, batch := some sent.2 }] }

def fresh (handle : Nat) : Member where
  handle := min handle group.log.length

def apply (event : Event) : Option Group :=
  match event with
  | .ofMember index event => do
      let member ← group.members[index]?
      let after ← member.react group.txns explicit event
      return group.set index after
  | .landed index unwritable => do
      let member ← group.members[index]?
      let sent ← member.sent
      if sent.1.letThrough group.txns then
        return (group.append sent).set index (member.heard group.txns unwritable)
      else none
  | .unheard index error => do
      let member ← group.members[index]?
      let sent ← member.sent
      if sent.1.letThrough group.txns then
        return (group.append sent).set index (member.refused error)
      else none
  | .refused index error => do
      let member ← group.members[index]?
      let _sent ← member.sent
      return group.set index (member.refused error)
  | .timedOut index => do
      let member ← group.members[index]?
      let sent ← member.sent
      if member.leaves then
        return { group with floating := sent :: group.floating }.set index member.unassign
      else none
  | .restarted index handle => do
      let member ← group.members[index]?
      return { group with floating := member.sent.toList ++ group.floating }.set index
        (group.fresh handle)
  | .joined handle => some { group with members := group.members ++ [group.fresh handle] }
  | .lands index => do
      let sent ← group.floating[index]?
      if sent.1.letThrough group.txns then
        return { group.append sent with floating := group.floating.eraseIdx index }
      else none
  | .foreign txns => some { group with log := group.log ++ [{ txns := txns }] }

/-- Events one after another; none when one of them cannot happen there. -/
def run (group : Group) : List Event → Option Group
  | [] => some group
  | event :: rest => (group.apply explicit event).bind fun after => run after rest

/-- A run each of whose events meets a condition in the state it happens in. -/
inductive Runs (condition : Group → Event → Prop) (first : Group) : Group → Prop
  | refl : Runs condition first first
  | tail {before after : Group} {event : Event} (earlier : Runs condition first before)
      (meets : condition before event) (happens : before.apply explicit event = some after) :
      Runs condition first after

variable {explicit} {condition : Group → Event → Prop}

theorem Runs.trans {first second third : Group} (one : Runs explicit condition first second)
    (other : Runs explicit condition second third) : Runs explicit condition first third := by
  induction other with
  | refl => exact one
  | tail _earlier meets happens ih => exact ih.tail meets happens

theorem Runs.of_run {events : List Event} {first last : Group}
    (runs : first.run explicit events = some last)
    (meets : ∀ group event, event ∈ events → condition group event) :
    Runs explicit condition first last := by
  induction events generalizing first with
  | nil =>
      cases runs
      exact .refl
  | cons event events ih =>
      obtain ⟨after, happens, rest⟩ := Option.bind_eq_some_iff.mp runs
      have step : Runs explicit condition first after :=
        Runs.refl.tail (meets first event List.mem_cons_self) happens
      exact step.trans (ih rest fun group other later =>
        meets group other (List.mem_cons_of_mem _ later))

/-- What holds at first and through every event that meets the condition holds at last. -/
theorem Runs.invariant {holds : Group → Prop} {first last : Group}
    (runs : Runs explicit condition first last) (atFirst : holds first)
    (step : ∀ before event after, holds before → condition before event →
      before.apply explicit event = some after → holds after) : holds last := by
  induction runs with
  | refl => exact atFirst
  | tail _earlier meets happens ih => exact step _ _ _ ih meets happens

end Group

end Ddi.Kafka
