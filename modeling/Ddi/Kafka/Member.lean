/-
One member of a pipeline's consumer group: what it holds, and what it does when its
target is read again, when a batch closes, is committed or fails, and when partitions
are assigned, rechecked and given up.

What it meets outside (the answers of storage, of the brokers and of the registry)
are arguments. Times are left out: what is due may happen.
-/

import Ddi.Kafka.FenceRuns
import Ddi.Kafka.Start

namespace Ddi.Kafka

open Registers (Writes read)

/-- What decoding a message comes to. -/
inductive Payload
  | row
  | undecodable
  | tombstone
  deriving DecidableEq

structure KafkaMessage where
  partition : Int
  mark : MessageMark
  payload : Payload
  deriving DecidableEq

/-- One batch, read and closed, not yet committed. -/
structure KafkaBatch where
  decoded : List KafkaMessage
  ranges : List (Int × Int × Int)
  marks : List (Int × MessageMark)
  /-- Each partition's offset in the target when the batch was read. -/
  bases : List (Int × Option Int)
  deriving DecidableEq

inductive HeldFor
  | transient
  | capacity
  | operator
  deriving DecidableEq

structure Held where
  batch : KafkaBatch
  heldFor : HeldFor
  deriving DecidableEq

/-- What a member is in the middle of. -/
inductive Work
  | polling
  /-- A batch is tried next, before anything is polled; `leaving` when it is a revoke's flush. -/
  | retry (batch : KafkaBatch) (leaving : Bool)
  /-- A commit planned from the handle is on its way. -/
  | committing (batch : KafkaBatch) (offsets : KafkaOffsets) (leaving : Bool)
  /-- An attempt failed. -/
  | failing (batch : KafkaBatch) (error : KafkaError)
  deriving DecidableEq

structure Member where
  /-- The version the target handle is at. -/
  handle : Nat
  fence : Fence := {}
  parts : Partitions := []
  buf : Buffer := {}
  /-- What the decoder was fed since the last batch. -/
  decoder : List KafkaMessage := []
  /-- A message that waits for its writer schema. -/
  stalled : Option KafkaMessage := none
  held : Option Held := none
  work : Work := .polling
  blocked : Bool := false
  paused : List Int := []
  unbasedStart : List (Int × Int) := []
  /-- Where the consumer's delivery of each partition started. -/
  started : List (Int × Int) := []
  deriving DecidableEq

/-- What reading the offsets at a handle's version comes to: for a read that succeeds, the marks
found beside them. -/
inductive Reading
  | retention
  | failed (cls : KafkaClass)
  | marks (beside : List (Int × MessageMark))
  deriving DecidableEq

def Reading.answer (table : TxnId → Option Int) : Reading → Answer
  | retention => .retention
  | failed cls => .failed cls
  | marks beside => .found fun id => {
      version := table id
      mark := match id with
        | .partition partition => beside.lookup partition
        | .takeover => none }

/-- How far a refresh of the target gets. -/
inductive Refresh
  /-- It failed before the handle moved. -/
  | unmoved (error : KafkaError)
  /-- The handle moved, and a check after that failed. -/
  | moved (version : Nat) (error : KafkaError)
  /-- The target was refreshed, and the offsets are read at the handle's version. -/
  | done (version : Nat) (reading : Reading)
  deriving DecidableEq

/-- The low and high watermarks of the partitions asked for; none when they cannot be read. -/
abbrev Watermarks := Option (List (Int × Int × Int))

namespace Member

variable (log : List (Writes TxnId Int)) (member : Member)

/-- The transactions at the handle's version. -/
def table : TxnId → Option Int := read (log.take member.handle)

def isOwned (partition : Int) : Bool := (member.parts.lookup partition).isSome

/-- The offset a ready partition expects next. -/
def nextExpected (partition : Int) : Option Int :=
  match member.parts.lookup partition with
  | some (.ready next _ _) => some next
  | _ => none

def ready : List (Int × Int) :=
  member.parts.owned.filterMap fun partition =>
    (member.nextExpected partition).map fun next => (partition, next)

def pause (partitions : List Int) : Member :=
  { member with paused := member.paused ++ partitions }

def pauseAll : Member := member.pause member.parts.owned

/-! ### Reading the target again -/

/-- `refresh_target`, and `Fence::reset` where that succeeds. -/
def refreshThenReset (owned : List Int) : Refresh → Member × Option KafkaError
  | .unmoved error => (member, some error)
  | .moved version error => ({ member with handle := min version log.length }, some error)
  | .done version reading =>
      let moved := { member with handle := min version log.length }
      let result := member.fence.reset (reading.answer (moved.table log)) owned
      ({ moved with fence := result.1 }, result.2)

/-- The owned partitions whose offset is not the one `before` holds. -/
def changed (before : Fence) : List Int :=
  member.parts.owned.filter fun partition =>
    member.fence.baseOffset partition != before.baseOffset partition

def refreshAndReset (refresh : Refresh) : Member × Except KafkaError (List Int) :=
  let result := member.refreshThenReset log member.parts.owned refresh
  match result.2 with
  | some error => (result.1, .error error)
  | none => (result.1, .ok (result.1.changed member.fence))

/-- The next offset to read of a partition by its offset in the target. -/
def nextInTarget (partition : Int) : Option Int :=
  match member.fence.baseOffset partition with
  | some base => some (base + 1)
  | none => member.unbasedStart.lookup partition

/-- The buffer goes when it holds rows of a partition that moved. -/
def bufferMoved (changed : List Int) : Bool :=
  !member.buf.isEmpty && (member.buf.ranges.map Prod.fst).any changed.contains

def discard : Member :=
  { member with buf := {}, decoder := [], stalled := none }

/-- A ready partition that neither the batch kept nor the buffer accounts for, and that does not
expect the next offset by the target. -/
def misplaced (survives : Option KafkaBatch) (partition : Int) (nextExpected : Int) : Bool :=
  !(match survives with
    | some batch => (batch.ranges.lookup partition).isSome
    | none => false) &&
  (member.buf.ranges.lookup partition).isNone &&
  (match member.nextInTarget partition with
    | some next => next != nextExpected
    | none => false)

/-- The ready partitions among those that moved, were in a buffer dropped, or are misplaced. -/
def repositioned (again : List Int) (survives : Option KafkaBatch) : List Int :=
  member.parts.owned.filter fun partition =>
    match member.nextExpected partition with
    | some next => again.contains partition || member.misplaced survives partition next
    | none => false

def readyAgain (partitions : List Int) : Partitions :=
  member.parts.map fun entry =>
    (entry.1,
      if partitions.contains entry.1 then
        .ready ((member.nextInTarget entry.1).getD 0) ((member.nextInTarget entry.1).getD 0) none
      else entry.2)

/-- The buffer's partitions are read again with the ones that moved. -/
def again (changed : List Int) : List Int :=
  if member.bufferMoved changed then changed ++ member.buf.ranges.map Prod.fst else changed

def undisturbed (changed : List Int) : Member :=
  if member.bufferMoved changed then member.discard else member

def toReposition (changed : List Int) (survives : Option KafkaBatch) : List Int :=
  (member.undisturbed changed).repositioned (member.again changed) survives

/-- Partitions to read again after a reset, from their offset in the target. -/
def repositionChanged (changed : List Int) (survives : Option KafkaBatch) : Member :=
  let kept := member.undisturbed changed
  let pause := member.toReposition changed survives
  { kept with parts := kept.readyAgain pause, paused := kept.paused ++ pause }

/-! ### Batches -/

/-- A partition of the batch whose offset in the fence is not the one it was read from, or that
is not owned. -/
def movedPartition (batch : KafkaBatch) : Option Int :=
  (batch.ranges.map Prod.fst).find? fun partition =>
    !member.isOwned partition ||
      (member.fence.base.lookup partition).map Prod.fst != batch.bases.lookup partition

/-- The `Fenced` a batch whose partition moved under it is dropped with. -/
def moved (batch : KafkaBatch) (partition : Int) : KafkaError :=
  .fenced partition ((batch.bases.lookup partition).bind id) (member.fence.baseOffset partition)

def closedBatch : KafkaBatch where
  decoded := member.decoder.filter fun message => message.payload == .row
  ranges := member.buf.ranges
  marks := member.buf.marks
  bases := member.buf.ranges.map fun entry => (entry.1, member.fence.baseOffset entry.1)

def closeBatch (leaving : Bool) : Member :=
  { member with buf := {}, decoder := [], work := .retry member.closedBatch leaving }

def hold (batch : KafkaBatch) (why : HeldFor) : Member :=
  ({ member with held := some ⟨batch, why⟩, work := .polling }).pauseAll

/-- Hold a batch as the error's class says; none when the member ends. -/
def holdForClass (batch : KafkaBatch) (error : KafkaError) : Option Member :=
  match error.kafkaClass with
  | .consumerFatal => none
  | .capacity => some (member.hold batch .capacity)
  | .replan | .transient => some (member.hold batch .transient)
  | .blockingPipeline | .blockingPartition | .openRefusal =>
      some ({ member with blocked := true }.hold batch .operator)

/-! ### Committing -/

/-- What one attempt at a commit meets. -/
structure Attempt where
  /-- The refresh a handle that is old, or whose commit is gone, gets first. -/
  aging : Option Refresh := none
  /-- An error before the fence is asked. -/
  early : Option KafkaError := none
  /-- What the fence's look-up reads, if it reads. -/
  reading : Reading := .failed .transient
  /-- An error after that, and before the commit is sent. -/
  late : Option KafkaError := none
  deriving DecidableEq

/-- The refresh of an old handle, and the partitions it finds moved read again. -/
def freshen (batch : KafkaBatch) : Option Refresh → Member × Option KafkaError
  | none => (member, none)
  | some refresh =>
      match member.refreshAndReset log refresh with
      | (after, .error error) => (after, some error)
      | (after, .ok changed) => (after.repositionChanged changed (some batch), none)

/-- From the fence on: the batch's partitions verified, and the offsets of the commit. -/
def plan (attempt : Attempt) (batch : KafkaBatch) : Member × Except KafkaError KafkaOffsets :=
  let verified := member.fence.verify (attempt.reading.answer (member.table log)) batch.ranges
  let after := { member with fence := verified.1 }
  match verified.2 with
  | some error => (after, .error error)
  | none =>
      match attempt.late with
      | some error => (after, .error error)
      | none => (after, .ok (after.fence.offsets batch.ranges batch.marks))

/-- `try_commit`, up to the commit being sent. -/
def tryCommit (attempt : Attempt) (batch : KafkaBatch) :
    Member × Except KafkaError KafkaOffsets :=
  let fresh := member.freshen log batch attempt.aging
  match fresh.2 with
  | some error => (fresh.1, .error error)
  | none =>
      match fresh.1.movedPartition batch with
      | some partition => (fresh.1, .error (fresh.1.moved batch partition))
      | none =>
          match attempt.early with
          | some error => (fresh.1, .error error)
          | none => fresh.1.plan log attempt batch

/-- A batch committed, at the table's next version; `unwritable` when another writer upgraded
the protocol under it. -/
def committed (offsets : KafkaOffsets) (unwritable : Bool) : Member :=
  let after := { member with
    handle := log.length + 1
    fence := member.fence.committed offsets
    work := .polling
    blocked := unwritable }
  if unwritable then after.pauseAll else after

/-- What reading the offsets again in place leads to for a batch. -/
def resetInPlace (refresh : Refresh) (batch : KafkaBatch) : Option Member :=
  match member.refreshAndReset log refresh with
  | (after, .error error) => after.holdForClass batch error
  | (after, .ok changed) =>
      if (after.movedPartition batch).isNone then
        some { after.repositionChanged changed (some batch) with work := .retry batch false }
      else
        some { after.repositionChanged changed none with work := .polling, blocked := false }

def afterFailure (refresh : Refresh) (batch : KafkaBatch) (error : KafkaError) : Option Member :=
  if error.kafkaClass = .replan then member.resetInPlace log refresh batch
  else member.holdForClass batch error

/-! ### What is due -/

/-- A batch held for an operator is due: the target is looked at again before it is tried. -/
def recheckForBatch (refresh : Refresh) (batch : KafkaBatch) : Option Member :=
  match member.refreshAndReset log refresh with
  | (after, .error error) =>
      if error.kafkaClass = .consumerFatal then none
      else some ({ after with blocked := true }.hold batch .operator)
  | (after, .ok changed) =>
      if (after.movedPartition batch).isNone then
        some { after.repositionChanged changed (some batch) with work := .retry batch false }
      else some { after.repositionChanged changed none with blocked := false }

def heldDue (refresh : Refresh) (held : Held) : Option Member :=
  let taken := { member with held := none }
  if held.heldFor = .operator then taken.recheckForBatch log refresh held.batch
  else some { taken with work := .retry held.batch false }

/-- A recheck resolves a blocked partition, except that one whose message was another waits for
its offset to move. -/
def resolvable (partition : Int) : Bool :=
  match member.parts.lookup partition with
  | some (.blocked (.replaced recorded _)) =>
      member.fence.baseOffset partition != some recorded.offset
  | some (.blocked _) => true
  | _ => false

def toResolve : List Int := member.parts.owned.filter member.resolvable

def startOf (explicit : Int → Option Int) (partition low high : Int) : Start :=
  let held := (member.fence.base.lookup partition).getD (none, none)
  resolve held.1 held.2 low high (explicit partition)

/-- Take up one partition where it starts. -/
def takeUp (partition : Int) : Start → Member
  | .ready offset reread =>
      { member with
        parts := member.parts.readyAt partition offset reread
        unbasedStart :=
          if (member.fence.baseOffset partition).isNone then
            Assoc.put partition offset member.unbasedStart
          else member.unbasedStart }
  | .blocked block => { member with parts := member.parts.block partition block }

def resolveOne (explicit : Int → Option Int) (watermarks : List (Int × Int × Int))
    (partition : Int) : Member :=
  match watermarks.lookup partition with
  | some range => member.takeUp partition (member.startOf explicit partition range.1 range.2)
  | none => member

/-- Each of the partitions whose watermarks are known is resolved. -/
def resolveAll (explicit : Int → Option Int) (watermarks : List (Int × Int × Int))
    (partitions : List Int) : Member :=
  partitions.foldl (fun member partition => member.resolveOne explicit watermarks partition) member

def recheckBlocked (explicit : Int → Option Int) (refresh : Refresh) (watermarks : Watermarks) :
    Option Member :=
  match member.refreshAndReset log refresh with
  | (after, .error error) =>
      if error.kafkaClass = .consumerFatal then none
      else
        some { after with
          blocked := after.blocked ||
            after.parts.any fun entry => decide (entry.2 = .blocked .unresolved) }
  | (after, .ok changed) =>
      let again := after.repositionChanged changed none
      if again.toResolve.isEmpty then some { again with blocked := false }
      else
        match watermarks with
        | none => some again
        | some ranges =>
            some ({ again with blocked := false }.resolveAll explicit ranges again.toResolve)

/-! ### Messages -/

/-- How the decoder takes a message: fed, or handed back to wait for its writer schema. -/
inductive Fed
  | taken
  | waits
  deriving DecidableEq

def feed (message : KafkaMessage) : Fed → Member
  | .taken => { member with decoder := member.decoder ++ [message] }
  | .waits => { member with stalled := some message }.pauseAll

def feedStalled (fed : Fed) : Member :=
  match member.stalled with
  | some message => { member with stalled := none }.feed message fed
  | none => member

def blockPartition (partition : Int) (block : Block) : Member :=
  { member with parts := member.parts.block partition block }.pause [partition]

/-- Take one message: admit it, and feed the decoder what was taken. -/
def take (message : KafkaMessage) (fed : Fed) : Member :=
  if message.partition ∈ member.paused then member
  else
    match member.parts.admitMessage message.partition message.mark with
    | (parts, .take _) =>
        { member with
          parts := parts
          buf := member.buf.take message.partition message.mark }.feed message fed
    | (parts, .drop _) => { member with parts := parts }
    | (parts, .block block) =>
        { member with parts := parts }.blockPartition message.partition block

/-- The offender's block: what it expects next is below the low watermark or past the high. -/
def offence (watermarks : List (Int × Int × Int)) (partition next : Int) : Option Block :=
  match watermarks.lookup partition with
  | some range =>
      if next < range.1 then some (.unavailable next range.1)
      else if range.2 < next then some (.regressed (next - 1) range.2)
      else none
  | none => none

def offenders (watermarks : List (Int × Int × Int)) : List (Int × Block) :=
  member.ready.filterMap fun entry =>
    (offence watermarks entry.1 entry.2).map fun block => (entry.1, block)

def blockAll (blocks : List (Int × Block)) : Member :=
  blocks.foldl (fun member entry => member.blockPartition entry.1 entry.2) member

/-- Some partition's next offset is not in the topic. -/
def outOfRange (watermarks : Watermarks) : Member :=
  match watermarks with
  | none => member.pause (member.ready.map Prod.fst)
  | some ranges =>
      if (member.offenders ranges).isEmpty then member.pause (member.ready.map Prod.fst)
      else member.blockAll (member.offenders ranges)

/-- The paused partitions that are ready and can be sought resume at the offset expected next. -/
def release (unsought : List Int) : Member :=
  let resumed := member.ready.filter fun entry =>
    decide (entry.1 ∈ member.paused) && decide (entry.1 ∉ unsought)
  { member with
    paused := member.paused.filter fun partition =>
      (resumed.lookup partition).isNone
    started := resumed ++ member.started }

/-! ### Assigning and revoking -/

def forgetAll (fence : Fence) (partitions : List Int) : Fence := partitions.foldl Fence.forget fence

/-- Every offset forgotten, and all that was buffered or held dropped. -/
def unassign : Member where
  handle := member.handle
  fence := forgetAll member.fence member.parts.owned

/-- `read_starts`: the target refreshed, and each start resolved. -/
def readStarts (explicit : Int → Option Int) (partitions : List Int) (refresh : Refresh)
    (watermarks : Watermarks) : Member × Except KafkaError (Int → Start) :=
  match member.refreshThenReset log partitions refresh with
  | (after, some error) => (after, .error error)
  | (after, none) =>
      match watermarks with
      | none => (after, .error (.raised .transient))
      | some ranges =>
          (after, .ok fun partition =>
            let range := (ranges.lookup partition).getD (0, 0)
            after.startOf explicit partition range.1 range.2)

def startState : Start → State
  | .ready offset reread => .ready offset offset reread
  | .blocked block => .blocked block

def startOffset : Start → Option Int
  | .ready offset _ => some offset
  | .blocked _ => none

/-- The partitions taken up at their starts, the blocked ones paused. -/
def takeStarts (partitions : List Int) (start : Int → Start) : Member :=
  { member with
    parts := partitions.map fun partition => (partition, startState (start partition))
    unbasedStart := partitions.filterMap fun partition =>
      (if (member.fence.baseOffset partition).isNone then startOffset (start partition)
        else none).map fun offset => (partition, offset)
    started := partitions.filterMap fun partition =>
      (startOffset (start partition)).map fun offset => (partition, offset)
    paused := partitions.filter fun partition => (startOffset (start partition)).isNone }

/-- Take the partitions the group gave this member. -/
def assign (explicit : Int → Option Int) (partitions : List Int) (refresh : Refresh)
    (watermarks : Watermarks) : Option Member :=
  match member.readStarts log explicit partitions refresh watermarks with
  | (after, .ok start) => some (after.takeStarts partitions start)
  | (after, .error error) =>
      if error.kafkaClass = .consumerFatal then none
      else
        some ({ after with blocked := true }.takeStarts partitions fun _ => .blocked .unresolved)

/-- A revoke: what is buffered or held is tried once more, then the partitions are given up. -/
def flushThenUnassign : Member :=
  if member.parts.isEmpty || member.blocked || member.stalled.isSome then member.unassign
  else
    match member.held with
    | some held => { member with held := none, work := .retry held.batch true }
    | none => if member.buf.isEmpty then member.unassign else member.closeBatch true

end Member

end Ddi.Kafka
