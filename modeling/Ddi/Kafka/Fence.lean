/-
The offsets one writer holds for the partitions it owns, and the transactions each
of its commits carries.

A commit asserts every owned partition whose offset is known: the batch's own at
their new offset, every other at its unchanged one. The table refuses it when one
of them was written after the snapshot it was planned from. What that does not
check is the snapshot itself: a partition whose offset at the handle's version is
known is carried, and one that is not is looked up before it carries data.
-/

import Ddi.Kafka.Partitions
import Ddi.Lib.Registers

namespace Ddi.Kafka

open Registers (Writes)

/-- The application ids of one pipeline: one for each partition, and the takeover marker. -/
inductive TxnId
  | partition (partition : Int)
  | takeover
  deriving DecidableEq

def takeoverMarkerVersion : Int := 1

/-- The offsets one batch commits, and the evidence recorded beside them. -/
structure KafkaOffsets where
  ranges : List (Int × Int × Int)
  /-- Every partition's transaction this commit writes. -/
  assert : List (Int × Int)
  marks : List (Int × MessageMark)
  takeoverMarker : Bool
  deriving DecidableEq

/-- The transactions of the commit that carries these offsets. -/
def KafkaOffsets.txns (offsets : KafkaOffsets) : Writes TxnId Int :=
  (offsets.assert.map fun entry => (TxnId.partition entry.1, entry.2)) ++
    if offsets.takeoverMarker then [(TxnId.takeover, takeoverMarkerVersion)] else []

/-- How a pipeline handles an error its step raises. -/
inductive KafkaClass
  | replan
  | transient
  | capacity
  | blockingPipeline
  | blockingPartition
  | openRefusal
  | consumerFatal
  deriving DecidableEq

inductive KafkaError
  | fenced (partition : Int) (expected found : Option Int)
  | kafkaOffsetVanished (partitions : List (Int × Int))
  /-- `delta.setTransactionRetentionDuration` is set. -/
  | kafkaTxnRetention
  /-- A batch read a partition this writer does not own. -/
  | notOwned (partition : Int)
  /-- Another writer's commit was in the way of this one. -/
  | conflict
  /-- Any other error, by its class. -/
  | raised (cls : KafkaClass)
  deriving DecidableEq

def KafkaError.kafkaClass : KafkaError → KafkaClass
  | fenced _ _ _ => .replan
  | kafkaOffsetVanished _ => .blockingPipeline
  | kafkaTxnRetention => .blockingPipeline
  | notOwned _ => .consumerFatal
  | conflict => .replan
  | raised cls => cls

/-- One application id's newest transaction, and the mark recorded beside it. -/
structure TxnState where
  version : Option Int := none
  mark : Option MessageMark := none
  deriving DecidableEq

/-- What reading a table's transactions comes to. -/
inductive Answer
  | retention
  | failed (cls : KafkaClass)
  | found (txns : TxnId → TxnState)

structure Fence where
  /-- For each owned partition the last offset durably in the target, and the message at it. -/
  base : List (Int × Option Int × Option MessageMark) := []
  /-- Owned partitions whose offset is known at the handle's version. -/
  carried : List Int := []
  /-- Whether the takeover marker is in the table; none until a read succeeds. -/
  marker : Option Bool := none
  deriving DecidableEq

namespace Fence

variable (fence : Fence)

def owned : List Int := fence.base.map Prod.fst

/-- The next commit writes the takeover marker. -/
def takeoverMarkerDue : Bool := fence.marker != some true

/-- An owned partition's offset in the target. -/
def baseOffset (partition : Int) : Option Int := (fence.base.lookup partition).bind Prod.fst

/-- The marker's state from a read that asked for it: one known to be there is not asked for. -/
def readMarker (txns : TxnId → TxnState) : Option Bool :=
  if fence.marker = some true then some true else some (txns .takeover).version.isSome

/-- The owned partitions held at an offset the table no longer has. -/
def vanished (txns : TxnId → TxnState) (owned : List Int) : List (Int × Int) :=
  owned.filterMap fun partition =>
    match fence.baseOffset partition, (txns (.partition partition)).version with
    | some held, none => some (partition, held)
    | _, _ => none

/-- Own exactly `owned`, each at the offset the table has for it. -/
def reset (answer : Answer) (owned : List Int) : Fence × Option KafkaError :=
  match answer with
  | .retention => ({ fence with carried := [], marker := none }, some .kafkaTxnRetention)
  | .failed cls =>
      ({ fence with
          carried := []
          marker := if fence.marker = some false then none else fence.marker },
        some (.raised cls))
  | .found txns =>
      let marker := fence.readMarker txns
      let gone := fence.vanished txns owned
      if gone.isEmpty then
        ({ base := owned.map fun partition =>
            (partition, (txns (.partition partition)).version, (txns (.partition partition)).mark)
           carried := owned
           marker := marker }, none)
      else ({ fence with carried := [], marker := marker }, some (.kafkaOffsetVanished gone))

/-- The first unverified partition whose offset in the table is not the one held for it. -/
def mismatch (txns : TxnId → TxnState) : List Int → Option KafkaError
  | [] => none
  | partition :: rest =>
      let found := (txns (.partition partition)).version
      let expected := fence.baseOffset partition
      if found ≠ expected then some (.fenced partition expected found) else mismatch txns rest

/-- Before a commit of a batch that read `ranges`: each of its partitions that is not carried
must hold the offset this fence has for it. -/
def verify (answer : Answer) (ranges : List (Int × Int × Int)) : Fence × Option KafkaError :=
  let unverified := (ranges.map Prod.fst).filter fun partition =>
    !fence.carried.contains partition
  if unverified.isEmpty && fence.marker.isSome then (fence, none)
  else
    match unverified.find? fun partition => (fence.base.lookup partition).isNone with
    | some partition => (fence, some (.notOwned partition))
    | none =>
        match answer with
        | .retention => ({ fence with marker := none }, some .kafkaTxnRetention)
        | .failed cls => (fence, some (.raised cls))
        | .found txns =>
            let marker :=
              if fence.marker.isNone then fence.readMarker txns else fence.marker
            match fence.mismatch txns unverified with
            | some error => ({ fence with marker := marker }, some error)
            | none =>
                ({ fence with carried := fence.carried ++ unverified, marker := marker }, none)

/-- The mark kept beside an offset: one that describes it. -/
def markAt (mark : Option MessageMark) (offset : Int) : Option MessageMark :=
  mark.filter fun mark => mark.offset == offset

/-- Every other carried partition with a known offset, at that offset. -/
def reasserted (ranges : List (Int × Int × Int)) : List (Int × Int × Option MessageMark) :=
  fence.carried.filterMap fun partition =>
    if (ranges.lookup partition).isSome then none
    else
      match fence.base.lookup partition with
      | some (some base, mark) => some (partition, base, markAt mark base)
      | _ => none

/-- The offsets, and the marks beside them, of a commit of a batch that read `ranges`. -/
def assertMap (ranges : List (Int × Int × Int)) (marks : List (Int × MessageMark)) :
    List (Int × Int) × List (Int × MessageMark) :=
  let own := ranges.map fun entry =>
    (entry.1, entry.2.2, markAt (marks.lookup entry.1) entry.2.2)
  let all := own ++ fence.reasserted ranges
  (all.map fun entry => (entry.1, entry.2.1),
    all.filterMap fun entry => entry.2.2.map fun mark => (entry.1, mark))

/-- What a commit's offsets leave of one owned partition. -/
def settled (offsets : KafkaOffsets) (partition : Int) (held : Option Int × Option MessageMark) :
    Option Int × Option MessageMark :=
  match offsets.assert.lookup partition with
  | some version => (some version, markAt (offsets.marks.lookup partition) version)
  | none => held

/-- A commit carrying `offsets` landed, and the handle is now the one it returned. -/
def committed (offsets : KafkaOffsets) : Fence where
  base := fence.base.map fun entry => (entry.1, settled offsets entry.1 entry.2)
  carried := (offsets.assert.map Prod.fst).filter fun partition =>
    (fence.base.lookup partition).isSome
  marker := if offsets.takeoverMarker then some true else fence.marker

/-- Stop owning a partition, which was revoked. -/
def forget (partition : Int) : Fence :=
  { fence with
    base := fence.base.filter fun entry => entry.1 != partition
    carried := fence.carried.filter fun own => own != partition }

end Fence

end Ddi.Kafka
