/-
Whose offsets an application id has in the target: nobody's, those kafka-delta-ingest
wrote, or this program's own since it took them over.
-/

import Ddi.Kafka.Start
import Ddi.Kafka.Fence

namespace Ddi.Kafka

inductive Era
  /-- No partition has an offset, and there is no takeover marker. -/
  | fresh
  /-- Some partition has an offset, and there is no takeover marker. -/
  | kdi
  /-- The takeover marker is there. -/
  | ddi
  deriving DecidableEq

/-- The era of the offsets read for every partition of the topic and for the marker. -/
def era (partitions : List Int) (txns : TxnId → TxnState) : Era :=
  if (txns .takeover).version.isSome then .ddi
  else if partitions.any fun partition => (txns (.partition partition)).version.isSome then .kdi
  else .fresh

theorem era_fresh {partitions : List Int} {txns : TxnId → TxnState}
    (fresh : era partitions txns = .fresh) (partition : Int) (among : partition ∈ partitions) :
    (txns (.partition partition)).version = none := by
  unfold era at fresh
  by_cases marked : (txns .takeover).version.isSome
  · rw [if_pos marked] at fresh
    cases fresh
  · rw [if_neg marked] at fresh
    by_cases held : partitions.any fun partition => (txns (.partition partition)).version.isSome
    · rw [if_pos held] at fresh
      cases fresh
    · simp only [List.any_eq_true, not_exists, not_and, Bool.not_eq_true,
        Option.isSome_eq_false_iff, Option.isNone_iff_eq_none] at held
      exact held partition among

/-- Why a pipeline does not open on its target's offsets. -/
inductive OpenRefusal
  | kafkaOffsetMissing (appId : String) (partitions : List Int) (fresh : Bool)
  | kafkaCompatUnset (appId targetUri : String) (fresh : Bool)
  /-- A map of starts that lists neither these partitions nor the rest. -/
  | kafkaStartingOffsetsIncomplete (topic : String) (missing : List Int)
  | kafkaAppIdUnknown (appId targetUri : String) (seen : List String)
  deriving DecidableEq

/-- The partitions that may have rows in the table and that nobody has acknowledged. -/
def missingOffsets (partitions : List (Int × Option Int × Int)) (acknowledged : List Int) :
    List Int :=
  (partitions.filter fun entry =>
    entry.2.1.isNone && decide (0 < entry.2.2) && !acknowledged.contains entry.1).map Prod.fst

/-- Refuses a partition without an offset whose topic holds messages, unless an entry of its
own says where it starts. -/
def takeoverCheck (appId : String) (era : Era) (holdsRows : Bool)
    (partitions : List (Int × Option Int × Int)) (acknowledged : List Int) :
    Except OpenRefusal Unit :=
  let check (fresh : Bool) : Except OpenRefusal Unit :=
    if (missingOffsets partitions acknowledged).isEmpty then .ok ()
    else .error (.kafkaOffsetMissing appId (missingOffsets partitions acknowledged) fresh)
  match era with
  | .kdi => check false
  | .fresh => if holdsRows then check true else .ok ()
  | .ddi => .ok ()

/-- The offset the takeover baseline asserts for one partition. -/
def takeoverOffset (stored explicit : Option Int) : Option Int :=
  match stored, explicit with
  | some offset, _ => some offset
  | none, some next => if 0 < next then some (next - 1) else none
  | none, none => none

/-- The offsets of the commit that ends kafka-delta-ingest's era. -/
def takeoverBaseline (era : Era) (stored : List (Int × Option Int)) (explicit : List (Int × Int)) :
    Option (List (Int × Int)) :=
  if era ≠ .kdi then none
  else
    some (stored.filterMap fun entry =>
      (takeoverOffset entry.2 (explicit.lookup entry.1)).map fun offset => (entry.1, offset))

/-- Where the check applies: the target may hold rows of the topic that nobody's offsets
account for. -/
def MayHoldRows (era : Era) (holdsRows : Bool) : Prop :=
  era = .kdi ∨ era = .fresh ∧ holdsRows = true

theorem takeoverCheck_ok {appId : String} {era : Era} {holdsRows : Bool}
    {partitions : List (Int × Option Int × Int)} {acknowledged : List Int}
    (passes : takeoverCheck appId era holdsRows partitions acknowledged = .ok ())
    (applies : MayHoldRows era holdsRows) {partition high : Int}
    (among : (partition, none, high) ∈ partitions) (held : 0 < high) :
    partition ∈ acknowledged := by
  have nothing : (missingOffsets partitions acknowledged).isEmpty = true := by
    unfold takeoverCheck at passes
    rcases applies with rfl | ⟨rfl, holds⟩
    · by_contra some
      simp only [some, if_false] at passes
      cases passes
    · by_contra some
      simp only [holds, some, if_true, if_false] at passes
      cases passes
  rw [List.isEmpty_iff] at nothing
  unfold missingOffsets at nothing
  rw [List.map_eq_nil_iff, List.filter_eq_nil_iff] at nothing
  have listed := nothing _ among
  simpa [held] using listed

end Ddi.Kafka
