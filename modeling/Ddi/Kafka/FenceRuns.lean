/-
The fence over whole runs, among other writers.

The handle moves to the newest commit by a commit of this writer, or anywhere by a
refresh that a reset follows at once. Commits are built, sent, and let through or
refused in any order, and one may land without its writer hearing of it.
-/

import Ddi.Kafka.FenceSemantics
import Mathlib.Logic.Relation

namespace Ddi.Kafka

open Registers (Writes read unwritten)

/-- Every carried partition is owned, at the offset the table has for it. -/
structure Current (fence : Fence) (table : TxnId → Option Int) : Prop where
  owned : ∀ partition, partition ∈ fence.carried → (fence.base.lookup partition).isSome
  known : ∀ partition, partition ∈ fence.carried →
    table (.partition partition) = fence.baseOffset partition

/-- An answer that tells what the table has. -/
def Answer.Truthful (answer : Answer) (table : TxnId → Option Int) : Prop :=
  ∀ txns, answer = .found txns → ∀ id, (txns id).version = table id

section Current

variable {fence : Fence} {table : TxnId → Option Int}

theorem Current.fresh : Current {} table where
  owned := fun _ member => by cases member
  known := fun _ member => by cases member

theorem Current.reset {answer : Answer} (truthful : answer.Truthful table) (owned : List Int) :
    Current (fence.reset answer owned).1 table := by
  rcases reset_semantics fence answer owned with
    ⟨txns, answered, _done, carried, _held, base⟩ | ⟨_failed, carried, _base⟩
  · constructor
    · intro partition member
      rw [carried] at member
      rw [base, if_pos member]
      rfl
    · intro partition member
      rw [carried] at member
      unfold Fence.baseOffset
      rw [base, if_pos member, truthful txns answered]
      rfl
  · constructor
    · intro partition member
      rw [carried] at member
      cases member
    · intro partition member
      rw [carried] at member
      cases member

theorem Current.verify (current : Current fence table) {answer : Answer}
    (truthful : answer.Truthful table) (ranges : List (Int × Int × Int)) :
    Current (fence.verify answer ranges).1 table := by
  obtain ⟨base, _kept, new, _all⟩ := verify_semantics fence answer ranges
  have offsets : ∀ partition,
      (fence.verify answer ranges).1.baseOffset partition = fence.baseOffset partition := by
    intro partition
    unfold Fence.baseOffset
    rw [base]
  constructor
  · intro partition member
    rw [base]
    rcases new partition member with carried | ⟨_txns, _answered, _same, held, found⟩
    · exact current.owned partition carried
    · rw [found]
      rfl
  · intro partition member
    rw [offsets]
    rcases new partition member with carried | ⟨txns, answered, same, _owned⟩
    · exact current.known partition carried
    · rw [← same, truthful txns answered]

/-- After a commit that landed, the table it returned has what it asserted. -/
theorem Current.committed (fence : Fence) (log : List (Writes TxnId Int))
    (offsets : KafkaOffsets) : Current (fence.committed offsets) (read (log ++ [offsets.txns])) := by
  constructor
  · intro partition member
    rw [committed_lookup, Option.isSome_map]
    exact (committed_carried.mp member).2
  · intro partition member
    obtain ⟨asserted, owned⟩ := committed_carried.mp member
    obtain ⟨version, found⟩ := (Assoc.mem_keys_iff _ _).mp asserted
    rw [committed_baseOffset owned, found]
    apply Registers.read_snoc_of_write
    rw [txns_lookup, found]

theorem Current.forget (current : Current fence table) (gone : Int) :
    Current (fence.forget gone) table := by
  constructor
  · intro partition member
    obtain ⟨carried, away⟩ := forget_carried.mp member
    rw [forget_lookup, if_neg away]
    exact current.owned partition carried
  · intro partition member
    obtain ⟨carried, away⟩ := forget_carried.mp member
    unfold Fence.baseOffset
    rw [forget_lookup, if_neg away]
    exact current.known partition carried

end Current

/-- A commit that was built, and whether what it relies on still holds. -/
structure Plan where
  /-- The handle's version it was planned from. -/
  snapshot : Nat
  offsets : KafkaOffsets
  /-- The partitions forgotten, and not owned again, when it was built. -/
  forgotten : List Int
  deriving DecidableEq

/-- The table lets a commit through when nothing after its snapshot wrote an id it carries. -/
def Plan.letThrough (plan : Plan) (log : List (Writes TxnId Int)) : Bool :=
  unwritten log plan.snapshot (plan.offsets.txns.map Prod.fst)

/-- The commit of a batch that read `ranges`, from a fence that has verified it. -/
def Fence.offsets (fence : Fence) (ranges : List (Int × Int × Int))
    (marks : List (Int × MessageMark)) : KafkaOffsets where
  ranges := ranges
  assert := (fence.assertMap ranges marks).1
  marks := (fence.assertMap ranges marks).2
  takeoverMarker := fence.takeoverMarkerDue

structure FenceWorld where
  log : List (Writes TxnId Int)
  handle : Nat
  fence : Fence := {}
  plans : List Plan := []
  /-- The partitions forgotten since a reset last owned them. -/
  forgotten : List Int := []
  deriving DecidableEq

namespace FenceWorld

/-- The transactions at the handle's version. -/
def table (world : FenceWorld) : TxnId → Option Int := read (world.log.take world.handle)

inductive Step : FenceWorld → FenceWorld → Prop
  | foreign {world : FenceWorld} (entry : Writes TxnId Int) :
      Step world { world with log := world.log ++ [entry] }
  | refreshed {world : FenceWorld} (version : Nat) (answer : Answer) (owned : List Int)
      (within : version ≤ world.log.length)
      (truthful : answer.Truthful (read (world.log.take version))) :
      Step world { world with
        handle := version
        fence := (world.fence.reset answer owned).1
        forgotten :=
          if (world.fence.reset answer owned).2.isNone then
            world.forgotten.filter fun partition => !owned.contains partition
          else world.forgotten }
  | verified {world : FenceWorld} (answer : Answer) (ranges : List (Int × Int × Int))
      (truthful : answer.Truthful world.table) :
      Step world { world with fence := (world.fence.verify answer ranges).1 }
  | built {world : FenceWorld} (answer : Answer) (ranges : List (Int × Int × Int))
      (marks : List (Int × MessageMark)) (truthful : answer.Truthful world.table)
      (distinct : Assoc.Distinct ranges)
      (passed : (world.fence.verify answer ranges).2 = none) :
      Step world { world with
        fence := (world.fence.verify answer ranges).1
        plans := { snapshot := world.handle
                   offsets := (world.fence.verify answer ranges).1.offsets ranges marks
                   forgotten := world.forgotten } :: world.plans }
  | landed {world : FenceWorld} (plan : Plan) (sent : plan ∈ world.plans)
      (through : plan.letThrough world.log = true) :
      Step world { world with
        log := world.log ++ [plan.offsets.txns]
        handle := world.log.length + 1
        fence := world.fence.committed plan.offsets
        plans := world.plans.erase plan }
  /-- It landed, and what came back was an error. -/
  | unheard {world : FenceWorld} (plan : Plan) (sent : plan ∈ world.plans)
      (through : plan.letThrough world.log = true) :
      Step world { world with
        log := world.log ++ [plan.offsets.txns]
        plans := world.plans.erase plan }
  | refused {world : FenceWorld} (plan : Plan) :
      Step world { world with plans := world.plans.erase plan }
  | forgot {world : FenceWorld} (partition : Int) :
      Step world { world with
        fence := world.fence.forget partition
        forgotten := partition :: world.forgotten }

def Runs : FenceWorld → FenceWorld → Prop := Relation.ReflTransGen Step

end FenceWorld

/-- A commit that asserts what its snapshot has, except for its own batch. -/
structure Plan.Sound (plan : Plan) (log : List (Writes TxnId Int)) : Prop where
  within : plan.snapshot ≤ log.length
  frame : ∀ partition version, plan.offsets.assert.lookup partition = some version →
    plan.offsets.ranges.lookup partition = none →
    read (log.take plan.snapshot) (.partition partition) = some version
  owned : ∀ partition version, plan.offsets.assert.lookup partition = some version →
    partition ∉ plan.forgotten
  marks : ∀ partition mark, (partition, mark) ∈ plan.offsets.marks →
    plan.offsets.assert.lookup partition = some mark.offset

theorem Plan.Sound.later {plan : Plan} {log : List (Writes TxnId Int)} (sound : plan.Sound log)
    (more : List (Writes TxnId Int)) : plan.Sound (log ++ more) where
  within := by
    rw [List.length_append]
    exact Nat.le_add_right_of_le sound.within
  frame := by
    intro partition version asserted outside
    rw [List.take_append_of_le_length sound.within]
    exact sound.frame partition version asserted outside
  owned := sound.owned
  marks := sound.marks

/-- What is let through finds its other partitions as it asserts them. -/
theorem Plan.Sound.asserted {plan : Plan} {log : List (Writes TxnId Int)}
    (sound : plan.Sound log) (through : plan.letThrough log = true) {partition version : Int}
    (asserted : plan.offsets.assert.lookup partition = some version)
    (outside : plan.offsets.ranges.lookup partition = none) :
    read log (.partition partition) = some version := by
  have carried : TxnId.partition partition ∈ plan.offsets.txns.map Prod.fst :=
    (Assoc.mem_keys_iff _ _).mpr ⟨version, (txns_lookup _ _).trans asserted⟩
  rw [Registers.read_of_unwritten through carried]
  exact sound.frame partition version asserted outside

/-- What is let through leaves every partition outside its batch as it was. -/
theorem Plan.Sound.unchanged {plan : Plan} {log : List (Writes TxnId Int)}
    (sound : plan.Sound log) (through : plan.letThrough log = true) {partition : Int}
    (outside : plan.offsets.ranges.lookup partition = none) :
    read (log ++ [plan.offsets.txns]) (.partition partition) = read log (.partition partition) := by
  cases asserted : plan.offsets.assert.lookup partition with
  | none =>
      apply Registers.read_snoc_of_silent
      rw [txns_lookup, asserted]
  | some version =>
      rw [sound.asserted through asserted outside]
      apply Registers.read_snoc_of_write
      rw [txns_lookup, asserted]

/-- A commit built from a fence that is current is sound. -/
theorem Current.offsets {fence : Fence} {log : List (Writes TxnId Int)} {handle : Nat}
    (current : Current fence (read (log.take handle))) (within : handle ≤ log.length)
    {forgotten : List Int}
    (gone : ∀ partition, partition ∈ forgotten → (fence.base.lookup partition).isNone)
    {ranges : List (Int × Int × Int)} (distinct : Assoc.Distinct ranges)
    (marks : List (Int × MessageMark))
    (carried : ∀ partition, partition ∈ ranges.map Prod.fst → partition ∈ fence.carried) :
    Plan.Sound ⟨handle, fence.offsets ranges marks, forgotten⟩ log where
  within := within
  frame := by
    intro partition version asserted outside
    rcases assertMap_semantics asserted with ⟨first, within⟩ | ⟨_outside, member, held⟩
    · rw [show ranges.lookup partition = none from outside] at within
      cases within
    · rw [← held]
      exact current.known partition member
  owned := by
    intro partition version asserted lost
    have member : partition ∈ fence.carried := by
      rcases assertMap_semantics asserted with ⟨first, within⟩ | ⟨_outside, member, _held⟩
      · exact carried partition ((Assoc.mem_keys_iff _ _).mpr ⟨_, within⟩)
      · exact member
    have own := current.owned partition member
    rw [Option.isNone_iff_eq_none.mp (gone partition lost)] at own
    cases own
  marks := fun _partition _mark recorded => assertMap_marks distinct recorded

namespace FenceWorld

/-- What every step keeps. -/
structure Kept (world : FenceWorld) : Prop where
  within : world.handle ≤ world.log.length
  current : Current world.fence world.table
  gone : ∀ partition, partition ∈ world.forgotten →
    (world.fence.base.lookup partition).isNone
  sound : ∀ plan, plan ∈ world.plans → plan.Sound world.log

theorem Kept.table_later {world : FenceWorld} (kept : world.Kept)
    (more : List (Writes TxnId Int)) :
    read ((world.log ++ more).take world.handle) = world.table := by
  rw [List.take_append_of_le_length kept.within]
  rfl

/-- The log grows while the handle and the fence stay. -/
theorem Kept.later {world : FenceWorld} (kept : world.Kept) (entry : Writes TxnId Int)
    {plans : List Plan} (among : ∀ plan, plan ∈ plans → plan ∈ world.plans) :
    Kept { world with log := world.log ++ [entry], plans := plans } where
  within := by
    rw [List.length_append]
    exact Nat.le_add_right_of_le kept.within
  current := by
    change Current world.fence (read ((world.log ++ [entry]).take world.handle))
    rw [kept.table_later]
    exact kept.current
  gone := kept.gone
  sound := fun plan member => (kept.sound plan (among plan member)).later _

theorem Kept.refreshed {world : FenceWorld} (kept : world.Kept) (version : Nat) (answer : Answer)
    (owned : List Int) (within : version ≤ world.log.length)
    (truthful : answer.Truthful (read (world.log.take version))) :
    Kept { world with
      handle := version
      fence := (world.fence.reset answer owned).1
      forgotten :=
        if (world.fence.reset answer owned).2.isNone then
          world.forgotten.filter fun partition => !owned.contains partition
        else world.forgotten } where
  within := within
  current := Current.reset truthful owned
  gone := by
    intro partition lost
    rcases reset_semantics world.fence answer owned with
      ⟨_txns, _answered, done, _carried, _held, base⟩ | ⟨failed, _carried, base⟩
    · simp only [done, Option.isNone_none, if_true] at lost
      obtain ⟨_lost, away⟩ := List.mem_filter.mp lost
      have other : partition ∉ owned := by simpa using away
      simp only [base, if_neg other, Option.isNone_none]
    · have stays : (world.fence.reset answer owned).2.isNone = false := by
        simpa [Option.isSome_iff_ne_none] using failed
      simp only [stays] at lost
      simp only [base]
      exact kept.gone partition lost
  sound := kept.sound

theorem Kept.verified {world : FenceWorld} (kept : world.Kept) {answer : Answer}
    (truthful : answer.Truthful world.table) (ranges : List (Int × Int × Int)) :
    Kept { world with fence := (world.fence.verify answer ranges).1 } where
  within := kept.within
  current := kept.current.verify truthful ranges
  gone := by
    intro partition lost
    rw [(verify_semantics world.fence answer ranges).1]
    exact kept.gone partition lost
  sound := kept.sound

theorem Kept.landed {world : FenceWorld} (kept : world.Kept) (plan : Plan) :
    Kept { world with
      log := world.log ++ [plan.offsets.txns]
      handle := world.log.length + 1
      fence := world.fence.committed plan.offsets
      plans := world.plans.erase plan } where
  within := by simp
  current := by
    change Current _ (read ((world.log ++ [plan.offsets.txns]).take (world.log.length + 1)))
    rw [List.take_of_length_le (by simp)]
    exact Current.committed world.fence world.log plan.offsets
  gone := by
    intro partition lost
    rw [committed_lookup, Option.isNone_map]
    exact kept.gone partition lost
  sound := fun other member => (kept.sound other (List.mem_of_mem_erase member)).later _

theorem Kept.forgot {world : FenceWorld} (kept : world.Kept) (partition : Int) :
    Kept { world with
      fence := world.fence.forget partition
      forgotten := partition :: world.forgotten } where
  within := kept.within
  current := kept.current.forget partition
  gone := by
    intro other lost
    rw [forget_lookup]
    by_cases same : other = partition
    · rw [if_pos same]
      rfl
    · rw [if_neg same]
      rcases List.mem_cons.mp lost with rfl | before
      · exact absurd rfl same
      · exact kept.gone other before
  sound := kept.sound

theorem Kept.step {before after : FenceWorld} (kept : before.Kept) (step : Step before after) :
    after.Kept := by
  cases step with
  | foreign entry => exact kept.later entry fun _ member => member
  | refreshed version answer owned within truthful =>
      exact kept.refreshed version answer owned within truthful
  | verified answer ranges truthful => exact kept.verified truthful ranges
  | built answer ranges marks truthful distinct passed =>
      have checked := kept.verified truthful ranges
      constructor
      · exact checked.within
      · exact checked.current
      · exact checked.gone
      · intro plan member
        rcases List.mem_cons.mp member with rfl | sent
        · apply checked.current.offsets checked.within checked.gone distinct
          exact (verify_semantics _ answer ranges).2.2.2 passed
        · exact kept.sound plan sent
  | landed plan sent through => exact kept.landed plan
  | unheard plan sent through => exact kept.later _ fun _ member => List.mem_of_mem_erase member
  | refused plan =>
      constructor
      · exact kept.within
      · exact kept.current
      · exact kept.gone
      · exact fun other member => kept.sound other (List.mem_of_mem_erase member)
  | forgot partition => exact kept.forgot partition

theorem Kept.run {first last : FenceWorld} (kept : first.Kept) (run : Runs first last) :
    last.Kept := by
  induction run with
  | refl => exact kept
  | tail _before step ih => exact ih.step step

/-- A writer that has just been given a handle, and owns nothing yet. -/
theorem Kept.fresh {log : List (Writes TxnId Int)} {handle : Nat} (within : handle ≤ log.length) :
    Kept { log := log, handle := handle } where
  within := within
  current := .fresh
  gone := fun _ lost => by cases lost
  sound := fun _ sent => by cases sent

end FenceWorld

end Ddi.Kafka
