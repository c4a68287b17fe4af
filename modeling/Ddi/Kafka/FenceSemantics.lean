/-
The fence over whole runs: a carried partition's offset is the one the table has
for it at the handle's version, whatever other writers commit in between.

A commit built by verifying its batch and asserting the carried offsets is let
through only when nothing after its snapshot wrote what it asserts. So it leaves
every partition outside its batch as it found it.
-/

import Ddi.Kafka.Fence

namespace Ddi.Kafka

open Registers (Writes read unwritten)

/-! ### What each operation does -/

section Operations

variable {fence : Fence}

theorem mismatch_none {txns : TxnId → TxnState} {partitions : List Int}
    (agrees : fence.mismatch txns partitions = none) {partition : Int}
    (member : partition ∈ partitions) :
    (txns (.partition partition)).version = fence.baseOffset partition := by
  induction partitions with
  | nil => cases member
  | cons head partitions ih =>
      unfold Fence.mismatch at agrees
      by_cases apart : (txns (.partition head)).version ≠ fence.baseOffset head
      · simp only [if_pos apart] at agrees
        cases agrees
      · simp only [if_neg apart] at agrees
        rcases List.mem_cons.mp member with rfl | later
        · exact not_not.mp apart
        · exact ih agrees later

variable (fence) in
/-- A reset that succeeds carries all it was asked for; one that fails carries nothing. -/
theorem reset_semantics (answer : Answer) (owned : List Int) :
    (∃ txns, answer = .found txns ∧ (fence.reset answer owned).2 = none ∧
      (fence.reset answer owned).1.carried = owned ∧
      (∀ partition held, fence.baseOffset partition = some held → partition ∈ owned →
        (txns (.partition partition)).version ≠ none) ∧
      ∀ partition, (fence.reset answer owned).1.base.lookup partition =
        if partition ∈ owned then
          some ((txns (.partition partition)).version, (txns (.partition partition)).mark)
        else none) ∨
    ((fence.reset answer owned).2 ≠ none ∧ (fence.reset answer owned).1.carried = [] ∧
      (fence.reset answer owned).1.base = fence.base) := by
  cases answer with
  | retention => exact Or.inr ⟨by simp [Fence.reset], rfl, rfl⟩
  | failed cls => exact Or.inr ⟨by simp [Fence.reset], rfl, rfl⟩
  | found txns =>
      unfold Fence.reset
      by_cases whole : (fence.vanished txns owned).isEmpty
      · apply Or.inl
        simp only [if_pos whole]
        refine ⟨txns, rfl, trivial, trivial, ?_, ?_⟩
        · intro partition held own member gone
          have among : (partition, held) ∈ fence.vanished txns owned := by
            apply List.mem_filterMap.mpr
            refine ⟨partition, member, ?_⟩
            rw [own, gone]
          rw [List.isEmpty_iff.mp whole] at among
          cases among
        · intro partition
          rw [Assoc.lookup_tabulate owned fun partition =>
            ((txns (.partition partition)).version, (txns (.partition partition)).mark)]
      · apply Or.inr
        simp only [if_neg whole]
        simp

variable (fence) in
/-- Verifying changes no offset, and carries only what it found as held. -/
theorem verify_semantics (answer : Answer) (ranges : List (Int × Int × Int)) :
    (fence.verify answer ranges).1.base = fence.base ∧
    (∀ partition, partition ∈ fence.carried →
      partition ∈ (fence.verify answer ranges).1.carried) ∧
    (∀ partition, partition ∈ (fence.verify answer ranges).1.carried →
      partition ∈ fence.carried ∨ ∃ txns, answer = .found txns ∧
        (txns (.partition partition)).version = fence.baseOffset partition ∧
        ∃ held, fence.base.lookup partition = some held) ∧
    ((fence.verify answer ranges).2 = none → ∀ partition,
      partition ∈ ranges.map Prod.fst → partition ∈ (fence.verify answer ranges).1.carried) := by
  unfold Fence.verify
  generalize unverified_eq : (ranges.map Prod.fst).filter (fun partition =>
    !fence.carried.contains partition) = unverified
  have known : ∀ partition, partition ∈ ranges.map Prod.fst →
      partition ∈ fence.carried ∨ partition ∈ unverified := by
    intro partition member
    by_cases carried : partition ∈ fence.carried
    · exact Or.inl carried
    · apply Or.inr
      rw [← unverified_eq]
      exact List.mem_filter.mpr ⟨member, by simpa using carried⟩
  by_cases nothing : (unverified.isEmpty && fence.marker.isSome) = true
  · simp only [if_pos nothing]
    refine ⟨trivial, fun _ member => member, fun _ member => Or.inl member, ?_⟩
    intro _done partition member
    rcases known partition member with carried | open_
    · exact carried
    · rw [List.isEmpty_iff.mp (Bool.and_eq_true_iff.mp nothing).1] at open_
      cases open_
  · simp only [if_neg nothing]
    cases stranger : unverified.find? fun partition => (fence.base.lookup partition).isNone with
    | some partition =>
        exact ⟨rfl, fun _ member => member, fun _ member => Or.inl member, fun done => by cases done⟩
    | none =>
        have owned : ∀ partition, partition ∈ unverified →
            ∃ held, fence.base.lookup partition = some held := by
          intro partition member
          have present := List.find?_eq_none.mp stranger partition member
          cases found : fence.base.lookup partition with
          | none =>
              rw [found] at present
              exact absurd rfl present
          | some held => exact ⟨held, rfl⟩
        cases answer with
        | retention =>
            exact ⟨rfl, fun _ member => member, fun _ member => Or.inl member,
              fun done => by cases done⟩
        | failed cls =>
            exact ⟨rfl, fun _ member => member, fun _ member => Or.inl member,
              fun done => by cases done⟩
        | found txns =>
            simp only
            cases compared : fence.mismatch txns unverified with
            | some error =>
                exact ⟨rfl, fun _ member => member, fun _ member => Or.inl member,
                  fun done => by cases done⟩
            | none =>
                refine ⟨rfl, fun _ member => List.mem_append_left _ member, ?_, ?_⟩
                · intro partition member
                  rcases List.mem_append.mp member with carried | new
                  · exact Or.inl carried
                  · exact Or.inr ⟨txns, rfl, mismatch_none compared new, owned partition new⟩
                · intro _done partition member
                  exact List.mem_append.mpr (known partition member)

theorem txns_lookup (offsets : KafkaOffsets) (partition : Int) :
    offsets.txns.lookup (.partition partition) = offsets.assert.lookup partition := by
  unfold KafkaOffsets.txns
  rw [Assoc.lookup_append]
  have marker : (if offsets.takeoverMarker then [(TxnId.takeover, takeoverMarkerVersion)]
      else []).lookup (TxnId.partition partition) = none := by
    cases offsets.takeoverMarker <;> rfl
  rw [marker, Option.or_none]
  induction offsets.assert with
  | nil => rfl
  | cons head entries ih =>
      obtain ⟨own, version⟩ := head
      rw [List.map_cons, List.lookup_cons, List.lookup_cons, ih]
      by_cases same : partition = own
      · subst same
        simp
      · have away : (TxnId.partition partition == TxnId.partition own) = false := by
          simpa using same
        simp only [beq_eq_false_iff_ne.mpr same, away]

/-- What a commit asserts of a partition, with the mark it records beside it. -/
def assertedAt (fence : Fence) (ranges : List (Int × Int × Int)) (marks : List (Int × MessageMark))
    (partition : Int) : Option (Int × Option MessageMark) :=
  match ranges.lookup partition with
  | some range => some (range.2, Fence.markAt (marks.lookup partition) range.2)
  | none =>
      if partition ∈ fence.carried then
        match fence.base.lookup partition with
        | some (some base, mark) => some (base, Fence.markAt mark base)
        | _ => none
      else none

private theorem entries_lookup (ranges : List (Int × Int × Int)) (marks : List (Int × MessageMark))
    (partition : Int) :
    ((ranges.map fun entry => (entry.1, entry.2.2,
        Fence.markAt (marks.lookup entry.1) entry.2.2)) ++
      fence.reasserted ranges).lookup partition = assertedAt fence ranges marks partition := by
  rw [Assoc.lookup_append]
  have own : (ranges.map fun entry => (entry.1, entry.2.2,
      Fence.markAt (marks.lookup entry.1) entry.2.2)).lookup partition =
        (ranges.lookup partition).map fun range =>
          (range.2, Fence.markAt (marks.lookup partition) range.2) := by
    induction ranges with
    | nil => rfl
    | cons head ranges ih =>
        obtain ⟨key, first, last⟩ := head
        rw [List.map_cons, List.lookup_cons, List.lookup_cons, ih]
        by_cases same : partition = key
        · subst same
          simp
        · simp only [beq_eq_false_iff_ne.mpr same]
  have others : (fence.reasserted ranges).lookup partition =
      if partition ∈ fence.carried then
        (if (ranges.lookup partition).isSome then none
          else match fence.base.lookup partition with
            | some (some base, mark) => some (base, Fence.markAt mark base)
            | _ => none)
      else none := by
    rw [← Assoc.lookup_filterMap fence.carried fun partition =>
      if (ranges.lookup partition).isSome then none
      else match fence.base.lookup partition with
        | some (some base, mark) => some (base, Fence.markAt mark base)
        | _ => none]
    unfold Fence.reasserted
    congr 2
    funext key
    by_cases within : (ranges.lookup key).isSome
    · simp [within]
    · simp only [within, Bool.false_eq_true, if_false]
      rcases fence.base.lookup key with _ | ⟨_ | base, mark⟩ <;> rfl
  rw [own, others]
  unfold assertedAt
  cases ranges.lookup partition with
  | none => simp
  | some range => rfl

private theorem lookup_map_fst (entries : List (Int × Int × Option MessageMark)) (key : Int) :
    (entries.map fun entry => (entry.1, entry.2.1)).lookup key =
      (entries.lookup key).map Prod.fst := by
  induction entries with
  | nil => rfl
  | cons head entries ih =>
      obtain ⟨own, version, mark⟩ := head
      rw [List.map_cons, List.lookup_cons, List.lookup_cons, ih]
      by_cases same : key = own
      · subst same
        simp
      · simp only [beq_eq_false_iff_ne.mpr same]

/-- A commit asserts its batch's partitions at their new offsets and the carried ones at the
offsets held. -/
theorem assertMap_lookup (ranges : List (Int × Int × Int)) (marks : List (Int × MessageMark))
    (partition : Int) :
    (fence.assertMap ranges marks).1.lookup partition =
      (assertedAt fence ranges marks partition).map Prod.fst := by
  unfold Fence.assertMap
  simp only
  rw [lookup_map_fst, entries_lookup]

private theorem lookup_marks (entries : List (Int × Int × Option MessageMark)) {key : Int}
    {mark : MessageMark}
    (recorded : (key, mark) ∈ entries.filterMap fun entry =>
      entry.2.2.map fun mark => (entry.1, mark)) :
    ∃ version, (key, version, some mark) ∈ entries := by
  obtain ⟨⟨own, version, held⟩, member, kept⟩ := List.mem_filterMap.mp recorded
  cases held with
  | none => cases kept
  | some held =>
      cases kept
      exact ⟨version, member⟩

theorem markAt_offset {mark : Option MessageMark} {offset : Int} {kept : MessageMark}
    (found : Fence.markAt mark offset = some kept) : kept.offset = offset := by
  obtain ⟨_same, describes⟩ := Option.filter_eq_some_iff.mp found
  exact eq_of_beq describes

/-- A mark recorded beside an offset describes it. -/
theorem assertMap_marks {ranges : List (Int × Int × Int)} (distinct : Assoc.Distinct ranges)
    {marks : List (Int × MessageMark)} {partition : Int} {mark : MessageMark}
    (recorded : (partition, mark) ∈ (fence.assertMap ranges marks).2) :
    (fence.assertMap ranges marks).1.lookup partition = some mark.offset := by
  rw [assertMap_lookup]
  unfold assertedAt
  obtain ⟨version, member⟩ := lookup_marks _ recorded
  rcases List.mem_append.mp member with own | other
  · obtain ⟨⟨key, first, last⟩, present, same⟩ := List.mem_map.mp own
    obtain ⟨sameKey, sameLast, kept⟩ := (Prod.mk.inj same).imp_right Prod.mk.inj
    simp only at sameKey
    subst sameKey
    simp only [distinct.lookup_of_mem present, Option.map_some]
    rw [markAt_offset kept]
  · obtain ⟨key, carried, same⟩ := List.mem_filterMap.mp other
    by_cases within : (ranges.lookup key).isSome
    · rw [if_pos within] at same
      cases same
    · rw [if_neg within] at same
      rcases held : fence.base.lookup key with _ | ⟨_ | base, beside⟩
      · rw [held] at same
        cases same
      · rw [held] at same
        cases same
      · rw [held] at same
        obtain ⟨sameKey, _last, kept⟩ :=
          (Prod.mk.inj (Option.some_inj.mp same)).imp_right Prod.mk.inj
        subst sameKey
        simp only [Option.not_isSome_iff_eq_none.mp within, if_pos carried, held,
          Option.map_some]
        rw [markAt_offset kept]

/-- What is asserted is of the batch, or carried at the offset held. -/
theorem assertMap_semantics {ranges : List (Int × Int × Int)} {marks : List (Int × MessageMark)}
    {partition version : Int}
    (asserted : (fence.assertMap ranges marks).1.lookup partition = some version) :
    (∃ first, ranges.lookup partition = some (first, version)) ∨
      ranges.lookup partition = none ∧ partition ∈ fence.carried ∧
        fence.baseOffset partition = some version := by
  rw [assertMap_lookup] at asserted
  unfold assertedAt at asserted
  cases within : ranges.lookup partition with
  | some range =>
      rw [within] at asserted
      cases asserted
      exact Or.inl ⟨range.1, rfl⟩
  | none =>
      rw [within] at asserted
      by_cases carried : partition ∈ fence.carried
      · simp only [if_pos carried] at asserted
        apply Or.inr
        refine ⟨rfl, carried, ?_⟩
        unfold Fence.baseOffset
        rcases held : fence.base.lookup partition with _ | ⟨_ | base, mark⟩
        · rw [held] at asserted
          cases asserted
        · rw [held] at asserted
          cases asserted
        · rw [held] at asserted
          cases asserted
          rfl
      · simp only [if_neg carried] at asserted
        cases asserted

theorem committed_lookup (offsets : KafkaOffsets) (partition : Int) :
    (fence.committed offsets).base.lookup partition =
      (fence.base.lookup partition).map (Fence.settled offsets partition) :=
  Assoc.lookup_map _ _ _

theorem committed_baseOffset {offsets : KafkaOffsets} {partition : Int}
    (owned : (fence.base.lookup partition).isSome) :
    (fence.committed offsets).baseOffset partition =
      (offsets.assert.lookup partition).or (fence.baseOffset partition) := by
  obtain ⟨held, found⟩ := Option.isSome_iff_exists.mp owned
  unfold Fence.baseOffset
  rw [committed_lookup, found]
  unfold Fence.settled
  cases asserted : offsets.assert.lookup partition with
  | none => simp
  | some version => simp

theorem committed_carried {offsets : KafkaOffsets} {partition : Int} :
    partition ∈ (fence.committed offsets).carried ↔
      partition ∈ offsets.assert.map Prod.fst ∧ (fence.base.lookup partition).isSome :=
  List.mem_filter

theorem forget_lookup (gone partition : Int) :
    (fence.forget gone).base.lookup partition =
      if partition = gone then none else fence.base.lookup partition := by
  change (fence.base.filter fun entry => entry.1 != gone).lookup partition = _
  rw [Assoc.lookup_filter fence.base fun own => own != gone]
  by_cases same : partition = gone
  · simp [same]
  · simp [same]

theorem forget_carried {gone partition : Int} :
    partition ∈ (fence.forget gone).carried ↔ partition ∈ fence.carried ∧ partition ≠ gone := by
  unfold Fence.forget
  rw [List.mem_filter]
  simp

end Operations

end Ddi.Kafka
