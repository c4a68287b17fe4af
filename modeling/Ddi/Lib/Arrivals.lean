/-
Rows that arrive class by class in time order, and the marks of those held.

Each row has a stamp: its class, its time and its key if it has one. Within a
class times do not go back, and no stamp comes twice. Of what is held only the
marks are kept, one per class; they still tell a row that is held from one that
arrives after everything held, up to rows without a key at a mark.
-/

import Ddi.Lib.Marks
import Mathlib.Data.List.Nodup
import Mathlib.Data.List.Pairwise
import Mathlib.Order.Lattice

namespace Arrivals

open Marks (Mark)

structure Stamp (T K C : Type) where
  kind : C
  time : T
  key : Option K
  deriving DecidableEq

variable {T K C : Type} [LinearOrder T]

structure InOrder (stamps : List (Stamp T K C)) : Prop where
  ordered : stamps.Pairwise fun earlier later =>
    earlier.kind = later.kind → earlier.time ≤ later.time
  distinct : stamps.Nodup

/-- A stamp that arrives after everything held. -/
structure After (held : List (Stamp T K C)) (stamp : Stamp T K C) : Prop where
  notBefore : ∀ earlier, earlier ∈ held → earlier.kind = stamp.kind → earlier.time ≤ stamp.time
  fresh : stamp ∉ held

theorem InOrder.after {before later : List (Stamp T K C)} (inOrder : InOrder (before ++ later))
    {stamp : Stamp T K C} (member : stamp ∈ later) : After before stamp where
  notBefore earlier held same :=
    (List.pairwise_append.mp inOrder.ordered).2.2 earlier held stamp member same
  fresh held := (List.nodup_append.mp inOrder.distinct).2.2 stamp held stamp member rfl

theorem InOrder.sublist {left right : List (Stamp T K C)} (inOrder : InOrder right)
    (sub : left.Sublist right) : InOrder left :=
  ⟨inOrder.ordered.sublist sub, inOrder.distinct.sublist sub⟩

theorem After.of_subset {more fewer : List (Stamp T K C)} {stamp : Stamp T K C}
    (after : After more stamp) (sub : ∀ held, held ∈ fewer → held ∈ more) : After fewer stamp where
  notBefore earlier held same := after.notBefore earlier (sub earlier held) same
  fresh held := after.fresh (sub stamp held)

/-- The marks, class by class, of some stamps. -/
structure MarksOf (marks : C → Option (Mark T K)) (held : List (Stamp T K C)) : Prop where
  absent : ∀ kind, marks kind = none → ∀ stamp, stamp ∈ held → stamp.kind ≠ kind
  bound : ∀ kind mark, marks kind = some mark →
    ∀ stamp, stamp ∈ held → stamp.kind = kind → stamp.time ≤ mark.newest
  attained : ∀ kind mark, marks kind = some mark →
    ∃ stamp, stamp ∈ held ∧ stamp.kind = kind ∧ stamp.time = mark.newest
  ties : ∀ kind mark, marks kind = some mark → ∀ key, key ∈ mark.ties ↔
    ({ kind := kind, time := mark.newest, key := some key } : Stamp T K C) ∈ held

/-- Marks read class by class from exactly what is held. -/
theorem MarksOf.ofRows {marks : C → Option (Mark T K)} {held : List (Stamp T K C)}
    (rows : C → List (T × Option K)) (read : ∀ kind, marks kind = Marks.ofRows (rows kind))
    (same : ∀ stamp : Stamp T K C, (stamp.time, stamp.key) ∈ rows stamp.kind ↔ stamp ∈ held) :
    MarksOf marks held where
  absent := by
    intro kind nothing stamp member here
    rw [read, Marks.ofRows_eq_none] at nothing
    have present := (same stamp).mpr member
    rw [here, nothing] at present
    cases present
  bound := by
    intro kind mark found stamp member here
    rw [read] at found
    have present := (same stamp).mpr member
    rw [here] at present
    exact (Marks.ofRows_isMark found).bound _ present
  attained := by
    intro kind mark found
    rw [read] at found
    obtain ⟨⟨time, key⟩, present, newest⟩ := (Marks.ofRows_isMark found).attained
    exact ⟨⟨kind, time, key⟩, (same ⟨kind, time, key⟩).mp present, rfl, newest⟩
  ties := by
    intro kind mark found key
    rw [read] at found
    rw [(Marks.ofRows_isMark found).ties key]
    exact same ⟨kind, mark.newest, some key⟩

section Held

variable {marks : C → Option (Mark T K)} {held : List (Stamp T K C)} {stamp : Stamp T K C}

/-- What is held has a mark, and lies at or below it. -/
theorem MarksOf.of_mem (marksOf : MarksOf marks held) (member : stamp ∈ held) :
    ∃ mark, marks stamp.kind = some mark ∧ (stamp.time < mark.newest ∨
      (stamp.time = mark.newest ∧ ∀ key, stamp.key = some key → key ∈ mark.ties)) := by
  cases found : marks stamp.kind with
  | none => exact absurd rfl (marksOf.absent stamp.kind found stamp member)
  | some mark =>
      refine ⟨mark, rfl, ?_⟩
      rcases lt_or_eq_of_le (marksOf.bound _ mark found stamp member rfl) with below | tied
      · exact Or.inl below
      · refine Or.inr ⟨tied, fun key known => (marksOf.ties _ mark found key).mpr ?_⟩
        have same : stamp = { kind := stamp.kind, time := mark.newest, key := some key } := by
          rw [← tied, ← known]
        rw [← same]
        exact member

/-- What arrives after everything held is not below its mark, and not among the ties. -/
theorem MarksOf.of_after (marksOf : MarksOf marks held) (after : After held stamp)
    {mark : Mark T K} (found : marks stamp.kind = some mark) :
    mark.newest ≤ stamp.time ∧
      (stamp.time = mark.newest → ∀ key, stamp.key = some key → key ∉ mark.ties) := by
  obtain ⟨top, topHeld, topKind, topTime⟩ := marksOf.attained _ mark found
  constructor
  · rw [← topTime]
    exact after.notBefore top topHeld topKind
  · intro tied key known member
    have present := (marksOf.ties _ mark found key).mp member
    have same : stamp = { kind := stamp.kind, time := mark.newest, key := some key } := by
      rw [← tied, ← known]
    rw [← same] at present
    exact after.fresh present

/-- Where nothing has a key, what arrives after everything held is past its mark. -/
theorem MarksOf.of_after_unkeyed (marksOf : MarksOf marks held) (after : After held stamp)
    (unkeyed : ∀ other, other ∈ held → other.key = stamp.key)
    {mark : Mark T K} (found : marks stamp.kind = some mark) : mark.newest < stamp.time := by
  obtain ⟨top, topHeld, topKind, topTime⟩ := marksOf.attained _ mark found
  refine lt_of_le_of_ne (marksOf.of_after after found).1 fun tied => after.fresh ?_
  have keys := unkeyed top topHeld
  have same : top = stamp := by
    obtain ⟨kind, time, key⟩ := top
    obtain ⟨kind', time', key'⟩ := stamp
    simp only at topKind topTime tied keys
    rw [topKind, topTime, tied, keys]
  rw [← same]
  exact topHeld

/-- Nothing its mark covers arrives after everything held. -/
theorem MarksOf.not_after (marksOf : MarksOf marks held) {mark : Mark T K}
    (found : marks stamp.kind = some mark) (covered : Marks.Covers mark stamp.time stamp.key) :
    ¬After held stamp := by
  intro after
  obtain ⟨notBelow, untied⟩ := marksOf.of_after after found
  rcases covered with below | ⟨tied, key, known, member⟩
  · exact absurd below (not_lt_of_ge notBelow)
  · exact untied tied key known member

theorem MarksOf.congr {same : List (Stamp T K C)} (marksOf : MarksOf marks held)
    (agree : ∀ stamp, stamp ∈ held ↔ stamp ∈ same) : MarksOf marks same where
  absent kind found stamp member := marksOf.absent kind found stamp ((agree stamp).mpr member)
  bound kind mark found stamp member :=
    marksOf.bound kind mark found stamp ((agree stamp).mpr member)
  attained kind mark found := by
    obtain ⟨stamp, member, facts⟩ := marksOf.attained kind mark found
    exact ⟨stamp, (agree stamp).mp member, facts⟩
  ties kind mark found key := (marksOf.ties kind mark found key).trans (agree _)

end Held

section Stretches

variable {α : Type}

/-- The items of a list from one index and before another. -/
def stretch (items : List α) (first bound : Nat) : List α := (items.take bound).drop first

theorem stretch_of_le (items : List α) {first bound : Nat} (beyond : bound ≤ first) :
    stretch items first bound = [] :=
  List.drop_eq_nil_of_le (Nat.le_trans (List.length_take_le _ _) beyond)

theorem take_append_stretch (items : List α) {first bound : Nat} (ordered : first ≤ bound) :
    items.take first ++ stretch items first bound = items.take bound := by
  unfold stretch
  conv_rhs => rw [← List.take_append_drop first (items.take bound)]
  rw [List.take_take, Nat.min_eq_left ordered]

theorem stretch_append (items : List α) {first middle bound : Nat} (low : first ≤ middle)
    (high : middle ≤ bound) :
    stretch items first middle ++ stretch items middle bound = stretch items first bound := by
  have whole := take_append_stretch items (Nat.le_trans low high)
  rw [← take_append_stretch items high, ← take_append_stretch items low, List.append_assoc] at whole
  exact (List.append_cancel_left whole).symm

/-- A stretch in the part before an index and the part from it. -/
theorem stretch_split (items : List α) {first bound : Nat} (middle : Nat)
    (low : first ≤ middle) :
    stretch items first bound =
      stretch items first (min middle bound) ++ stretch items middle (max middle bound) := by
  rcases Nat.le_total middle bound with inside | beyond
  · rw [Nat.min_eq_left inside, Nat.max_eq_right inside, stretch_append items low inside]
  · rw [Nat.min_eq_right beyond, Nat.max_eq_left beyond, stretch_of_le items (Nat.le_refl middle),
      List.append_nil]

theorem mem_take_of_mem_stretch {items : List α} {first bound : Nat} {item : α}
    (member : item ∈ stretch items first bound) : item ∈ items.take bound :=
  List.mem_of_mem_drop member

theorem mem_drop_of_mem_stretch {items : List α} {first bound : Nat} {item : α}
    (member : item ∈ stretch items first bound) : item ∈ items.drop first := by
  unfold stretch at member
  rw [List.drop_take] at member
  exact List.mem_of_mem_take member

/-- What is left of a list after fewer items than it has ends as the list does. -/
theorem exists_mem_drop_append {left right : List α} {count : Nat} (ends : right ≠ [])
    (within : count < (left ++ right).length) :
    ∃ item, item ∈ (left ++ right).drop count ∧ item ∈ right := by
  have some_left : (left ++ right).drop count ≠ [] := by
    intro nothing
    rw [List.drop_eq_nil_iff] at nothing
    exact absurd within (Nat.not_lt_of_le nothing)
  have last := List.getLast_mem some_left
  rw [List.getLast_drop some_left, List.getLast_append_of_ne_nil _ ends] at last
  exact ⟨right.getLast ends, last, List.getLast_mem ends⟩

end Stretches

end Arrivals
