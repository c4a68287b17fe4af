/-
Logs that follow one another at one place: a log grows, loses its oldest entries, and may be
replaced by another. Entries bring marks, and a mark that is new to a log is new to the place, so
that two moments whose newest mark is one are moments of one log.
-/

import Mathlib.Data.List.Basic
import Mathlib.Logic.Relation

namespace Succession

variable {ε μ : Type}

/-- What a place holds, and the entries of the logs that it held before. -/
structure Place (ε : Type) where
  log : List ε
  /-- Entries below it have left the log. -/
  first : Nat := 0
  dropped : List ε := []

namespace Place

variable (marks : ε → List μ)

/-- The newest mark of a log. -/
def mark (place : Place ε) : Option μ := (place.log.flatMap marks).getLast?

def Known (place : Place ε) (known : μ) : Prop :=
  known ∈ (place.dropped ++ place.log).flatMap marks

/-- What may happen at a place. -/
inductive Step (place : Place ε) : Place ε → Prop
  /-- An entry is appended, under the mark of the log or under new ones. -/
  | grown (entry : ε) (marked : ∀ own, own ∈ marks entry →
      place.mark marks = some own ∨ ¬ place.Known marks own) :
      Step place { place with log := place.log ++ [entry] }
  /-- The oldest entries leave. -/
  | cleaned (first : Nat) (onward : place.first ≤ first) (within : first < place.log.length) :
      Step place { place with first := first }
  /-- Another log takes the place, under marks of its own. -/
  | replaced (log : List ε) (marked : ∀ own, own ∈ log.flatMap marks →
      ¬ place.Known marks own) :
      Step place { log := log, dropped := place.dropped ++ place.log }

/-- The same log, later. -/
structure Extends (place later : Place ε) : Prop where
  log : place.log <+: later.log
  first : place.first ≤ later.first

/-- Another log, none of whose marks was known. -/
def Strange (place later : Place ε) : Prop :=
  ∀ own, own ∈ later.log.flatMap marks → ¬ place.Known marks own

/-- What a later moment is to an earlier one. -/
structure Follows (place later : Place ε) : Prop where
  known : ∀ own, place.Known marks own → later.Known marks own
  either : place.Extends later ∨ place.Strange marks later

variable {marks} {place later latest : Place ε}

theorem mem_of_mark {own : μ} (marked : place.mark marks = some own) :
    own ∈ place.log.flatMap marks :=
  List.mem_of_getLast? marked

theorem known_of_mem {own : μ} (inside : own ∈ place.log.flatMap marks) :
    place.Known marks own := by
  unfold Known
  rw [List.flatMap_append]
  exact List.mem_append_right _ inside

theorem Extends.refl (place : Place ε) : place.Extends place :=
  ⟨List.prefix_refl _, Nat.le_refl _⟩

theorem Extends.trans (before : place.Extends later) (after : later.Extends latest) :
    place.Extends latest :=
  ⟨before.log.trans after.log, Nat.le_trans before.first after.first⟩

/-- What an entry is stays as the log grows. -/
theorem get_of_log (grown : place.log <+: later.log) {index : Nat} {entry : ε}
    (present : place.log[index]? = some entry) : later.log[index]? = some entry := by
  obtain ⟨more, appended⟩ := grown
  rw [← appended, List.getElem?_append_left (List.getElem?_eq_some_iff.mp present).1]
  exact present

theorem Extends.get (same : place.Extends later) {index : Nat} {entry : ε}
    (present : place.log[index]? = some entry) : later.log[index]? = some entry :=
  get_of_log same.log present

theorem Extends.take (same : place.Extends later) {count : Nat}
    (within : count ≤ place.log.length) :
    later.log.take count = place.log.take count := by
  obtain ⟨more, appended⟩ := same.log
  rw [← appended, List.take_append_of_le_length within]

theorem Follows.refl (place : Place ε) : place.Follows marks place :=
  ⟨fun _own known => known, Or.inl (Extends.refl place)⟩

theorem Step.known (step : later.Step marks latest) {own : μ} (known : later.Known marks own) :
    latest.Known marks own := by
  unfold Known at known ⊢
  cases step with
  | grown entry marked =>
      rw [← List.append_assoc, List.flatMap_append]
      exact List.mem_append_left _ known
  | cleaned first onward within => exact known
  | replaced log marked =>
      rw [List.flatMap_append]
      exact List.mem_append_left _ known

/-- A log that is strange stays so: it grows under its own mark or under new ones. -/
theorem Strange.step (strange : place.Strange marks later)
    (before : ∀ own, place.Known marks own → later.Known marks own)
    (step : later.Step marks latest) : place.Strange marks latest := by
  intro own inside known
  cases step with
  | grown entry marked =>
      rw [List.flatMap_append, List.mem_append] at inside
      rcases inside with held | brought
      · exact strange own held known
      · rw [List.flatMap_singleton] at brought
        rcases marked own brought with newest | unknown
        · exact strange own (mem_of_mark newest) known
        · exact unknown (before own known)
  | cleaned first onward within => exact strange own inside known
  | replaced log marked => exact marked own inside (before own known)

theorem Follows.step (follows : place.Follows marks later) (step : later.Step marks latest) :
    place.Follows marks latest := by
  constructor
  · intro own known
    exact step.known (follows.known own known)
  · rcases follows.either with same | strange
    · cases step with
      | grown entry marked =>
          left
          exact same.trans ⟨List.prefix_append _ _, Nat.le_refl _⟩
      | cleaned first onward within =>
          left
          exact same.trans ⟨List.prefix_refl _, onward⟩
      | replaced log marked =>
          right
          intro own inside known
          exact marked own inside (follows.known own known)
    · right
      exact strange.step follows.known step

theorem Follows.run (follows : place.Follows marks later)
    (run : Relation.ReflTransGen (Step marks) later latest) : place.Follows marks latest := by
  induction run with
  | refl => exact follows
  | tail _run step ih => exact ih.step step

theorem Strange.run (strange : place.Strange marks later) (follows : place.Follows marks later)
    (run : Relation.ReflTransGen (Step marks) later latest) : place.Strange marks latest := by
  induction run with
  | refl => exact strange
  | tail earlier step ih => exact ih.step (follows.run earlier).known step

end Place

/-- A place over time: any number of things may happen between two moments. -/
structure Timeline (marks : ε → List μ) where
  place : Nat → Place ε
  step : ∀ moment, Relation.ReflTransGen (Place.Step marks) (place moment) (place (moment + 1))

namespace Timeline

variable {marks : ε → List μ} (timeline : Timeline marks)

theorem run {early late : Nat} (order : early ≤ late) :
    Relation.ReflTransGen (Place.Step marks) (timeline.place early) (timeline.place late) := by
  induction order with
  | refl => exact Relation.ReflTransGen.refl
  | step _order ih => exact ih.trans (timeline.step _)

theorem follows {early late : Nat} (order : early ≤ late) :
    (timeline.place early).Follows marks (timeline.place late) :=
  (Place.Follows.refl _).run (timeline.run order)

/-- Between two moments under one mark the log was never replaced. -/
theorem extends_of_mark {early moment late : Nat} (before : early ≤ moment) (after : moment ≤ late)
    {own : μ} (first : (timeline.place early).mark marks = some own)
    (last : (timeline.place late).mark marks = some own) :
    (timeline.place early).Extends (timeline.place moment) := by
  rcases (timeline.follows before).either with same | strange
  · exact same
  · have stays := strange.run (timeline.follows before) (timeline.run after)
    have known := Place.known_of_mem (Place.mem_of_mark first)
    exact absurd known (stays own (Place.mem_of_mark last))

end Timeline

end Succession
