/-
Batches that went to the target: a stretch of the source cut into consecutive
batches, each transformed on its own, and the rows they came to.
-/

import Ddi.Pipeline.StepSemantics

namespace Ddi

open Ddi.Delta
open Ddi.Source

set_option linter.unusedSectionVars false

variable {ρ τ T K P : Type} [LinearOrder T]

/-- The rows some files hold. -/
def rowsOf (files : List (Nat × AddFile ρ)) : List ρ := files.flatMap fun entry => entry.2.rows

/-- One batch and what it was transformed to, under the log timestamp of its last commit. -/
structure Delivery (config : ResolvedPipeline τ T K P) (engine : Engine ρ τ T K P)
    (source : DeltaLog ρ) (files : List (Nat × AddFile ρ)) (rows : List τ) : Prop where
  carrying : files ≠ []
  transformed :
    engine.transform (logTimestampOf source config.hasLookups files) (rowsOf files) = .ok rows
  single : config.hasLookups = true → ∀ left, left ∈ files → ∀ right, right ∈ files →
    left.1 = right.1

/-- A stretch of the source and the rows its batches came to. -/
def Delivered (config : ResolvedPipeline τ T K P) (engine : Engine ρ τ T K P)
    (source : DeltaLog ρ) (first bound : Nat) (rows : List τ) : Prop :=
  ∃ deliveries : List (List (Nat × AddFile ρ) × List τ),
    (∀ delivery, delivery ∈ deliveries → Delivery config engine source delivery.1 delivery.2) ∧
      deliveries.flatMap Prod.fst = emitted source config.changePolicy first bound ∧
      deliveries.flatMap Prod.snd = rows

/-- A transform that goes row by row, under the log timestamp its lookups are pinned at. -/
def RowLocal (engine : Engine ρ τ T K P) (image : Option Nat → ρ → List τ) : Prop :=
  ∀ context rows output, engine.transform context rows = .ok output →
    output = rows.flatMap (image context)

/-- The log timestamp lookups are pinned at for the commit of a version. -/
def contextOf (config : ResolvedPipeline τ T K P) (source : DeltaLog ρ) (version : Nat) :
    Option Nat :=
  if config.hasLookups then (source.commits[version]?).map Commit.lastModified else none

/-- The rows of some files, each transformed by itself. -/
def imageOf (config : ResolvedPipeline τ T K P) (source : DeltaLog ρ)
    (image : Option Nat → ρ → List τ) (files : List (Nat × AddFile ρ)) : List τ :=
  files.flatMap fun entry => entry.2.rows.flatMap (image (contextOf config source entry.1))

section Delivered

variable {config : ResolvedPipeline τ T K P} {engine : Engine ρ τ T K P} {source : DeltaLog ρ}

theorem Delivered.start (config : ResolvedPipeline τ T K P) (engine : Engine ρ τ T K P)
    (source : DeltaLog ρ) (first : Nat) : Delivered config engine source first first [] :=
  ⟨[], nofun, (emitted_self source config.changePolicy first).symm, rfl⟩

theorem Delivered.deliver {first middle bound : Nat} {files : List (Nat × AddFile ρ)}
    {rows output : List τ} (delivered : Delivered config engine source first middle rows)
    (low : first ≤ middle) (high : middle ≤ bound)
    (next : files = emitted source config.changePolicy middle bound)
    (delivery : Delivery config engine source files output) :
    Delivered config engine source first bound (rows ++ output) := by
  obtain ⟨deliveries, each, whole, same⟩ := delivered
  refine ⟨deliveries ++ [(files, output)], ?_, ?_, ?_⟩
  · intro one member
    rcases List.mem_append.mp member with earlier | last
    · exact each one earlier
    · rw [List.mem_singleton] at last
      rw [last]
      exact delivery
  · rw [List.flatMap_append, whole, List.flatMap_singleton,
      emitted_append source config.changePolicy low high, ← next]
  · rw [List.flatMap_append, same, List.flatMap_singleton]

/-- A stretch without a file has gone to no rows. -/
theorem Delivered.rows_eq_nil {first bound : Nat} {rows : List τ}
    (delivered : Delivered config engine source first bound rows)
    (silent : emitted source config.changePolicy first bound = []) : rows = [] := by
  obtain ⟨deliveries, each, whole, same⟩ := delivered
  rw [silent] at whole
  cases deliveries with
  | nil => exact same.symm
  | cons delivery rest =>
      rw [List.flatMap_cons, List.append_eq_nil_iff] at whole
      exact absurd whole.1 (each delivery List.mem_cons_self).carrying

private theorem logTimestampOf_extends {after : DeltaLog ρ} (extends_ : Extends source after)
    {pinned : Bool} {files : List (Nat × AddFile ρ)}
    (within : ∀ entry, entry ∈ files → entry.1 < source.commits.length) :
    logTimestampOf after pinned files = logTimestampOf source pinned files := by
  unfold logTimestampOf
  cases last : files.getLast? with
  | none => rfl
  | some entry =>
      simp only [Option.bind_some, extends_.getElem? (within entry (List.mem_of_getLast? last))]

theorem Delivered.extends {after : DeltaLog ρ} {first bound : Nat} {rows : List τ}
    (delivered : Delivered config engine source first bound rows)
    (extends_ : Extends source after) (within : bound ≤ max first source.commits.length) :
    Delivered config engine after first bound rows := by
  obtain ⟨deliveries, each, whole, same⟩ := delivered
  refine ⟨deliveries, ?_, ?_, same⟩
  · intro delivery member
    have one := each delivery member
    have inside : ∀ entry, entry ∈ delivery.1 → entry.1 < source.commits.length := by
      intro entry present
      have emits : entry ∈ emitted source config.changePolicy first bound := by
        rw [← whole]
        exact List.mem_flatMap.mpr ⟨delivery, member, present⟩
      obtain ⟨low, high, _emits⟩ := mem_emitted.mp emits
      omega
    exact
      { carrying := one.carrying
        transformed := by
          rw [logTimestampOf_extends extends_ inside]
          exact one.transformed
        single := one.single }
  · rw [whole, emitted_extends extends_ config.changePolicy within]

/-- The rows of a batch are those of its files one by one. -/
theorem Delivery.rowwise {image : Option Nat → ρ → List τ} (local_ : RowLocal engine image)
    {files : List (Nat × AddFile ρ)} {rows : List τ}
    (delivery : Delivery config engine source files rows) :
    rows = imageOf config source image files := by
  rw [local_ _ _ _ delivery.transformed, rowsOf, List.flatMap_assoc]
  refine List.flatMap_congr fun entry member => ?_
  have same : logTimestampOf source config.hasLookups files = contextOf config source entry.1 := by
    unfold logTimestampOf contextOf
    cases pinned : config.hasLookups with
    | false => rfl
    | true =>
        have last := List.getLast_mem delivery.carrying
        rw [List.getLast?_eq_some_getLast delivery.carrying, Option.bind_some,
          delivery.single pinned _ last _ member]
  rw [same]

/-- Under a transform that goes row by row the cut into batches leaves no trace. -/
theorem Delivered.rowwise {image : Option Nat → ρ → List τ} (local_ : RowLocal engine image)
    {first bound : Nat} {rows : List τ}
    (delivered : Delivered config engine source first bound rows) :
    rows = imageOf config source image (emitted source config.changePolicy first bound) := by
  obtain ⟨deliveries, each, whole, same⟩ := delivered
  rw [← whole, ← same, imageOf, List.flatMap_assoc]
  refine List.flatMap_congr fun delivery member => ?_
  exact (each delivery member).rowwise local_

end Delivered

/-- The batch a committing step handed to the transform. -/
theorem Committing.delivery [DecidableEq K] [DecidableEq P]
    {config : ResolvedPipeline τ T K P}
    {engine : Engine ρ τ T K P} {source : DeltaLog ρ} {path : String}
    {before after : Pipeline T K P} {commit : Commit τ} {pulled : Pipeline T K P}
    {batch : LogBatch ρ} {output : List τ} {filtered : Filtered τ} {version : Nat}
    (committing : Committing config engine source path before after commit pulled batch output
      filtered version) : Delivery config engine source batch.entries output where
  carrying := committing.pull.carrying batch rfl
  transformed := by
    rw [← committing.pull.timestamp batch rfl]
    exact committing.transform
  single := by
    intro pinned left leftIn right rightIn
    rw [committing.pull.single batch rfl pinned left leftIn,
      committing.pull.single batch rfl pinned right rightIn]

end Ddi
