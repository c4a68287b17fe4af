/-
The rows a source emits, one after another, and how many of them lie before a
version. Every version cuts them at a place of its own; later commits only add
rows behind them.
-/

import Ddi.Lib.Arrivals
import Ddi.Pipeline.Delivery

namespace Ddi

open Arrivals (stretch)
open Ddi.Delta
open Ddi.Source

set_option linter.unusedSectionVars false

variable {ρ τ T K P : Type} [LinearOrder T]

/-- The rows of some files, each under the log timestamp its lookups are pinned at. -/
def arrivalsOf (config : ResolvedPipeline τ T K P) (source : DeltaLog ρ)
    (files : List (Nat × AddFile ρ)) : List (Option Nat × ρ) :=
  files.flatMap fun entry => entry.2.rows.map fun row => (contextOf config source entry.1, row)

/-- The rows the source emits from one version and before another. -/
def sourceRows (config : ResolvedPipeline τ T K P) (source : DeltaLog ρ) (first bound : Nat) :
    List (Option Nat × ρ) :=
  arrivalsOf config source (emitted source config.changePolicy first bound)

/-- What a transform that goes row by row makes of some rows. -/
def imageRows (image : Option Nat → ρ → List τ) (rows : List (Option Nat × ρ)) : List τ :=
  rows.flatMap fun row => image row.1 row.2

@[simp] theorem imageRows_nil (image : Option Nat → ρ → List τ) : imageRows image [] = [] := rfl

@[simp] theorem imageRows_append (image : Option Nat → ρ → List τ)
    (left right : List (Option Nat × ρ)) :
    imageRows image (left ++ right) = imageRows image left ++ imageRows image right :=
  List.flatMap_append

theorem imageOf_eq (config : ResolvedPipeline τ T K P) (source : DeltaLog ρ)
    (image : Option Nat → ρ → List τ) (files : List (Nat × AddFile ρ)) :
    imageOf config source image files = imageRows image (arrivalsOf config source files) := by
  unfold imageOf imageRows arrivalsOf
  rw [List.flatMap_assoc]
  refine List.flatMap_congr fun entry _member => ?_
  rw [List.flatMap_map]

section Rows

variable (config : ResolvedPipeline τ T K P) (source : DeltaLog ρ)

theorem sourceRows_self (first : Nat) : sourceRows config source first first = [] := by
  unfold sourceRows
  rw [emitted_self]
  rfl

theorem sourceRows_append {first middle bound : Nat} (low : first ≤ middle)
    (high : middle ≤ bound) :
    sourceRows config source first bound =
      sourceRows config source first middle ++ sourceRows config source middle bound := by
  unfold sourceRows arrivalsOf
  rw [emitted_append source config.changePolicy low high, List.flatMap_append]

theorem sourceRows_of_le {first bound : Nat} (beyond : bound ≤ first) :
    sourceRows config source first bound = [] := by
  have nothing : emitted source config.changePolicy first bound = [] :=
    Segments.between_of_le _ _ beyond
  unfold sourceRows
  rw [nothing]
  rfl

/-- A log emits nothing past its end. -/
theorem sourceRows_clip (first bound : Nat) :
    sourceRows config source first bound =
      sourceRows config source first (min bound source.commits.length) := by
  have nothing : ∀ later, source.commits.length ≤ later →
      emitted source config.changePolicy later bound = [] := by
    intro later past
    rw [List.eq_nil_iff_forall_not_mem]
    intro entry member
    obtain ⟨low, _high, emits⟩ := mem_emitted.mp member
    unfold emittedAt at emits
    rw [DeltaLog.readCommitEntry_eq] at emits
    have gone : source.written.commits[entry.1]? = none :=
      List.getElem?_eq_none (Nat.le_trans past low)
    rw [gone] at emits
    cases emits
  rcases Nat.le_total bound source.commits.length with inside | past
  · rw [Nat.min_eq_left inside]
  · rw [Nat.min_eq_right past]
    rcases Nat.le_total first source.commits.length with before | beyond
    · rw [sourceRows_append config source before past]
      have tail : sourceRows config source source.commits.length bound = [] := by
        unfold sourceRows
        rw [nothing _ (Nat.le_refl _)]
        rfl
      rw [tail, List.append_nil]
    · rw [sourceRows_of_le config source beyond]
      unfold sourceRows
      rw [nothing first beyond]
      rfl

/-- Everything the source emits from the configured version on. -/
def streamed : List (Option Nat × ρ) :=
  sourceRows config source config.startingVersion source.commits.length

/-- How many rows lie before a version. -/
def reach (version : Nat) : Nat :=
  (sourceRows config source config.startingVersion version).length

@[simp] theorem reach_start : reach config source config.startingVersion = 0 := by
  unfold reach
  rw [sourceRows_self]
  rfl

theorem streamed_take_reach (version : Nat) :
    (streamed config source).take (reach config source version) =
      sourceRows config source config.startingVersion version := by
  unfold streamed reach
  rw [sourceRows_clip config source config.startingVersion version]
  rcases Nat.le_total config.startingVersion (min version source.commits.length) with
    before | beyond
  · rw [sourceRows_append config source before (Nat.min_le_right _ _), List.take_left]
  · rw [sourceRows_of_le config source beyond]
    exact List.take_zero

theorem reach_le (version : Nat) :
    reach config source version ≤ (streamed config source).length := by
  have within := List.length_take_le' (reach config source version) (streamed config source)
  rw [streamed_take_reach] at within
  exact within

theorem reach_of_head {version : Nat} (past : source.commits.length ≤ version) :
    reach config source version = (streamed config source).length := by
  unfold reach streamed
  rw [sourceRows_clip, Nat.min_eq_right past]

theorem reach_mono {first second : Nat} (ordered : first ≤ second) :
    reach config source first ≤ reach config source second := by
  unfold reach
  rcases Nat.le_total config.startingVersion first with after | before
  · rw [sourceRows_append config source after ordered, List.length_append]
    exact Nat.le_add_right _ _
  · rw [sourceRows_of_le config source before]
    exact Nat.zero_le _

theorem sourceRows_eq_stretch {first bound : Nat} (started : config.startingVersion ≤ first)
    (ordered : first ≤ bound) :
    sourceRows config source first bound =
      stretch (streamed config source) (reach config source first)
        (reach config source bound) := by
  unfold stretch
  rw [streamed_take_reach, sourceRows_append config source started ordered, reach, List.drop_left]

theorem reach_of_silent {first bound : Nat} (started : config.startingVersion ≤ first)
    (ordered : first ≤ bound)
    (silent : emitted source config.changePolicy first bound = []) :
    reach config source bound = reach config source first := by
  have nothing : sourceRows config source first bound = [] := by
    unfold sourceRows
    rw [silent]
    rfl
  unfold reach
  rw [sourceRows_append config source started ordered, nothing, List.append_nil]

end Rows

section Growth

variable {config : ResolvedPipeline τ T K P} {before after : DeltaLog ρ}

private theorem contextOf_extends (extends_ : Extends before after) {version : Nat}
    (within : version < before.commits.length) :
    contextOf config after version = contextOf config before version := by
  unfold contextOf
  rw [extends_.getElem? within]

theorem sourceRows_extends (extends_ : Extends before after) {first bound : Nat}
    (within : bound ≤ max first before.commits.length) :
    sourceRows config after first bound = sourceRows config before first bound := by
  unfold sourceRows arrivalsOf
  rw [emitted_extends extends_ config.changePolicy within]
  refine List.flatMap_congr fun entry member => ?_
  obtain ⟨low, high, _emits⟩ := mem_emitted.mp member
  rw [contextOf_extends extends_ (by omega)]

theorem sourceRows_grows (extends_ : Extends before after) (first bound : Nat) :
    sourceRows config before first bound <+: sourceRows config after first bound := by
  rw [sourceRows_clip config before first bound,
    ← sourceRows_extends extends_ (Nat.le_trans (Nat.min_le_right _ _) (Nat.le_max_right _ _))]
  rcases Nat.le_total first (min bound before.commits.length) with ahead | beyond
  · rw [sourceRows_append config after ahead (Nat.min_le_left _ _)]
    exact List.prefix_append _ _
  · rw [sourceRows_of_le config after beyond]
    exact List.nil_prefix

theorem streamed_grows (config : ResolvedPipeline τ T K P) (extends_ : Extends before after) :
    streamed config before <+: streamed config after := by
  unfold streamed
  have shorter := sourceRows_clip config before config.startingVersion after.commits.length
  rw [Nat.min_eq_right extends_.length_le] at shorter
  rw [← shorter]
  exact sourceRows_grows extends_ config.startingVersion after.commits.length

theorem reach_extends (extends_ : Extends before after) {version : Nat}
    (within : version ≤ max config.startingVersion before.commits.length) :
    reach config after version = reach config before version := by
  unfold reach
  rw [sourceRows_extends extends_ within]

end Growth

end Ddi
