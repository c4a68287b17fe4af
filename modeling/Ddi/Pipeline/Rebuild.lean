/-
Rebuilds by another writer: one reads the source at some version and later
overwrites the target with what its rows come to. As long as no commit of ours
lands on a target overwritten since its process opened, no row is lost; when one
does, the next open takes the overwritten target for its own.
-/

import Ddi.Pipeline.Handover
import Mathlib.Data.List.Perm.Subperm

namespace Ddi

open Ddi.Delta
open Ddi.Source

set_option linter.unusedSectionVars false

variable {ρ τ T K P : Type} [LinearOrder T] [DecidableEq K] [DecidableEq P]

def removal (file : AddFile τ) : Action τ := .remove { path := file.path }

/-- A commit that replaces everything the table holds. -/
def overwriteCommit (target : DeltaLog τ) (rows : List τ) : Commit τ where
  actions := (liveFiles target.commits).map removal ++
    [.add { path := nextPath target, rows := rows }]

/-- Another writer overwrites the target with what the source came to up to a version. -/
structure Lineage.Rebuilds (lineage : Lineage ρ τ T K P) (config : ResolvedPipeline τ T K P)
    (source : DeltaLog ρ) (target : DeltaLog τ) (source' : DeltaLog ρ) (target' : DeltaLog τ) :
    Prop where
  untouched : source' = source
  overwrites : ∃ read rows, read < source.commits.length ∧
    rows.Perm (imageRows lineage.image (sourceRows config source 0 (read + 1))) ∧
      target' = target.append (overwriteCommit target rows)

/-- A world, and whether its target was overwritten after its process opened. -/
structure Watched (ρ τ T K P : Type) where
  world : World ρ τ T K P
  rewritten : Bool

/-- Whether the target counts as overwritten once the process has moved. -/
def stillRewritten (rewritten : Bool) : Move → Bool
  | .start => false
  | _ => rewritten

/-- One thing that happens, no commit landing on a target overwritten since its process opened. -/
inductive Watched.Step (lineage : Lineage ρ τ T K P) (config : ResolvedPipeline τ T K P)
    (engine : Engine ρ τ T K P) (before : Watched ρ τ T K P) : Watched ρ τ T K P → Prop
  | ours (move : Move) (heeds : before.rewritten = true →
      (before.world.move config engine move).target = before.world.target) :
      Watched.Step lineage config engine before
        { world := before.world.move config engine move
          rewritten := stillRewritten before.rewritten move }
  | arrives (source : DeltaLog ρ) (target : DeltaLog τ)
      (happens : lineage.Arriving engine before.world.source before.world.target source target) :
      Watched.Step lineage config engine before
        { before with world := { before.world with source := source, target := target } }
  | rebuilds (source : DeltaLog ρ) (target : DeltaLog τ)
      (happens : lineage.Rebuilds config before.world.source before.world.target source target) :
      Watched.Step lineage config engine before
        { world := { before.world with source := source, target := target }, rewritten := true }

def Watched.Runs (lineage : Lineage ρ τ T K P) (config : ResolvedPipeline τ T K P)
    (engine : Engine ρ τ T K P) : Watched ρ τ T K P → Watched ρ τ T K P → Prop :=
  Relation.ReflTransGen (Watched.Step lineage config engine)

/-- The world as an open would see it: a process with an overwritten target under it will not
put anything again. -/
def Watched.heeded (watched : Watched ρ τ T K P) : World ρ τ T K P :=
  if watched.rewritten then { watched.world with process := none } else watched.world

@[simp] theorem Watched.heeded_source (watched : Watched ρ τ T K P) :
    watched.heeded.source = watched.world.source := by
  unfold heeded
  split <;> rfl

@[simp] theorem Watched.heeded_target (watched : Watched ρ τ T K P) :
    watched.heeded.target = watched.world.target := by
  unfold heeded
  split <;> rfl

section Overwrite

variable {target : DeltaLog τ} {rows : List τ}

private theorem applyFileActions_overwrite (live : List (AddFile τ)) (fresh : AddFile τ) :
    applyFileActions live (live.map removal ++ [.add fresh]) = [fresh] := by
  unfold applyFileActions
  rw [List.filterMap_append, List.filterMap_map]
  refine (congrArg₂ (· ++ ·) (List.filter_eq_nil_iff.mpr fun file member => ?_)
    (congrArg (· ++ _) (List.filterMap_eq_nil_iff.mpr fun file _member => rfl))).trans rfl
  rw [Bool.not_eq_true', Bool.not_eq_false, List.any_eq_true]
  exact ⟨removal file, List.mem_append_left _ (List.mem_map.mpr ⟨file, member, rfl⟩),
    beq_self_eq_true _⟩

theorem tableRows_overwrite (target : DeltaLog τ) (rows : List τ) :
    tableRows (target.append (overwriteCommit target rows)) = rows := by
  unfold tableRows DeltaLog.append overwriteCommit
  rw [liveFiles_append, applyFileActions_overwrite]
  exact List.append_nil rows

theorem overwriteCommit_carriesTxn (appId : String) :
    carriesTxn appId (overwriteCommit target rows).actions = false := by
  unfold carriesTxn overwriteCommit
  rw [List.any_append, List.any_map, Bool.or_eq_false_iff, List.any_eq_false]
  refine ⟨fun file _member => ?_, rfl⟩
  exact Bool.false_ne_true

theorem overwriteCommit_rewritesData (live : liveFiles target.commits ≠ []) :
    rewritesData (overwriteCommit target rows).actions = true := by
  obtain ⟨file, member⟩ := List.exists_mem_of_ne_nil _ live
  unfold rewritesData overwriteCommit
  rw [List.any_append, List.any_map, Bool.or_eq_true]
  exact Or.inl (List.any_eq_true.mpr ⟨file, member, rfl⟩)

end Overwrite

section Rebuild

variable {lineage : Lineage ρ τ T K P} {config : ResolvedPipeline τ T K P}
  {engine : Engine ρ τ T K P} {source : DeltaLog ρ} {target : DeltaLog τ}
  {early again : List (Option Nat × ρ)} {count : Nat} {rows : List τ}

private theorem Lineage.Stands.more {version more : Nat} {window : Option RecordedCutoff}
    (stands : lineage.Stands config source false version window count) (ordered : count ≤ more) :
    lineage.Stands config source false version window more where
  started := stands.started
  written := stands.written
  reached := Nat.le_trans stands.reached ordered
  clear := nofun
  formed := stands.formed
  bounded recorded head known through :=
    ⟨(stands.bounded recorded head known through).1, nofun⟩

private theorem recorded_overwrite
    (recorded : lineage.Recorded config source false target count) {more : Nat}
    (ordered : liveFiles target.commits = [] → count ≤ more) :
    lineage.Recorded config source false (target.append (overwriteCommit target rows)) more := by
  intro number actions found ours near newest
  obtain ⟨within, last, earlier⟩ := readCommitEntry_append found
  rw [head_append] at near newest
  have before : number < target.commits.length := by
    by_contra beyond
    rw [last (by omega), overwriteCommit_carriesTxn] at ours
    cases ours
  obtain ⟨other, read, _foreign, keeps⟩ := newest target.commits.length before (Nat.le_refl _)
  rw [(readCommitEntry_append read).2.1 rfl] at keeps
  have nothing : liveFiles target.commits = [] := by
    by_contra live
    rw [overwriteCommit_rewritesData live] at keeps
    cases keeps
  obtain ⟨path, rows, version, identity, window, same, stored, stands⟩ :=
    recorded number actions (earlier before) ours
      (by unfold DeltaLog.head; omega)
      (by
        intro later above atMost
        unfold DeltaLog.head at atMost
        obtain ⟨other, read, facts⟩ := newest later above (by omega)
        exact ⟨other, (readCommitEntry_append read).2.2 (by omega), facts⟩)
  refine ⟨path, rows, version, identity, window, same, ?_, stands.more (ordered nothing)⟩
  rw [transactionVersion_append, txnOf_foreign (overwriteCommit_carriesTxn _)]
  exact stored

private theorem sourceRows_upto (config : ResolvedPipeline τ T K P) (source : DeltaLog ρ)
    (bound : Nat) : sourceRows config source 0 bound =
      heldRows config source (sourceRows config source 0 (min bound config.startingVersion))
        (reach config source bound) := by
  unfold heldRows
  rw [streamed_take_reach]
  rcases Nat.le_total config.startingVersion bound with after | before
  · rw [Nat.min_eq_right after, sourceRows_append config source (Nat.zero_le _) after]
  · rw [Nat.min_eq_left before, sourceRows_of_le config source before, List.append_nil]

private theorem Lineage.Agree.overwritten {process : Option (Pipeline T K P)}
    (agree : lineage.Agree config source false target process early again count) {read : Nat}
    (filled : rows.Perm (imageRows lineage.image (sourceRows config source 0 (read + 1)))) :
    ∃ early count, lineage.Agree config source false
      (target.append (overwriteCommit target rows)) none early [] count := by
  rw [sourceRows_upto] at filled
  have before : sourceRows config source 0 (min (read + 1) config.startingVersion) <+:
      sourceRows config source 0 config.startingVersion := by
    have parts := sourceRows_append config source (Nat.zero_le _)
      (Nat.min_le_right (read + 1) config.startingVersion)
    exact ⟨_, parts.symm⟩
  by_cases live : liveFiles target.commits = []
  · -- nothing was live, so what was taken to be held came to no rows
    have nothing : ∀ row, row ∈ heldRows config source early count →
        lineage.image row.1 row.2 = [] := by
      have rows := agree.holding.rows
      rw [tableRows, live] at rows
      have empty := rows.symm.eq_nil
      rw [List.append_eq_nil_iff] at empty
      exact fun row member => List.flatMap_eq_nil_iff.mp empty.1 row member
    refine ⟨_, max count (reach config source (read + 1)), ⟨?_, before, ?_,
      fun _row absent => absurd absent List.not_mem_nil,
      fun _once _row absent => absurd absent List.not_mem_nil⟩, ?_, ?_⟩
    · exact Nat.max_le.mpr ⟨agree.holding.within, reach_le config source _⟩
    · rw [tableRows_overwrite, imageRows_nil, List.append_nil]
      rw [heldRows_append (Nat.le_max_right count _), imageRows_append]
      have silent : imageRows lineage.image (Arrivals.stretch (streamed config source)
          (reach config source (read + 1)) (max count (reach config source (read + 1)))) = [] := by
        refine List.flatMap_eq_nil_iff.mpr fun row member => nothing row ?_
        rcases Nat.le_total count (reach config source (read + 1)) with past | inside
        · rw [Nat.max_eq_right past, Arrivals.stretch_of_le _ (Nat.le_refl _)] at member
          cases member
        · rw [Nat.max_eq_left inside] at member
          exact List.mem_append_right _ (Arrivals.mem_take_of_mem_stretch member)
      rw [silent, List.append_nil]
      exact filled
    · exact recorded_overwrite agree.recorded fun _nothing => Nat.le_max_left _ _
    · intro pipeline impossible
      cases impossible
  · refine ⟨_, reach config source (read + 1), ⟨reach_le config source _, before, ?_,
      fun _row absent => absurd absent List.not_mem_nil,
      fun _once _row absent => absurd absent List.not_mem_nil⟩, ?_, ?_⟩
    · rw [tableRows_overwrite, imageRows_nil, List.append_nil]
      exact filled
    · exact recorded_overwrite agree.recorded fun nothing => absurd nothing live
    · intro pipeline impossible
      cases impossible

end Rebuild

section Run

variable {lineage : Lineage ρ τ T K P} {config : ResolvedPipeline τ T K P}
  {engine : Engine ρ τ T K P}

/-- The invariant of a run. -/
private def Kept (lineage : Lineage ρ τ T K P) (config : ResolvedPipeline τ T K P)
    (engine : Engine ρ τ T K P) (watched : Watched ρ τ T K P) : Prop :=
  ∃ early, Handing lineage config engine false early watched.heeded

private theorem Kept.ours (carries : lineage.Carries config engine)
    {before : Watched ρ τ T K P} (kept : Kept lineage config engine before) (move : Move)
    (heeds : before.rewritten = true →
      (before.world.move config engine move).target = before.world.target) :
    Kept lineage config engine
      { world := before.world.move config engine move
        rewritten := stillRewritten before.rewritten move } := by
  obtain ⟨early, handing⟩ := kept
  obtain ⟨world, rewritten⟩ := before
  have moved := World.move_semantics config engine world move
  refine ⟨early, ?_⟩
  cases rewritten with
  | false =>
      have same : stillRewritten false move = false := by
        cases move <;> rfl
      simp only [same]
      exact Handing.moved carries handing moved
  | true =>
      obtain ⟨again, count, agree⟩ := handing.agree
      cases move with
      | start =>
          change Handing lineage config engine false early (world.move config engine .start)
          unfold World.move
          cases resolved : openPipeline config engine world.source world.target with
          | error error => exact handing
          | ok pipeline =>
              exact ⟨handing.orderly, handing.numbered, handing.readable, again, count,
                agree.opened carries handing.orderly handing.numbered handing.readable resolved⟩
      | crash => exact handing
      | step budget retryBudget fate =>
          have target := heeds rfl
          have source := moved.source
          simp only at target
          change Handing lineage config engine false early
            { source := (world.move config engine (.step budget retryBudget fate)).source
              target := (world.move config engine (.step budget retryBudget fate)).target
              process := none }
          rw [target, source]
          exact handing

private theorem Kept.step (carries : lineage.Carries config engine)
    {before after : Watched ρ τ T K P} (kept : Kept lineage config engine before)
    (step : Watched.Step lineage config engine before after) :
    Kept lineage config engine after := by
  cases step with
  | ours move heeds => exact kept.ours carries move heeds
  | arrives source target happens =>
      obtain ⟨early, handing⟩ := kept
      obtain ⟨again, count, agree⟩ := handing.agree
      have same : target = before.world.target := happens.untouched
      subst same
      refine ⟨early, ?_, ?_, ?_, again, count, ?_⟩
      · rw [Watched.heeded_source]
        exact happens.orderly
      · rw [Watched.heeded_source]
        exact happens.numbered
      · have readable := handing.readable
        rw [Watched.heeded_target] at readable ⊢
        exact readable
      · rw [Watched.heeded_source] at agree
        have grown := agree.grown happens.grows
        unfold Watched.heeded at grown ⊢
        cases rewritten : before.rewritten with
        | true =>
            rw [rewritten] at grown
            exact grown
        | false =>
            rw [rewritten] at grown
            exact grown
  | rebuilds source target happens =>
      obtain ⟨early, handing⟩ := kept
      obtain ⟨again, count, agree⟩ := handing.agree
      have same : source = before.world.source := happens.untouched
      obtain ⟨read, rows, _within, filled, overwritten⟩ := happens.overwrites
      subst same
      subst overwritten
      rw [Watched.heeded_source, Watched.heeded_target] at agree
      obtain ⟨first, held, after⟩ := agree.overwritten filled
      refine ⟨first, ?_, ?_, ?_, [], held, after⟩
      · have orderly := handing.orderly
        rw [Watched.heeded_source] at orderly
        exact orderly
      · have numbered := handing.numbered
        rw [Watched.heeded_source] at numbered
        exact numbered
      · have readable := handing.readable
        rw [Watched.heeded_target] at readable
        exact readable

private theorem Kept.runs (carries : lineage.Carries config engine)
    {first last : Watched ρ τ T K P} (kept : Kept lineage config engine first)
    (run : Watched.Runs lineage config engine first last) : Kept lineage config engine last := by
  induction run with
  | refl => exact kept
  | tail _before step ih => exact ih.step carries step

end Run

/-- Moves of a process with nothing overwritten under it. -/
theorem Watched.Runs.ofMoves (lineage : Lineage ρ τ T K P) (config : ResolvedPipeline τ T K P)
    (engine : Engine ρ τ T K P) (world : World ρ τ T K P) (moves : List Move) :
    Watched.Runs lineage config engine { world := world, rewritten := false }
      { world := world.moves config engine moves, rewritten := false } := by
  induction moves generalizing world with
  | nil => exact Relation.ReflTransGen.refl
  | cons move moves ih =>
      have same : stillRewritten false move = false := by
        cases move <;> rfl
      have step : Watched.Step lineage config engine { world := world, rewritten := false }
          { world := world.move config engine move, rewritten := stillRewritten false move } :=
        .ours move nofun
      rw [same] at step
      exact Relation.ReflTransGen.head step (ih _)

end Ddi
