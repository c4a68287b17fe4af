/-
A pipeline among others: the two tables, the process that may be running, and
everything that can happen next. A process opens, steps and dies; a commit it
puts may land and be seen to land, land unseen, or be lost; what writes to the
tables besides is a relation of its own.
-/

import Ddi.Pipeline.StepSemantics
import Mathlib.Logic.Relation

namespace Ddi

open Ddi.Delta
open Ddi.Source

variable {ρ τ T K P : Type} [LinearOrder T] [DecidableEq K] [DecidableEq P]

structure World (ρ τ T K P : Type) where
  source : DeltaLog ρ
  target : DeltaLog τ
  process : Option (Pipeline T K P)

/-- What becomes of a commit that is put. -/
inductive Fate
  | seen
  /-- It landed, and the process never learnt of it. -/
  | unseen
  | lost
  deriving DecidableEq

inductive Move
  | start
  | step (budget retryBudget : Option Nat) (fate : Fate)
  | crash

/-- The path of a file written next. -/
def nextPath (target : DeltaLog τ) : String := s!"part-{target.commits.length}"

/-- What the process does next. A failed open or step ends it. -/
def World.move (config : ResolvedPipeline τ T K P) (engine : Engine ρ τ T K P)
    (world : World ρ τ T K P) : Move → World ρ τ T K P
  | .crash => { world with process := none }
  | .start =>
    match openPipeline config engine world.source world.target with
    | .error _ => { world with process := none }
    | .ok pipeline => { world with process := some pipeline }
  | .step budget retryBudget fate =>
    match world.process with
    | none => world
    | some running =>
      match stepDelta config engine world.source (nextPath world.target) budget retryBudget
        running with
      | .failed _ => { world with process := none }
      | .caughtUp after => { world with process := some after }
      | .commits commit after =>
        match fate with
        | .seen => { world with target := world.target.append commit, process := some after }
        | .unseen => { world with target := world.target.append commit, process := none }
        | .lost => { world with process := none }

/-- What writes to the tables besides the process: the tables before and after. -/
def Outside (ρ τ : Type) : Type :=
  DeltaLog ρ → DeltaLog τ → DeltaLog ρ → DeltaLog τ → Prop

/-- One thing that happens, to the process or besides it. -/
inductive World.Step (config : ResolvedPipeline τ T K P) (engine : Engine ρ τ T K P)
    (outside : Outside ρ τ) (world : World ρ τ T K P) : World ρ τ T K P → Prop
  | ours (move : Move) : World.Step config engine outside world (world.move config engine move)
  | besides (source : DeltaLog ρ) (target : DeltaLog τ)
      (happens : outside world.source world.target source target) :
      World.Step config engine outside world { world with source := source, target := target }

/-- Everything a process can do, with what it took. -/
inductive World.Moved (config : ResolvedPipeline τ T K P) (engine : Engine ρ τ T K P)
    (world : World ρ τ T K P) : World ρ τ T K P → Prop
  | idle : World.Moved config engine world world
  | stopped : World.Moved config engine world { world with process := none }
  | opened (pipeline : Pipeline T K P)
      (resolved : openPipeline config engine world.source world.target = .ok pipeline) :
      World.Moved config engine world { world with process := some pipeline }
  | caughtUp (running after : Pipeline T K P) (budget retryBudget : Option Nat)
      (runs : world.process = some running)
      (stepped : stepDelta config engine world.source (nextPath world.target) budget retryBudget
        running = .caughtUp after) :
      World.Moved config engine world { world with process := some after }
  | put (running after : Pipeline T K P) (budget retryBudget : Option Nat) (commit : Commit τ)
      (process : Option (Pipeline T K P)) (runs : world.process = some running)
      (stepped : stepDelta config engine world.source (nextPath world.target) budget retryBudget
        running = .commits commit after)
      (goesOn : process = none ∨ process = some after) :
      World.Moved config engine world
        { world with target := world.target.append commit, process := process }

theorem World.Moved.source {config : ResolvedPipeline τ T K P} {engine : Engine ρ τ T K P}
    {before after : World ρ τ T K P} (moved : World.Moved config engine before after) :
    after.source = before.source := by
  cases moved with
  | idle => rfl
  | stopped => rfl
  | opened pipeline resolved => rfl
  | caughtUp running after budget retryBudget runs stepped => rfl
  | put running after budget retryBudget commit process runs stepped goesOn => rfl

theorem World.move_semantics (config : ResolvedPipeline τ T K P) (engine : Engine ρ τ T K P)
    (world : World ρ τ T K P) (move : Move) :
    World.Moved config engine world (world.move config engine move) := by
  cases move with
  | crash => exact .stopped
  | start =>
      unfold World.move
      cases resolved : openPipeline config engine world.source world.target with
      | error error => exact .stopped
      | ok pipeline => exact .opened pipeline resolved
  | step budget retryBudget fate =>
      unfold World.move
      cases runs : world.process with
      | none => exact .idle
      | some running =>
          simp only
          cases stepped : stepDelta config engine world.source (nextPath world.target) budget
              retryBudget running with
          | failed error => exact .stopped
          | caughtUp after => exact .caughtUp running after budget retryBudget runs stepped
          | commits commit after =>
              cases fate with
              | seen =>
                  exact .put running after budget retryBudget commit _ runs stepped (Or.inr rfl)
              | unseen =>
                  exact .put running after budget retryBudget commit _ runs stepped (Or.inl rfl)
              | lost => exact .stopped

/-- A run: any number of things happening one after another. -/
def World.Runs (config : ResolvedPipeline τ T K P) (engine : Engine ρ τ T K P)
    (outside : Outside ρ τ) : World ρ τ T K P → World ρ τ T K P → Prop :=
  Relation.ReflTransGen (World.Step config engine outside)

/-- Moves of the process one after another. -/
def World.moves (config : ResolvedPipeline τ T K P) (engine : Engine ρ τ T K P)
    (world : World ρ τ T K P) (moves : List Move) : World ρ τ T K P :=
  moves.foldl (fun world move => world.move config engine move) world

theorem World.Runs.ofMoves (config : ResolvedPipeline τ T K P) (engine : Engine ρ τ T K P)
    (outside : Outside ρ τ) (world : World ρ τ T K P) (moves : List Move) :
    World.Runs config engine outside world (world.moves config engine moves) := by
  induction moves generalizing world with
  | nil => exact Relation.ReflTransGen.refl
  | cons move moves ih => exact Relation.ReflTransGen.head (.ours move) (ih _)

/-- What holds at the start and through everything that can happen holds at the end of a run. -/
theorem World.Runs.invariant {config : ResolvedPipeline τ T K P} {engine : Engine ρ τ T K P}
    {outside : Outside ρ τ} {holds : World ρ τ T K P → Prop} {first last : World ρ τ T K P}
    (run : World.Runs config engine outside first last) (atFirst : holds first)
    (moved : ∀ before after, holds before → World.Moved config engine before after →
      holds after)
    (besides : ∀ before source target, holds before →
      outside before.source before.target source target →
      holds { before with source := source, target := target }) : holds last := by
  induction run with
  | refl => exact atFirst
  | tail _before step ih =>
      cases step with
      | ours move => exact moved _ _ ih (World.move_semantics config engine _ move)
      | besides source target happens => exact besides _ source target ih happens

end Ddi
