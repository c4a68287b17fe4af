/-
What an iteration with a data-quality table comes to, and what a run is: the
moves of the process, each allowed where it is made, and what others do.
-/

import Ddi.Pipeline.CoverageSteps
import Ddi.Pipeline.Rejects

namespace Ddi

open Ddi.Delta
open Ddi.Source

set_option linter.unusedSectionVars false

variable {ρ τ T K P : Type} [LinearOrder T] [DecidableEq K] [DecidableEq P]

/-- What a judged batch is, and where it leaves the pipeline. -/
structure Judging (config : ResolvedPipeline τ T K P) (engine : Quarantine ρ τ T K P)
    (source : DeltaLog ρ) (before : Pipeline T K P) (judged : JudgedBatch ρ τ T K P)
    (pulled : Pipeline T K P) (version : Nat) : Prop where
  pull : Pulled config source before pulled (some judged.batch)
  rejects : judged.rejects =
    engine.rejects judged.batch.throughLogTimestamp (batchRows judged.batch)
  kept : ∃ output filtered,
    engine.transform judged.batch.throughLogTimestamp (batchRows judged.batch) = .ok output ∧
      applyCutoff config pulled.cutoff output = .ok filtered ∧ judged.rows = filtered.kept
  offset : judged.sourceVersion = version
  finish : pulled.stream.cursor = StreamCursor.atVersion (version + 1)
  ready : Ready config judged.after
  onward : judged.after.stream.cursor = pulled.stream.cursor

section Turn

variable {config : ResolvedPipeline τ T K P} {engine : Quarantine ρ τ T K P}
  {source : DeltaLog ρ} {budget retryBudget : Option Nat} {before after : Pipeline T K P}
  {judged : JudgedBatch ρ τ T K P}

theorem turn_caughtUp (ready : Ready config before)
    (ok : turn config engine source budget retryBudget before = .caughtUp after) :
    Pulled config source before after (none : Option (LogBatch ρ)) := by
  unfold turn at ok
  rcases pull : pullBatch source budget retryBudget before with ⟨outcome, pulled⟩
  rw [pull] at ok
  cases outcome with
  | error error => cases ok
  | ok result =>
      cases result with
      | none =>
          cases ok
          exact pullBatch_semantics ready pull
      | some batch =>
          simp only at ok
          split at ok
          · cases ok
          · cases ok

theorem turn_judged (ready : Ready config before)
    (ok : turn config engine source budget retryBudget before = .judged judged) :
    ∃ pulled version, Judging config engine source before judged pulled version := by
  unfold turn at ok
  rcases pull : pullBatch source budget retryBudget before with ⟨outcome, pulled⟩
  rw [pull] at ok
  cases outcome with
  | error error => cases ok
  | ok result =>
      cases result with
      | none => cases ok
      | some batch =>
          have semantics := pullBatch_semantics ready pull
          unfold judgeBatch at ok
          cases transformed : engine.transform batch.throughLogTimestamp (batchRows batch) with
          | error error =>
              simp only [transformed] at ok
              cases ok
          | ok output =>
              simp only [transformed] at ok
              cases cut : applyCutoff config pulled.cutoff output with
              | error error =>
                  simp only [cut] at ok
                  cases ok
              | ok filtered =>
                  simp only [cut] at ok
                  cases stored : OffsetStore.txnVersionFor batch.end_ with
                  | error error =>
                      simp only [stored] at ok
                      cases ok
                  | ok sourceVersion =>
                      obtain ⟨version, same, finish⟩ := OffsetStore.txnVersionFor_ok stored
                      simp only [stored] at ok
                      cases ok
                      exact
                        ⟨pulled, version,
                          { pull := semantics
                            rejects := rfl
                            kept := ⟨output, filtered, transformed, cut, rfl⟩
                            offset := same
                            finish := (semantics.finish batch rfl).symm.trans finish
                            ready := Pipeline.settleCutoff_ready semantics.ready _ _
                            onward := Pipeline.settleCutoff_cursor _ _ }⟩

end Turn

namespace Site

variable (config : ResolvedPipeline τ T K P) (engine : Quarantine ρ τ T K P)

/-- A worker that goes on, or none. -/
def GoesOn (worker : Worker T K P) (process : Option (Worker T K P)) : Prop :=
  process = none ∨ process = some worker

theorem GoesOn.pipeline {worker other : Worker T K P} {process : Option (Worker T K P)}
    (goesOn : GoesOn worker process) (runs : process = some other) :
    other.pipeline = worker.pipeline := by
  rcases goesOn with stopped | onward
  · subst stopped
    cases runs
  · subst onward
    cases runs
    rfl

/-- Everything a move can come to, with what it took. -/
inductive Moved (site : Site ρ τ T K P) : SiteMove → Site ρ τ T K P → Prop
  | idle (move : SiteMove) : Moved site move site
  | stopped (move : SiteMove) : Moved site move site.stop
  | opened (pipeline : Pipeline T K P)
      (resolved : openPipeline config engine.toEngine site.source site.target = .ok pipeline) :
      Moved site .start
        { site with
          process := some
            { pipeline := pipeline
              dq := DataQuality.open_ config.appId config.name site.rejects } }
  | caughtUp (worker : Worker T K P) (after : Pipeline T K P) (budget retryBudget : Option Nat)
      (move : SiteMove) (runs : site.process = some worker)
      (turned : turn config engine site.source budget retryBudget worker.pipeline =
        .caughtUp after) :
      Moved site move { site with process := some { worker with pipeline := after } }
  /-- The rejects landed, and the commit did not. -/
  | recorded (worker : Worker T K P) (judged : JudgedBatch ρ τ T K P) (commit : Commit DqRow)
      (budget retryBudget : Option Nat) (now : Int) (move : SiteMove)
      (runs : site.process = some worker)
      (turned : turn config engine site.source budget retryBudget worker.pipeline =
        .judged judged)
      (wrote : worker.dq.write (nextPath site.rejects) judged.rejects judged.sourceVersion now =
        some commit) :
      Moved site move
        { site with
          rejects := site.rejects.append commit
          process := none
          past := site.past.record judged.batch }
  /-- The commit landed, and no rejects were written. -/
  | passed (worker : Worker T K P) (judged : JudgedBatch ρ τ T K P) (put : Commit τ)
      (budget retryBudget : Option Nat) (now : Int) (recording committing : Fate)
      (process : Option (Worker T K P)) (runs : site.process = some worker)
      (turned : turn config engine site.source budget retryBudget worker.pipeline =
        .judged judged)
      (skipped : worker.dq.write (nextPath site.rejects) judged.rejects judged.sourceVersion now =
        none)
      (made : judged.commit config engine (nextPath site.target) site.target = .ok put)
      (lands : committing ≠ .lost)
      (goesOn : GoesOn { worker with pipeline := judged.after } process) :
      Moved site (.step budget retryBudget now recording committing)
        { site with
          target := site.target.append put
          process := process
          past := site.past.commit judged.batch }
  /-- Both landed. -/
  | committed (worker : Worker T K P) (judged : JudgedBatch ρ τ T K P) (commit : Commit DqRow)
      (put : Commit τ) (budget retryBudget : Option Nat) (now : Int) (move : SiteMove)
      (process : Option (Worker T K P)) (runs : site.process = some worker)
      (turned : turn config engine site.source budget retryBudget worker.pipeline =
        .judged judged)
      (wrote : worker.dq.write (nextPath site.rejects) judged.rejects judged.sourceVersion now =
        some commit)
      (goesOn : GoesOn
        { pipeline := judged.after, dq := worker.dq.sees (site.rejects.append commit) } process) :
      Moved site move
        { site with
          rejects := site.rejects.append commit
          target := site.target.append put
          process := process
          past := (site.past.record judged.batch).commit judged.batch }

/-- The commit, once it is known what became of the rejects. -/
inductive Committed (site : Site ρ τ T K P) (worker : Worker T K P)
    (judged : JudgedBatch ρ τ T K P) (fate : Fate) : Site ρ τ T K P → Prop
  | failed : Committed site worker judged fate site.stop
  | put (commit : Commit τ) (process : Option (Worker T K P))
      (made : judged.commit config engine (nextPath site.target) site.target = .ok commit)
      (lands : fate ≠ .lost) (goesOn : GoesOn { worker with pipeline := judged.after } process) :
      Committed site worker judged fate
        { site with
          target := site.target.append commit
          process := process
          past := site.past.commit judged.batch }

theorem commits_semantics (site : Site ρ τ T K P) (worker : Worker T K P)
    (judged : JudgedBatch ρ τ T K P) (fate : Fate) :
    Committed config engine site worker judged fate
      (site.commits config engine worker judged fate) := by
  unfold commits
  cases made : judged.commit config engine (nextPath site.target) site.target with
  | error error => exact .failed
  | ok commit =>
      cases fate with
      | seen => exact .put commit _ made nofun (Or.inr rfl)
      | unseen => exact .put commit _ made nofun (Or.inl rfl)
      | lost => exact .failed

theorem move_semantics (site : Site ρ τ T K P) (move : SiteMove) :
    Moved config engine site move (site.move config engine move) := by
  cases move with
  | crash => exact .stopped _
  | start =>
      unfold Site.move
      cases resolved : openPipeline config engine.toEngine site.source site.target with
      | error error => exact .stopped _
      | ok pipeline => exact .opened pipeline resolved
  | step budget retryBudget now recording committing =>
      unfold Site.move
      cases runs : site.process with
      | none => exact .idle _
      | some worker =>
          simp only
          cases turned : turn config engine site.source budget retryBudget worker.pipeline with
          | failed error => exact .stopped _
          | caughtUp after => exact .caughtUp worker after budget retryBudget _ runs turned
          | judged judged =>
              simp only
              unfold settles
              cases wrote : worker.dq.write (nextPath site.rejects) judged.rejects
                  judged.sourceVersion now with
              | none =>
                  have commits := commits_semantics config engine site worker judged committing
                  simp only
                  generalize site.commits config engine worker judged committing = after at commits
                  cases commits with
                  | failed => exact .stopped _
                  | put commit process made lands goesOn =>
                      exact .passed worker judged commit budget retryBudget now recording
                        committing process runs turned wrote made lands goesOn
              | some commit =>
                  cases recording with
                  | seen =>
                      have commits := commits_semantics config engine
                        { site with
                          rejects := site.rejects.append commit
                          past := site.past.record judged.batch }
                        { worker with dq := worker.dq.sees (site.rejects.append commit) } judged
                        committing
                      simp only
                      generalize Site.commits config engine _ _ judged committing = after
                        at commits ⊢
                      cases commits with
                      | failed =>
                          exact .recorded worker judged commit budget retryBudget now _ runs turned
                            wrote
                      | put put process made lands goesOn =>
                          exact .committed worker judged commit put budget retryBudget now _
                            process runs turned wrote goesOn
                  | unseen =>
                      exact .recorded worker judged commit budget retryBudget now _ runs turned
                        wrote
                  | lost => exact .stopped _

/-- One thing that happens: a move where it is allowed, or something besides. -/
inductive Step (allowed : Site ρ τ T K P → SiteMove → Prop)
    (outside : Site ρ τ T K P → Site ρ τ T K P → Prop) (site : Site ρ τ T K P) :
    Site ρ τ T K P → Prop
  | ours (move : SiteMove) (may : allowed site move) :
      Step allowed outside site (site.move config engine move)
  | besides (other : Site ρ τ T K P) (happens : outside site other) :
      Step allowed outside site other

def Runs (allowed : Site ρ τ T K P → SiteMove → Prop)
    (outside : Site ρ τ T K P → Site ρ τ T K P → Prop) :
    Site ρ τ T K P → Site ρ τ T K P → Prop :=
  Relation.ReflTransGen (Step config engine allowed outside)

variable {config engine}

/-- What holds at the start and through everything that can happen holds at the end of a run. -/
theorem Runs.invariant {allowed : Site ρ τ T K P → SiteMove → Prop}
    {outside : Site ρ τ T K P → Site ρ τ T K P → Prop} {holds : Site ρ τ T K P → Prop}
    {first last : Site ρ τ T K P} (run : Runs config engine allowed outside first last)
    (atFirst : holds first)
    (moved : ∀ before move after, holds before → allowed before move →
      Moved config engine before move after → holds after)
    (besides : ∀ before after, holds before → outside before after → holds after) :
    holds last := by
  induction run with
  | refl => exact atFirst
  | tail _before step ih =>
      cases step with
      | ours move may => exact moved _ move _ ih may (move_semantics config engine _ move)
      | besides _other happens => exact besides _ _ ih happens

end Site

end Ddi
