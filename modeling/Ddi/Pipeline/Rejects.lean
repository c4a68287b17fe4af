/-
A pipeline with a data-quality table: one iteration writes the batch's rejects
there and only then commits to the target, whatever the write mode. Between the
two writes, and after either, the process may die or be told that a write failed
that landed; between two iterations others write to all three tables, and the
source may be dropped and recreated.
-/

import Ddi.DataQuality
import Ddi.Pipeline.World

namespace Ddi

open Ddi.Delta
open Ddi.Source

variable {ρ τ T K P : Type} [LinearOrder T] [DecidableEq K] [DecidableEq P]

/-- A pipeline's calls, with what its transform and coercion set aside and the file actions its
write mode puts the rows of a batch with. -/
structure Quarantine (ρ τ T K P : Type) [LT T] extends Engine ρ τ T K P where
  rejects : Option Nat → List ρ → List Reject
  put : String → DeltaLog τ → List τ → Except Error (List (Action τ))

/-- A batch judged, and what its commit carries besides the file actions. -/
structure JudgedBatch (ρ τ T K P : Type) where
  batch : LogBatch ρ
  rejects : List Reject
  rows : List τ
  sourceVersion : Int
  metadata : CommitInfo
  after : Pipeline T K P

/-- Transforms and filters one batch, up to where its rejects are written. -/
def judgeBatch (config : ResolvedPipeline τ T K P) (engine : Quarantine ρ τ T K P)
    (pipeline : Pipeline T K P) (batch : LogBatch ρ) : Except Error (JudgedBatch ρ τ T K P) :=
  match engine.transform batch.throughLogTimestamp (batchRows batch) with
  | .error error => .error error
  | .ok output =>
    match applyCutoff config pipeline.cutoff output with
    | .error error => .error error
    | .ok filtered =>
      let closes := pipeline.closesAfter batch.end_ filtered.beyond
      match OffsetStore.txnVersionFor batch.end_ with
      | .error error => .error error
      | .ok sourceVersion =>
        .ok
          { batch := batch
            rejects := engine.rejects batch.throughLogTimestamp (batchRows batch)
            rows := filtered.kept
            sourceVersion := sourceVersion
            metadata := commitMetadata config.appId sourceVersion pipeline.stream.identity
              (pipeline.recordsAs closes)
            after := pipeline.settleCutoff closes filtered.covered }

/-- The commit of a batch; one that wrote no rows still carries the offset. -/
def JudgedBatch.commit (judged : JudgedBatch ρ τ T K P) (config : ResolvedPipeline τ T K P)
    (engine : Quarantine ρ τ T K P) (path : String) (target : DeltaLog τ) :
    Except Error (Commit τ) :=
  let data := if judged.rows.isEmpty then .ok [] else engine.put path target judged.rows
  data.map fun actions =>
    { actions := actions ++ [.txn config.appId judged.sourceVersion, .commitInfo judged.metadata] }

/-- An appending pipeline's file actions. -/
def appendMode (path : String) (_target : DeltaLog τ) (rows : List τ) :
    Except Error (List (Action τ)) :=
  .ok [.add { path := path, rows := rows }]

/-- With an appending write mode a step commits what it commits without the table. -/
theorem process_eq_judgeBatch {config : ResolvedPipeline τ T K P} {engine : Quarantine ρ τ T K P}
    (appends : engine.put = appendMode) (path : String) (target : DeltaLog τ)
    (pipeline : Pipeline T K P) (batch : LogBatch ρ) :
    process config engine.toEngine path pipeline batch =
      match judgeBatch config engine pipeline batch with
      | .error error => .failed error
      | .ok judged =>
        match judged.commit config engine path target with
        | .error error => .failed error
        | .ok commit => .commits commit judged.after := by
  unfold process judgeBatch
  cases engine.transform batch.throughLogTimestamp (batchRows batch) with
  | error error => rfl
  | ok output =>
      simp only
      cases applyCutoff config pipeline.cutoff output with
      | error error => rfl
      | ok filtered =>
          simp only
          cases OffsetStore.txnVersionFor batch.end_ with
          | error error => rfl
          | ok sourceVersion =>
              simp only [JudgedBatch.commit, appends, appendMode]
              unfold sinkCommit
              cases filtered.kept with
              | nil => rfl
              | cons row rest => rfl

/-- What one iteration comes to before anything is written. -/
inductive TurnResult (ρ τ T K P : Type)
  | failed (error : Error)
  | caughtUp (after : Pipeline T K P)
  | judged (judged : JudgedBatch ρ τ T K P)

def turn (config : ResolvedPipeline τ T K P) (engine : Quarantine ρ τ T K P)
    (source : DeltaLog ρ) (budget retryBudget : Option Nat) (pipeline : Pipeline T K P) :
    TurnResult ρ τ T K P :=
  match pullBatch source budget retryBudget pipeline with
  | (.error error, _) => .failed error
  | (.ok none, after) => .caughtUp after
  | (.ok (some batch), pulled) =>
    match judgeBatch config engine pulled batch with
    | .error error => .failed error
    | .ok judged => .judged judged

/-- A running process: the pipeline, and its handle of the data-quality table. -/
structure Worker (T K P : Type) where
  pipeline : Pipeline T K P
  dq : DataQuality

/-- What has happened so far, which no step reads: how often the source was recreated, and the
batches whose rejects, or whose commits, landed, each under the number of its source table. -/
structure Past (ρ : Type) where
  tables : Nat
  recorded : List (Nat × LogBatch ρ)
  committed : List (Nat × LogBatch ρ)

/-- A batch any part of which landed. -/
def Past.landed (past : Past ρ) : List (Nat × LogBatch ρ) := past.recorded ++ past.committed

def Past.record (past : Past ρ) (batch : LogBatch ρ) : Past ρ :=
  { past with recorded := past.recorded ++ [(past.tables, batch)] }

def Past.commit (past : Past ρ) (batch : LogBatch ρ) : Past ρ :=
  { past with committed := past.committed ++ [(past.tables, batch)] }

structure Site (ρ τ T K P : Type) where
  source : DeltaLog ρ
  target : DeltaLog τ
  rejects : DeltaLog DqRow
  process : Option (Worker T K P)
  past : Past ρ

inductive SiteMove
  | start
  /-- The wall clock, and what becomes of the write to the data-quality table and of the
  commit, each where the iteration comes to it. -/
  | step (budget retryBudget : Option Nat) (now : Int) (recording committing : Fate)
  | crash

namespace Site

variable (config : ResolvedPipeline τ T K P) (engine : Quarantine ρ τ T K P)

def stop (site : Site ρ τ T K P) : Site ρ τ T K P := { site with process := none }

/-- The commit to the target, once the rejects are where they belong. -/
def commits (site : Site ρ τ T K P) (worker : Worker T K P) (judged : JudgedBatch ρ τ T K P)
    (fate : Fate) : Site ρ τ T K P :=
  match judged.commit config engine (nextPath site.target) site.target with
  | .error _ => site.stop
  | .ok commit =>
    let landed :=
      { site with
        target := site.target.append commit
        past := site.past.commit judged.batch }
    match fate with
    | .seen => { landed with process := some { worker with pipeline := judged.after } }
    | .unseen => landed.stop
    | .lost => site.stop

/-- A judged batch: its rejects first. -/
def settles (site : Site ρ τ T K P) (worker : Worker T K P) (judged : JudgedBatch ρ τ T K P)
    (now : Int) (recording committing : Fate) : Site ρ τ T K P :=
  match worker.dq.write (nextPath site.rejects) judged.rejects judged.sourceVersion now with
  | none => site.commits config engine worker judged committing
  | some commit =>
    let recorded :=
      { site with
        rejects := site.rejects.append commit
        past := site.past.record judged.batch }
    match recording with
    | .seen =>
      recorded.commits config engine { worker with dq := worker.dq.sees recorded.rejects } judged
        committing
    | .unseen => recorded.stop
    | .lost => site.stop

def move (site : Site ρ τ T K P) : SiteMove → Site ρ τ T K P
  | .crash => site.stop
  | .start =>
    match openPipeline config engine.toEngine site.source site.target with
    | .error _ => site.stop
    | .ok pipeline =>
      { site with
        process := some
          { pipeline := pipeline
            dq := DataQuality.open_ config.appId config.name site.rejects } }
  | .step budget retryBudget now recording committing =>
    match site.process with
    | none => site
    | some worker =>
      match turn config engine site.source budget retryBudget worker.pipeline with
      | .failed _ => site.stop
      | .caughtUp after => { site with process := some { worker with pipeline := after } }
      | .judged judged => site.settles config engine worker judged now recording committing

/-- What happens besides the process. -/
inductive Besides (site : Site ρ τ T K P) : Site ρ τ T K P → Prop
  | grown (source : DeltaLog ρ) (longer : Extends site.source source) :
      Besides site { site with source := source }
  /-- The source is dropped, and another table created at its URI. -/
  | recreated (source : DeltaLog ρ) :
      Besides site
        { site with
          source := source
          past := { site.past with tables := site.past.tables + 1 } }
  /-- Anything at all in the target: appends of others, and rebuilds. -/
  | target (target : DeltaLog τ) : Besides site { site with target := target }
  | rejects (commit : Commit DqRow) (others : OthersRejects config.appId commit) :
      Besides site { site with rejects := site.rejects.append commit }

end Site

end Ddi
