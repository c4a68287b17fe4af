/-
One iteration of an appending pipeline: pull, read, transform, drop what the
target already holds, and commit the rows with the offset.
-/

import Ddi.Pipeline.Open

namespace Ddi

open Ddi.Delta
open Ddi.Source (StreamCursor LogBatch LogStreamBuilder nextBatch)

variable {ρ τ T K P : Type} [LinearOrder T] [DecidableEq K] [DecidableEq P]

namespace Pipeline

/-- Stops dropping rows by timestamp, and lets the stream read past the window's head. -/
def retire (pipeline : Pipeline T K P) : Pipeline T K P :=
  match pipeline.cutoff with
  | none => pipeline
  | some _ => { stream := pipeline.stream.releaseStop, cutoff := none }

/-- Retires a window whose source head the stream has read past, and says whether it did. -/
def retireCutoffIfReadThrough (pipeline : Pipeline T K P) : Bool × Pipeline T K P :=
  match pipeline.cutoff.bind fun cutoff => cutoff.window.through with
  | none => (false, pipeline)
  | some through =>
    if cutoffApplies through pipeline.stream.cursor then (false, pipeline)
    else (true, pipeline.retire)

/-- Accounts for a batch filtered inside a window, once its commit is durable. -/
def settleCutoff (pipeline : Pipeline T K P) (closes : Option Bool) (covered : Nat) :
    Pipeline T K P :=
  let counted : Pipeline T K P :=
    { pipeline with
      cutoff := pipeline.cutoff.map fun cutoff =>
        { cutoff with skipped := cutoff.skipped + covered } }
  if closes = some true then counted.retire else counted

/-- Whether a batch closes the window, when there is one. -/
def closesAfter (pipeline : Pipeline T K P) (end_ : StreamCursor) (beyond : Nat) : Option Bool :=
  pipeline.cutoff.map fun cutoff => windowClosesAfter cutoff.window.through end_ beyond

/-- What a commit records of the window: nothing once it is closed. -/
def recordsAs (pipeline : Pipeline T K P) (closes : Option Bool) : Option RecordedCutoff :=
  match pipeline.cutoff, closes with
  | some cutoff, some false => some cutoff.recorded
  | _, _ => none

end Pipeline

/-- The metadata every commit of this pipeline carries. -/
def commitMetadata (appId : String) (sourceVersion : Int) (identity : Option (Nat × String))
    (cutoff : Option RecordedCutoff) : CommitInfo :=
  [("ddi.sourceVersion", .num sourceVersion), ("ddi.appId", .str appId)] ++
    (match identity with
      | some (version, id) =>
        [(sourceTableIdKey, .str id), (sourceTableIdVersionKey, .num version)]
      | none => []) ++
    (match cutoff with
      | some cutoff => cutoff.toCommitMetadata
      | none => [])

/-- The one commit of a batch: its rows, if any, its offset and its metadata. -/
def sinkCommit (path appId : String) (rows : List τ) (sourceVersion : Int)
    (identity : Option (Nat × String)) (cutoff : Option RecordedCutoff) : Commit τ where
  actions :=
    (if rows.isEmpty then [] else [.add { path := path, rows := rows }]) ++
      [.txn appId sourceVersion,
        .commitInfo (commitMetadata appId sourceVersion identity cutoff)]

/-- Drops what the target already holds; outside a window only the check that every row can
be placed by the next one is made. -/
def applyCutoff (config : ResolvedPipeline τ T K P) (cutoff : Option (Cutoff T K P))
    (rows : List τ) : Except Error (Filtered τ) :=
  match config.dedup with
  | none => .ok { kept := rows, covered := 0, beyond := 0 }
  | some columns =>
    match cutoff with
    | some cutoff => cutoff.dedup.filter columns rows
    | none =>
      match requireTimestamps columns rows with
      | .error error => .error error
      | .ok () =>
        match requirePartitions columns rows with
        | .error error => .error error
        | .ok () => .ok { kept := rows, covered := 0, beyond := 0 }

/-- What one step comes to. A failed one is always followed by a fresh open. -/
inductive StepResult (τ T K P : Type)
  | failed (error : Error)
  | caughtUp (after : Pipeline T K P)
  /-- The commit to be put, and the pipeline once it has seen the commit land. -/
  | commits (commit : Commit τ) (after : Pipeline T K P)

def batchRows (batch : LogBatch ρ) : List ρ := batch.files.flatMap AddFile.rows

/-- Transforms, filters and commits one batch. -/
def process (config : ResolvedPipeline τ T K P) (engine : Engine ρ τ T K P) (path : String)
    (pipeline : Pipeline T K P) (batch : LogBatch ρ) : StepResult τ T K P :=
  match engine.transform batch.throughLogTimestamp (batchRows batch) with
  | .error error => .failed error
  | .ok output =>
    match applyCutoff config pipeline.cutoff output with
    | .error error => .failed error
    | .ok filtered =>
      let closes := pipeline.closesAfter batch.end_ filtered.beyond
      match OffsetStore.txnVersionFor batch.end_ with
      | .error error => .failed error
      | .ok sourceVersion =>
        .commits
          (sinkCommit path config.appId filtered.kept sourceVersion pipeline.stream.identity
            (pipeline.recordsAs closes))
          (pipeline.settleCutoff closes filtered.covered)

/-- The pipeline around a call of its reader. -/
def Pipeline.afterCall (source : DeltaLog ρ) (budget : Option Nat) (pipeline : Pipeline T K P) :
    Pipeline T K P :=
  { pipeline with stream := (nextBatch source budget pipeline.stream).2 }

/-- A call of the reader, and a second one when the first was only held at a window's head. -/
def pollBatch (source : DeltaLog ρ) (budget retryBudget : Option Nat)
    (pipeline : Pipeline T K P) :
    Except Error (Option (LogBatch ρ)) × Pipeline T K P :=
  match (nextBatch source budget pipeline.stream).1 with
  | .ok none =>
    let settled := (pipeline.afterCall source budget).retireCutoffIfReadThrough
    if settled.1 then
      ((nextBatch source retryBudget settled.2.stream).1, settled.2.afterCall source retryBudget)
    else (.ok none, settled.2)
  | outcome => (outcome, pipeline.afterCall source budget)

def pullBatch (source : DeltaLog ρ) (budget retryBudget : Option Nat)
    (pipeline : Pipeline T K P) :
    Except Error (Option (LogBatch ρ)) × Pipeline T K P :=
  pollBatch source budget retryBudget pipeline.retireCutoffIfReadThrough.2

/-- One iteration: all or nothing. -/
def stepDelta (config : ResolvedPipeline τ T K P) (engine : Engine ρ τ T K P)
    (source : DeltaLog ρ) (path : String) (budget retryBudget : Option Nat)
    (pipeline : Pipeline T K P) : StepResult τ T K P :=
  match pullBatch source budget retryBudget pipeline with
  | (.error error, _) => .failed error
  | (.ok none, pipeline) => .caughtUp pipeline
  | (.ok (some batch), pipeline) => process config engine path pipeline batch

end Ddi
