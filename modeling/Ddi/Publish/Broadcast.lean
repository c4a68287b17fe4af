/-
A pipeline that publishes, in either of its two ways. The post-commit publisher
renders a batch before its commit and sends the message after it; the near-time
reader reads the source on a cursor of its own, taken from the target's durable
offset whenever it is opened, and no commit waits for it. Either advances the
chain with every batch, whatever became of the message.
-/

import Ddi.Pipeline.Rejects
import Ddi.Publish.Envelope

namespace Ddi.Publish

open Ddi.Delta
open Ddi.Source

variable {ρ τ μ T K P : Type} [LinearOrder T] [DecidableEq K] [DecidableEq P]

/-- What transforming and coercing a batch comes to without a table to set rows aside in. -/
inductive NearTimeRows (τ : Type)
  | rows (rows : List τ)
  /-- A row could not be evaluated, or did not coerce. -/
  | skipped
  | failed (error : Error)

/-- A publishing pipeline's calls. -/
structure Broadcasting (ρ τ μ T K P : Type) [LT T] extends Engine ρ τ T K P where
  rejects : Option Nat → List ρ → List Reject
  model : PublishModel τ μ
  nearTime : Bool
  nearTimeRows : List ρ → NearTimeRows τ

/-- A pipeline that merges does not publish. -/
def Broadcasting.appending (engine : Broadcasting ρ τ μ T K P) : Quarantine ρ τ T K P where
  toEngine := engine.toEngine
  rejects := engine.rejects
  put := appendMode

/-- The main pipeline's process. -/
structure Streamer (T K P : Type) where
  pipeline : Pipeline T K P
  /-- None for a near-time pipeline. -/
  publisher : Option Breaker
  prevPublishedThrough : Option Nat

structure NearTimeReader where
  stream : LogStreamBuilder
  publisher : Breaker
  prevPublishedThrough : Option Nat

/-- A message that left, with the batch it is about and the rows it was rendered from. -/
structure Publication (ρ τ μ : Type) where
  message : Envelope μ
  batch : LogBatch ρ
  rows : List τ

structure Broadcast (ρ τ μ T K P : Type) where
  source : DeltaLog ρ
  target : DeltaLog τ
  streamer : Option (Streamer T K P)
  reader : Option NearTimeReader
  published : List (Publication ρ τ μ)

/-- When a batch is rendered and its message sent and answered. -/
structure Moments where
  paused : Nat
  rendered : Nat
  sent : Nat
  answered : Nat
  committedAt : String

inductive BroadcastMove
  | start
  | step (budget retryBudget : Option Nat) (fate : Fate) (moments : Moments) (reply : Reply)
  | crash
  | startReader
  | poll (budget : Option Nat) (moments : Moments) (reply : Reply)
  | crashReader

section Calls

variable (config : ResolvedPipeline τ T K P) (engine : Broadcasting ρ τ μ T K P)

/-- The payload of a batch; a paused publisher renders nothing. -/
def payload (breaker : Breaker) (moments : Moments) (rows : List τ) :
    Option (Rendered μ) × Breaker :=
  if breaker.isOpen moments.paused then (none, breaker)
  else engine.model.render breaker moments.rendered rows

/-- The message of a batch, if one left, and the breaker after it. -/
def announce (breaker : Breaker) (moments : Moments) (reply : Reply) (prev : Option Nat)
    (batch : LogBatch ρ) (targetVersion : Option Nat) (rows : List τ) :
    List (Publication ρ τ μ) × Breaker :=
  let pending := payload engine breaker moments rows
  let sent := engine.model.send pending.2 pending.1 prev batch.start.version batch.throughVersion
    targetVersion moments.committedAt moments.sent moments.answered reply
  ((sent.2.1.map fun message => { message := message, batch := batch, rows := rows }).toList,
    sent.2.2)

namespace Broadcast

def stop (broadcast : Broadcast ρ τ μ T K P) : Broadcast ρ τ μ T K P :=
  { broadcast with streamer := none }

def stopReader (broadcast : Broadcast ρ τ μ T K P) : Broadcast ρ τ μ T K P :=
  { broadcast with reader := none }

/-- After a commit that landed: the message, and the chain moves on. -/
def publishes (broadcast : Broadcast ρ τ μ T K P) (streamer : Streamer T K P)
    (judged : JudgedBatch ρ τ T K P) (moments : Moments) (reply : Reply) :
    Broadcast ρ τ μ T K P :=
  match streamer.publisher with
  | none => { broadcast with streamer := some { streamer with pipeline := judged.after } }
  | some breaker =>
    let announced := announce engine breaker moments reply streamer.prevPublishedThrough judged.batch
      (some broadcast.target.head) judged.rows
    { broadcast with
      streamer := some
        { pipeline := judged.after
          publisher := some announced.2
          prevPublishedThrough := some judged.batch.throughVersion }
      published := broadcast.published ++ announced.1 }

/-- One iteration of the main pipeline. -/
def steps (broadcast : Broadcast ρ τ μ T K P) (budget retryBudget : Option Nat) (fate : Fate)
    (moments : Moments) (reply : Reply) : Broadcast ρ τ μ T K P :=
  match broadcast.streamer with
  | none => broadcast
  | some streamer =>
    match turn config engine.appending broadcast.source budget retryBudget streamer.pipeline with
    | .failed _ => broadcast.stop
    | .caughtUp after => { broadcast with streamer := some { streamer with pipeline := after } }
    | .judged judged =>
      match judged.commit config engine.appending (nextPath broadcast.target) broadcast.target with
      | .error _ => broadcast.stop
      | .ok commit =>
        let landed := { broadcast with target := broadcast.target.append commit }
        match fate with
        | .seen => landed.publishes engine streamer judged moments reply
        | .unseen => landed.stop
        | .lost => broadcast.stop

/-- A near-time reader, on a cursor from the target's durable offset. -/
def opensReader (broadcast : Broadcast ρ τ μ T K P) : Option NearTimeReader :=
  if engine.nearTime then
    match openTable config "near-time source" broadcast.source,
        openTable config "near-time target" broadcast.target with
    | .ok _, .ok _ =>
      match OffsetStore.resumeCursor ⟨config.appId, config.startingVersion⟩ broadcast.target with
      | .error _ => none
      | .ok cursor =>
        let reader := LogStreamBuilder.new config.sourceUri broadcast.source
        let limited := ((reader.withStartingCursor cursor).withChangePolicy
          config.changePolicy).withMaxFilesPerBatch config.maxFilesPerBatch
        some
          { stream := limited.withMaxBytesPerBatch config.maxBytesPerBatch
            publisher := engine.model.breaker
            prevPublishedThrough := none }
    | _, _ => none
  else none

/-- One poll. A batch that cannot be rendered for a row in it costs its message, any other
failure the reader. -/
def polls (broadcast : Broadcast ρ τ μ T K P) (budget : Option Nat) (moments : Moments)
    (reply : Reply) : Broadcast ρ τ μ T K P :=
  match broadcast.reader with
  | none => broadcast
  | some reader =>
    match nextBatch broadcast.source budget reader.stream with
    | (.error _, _) => broadcast.stopReader
    | (.ok none, stream) => { broadcast with reader := some { reader with stream := stream } }
    | (.ok (some batch), stream) =>
      match engine.nearTimeRows (batchRows batch) with
      | .failed _ => broadcast.stopReader
      | .skipped =>
        { broadcast with
          reader := some
            { reader with
              stream := stream
              prevPublishedThrough := some batch.throughVersion } }
      | .rows rows =>
        let announced := announce engine reader.publisher moments reply
          reader.prevPublishedThrough batch none rows
        { broadcast with
          reader := some
            { stream := stream
              publisher := announced.2
              prevPublishedThrough := some batch.throughVersion }
          published := broadcast.published ++ announced.1 }

def move (broadcast : Broadcast ρ τ μ T K P) : BroadcastMove → Broadcast ρ τ μ T K P
  | .crash => broadcast.stop
  | .crashReader => broadcast.stopReader
  | .start =>
    match openPipeline config engine.toEngine broadcast.source broadcast.target with
    | .error _ => broadcast.stop
    | .ok pipeline =>
      { broadcast with
        streamer := some
          { pipeline := pipeline
            publisher := if engine.nearTime then none else some engine.model.breaker
            prevPublishedThrough := none } }
  | .step budget retryBudget fate moments reply =>
    broadcast.steps config engine budget retryBudget fate moments reply
  | .startReader => { broadcast with reader := broadcast.opensReader config engine }
  | .poll budget moments reply => broadcast.polls engine budget moments reply

/-- One thing that happens: a move of ours, or the two tables growing. -/
inductive Step (broadcast : Broadcast ρ τ μ T K P) : Broadcast ρ τ μ T K P → Prop
  | ours (move : BroadcastMove) : Step broadcast (broadcast.move config engine move)
  | besides (source : DeltaLog ρ) (target : DeltaLog τ)
      (longer : Extends broadcast.source source)
      (appended : broadcast.target.commits <+: target.commits) :
      Step broadcast { broadcast with source := source, target := target }

def Runs : Broadcast ρ τ μ T K P → Broadcast ρ τ μ T K P → Prop :=
  Relation.ReflTransGen (Step config engine)

end Broadcast

end Calls

end Ddi.Publish
