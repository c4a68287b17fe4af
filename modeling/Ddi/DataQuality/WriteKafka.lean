/-
The rejects of a Kafka batch, written to the data-quality table as one append that is tried again
after a conflict. What other writers do meanwhile, and how each attempt ends, comes from outside.
-/

import Ddi.DataQuality
import Ddi.Kafka.Fence
import Ddi.Lib.Succession

namespace Ddi.DqKafka

open Ddi.Delta Ddi.Kafka Succession

/-! ### The rejects -/

/-- A column: its values where its type is an integer one. -/
structure Column where
  isInteger : Bool
  values : List (Option Int)

/-- Rows set aside, with why each was and the column that did it. -/
structure Rejected where
  rows : List (String × Column)
  count : Nat
  reasons : List String
  columns : List (Option String)
  eachReason : reasons.length = count
  eachColumn : columns.length = count

def Rejected.len (rejected : Rejected) : Nat := rejected.count

/-- The handle of a pipeline's data-quality table. -/
structure KafkaDq where
  appId : String
  pipeline : String
  uri : String
  kafkaPrefix : String
  /-- The version the handle is loaded at. -/
  version : Option Nat
  conflictRetries : Nat := 0

def inI64 (value : Int) : Bool := decide (-(2 ^ 63) ≤ value ∧ value < 2 ^ 63)

def inI32 (value : Int) : Bool := decide (-(2 ^ 31) ≤ value ∧ value < 2 ^ 31)

/-- An integer column of the rejects, each value as a 64-bit one or null. -/
def columnOf (rejected : Rejected) (name : String) : Option (List (Option Int)) :=
  match rejected.rows.lookup name with
  | none => none
  | some column =>
      if column.isInteger then some (column.values.map fun value => value.filter inI64) else none

/-- Each row's partition and offset, where they are of the batch's ranges. -/
def coordinates (dq : KafkaDq) (rejected : Rejected) (ranges : List (Int × Int × Int)) :
    List (Option (Int × Int)) :=
  match columnOf rejected (dq.kafkaPrefix ++ "partition"),
      columnOf rejected (dq.kafkaPrefix ++ "offset") with
  | some partitions, some offsets =>
      (List.range rejected.len).map fun index =>
        match partitions[index]?.join, offsets[index]?.join with
        | some partition, some offset =>
            if inI32 partition then
              match ranges.lookup partition with
              | some (first, last) =>
                  if first ≤ offset ∧ offset ≤ last then some (partition, offset) else none
              | none => none
            else none
        | _, _ => none
  | _, _ => List.replicate rejected.len none

/-- The data-quality batch of these rows, one source version each. -/
def assemble (dq : KafkaDq) (sourceVersions : List Int) (columns : List (Option String))
    (reasons : List String) (payload : List (Option String)) (nowMicros : Int) :
    Except Error (List DqRow) :=
  if sourceVersions.length = reasons.length ∧ columns.length = reasons.length ∧
      payload.length = reasons.length then
    .ok ((sourceVersions.zip (columns.zip (reasons.zip payload))).map fun row =>
      { appId := dq.appId
        pipeline := dq.pipeline
        sourceVersion := row.1
        columnName := row.2.1
        reason := row.2.2.1
        payload := row.2.2.2
        timestamp := nowMicros })
  else .error (.other "cannot assemble the data-quality batch: columns of unequal lengths")

section Batch

-- `payloadOf` is the JSON text of a row, where it has one.
variable (payloadOf : Rejected → Nat → Option String) (dq : KafkaDq)

def payloads (rejected : Rejected) : List (Option String) :=
  (List.range rejected.len).map (payloadOf rejected)

def sourceVersionsOf (rejected : Rejected) (ranges : List (Int × Int × Int)) : List Int :=
  (coordinates dq rejected ranges).map fun own => own.elim (-1) Prod.snd

/-- Every reject of the batch, each with its message's offset or −1. -/
def kafkaBatch (rejected : List Rejected) (ranges : List (Int × Int × Int)) (nowMicros : Int) :
    Except Error (List DqRow) :=
  assemble dq (rejected.flatMap fun own => sourceVersionsOf dq own ranges)
    (rejected.flatMap Rejected.columns) (rejected.flatMap Rejected.reasons)
    (rejected.flatMap (payloads payloadOf)) nowMicros

end Batch

/-! ### Commits -/

/-- A commit of the table: each of its lines where it is JSON, and the rows it adds. -/
structure DqCommit where
  lines : List (Option Json)
  rows : List DqRow := []

def kafkaWriteId : String := "ddi.kafka.dqWriteId"

/-- The write id that a commit records, up to the first line that is not JSON. -/
def writeIdOf (commit : DqCommit) : Option String :=
  ((commit.lines.takeWhile Option.isSome).filterMap id).findSome? fun line =>
    ((line.get "commitInfo").bind fun info => info.get kafkaWriteId).bind Json.asStr

/-- What a commit of this write records. -/
def kafkaMetadata (dq : KafkaDq) (offsets : KafkaOffsets) (writeId : String) : CommitInfo :=
  [("ddi.appId", .str dq.appId),
    ("ddi.kafka.offsets", .obj (offsets.ranges.map fun entry =>
      (toString entry.1, .arr [.num entry.2.1, .num entry.2.2]))),
    (kafkaWriteId, .str writeId)]

/-- The commit that appends the rejects. -/
def kafkaCommit (dq : KafkaDq) (offsets : KafkaOffsets) (writeId : String) (rows : List DqRow) :
    DqCommit where
  lines := [some (.obj [("add", .obj [])]),
    some (.obj [("commitInfo", .obj (kafkaMetadata dq offsets writeId))])]
  rows

/-- What another writer does to the table. -/
inductive Move
  | commit (other : DqCommit)
  /-- The oldest entries leave the log, its newest never. -/
  | clean (first : Nat)

def Move.apply (place : Place DqCommit) : Move → Place DqCommit
  | .commit other => { place with log := place.log ++ [other] }
  | .clean first => { place with first := max place.first (min first (place.log.length - 1)) }

def applyMoves (moves : List Move) (place : Place DqCommit) : Place DqCommit :=
  moves.foldl Move.apply place

/-! ### Attempts -/

/-- How an attempt ends, and whether its commit landed. -/
inductive Ending
  | acknowledged
  | conflict (landed : Bool) (detail : String)
  | ambiguous (landed : Bool) (cause : Error)
  /-- Refused before anything was written. -/
  | failed (cause : Error)

/-- One attempt and the reopening after it, with what other writers do before each part. -/
structure Happening where
  before : List Move
  ending : Ending
  after : List Move
  reopening : List Move
  reopened : Except Error Unit
  /-- Before and at the reading of a version's entry. -/
  reading : Nat → List Move × Except Error Unit

/-- How an attempt that did not write ended. -/
inductive Attempt
  | conflict (detail : String)
  | ambiguous (cause : Error)
  | failed (cause : Error)

/-- An error of the whole write. -/
inductive WriteError
  | dataQualityWrite (dqUri : String) (rows : Nat) (source : Error)
  | dataQualityConflict (dqUri : String) (rows attempts : Nat) (detail : String)

def land (own : DqCommit) (landed : Bool) (place : Place DqCommit) : Place DqCommit :=
  if landed then { place with log := place.log ++ [own] } else place

/-- One attempt: the version it wrote, or how it failed. -/
def tryWriteKafka (own : DqCommit) (happening : Happening) (place : Place DqCommit) :
    Except Attempt Nat × Place DqCommit :=
  let found := applyMoves happening.before place
  match happening.ending with
  | .acknowledged => (.ok found.log.length, applyMoves happening.after (land own true found))
  | .conflict landed detail =>
      (.error (.conflict detail), applyMoves happening.after (land own landed found))
  | .ambiguous landed cause =>
      (.error (.ambiguous cause), applyMoves happening.after (land own landed found))
  | .failed cause => (.error (.failed cause), applyMoves happening.after found)

/-- The raw commit of a version, `none` when it is not in the log. -/
def readCommitEntry (place : Place DqCommit) (version : Nat) : Option DqCommit :=
  if version < place.first then none else place.log[version]?

/-- Whether one of the `count` versions from `since` on is this write's, newest first. -/
def landedAmong (writeId : String) (happening : Happening) (since : Nat) :
    Nat → Place DqCommit → Except Error Bool × Place DqCommit
  | 0, place => (.ok false, place)
  | count + 1, place =>
      let version := since + count
      let place := applyMoves (happening.reading version).1 place
      match (happening.reading version).2 with
      | .error cause => (.error cause, place)
      | .ok _ =>
          match readCommitEntry place version with
          | none => (.ok false, place)
          | some commit =>
              if writeIdOf commit = some writeId then (.ok true, place)
              else landedAmong writeId happening since count place

/-- Whether this write's own commit is among those after the version read. -/
def landed (writeId : String) (happening : Happening) (readVersion head : Option Nat)
    (place : Place DqCommit) : Except Error Bool × Place DqCommit :=
  match head with
  | none => (.ok false, place)
  | some head =>
      let after := readVersion.elim 0 fun version => version + 1
      landedAmong writeId happening after (head + 1 - after) place

def headOf (place : Place DqCommit) : Option Nat :=
  match place.log with
  | [] => none
  | _ :: later => some later.length

def kafkaConflictRetries : Nat := 3

section Write

variable (writeId : String) (own : DqCommit) (rows : Nat) (happens : Nat → Happening)

def unwritable (dq : KafkaDq) (cause : Error) : WriteError :=
  .dataQualityWrite dq.uri rows cause

/-- Attempts from one on, `retries` of them left. -/
def writeAttempts : Nat → Nat → KafkaDq → Place DqCommit →
    Except WriteError Nat × KafkaDq × Place DqCommit
  | retries, attempt, dq, place =>
      let happening := happens attempt
      match tryWriteKafka own happening place with
      | (.ok version, place) => (.ok rows, { dq with version := some version }, place)
      | (.error (.failed cause), place) =>
          let place := applyMoves happening.reopening place
          match happening.reopened with
          | .ok _ =>
              (.error (unwritable rows dq cause), { dq with version := headOf place }, place)
          | .error _ => (.error (unwritable rows dq cause), dq, place)
      | (.error (.ambiguous cause), place) =>
          let place := applyMoves happening.reopening place
          match happening.reopened with
          | .error _ => (.error (unwritable rows dq cause), dq, place)
          | .ok _ =>
              let reopened := { dq with version := headOf place }
              match landed writeId happening dq.version reopened.version place with
              | (.ok true, place) => (.ok rows, reopened, place)
              | (_, place) => (.error (unwritable rows dq cause), reopened, place)
      | (.error (.conflict detail), place) =>
          let place := applyMoves happening.reopening place
          match happening.reopened with
          | .error cause => (.error (unwritable rows dq cause), dq, place)
          | .ok _ =>
              let reopened := { dq with version := headOf place }
              match landed writeId happening dq.version reopened.version place with
              | (.error cause, place) => (.error (unwritable rows dq cause), reopened, place)
              | (.ok true, place) => (.ok rows, reopened, place)
              | (.ok false, place) =>
                  match retries with
                  | retries + 1 =>
                      writeAttempts retries (attempt + 1)
                        { reopened with conflictRetries := reopened.conflictRetries + 1 } place
                  | 0 =>
                      (.error (.dataQualityConflict dq.uri rows (kafkaConflictRetries + 1) detail),
                        reopened, place)

end Write

/-- Every reject of a batch, in one commit. -/
def writeKafka (payloadOf : Rejected → Nat → Option String) (writeId : String)
    (happens : Nat → Happening) (dq : KafkaDq) (rejected : List Rejected)
    (offsets : KafkaOffsets) (nowMicros : Int) (place : Place DqCommit) :
    Except WriteError Nat × KafkaDq × Place DqCommit :=
  let rows := (rejected.map Rejected.len).sum
  if rows = 0 then (.ok 0, dq, place)
  else
    match kafkaBatch payloadOf dq rejected offsets.ranges nowMicros with
    | .error cause => (.error (unwritable rows dq cause), dq, place)
    | .ok batch =>
        writeAttempts writeId (kafkaCommit dq offsets writeId batch) rows happens
          kafkaConflictRetries 0 dq place

end Ddi.DqKafka
