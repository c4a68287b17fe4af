/-
Decoding a pipeline's messages, batch by batch: one decoder for each writer schema, a
chunk of raw messages beside it, and a message that fails set apart from the others.

A decoder, Arrow's own kernels, the parser of JSON and the registry are arguments.
-/

import Ddi.Kafka.WriterSchema
import Ddi.Lib.Ordered
import Mathlib.Algebra.GroupWithZero.Nat
import Mathlib.Algebra.Ring.Int.Defs
import Mathlib.Data.Nat.Basic

namespace Ddi.Kafka.Decode

/-- Rows one writer schema's decoder holds before they are flushed. -/
def chunkRows : Nat := 8192

def headerLen : Nat := 5

/-! ### Messages -/

inductive KafkaTimestamp
  | notAvailable
  | createTime (ms : Int)
  | logAppendTime (ms : Int)
  deriving DecidableEq

namespace KafkaTimestamp

def millis : KafkaTimestamp → Option Int
  | notAvailable => none
  | createTime ms | logAppendTime ms => some ms

/-- `None` when it is too far out to be a timestamp. -/
def micros (timestamp : KafkaTimestamp) : Option Int :=
  timestamp.millis.bind fun ms =>
    if -2 ^ 63 ≤ ms * 1000 ∧ ms * 1000 < 2 ^ 63 then some (ms * 1000) else none

def typeCode : KafkaTimestamp → Int
  | notAvailable => -1
  | createTime _ => 0
  | logAppendTime _ => 1

end KafkaTimestamp

structure KafkaHeader where
  key : String
  value : Option (List UInt8)
  deriving DecidableEq

structure KafkaMessage where
  partition : Int
  offset : Int
  timestamp : KafkaTimestamp
  key : Option (List UInt8)
  /-- `None` is a tombstone. -/
  value : Option (List UInt8)
  headers : List KafkaHeader
  deriving DecidableEq

namespace KafkaMessage

def rawLen (message : KafkaMessage) : Nat :=
  (message.key.map List.length).getD 0 + (message.value.map List.length).getD 0 +
    (message.headers.map fun header =>
      header.key.utf8ByteSize + (header.value.map List.length).getD 0).sum

/-- The bytes a decoder is handed. -/
def body (message : KafkaMessage) : List UInt8 :=
  message.value.getD []

end KafkaMessage

/-- The raw size of messages. -/
def rawSum (messages : List KafkaMessage) : Int :=
  (messages.map fun message => (message.rawLen : Int)).sum

/-- The writer schema id of a framed payload, or why it is not framed. -/
def frame : List UInt8 → Except String Nat
  | [] => .error "not Confluent-framed: the value is empty"
  | first :: rest =>
      if first = 0 then
        match rest with
        | b1 :: b2 :: b3 :: b4 :: _ =>
            .ok (b1.toNat * 2 ^ 24 + b2.toNat * 2 ^ 16 + b3.toNat * 2 ^ 8 + b4.toNat)
        | _ =>
            .error ("not Confluent-framed: " ++ toString (rest.length + 1) ++
              " byte(s), fewer than the " ++ toString headerLen ++ "-byte header")
      else
        -- An object, an array or a string of JSON.
        let hint := if first = 123 ∨ first = 91 ∨ first = 34 then "; is this topic JSON?" else ""
        .error ("not Confluent-framed: the first byte is 0x" ++ hex first ++ ", not 0x00" ++ hint)

/-! ### What is outside -/

/-- The decoders of writer schemas, `D` one's state. -/
structure DecodeFactory (D : Type) where
  build : Nat → String → Except String D
  schema : D → List Field
  decodeOne : D → List UInt8 → Except String Unit × D
  flush : D → Except String (Option RecordBatch) × D

/-- Arrow's kernels and the parsers. -/
structure Kernels where
  /-- Why the arrays of a batch cannot be put together, if they cannot. -/
  refusal : RecordBatch → Option String
  /-- Why batches cannot be concatenated, if they cannot. -/
  concatRefusal : List RecordBatch → Option String
  measuredSize : RecordBatch → Nat
  parseJson : String → Except String Json
  base64 : List UInt8 → String

structure RegisteredSchema where
  id : Nat
  schema : String
  deriving DecidableEq

/-- The registry's answer for an id: its schema's text, or why its messages have none. -/
inductive Lookup
  | avro (schema : String)
  | undecodable (reason : String) (deterministic : Bool)
  deriving DecidableEq

/-! ### The decoder -/

structure Undecodable where
  partition : Int
  offset : Int
  schemaId : Option Nat
  reason : String
  deterministic : Bool
  deriving DecidableEq

inductive FeedError
  | registry (error : String)
  | kafkaMetadataCollision (schemaId : Nat) (field pre : String)
  deriving DecidableEq

structure Ready (D : Type) where
  schema : RegisteredSchema
  decoder : D
  /-- The messages whose rows are inside `decoder`, in order. -/
  chunk : List KafkaMessage
  fixedUuids : List Named

inductive Group (D : Type)
  | ready (group : Ready D)
  | unusable (reason : String)
  | collision (field : String)

structure Out where
  batches : List RecordBatch := []
  undecodable : List (KafkaMessage × Undecodable) := []
  tombstones : Nat := 0
  flushedBytes : Nat := 0
  flushedRaw : Int := 0
  /-- Raw size of the messages still inside decoders. -/
  pendingRaw : Int := 0

def Out.reject (out : Out) (message : KafkaMessage) (schemaId : Option Nat) (reason : String)
    (deterministic : Bool) : Out :=
  let entry : Undecodable :=
    ⟨message.partition, message.offset, schemaId, reason, deterministic⟩
  { out with undecodable := out.undecodable ++ [(message, entry)] }

/-- Each of the messages rejected, for one reason. -/
def Out.rejectAll (out : Out) (messages : List KafkaMessage) (schemaId : Option Nat)
    (reason : String) (deterministic : Bool) : Out :=
  messages.foldl (fun out message => out.reject message schemaId reason deterministic) out

structure KafkaDecoder (D : Type) where
  topic : String
  pre : String
  groups : List (Nat × Group D) := []
  out : Out := {}

/-- The id as the Java client reads it: a signed int. -/
def asInt32 (id : Nat) : Int :=
  if id < 2 ^ 31 then id else (id : Int) - 2 ^ 32

def metadataFields (pre : String) : List Field := [
  .mk (pre ++ "topic") .utf8 false [],
  .mk (pre ++ "partition") .int32 false [],
  .mk (pre ++ "offset") .int64 false [],
  .mk (pre ++ "timestamp") .timestampMicrosUtc true [],
  .mk (pre ++ "timestamp_type") .int32 false [],
  .mk (pre ++ "key") .binary true [],
  .mk (pre ++ "headers") (.list (.mk "element"
    (.struct [.mk "key" .utf8 false [], .mk "value" .binary true []]) false [])) false [],
  .mk (pre ++ "value_schema_id") .int32 false []]

def optional (bytes : Option (List UInt8)) : Value :=
  match bytes with
  | some bytes => .bytes bytes
  | none => .null

def timestampValue (timestamp : KafkaTimestamp) : Value :=
  match timestamp.micros with
  | some micros => .int micros
  | none => .null

/-- One message's values of the metadata columns. -/
def metadataRow (topic : String) (schemaId : Nat) (message : KafkaMessage) : List Value := [
  .text topic,
  .int message.partition,
  .int message.offset,
  timestampValue message.timestamp,
  .int message.timestamp.typeCode,
  optional message.key,
  .items (message.headers.map fun header => .record [.text header.key, optional header.value]),
  .int (asInt32 schemaId)]

section Decoding

variable {D : Type} (factory : DecodeFactory D) (kernels : Kernels)

def normalise (uuids : List Named) (batch : RecordBatch) : Except String RecordBatch :=
  match kernels.refusal (normalised uuids batch) with
  | some error => .error error
  | none => .ok (normalised uuids batch)

def groupFor (pre : String) (schema : RegisteredSchema) : Group D :=
  match topLevelRecord (kernels.parseJson schema.schema) with
  | .error kind =>
      .unusable ("writer schema " ++ toString schema.id ++
        " is not a record at the top level but " ++ kind ++
        "; kafka-delta-ingest could not ingest such a value either")
  | .ok () =>
      match factory.build schema.id schema.schema with
      | .error error =>
          .unusable ("cannot decode writer schema " ++ toString schema.id ++ ": " ++ error)
      | .ok decoder =>
          match (factory.schema decoder).find? fun field => pre.isPrefixOf field.name with
          | some field => .collision field.name
          | none =>
              if zeroWidthFields (factory.schema decoder) then
                .unusable ("writer schema " ++ toString schema.id ++
                  " encodes every record in zero bytes (it has no field that takes any), " ++
                  "which arrow-avro cannot decode from a message alone")
              else
                match zeroWidthItems (factory.schema decoder) with
                | some path =>
                    .unusable ("writer schema " ++ toString schema.id ++
                      " has an array whose items take no bytes (" ++ path ++
                      "), which a hostile item count could keep the decoder busy on for good; " ++
                      "ddi does not decode it")
                | none =>
                    .ready ⟨schema, decoder, [], fixedUuids (kernels.parseJson schema.schema)⟩

section Context

variable (topic pre : String) (id : Nat)

/-- The rows with their messages' metadata, as one more batch. -/
def emit (rows : RecordBatch) (chunk : List KafkaMessage) (raw : Int) (out : Out) : Out :=
  let batch : RecordBatch := {
    fields := rows.fields ++ metadataFields pre
    rows := rows.rows.zipWith (fun row message => row ++ metadataRow topic id message) chunk }
  match kernels.refusal batch with
  | none => { out with
      flushedBytes := out.flushedBytes + kernels.measuredSize batch
      flushedRaw := out.flushedRaw + raw
      batches := out.batches ++ [batch] }
  | some error => out.rejectAll chunk (some id) ("internal: cannot assemble the batch: " ++ error) false

/-- A message decoded and flushed into a decoder that holds nothing: its row, whether the decoder
is clean after it, and the decoder. -/
def flushOne (uuids : List Named) (decoder : D) (message : KafkaMessage) :
    Except String RecordBatch × Bool × D :=
  match factory.decodeOne decoder message.body with
  | (.error error, decoder) => (.error error, false, decoder)
  | (.ok (), decoder) =>
      match factory.flush decoder with
      | (.error error, decoder) => (.error error, false, decoder)
      | (.ok (some batch), decoder) =>
          if batch.rows.length = 1 then (normalise kernels uuids batch, true, decoder)
          else (.error "decoded, but no row came out", false, decoder)
      | (.ok none, decoder) => (.error "decoded, but no row came out", false, decoder)

/-- What `flush_one_by_one` has come to so far. -/
structure OneByOne (D : Type) where
  decoder : D
  clean : Bool
  rows : List RecordBatch
  kept : List KafkaMessage
  out : Out

def OneByOne.next (schema : String) (uuids : List Named) (state : OneByOne D)
    (message : KafkaMessage) : OneByOne D :=
  match if state.clean then .ok state.decoder else factory.build id schema with
  | .error error =>
      -- A decoder that cannot be built is an internal fault, not this message's.
      { state with
        out := state.out.reject message (some id)
          ("cannot decode writer schema " ++ toString id ++ ": " ++ error) false }
  | .ok decoder =>
      match flushOne factory kernels uuids decoder message with
      | (.ok batch, clean, decoder) =>
          { state with decoder, clean, rows := state.rows ++ [batch], kept := state.kept ++ [message] }
      | (.error error, clean, decoder) =>
          { state with
            decoder
            clean
            out := state.out.reject message (some id)
              ("cannot turn the decoded record into Arrow: " ++ error) true }

def concatBatches (rows : List RecordBatch) : Except String RecordBatch :=
  match kernels.concatRefusal rows with
  | some error => .error error
  | none => .ok { fields := (rows.head?.map (·.fields)).getD [], rows := rows.flatMap (·.rows) }

def flushOneByOne (group : Ready D) (chunk : List KafkaMessage) (out : Out) : Ready D × Out :=
  -- The decoder whose flush of the whole chunk failed may hold anything.
  let state := chunk.foldl (OneByOne.next factory kernels id group.schema.schema group.fixedUuids)
    { decoder := group.decoder, clean := false, rows := [], kept := [], out }
  let decoder := if state.clean then state.decoder else
    match factory.build id group.schema.schema with
    | .ok decoder => decoder
    | .error _ => state.decoder
  let group := { group with decoder }
  if state.rows.isEmpty then (group, state.out)
  else match concatBatches kernels state.rows with
    | .ok batch => (group, emit kernels topic pre id batch state.kept (rawSum state.kept) state.out)
    | .error error =>
        (group, state.out.rejectAll state.kept (some id)
          ("internal: cannot assemble the batch: " ++ error) false)

def flush (group : Ready D) (out : Out) : Ready D × Out :=
  if group.chunk.isEmpty then (group, out)
  else
    let chunk := group.chunk
    let raw := rawSum chunk
    let out := { out with pendingRaw := out.pendingRaw - raw }
    let (answer, decoder) := factory.flush group.decoder
    let group := { group with chunk := [], decoder }
    let rows : Option RecordBatch := match answer with
      | .ok (some batch) =>
          if batch.rows.length = chunk.length then
            (normalise kernels group.fixedUuids batch).toOption
          else none
      | _ => none
    match rows with
    | some rows => (group, emit kernels topic pre id rows chunk raw out)
    | none => flushOneByOne factory kernels topic pre id group chunk out

/-- The messages decoded in order, up to the first that is refused: its place, and why. -/
def decodeAll (decoder : D) : List KafkaMessage → D × Option (Nat × String)
  | [] => (decoder, none)
  | message :: messages =>
      match factory.decodeOne decoder message.body with
      | (.error reason, decoder) => (decoder, some (0, reason))
      | (.ok (), decoder) =>
          let (decoder, refused) := decodeAll decoder messages
          (decoder, refused.map fun (index, reason) => (index + 1, reason))

/-- The chunk's messages decoded again into a new decoder; one refused now is left out, and the
others start over. Each turn leaves one out, so there are at most `turns` more. -/
def redecode (schema : String) : Nat → D → List KafkaMessage → Out → D × Option (List KafkaMessage) × Out
  | turns, held, good, out =>
      match factory.build id schema with
      | .error error =>
          (held, none, ({ out with pendingRaw := out.pendingRaw - rawSum good } : Out).rejectAll good
            (some id) ("cannot decode writer schema " ++ toString id ++ ": " ++ error) false)
      | .ok decoder =>
          match decodeAll factory decoder good, turns with
          | (decoder, some (index, reason)), turns + 1 =>
              match good[index]? with
              | some message =>
                  redecode schema turns decoder (good.eraseIdx index)
                    (({ out with pendingRaw := out.pendingRaw - message.rawLen } : Out).reject message
                      (some id) (reason ++ " (on decoding it again; it decoded before)") false)
              | none => (decoder, some good, out)
          | (decoder, _), _ => (decoder, some good, out)

/-- The decoder may hold part of a row: a new one decodes the chunk again and is flushed. -/
def isolate (group : Ready D) (out : Out) : Ready D × Out :=
  match redecode factory id group.schema.schema group.chunk.length group.decoder group.chunk out with
  | (decoder, none, out) => ({ group with decoder, chunk := [] }, out)
  | (decoder, some good, out) =>
      flush factory kernels topic pre id { group with decoder, chunk := good } out

def decode (group : Ready D) (out : Out) (message : KafkaMessage) : Ready D × Out :=
  match factory.decodeOne group.decoder message.body with
  | (.ok (), decoder) =>
      let out := { out with pendingRaw := out.pendingRaw + message.rawLen }
      let group := { group with decoder, chunk := group.chunk ++ [message] }
      if chunkRows ≤ group.chunk.length then flush factory kernels topic pre id group out
      else (group, out)
  | (.error reason, decoder) =>
      let (group, out) := isolate factory kernels topic pre id { group with decoder } out
      (group, out.reject message (some id) reason true)

end Context

namespace KafkaDecoder

def new (topic pre : String) : KafkaDecoder D :=
  { topic, pre }

/-- What a message of a known writer schema comes to. -/
def feedGroup (decoder : KafkaDecoder D) (id : Nat) (message : KafkaMessage) :
    Group D → Except FeedError Unit × KafkaDecoder D
  | .unusable reason =>
      (.ok (), { decoder with out := decoder.out.reject message (some id) reason true })
  | .collision field => (.error (.kafkaMetadataCollision id field decoder.pre), decoder)
  | .ready group =>
      let (group, out) := decode factory kernels decoder.topic decoder.pre id group decoder.out message
      (.ok (), { decoder with groups := Ordered.insert id (.ready group) decoder.groups, out })

/-- Takes one message into the current batch, or gives it back with an error. The answer is the
registry's, should it be asked. -/
def feed (decoder : KafkaDecoder D) (message : KafkaMessage) (answer : Except String Lookup) :
    Except FeedError Unit × KafkaDecoder D :=
  match message.value with
  | none =>
      (.ok (), { decoder with
        out := { decoder.out with tombstones := decoder.out.tombstones + 1 } })
  | some value =>
      match frame value with
      | .error reason =>
          (.ok (), { decoder with out := decoder.out.reject message none reason true })
      | .ok id =>
          match decoder.groups.lookup id with
          | some group => decoder.feedGroup factory kernels id message group
          | none =>
              match answer with
              | .error error => (.error (.registry error), decoder)
              | .ok (.undecodable reason deterministic) =>
                  let groups := if deterministic then
                      Ordered.insert id (.unusable reason) decoder.groups
                    else decoder.groups
                  (.ok (), { decoder with
                    groups
                    out := decoder.out.reject message (some id) reason deterministic })
              | .ok (.avro schema) =>
                  let group := groupFor factory kernels decoder.pre ⟨id, schema⟩
                  let decoder := { decoder with groups := Ordered.insert id group decoder.groups }
                  decoder.feedGroup factory kernels id message group

def isEmpty (decoder : KafkaDecoder D) : Bool :=
  decoder.out.batches.isEmpty && decoder.out.undecodable.isEmpty && decoder.out.tombstones == 0 &&
    decoder.out.pendingRaw == 0 &&
    decoder.groups.all fun (_, group) =>
      match group with
      | .ready group => group.chunk.isEmpty
      | _ => true

/-- Every writer schema's rows flushed, in the order of the ids. -/
def flushGroups (topic pre : String) :
    List (Nat × Group D) → Out → List (Nat × Group D) × Out
  | [], out => ([], out)
  | (id, .ready group) :: groups, out =>
      let (group, out) := flush factory kernels topic pre id group out
      let (groups, out) := flushGroups topic pre groups out
      ((id, .ready group) :: groups, out)
  | entry :: groups, out =>
      let (groups, out) := flushGroups topic pre groups out
      (entry :: groups, out)

end KafkaDecoder

/-- Undecodable messages as rows for the data-quality table. -/
structure Rejected where
  rows : RecordBatch
  reasons : List String
  columns : List (Option String)

def rejectedFields (pre : String) : List Field := [
  .mk (pre ++ "topic") .utf8 false [],
  .mk (pre ++ "partition") .int32 false [],
  .mk (pre ++ "offset") .int64 false [],
  .mk (pre ++ "timestamp") .timestampMicrosUtc true [],
  .mk (pre ++ "key_b64") .utf8 true [],
  .mk (pre ++ "value_b64") .utf8 true [],
  .mk (pre ++ "value_schema_id") .int32 true []]

def rejectedRow (topic : String) (message : KafkaMessage) (schemaId : Option Nat) : List Value :=
  let b64 := fun (bytes : Option (List UInt8)) => match bytes with
    | some bytes => Value.text (kernels.base64 bytes)
    | none => .null
  [.text topic, .int message.partition, .int message.offset, timestampValue message.timestamp,
    b64 message.key, b64 message.value,
    match schemaId with
    | some id => .int (asInt32 id)
    | none => .null]

def rejectedRows (topic pre : String) (undecodable : List (KafkaMessage × Undecodable)) :
    Except String (Option Rejected) :=
  if undecodable.isEmpty then .ok none
  else
    let rows : RecordBatch := {
      fields := rejectedFields pre
      rows := undecodable.map fun (message, entry) =>
        rejectedRow kernels topic message entry.schemaId }
    match kernels.refusal rows with
    | some error => .error ("internal: cannot assemble undecodable rows: " ++ error)
    | none => .ok (some {
        rows
        reasons := undecodable.map fun (_, entry) => "avro: " ++ entry.reason
        columns := undecodable.map fun _ => none })

structure Decoded where
  batches : List RecordBatch
  undecodable : List Undecodable
  rejects : Option Rejected
  tombstones : Nat
  decodedBytes : Nat

namespace KafkaDecoder

/-- Closes the current batch. What it produced is gone from the decoder, whatever comes of it. -/
def finish (decoder : KafkaDecoder D) : Except String Decoded × KafkaDecoder D :=
  let (groups, out) := flushGroups factory kernels decoder.topic decoder.pre decoder.groups decoder.out
  let closed := { decoder with groups, out := {} }
  match rejectedRows kernels decoder.topic decoder.pre out.undecodable with
  | .error error => (.error error, closed)
  | .ok rejects =>
      (.ok {
        batches := out.batches
        undecodable := out.undecodable.map Prod.snd
        rejects
        tombstones := out.tombstones
        decodedBytes := out.flushedBytes }, closed)

/-- Drops the current batch, rows still inside decoders included. -/
def discard (decoder : KafkaDecoder D) : KafkaDecoder D :=
  { decoder with
    groups := decoder.groups.filterMap fun (id, group) =>
      match group with
      | .ready group =>
          if group.chunk.isEmpty then some (id, .ready group)
          else match factory.build id group.schema.schema with
            | .ok decoder => some (id, .ready { group with chunk := [], decoder })
            -- It built before; should it not now, the id is looked up afresh.
            | .error _ => none
      | group => some (id, group)
    out := {} }

end KafkaDecoder

end Decoding

end Ddi.Kafka.Decode
