/-
The entries of a config, the two pipelines a staged one is split into, and the checks of
entries against each other.

What an entry says of its own batches, its SQL and its columns is kept only as far as the
checks of one entry read it; publishing, which holds no pipeline back, is left out.
-/

import Ddi.Config.Uri
import Ddi.Source.LogStream

namespace Ddi.Resolver

open Ddi.Source (ChangePolicy)

inductive WriteMode
  | append
  | upsert
  | stagedUpsert
  deriving DecidableEq

namespace WriteMode

def isUpsert (mode : WriteMode) : Bool := mode == upsert

def isStaged (mode : WriteMode) : Bool := mode == stagedUpsert

end WriteMode

inductive GrainCheck
  | always
  | off
  deriving DecidableEq

structure LookupConfig where
  name : String
  uri : String
  deriving DecidableEq

/-- One `[[pipeline]]`. -/
structure PipelineConfig where
  name : String
  appId : String
  sourceUri : String
  targetUri : String
  lookups : List LookupConfig := []
  startingVersion : Nat := 0
  changePolicy : ChangePolicy := .fail
  transformSql : Option String := none
  allowedLatencySecs : Option Nat := none
  maxBytesPerBatch : Option String := none
  targetFileSize : Option String := none
  watermarkUri : Option String := none
  dedupTimestamp : Option String := none
  dedupKey : Option String := none
  dedupPartition : List String := []
  writeMode : WriteMode := .append
  upsertKey : Option String := none
  dqUri : Option String := none
  upsertLookback : Option String := none
  upsertTiebreak : List String := []
  upsertGrainCheck : GrainCheck := .always
  stageUri : Option String := none
  applyMaxBytes : Option String := none
  applyMaxLatencySecs : Option Nat := none
  /-- The real target of an ingest half, whose own target is its stage. -/
  stageFor : Option String := none
  /-- Why the dbt meta the entry comes from cannot be read. -/
  metaProblem : Option String := none
  sourceRelation : Option String := none
  targetRelation : Option String := none
  deriving DecidableEq

/-- One `[[kafka.pipeline]]`, as far as the rules between entries read it. -/
structure KafkaPipelineConfig where
  name : String := ""
  appId : String := ""
  topic : String := ""
  targetUri : String := ""
  groupId : Option String := none
  brokers : Option String := none
  subject : Option String := none
  dqUri : Option String := none
  transformSql : Option String := none
  deriving DecidableEq

/-- Why an entry is held back. -/
inductive Reason
  | meta_ (problem : String)
  | emptyAppId
  | sameTable
  | lookup (name problem : String)
  | lookupTwice (name : String)
  | lookupAtOwnTable (name : String)
  | sql (problem : String)
  | lookupsWithoutSql
  | unsplit
  | stagedNeedsKey
  | stagedNeedsTimestamp
  | stageAtOwnTable (stage : String)
  | stageWithoutSuffix (stage : String)
  | upsertNeedsKey
  | upsertNeedsTimestamp
  | upsertKeysOnAppend
  | tiebreakEmpty
  | tiebreakIsTimestamp (column : String)
  | tiebreakTwice (column : String)
  | partitionWithoutTimestamp
  | partitionEmpty
  | partitionIsTimestamp (column : String)
  | partitionIsKey (column : String)
  | partitionTwice (column : String)
  | lookback (problem : String)
  | size (field written : String)
  | duplicateAppId (appId : String) (others : List String)
  | duplicateName (name : String) (count : Nat)
  | cascade (table writer : String) (policy : ChangePolicy)
  | stage (which table : String)
  | required (key : String)
  | topic (topic : String)
  | brokers
  | emptyGroupId
  | emptySubject
  | emptyDqUri
  | kafkaSettings (problem : String)
  | sharedTarget (appId : String) (names : List String)
  | sharedRejects (appId : String) (names : List String)
  | sharedTopic (topic : String) (names : List String)
  | bothWrite (kafka delta target : String)
  | bothReject (kafka delta table appId : String)
  | kafkaStage (target : String)
  | sharedGroup (group : String) (names : List String)
  | notBuilt (also : Option Reason)

/-! ### One entry split in two -/

/-- The first of the columns to break a rule, each checked in its turn. -/
def dedupPartitionColumns (entry : PipelineConfig) : List String → List String → Option Reason
  | _, [] => none
  | seen, column :: columns =>
      if (trim column).isEmpty then some .partitionEmpty
      else if some column = entry.dedupTimestamp then some (.partitionIsTimestamp column)
      else if some column = entry.dedupKey then some (.partitionIsKey column)
      else if column ∈ seen then some (.partitionTwice column)
      else dedupPartitionColumns entry (column :: seen) columns

/-- Why this pipeline's `dedup_partition` cannot be what it means, if it cannot. -/
def dedupPartitionProblem (entry : PipelineConfig) : Option Reason :=
  if entry.dedupPartition.isEmpty then none
  else if entry.dedupTimestamp.isNone then some .partitionWithoutTimestamp
  else dedupPartitionColumns entry [] entry.dedupPartition

/-- Where a staged entry's stage is. -/
def stageOf (entry : PipelineConfig) : String :=
  entry.stageUri.getD (Stage.uriFor entry.targetUri)

/-- Why this staged pipeline cannot be split, if it cannot. -/
def stagedProblem (entry : PipelineConfig) : Option Reason :=
  match entry.metaProblem with
  | some problem => some (.meta_ problem)
  | none =>
      if entry.upsertKey.isNone ∧ entry.dedupKey.isNone then some .stagedNeedsKey
      else if entry.dedupTimestamp.isNone then some .stagedNeedsTimestamp
      else if stageOf entry = entry.targetUri ∨ stageOf entry = entry.sourceUri then
        some (.stageAtOwnTable (stageOf entry))
      else if isStageUri (stageOf entry) then dedupPartitionProblem entry
      else some (.stageWithoutSuffix (stageOf entry))

/-- The half that reads the real source and appends to the stage. -/
def ingestHalf (entry : PipelineConfig) : PipelineConfig :=
  { entry with
    name := Stage.ingestName entry.name
    appId := Stage.ingestAppId entry.appId
    targetUri := stageOf entry
    targetRelation := none
    writeMode := .append
    upsertKey := none
    upsertLookback := none
    upsertTiebreak := []
    upsertGrainCheck := .always
    dqUri := some (dqOf entry.targetUri entry.dqUri)
    stageUri := none
    applyMaxBytes := none
    applyMaxLatencySecs := none
    stageFor := some entry.targetUri }

/-- The half that reads the stage and merges into the real target. -/
def applyHalf (entry : PipelineConfig) : PipelineConfig :=
  { entry with
    name := Stage.applyName entry.name
    appId := Stage.applyAppId entry.appId
    sourceUri := stageOf entry
    sourceRelation := none
    writeMode := .upsert
    transformSql := none
    lookups := []
    watermarkUri := none
    startingVersion := 0
    changePolicy := .fail
    stageUri := none
    applyMaxBytes := none
    applyMaxLatencySecs := none
    stageFor := none
    maxBytesPerBatch := entry.applyMaxBytes.or entry.maxBytesPerBatch
    allowedLatencySecs := entry.applyMaxLatencySecs.or entry.allowedLatencySecs }

/-- Whether a staged entry is split, or left whole for the resolver to refuse. -/
def splits (entry : PipelineConfig) : Bool :=
  entry.writeMode.isStaged && (stagedProblem entry).isNone

/-- Every staged entry turned into the two pipelines that implement it. -/
def expandStaged (pipelines : List PipelineConfig) : List PipelineConfig :=
  pipelines.flatMap fun entry =>
    if splits entry then [ingestHalf entry, applyHalf entry] else [entry]

/-! ### Delta pipelines against each other -/

/-- A name and why it is held back. -/
abbrev Condemned := String × Reason

/-- The name of the last pipeline that writes the stage, as its URI is written. -/
def ownerOf (pipelines : List PipelineConfig) (uri : String) : Option String :=
  ((pipelines.filter fun pipeline => isStageUri pipeline.targetUri && pipeline.targetUri == uri).getLast?).map
    (·.name)

/-- Whether a pipeline may use a stage: its own, or that of the pipeline it was split from. -/
def minesStage (pipelines : List PipelineConfig) (pipeline : PipelineConfig) (uri : String) : Bool :=
  let owner := (ownerOf pipelines uri).getD ""
  pipeline.name == owner || Stage.applyName (Stage.stem owner) == pipeline.name

/-- Pipelines that would read or write a stage they do not own. -/
def stageConflicts (pipelines : List PipelineConfig) : List Condemned :=
  pipelines.flatMap fun pipeline =>
    [(pipeline.sourceUri, "reads"), (pipeline.targetUri, "writes to")].filterMap fun (uri, which) =>
      if isStageUri uri && !minesStage pipelines pipeline uri then
        some (pipeline.name, .stage which uri)
      else none

/-- Whether a pipeline can read what another merges. -/
def readsMerges (pipeline : PipelineConfig) : Bool :=
  pipeline.changePolicy == .ignoreChanges && pipeline.writeMode.isUpsert

/-- Pipelines that read a table another upserts into and cannot make sense of it. -/
def cascadeConflicts (pipelines : List PipelineConfig) : List Condemned :=
  (pipelines.filter fun up => up.writeMode.isUpsert).flatMap fun up =>
    (pipelines.filter fun down => down.sourceUri == up.targetUri).filterMap fun down =>
      if readsMerges down then none
      else some (down.name, .cascade up.targetUri up.name down.changePolicy)

/-- Every user of a name or an app id that has more than one. -/
def sharers (pipelines : List PipelineConfig) (key : PipelineConfig → String)
    (reason : PipelineConfig → List PipelineConfig → Reason) : List Condemned :=
  pipelines.filterMap fun pipeline =>
    let users := pipelines.filter fun other => key other == key pipeline
    if 1 < users.length then some (pipeline.name, reason pipeline users) else none

def duplicateAppIds (pipelines : List PipelineConfig) : List Condemned :=
  sharers pipelines (fun pipeline => trim pipeline.appId) fun pipeline users =>
    .duplicateAppId (trim pipeline.appId)
      ((users.map (·.name)).filter fun name => name != pipeline.name)

def duplicateNames (pipelines : List PipelineConfig) : List Condemned :=
  sharers pipelines (·.name) fun pipeline users => .duplicateName pipeline.name users.length

/-! ### Kafka entries against every other -/

/-- The group a Kafka entry joins. -/
def groupOf (entry : KafkaPipelineConfig) : String :=
  entry.groupId.getD ("ddi-" ++ entry.name)

/-- Whether an entry has the keys the rules between entries compare. -/
def comparable (entry : KafkaPipelineConfig) : Bool :=
  [entry.name, entry.appId, entry.topic, entry.targetUri].all fun value => !(trim value).isEmpty

/-- The name a Kafka entry is reported under. -/
def displayName (index : Nat) (entry : KafkaPipelineConfig) : String :=
  if (trim entry.name).isEmpty then "kafka.pipeline[" ++ toString index ++ "]" else entry.name

/-- Why each Kafka entry and each Delta pipeline is held back, the reasons by position. -/
structure Conflicts where
  kafka : List (Nat × Reason)
  delta : List (Nat × Reason)

/-- The Kafka entries, with their places, that agree on a key. -/
def agreeing {K : Type} [DecidableEq K] (entries : List (KafkaPipelineConfig × Nat))
    (key : KafkaPipelineConfig → K) (entry : KafkaPipelineConfig) :
    List (KafkaPipelineConfig × Nat) :=
  entries.filter fun other => key other.1 == key entry

/-- A rule that holds every one of several Kafka entries with one key back. -/
def sharedRule {K : Type} [DecidableEq K] (entries : List (KafkaPipelineConfig × Nat))
    (key : KafkaPipelineConfig → K)
    (reason : KafkaPipelineConfig → List String → Reason) : List (Nat × Reason) :=
  entries.filterMap fun (entry, place) =>
    let others := agreeing entries key entry
    if 1 < others.length then
      some (place, reason entry (others.map fun other => displayName other.2 other.1))
    else none

/-- Rule 3: one namespace for both kinds. -/
def nameRule (kafka : List KafkaPipelineConfig) (delta : List PipelineConfig) : Conflicts :=
  let named := kafka.zipIdx.filter fun (entry, _) => !(trim entry.name).isEmpty
  let count := fun (name : String) =>
    (named.filter fun (entry, _) => entry.name == name).length +
      (delta.filter fun pipeline => pipeline.name == name).length
  { kafka := named.filterMap fun (entry, place) =>
      if 1 < count entry.name then
        some (place, .duplicateName entry.name (count entry.name))
      else none
    delta := delta.zipIdx.filterMap fun (pipeline, place) =>
      if named.any (fun (entry, _) => entry.name == pipeline.name) && 1 < count pipeline.name then
        some (place, .duplicateName pipeline.name (count pipeline.name))
      else none }

/-- Why a Kafka entry and a Delta pipeline cannot run together, if they cannot. -/
def crossRule (place : Nat) (entry : KafkaPipelineConfig) (pipeline : PipelineConfig) :
    Option Reason :=
  if tableKey pipeline.targetUri = tableKey (trim entry.targetUri) then
    some (.bothWrite (displayName place entry) pipeline.name (trim entry.targetUri))
  else if trim pipeline.appId = trim entry.appId ∧
      tableKey (dqOf pipeline.targetUri pipeline.dqUri) =
        tableKey (dqOf entry.targetUri entry.dqUri) then
    some (.bothReject (displayName place entry) pipeline.name
      (trim (dqOf entry.targetUri entry.dqUri)) (trim entry.appId))
  else none

/-- The rules between a Kafka entry and any other pipeline. -/
def conflicts (kafka : List KafkaPipelineConfig) (delta : List PipelineConfig) : Conflicts :=
  let names := nameRule kafka delta
  let entries := kafka.zipIdx.filter fun (entry, _) => comparable entry
  let crossed := entries.flatMap fun (entry, place) =>
    delta.zipIdx.filterMap fun (pipeline, other) =>
      (crossRule place entry pipeline).map fun reason => (place, other, reason)
  { kafka := names.kafka ++
      sharedRule entries (fun entry => (tableKey entry.targetUri, trim entry.appId))
        (fun entry => .sharedTarget (trim entry.appId)) ++
      sharedRule entries (fun entry => (tableKey (dqOf entry.targetUri entry.dqUri), trim entry.appId))
        (fun entry => .sharedRejects (trim entry.appId)) ++
      sharedRule entries (fun entry => (tableKey entry.targetUri, trim entry.topic))
        (fun entry => .sharedTopic (trim entry.topic)) ++
      crossed.map (fun (place, _, reason) => (place, reason)) ++
      (entries.filterMap fun (entry, place) =>
        if isStageUri (trim entry.targetUri) then
          some (place, .kafkaStage (trim entry.targetUri))
        else none) ++
      sharedRule entries groupOf (fun entry => .sharedGroup (groupOf entry))
    delta := names.delta ++ crossed.map fun (_, other, reason) => (other, reason) }

end Ddi.Resolver
