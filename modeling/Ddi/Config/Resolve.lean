/-
What a config amounts to: the pipelines that will run, and the ones held back.

The SQL validator, the parsers of sizes and durations and the rules a Kafka entry's own settings
keep are arguments.
-/

import Ddi.Config.Entries

namespace Ddi.Resolver

open Ddi.Source (ChangePolicy)

/-- The checks of one entry that are made elsewhere. -/
structure Checks where
  /-- The transform in the engine's own SQL, over these lookups. -/
  normaliseSql : String → List String → Except String String
  parseSize : String → Option Nat
  parseLookback : String → Except String Unit
  /-- What else holds a Kafka entry back: its registry, its settings, its limits. -/
  kafkaSettings : KafkaPipelineConfig → Option String

structure Defaults where
  allowedLatencySecs : Nat
  maxBytesPerBatch : String
  targetFileSize : String
  brokers : Option String
  deriving DecidableEq

structure Config where
  pipelines : List PipelineConfig := []
  kafka : List KafkaPipelineConfig := []
  defaults : Defaults

structure ResolvedPipeline where
  name : String
  appId : String
  sourceUri : String
  targetUri : String
  lookups : List LookupConfig
  startingVersion : Nat
  changePolicy : ChangePolicy
  transformSql : Option String
  allowedLatencySecs : Nat
  maxBytesPerBatch : Nat
  targetFileSize : Nat
  writeMode : WriteMode
  upsertKey : Option String
  stageFor : Option String
  dqUri : Option String
  /-- The topic of a Kafka pipeline, and its consumer group. -/
  kafka : Option (String × String)

structure Rejection where
  name : String
  reason : Reason

structure Resolved where
  pipelines : List ResolvedPipeline
  rejected : List Rejection

variable (checks : Checks)

def isNameStart (character : Char) : Bool := character.isAlpha || character == '_'

/-- A lookup's name: a lowercase SQL identifier that is not `source`. -/
def validLookupName (name : String) : Bool :=
  match name.toList with
  | [] => false
  | first :: rest =>
      name != "source" && name.toList == name.toList.map Char.toLower && isNameStart first &&
        rest.all fun character => character.isAlphanum || character == '_'

/-- The lookups of an entry, each with its name trimmed. -/
def resolveLookups (entry : PipelineConfig) :
    List String → List LookupConfig → Except Reason (List LookupConfig)
  | _, [] => .ok []
  | seen, lookup :: lookups =>
      let name := trim lookup.name
      if validLookupName name = false then
        .error (.lookup lookup.name "must be a lowercase SQL identifier and must not be \"source\"")
      else if (trim lookup.uri).isEmpty then .error (.lookup name "has an empty uri")
      else if name ∈ seen then .error (.lookupTwice name)
      else if lookup.uri = entry.sourceUri ∨ lookup.uri = entry.targetUri then
        .error (.lookupAtOwnTable name)
      else (resolveLookups entry (name :: seen) lookups).map ({ lookup with name } :: ·)

def resolveSql (sql : Option String) (lookups : List String) : Except Reason (Option String) :=
  match sql with
  | none => .ok none
  | some sql =>
      match checks.normaliseSql sql lookups with
      | .ok sql => .ok (some sql)
      | .error problem => .error (.sql problem)

/-- What an entry's write mode asks of its merge settings. -/
def upsertProblem (entry : PipelineConfig) : Option Reason :=
  if entry.writeMode.isUpsert then
    if (entry.upsertKey.or entry.dedupKey).isNone then some .upsertNeedsKey
    else if entry.dedupTimestamp.isNone then some .upsertNeedsTimestamp
    else none
  else if entry.upsertKey.isSome ∨ entry.upsertLookback.isSome ∨ entry.upsertTiebreak ≠ [] then
    some .upsertKeysOnAppend
  else none

def tiebreakProblem (entry : PipelineConfig) : List String → List String → Option Reason
  | _, [] => none
  | seen, column :: columns =>
      if (trim column).isEmpty then some .tiebreakEmpty
      else if some column = entry.dedupTimestamp then some (.tiebreakIsTimestamp column)
      else if column ∈ seen then some (.tiebreakTwice column)
      else tiebreakProblem entry (column :: seen) columns

def lookbackProblem (entry : PipelineConfig) : Option Reason :=
  match entry.upsertLookback.map checks.parseLookback with
  | some (.error problem) => some (.lookback problem)
  | _ => none

def sized (field written : String) : Except Reason Nat :=
  match checks.parseSize written with
  | some size => .ok size
  | none => .error (.size field written)

def refuse : Option Reason → Except Reason Unit
  | some reason => .error reason
  | none => .ok ()

/-- One pipeline, with defaults folded in and every value parsed. -/
def resolveOne (defaults : Defaults) (entry : PipelineConfig) : Except Reason ResolvedPipeline := do
  refuse (entry.metaProblem.map .meta_)
  refuse (if (trim entry.appId).isEmpty then some .emptyAppId else none)
  refuse (if entry.sourceUri = entry.targetUri then some .sameTable else none)
  let lookups ← resolveLookups entry [] entry.lookups
  let transformSql ← resolveSql checks entry.transformSql (lookups.map (·.name))
  refuse (if lookups ≠ [] ∧ transformSql.isNone then some .lookupsWithoutSql else none)
  -- Only reachable when the entry could not be split.
  refuse (if entry.writeMode.isStaged then some ((stagedProblem entry).getD .unsplit) else none)
  refuse (upsertProblem entry)
  refuse (tiebreakProblem entry [] entry.upsertTiebreak)
  refuse (dedupPartitionProblem entry)
  refuse (lookbackProblem checks entry)
  let maxBytesPerBatch ← sized checks "max_bytes_per_batch"
    (entry.maxBytesPerBatch.getD defaults.maxBytesPerBatch)
  let targetFileSize ← sized checks "target_file_size"
    (entry.targetFileSize.getD defaults.targetFileSize)
  return {
    name := entry.name
    appId := entry.appId
    sourceUri := entry.sourceUri
    targetUri := entry.targetUri
    lookups
    startingVersion := entry.startingVersion
    changePolicy := entry.changePolicy
    transformSql
    allowedLatencySecs := entry.allowedLatencySecs.getD defaults.allowedLatencySecs
    maxBytesPerBatch
    targetFileSize
    writeMode := entry.writeMode
    upsertKey := entry.upsertKey.or entry.dedupKey
    stageFor := entry.stageFor
    dqUri := entry.dqUri
    kafka := none }

/-- A topic name Kafka would create. -/
def validTopic (topic : String) : Bool :=
  1 ≤ topic.utf8ByteSize && topic.utf8ByteSize ≤ 249 && topic != "." && topic != ".." &&
    topic.toList.all fun character =>
      character.isAlphanum || character == '.' || character == '_' || character == '-'

/-- The first of a Kafka entry's required keys that is empty. -/
def missingKey (entry : KafkaPipelineConfig) : Option Reason :=
  ([("name", entry.name), ("app_id", entry.appId), ("topic", entry.topic),
    ("target_uri", entry.targetUri)].find? fun (_, value) => (trim value).isEmpty).map
      fun (key, _) => .required key

def blank (value : Option String) : Bool :=
  match value with
  | some value => (trim value).isEmpty
  | none => false

/-- One Kafka entry, checked against every rule it can break on its own. -/
def resolveKafka (defaults : Defaults) (entry : KafkaPipelineConfig) :
    Except Reason ResolvedPipeline := do
  refuse (missingKey entry)
  let topic := trim entry.topic
  refuse (if validTopic topic then none else some (.topic topic))
  refuse (if (trim ((entry.brokers.or defaults.brokers).getD "")).isEmpty then some .brokers else none)
  refuse (if (trim (groupOf entry)).isEmpty then some .emptyGroupId else none)
  refuse (if blank entry.subject then some .emptySubject else none)
  refuse (if blank entry.dqUri then some .emptyDqUri else none)
  refuse ((checks.kafkaSettings entry).map .kafkaSettings)
  let maxBytesPerBatch ← sized checks "max_bytes_per_batch" defaults.maxBytesPerBatch
  let targetFileSize ← sized checks "target_file_size" defaults.targetFileSize
  let transformSql ← resolveSql checks entry.transformSql []
  return {
    name := entry.name
    appId := trim entry.appId
    -- Logs only: nothing opens it.
    sourceUri := "kafka://" ++ topic
    targetUri := entry.targetUri
    lookups := []
    startingVersion := 0
    changePolicy := .fail
    transformSql
    allowedLatencySecs := defaults.allowedLatencySecs
    maxBytesPerBatch
    targetFileSize
    writeMode := .append
    upsertKey := none
    stageFor := none
    dqUri := entry.dqUri
    kafka := some (topic, groupOf entry) }

/-- Why each name is held back by another entry, the first reason first. -/
def condemned (config : Config) (pipelines : List PipelineConfig) : List Condemned :=
  duplicateAppIds pipelines ++ duplicateNames pipelines ++ cascadeConflicts pipelines ++
    stageConflicts pipelines ++
    (conflicts config.kafka pipelines).delta.filterMap fun (place, reason) =>
      (pipelines[place]?).map fun pipeline => (pipeline.name, reason)

/-- One outcome for each entry: what it resolves to, or why it does not run. -/
def resolveDelta (config : Config) (pipelines : List PipelineConfig) (entry : PipelineConfig) :
    Except Rejection ResolvedPipeline :=
  match (condemned config pipelines).lookup entry.name with
  | some reason => .error ⟨entry.name, reason⟩
  | none =>
      match resolveOne checks config.defaults entry with
      | .ok resolved => .ok resolved
      | .error reason => .error ⟨entry.name, reason⟩

def resolveEntry (config : Config) (pipelines : List PipelineConfig) (kafkaBuilt : Bool)
    (entry : KafkaPipelineConfig) (place : Nat) : Except Rejection ResolvedPipeline :=
  let outcome : Except Reason ResolvedPipeline :=
    match (conflicts config.kafka pipelines).kafka.lookup place with
    | some reason => .error reason
    | none => resolveKafka checks config.defaults entry
  match outcome with
  | .error reason =>
      .error ⟨displayName place entry, if kafkaBuilt then reason else .notBuilt (some reason)⟩
  | .ok resolved =>
      if kafkaBuilt then .ok resolved else .error ⟨displayName place entry, .notBuilt none⟩

def outcomes (config : Config) (kafkaBuilt : Bool) : List (Except Rejection ResolvedPipeline) :=
  let pipelines := expandStaged config.pipelines
  pipelines.map (resolveDelta checks config pipelines) ++
    config.kafka.zipIdx.map fun (entry, place) =>
      resolveEntry checks config pipelines kafkaBuilt entry place

/-- Every pipeline that can run, and every one that cannot with the reason. Fails when there is
nothing to run at all. -/
def resolveAllWith (config : Config) (kafkaBuilt : Bool) : Option Resolved :=
  if config.pipelines.isEmpty && config.kafka.isEmpty then none
  else
    let outcomes := outcomes checks config kafkaBuilt
    some {
      pipelines := outcomes.filterMap fun outcome =>
        match outcome with
        | .ok resolved => some resolved
        | .error _ => none
      rejected := outcomes.filterMap fun outcome =>
        match outcome with
        | .ok _ => none
        | .error rejection => some rejection }

end Ddi.Resolver
