/-
Pipelines that run together: what each keeps clear of the others' tables and offsets, and how a
config must be written for the checks to see it.
-/

import Ddi.Config.Standing

namespace Ddi.Resolver

/-! ### Pipelines that keep clear of each other -/

/-- Two URIs of one table. -/
def SameTable (uri other : String) : Prop := tableKey uri = tableKey other

/-- A table that is a stage, however its URI is spelt. -/
def StageTable (uri : String) : Prop := isStageUri (tableKey uri) = true

/-- The txn keys a pipeline commits its offsets under. -/
def OffsetKey (pipeline : ResolvedPipeline) (key : String) : Prop :=
  match pipeline.kafka with
  | none => key = pipeline.appId
  | some _ => ∃ partition : Nat, key = pipeline.appId ++ "-" ++ toString partition

/-- A table the one reads and the other merges into is read by one that merges it on. -/
def ReadsApart (reader writer : ResolvedPipeline) : Prop :=
  reader.kafka = none → writer.writeMode.isUpsert = true →
    SameTable reader.sourceUri writer.targetUri →
      reader.changePolicy = .ignoreChanges ∧ reader.writeMode.isUpsert = true

structure Apart (checks : Checks) (config : Config) (resolved : Resolved) : Prop where
  offsets : resolved.pipelines.Pairwise fun one other =>
    SameTable one.targetUri other.targetUri → ∀ key, ¬ (OffsetKey one key ∧ OffsetKey other key)
  reads : resolved.pipelines.Pairwise fun one other => ReadsApart one other ∧ ReadsApart other one
  writesStage : resolved.pipelines.Pairwise fun one other =>
    ¬ (StageTable one.targetUri ∧ SameTable one.targetUri other.targetUri)
  /-- Who reads a stage is the other half of whoever writes it. -/
  readsStage : ∀ reader, reader ∈ resolved.pipelines → reader.kafka = none →
    StageTable reader.sourceUri → ∃ entry, entry ∈ config.pipelines ∧ splits entry = true ∧
      resolveOne checks config.defaults (applyHalf entry) = .ok reader ∧
      ∀ writer, writer ∈ resolved.pipelines → SameTable writer.targetUri reader.sourceUri →
        resolveOne checks config.defaults (ingestHalf entry) = .ok writer
  names : (resolved.pipelines.map (·.name)).Nodup
  delta : ∀ entry, entry ∈ expandStaged config.pipelines →
    (∃ pipeline, pipeline ∈ resolved.pipelines ∧
      resolveOne checks config.defaults entry = .ok pipeline) ∨
    ∃ rejection, rejection ∈ resolved.rejected ∧ rejection.name = entry.name
  kafka : ∀ entry place, (entry, place) ∈ config.kafka.zipIdx →
    (∃ pipeline, pipeline ∈ resolved.pipelines ∧
      resolveKafka checks config.defaults entry = .ok pipeline) ∨
    ∃ rejection, rejection ∈ resolved.rejected ∧ rejection.name = displayName place entry

/-! ### Configs the checks see through -/

section Recognition

variable (checks : Checks) (config : Config) (kafkaBuilt : Bool)

/-- An entry that nothing holds back, of either kind, and the table it writes. -/
def Writes (name targetUri : String) : Prop :=
  (∃ entry, Stands checks config entry ∧ entry.name = name ∧ entry.targetUri = targetUri) ∨
    ∃ entry place, KafkaStands checks config kafkaBuilt entry place ∧ entry.name = name ∧
      entry.targetUri = targetUri

/-- Tables that matter to two entries are written alike by both, and a stage is used by halves
alone, of entries whose names are not those of halves. -/
structure Recognised : Prop where
  /-- A table that one merges and another reads without merging on has one spelling. -/
  reads : ∀ reader writer, Stands checks config reader → Stands checks config writer →
    reader.name ≠ writer.name → writer.writeMode.isUpsert = true →
    SameTable reader.sourceUri writer.targetUri → readsMerges reader = false →
      reader.sourceUri = writer.targetUri
  /-- A stage that two write has one spelling, which shows it is one, and neither of the two
  is named as the other's other half. -/
  writesStage : ∀ one oneUri other otherUri, Writes checks config kafkaBuilt one oneUri →
    Writes checks config kafkaBuilt other otherUri → one ≠ other → StageTable oneUri →
    SameTable oneUri otherUri →
      oneUri = otherUri ∧ isStageUri oneUri = true ∧ one ≠ Stage.applyName (Stage.stem other) ∧
        other ≠ Stage.applyName (Stage.stem one)
  /-- A stage is read by the half of a split entry, in a spelling that shows it is one, and
  written in the same by ingest halves alone. -/
  readsStage : ∀ reader, Stands checks config reader → StageTable reader.sourceUri →
    isStageUri reader.sourceUri = true ∧
    (∃ entry, entry ∈ config.pipelines ∧ splits entry = true ∧
      (reader = ingestHalf entry ∨ reader = applyHalf entry)) ∧
    ∀ writer uri, Writes checks config kafkaBuilt writer uri → SameTable uri reader.sourceUri →
      uri = reader.sourceUri ∧ ∃ entry, entry ∈ config.pipelines ∧ splits entry = true ∧
        writer = Stage.ingestName entry.name ∧ Stage.stem entry.name = entry.name

end Recognition

/-! ### What runs -/

variable {checks : Checks} {config : Config} {kafkaBuilt : Bool} {resolved : Resolved}

/-- An entry that stands, and what it resolves to. -/
def Runs (checks : Checks) (config : Config) (kafkaBuilt : Bool) (pipeline : ResolvedPipeline) :
    Prop :=
  (∃ entry, Stands checks config entry ∧
    resolveOne checks config.defaults entry = .ok pipeline) ∨
  ∃ entry place, KafkaStands checks config kafkaBuilt entry place ∧
    resolveKafka checks config.defaults entry = .ok pipeline

theorem resolveDelta_ok {entry : PipelineConfig} {pipeline : ResolvedPipeline}
    (member : entry ∈ expandStaged config.pipelines) :
    resolveDelta checks config (expandStaged config.pipelines) entry = .ok pipeline ↔
      Stands checks config entry ∧ resolveOne checks config.defaults entry = .ok pipeline := by
  unfold resolveDelta
  constructor
  · intro runs
    split at runs
    · cases runs
    · rename_i spared
      split at runs
      · rename_i own resolves
        cases runs
        exact ⟨⟨member, spared, _, resolves⟩, resolves⟩
      · cases runs
  · rintro ⟨⟨_member, spared, _⟩, resolves⟩
    rw [spared]
    simp only [resolves]

theorem resolveEntry_ok {entry : KafkaPipelineConfig} {place : Nat} {pipeline : ResolvedPipeline}
    (member : (entry, place) ∈ config.kafka.zipIdx) :
    resolveEntry checks config (expandStaged config.pipelines) kafkaBuilt entry place = .ok pipeline ↔
      KafkaStands checks config kafkaBuilt entry place ∧
        resolveKafka checks config.defaults entry = .ok pipeline := by
  unfold resolveEntry
  constructor
  · intro runs
    cases spared : (conflicts config.kafka (expandStaged config.pipelines)).kafka.lookup place with
    | some reason =>
        simp only [spared] at runs
        cases runs
    | none =>
        simp only [spared] at runs
        cases resolves : resolveKafka checks config.defaults entry with
        | error reason =>
            simp only [resolves] at runs
            cases runs
        | ok own =>
            simp only [resolves] at runs
            cases kafkaBuilt with
            | false => cases runs
            | true =>
                cases runs
                exact ⟨⟨member, rfl, spared, _, resolves⟩, rfl⟩
  · rintro ⟨⟨_member, built, spared, _⟩, resolves⟩
    simp only [spared, resolves, built, if_true]

theorem mem_resolved (done : resolveAllWith checks config kafkaBuilt = some resolved)
    (pipeline : ResolvedPipeline) :
    pipeline ∈ resolved.pipelines ↔ Runs checks config kafkaBuilt pipeline := by
  unfold resolveAllWith at done
  split at done
  · cases done
  · cases done
    simp only [List.mem_filterMap, outcomes, List.mem_append, List.mem_map]
    constructor
    · rintro ⟨outcome, ⟨entry, member, rfl⟩ | ⟨⟨entry, place⟩, member, rfl⟩, kept⟩
      · left
        cases runs : resolveDelta checks config (expandStaged config.pipelines) entry with
        | error rejection => simp [runs] at kept
        | ok own =>
            simp only [runs, Option.some.injEq] at kept
            subst kept
            exact ⟨entry, (resolveDelta_ok member).mp runs⟩
      · right
        cases runs : resolveEntry checks config (expandStaged config.pipelines) kafkaBuilt entry place with
        | error rejection => simp [runs] at kept
        | ok own =>
            simp only [runs, Option.some.injEq] at kept
            subst kept
            exact ⟨entry, place, (resolveEntry_ok member).mp runs⟩
    · rintro (⟨entry, stands, resolves⟩ | ⟨entry, place, stands, resolves⟩)
      · exact ⟨_, Or.inl ⟨entry, stands.1, rfl⟩,
          by rw [(resolveDelta_ok stands.1).mpr ⟨stands, resolves⟩]⟩
      · exact ⟨_, Or.inr ⟨(entry, place), stands.1, rfl⟩,
          by rw [(resolveEntry_ok stands.1).mpr ⟨stands, resolves⟩]⟩

end Ddi.Resolver
