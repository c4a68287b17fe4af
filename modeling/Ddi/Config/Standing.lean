/-
What it takes for an entry to run: it is held back by no other entry, and by no check of its own.
-/

import Ddi.Config.Names
import Ddi.Config.Resolve

namespace Ddi.Resolver

variable {checks : Checks} {config : Config} {defaults : Defaults}

/-! ### What is resolved keeps of its entry -/

theorem bind_ok {ε α β : Type} {first : Except ε α} {next : α → Except ε β} {result : β}
    (done : (first >>= next) = .ok result) :
    ∃ value, first = .ok value ∧ next value = .ok result := by
  cases first with
  | error error => cases done
  | ok value => exact ⟨value, rfl, done⟩

theorem refuse_ok {reason : Option Reason} {value : Unit} (passed : refuse reason = .ok value) :
    reason = none := by
  cases reason with
  | none => rfl
  | some reason => cases passed

theorem of_refuse_if {refused : Prop} [Decidable refused] {reason : Reason} {value : Unit}
    (passed : refuse (if refused then some reason else none) = .ok value) : ¬ refused := by
  intro holds
  rw [if_pos holds] at passed
  cases passed

theorem resolveOne_semantics {entry : PipelineConfig} {resolved : ResolvedPipeline}
    (runs : resolveOne checks defaults entry = .ok resolved) :
    resolved.name = entry.name ∧ resolved.appId = entry.appId ∧
      resolved.sourceUri = entry.sourceUri ∧ resolved.targetUri = entry.targetUri ∧
      resolved.changePolicy = entry.changePolicy ∧ resolved.writeMode = entry.writeMode ∧
      resolved.kafka = none ∧ entry.sourceUri ≠ entry.targetUri := by
  unfold resolveOne at runs
  obtain ⟨_, _meta, runs⟩ := bind_ok runs
  obtain ⟨_, _appId, runs⟩ := bind_ok runs
  obtain ⟨_, apart, runs⟩ := bind_ok runs
  obtain ⟨lookups, _lookups, runs⟩ := bind_ok runs
  obtain ⟨sql, _sql, runs⟩ := bind_ok runs
  obtain ⟨_, _lookupsWithoutSql, runs⟩ := bind_ok runs
  obtain ⟨_, _staged, runs⟩ := bind_ok runs
  obtain ⟨_, _upsert, runs⟩ := bind_ok runs
  obtain ⟨_, _tiebreak, runs⟩ := bind_ok runs
  obtain ⟨_, _partition, runs⟩ := bind_ok runs
  obtain ⟨_, _lookback, runs⟩ := bind_ok runs
  obtain ⟨maxBytes, _maxBytes, runs⟩ := bind_ok runs
  obtain ⟨fileSize, _fileSize, runs⟩ := bind_ok runs
  cases runs
  exact ⟨rfl, rfl, rfl, rfl, rfl, rfl, rfl, of_refuse_if apart⟩

theorem comparable_of_missingKey {entry : KafkaPipelineConfig} (none_missing : missingKey entry = none) :
    comparable entry = true := by
  unfold missingKey at none_missing
  rw [Option.map_eq_none_iff, List.find?_eq_none] at none_missing
  unfold comparable
  rw [List.all_eq_true]
  intro value member
  simp only [List.mem_cons, List.not_mem_nil, or_false] at member
  have filled : ∀ key, (key, value) ∈ [("name", entry.name), ("app_id", entry.appId),
      ("topic", entry.topic), ("target_uri", entry.targetUri)] → (!(trim value).isEmpty) = true := by
    intro key among
    have present := none_missing (key, value) among
    simpa using present
  rcases member with rfl | rfl | rfl | rfl
  · exact filled "name" (by simp)
  · exact filled "app_id" (by simp)
  · exact filled "topic" (by simp)
  · exact filled "target_uri" (by simp)

theorem resolveKafka_semantics {entry : KafkaPipelineConfig} {resolved : ResolvedPipeline}
    (runs : resolveKafka checks defaults entry = .ok resolved) :
    resolved.name = entry.name ∧ resolved.appId = trim entry.appId ∧
      resolved.targetUri = entry.targetUri ∧ resolved.writeMode = .append ∧
      resolved.kafka ≠ none ∧ comparable entry = true := by
  unfold resolveKafka at runs
  obtain ⟨_, missing, runs⟩ := bind_ok runs
  obtain ⟨_, _topic, runs⟩ := bind_ok runs
  obtain ⟨_, _brokers, runs⟩ := bind_ok runs
  obtain ⟨_, _group, runs⟩ := bind_ok runs
  obtain ⟨_, _subject, runs⟩ := bind_ok runs
  obtain ⟨_, _dq, runs⟩ := bind_ok runs
  obtain ⟨_, _settings, runs⟩ := bind_ok runs
  obtain ⟨maxBytes, _maxBytes, runs⟩ := bind_ok runs
  obtain ⟨fileSize, _fileSize, runs⟩ := bind_ok runs
  obtain ⟨sql, _sql, runs⟩ := bind_ok runs
  cases runs
  exact ⟨rfl, rfl, rfl, rfl, by simp, comparable_of_missingKey (refuse_ok missing)⟩

/-! ### Standing entries -/

/-- No other entry and no check of its own holds the pipeline back. -/
def Stands (checks : Checks) (config : Config) (entry : PipelineConfig) : Prop :=
  entry ∈ expandStaged config.pipelines ∧
    (condemned config (expandStaged config.pipelines)).lookup entry.name = none ∧
    ∃ resolved, resolveOne checks config.defaults entry = .ok resolved

/-- The same of a Kafka entry, in a build that can run it. -/
def KafkaStands (checks : Checks) (config : Config) (kafkaBuilt : Bool)
    (entry : KafkaPipelineConfig) (place : Nat) : Prop :=
  (entry, place) ∈ config.kafka.zipIdx ∧ kafkaBuilt = true ∧
    (conflicts config.kafka (expandStaged config.pipelines)).kafka.lookup place = none ∧
    ∃ resolved, resolveKafka checks config.defaults entry = .ok resolved

theorem not_mem_of_lookup {K V : Type} [DecidableEq K] {entries : List (K × V)} {key : K}
    (absent : entries.lookup key = none) (value : V) : (key, value) ∉ entries := by
  intro member
  have apart := List.lookup_eq_none_iff.mp absent (key, value) member
  simp at apart

theorem two_among {α : Type} {first second : α} {items : List α} (one : first ∈ items)
    (other : second ∈ items) (apart : first ≠ second) : 1 < items.length := by
  cases items with
  | nil => cases one
  | cons head rest =>
      cases rest with
      | nil =>
          exact absurd ((List.mem_singleton.mp one).trans (List.mem_singleton.mp other).symm) apart
      | cons next rest => simp

theorem sharers_apart (key : PipelineConfig → String) {pipelines : List PipelineConfig}
    {reason : PipelineConfig → List PipelineConfig → Reason} {entry other : PipelineConfig}
    (spared : ∀ why, (entry.name, why) ∉ sharers pipelines key reason) (member : entry ∈ pipelines)
    (among : other ∈ pipelines) (same : key other = key entry) : other = entry := by
  by_contra apart
  have users : 1 < (pipelines.filter fun user => key user == key entry).length := by
    apply two_among (List.mem_filter.mpr ⟨among, by simpa using same⟩)
      (List.mem_filter.mpr ⟨member, by simp⟩) apart
  apply spared (reason entry (pipelines.filter fun user => key user == key entry))
  exact List.mem_filterMap.mpr ⟨entry, member, if_pos users⟩

section Standing

variable {entry other : PipelineConfig} (stands : Stands checks config entry)
include stands

theorem Stands.spared (why : Reason) :
    (entry.name, why) ∉ condemned config (expandStaged config.pipelines) :=
  not_mem_of_lookup stands.2.1 why

theorem Stands.name_apart (among : other ∈ expandStaged config.pipelines)
    (same : other.name = entry.name) : other = entry := by
  apply sharers_apart (·.name) _ stands.1 among same
  · exact fun pipeline users => .duplicateName pipeline.name users.length
  · intro why member
    apply stands.spared why
    unfold condemned
    simp only [List.mem_append]
    exact Or.inl (Or.inl (Or.inl (Or.inr member)))

theorem Stands.appId_apart (among : other ∈ expandStaged config.pipelines)
    (same : trim other.appId = trim entry.appId) : other = entry := by
  apply sharers_apart (fun pipeline => trim pipeline.appId) _ stands.1 among same
  · exact fun pipeline users => .duplicateAppId (trim pipeline.appId)
      ((users.map (·.name)).filter fun name => name != pipeline.name)
  · intro why member
    apply stands.spared why
    unfold condemned
    simp only [List.mem_append]
    exact Or.inl (Or.inl (Or.inl (Or.inl member)))

/-- What another pipeline merges under the same URI, a standing one can read. -/
theorem Stands.reads_merges (among : other ∈ expandStaged config.pipelines)
    (merges : other.writeMode.isUpsert = true) (reads : entry.sourceUri = other.targetUri) :
    readsMerges entry = true := by
  by_contra cannot
  apply stands.spared (.cascade other.targetUri other.name entry.changePolicy)
  unfold condemned
  simp only [List.mem_append]
  refine Or.inl (Or.inl (Or.inr ?_))
  apply List.mem_flatMap.mpr
  refine ⟨other, List.mem_filter.mpr ⟨among, merges⟩, ?_⟩
  apply List.mem_filterMap.mpr
  exact ⟨entry, List.mem_filter.mpr ⟨stands.1, by simpa using reads⟩, if_neg cannot⟩

/-- A stage, as a standing pipeline writes its URI, is its own or that of its other half. -/
theorem Stands.mines {uri which : String} (stage : isStageUri uri = true)
    (used : (uri, which) ∈ [(entry.sourceUri, "reads"), (entry.targetUri, "writes to")]) :
    minesStage (expandStaged config.pipelines) entry uri = true := by
  by_contra foreign
  apply stands.spared (.stage which uri)
  unfold condemned
  simp only [List.mem_append]
  refine Or.inl (Or.inr ?_)
  apply List.mem_flatMap.mpr
  refine ⟨entry, stands.1, ?_⟩
  apply List.mem_filterMap.mpr
  refine ⟨(uri, which), used, ?_⟩
  simp only [stage, Bool.true_and]
  exact if_pos (by simpa using foreign)

theorem Stands.kafka_apart {kafka : KafkaPipelineConfig} {place : Nat}
    (member : (kafka, place) ∈ config.kafka.zipIdx) (compares : comparable kafka = true) :
    crossRule place kafka entry = none := by
  cases crosses : crossRule place kafka entry with
  | none => rfl
  | some reason =>
      exfalso
      obtain ⟨index, found⟩ := List.mem_iff_getElem?.mp stands.1
      apply stands.spared reason
      unfold condemned
      simp only [List.mem_append]
      refine Or.inr (List.mem_filterMap.mpr ⟨(index, reason), ?_, by simp [found]⟩)
      unfold conflicts
      simp only [List.mem_append, List.mem_map]
      refine Or.inr ⟨(place, index, reason), ?_, rfl⟩
      apply List.mem_flatMap.mpr
      refine ⟨(kafka, place), List.mem_filter.mpr ⟨member, compares⟩, ?_⟩
      apply List.mem_filterMap.mpr
      refine ⟨(entry, index), List.mem_zipIdx_iff_getElem?.mpr found, ?_⟩
      simp [crosses]

end Standing

section KafkaStanding

variable {kafkaBuilt : Bool} {entry other : KafkaPipelineConfig} {place elsewhere : Nat}

theorem sharedRule_apart {K : Type} [DecidableEq K] (key : KafkaPipelineConfig → K)
    {entries : List (KafkaPipelineConfig × Nat)}
    {reason : KafkaPipelineConfig → List String → Reason}
    (spared : ∀ why, (place, why) ∉ sharedRule entries key reason) (member : (entry, place) ∈ entries)
    (among : (other, elsewhere) ∈ entries) (same : key other = key entry) :
    (other, elsewhere) = (entry, place) := by
  by_contra apart
  have users : 1 < (agreeing entries key entry).length := by
    apply two_among (List.mem_filter.mpr ⟨among, by simpa using same⟩)
      (List.mem_filter.mpr ⟨member, by simp⟩) apart
  apply spared (reason entry
    ((agreeing entries key entry).map fun other => displayName other.2 other.1))
  exact List.mem_filterMap.mpr ⟨(entry, place), member, if_pos users⟩

variable (stands : KafkaStands checks config kafkaBuilt entry place)
include stands

theorem KafkaStands.spared (why : Reason) :
    (place, why) ∉ (conflicts config.kafka (expandStaged config.pipelines)).kafka :=
  not_mem_of_lookup stands.2.2.1 why

theorem KafkaStands.comparable : comparable entry = true := by
  obtain ⟨_member, _built, _spared, resolved, runs⟩ := stands
  exact (resolveKafka_semantics runs).2.2.2.2.2

theorem KafkaStands.among_comparable :
    (entry, place) ∈ config.kafka.zipIdx.filter fun (entry, _) => Resolver.comparable entry :=
  List.mem_filter.mpr ⟨stands.1, stands.comparable⟩

/-- No other entry with all its keys writes the same table under the same app id. -/
theorem KafkaStands.offset_apart (among : (other, elsewhere) ∈ config.kafka.zipIdx)
    (compares : Resolver.comparable other = true)
    (table : tableKey other.targetUri = tableKey entry.targetUri)
    (appId : trim other.appId = trim entry.appId) : (other, elsewhere) = (entry, place) := by
  apply sharedRule_apart (fun entry => (tableKey entry.targetUri, trim entry.appId)) _
    stands.among_comparable (List.mem_filter.mpr ⟨among, compares⟩) (by rw [table, appId])
  · exact fun entry => .sharedTarget (trim entry.appId)
  · intro why member
    apply stands.spared why
    unfold conflicts
    simp only [List.mem_append]
    exact Or.inl (Or.inl (Or.inl (Or.inl (Or.inl (Or.inr member)))))

/-- A Kafka entry that stands does not write a stage, as its target is written. -/
theorem KafkaStands.no_stage : isStageUri entry.targetUri = false := by
  by_contra stage
  apply stands.spared (.kafkaStage (trim entry.targetUri))
  unfold conflicts
  simp only [List.mem_append]
  refine Or.inl (Or.inr ?_)
  apply List.mem_filterMap.mpr
  refine ⟨(entry, place), stands.among_comparable, ?_⟩
  exact if_pos (isStageUri_trim (by simpa using stage))

theorem KafkaStands.delta_apart {pipeline : PipelineConfig}
    (among : pipeline ∈ expandStaged config.pipelines) : crossRule place entry pipeline = none := by
  cases crosses : crossRule place entry pipeline with
  | none => rfl
  | some reason =>
      exfalso
      obtain ⟨index, found⟩ := List.mem_iff_getElem?.mp among
      apply stands.spared reason
      unfold conflicts
      simp only [List.mem_append]
      refine Or.inl (Or.inl (Or.inr ?_))
      apply List.mem_map.mpr
      refine ⟨(place, index, reason), ?_, rfl⟩
      apply List.mem_flatMap.mpr
      refine ⟨(entry, place), stands.among_comparable, ?_⟩
      apply List.mem_filterMap.mpr
      refine ⟨(pipeline, index), List.mem_zipIdx_iff_getElem?.mpr found, ?_⟩
      simp [crosses]

end KafkaStanding

/-! ### Names -/

/-- The Kafka entries that have a name, with their places. -/
def named (kafka : List KafkaPipelineConfig) : List (KafkaPipelineConfig × Nat) :=
  kafka.zipIdx.filter fun (entry, _) => !(trim entry.name).isEmpty

/-- The names in use, each as often as it is. -/
def namesInUse (config : Config) : List String :=
  (expandStaged config.pipelines).map (·.name) ++ (named config.kafka).map (·.1.name)

theorem count_name {α : Type} (items : List α) (name : α → String) (wanted : String) :
    (items.map name).count wanted = (items.filter fun item => name item == wanted).length := by
  rw [List.count, List.countP_map, List.countP_eq_length_filter]
  rfl

theorem count_namesInUse (config : Config) (name : String) :
    (namesInUse config).count name =
      ((named config.kafka).filter fun (entry, _) => entry.name == name).length +
        ((expandStaged config.pipelines).filter fun pipeline => pipeline.name == name).length := by
  unfold namesInUse
  rw [List.count_append, count_name, count_name]
  exact Nat.add_comm _ _

theorem nameRule_delta {kafka : List KafkaPipelineConfig} {delta : List PipelineConfig}
    {pipeline : PipelineConfig} {index : Nat} (found : delta[index]? = some pipeline)
    (shared : (named kafka).any (fun (entry, _) => entry.name == pipeline.name) = true)
    (often : 1 < ((named kafka).filter fun (entry, _) => entry.name == pipeline.name).length +
      (delta.filter fun other => other.name == pipeline.name).length) :
    ∃ why, (index, why) ∈ (nameRule kafka delta).delta := by
  refine ⟨.duplicateName pipeline.name
    (((named kafka).filter fun (entry, _) => entry.name == pipeline.name).length +
      (delta.filter fun other => other.name == pipeline.name).length), ?_⟩
  apply List.mem_filterMap.mpr
  refine ⟨(pipeline, index), List.mem_zipIdx_iff_getElem?.mpr found, ?_⟩
  have holds : ((named kafka).any (fun (entry, _) => entry.name == pipeline.name) &&
      decide (1 < ((named kafka).filter fun (entry, _) => entry.name == pipeline.name).length +
        (delta.filter fun other => other.name == pipeline.name).length)) = true := by
    rw [shared, decide_eq_true often]
    rfl
  exact if_pos holds

theorem nameRule_kafka {kafka : List KafkaPipelineConfig} {delta : List PipelineConfig}
    {entry : KafkaPipelineConfig} {place : Nat} (member : (entry, place) ∈ named kafka)
    (often : 1 < ((named kafka).filter fun (other, _) => other.name == entry.name).length +
      (delta.filter fun other => other.name == entry.name).length) :
    ∃ why, (place, why) ∈ (nameRule kafka delta).kafka :=
  ⟨.duplicateName entry.name
    (((named kafka).filter fun (other, _) => other.name == entry.name).length +
      (delta.filter fun other => other.name == entry.name).length),
    List.mem_filterMap.mpr ⟨(entry, place), member, if_pos often⟩⟩

theorem Stands.name_once {entry : PipelineConfig} (stands : Stands checks config entry) :
    (namesInUse config).count entry.name ≤ 1 := by
  by_contra often
  rw [count_namesInUse, Nat.not_le] at often
  by_cases shared : (named config.kafka).any (fun (kafka, _) => kafka.name == entry.name) = true
  · obtain ⟨index, found⟩ := List.mem_iff_getElem?.mp stands.1
    obtain ⟨why, condemns⟩ := nameRule_delta found shared often
    apply stands.spared why
    unfold condemned
    simp only [List.mem_append]
    refine Or.inr (List.mem_filterMap.mpr ⟨(index, why), ?_, by simp [found]⟩)
    unfold conflicts
    exact List.mem_append_left _ condemns
  · have none_kafka : (named config.kafka).filter (fun (kafka, _) => kafka.name == entry.name) = [] := by
      rw [List.filter_eq_nil_iff]
      intro kafka member own
      exact shared (List.any_eq_true.mpr ⟨kafka, member, own⟩)
    rw [none_kafka, List.length_nil, Nat.zero_add] at often
    apply stands.spared (.duplicateName entry.name
      ((expandStaged config.pipelines).filter fun pipeline => pipeline.name == entry.name).length)
    unfold condemned
    simp only [List.mem_append]
    refine Or.inl (Or.inl (Or.inl (Or.inr ?_)))
    exact List.mem_filterMap.mpr ⟨entry, stands.1, if_pos often⟩

theorem KafkaStands.named {kafkaBuilt : Bool} {entry : KafkaPipelineConfig} {place : Nat}
    (stands : KafkaStands checks config kafkaBuilt entry place) :
    (entry, place) ∈ Resolver.named config.kafka := by
  apply List.mem_filter.mpr
  refine ⟨stands.1, ?_⟩
  have compares := stands.comparable
  unfold Resolver.comparable at compares
  exact List.all_eq_true.mp compares entry.name List.mem_cons_self

theorem KafkaStands.name_once {kafkaBuilt : Bool} {entry : KafkaPipelineConfig} {place : Nat}
    (stands : KafkaStands checks config kafkaBuilt entry place) :
    (namesInUse config).count entry.name ≤ 1 := by
  by_contra often
  rw [count_namesInUse, Nat.not_le] at often
  obtain ⟨why, condemns⟩ := nameRule_kafka stands.named often
  apply stands.spared why
  unfold conflicts
  simp only [List.mem_append]
  exact Or.inl (Or.inl (Or.inl (Or.inl (Or.inl (Or.inl condemns)))))

end Ddi.Resolver
