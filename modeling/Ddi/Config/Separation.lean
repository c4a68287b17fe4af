/-
The pipelines of a config keep clear of each other exactly when the config is written so that the
checks recognise its tables.
-/

import Ddi.Config.Apart
import Mathlib.Data.List.DropRight
import Mathlib.Data.List.Nodup
import Mathlib.Data.List.Pairwise

namespace Ddi.Resolver

variable {checks : Checks} {config : Config} {kafkaBuilt : Bool} {resolved : Resolved}

/-! ### Trimming -/

theorem trimChars_trimChars (text : List Char) : trimChars (trimChars text) = trimChars text := by
  have front : (trimChars text).dropWhile isWhiteSpace = trimChars text := by
    rw [List.dropWhile_eq_self_iff]
    intro long
    have within : trimChars text <+: text.dropWhile isWhiteSpace :=
      List.rdropWhile_prefix isWhiteSpace _
    obtain ⟨tail, whole⟩ := within
    have longer : 0 < (text.dropWhile isWhiteSpace).length := by
      rw [← whole, List.length_append]
      omega
    have stays := List.dropWhile_get_zero_not isWhiteSpace text longer
    have same : (text.dropWhile isWhiteSpace)[0] = (trimChars text)[0] := by
      simp only [← whole]
      exact List.getElem_append_left long
    rw [← same]
    exact stays
  unfold trimChars at front ⊢
  rw [front]
  exact List.rdropWhile_idempotent isWhiteSpace _

theorem tableKey_trim (uri : String) : tableKey (trim uri) = tableKey uri := by
  unfold tableKey trim
  rw [String.toList_ofList, trimChars_trimChars]

/-! ### Pipelines that run, by name -/

theorem kept_sublist {α β : Type} {keep : α → Option β} {name : β → String} {key : α → String}
    {wanted : α → Bool} (items : List α)
    (keeps : ∀ item, item ∈ items → ∀ kept, keep item = some kept →
      name kept = key item ∧ wanted item = true) :
    ((items.filterMap keep).map name).Sublist ((items.filter wanted).map key) := by
  induction items with
  | nil => exact List.Sublist.refl []
  | cons item items ih =>
      have rest := ih fun other among => keeps other (List.mem_cons_of_mem item among)
      cases kept : keep item with
      | none =>
          rw [List.filterMap_cons_none kept]
          cases wanted_eq : wanted item with
          | false => rwa [List.filter_cons_of_neg (by simp [wanted_eq])]
          | true =>
              rw [List.filter_cons_of_pos wanted_eq, List.map_cons]
              exact rest.cons _
      | some value =>
          obtain ⟨named, wants⟩ := keeps item List.mem_cons_self value kept
          rw [List.filterMap_cons_some kept, List.filter_cons_of_pos wants, List.map_cons,
            List.map_cons, named]
          exact rest.cons_cons _

theorem Runs.count_name {pipeline : ResolvedPipeline} (runs : Runs checks config kafkaBuilt pipeline) :
    (namesInUse config).count pipeline.name ≤ 1 := by
  rcases runs with ⟨entry, stands, resolves⟩ | ⟨entry, place, stands, resolves⟩
  · rw [(resolveOne_semantics resolves).1]
    exact stands.name_once
  · rw [(resolveKafka_semantics resolves).1]
    exact stands.name_once

theorem resolved_names_sublist (done : resolveAllWith checks config kafkaBuilt = some resolved) :
    (resolved.pipelines.map (·.name)).Sublist (namesInUse config) := by
  unfold resolveAllWith at done
  split at done
  · cases done
  · cases done
    unfold outcomes namesInUse
    simp only [List.filterMap_append, List.map_append, List.filterMap_map]
    apply List.Sublist.append
    · have all : (expandStaged config.pipelines).filter (fun _ => true) =
          expandStaged config.pipelines := List.filter_eq_self.mpr fun _ _ => rfl
      conv => rhs; rw [← all]
      apply kept_sublist
      intro entry member kept keeps
      cases runs : resolveDelta checks config (expandStaged config.pipelines) entry with
      | error rejection => simp [runs] at keeps
      | ok own =>
          simp only [Function.comp_apply, runs, Option.some.injEq] at keeps
          subst keeps
          exact ⟨(resolveOne_semantics ((resolveDelta_ok member).mp runs).2).1, rfl⟩
    · apply kept_sublist
      rintro ⟨entry, place⟩ member kept keeps
      cases runs : resolveEntry checks config (expandStaged config.pipelines) kafkaBuilt entry place with
      | error rejection => simp [runs] at keeps
      | ok own =>
          simp only [Function.comp_apply, runs, Option.some.injEq] at keeps
          subst keeps
          obtain ⟨stands, resolves⟩ := (resolveEntry_ok member).mp runs
          exact ⟨(resolveKafka_semantics resolves).1, (List.mem_filter.mp stands.named).2⟩

theorem resolved_names_nodup (done : resolveAllWith checks config kafkaBuilt = some resolved) :
    (resolved.pipelines.map (·.name)).Nodup := by
  rw [List.nodup_iff_count_le_one]
  intro name
  by_cases used : name ∈ resolved.pipelines.map (·.name)
  · obtain ⟨pipeline, member, rfl⟩ := List.mem_map.mp used
    have once := ((mem_resolved done pipeline).mp member).count_name
    exact Nat.le_trans ((resolved_names_sublist done).count_le _) once
  · rw [List.count_eq_zero_of_not_mem used]
    exact Nat.zero_le 1

theorem resolved_pairwise (done : resolveAllWith checks config kafkaBuilt = some resolved)
    {R : ResolvedPipeline → ResolvedPipeline → Prop} (symmetric : ∀ one other, R one other → R other one) :
    resolved.pipelines.Pairwise R ↔
      ∀ one other, Runs checks config kafkaBuilt one → Runs checks config kafkaBuilt other →
        one.name ≠ other.name → R one other := by
  constructor
  · intro pairs one other runs runs' names
    have among := (mem_resolved done one).mpr runs
    have among' := (mem_resolved done other).mpr runs'
    have symm : Std.Symm R := ⟨symmetric⟩
    apply List.Pairwise.forall pairs among among'
    intro same
    exact names (congrArg ResolvedPipeline.name same)
  · intro holds
    have names : resolved.pipelines.Pairwise fun one other => one.name ≠ other.name :=
      List.pairwise_map.mp (resolved_names_nodup done)
    apply names.imp_of_mem
    intro one other member member' names
    exact holds one other ((mem_resolved done one).mp member) ((mem_resolved done other).mp member') names

theorem Runs.writes {pipeline : ResolvedPipeline} (runs : Runs checks config kafkaBuilt pipeline) :
    Writes checks config kafkaBuilt pipeline.name pipeline.targetUri := by
  rcases runs with ⟨entry, stands, resolves⟩ | ⟨entry, place, stands, resolves⟩
  · obtain ⟨name, _appId, _source, target, _⟩ := resolveOne_semantics resolves
    exact Or.inl ⟨entry, stands, name.symm, target.symm⟩
  · obtain ⟨name, _appId, target, _⟩ := resolveKafka_semantics resolves
    exact Or.inr ⟨entry, place, stands, name.symm, target.symm⟩

theorem Writes.runs {name uri : String} (writes : Writes checks config kafkaBuilt name uri) :
    ∃ pipeline, Runs checks config kafkaBuilt pipeline ∧ pipeline.name = name ∧
      pipeline.targetUri = uri := by
  rcases writes with ⟨entry, stands, rfl, rfl⟩ | ⟨entry, place, stands, rfl, rfl⟩
  · obtain ⟨pipeline, resolves⟩ := stands.2.2
    obtain ⟨name, _appId, _source, target, _⟩ := resolveOne_semantics resolves
    exact ⟨pipeline, Or.inl ⟨entry, stands, resolves⟩, name, target⟩
  · obtain ⟨pipeline, resolves⟩ := stands.2.2.2
    obtain ⟨name, _appId, target, _⟩ := resolveKafka_semantics resolves
    exact ⟨pipeline, Or.inr ⟨entry, place, stands, resolves⟩, name, target⟩

theorem Writes.stands_of_stage {name uri : String} (writes : Writes checks config kafkaBuilt name uri)
    (stage : isStageUri uri = true) :
    ∃ entry, Stands checks config entry ∧ entry.name = name ∧ entry.targetUri = uri := by
  rcases writes with delta | ⟨entry, place, stands, _name, target⟩
  · exact delta
  · rw [← target, stands.no_stage] at stage
    cases stage

theorem Runs.stands_of_delta {pipeline : ResolvedPipeline}
    (runs : Runs checks config kafkaBuilt pipeline) (delta : pipeline.kafka = none) :
    ∃ entry, Stands checks config entry ∧
      resolveOne checks config.defaults entry = .ok pipeline := by
  rcases runs with stands | ⟨entry, place, _stands, resolves⟩
  · exact stands
  · exact absurd delta (resolveKafka_semantics resolves).2.2.2.2.1

/-! ### Offsets -/

theorem Runs.offsets {one other : ResolvedPipeline} (runs : Runs checks config kafkaBuilt one)
    (runs' : Runs checks config kafkaBuilt other) (names : one.name ≠ other.name)
    (table : SameTable one.targetUri other.targetUri) (key : String) :
    ¬ (OffsetKey one key ∧ OffsetKey other key) := by
  unfold SameTable at table
  -- Between a Delta and a Kafka pipeline the table alone decides.
  have mixed : ∀ {entry kafka place}, Stands checks config entry →
      KafkaStands checks config kafkaBuilt kafka place →
      tableKey entry.targetUri ≠ tableKey kafka.targetUri := by
    intro entry kafka place stands kafka_stands same
    have crosses := stands.kafka_apart kafka_stands.1 kafka_stands.comparable
    unfold crossRule at crosses
    rw [if_pos (by rw [tableKey_trim, same])] at crosses
    cases crosses
  rcases runs with ⟨entry, stands, resolves⟩ | ⟨entry, place, stands, resolves⟩ <;>
    rcases runs' with ⟨entry', stands', resolves'⟩ | ⟨entry', place', stands', resolves'⟩
  · obtain ⟨name, appId, _source, _target, _policy, _mode, delta, _⟩ := resolveOne_semantics resolves
    obtain ⟨name', appId', _source', _target', _policy', _mode', delta', _⟩ :=
      resolveOne_semantics resolves'
    rintro ⟨own, own'⟩
    simp only [OffsetKey, delta, delta'] at own own'
    have same : entry.appId = entry'.appId := by rw [← appId, ← appId', ← own, ← own']
    have entries := stands'.appId_apart stands.1 (by rw [same])
    rw [name, name', entries] at names
    exact absurd rfl names
  · exfalso
    obtain ⟨_, _, _, target, _⟩ := resolveOne_semantics resolves
    obtain ⟨_, _, target', _⟩ := resolveKafka_semantics resolves'
    apply mixed stands stands'
    rw [← target, ← target', table]
  · exfalso
    obtain ⟨_, _, target, _⟩ := resolveKafka_semantics resolves
    obtain ⟨_, _, _, target', _⟩ := resolveOne_semantics resolves'
    apply mixed stands' stands
    rw [← target, ← target', table]
  · obtain ⟨name, appId, target, _mode, kafka, _⟩ := resolveKafka_semantics resolves
    obtain ⟨name', appId', target', _mode', kafka', _⟩ := resolveKafka_semantics resolves'
    rintro ⟨own, own'⟩
    cases topic : one.kafka with
    | none => exact kafka topic
    | some group =>
        cases topic' : other.kafka with
        | none => exact kafka' topic'
        | some group' =>
            simp only [OffsetKey, topic, topic'] at own own'
            obtain ⟨partition, key_eq⟩ := own
            obtain ⟨partition', key_eq'⟩ := own'
            have appIds : one.appId = other.appId :=
              appId_of_offsetKey (key_eq.symm.trans key_eq')
            rw [appId, appId'] at appIds
            have entries := stands'.offset_apart stands.1 stands.comparable
              (by rw [← target, ← target', table]) appIds
            rw [name, name', (Prod.mk.inj entries).1] at names
            exact absurd rfl names

/-! ### Merged tables -/

theorem reads_recognised :
    (∀ one other, Runs checks config kafkaBuilt one → Runs checks config kafkaBuilt other →
        one.name ≠ other.name → ReadsApart one other ∧ ReadsApart other one) ↔
      ∀ reader writer, Stands checks config reader → Stands checks config writer →
        reader.name ≠ writer.name → writer.writeMode.isUpsert = true →
        SameTable reader.sourceUri writer.targetUri → readsMerges reader = false →
          reader.sourceUri = writer.targetUri := by
  constructor
  · intro apart reader writer stands stands' names merges table cannot
    obtain ⟨one, resolves⟩ := stands.2.2
    obtain ⟨other, resolves'⟩ := stands'.2.2
    obtain ⟨name, _appId, source, _target, policy, mode, delta, _⟩ := resolveOne_semantics resolves
    obtain ⟨name', _appId', _source', target', _policy', mode', _delta', _⟩ :=
      resolveOne_semantics resolves'
    have reads := (apart one other (Or.inl ⟨reader, stands, resolves⟩)
      (Or.inl ⟨writer, stands', resolves'⟩) (by rw [name, name']; exact names)).1
    obtain ⟨ignores, upserts⟩ := reads delta (by rw [mode']; exact merges) (by rw [source, target']; exact table)
    rw [policy] at ignores
    rw [mode] at upserts
    unfold readsMerges at cannot
    rw [ignores, upserts] at cannot
    cases cannot
  · intro recognised
    -- One direction stands for both.
    have reads : ∀ one other, Runs checks config kafkaBuilt one →
        Runs checks config kafkaBuilt other → one.name ≠ other.name → ReadsApart one other := by
      intro one other runs runs' names delta merges table
      obtain ⟨reader, stands, resolves⟩ := runs.stands_of_delta delta
      obtain ⟨name, _appId, source, _target, policy, mode, _⟩ := resolveOne_semantics resolves
      rcases runs' with ⟨writer, stands', resolves'⟩ | ⟨entry, place, _stands', resolves'⟩
      · obtain ⟨name', _appId', _source', target', _policy', mode', _⟩ :=
          resolveOne_semantics resolves'
        have able : readsMerges reader = true := by
          cases can : readsMerges reader with
          | true => rfl
          | false =>
              have spelt := recognised reader writer stands stands' (by rw [← name, ← name']; exact names)
                (by rw [← mode']; exact merges) (by rw [← source, ← target']; exact table) can
              rw [← can]
              exact stands.reads_merges stands'.1 (by rw [← mode']; exact merges) spelt
        unfold readsMerges at able
        rw [Bool.and_eq_true, beq_iff_eq] at able
        rw [policy, mode]
        exact able
      · rw [(resolveKafka_semantics resolves').2.2.2.1] at merges
        cases merges
    intro one other runs runs' names
    exact ⟨reads one other runs runs' names, reads other one runs' runs names.symm⟩

/-! ### Stages -/

theorem Stands.owner_or_half {entry : PipelineConfig} (stands : Stands checks config entry)
    {uri : String} (which : String) (stage : isStageUri uri = true)
    (used : (uri, which) ∈ [(entry.sourceUri, "reads"), (entry.targetUri, "writes to")]) :
    entry.name = (ownerOf (expandStaged config.pipelines) uri).getD "" ∨
      entry.name =
        Stage.applyName (Stage.stem ((ownerOf (expandStaged config.pipelines) uri).getD "")) := by
  have mines := stands.mines stage used
  unfold minesStage at mines
  rw [Bool.or_eq_true, beq_iff_eq, beq_iff_eq] at mines
  rcases mines with owner | half
  · exact Or.inl owner
  · exact Or.inr half.symm

theorem ownerOf_writes {pipelines : List PipelineConfig} {uri name : String}
    (owner : ownerOf pipelines uri = some name) :
    ∃ entry, entry ∈ pipelines ∧ entry.name = name ∧ entry.targetUri = uri := by
  unfold ownerOf at owner
  obtain ⟨entry, last, rfl⟩ := Option.map_eq_some_iff.mp owner
  obtain ⟨member, writes⟩ := List.mem_filter.mp (List.mem_of_getLast? last)
  rw [Bool.and_eq_true, beq_iff_eq] at writes
  exact ⟨entry, member, rfl, writes.2⟩

theorem writesStage_recognised :
    (∀ one other, Runs checks config kafkaBuilt one → Runs checks config kafkaBuilt other →
        one.name ≠ other.name →
        ¬ (StageTable one.targetUri ∧ SameTable one.targetUri other.targetUri)) ↔
      ∀ one oneUri other otherUri, Writes checks config kafkaBuilt one oneUri →
        Writes checks config kafkaBuilt other otherUri → one ≠ other → StageTable oneUri →
        SameTable oneUri otherUri →
          oneUri = otherUri ∧ isStageUri oneUri = true ∧ one ≠ Stage.applyName (Stage.stem other) ∧
            other ≠ Stage.applyName (Stage.stem one) := by
  constructor
  · intro apart one oneUri other otherUri writes writes' names stage table
    obtain ⟨pipeline, runs, rfl, rfl⟩ := writes.runs
    obtain ⟨pipeline', runs', rfl, rfl⟩ := writes'.runs
    exact absurd ⟨stage, table⟩ (apart pipeline pipeline' runs runs' names)
  · rintro recognised one other runs runs' names ⟨stage, table⟩
    obtain ⟨spelt, known, no_half, no_half'⟩ :=
      recognised one.name one.targetUri other.name other.targetUri runs.writes runs'.writes names
        stage table
    obtain ⟨entry, stands, name, target⟩ := runs.writes.stands_of_stage known
    obtain ⟨entry', stands', name', target'⟩ := runs'.writes.stands_of_stage (by rw [← spelt]; exact known)
    have own := stands.owner_or_half "writes to" known (by rw [target]; simp)
    have own' := stands'.owner_or_half "writes to" known (by rw [target', spelt]; simp)
    rw [name] at own
    rw [name'] at own'
    rcases own with owner | half
    · rcases own' with owner' | half'
      · exact names (owner.trans owner'.symm)
      · exact no_half' (by rw [half', ← owner])
    · rcases own' with owner' | half'
      · exact no_half (by rw [half, ← owner'])
      · exact names (half.trans half'.symm)

theorem mem_expandStaged_halves {pipelines : List PipelineConfig} {entry : PipelineConfig}
    (member : entry ∈ pipelines) (split : splits entry = true) :
    ingestHalf entry ∈ expandStaged pipelines ∧ applyHalf entry ∈ expandStaged pipelines := by
  unfold expandStaged
  constructor
  · apply List.mem_flatMap.mpr
    exact ⟨entry, member, by rw [if_pos split]; exact List.mem_cons_self⟩
  · apply List.mem_flatMap.mpr
    exact ⟨entry, member, by rw [if_pos split]; exact List.mem_cons_of_mem _ List.mem_cons_self⟩

theorem stageOf_known {entry : PipelineConfig} (split : splits entry = true) :
    isStageUri (stageOf entry) = true := by
  unfold splits at split
  rw [Bool.and_eq_true, Option.isNone_iff_eq_none] at split
  obtain ⟨_staged, no_problem⟩ := split
  unfold stagedProblem at no_problem
  split at no_problem
  · cases no_problem
  · split at no_problem
    · cases no_problem
    · split at no_problem
      · cases no_problem
      · split at no_problem
        · cases no_problem
        · split at no_problem
          · assumption
          · cases no_problem

theorem Stands.ingest_no_stage {entry : PipelineConfig}
    (stands : Stands checks config (ingestHalf entry)) :
    isStageUri (ingestHalf entry).sourceUri = false := by
  by_contra known
  rw [Bool.not_eq_false] at known
  rcases stands.owner_or_half "reads" known (by simp) with owner | half
  · cases owner_eq : ownerOf (expandStaged config.pipelines) (ingestHalf entry).sourceUri with
    | none =>
        rw [owner_eq] at owner
        exact ingestName_ne_empty entry.name owner
    | some name =>
        rw [owner_eq] at owner
        obtain ⟨writer, member, writer_name, writes⟩ := ownerOf_writes owner_eq
        have same := stands.name_apart member (writer_name.trans owner.symm)
        obtain ⟨pipeline, resolves⟩ := stands.2.2
        have apart := (resolveOne_semantics resolves).2.2.2.2.2.2.2
        apply apart
        rw [← writes, same]
  · exact applyName_ne_ingestName _ _ half.symm

theorem Stands.apply_owner {entry : PipelineConfig} (stands : Stands checks config (applyHalf entry))
    (known : isStageUri (stageOf entry) = true) {name : String}
    (owner : (ownerOf (expandStaged config.pipelines) (stageOf entry)).getD "" =
      Stage.ingestName name) : Stage.stem name = entry.name := by
  rcases stands.owner_or_half "reads" known
      (List.mem_cons_self : (stageOf entry, "reads") ∈ [((applyHalf entry).sourceUri, "reads"), _])
    with own | half
  · rw [owner] at own
    exact absurd own (applyName_ne_ingestName _ _)
  · rw [owner, stem_ingestName] at half
    exact (applyName_inj half).symm

theorem Stands.ingest_owner {entry : PipelineConfig} (stands : Stands checks config entry)
    {name uri : String} (ingest : entry.name = Stage.ingestName name) (target : entry.targetUri = uri)
    (known : isStageUri uri = true) :
    (ownerOf (expandStaged config.pipelines) uri).getD "" = Stage.ingestName name := by
  rcases stands.owner_or_half "writes to" known (by rw [target]; simp) with owner | half
  · rw [← owner, ingest]
  · rw [ingest] at half
    exact absurd half.symm (applyName_ne_ingestName _ _)

theorem readsStage_recognised :
    (∀ reader, Runs checks config kafkaBuilt reader → reader.kafka = none →
        StageTable reader.sourceUri → ∃ entry, entry ∈ config.pipelines ∧ splits entry = true ∧
          resolveOne checks config.defaults (applyHalf entry) = .ok reader ∧
          ∀ writer, Runs checks config kafkaBuilt writer →
            SameTable writer.targetUri reader.sourceUri →
            resolveOne checks config.defaults (ingestHalf entry) = .ok writer) ↔
      ∀ reader, Stands checks config reader → StageTable reader.sourceUri →
        isStageUri reader.sourceUri = true ∧
        (∃ entry, entry ∈ config.pipelines ∧ splits entry = true ∧
          (reader = ingestHalf entry ∨ reader = applyHalf entry)) ∧
        ∀ writer uri, Writes checks config kafkaBuilt writer uri →
          SameTable uri reader.sourceUri →
          uri = reader.sourceUri ∧ ∃ entry, entry ∈ config.pipelines ∧ splits entry = true ∧
            writer = Stage.ingestName entry.name ∧ Stage.stem entry.name = entry.name := by
  constructor
  · intro apart reader stands stage
    obtain ⟨pipeline, resolves⟩ := stands.2.2
    obtain ⟨name, _appId, source, _target, _policy, _mode, delta, _⟩ := resolveOne_semantics resolves
    obtain ⟨entry, member, split, half, writers⟩ :=
      apart pipeline (Or.inl ⟨reader, stands, resolves⟩) delta (by rw [source]; exact stage)
    obtain ⟨ingest_member, apply_member⟩ := mem_expandStaged_halves member split
    have reader_eq : applyHalf entry = reader := by
      apply stands.name_apart apply_member
      rw [← (resolveOne_semantics half).1, name]
    subst reader_eq
    have known := stageOf_known split
    refine ⟨known, ⟨entry, member, split, Or.inr rfl⟩, ?_⟩
    intro writer uri writes table
    obtain ⟨writing, runs, rfl, rfl⟩ := writes.runs
    have ingests := writers writing runs (by rw [source]; exact table)
    obtain ⟨writer_name, _appId', _source', writer_target, _⟩ := resolveOne_semantics ingests
    have spelt : writing.targetUri = stageOf entry := writer_target
    obtain ⟨written, written_stands, written_name, written_target⟩ :=
      writes.stands_of_stage (by rw [spelt]; exact known)
    refine ⟨spelt, entry, member, split, writer_name, ?_⟩
    have owner := written_stands.ingest_owner (written_name.trans writer_name)
      (written_target.trans spelt) known
    exact stands.apply_owner known owner
  · intro recognised reader runs delta stage
    obtain ⟨entry, stands, resolves⟩ := runs.stands_of_delta delta
    obtain ⟨name, _appId, source, _target, _⟩ := resolveOne_semantics resolves
    rw [source] at stage ⊢
    obtain ⟨known, ⟨staged, member, split, half⟩, writers⟩ := recognised entry stands stage
    rcases half with ingest | apply
    · subst ingest
      rw [stands.ingest_no_stage] at known
      cases known
    · subst apply
      refine ⟨staged, member, split, resolves, ?_⟩
      intro writer runs' table
      obtain ⟨spelt, other, _other_member, _other_split, writer_name, stem⟩ :=
        writers writer.name writer.targetUri runs'.writes table
      obtain ⟨written, written_stands, written_name, written_target⟩ :=
        runs'.writes.stands_of_stage (by rw [spelt]; exact known)
      have owner := written_stands.ingest_owner (written_name.trans writer_name)
        (written_target.trans spelt) known
      have same := stem.symm.trans (stands.apply_owner known owner)
      have written_eq : ingestHalf staged = written := by
        apply written_stands.name_apart (mem_expandStaged_halves member split).1
        rw [written_name, writer_name, same]
        rfl
      rcases runs' with ⟨own, own_stands, own_resolves⟩ | ⟨kafka, place, kafka_stands, kafka_resolves⟩
      · have own_eq : own = written := by
          apply written_stands.name_apart own_stands.1
          rw [written_name]
          exact (resolveOne_semantics own_resolves).1.symm
        rw [written_eq, ← own_eq]
        exact own_resolves
      · have target := (resolveKafka_semantics kafka_resolves).2.2.1
        have unknown := kafka_stands.no_stage
        rw [← target, spelt, known] at unknown
        cases unknown

/-! ### Every entry has an outcome -/

theorem mem_rejected (done : resolveAllWith checks config kafkaBuilt = some resolved)
    {rejection : Rejection} (outcome : .error rejection ∈ outcomes checks config kafkaBuilt) :
    rejection ∈ resolved.rejected := by
  unfold resolveAllWith at done
  split at done
  · cases done
  · cases done
    exact List.mem_filterMap.mpr ⟨.error rejection, outcome, rfl⟩

theorem delta_accounted (done : resolveAllWith checks config kafkaBuilt = some resolved)
    {entry : PipelineConfig} (member : entry ∈ expandStaged config.pipelines) :
    (∃ pipeline, pipeline ∈ resolved.pipelines ∧
      resolveOne checks config.defaults entry = .ok pipeline) ∨
    ∃ rejection, rejection ∈ resolved.rejected ∧ rejection.name = entry.name := by
  have outcome : resolveDelta checks config (expandStaged config.pipelines) entry ∈
      outcomes checks config kafkaBuilt :=
    List.mem_append_left _ (List.mem_map.mpr ⟨entry, member, rfl⟩)
  cases runs : resolveDelta checks config (expandStaged config.pipelines) entry with
  | ok pipeline =>
      left
      obtain ⟨stands, resolves⟩ := (resolveDelta_ok member).mp runs
      exact ⟨pipeline, (mem_resolved done pipeline).mpr (Or.inl ⟨entry, stands, resolves⟩), resolves⟩
  | error rejection =>
      right
      refine ⟨rejection, mem_rejected done (runs ▸ outcome), ?_⟩
      unfold resolveDelta at runs
      split at runs
      · rw [← Except.error.inj runs]
      · split at runs
        · cases runs
        · rw [← Except.error.inj runs]

theorem kafka_accounted (done : resolveAllWith checks config kafkaBuilt = some resolved)
    {entry : KafkaPipelineConfig} {place : Nat} (member : (entry, place) ∈ config.kafka.zipIdx) :
    (∃ pipeline, pipeline ∈ resolved.pipelines ∧
      resolveKafka checks config.defaults entry = .ok pipeline) ∨
    ∃ rejection, rejection ∈ resolved.rejected ∧ rejection.name = displayName place entry := by
  have outcome :
      resolveEntry checks config (expandStaged config.pipelines) kafkaBuilt entry place ∈
        outcomes checks config kafkaBuilt :=
    List.mem_append_right _ (List.mem_map.mpr ⟨(entry, place), member, rfl⟩)
  cases runs : resolveEntry checks config (expandStaged config.pipelines) kafkaBuilt entry place with
  | ok pipeline =>
      left
      obtain ⟨stands, resolves⟩ := (resolveEntry_ok member).mp runs
      exact ⟨pipeline, (mem_resolved done pipeline).mpr (Or.inr ⟨entry, place, stands, resolves⟩),
        resolves⟩
  | error rejection =>
      right
      refine ⟨rejection, mem_rejected done (runs ▸ outcome), ?_⟩
      unfold resolveEntry at runs
      dsimp only at runs
      split at runs
      · rw [← Except.error.inj runs]
      · split at runs
        · cases runs
        · rw [← Except.error.inj runs]

/-! ### Pipelines that run together -/

theorem readsApart_symm {one other : ResolvedPipeline}
    (apart : ReadsApart one other ∧ ReadsApart other one) :
    ReadsApart other one ∧ ReadsApart one other :=
  ⟨apart.2, apart.1⟩

/-- The pipelines of a config keep clear of each other exactly when their tables are recognised. -/
theorem resolveAllWith_apart (done : resolveAllWith checks config kafkaBuilt = some resolved) :
    Apart checks config resolved ↔ Recognised checks config kafkaBuilt := by
  have writers_symm : ∀ one other : ResolvedPipeline,
      ¬ (StageTable one.targetUri ∧ SameTable one.targetUri other.targetUri) →
      ¬ (StageTable other.targetUri ∧ SameTable other.targetUri one.targetUri) := by
    rintro one other apart ⟨stage, table⟩
    apply apart
    unfold StageTable SameTable at *
    exact ⟨table ▸ stage, table.symm⟩
  have offsets_symm : ∀ one other : ResolvedPipeline,
      (SameTable one.targetUri other.targetUri → ∀ key, ¬ (OffsetKey one key ∧ OffsetKey other key)) →
      (SameTable other.targetUri one.targetUri → ∀ key, ¬ (OffsetKey other key ∧ OffsetKey one key)) :=
    fun one other apart table key both => apart (Eq.symm table) key both.symm
  have reader_mem : ∀ pipeline, pipeline ∈ resolved.pipelines ↔
      Runs checks config kafkaBuilt pipeline := mem_resolved done
  constructor
  · intro apart
    constructor
    · exact reads_recognised.mp ((resolved_pairwise done fun _ _ => readsApart_symm).mp apart.reads)
    · exact writesStage_recognised.mp ((resolved_pairwise done writers_symm).mp apart.writesStage)
    · apply readsStage_recognised.mp
      intro reader runs delta stage
      obtain ⟨entry, member, split, half, writers⟩ :=
        apart.readsStage reader ((reader_mem reader).mpr runs) delta stage
      exact ⟨entry, member, split, half, fun writer runs' =>
        writers writer ((reader_mem writer).mpr runs')⟩
  · intro recognised
    constructor
    · apply (resolved_pairwise done offsets_symm).mpr
      intro one other runs runs' names table key
      exact runs.offsets runs' names table key
    · exact (resolved_pairwise done fun _ _ => readsApart_symm).mpr
        (reads_recognised.mpr recognised.reads)
    · exact (resolved_pairwise done writers_symm).mpr
        (writesStage_recognised.mpr recognised.writesStage)
    · intro reader member delta stage
      obtain ⟨entry, entry_member, split, half, writers⟩ :=
        readsStage_recognised.mpr recognised.readsStage reader ((reader_mem reader).mp member) delta
          stage
      exact ⟨entry, entry_member, split, half, fun writer member' =>
        writers writer ((reader_mem writer).mp member')⟩
    · exact resolved_names_nodup done
    · exact fun entry member => delta_accounted done member
    · exact fun entry place member => kafka_accounted done member

/-! ### A table under two spellings -/

/-- Checks that let every entry pass. -/
def openChecks : Checks :=
  { normaliseSql := fun sql _lookups => .ok sql
    parseSize := fun _written => some 1
    parseLookback := fun _written => .ok ()
    kafkaSettings := fun _entry => none }

def merging : PipelineConfig :=
  { name := "silver"
    appId := "silver"
    sourceUri := "/lake/bronze/orders"
    targetUri := "/lake/silver/orders"
    writeMode := .upsert
    upsertKey := some "id"
    dedupTimestamp := some "changed_at" }

/-- Reads what `merging` writes, the URI ending in a slash. -/
def appending : PipelineConfig :=
  { name := "gold"
    appId := "gold"
    sourceUri := "/lake/silver/orders/"
    targetUri := "/lake/gold/orders" }

def respelt : Config :=
  { pipelines := [merging, appending]
    defaults :=
      { allowedLatencySecs := 60
        maxBytesPerBatch := "1 MiB"
        targetFileSize := "1 MiB"
        brokers := none } }

/-- Two entries that run, one reading what the other merges. -/
theorem respelt_not_apart :
    ∃ resolved, resolveAllWith openChecks respelt false = some resolved ∧
      ¬ Apart openChecks respelt resolved := by
  have done : resolveAllWith openChecks respelt false = some _ := rfl
  refine ⟨_, done, ?_⟩
  intro apart
  have merges : Stands openChecks respelt merging :=
    ⟨by decide, Option.isNone_iff_eq_none.mp (by decide), _, rfl⟩
  have appends : Stands openChecks respelt appending :=
    ⟨by decide, Option.isNone_iff_eq_none.mp (by decide), _, rfl⟩
  have reads := (resolved_pairwise done fun _ _ => readsApart_symm).mp apart.reads
    _ _ (Or.inl ⟨appending, appends, rfl⟩) (Or.inl ⟨merging, merges, rfl⟩) (by decide)
  have table : SameTable appending.sourceUri merging.targetUri := by
    unfold SameTable
    decide
  exact absurd (reads.1 rfl rfl table).1 (by decide)

/-- The case of a config in which one table has two spellings. -/
theorem respelt_apart_iff :
    ∃ resolved, resolveAllWith openChecks respelt false = some resolved ∧
      (Apart openChecks respelt resolved ↔ Recognised openChecks respelt false) :=
  ⟨_, rfl, resolveAllWith_apart rfl⟩

end Ddi.Resolver
