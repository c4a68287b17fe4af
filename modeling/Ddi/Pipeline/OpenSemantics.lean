/-
What an open that succeeds has found: where the offset points, whether a rebuild
or a replaced source moves the cursor from there, and the window it starts in.
-/

import Ddi.Pipeline.Open
import Ddi.Pipeline.StepSemantics

namespace Ddi

open Ddi.Delta
open Ddi.Source

set_option linter.unusedSectionVars false

variable {ρ τ T K P : Type} [LinearOrder T] [DecidableEq K] [DecidableEq P]

/-- The first source version the target's offset does not cover. -/
def resumePoint (config : ResolvedPipeline τ T K P) (target : DeltaLog τ) : Nat :=
  match transactionVersion target config.appId with
  | some stored => stored.toNat + 1
  | none => config.startingVersion

/-- How a resume point was found. -/
inductive Resuming (config : ResolvedPipeline τ T K P) (engine : Engine ρ τ T K P)
    (source : DeltaLog ρ) (target : DeltaLog τ) (resume : Resume T K P) : Prop
  | ordinary (cursor : resume.cursor = StreamCursor.atVersion (resumePoint config target))
      (bootstrapping :
        resume.bootstrapping = (transactionVersion target config.appId).isNone)
      (rebuilt : resume.rebuilt = none)
      (kept : (config.watermarkUri = none ∧ config.dedup = none) ∨
        targetState target config.appId defaultMaxScan = .oursOrUntouched)
  | rescanned (version : Nat) (columns : DedupColumns τ T K P) (dedup : Dedup T K P)
      (overwritten : targetState target config.appId defaultMaxScan = .overwrittenAt version)
      (configured : config.dedup = some columns)
      (read : Dedup.readPartitioned columns (tableRows target) = .ok dedup)
      (cursor : resume.cursor = StreamCursor.atVersion
        (rescanStart engine columns source dedup config.startingVersion))
      (bootstrapping : resume.bootstrapping = false) (rebuilt : resume.rebuilt = some dedup)
  | declared (version through : Nat) (configured : config.dedup = none)
      (overwritten : targetState target config.appId defaultMaxScan = .overwrittenAt version)
      (cursor : resume.cursor = StreamCursor.atVersion (through + 1))
      (bootstrapping : resume.bootstrapping = false) (rebuilt : resume.rebuilt = none)

private theorem lastCommittedVersion_ok {store : OffsetStore} {target : DeltaLog τ}
    {stored : Option Nat} (ok : store.lastCommittedVersion target = .ok stored) :
    stored = (transactionVersion target store.appId).map Int.toNat := by
  unfold OffsetStore.lastCommittedVersion at ok
  cases found : transactionVersion target store.appId with
  | none =>
      rw [found] at ok
      cases ok
      rfl
  | some version =>
      rw [found] at ok
      simp only at ok
      split at ok
      · cases ok
      · cases ok
        rfl

theorem resumeCursor_semantics {config : ResolvedPipeline τ T K P} {engine : Engine ρ τ T K P}
    {source : DeltaLog ρ} {target : DeltaLog τ} {resume : Resume T K P}
    (ok : resumeCursor config engine source target = .ok resume) :
    Resuming config engine source target resume ∧
      resume.committed = (transactionVersion target config.appId).map Int.toNat := by
  unfold resumeCursor at ok
  cases offset : OffsetStore.lastCommittedVersion ⟨config.appId, config.startingVersion⟩ target with
  | error error =>
      simp only [offset] at ok
      cases ok
  | ok stored =>
      have known := lastCommittedVersion_ok offset
      simp only at known
      have own : OffsetStore.cursorAfter ⟨config.appId, config.startingVersion⟩ stored =
          StreamCursor.atVersion (resumePoint config target) := by
        rw [known, resumePoint]
        cases transactionVersion target config.appId <;> rfl
      have booting : stored.isNone = (transactionVersion target config.appId).isNone := by
        rw [known, Option.isNone_map]
      simp only [offset] at ok
      split at ok
      · rename_i plain
        cases ok
        rw [Bool.and_eq_true, Option.isNone_iff_eq_none, Option.isNone_iff_eq_none] at plain
        exact ⟨.ordinary own booting rfl (Or.inl plain), known⟩
      · cases state : targetState target config.appId defaultMaxScan with
        | oursOrUntouched =>
            rw [state] at ok
            cases ok
            exact ⟨.ordinary own booting rfl (Or.inr state), known⟩
        | overwrittenAt version =>
            rw [state] at ok
            cases configured : config.dedup with
            | some columns =>
                cases read : Dedup.readPartitioned columns (tableRows target) with
                | error error =>
                    simp only [configured, read] at ok
                    cases ok
                | ok dedup =>
                    simp only [configured, read] at ok
                    cases ok
                    exact ⟨.rescanned version columns dedup state configured read rfl rfl rfl,
                      known⟩
            | none =>
                cases declared : engine.declaredWatermark with
                | error error =>
                    simp only [configured, declared] at ok
                    cases ok
                | ok watermark =>
                    cases watermark with
                    | none =>
                        simp only [configured, declared] at ok
                        cases ok
                    | some through =>
                        simp only [configured, declared] at ok
                        cases ok
                        exact ⟨.declared version through configured state rfl rfl rfl, known⟩

/-- What the source turned out to be. -/
inductive Adjusting (config : ResolvedPipeline τ T K P) (source : DeltaLog ρ)
    (ours : OurLastCommit) (resume : Resume T K P) : Option StreamCursor → Prop
  | same (sameTable : differentTable source ours resume.committed = false)
      (forwards : logWentBackwards source resume = false) :
      Adjusting config source ours resume none
  | replaced (columns : DedupColumns τ T K P) (configured : config.dedup = some columns)
      (why : differentTable source ours resume.committed = true ∨
        logWentBackwards source resume = true) :
      Adjusting config source ours resume (some (StreamCursor.atVersion config.startingVersion))

theorem adjustForReplacedSource_semantics {config : ResolvedPipeline τ T K P}
    {source : DeltaLog ρ} {ours : OurLastCommit} {resume : Resume T K P}
    {replaced : Option StreamCursor}
    (ok : adjustForReplacedSource config source ours resume = .ok replaced) :
    Adjusting config source ours resume replaced := by
  unfold adjustForReplacedSource at ok
  cases different : differentTable source ours resume.committed with
  | true =>
      rw [different] at ok
      cases configured : config.dedup with
      | none =>
          simp only [configured, Bool.not_true, Bool.false_and, Bool.false_eq_true,
            if_false] at ok
          cases ok
      | some columns =>
          simp only [configured, Bool.not_true, Bool.false_and, Bool.false_eq_true,
            if_false] at ok
          cases ok
          exact .replaced columns configured (Or.inl different)
  | false =>
      cases backwards : logWentBackwards source resume with
      | false =>
          rw [different, backwards] at ok
          cases ok
          exact .same different backwards
      | true =>
          rw [different, backwards] at ok
          cases configured : config.dedup with
          | none =>
              simp only [configured, Bool.not_true, Bool.and_false, Bool.false_eq_true,
                if_false] at ok
              cases ok
          | some columns =>
              simp only [configured, Bool.not_true, Bool.and_false, Bool.false_eq_true,
                if_false] at ok
              cases ok
              exact .replaced columns configured (Or.inr backwards)

theorem keepsIdentity_of_identifiedAt {source : DeltaLog ρ} {version : Nat} {id : String}
    (identified : IdentifiedAt source version id) : keepsIdentity source version id = true := by
  have within := identified.lt
  obtain ⟨state, loaded, known⟩ := identified
  unfold keepsIdentity
  rw [if_neg (by unfold DeltaLog.head; omega), loaded]
  exact decide_eq_true known

/-- A recorded id that the log still gives its version is no other table's. -/
theorem differentTable_of_kept {source : DeltaLog ρ} {ours : OurLastCommit}
    {committed : Option Nat}
    (kept : ∀ id, ours.sourceTableId = some id → ∃ version,
      ours.sourceTableIdVersion.or committed = some version ∧ IdentifiedAt source version id) :
    differentTable source ours committed = false := by
  unfold differentTable
  cases recorded : ours.sourceTableId with
  | none => rfl
  | some id =>
      cases tableId source with
      | none => rfl
      | some current =>
          obtain ⟨version, seenAt, identified⟩ := kept id recorded
          simp only [seenAt, keepsIdentity_of_identifiedAt identified, Bool.not_true, ite_self]

/-- Why an open starts in a window or outside any, before asking whether it has anything to
hold back. -/
inductive Inferring (config : ResolvedPipeline τ T K P) (columns : DedupColumns τ T K P)
    (source : DeltaLog ρ) (target : DeltaLog τ) (ours : OurLastCommit) (resume : Resume T K P)
    (replaced : Bool) (cursor : StreamCursor) :
    Option (CoverageReason × Option Nat × Bool × Dedup T K P) → Prop
  | replaced (dedup : Dedup T K P)
      (read : resume.rebuilt = some dedup ∨
        Dedup.readPartitioned columns (tableRows target) = .ok dedup) :
      Inferring config columns source target ours resume replaced cursor
        (some (.sourceReplaced, none, false, dedup))
  | filled (reason : CoverageReason) (head : Option Nat) (dedup : Dedup T K P)
      (read : resume.rebuilt = some dedup ∨
        Dedup.readPartitioned columns (tableRows target) = .ok dedup)
      (through : ∀ last, head = some last → last = source.head) :
      Inferring config columns source target ours resume replaced cursor
        (some (reason, head, false, dedup))
  | resumed (recorded : RecordedCutoff) (dedup : Dedup T K P) (rebuilt : resume.rebuilt = none)
      (bootstrapping : resume.bootstrapping = false) (known : ours.cutoff = some recorded)
      (read : Dedup.readPartitioned columns (tableRows target) = .ok dedup) :
      Inferring config columns source target ours resume replaced cursor
        (some (recorded.reason, recorded.sourceThrough, true, dedup))
  | outside (same : replaced = false) (rebuilt : resume.rebuilt = none)
      (bootstrapping : resume.bootstrapping = false)
      (why : ours.cutoff = none ∨ ∃ recorded, ours.cutoff = some recorded ∧
        (recorded.partitionColumns ≠ columns.partitionColumns ∨
          ∃ through, recorded.sourceThrough = some through ∧
            hasDataCommitBetween source cursor.version through = false)) :
      Inferring config columns source target ours resume replaced cursor none

theorem inferCutoff_semantics {config : ResolvedPipeline τ T K P}
    {columns : DedupColumns τ T K P} {source : DeltaLog ρ} {target : DeltaLog τ}
    {ours : OurLastCommit} {resume : Resume T K P} {replaced : Bool} {cursor : StreamCursor}
    {found : Option (CoverageReason × Option Nat × Bool × Dedup T K P)}
    (ok : inferCutoff config columns source target ours resume replaced cursor = .ok found) :
    Inferring config columns source target ours resume replaced cursor found := by
  have head : ∀ last, (if isStageUri config.sourceUri then none else some source.head) =
      some last → last = source.head := by
    intro last known
    split at known
    · cases known
    · cases known
      rfl
  have read : ∀ {window : Dedup T K P → Option (CoverageReason × Option Nat × Bool ×
      Dedup T K P)}, (Dedup.readPartitioned columns (tableRows target)).map window = .ok found →
      ∃ dedup, Dedup.readPartitioned columns (tableRows target) = .ok dedup ∧
        found = window dedup := by
    intro window mapped
    cases marks : Dedup.readPartitioned columns (tableRows target) with
    | error error =>
        rw [marks] at mapped
        cases mapped
    | ok dedup =>
        rw [marks] at mapped
        cases mapped
        exact ⟨dedup, rfl, rfl⟩
  unfold inferCutoff at ok
  simp only at ok
  cases rebuilt : resume.rebuilt with
  | some dedup =>
      rw [rebuilt] at ok
      cases replaced with
      | true =>
          cases ok
          exact .replaced dedup (Or.inl rebuilt)
      | false =>
          cases ok
          exact .filled _ _ dedup (Or.inl rebuilt) head
  | none =>
      rw [rebuilt] at ok
      cases replaced with
      | true =>
          obtain ⟨dedup, marks, rfl⟩ := read ok
          exact .replaced dedup (Or.inr marks)
      | false =>
          simp only [Bool.false_eq_true, if_false] at ok
          cases bootstrapping : resume.bootstrapping with
          | true =>
              rw [bootstrapping] at ok
              obtain ⟨dedup, marks, rfl⟩ := read ok
              exact .filled _ _ dedup (Or.inr marks) head
          | false =>
              simp only [bootstrapping, Bool.false_eq_true, if_false] at ok
              cases known : ours.cutoff with
              | none =>
                  rw [known] at ok
                  cases ok
                  exact .outside rfl rebuilt bootstrapping (Or.inl known)
              | some recorded =>
                  rw [known] at ok
                  simp only at ok
                  have resumes : (if recorded.partitionColumns = columns.partitionColumns then
                      (Dedup.readPartitioned columns (tableRows target)).map fun dedup =>
                        some (recorded.reason, recorded.sourceThrough, true, dedup)
                      else .ok none) = .ok found →
                      Inferring config columns source target ours resume false cursor found := by
                    intro ok
                    by_cases form : recorded.partitionColumns = columns.partitionColumns
                    · rw [if_pos form] at ok
                      obtain ⟨dedup, marks, rfl⟩ := read ok
                      exact .resumed recorded dedup rebuilt bootstrapping known marks
                    · rw [if_neg form] at ok
                      cases ok
                      exact .outside rfl rebuilt bootstrapping
                        (Or.inr ⟨recorded, known, Or.inl form⟩)
                  cases through : recorded.sourceThrough with
                  | none =>
                      simp only [through, Bool.false_eq_true, if_false] at ok
                      rw [← through] at ok
                      exact resumes ok
                  | some last =>
                      cases silent : hasDataCommitBetween source cursor.version last with
                      | true =>
                          simp only [through, silent, Bool.not_true, Bool.false_eq_true,
                            if_false] at ok
                          rw [← through] at ok
                          exact resumes ok
                      | false =>
                          simp only [through, silent, Bool.not_false, if_true] at ok
                          cases ok
                          exact .outside rfl rebuilt bootstrapping
                            (Or.inr ⟨recorded, known, Or.inr ⟨last, through, silent⟩⟩)

private theorem emittedAdds_of_silent {actions : List (Action ρ)} (policy : ChangePolicy)
    (silent : addsOrChangesData actions = false) : emittedAdds policy actions = [] := by
  unfold addsOrChangesData at silent
  unfold emittedAdds emission
  cases kind : classify actions with
  | data adds =>
      rw [kind] at silent
      cases silent
  | change adds =>
      rw [kind] at silent
      cases silent
  | compaction => rfl
  | noData => rfl

private theorem hasDataCommitFrom_false {source : DeltaLog ρ} {first version count : Nat}
    (policy : ChangePolicy) (none_ : hasDataCommitFrom source first version count = false) :
    emitted source policy version (version + count) = [] := by
  induction count generalizing version with
  | zero => exact emitted_self source policy version
  | succ count ih =>
      unfold hasDataCommitFrom at none_
      split at none_
      · cases none_
      · cases read : source.readCommitEntry version with
        | none =>
            rw [read] at none_
            cases none_
        | some actions =>
            rw [read] at none_
            simp only at none_
            split at none_
            · cases none_
            · rename_i silent
              rw [Bool.not_eq_true] at silent
              have later := ih none_
              rw [show version + 1 + count = version + (count + 1) by omega] at later
              rw [emitted_append source policy (Nat.le_succ version) (by omega), later,
                List.append_nil, List.eq_nil_iff_forall_not_mem]
              intro entry member
              obtain ⟨low, high, part⟩ := mem_emitted.mp member
              have here : entry.1 = version := by omega
              rw [here, ← emittedAt_written read, emittedAt, read] at part
              simp only [emittedAdds_of_silent policy silent] at part
              cases part

/-- A stretch without a commit that adds or changes data emits nothing. -/
theorem hasDataCommitBetween_false {source : DeltaLog ρ} {first through : Nat}
    (policy : ChangePolicy) (none_ : hasDataCommitBetween source first through = false) :
    emitted source policy first (through + 1) = [] := by
  unfold hasDataCommitBetween at none_
  have silent := hasDataCommitFrom_false policy none_
  rcases Nat.le_total first (through + 1) with ahead | beyond
  · rw [show first + (through + 1 - first) = through + 1 by omega] at silent
    exact silent
  · exact Segments.between_of_le _ _ beyond

/-- The window an open starts in. -/
inductive Covering (config : ResolvedPipeline τ T K P) (source : DeltaLog ρ)
    (target : DeltaLog τ) (ours : OurLastCommit) (resume : Resume T K P) (replaced : Bool)
    (cursor : StreamCursor) : Option (Cutoff T K P) → Prop
  | unconfigured (without : config.dedup = none) :
      Covering config source target ours resume replaced cursor none
  | nothing (columns : DedupColumns τ T K P) (configured : config.dedup = some columns)
      (inferred : inferCutoff config columns source target ours resume replaced cursor = .ok none) :
      Covering config source target ours resume replaced cursor none
  | spent (columns : DedupColumns τ T K P) (configured : config.dedup = some columns)
      (reason : CoverageReason) (through : Option Nat) (resumed : Bool) (dedup : Dedup T K P)
      (inferred : inferCutoff config columns source target ours resume replaced cursor =
        .ok (some (reason, through, resumed, dedup)))
      (idle : dedup.isInert = true ∨ ∃ head, through = some head ∧ head < cursor.version) :
      Covering config source target ours resume replaced cursor none
  | opened (columns : DedupColumns τ T K P) (configured : config.dedup = some columns)
      (reason : CoverageReason) (through : Option Nat) (resumed : Bool) (dedup : Dedup T K P)
      (inferred : inferCutoff config columns source target ours resume replaced cursor =
        .ok (some (reason, through, resumed, dedup)))
      (active : dedup.isInert = false)
      (ahead : ∀ head, through = some head → cursor.version ≤ head) :
      Covering config source target ours resume replaced cursor
        (some
          { dedup := dedup
            window := { reason := reason, through := through, resumed := resumed }
            skipped := 0 })

theorem coverageCutoff_semantics {config : ResolvedPipeline τ T K P} {source : DeltaLog ρ}
    {target : DeltaLog τ} {ours : OurLastCommit} {resume : Resume T K P} {replaced : Bool}
    {cursor : StreamCursor} {cutoff : Option (Cutoff T K P)}
    (ok : coverageCutoff config source target ours resume replaced cursor = .ok cutoff) :
    Covering config source target ours resume replaced cursor cutoff := by
  unfold coverageCutoff at ok
  cases configured : config.dedup with
  | none =>
      rw [configured] at ok
      cases ok
      exact .unconfigured configured
  | some columns =>
      rw [configured] at ok
      cases inferred : inferCutoff config columns source target ours resume replaced cursor with
      | error error =>
          simp only [inferred] at ok
          cases ok
      | ok found =>
          cases found with
          | none =>
              simp only [inferred] at ok
              cases ok
              exact .nothing columns configured inferred
          | some window =>
              obtain ⟨reason, through, resumed, dedup⟩ := window
              simp only [inferred] at ok
              cases inert : dedup.isInert with
              | true =>
                  rw [inert] at ok
                  cases ok
                  exact .spent columns configured reason through resumed dedup inferred
                    (Or.inl inert)
              | false =>
                  cases through with
                  | none =>
                      rw [inert] at ok
                      cases ok
                      exact .opened columns configured reason none resumed dedup inferred inert
                        nofun
                  | some head =>
                      cases applies : cutoffApplies head cursor with
                      | true =>
                          simp only [inert, applies] at ok
                          cases ok
                          refine .opened columns configured reason _ resumed dedup inferred inert ?_
                          intro _ same
                          cases same
                          exact of_decide_eq_true applies
                      | false =>
                          simp only [inert, applies] at ok
                          cases ok
                          exact .spent columns configured reason _ resumed dedup inferred
                            (Or.inr ⟨head, rfl, Nat.lt_of_not_le (of_decide_eq_false applies)⟩)

/-- What an open that succeeds has gone through. -/
structure Opening (config : ResolvedPipeline τ T K P) (engine : Engine ρ τ T K P)
    (source : DeltaLog ρ) (target : DeltaLog τ) (pipeline : Pipeline T K P)
    (resume : Resume T K P) (replaced : Option StreamCursor) : Prop where
  sourceLoaded : ∃ state, source.logState (some source.head) = .ok state
  targetLoaded : ∃ state, target.logState (some target.head) = .ok state
  resuming : Resuming config engine source target resume
  committed : resume.committed = (transactionVersion target config.appId).map Int.toNat
  adjusting : Adjusting config source (ourLastCommit target config.appId defaultMaxScan) resume
    replaced
  covering : Covering config source target (ourLastCommit target config.appId defaultMaxScan)
    resume replaced.isSome (replaced.getD resume.cursor) pipeline.cutoff
  stream : pipeline.stream =
    openStream config source (replaced.getD resume.cursor) pipeline.cutoff

private theorem openTable_ok {α : Type} {config : ResolvedPipeline τ T K P} {role : String}
    {log : DeltaLog α} {state : TableState} (ok : openTable config role log = .ok state) :
    ∃ state, log.logState (some log.head) = .ok state := by
  unfold openTable at ok
  rw [DeltaLog.logState_none] at ok
  cases loaded : log.logState (some log.head) with
  | error error =>
      rw [loaded] at ok
      cases error
      cases ok
  | ok state => exact ⟨state, rfl⟩

theorem openPipeline_semantics {config : ResolvedPipeline τ T K P} {engine : Engine ρ τ T K P}
    {source : DeltaLog ρ} {target : DeltaLog τ} {pipeline : Pipeline T K P}
    (ok : openPipeline config engine source target = .ok pipeline) :
    ∃ resume replaced, Opening config engine source target pipeline resume replaced := by
  unfold openPipeline at ok
  cases first : openTable config "source" source with
  | error error =>
      simp only [first] at ok
      cases ok
  | ok sourceState =>
      cases second : openTable config "target" target with
      | error error =>
          simp only [first, second] at ok
          cases ok
      | ok targetState =>
          simp only [first, second] at ok
          unfold resolvePipeline at ok
          cases resumed : resumeCursor config engine source target with
          | error error =>
              simp only [resumed] at ok
              cases ok
          | ok resume =>
              obtain ⟨resuming, committed⟩ := resumeCursor_semantics resumed
              cases adjusted : adjustForReplacedSource config source
                  (ourLastCommit target config.appId defaultMaxScan) resume with
              | error error =>
                  simp only [resumed, adjusted] at ok
                  cases ok
              | ok replaced =>
                  simp only [resumed, adjusted] at ok
                  split at ok
                  · cases ok
                  · cases covered : coverageCutoff config source target
                        (ourLastCommit target config.appId defaultMaxScan) resume
                        replaced.isSome (replaced.getD resume.cursor) with
                    | error error =>
                        simp only [covered] at ok
                        cases ok
                    | ok cutoff =>
                        simp only [covered] at ok
                        cases ok
                        exact ⟨resume, replaced, openTable_ok first, openTable_ok second,
                          resuming, committed, adjustForReplacedSource_semantics adjusted,
                          coverageCutoff_semantics covered, rfl⟩

section Stream

variable {config : ResolvedPipeline τ T K P} {engine : Engine ρ τ T K P} {source : DeltaLog ρ}
  {target : DeltaLog τ} {pipeline : Pipeline T K P} {resume : Resume T K P}
  {replaced : Option StreamCursor}

theorem Resuming.boundary (resuming : Resuming config engine source target resume) :
    resume.cursor.index = 0 := by
  cases resuming with
  | ordinary cursor bootstrapping rebuilt kept => rw [cursor]; rfl
  | rescanned version columns dedup overwritten configured read cursor bootstrapping rebuilt =>
      rw [cursor]
      rfl
  | declared version through configured overwritten cursor bootstrapping rebuilt =>
      rw [cursor]
      rfl

theorem Opening.ready (opening : Opening config engine source target pipeline resume replaced) :
    Ready config pipeline where
  whole := by
    rw [opening.stream]
    refine ⟨?_, rfl, nofun⟩
    cases opening.adjusting with
    | same sameTable forwards => exact opening.resuming.boundary
    | replaced columns configured why => rfl
  policy := by rw [opening.stream]; rfl
  pinning := by rw [opening.stream]; rfl
  stop := by rw [opening.stream]; rfl

theorem Opening.cursor (opening : Opening config engine source target pipeline resume replaced) :
    pipeline.stream.cursor = replaced.getD resume.cursor := by
  rw [opening.stream]
  rfl

/-- A reader just opened knows its table by the id at the head. -/
theorem Opening.identity
    (opening : Opening config engine source target pipeline resume replaced) :
    IdentityKept source pipeline.stream.identity ∧
      pipeline.stream.identity = (tableId source).map fun id => (source.head, id) := by
  have identity : pipeline.stream.identity =
      (source.metadataAt source.head).bind fun metadata =>
        metadata.id.map fun id => (source.head, id) := by
    rw [opening.stream]
    rfl
  obtain ⟨state, loaded⟩ := opening.sourceLoaded
  have metadata := DeltaLog.logState_metadata loaded
  rw [identity, tableId, metadata]
  refine ⟨?_, rfl⟩
  intro seenAt was same
  rw [Option.bind_some] at same
  obtain ⟨id, known, pair⟩ := Option.map_eq_some_iff.mp same
  cases pair
  exact ⟨state, loaded, known⟩

end Stream

end Ddi
