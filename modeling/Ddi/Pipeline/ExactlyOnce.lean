/-
An appending pipeline with nobody else writing to its target: the rows of the
target are those of the source versions its offset covers, each once, whatever
order opens, steps, crashes and source commits come in.
-/

import Ddi.Pipeline.Delivery
import Ddi.Pipeline.OpenSemantics
import Ddi.Pipeline.Record
import Ddi.Pipeline.World

namespace Ddi

open Ddi.Delta
open Ddi.Source

set_option linter.unusedSectionVars false

variable {ρ τ T K P : Type} [LinearOrder T] [DecidableEq K] [DecidableEq P]

/-- The source gains commits and nobody else writes to the target; either may lose commit
files to retention. A pipeline that cuts by timestamp would start over in a window once the
version its table id was recorded at cannot be loaded any more, so there it stays loadable. -/
structure AppendsOnly (config : ResolvedPipeline τ T K P) (source : DeltaLog ρ)
    (target : DeltaLog τ) (source' : DeltaLog ρ) (target' : DeltaLog τ) : Prop where
  grows : Extends source source'
  numbered : source'.commits.length ≤ 2 ^ 64
  loadable : config.dedup.isSome = true → ∀ version, source.unloadable version = false →
    source'.unloadable version = false
  untouched : target'.commits = target.commits

/-- A target this pipeline has not written to, without rows. -/
structure FreshTarget (config : ResolvedPipeline τ T K P) (target : DeltaLog τ) : Prop where
  empty : tableRows target = []
  foreign : ∀ commit, commit ∈ target.commits →
    carriesTxn config.appId commit.actions = false ∧ rewritesData commit.actions = false
  short : target.commits.length ≤ defaultMaxScan

/-- What the claim of an appending pipeline comes to, at any moment. -/
structure ExactlyOnce (config : ResolvedPipeline τ T K P) (engine : Engine ρ τ T K P)
    (source : DeltaLog ρ) (target : DeltaLog τ) : Prop where
  offset : ∀ stored, transactionVersion target config.appId = some stored →
    ∃ version, stored = Int.ofNat version ∧ config.startingVersion ≤ version ∧
      version < source.commits.length
  batches : Delivered config engine source config.startingVersion (resumePoint config target)
    (tableRows target)
  rowwise : ∀ image, RowLocal engine image → tableRows target = imageOf config source image
    (emitted source config.changePolicy config.startingVersion (resumePoint config target))
  resumes : ∀ pipeline, openPipeline config engine source target = .ok pipeline →
    pipeline.stream.cursor = StreamCursor.atVersion (resumePoint config target) ∧
      pipeline.cutoff = none

/-- What a commit of ours says of the source table, and that it says nothing of a window. -/
structure PlainRecord (source : DeltaLog ρ) (actions : List (Action τ)) : Prop where
  outside : ∀ version, (describeOurs version actions).cutoff = none
  kept : ∀ version id, (describeOurs version actions).sourceTableId = some id →
    ∃ seenAt, (describeOurs version actions).sourceTableIdVersion = some seenAt ∧
      IdentifiedAt source seenAt id

/-- What holds of the two tables between any two events. -/
structure Appended (config : ResolvedPipeline τ T K P) (engine : Engine ρ τ T K P)
    (source : DeltaLog ρ) (target : DeltaLog τ) : Prop where
  offset : ∀ stored, transactionVersion target config.appId = some stored →
    ∃ version, stored = Int.ofNat version ∧ config.startingVersion ≤ version ∧
      version < source.commits.length
  batches : Delivered config engine source config.startingVersion (resumePoint config target)
    (tableRows target)
  numbered : source.commits.length ≤ 2 ^ 64
  removesNothing : ∀ commit, commit ∈ target.commits → rewritesData commit.actions = false
  near : target.commits.length ≤ defaultMaxScan ∨ ∃ commit,
    target.commits.getLast? = some commit ∧ carriesTxn config.appId commit.actions = true
  records : config.dedup.isSome = true → ∀ commit, commit ∈ target.commits →
    carriesTxn config.appId commit.actions = true → PlainRecord source commit.actions

/-- What holds of a running process besides. -/
structure Running (config : ResolvedPipeline τ T K P) (source : DeltaLog ρ) (target : DeltaLog τ)
    (pipeline : Pipeline T K P) : Prop where
  ready : Ready config pipeline
  outside : pipeline.cutoff = none
  identity : config.dedup.isSome = true → IdentityKept source pipeline.stream.identity
  ahead : resumePoint config target ≤ pipeline.stream.cursor.version
  reached : ∀ version, resumePoint config target ≤ version →
    version < pipeline.stream.cursor.version → version < source.commits.length
  silent : emitted source config.changePolicy (resumePoint config target)
    pipeline.stream.cursor.version = []

section Tables

variable {config : ResolvedPipeline τ T K P} {engine : Engine ρ τ T K P} {source : DeltaLog ρ}
  {target : DeltaLog τ}

private theorem FreshTarget.noOffset (fresh : FreshTarget config target) :
    transactionVersion target config.appId = none :=
  transactionVersion_foreign fun commit member => (fresh.foreign commit member).1

private theorem FreshTarget.appended (fresh : FreshTarget config target)
    (numbered : source.commits.length ≤ 2 ^ 64) : Appended config engine source target where
  offset := by
    intro stored impossible
    rw [fresh.noOffset] at impossible
    cases impossible
  batches := by
    rw [fresh.empty, resumePoint, fresh.noOffset]
    exact Delivered.start config engine source config.startingVersion
  numbered := numbered
  removesNothing := fun commit member => (fresh.foreign commit member).2
  near := Or.inl fresh.short
  records := by
    intro _configured commit member ours
    rw [(fresh.foreign commit member).1] at ours
    cases ours

private theorem Appended.start_le (appended : Appended config engine source target) :
    config.startingVersion ≤ resumePoint config target := by
  unfold resumePoint
  cases stored : transactionVersion target config.appId with
  | none => exact Nat.le_refl _
  | some offset =>
      obtain ⟨version, same, low, _high⟩ := appended.offset offset stored
      subst same
      exact Nat.le_succ_of_le low

private theorem Appended.resumePoint_le (appended : Appended config engine source target) :
    resumePoint config target ≤ max config.startingVersion source.commits.length := by
  unfold resumePoint
  cases stored : transactionVersion target config.appId with
  | none => exact Nat.le_max_left _ _
  | some offset =>
      obtain ⟨version, same, _low, high⟩ := appended.offset offset stored
      subst same
      exact Nat.le_trans high (Nat.le_max_right _ _)

private theorem mem_of_readCommitEntry {log : DeltaLog τ} {version : Nat}
    {actions : List (Action τ)} (found : log.readCommitEntry version = some actions) :
    ∃ commit, log.commits[version]? = some commit ∧ commit.actions = actions := by
  rw [DeltaLog.readCommitEntry_eq] at found
  split at found
  · cases found
  · exact Option.map_eq_some_iff.mp found

private theorem Appended.untouched (appended : Appended config engine source target) :
    targetState target config.appId defaultMaxScan = .oursOrUntouched := by
  cases state : targetState target config.appId defaultMaxScan with
  | oursOrUntouched => rfl
  | overwrittenAt version =>
      obtain ⟨within, why, later⟩ := targetState_overwrittenAt state
      rcases why with beyond | ⟨actions, found, _foreign, removes⟩
      · rcases appended.near with short | ⟨commit, last, ours⟩
        · unfold DeltaLog.head at beyond
          unfold defaultMaxScan at *
          omega
        · have below : version < target.head := by
            unfold defaultMaxScan at beyond
            omega
          obtain ⟨actions, found, foreign, _keeps⟩ := later target.head below (Nat.le_refl _)
          obtain ⟨newest, atHead, same⟩ := mem_of_readCommitEntry found
          rw [List.getLast?_eq_getElem?] at last
          change target.commits[target.head]? = _ at last
          rw [last] at atHead
          cases atHead
          rw [same, foreign] at ours
          cases ours
      · obtain ⟨commit, present, same⟩ := mem_of_readCommitEntry found
        have keeps := appended.removesNothing commit (List.mem_of_getElem? present)
        rw [same, removes] at keeps
        cases keeps

private theorem Appended.ours (appended : Appended config engine source target)
    (configured : config.dedup.isSome = true) :
    (ourLastCommit target config.appId defaultMaxScan).cutoff = none ∧
      ∀ committed, differentTable source (ourLastCommit target config.appId defaultMaxScan)
        committed = false := by
  rcases ourLastCommit_cases target config.appId defaultMaxScan with
    nothing | ⟨version, actions, _within, found, ours, described, _later⟩
  · rw [nothing]
    exact ⟨rfl, fun committed => rfl⟩
  · obtain ⟨commit, present, same⟩ := mem_of_readCommitEntry found
    have record := appended.records configured commit (List.mem_of_getElem? present)
      (by rw [same]; exact ours)
    rw [same] at record
    rw [described]
    refine ⟨record.outside version, fun committed => differentTable_of_kept fun id named => ?_⟩
    obtain ⟨seenAt, numbered, identified⟩ := record.kept version id named
    exact ⟨seenAt, by rw [numbered]; rfl, identified⟩

private theorem Appended.forwards (appended : Appended config engine source target)
    {resume : Resume T K P}
    (cursor : resume.cursor = StreamCursor.atVersion (resumePoint config target))
    (bootstrapping : resume.bootstrapping = (transactionVersion target config.appId).isNone) :
    logWentBackwards source resume = false := by
  unfold logWentBackwards
  rw [cursor, bootstrapping]
  cases stored : transactionVersion target config.appId with
  | none => rfl
  | some offset =>
      obtain ⟨version, same, _low, high⟩ := appended.offset offset stored
      subst same
      simp only [resumePoint, stored, Option.isNone_some, Bool.not_false, Bool.true_and,
        decide_eq_false_iff_not, StreamCursor.atVersion_version]
      change ¬source.head + 1 < version + 1
      unfold DeltaLog.head
      omega

private theorem inert_of_noRows {columns : DedupColumns τ T K P} {dedup : Dedup T K P}
    (read : Dedup.readPartitioned columns ([] : List τ) = .ok dedup) : dedup.isInert = true := by
  cases read
  unfold Dedup.isInert Dedup.empty
  split <;> rfl

/-- An open finds the offset and no window. -/
theorem Appended.opening (appended : Appended config engine source target)
    {pipeline : Pipeline T K P}
    (resolved : openPipeline config engine source target = .ok pipeline) :
    Ready config pipeline ∧
      pipeline.stream.cursor = StreamCursor.atVersion (resumePoint config target) ∧
      pipeline.cutoff = none ∧ IdentityKept source pipeline.stream.identity := by
  obtain ⟨resume, replaced, opening⟩ := openPipeline_semantics resolved
  have ready := opening.ready
  have identity := opening.identity.1
  have resumed := opening.cursor
  have covering := opening.covering
  cases opening.resuming with
  | rescanned version columns dedup overwritten configured read cursor bootstrapping rebuilt =>
      rw [appended.untouched] at overwritten
      cases overwritten
  | declared version through configured overwritten cursor bootstrapping rebuilt =>
      rw [appended.untouched] at overwritten
      cases overwritten
  | ordinary cursor bootstrapping rebuilt kept =>
      have forwards := appended.forwards cursor bootstrapping
      generalize judged : ourLastCommit target config.appId defaultMaxScan = ours at *
      have adjusting := opening.adjusting
      rw [judged] at adjusting
      cases adjusting with
      | replaced columns configured why =>
          obtain ⟨_outside, same⟩ := appended.ours (by rw [configured]; rfl)
          rw [judged] at same
          rw [same, forwards] at why
          rcases why with impossible | impossible
          · cases impossible
          · cases impossible
      | same sameTable _forwards =>
          rw [Option.getD_none] at resumed
          refine ⟨ready, resumed.trans cursor, ?_, identity⟩
          generalize pipeline.cutoff = cutoff at covering
          cases covering with
          | unconfigured without => rfl
          | nothing columns configured inferred => rfl
          | spent columns configured reason through resumed dedup inferred idle => rfl
          | opened columns configured reason through resumed dedup inferred active ahead =>
              obtain ⟨outside, _same⟩ := appended.ours (by rw [configured]; rfl)
              rw [judged] at outside
              simp only [inferCutoff, Option.isSome_none, Bool.false_eq_true, if_false, rebuilt,
                outside] at inferred
              cases stored : transactionVersion target config.appId with
              | some offset =>
                  rw [bootstrapping, stored] at inferred
                  cases inferred
              | none =>
                  have untouched := appended.batches.rows_eq_nil (by
                    rw [resumePoint, stored]
                    exact emitted_self source config.changePolicy config.startingVersion)
                  rw [bootstrapping, stored, untouched] at inferred
                  simp only [Option.isNone_none, if_true] at inferred
                  cases read : Dedup.readPartitioned columns ([] : List τ) with
                  | error error =>
                      rw [read] at inferred
                      cases inferred
                  | ok found =>
                      rw [read] at inferred
                      cases inferred
                      rw [inert_of_noRows read] at active
                      cases active

end Tables

section Events

variable {config : ResolvedPipeline τ T K P} {engine : Engine ρ τ T K P}

/-- The invariant of a run. -/
structure Exact (config : ResolvedPipeline τ T K P) (engine : Engine ρ τ T K P)
    (world : World ρ τ T K P) : Prop where
  tables : Appended config engine world.source world.target
  running : ∀ pipeline, world.process = some pipeline →
    Running config world.source world.target pipeline

private theorem Appended.started {source : DeltaLog ρ} {target : DeltaLog τ}
    {pipeline : Pipeline T K P} (appended : Appended config engine source target)
    (resolved : openPipeline config engine source target = .ok pipeline) :
    Running config source target pipeline := by
  obtain ⟨ready, cursor, outside, identity⟩ := appended.opening resolved
  exact
    { ready := ready
      outside := outside
      identity := fun _configured => identity
      ahead := by rw [cursor]; exact Nat.le_refl _
      reached := by
        intro version low high
        rw [cursor, StreamCursor.atVersion_version] at high
        omega
      silent := by rw [cursor]; exact emitted_self _ _ _ }

private theorem Pulled.stays_outside {source : DeltaLog ρ} {before after : Pipeline T K P}
    {result : Option (LogBatch ρ)} (pulled : Pulled config source before after result)
    (outside : before.cutoff = none) : after.cutoff = none := by
  cases pulled.window with
  | kept same within => rw [same, outside]
  | retired head middle was gone low past high silent => exact gone

private theorem Running.caughtUp {source : DeltaLog ρ} {target : DeltaLog τ}
    {before after : Pipeline T K P} (running : Running config source target before)
    (pulled : Pulled config source before after (none : Option (LogBatch ρ))) :
    Running config source target after where
  ready := pulled.ready
  outside := pulled.stays_outside running.outside
  identity configured := pulled.learns.kept (running.identity configured)
  ahead := Nat.le_trans running.ahead pulled.notBefore
  reached := by
    intro version low high
    by_cases early : version < before.stream.cursor.version
    · exact running.reached version low early
    · exact pulled.reached version (Nat.le_of_not_lt early) high
  silent := by
    rw [emitted_append source config.changePolicy running.ahead pulled.notBefore, running.silent,
      ← pulled.files]
    rfl

section Put

variable {source : DeltaLog ρ} {target : DeltaLog τ} {path : String}
  {before after : Pipeline T K P} {commit : Commit τ} {pulled : Pipeline T K P}
  {batch : LogBatch ρ} {output : List τ} {filtered : Filtered τ} {version : Nat}

private theorem Running.writes (running : Running config source target before)
    (committing : Committing config engine source path before after commit pulled batch output
      filtered version) :
    commit = sinkCommit path config.appId output version pulled.stream.identity none ∧
      after = pulled := by
  have outside := committing.pull.stays_outside running.outside
  have whole : filtered.kept = output := by
    have cut := committing.cutoff
    rw [outside] at cut
    unfold applyCutoff at cut
    cases configured : config.dedup with
    | none =>
        rw [configured] at cut
        cases cut
        rfl
    | some columns =>
        rw [configured] at cut
        simp only at cut
        cases timed : requireTimestamps columns output with
        | error error =>
            rw [timed] at cut
            cases cut
        | ok seen =>
            cases placed : requirePartitions columns output with
            | error error =>
                simp only [timed, placed] at cut
                cases cut
            | ok settled =>
                simp only [timed, placed] at cut
                cases cut
                rfl
  have unrecorded : ∀ closes, pulled.recordsAs closes = none := by
    intro closes
    unfold Pipeline.recordsAs
    rw [outside]
  constructor
  · rw [committing.commit, whole, unrecorded]
  · rw [committing.settled, Pipeline.settleCutoff_outside outside]

private theorem resumePoint_sinkCommit (identity : Option (Nat × String))
    (cutoff : Option RecordedCutoff) :
    resumePoint config
      (target.append (sinkCommit path config.appId output version identity cutoff)) =
      version + 1 := by
  unfold resumePoint
  rw [transactionVersion_sinkCommit]
  rfl

private theorem plainRecord_sinkCommit {rows : List τ} {offset : Int}
    {identity : Option (Nat × String)} (kept : IdentityKept source identity)
    (numbered : source.commits.length ≤ 2 ^ 64) :
    PlainRecord source (sinkCommit path config.appId rows offset identity none).actions := by
  have described := fun at_ => @describeOurs_sinkCommit τ path config.appId rows offset identity
    none at_ nofun
  constructor
  · intro at_
    exact (described at_).2.2
  · intro at_ id named
    rw [(described at_).1] at named
    obtain ⟨seen, known, same⟩ := Option.map_eq_some_iff.mp named
    have identified := kept seen.1 id (by rw [known, ← same])
    have small := Nat.lt_of_lt_of_le identified.lt numbered
    refine ⟨seen.1, ?_, identified⟩
    rw [(described at_).2.1, known, Option.map_some, Option.bind_some, if_pos small]

private theorem Appended.put (appended : Appended config engine source target)
    (running : Running config source target before)
    (committing : Committing config engine source path before after commit pulled batch output
      filtered version) : Appended config engine source (target.append commit) := by
  obtain ⟨shape, _settled⟩ := running.writes committing
  have finish := committing.finish
  have finishVersion : pulled.stream.cursor.version = version + 1 := by rw [finish]; rfl
  obtain ⟨low, high, _boundary, _quiet⟩ := committing.pull.start batch rfl
  have ahead := running.ahead
  have start := appended.start_le
  have onward := committing.pull.notBefore
  rw [finishVersion] at high onward
  have files : batch.entries = emitted source config.changePolicy
      (resumePoint config target) (version + 1) := by
    rw [emitted_append source config.changePolicy ahead onward, running.silent, List.nil_append,
      ← finishVersion]
    exact committing.pull.files
  subst shape
  exact
    { offset := by
        intro stored found
        rw [transactionVersion_sinkCommit] at found
        cases found
        refine ⟨version, rfl, by omega, committing.pull.reached version (by omega) ?_⟩
        rw [finishVersion]
        exact Nat.lt_succ_self version
      batches := by
        rw [resumePoint_sinkCommit, tableRows_sinkCommit]
        exact appended.batches.deliver start (by omega) files committing.delivery
      numbered := appended.numbered
      removesNothing := by
        intro one member
        rcases List.mem_append.mp member with earlier | last
        · exact appended.removesNothing one earlier
        · rw [List.mem_singleton] at last
          rw [last]
          exact sinkCommit_rewritesData _ _ _ _ _ _
      near := Or.inr ⟨_, List.getLast?_concat, sinkCommit_carriesTxn _ _ _ _ _ _⟩
      records := by
        intro configured one member ours
        rcases List.mem_append.mp member with earlier | last
        · exact appended.records configured one earlier ours
        · rw [List.mem_singleton] at last
          rw [last]
          exact plainRecord_sinkCommit (committing.pull.learns.kept (running.identity configured))
            appended.numbered }

private theorem Running.put (running : Running config source target before)
    (committing : Committing config engine source path before after commit pulled batch output
      filtered version) : Running config source (target.append commit) after := by
  obtain ⟨shape, settled⟩ := running.writes committing
  have finishVersion : pulled.stream.cursor.version = version + 1 := by
    rw [committing.finish]
    rfl
  subst shape
  subst settled
  exact
    { ready := committing.pull.ready
      outside := committing.pull.stays_outside running.outside
      identity := fun configured => committing.pull.learns.kept (running.identity configured)
      ahead := by
        rw [resumePoint_sinkCommit, finishVersion]
      reached := by
        intro version' low high
        rw [resumePoint_sinkCommit] at low
        omega
      silent := by
        rw [resumePoint_sinkCommit, finishVersion]
        exact emitted_self _ _ _ }

end Put

private theorem Exact.moved {before after : World ρ τ T K P} (exact_ : Exact config engine before)
    (moved : World.Moved config engine before after) : Exact config engine after := by
  cases moved with
  | idle => exact exact_
  | stopped =>
      refine ⟨exact_.tables, ?_⟩
      intro pipeline impossible
      cases impossible
  | opened pipeline resolved =>
      refine ⟨exact_.tables, ?_⟩
      intro _ same
      cases same
      exact exact_.tables.started resolved
  | caughtUp running after budget retryBudget runs stepped =>
      have was := exact_.running running runs
      refine ⟨exact_.tables, ?_⟩
      intro _ same
      cases same
      exact was.caughtUp (stepDelta_caughtUp was.ready stepped)
  | put running after budget retryBudget commit process runs stepped goesOn =>
      have was := exact_.running running runs
      obtain ⟨pulled, batch, output, filtered, version, committing⟩ :=
        stepDelta_commits was.ready stepped
      refine ⟨exact_.tables.put was committing, ?_⟩
      intro pipeline stays
      rcases goesOn with stopped | onward
      · subst stopped
        cases stays
      · subst onward
        cases stays
        exact was.put committing

private theorem Appended.grown {source source' : DeltaLog ρ} {target target' : DeltaLog τ}
    (appended : Appended config engine source target)
    (happens : AppendsOnly config source target source' target') :
    Appended config engine source' target' := by
  have longer := happens.grows.length_le
  have sameOffset : transactionVersion target' config.appId =
      transactionVersion target config.appId := by
    unfold transactionVersion
    rw [happens.untouched]
  have sameRows : tableRows target' = tableRows target := by
    unfold tableRows
    rw [happens.untouched]
  have samePoint : resumePoint config target' = resumePoint config target := by
    unfold resumePoint
    rw [sameOffset]
  exact
    { offset := by
        intro stored found
        rw [sameOffset] at found
        obtain ⟨version, same, low, high⟩ := appended.offset stored found
        exact ⟨version, same, low, by omega⟩
      batches := by
        rw [samePoint, sameRows]
        exact appended.batches.extends happens.grows appended.resumePoint_le
      numbered := happens.numbered
      removesNothing := by
        rw [happens.untouched]
        exact appended.removesNothing
      near := by
        rw [happens.untouched]
        exact appended.near
      records := by
        intro configured commit member ours
        rw [happens.untouched] at member
        have record := appended.records configured commit member ours
        refine ⟨record.outside, fun at_ id named => ?_⟩
        obtain ⟨seenAt, numbered, identified⟩ := record.kept at_ id named
        obtain ⟨state, loaded, known⟩ := identified
        have loadable := happens.loadable configured seenAt (DeltaLog.logState_lt loaded).2
        exact ⟨seenAt, numbered, IdentifiedAt.extends happens.grows ⟨state, loaded, known⟩
          loadable⟩ }

private theorem Running.grown {source source' : DeltaLog ρ} {target target' : DeltaLog τ}
    {pipeline : Pipeline T K P} (running : Running config source target pipeline)
    (happens : AppendsOnly config source target source' target') :
    Running config source' target' pipeline := by
  have samePoint : resumePoint config target' = resumePoint config target := by
    unfold resumePoint transactionVersion
    rw [happens.untouched]
  have ahead := running.ahead
  have within : pipeline.stream.cursor.version ≤
      max (resumePoint config target) source.commits.length := by
    by_cases still : pipeline.stream.cursor.version ≤ resumePoint config target
    · omega
    · have last := running.reached (pipeline.stream.cursor.version - 1) (by omega) (by omega)
      omega
  exact
    { ready := running.ready
      outside := running.outside
      identity := by
        intro configured seenAt was same
        obtain ⟨state, loaded, known⟩ := running.identity configured seenAt was same
        exact IdentifiedAt.extends happens.grows ⟨state, loaded, known⟩
          (happens.loadable configured seenAt (DeltaLog.logState_lt loaded).2)
      ahead := by rw [samePoint]; exact ahead
      reached := by
        intro version low high
        rw [samePoint] at low
        exact Nat.lt_of_lt_of_le (running.reached version low high) happens.grows.length_le
      silent := by
        rw [samePoint, emitted_extends happens.grows config.changePolicy within]
        exact running.silent }

end Events

/-- Whatever order opens, steps, crashes on either side of a commit and source commits come in,
the target holds the transform of the versions its offset covers. -/
theorem appending_exactlyOnce (config : ResolvedPipeline τ T K P) (engine : Engine ρ τ T K P)
    (first last : World ρ τ T K P) (numbered : first.source.commits.length ≤ 2 ^ 64)
    (fresh : FreshTarget config first.target) (stopped : first.process = none)
    (run : World.Runs config engine (AppendsOnly config) first last) :
    ExactlyOnce config engine last.source last.target := by
  have exact_ : Exact config engine last := by
    refine run.invariant ⟨fresh.appended numbered, ?_⟩ ?_ ?_
    · intro pipeline running
      rw [stopped] at running
      cases running
    · intro before after holds moved
      exact holds.moved moved
    · intro before source target holds happens
      exact ⟨holds.tables.grown happens, fun pipeline runs =>
        (holds.running pipeline runs).grown happens⟩
  exact
    { offset := exact_.tables.offset
      batches := exact_.tables.batches
      rowwise := fun image local_ => exact_.tables.batches.rowwise local_
      resumes := by
        intro pipeline resolved
        obtain ⟨_ready, cursor, outside, _identity⟩ := exact_.tables.opening resolved
        exact ⟨cursor, outside⟩ }

/-- Two appends and a compaction between them. -/
def sampleSource : DeltaLog Nat where
  commits :=
    [{ actions := [.metaData { id := some "t", schemaString := "s" },
        .add { path := "a", rows := [1, 2] }] },
      { actions := [.add { path := "c", dataChange := false, rows := [1, 2] },
        .remove { path := "a", dataChange := false }] },
      { actions := [.add { path := "b", rows := [3] }] }]

def sampleConfig : ResolvedPipeline Nat Nat Nat Nat where
  name := "p"
  appId := "p"
  sourceUri := "s"
  startingVersion := 0
  changePolicy := .fail
  maxFilesPerBatch := 1
  maxBytesPerBatch := 1
  hasLookups := false
  watermarkUri := none
  dedup := none

def sampleEngine : Engine Nat Nat Nat Nat Nat where
  transform := fun _ rows => .ok rows
  timestampBounds :=
    { boundOfScalar := fun _ => none,
      ordered := TimestampBounds.ordered_of_none, slack := none,
      parseTimestampMicros := fun _ => none }
  sourceColumns :=
    { has := fun _ => false, timestamp := fun _ => none, partition := fun _ => none,
      key := fun _ => none, readable := fun _ => false, hasKey := fun _ => false,
      partitionKey := List.length }
  declaredWatermark := .ok none

def sampleWorld : World Nat Nat Nat Nat Nat where
  source := sampleSource
  target := { commits := [{ actions := [.metaData { id := some "u", schemaString := "s" }] }] }
  process := none

/-- A commit that lands unseen, one that is lost, and one that is seen. -/
def sampleMoves : List Move :=
  [.start, .step none none .unseen, .start, .step none none .lost, .start,
    .step none none .seen]

theorem sampleWorld_exactlyOnce :
    tableRows (sampleWorld.moves sampleConfig sampleEngine sampleMoves).target = [1, 2, 3] ∧
      ExactlyOnce sampleConfig sampleEngine
        (sampleWorld.moves sampleConfig sampleEngine sampleMoves).source
        (sampleWorld.moves sampleConfig sampleEngine sampleMoves).target :=
  ⟨rfl, appending_exactlyOnce sampleConfig sampleEngine sampleWorld _ (by decide)
    { empty := rfl
      foreign := by
        intro commit member
        rw [List.mem_singleton.mp member]
        exact ⟨rfl, rfl⟩
      short := by decide }
    rfl (World.Runs.ofMoves sampleConfig sampleEngine _ sampleWorld sampleMoves)⟩

end Ddi
