/-
A window that a commit has recorded ends at the source version it recorded, whatever happens later:
every open that comes within reach of that commit takes the same head from it or starts outside any
window, and no pull inside a window goes past its head. Times play no part in this.
-/

import Ddi.Pipeline.Handover
import Ddi.TargetHistory

namespace Ddi

open Ddi.Delta
open Ddi.Source

set_option linter.unusedSectionVars false

variable {ρ τ T K P : Type} [LinearOrder T] [DecidableEq K] [DecidableEq P]

/-- Every state of a log that can still be loaded has one table id. -/
def KeepsId (source : DeltaLog ρ) (id : Option String) : Prop :=
  ∀ version state, source.logState (some version) = .ok state → state.metadata.id = id

/-- The source grows and stays the table it is; the target is anyone's. -/
def SourceKept (ρ τ : Type) : Outside ρ τ := fun source _target source' _target' =>
  Extends source source' ∧ ∀ id, KeepsId source id → KeepsId source' id

/-- So does the source, and what others put in the target removes nothing. -/
structure TargetKept (config : ResolvedPipeline τ T K P) (source : DeltaLog ρ)
    (target : DeltaLog τ) (source' : DeltaLog ρ) (target' : DeltaLog τ) : Prop where
  source : SourceKept ρ τ source target source' target'
  appended : ∃ more : List (Commit τ), target'.commits = target.commits ++ more ∧
    ∀ commit, commit ∈ more →
      carriesTxn config.appId commit.actions = false ∧ rewritesData commit.actions = false

/-- And our newest commit stays within the reach of the walks over the target's log. -/
structure WithinReach (config : ResolvedPipeline τ T K P) (source : DeltaLog ρ)
    (target : DeltaLog τ) (source' : DeltaLog ρ) (target' : DeltaLog τ) : Prop
    extends TargetKept config source target source' target' where
  near : ∀ ours, NewestOurs target' config.appId ours → target'.head - ours < defaultMaxScan

/-- A step whose commit records a window that ends at a source version, seen to land or not. -/
structure RecordsHead (config : ResolvedPipeline τ T K P) (engine : Engine ρ τ T K P) (head : Nat)
    (before after : World ρ τ T K P) : Prop where
  put : ∃ running settled budget retryBudget commit recorded,
    before.process = some running ∧
    stepDelta config engine before.source (nextPath before.target) budget retryBudget running =
      .commits commit settled ∧
    recordedCutoff commit.actions = some recorded ∧ recorded.sourceThrough = some head ∧
    after.target = before.target.append commit ∧
    (after.process = none ∨ after.process = some settled)
  source : after.source = before.source

/-- While a window is open a batch ends at its head, and no row of a commit past the head is
dropped. -/
def LateKept (config : ResolvedPipeline τ T K P) (head : Nat) (world : World ρ τ T K P) : Prop :=
  ∀ running budget retryBudget batch (pulled : Pipeline T K P), world.process = some running →
    pullBatch world.source budget retryBudget running = (.ok (some batch), pulled) →
      (pulled.cutoff ≠ none → ∀ entry, entry ∈ batch.entries → entry.1 ≤ head) ∧
      ((∃ entry, entry ∈ batch.entries ∧ head < entry.1) → ∀ output filtered,
        applyCutoff config pulled.cutoff output = .ok filtered → filtered.kept = output)

/-! ### The commits of a log as they were written -/

section Written

variable {log : DeltaLog τ} {appId : String} {version : Nat}

theorem oursAt_written : OursAt log.written appId version ↔
    ∃ commit : Commit τ, log.commits[version]? = some commit ∧
      carriesTxn appId commit.actions = true := by
  constructor
  · rintro ⟨actions, found, ours⟩
    obtain ⟨commit, present, same⟩ := Option.map_eq_some_iff.mp found
    exact ⟨commit, present, by rw [same]; exact ours⟩
  · rintro ⟨commit, present, ours⟩
    exact ⟨commit.actions, Option.map_eq_some_iff.mpr ⟨commit, present, rfl⟩, ours⟩

theorem rewrittenAt_written : RewrittenAt log.written appId version ↔
    ∃ commit : Commit τ, log.commits[version]? = some commit ∧
      carriesTxn appId commit.actions = false ∧ rewritesData commit.actions = true := by
  constructor
  · rintro ⟨actions, found, foreign, rewrites⟩
    obtain ⟨commit, present, same⟩ := Option.map_eq_some_iff.mp found
    subst same
    exact ⟨commit, present, foreign, rewrites⟩
  · rintro ⟨commit, present, foreign, rewrites⟩
    exact ⟨commit.actions, Option.map_eq_some_iff.mpr ⟨commit, present, rfl⟩, foreign, rewrites⟩

end Written

/-! ### The newest commit of ours -/

/-- What our newest commit says, with nothing of ours and no rewrite after it. -/
structure Recalls (config : ResolvedPipeline τ T K P) (id : Option String) (head : Nat)
    (target : DeltaLog τ) (number : Nat) : Prop where
  newest : NewestOurs target config.appId number
  unwritten : ∀ later, number < later → ¬ RewrittenAt target.written config.appId later
  near : target.head - number < defaultMaxScan
  window : ∀ (commit : Commit τ) recorded, target.commits[number]? = some commit →
    recordedCutoff commit.actions = some recorded → recorded.sourceThrough = some head
  table : ∀ (commit : Commit τ) was, target.commits[number]? = some commit →
    (commitInfoValue commit.actions sourceTableIdKey).bind Json.asStr = some was → id = some was

section Recalls

variable {config : ResolvedPipeline τ T K P} {id : Option String} {head number : Nat}
  {target : DeltaLog τ}

/-- A target in whose reach our newest commit lies is not taken for overwritten. -/
theorem Recalls.untouched (recalls : Recalls config id head target number) (version : Nat) :
    targetState target config.appId defaultMaxScan ≠ .overwrittenAt version := by
  intro overwritten
  obtain ⟨within, why, later⟩ := targetState_overwrittenAt overwritten
  have here := recalls.newest.1
  have not_after : number ≤ version := by
    apply Nat.le_of_not_lt
    intro after
    exact (later number after here.within).not_ours here
  rcases why with far | rewritten
  · have near := recalls.near
    omega
  · obtain ⟨actions, found, foreign, rewrites⟩ := rewritten
    rcases Nat.lt_or_eq_of_le not_after with after | same
    · exact recalls.unwritten version after
        ⟨actions, DeltaLog.readCommitEntry_written found, foreign, rewrites⟩
    · obtain ⟨other, found', ours⟩ := here
      rw [same, DeltaLog.readCommitEntry_written found] at found'
      cases found'
      rw [foreign] at ours
      cases ours

/-- What an open finds our newest commit to have recorded. -/
theorem Recalls.ours (recalls : Recalls config id head target number) :
    (∀ recorded, (ourLastCommit target config.appId defaultMaxScan).cutoff = some recorded →
      recorded.sourceThrough = some head) ∧
    ∀ was, (ourLastCommit target config.appId defaultMaxScan).sourceTableId = some was →
      id = some was := by
  rcases ourLastCommit_cases target config.appId defaultMaxScan with
    default | ⟨version, actions, within, found, ours, described, later⟩
  · rw [default]
    exact ⟨nofun, nofun⟩
  · have written := DeltaLog.readCommitEntry_written found
    obtain ⟨commit, present, same⟩ := Option.map_eq_some_iff.mp written
    have at_ : version = number := by
      rcases Nat.lt_trichotomy version number with before | equal | after
      · obtain ⟨other, found', foreign⟩ := later number before recalls.newest.1.within
        obtain ⟨own, found_own, carries⟩ := recalls.newest.1
        rw [DeltaLog.readCommitEntry_written found'] at found_own
        cases found_own
        rw [foreign] at carries
        cases carries
      · exact equal
      · exact absurd ⟨actions, written, ours⟩ (recalls.newest.2 version after)
    rw [described]
    subst same
    subst at_
    constructor
    · intro recorded known
      exact recalls.window commit recorded present known
    · intro was known
      exact recalls.table commit was present known

/-- Others' commits leave it the newest. -/
theorem Recalls.appended (recalls : Recalls config id head target number) {target' : DeltaLog τ}
    {more : List (Commit τ)} (same : target'.commits = target.commits ++ more)
    (foreign : ∀ commit, commit ∈ more →
      carriesTxn config.appId commit.actions = false ∧ rewritesData commit.actions = false)
    (near : ∀ ours, NewestOurs target' config.appId ours → target'.head - ours < defaultMaxScan) :
    Recalls config id head target' number := by
  obtain ⟨commit, present, ours⟩ := oursAt_written.mp recalls.newest.1
  have within : number < target.commits.length := (List.getElem?_eq_some_iff.mp present).1
  have early : ∀ version, version < target.commits.length →
      target'.commits[version]? = target.commits[version]? := by
    intro version before
    rw [same, List.getElem?_append_left before]
  have late : ∀ (version : Nat) (other : Commit τ), target.commits.length ≤ version →
      target'.commits[version]? = some other → other ∈ more := by
    intro version other after found
    rw [same, List.getElem?_append_right after] at found
    exact List.mem_of_getElem? found
  have newest : NewestOurs target' config.appId number := by
    constructor
    · exact oursAt_written.mpr ⟨commit, by rw [early number within]; exact present, ours⟩
    · intro later above claimed
      obtain ⟨other, found, carries⟩ := oursAt_written.mp claimed
      rcases Nat.lt_or_ge later target.commits.length with before | after
      · rw [early later before] at found
        exact recalls.newest.2 later above (oursAt_written.mpr ⟨other, found, carries⟩)
      · rw [(foreign other (late later other after found)).1] at carries
        cases carries
  constructor
  · exact newest
  · intro later above claimed
    obtain ⟨other, found, not_ours, rewrites⟩ := rewrittenAt_written.mp claimed
    rcases Nat.lt_or_ge later target.commits.length with before | after
    · rw [early later before] at found
      exact recalls.unwritten later above (rewrittenAt_written.mpr ⟨other, found, not_ours, rewrites⟩)
    · rw [(foreign other (late later other after found)).2] at rewrites
      cases rewrites
  · exact near number newest
  · intro other recorded found
    rw [early number within] at found
    exact recalls.window other recorded found
  · intro other was found
    rw [early number within] at found
    exact recalls.table other was found

theorem recalls_put {commit : Commit τ} (ours : carriesTxn config.appId commit.actions = true)
    (window : ∀ recorded, recordedCutoff commit.actions = some recorded →
      recorded.sourceThrough = some head)
    (table : ∀ was, (commitInfoValue commit.actions sourceTableIdKey).bind Json.asStr = some was →
      id = some was) :
    Recalls config id head (target.append commit) target.commits.length := by
  have last : (target.append commit).commits[target.commits.length]? = some commit :=
    List.getElem?_concat_length
  have beyond : ∀ later, target.commits.length < later →
      (target.append commit).commits[later]? = none := by
    intro later above
    apply List.getElem?_eq_none
    change (target.commits ++ [commit]).length ≤ later
    rw [List.length_append, List.length_singleton]
    omega
  constructor
  · constructor
    · exact oursAt_written.mpr ⟨commit, last, ours⟩
    · intro later above claimed
      obtain ⟨other, found, _carries⟩ := oursAt_written.mp claimed
      rw [beyond later above] at found
      cases found
  · intro later above claimed
    obtain ⟨other, found, _rest⟩ := rewrittenAt_written.mp claimed
    rw [beyond later above] at found
    cases found
  · rw [head_append, Nat.sub_self]
    decide
  · intro other recorded found
    rw [last] at found
    cases found
    exact window recorded
  · intro other was found
    rw [last] at found
    cases found
    exact table was

end Recalls

/-! ### The process -/

/-- A process that knows its source by the one id it has. -/
structure Knows (config : ResolvedPipeline τ T K P) (id : Option String)
    (pipeline : Pipeline T K P) : Prop where
  ready : Ready config pipeline
  table : ∀ seenAt was, pipeline.stream.identity = some (seenAt, was) → id = some was

section Process

variable {config : ResolvedPipeline τ T K P} {engine : Engine ρ τ T K P} {id : Option String}
  {source : DeltaLog ρ} {target : DeltaLog τ} {head : Nat}

theorem KeepsId.of_identifiedAt (keeps : KeepsId source id) {version : Nat} {was : String}
    (identified : IdentifiedAt source version was) : id = some was := by
  obtain ⟨state, loaded, known⟩ := identified
  rw [← keeps version state loaded, known]

theorem Knows.pulled {before pulled : Pipeline T K P} {result : Option (LogBatch ρ)}
    (knows : Knows config id before) (keeps : KeepsId source id)
    (pull : Pulled config source before pulled result) : Knows config id pulled where
  ready := pull.ready
  table := by
    intro seenAt was known
    have learns := pull.learns
    have table := knows.table
    generalize pulled.stream.identity = identity at learns known
    generalize before.stream.identity = earlier at learns table
    cases learns with
    | nothing => exact table seenAt was known
    | newer _ version _ now identified _anywhere =>
        cases known
        exact keeps.of_identifiedAt identified

theorem Knows.settled {pulled : Pipeline T K P} (knows : Knows config id pulled) (closes : Option Bool) (covered : Nat) :
    Knows config id (pulled.settleCutoff closes covered) where
  ready := Pipeline.settleCutoff_ready knows.ready closes covered
  table := by
    have same : (pulled.settleCutoff closes covered).stream.identity = pulled.stream.identity := by
      unfold Pipeline.settleCutoff
      simp only
      split
      · rw [Pipeline.retire_stream]
      · rfl
    rw [same]
    exact knows.table

theorem Knows.opened {after : Pipeline T K P} (keeps : KeepsId source id)
    (resolved : openPipeline config engine source target = .ok after) : Knows config id after := by
  obtain ⟨resume, replaced, opening⟩ := openPipeline_semantics resolved
  constructor
  · exact opening.ready
  · intro seenAt was known
    exact keeps.of_identifiedAt (opening.identity.1 seenAt was known)

/-- Every process of a run that starts without one knows its source. -/
theorem World.Runs.knows {first last : World ρ τ T K P}
    (run : World.Runs config engine (SourceKept ρ τ) first last) (stopped : first.process = none)
    (keeps : KeepsId first.source id) :
    KeepsId last.source id ∧
      ∀ running, last.process = some running → Knows config id running := by
  apply run.invariant
  · refine ⟨keeps, fun running runs => ?_⟩
    rw [stopped] at runs
    cases runs
  · rintro before after ⟨kept, knows⟩ moved
    refine ⟨by rw [moved.source]; exact kept, ?_⟩
    cases moved with
    | idle => exact knows
    | stopped => exact nofun
    | opened pipeline resolved =>
        intro _ same
        cases same
        exact .opened kept resolved
    | caughtUp running after budget retryBudget runs stepped =>
        intro _ same
        cases same
        have was := knows running runs
        exact was.pulled kept (stepDelta_caughtUp was.ready stepped)
    | put running after budget retryBudget commit process runs stepped goesOn =>
        have was := knows running runs
        obtain ⟨pulled, batch, output, filtered, version, committing⟩ :=
          stepDelta_commits was.ready stepped
        intro settled stays
        rcases goesOn with gone | onward
        · rw [gone] at stays
          cases stays
        · rw [onward] at stays
          cases stays
          rw [committing.settled]
          exact (was.pulled kept committing.pull).settled _ _
  · rintro before source target ⟨kept, knows⟩ happens
    exact ⟨happens.2 id kept, knows⟩

end Process

/-! ### From the commit that recorded the window on -/

/-- The tables and the process once a window has been recorded that ends at a source version. -/
structure Bounded (config : ResolvedPipeline τ T K P) (id : Option String) (head : Nat)
    (world : World ρ τ T K P) : Prop where
  keeps : KeepsId world.source id
  offset : ∃ stored : Nat, transactionVersion world.target config.appId = some (Int.ofNat stored) ∧
    stored < world.source.commits.length
  recalls : ∃ number, Recalls config id head world.target number
  knows : ∀ running, world.process = some running → Knows config id running
  ends : ∀ running cutoff, world.process = some running → running.cutoff = some cutoff →
    cutoff.window.through = some head

section Bounded

variable {config : ResolvedPipeline τ T K P} {engine : Engine ρ τ T K P} {id : Option String}
  {head : Nat} {world after : World ρ τ T K P}

theorem bounded_put {running settled : Pipeline T K P} {path : String}
    {budget retryBudget : Option Nat} {commit : Commit τ} (keeps : KeepsId world.source id)
    (knows : Knows config id running)
    (stepped : stepDelta config engine world.source path budget retryBudget running =
      .commits commit settled)
    (records : ∀ recorded, recordedCutoff commit.actions = some recorded →
      recorded.sourceThrough = some head)
    (ends : ∀ cutoff, settled.cutoff = some cutoff → cutoff.window.through = some head)
    {process : Option (Pipeline T K P)} (goesOn : process = none ∨ process = some settled) :
    Bounded config id head
      { world with target := world.target.append commit, process := process } := by
  obtain ⟨pulled, batch, output, filtered, version, committing⟩ :=
    stepDelta_commits knows.ready stepped
  have pull := knows.pulled keeps committing.pull
  have commit_eq := committing.commit
  have finish : pulled.stream.cursor.version = version + 1 := by
    rw [committing.finish]
    rfl
  constructor
  · exact keeps
  · refine ⟨version, ?_, ?_⟩
    · rw [commit_eq]
      exact transactionVersion_sinkCommit _ _ _ _ _ _ _
    · obtain ⟨low, high, _boundary, _quiet⟩ := committing.pull.start batch rfl
      apply committing.pull.reached version
      · omega
      · omega
  · refine ⟨world.target.commits.length, recalls_put ?_ records ?_⟩
    · rw [commit_eq]
      exact sinkCommit_carriesTxn _ _ _ _ _ _
    · intro was named
      rw [commit_eq, sinkCommit_sourceTableId] at named
      obtain ⟨⟨seenAt, now⟩, known, same⟩ := Option.map_eq_some_iff.mp named
      rw [← same]
      exact pull.table seenAt now known
  · intro other runs
    rcases goesOn with gone | onward
    · rw [gone] at runs
      cases runs
    · rw [onward] at runs
      cases runs
      rw [committing.settled]
      exact pull.settled _ _
  · intro other cutoff runs open_
    rcases goesOn with gone | onward
    · rw [gone] at runs
      cases runs
    · rw [onward] at runs
      cases runs
      exact ends cutoff open_

/-- The window a step leaves open is the one its commit records. -/
theorem Committing.recorded {source : DeltaLog ρ} {path : String}
    {before settled pulled : Pipeline T K P} {commit : Commit τ} {batch : LogBatch ρ}
    {output : List τ} {filtered : Filtered τ} {version : Nat} {cutoff : Cutoff T K P}
    (committing : Committing config engine source path before settled commit pulled batch output
      filtered version) (open_ : settled.cutoff = some cutoff) :
    pulled.recordsAs (pulled.closesAfter pulled.stream.cursor filtered.beyond) =
      some cutoff.recorded := by
  rw [← Pipeline.settleCutoff_recorded, ← committing.settled, open_]
  rfl

/-- The commit that records the window. -/
theorem RecordsHead.bounded (records : RecordsHead config engine head world after)
    (keeps : KeepsId world.source id)
    (knows : ∀ running, world.process = some running → Knows config id running) :
    Bounded config id head after := by
  obtain ⟨⟨running, settled, budget, retryBudget, commit, recorded, runs, stepped, read, through,
    target, process⟩, source⟩ := records
  have was := knows running runs
  have same : after =
      { world with target := world.target.append commit, process := after.process } := by
    obtain ⟨source', target', process'⟩ := after
    simp only at source target
    rw [source, target]
  rw [same]
  apply bounded_put keeps was stepped _ _ process
  · intro other read'
    rw [read] at read'
    cases read'
    exact through
  · intro cutoff open_
    obtain ⟨pulled, batch, output, filtered, version, committing⟩ :=
      stepDelta_commits was.ready stepped
    rw [committing.commit] at read
    have window := sinkCommit_recordedCutoff_some read
    rw [committing.recorded open_] at window
    rw [← Option.some.inj window] at through
    exact through

theorem inferCutoff_resumed {columns : DedupColumns τ T K P} {source : DeltaLog ρ}
    {target : DeltaLog τ} {ours : OurLastCommit} {resume : Resume T K P} {cursor : StreamCursor}
    {reason : CoverageReason} {through : Option Nat} {resumed : Bool} {dedup : Dedup T K P}
    (without : resume.rebuilt = none) (running : resume.bootstrapping = false)
    (found : inferCutoff config columns source target ours resume false cursor =
      .ok (some (reason, through, resumed, dedup))) :
    ∃ recorded, ours.cutoff = some recorded ∧ through = recorded.sourceThrough := by
  unfold inferCutoff at found
  simp only [without, running, Bool.false_eq_true, if_false] at found
  cases known : ours.cutoff with
  | none =>
      rw [known] at found
      cases found
  | some recorded =>
      refine ⟨recorded, rfl, ?_⟩
      rw [known] at found
      have resumes : (if recorded.partitionColumns = columns.partitionColumns then
          (Dedup.readPartitioned columns (tableRows target)).map fun dedup =>
            some (recorded.reason, recorded.sourceThrough, true, dedup)
          else .ok none) = .ok (some (reason, through, resumed, dedup)) →
          through = recorded.sourceThrough := by
        intro ok
        split at ok
        · cases read : Dedup.readPartitioned columns (tableRows target) with
          | error error =>
              rw [read] at ok
              cases ok
          | ok marks =>
              rw [read] at ok
              cases ok
              rfl
        · cases ok
      cases last : recorded.sourceThrough with
      | none =>
          simp only [last, Bool.false_eq_true, if_false] at found
          rw [← last] at found ⊢
          exact resumes found
      | some bound =>
          cases silent : hasDataCommitBetween source cursor.version bound with
          | true =>
              simp only [last, silent, Bool.not_true, Bool.false_eq_true, if_false] at found
              rw [← last] at found ⊢
              exact resumes found
          | false =>
              simp only [last, silent, Bool.not_false, if_true] at found
              cases found

/-- An open takes the head from our newest commit, or starts outside any window. -/
theorem Bounded.opened (bounded : Bounded config id head world) {pipeline : Pipeline T K P}
    (resolved : openPipeline config engine world.source world.target = .ok pipeline)
    {cutoff : Cutoff T K P} (open_ : pipeline.cutoff = some cutoff) :
    cutoff.window.through = some head := by
  obtain ⟨resume, replaced, opening⟩ := openPipeline_semantics resolved
  obtain ⟨number, recalls⟩ := bounded.recalls
  obtain ⟨stored, offset, within⟩ := bounded.offset
  obtain ⟨recorded_head, recorded_id⟩ := recalls.ours
  have ordinary : resume.bootstrapping = false ∧ resume.rebuilt = none ∧
      resume.cursor = StreamCursor.atVersion (stored + 1) := by
    cases opening.resuming with
    | ordinary cursor bootstrapping rebuilt kept =>
        rw [resumePoint, offset] at cursor
        rw [offset] at bootstrapping
        exact ⟨bootstrapping, rebuilt, cursor⟩
    | rescanned version columns dedup overwritten configured read cursor bootstrapping rebuilt =>
        exact absurd overwritten (recalls.untouched version)
    | declared version through configured overwritten cursor bootstrapping rebuilt =>
        exact absurd overwritten (recalls.untouched version)
  obtain ⟨running, without, cursor⟩ := ordinary
  have sameTable : replaced = none := by
    cases opening.adjusting with
    | same sameTable forwards => rfl
    | replaced columns configured why =>
        exfalso
        rcases why with different | backwards
        · unfold differentTable at different
          split at different
          · rename_i recorded current named now
            have here := recorded_id recorded named
            obtain ⟨state, loaded⟩ := opening.sourceLoaded
            have known := bounded.keeps _ state loaded
            rw [tableId, DeltaLog.logState_metadata loaded, Option.bind_some, known, here] at now
            rw [if_pos (Option.some.inj now)] at different
            cases different
          · cases different
        · unfold logWentBackwards at backwards
          rw [Bool.and_eq_true] at backwards
          have behind := of_decide_eq_true backwards.2
          rw [cursor] at behind
          change world.source.head + 1 < stored + 1 at behind
          unfold DeltaLog.head at behind
          omega
  rw [sameTable] at opening
  have covering := opening.covering
  rw [open_] at covering
  cases covering with
  | opened columns configured reason through resumed dedup found active ahead =>
      obtain ⟨recorded, known, same⟩ := inferCutoff_resumed without running found
      change through = some head
      rw [same]
      exact recorded_head recorded known

theorem Bounded.moved (bounded : Bounded config id head world)
    (moved : World.Moved config engine world after) : Bounded config id head after := by
  cases moved with
  | idle => exact bounded
  | stopped =>
      refine ⟨bounded.keeps, bounded.offset, bounded.recalls, ?_, ?_⟩
      · intro running runs
        cases runs
      · intro running _cutoff runs
        cases runs
  | opened pipeline resolved =>
      refine ⟨bounded.keeps, bounded.offset, bounded.recalls, ?_, ?_⟩
      · intro _ same
        cases same
        exact .opened bounded.keeps resolved
      · rintro _ cutoff ⟨⟩ open_
        exact bounded.opened resolved open_
  | caughtUp running settled budget retryBudget runs stepped =>
      have was := bounded.knows running runs
      have pull := stepDelta_caughtUp was.ready stepped
      refine ⟨bounded.keeps, bounded.offset, bounded.recalls, ?_, ?_⟩
      · intro _ same
        cases same
        exact was.pulled bounded.keeps pull
      · rintro _ cutoff ⟨⟩ open_
        cases pull.window with
        | kept same within =>
            rw [same] at open_
            exact bounded.ends running cutoff runs open_
        | retired head' middle was' gone low past high silent =>
            rw [gone] at open_
            cases open_
  | put running settled budget retryBudget commit process runs stepped goesOn =>
      have was := bounded.knows running runs
      obtain ⟨pulled, batch, output, filtered, version, committing⟩ :=
        stepDelta_commits was.ready stepped
      have held : ∀ cutoff, pulled.cutoff = some cutoff → cutoff.window.through = some head := by
        intro cutoff open_
        cases committing.pull.window with
        | kept same within =>
            rw [same] at open_
            exact bounded.ends running cutoff runs open_
        | retired head' middle was' gone low past high silent =>
            rw [gone] at open_
            cases open_
      have recorded_head : ∀ closes recorded, pulled.recordsAs closes = some recorded →
          recorded.sourceThrough = some head := by
        intro closes recorded records
        unfold Pipeline.recordsAs at records
        cases open_ : pulled.cutoff with
        | none =>
            rw [open_] at records
            cases records
        | some cutoff =>
            rw [open_] at records
            split at records
            · rename_i other same
              cases same
              rw [← Option.some.inj records]
              exact held cutoff open_
            · cases records
      apply bounded_put bounded.keeps was stepped _ _ goesOn
      · intro recorded read
        rw [committing.commit] at read
        exact recorded_head _ recorded (sinkCommit_recordedCutoff_some read)
      · intro cutoff open_
        exact recorded_head _ cutoff.recorded (committing.recorded open_)

theorem Bounded.besides (bounded : Bounded config id head world) {source : DeltaLog ρ}
    {target : DeltaLog τ} (happens : WithinReach config world.source world.target source target) :
    Bounded config id head { world with source := source, target := target } := by
  obtain ⟨more, same, foreign⟩ := happens.appended
  obtain ⟨number, recalls⟩ := bounded.recalls
  obtain ⟨stored, offset, within⟩ := bounded.offset
  have silent : more.reverse.findSome? (fun commit => txnOf config.appId commit.actions) = none := by
    rw [List.findSome?_eq_none_iff]
    intro commit member
    exact txnOf_foreign (foreign commit (List.mem_reverse.mp member)).1
  refine ⟨happens.source.2 id bounded.keeps, ⟨stored, ?_, ?_⟩,
    ⟨number, recalls.appended same foreign happens.near⟩, bounded.knows, bounded.ends⟩
  · rw [← offset]
    unfold transactionVersion
    rw [same, List.reverse_append, List.findSome?_append, silent]
    rfl
  · exact Nat.lt_of_lt_of_le within happens.source.1.length_le

theorem Bounded.lateKept (bounded : Bounded config id head world) :
    LateKept config head world := by
  intro running budget retryBudget batch pulled runs ok
  have pull := pullBatch_semantics (bounded.knows running runs).ready ok
  have inside : ∀ cutoff, pulled.cutoff = some cutoff →
      ∀ entry, entry ∈ batch.entries → entry.1 ≤ head := by
    intro cutoff open_ entry member
    cases pull.window with
    | kept same within =>
        rw [same] at open_
        have ends := bounded.ends running cutoff runs open_
        have stands : running.windowHead = some head := by
          unfold Pipeline.windowHead
          rw [open_]
          exact ends
        have reached := (within head stands).2
        have files : batch.entries = _ := pull.files
        rw [files] at member
        obtain ⟨_low, high, _part⟩ := mem_emitted.mp member
        omega
    | retired head' middle was gone low past high silent =>
        rw [gone] at open_
        cases open_
  constructor
  · intro open_ entry member
    obtain ⟨cutoff, same⟩ := Option.ne_none_iff_exists'.mp open_
    exact inside cutoff same entry member
  · rintro ⟨entry, member, late⟩ output filtered ok
    cases outside : pulled.cutoff with
    | none =>
        rw [outside] at ok
        exact Lineage.applyCutoff_outside ok
    | some cutoff =>
        have early := inside cutoff outside entry member
        omega

/-- Once a commit of ours has recorded a window that ends at a source version, no batch inside a
window goes past it and no row past it is dropped, whatever steps, crashes, opens and commits of
others follow. -/
theorem recordedWindow_keepsLate {first : World ρ τ T K P} {last : World ρ τ T K P}
    (stopped : first.process = none) (keeps : KeepsId first.source id)
    (before : World.Runs config engine (SourceKept ρ τ) first world)
    (records : RecordsHead config engine head world after)
    (later : World.Runs config engine (WithinReach config) after last) :
    LateKept config head last := by
  obtain ⟨kept, knows⟩ := before.knows stopped keeps
  have bounded : Bounded config id head last := by
    apply later.invariant (records.bounded kept knows)
    · intro before after holds moved
      exact holds.moved moved
    · intro before source target holds happens
      exact holds.besides happens
  exact bounded.lateKept

end Bounded

/-! ### A late row -/

theorem windowTable_keepsId (parts : List (List (Nat × Nat × Option Nat))) :
    KeepsId (windowTable parts) (some "t") := by
  intro version state loaded
  have found := DeltaLog.logState_metadata loaded
  unfold DeltaLog.metadataAt at found
  obtain ⟨commit, among, holds⟩ := List.exists_of_findSome?_eq_some found
  unfold DeltaLog.metadataOf at holds
  obtain ⟨action, part, shown⟩ := List.exists_of_findSome?_eq_some holds
  have member := List.mem_of_mem_take (List.mem_reverse.mp among)
  rw [List.mem_reverse] at part
  rcases List.mem_cons.mp member with first | later
  · subst first
    rw [List.mem_singleton.mp part] at shown
    rw [← Option.some.inj shown]
  · obtain ⟨rows, _among, same⟩ := List.mem_map.mp later
    rw [← same] at part
    rw [List.mem_singleton.mp part] at shown
    cases shown

/-- Two rows, and a target that holds a newer one. -/
def openedWorld : World (Nat × Nat × Option Nat) (Nat × Nat × Option Nat) Nat Nat Nat :=
  (windowWorld [[(0, 1, some 1)], [(0, 2, some 2)]] [(0, 9, some 9)]).moves (windowConfig [])
    windowEngine [.start]

/-- The first row is covered, and the commit that says so records the window. -/
def recordedWorld : World (Nat × Nat × Option Nat) (Nat × Nat × Option Nat) Nat Nat Nat :=
  openedWorld.moves (windowConfig []) windowEngine [.step none none .seen]

theorem recordedWorld_records :
    RecordsHead (windowConfig []) windowEngine 2 openedWorld recordedWorld where
  put := ⟨_, _, none, none, _, _, rfl, rfl, rfl, rfl, rfl, Or.inr rfl⟩
  source := rfl

/-- A third row, older than what the target held, arrives in a commit past the window's head. -/
def lateSource : DeltaLog (Nat × Nat × Option Nat) :=
  windowTable [[(0, 1, some 1)], [(0, 2, some 2)], [(0, 3, some 3)]]

theorem lateSource_kept {target target' : DeltaLog (Nat × Nat × Option Nat)} :
    SourceKept (Nat × Nat × Option Nat) (Nat × Nat × Option Nat) recordedWorld.source target
      lateSource target' := by
  constructor
  · exact ⟨[{ actions := [.add { path := "a", rows := [(0, 3, some 3)] }] }], rfl⟩
  · intro id keeps
    have loaded : ∃ state, recordedWorld.source.logState (some 0) = .ok state ∧
        state.metadata.id = some "t" := ⟨_, rfl, rfl⟩
    obtain ⟨state, found, known⟩ := loaded
    rw [← keeps 0 state found, known]
    exact windowTable_keepsId _

/-- A reopen later the late row is written. -/
theorem recordedWorld_keepsLate :
    let late := { recordedWorld with source := lateSource }
    let last := late.moves (windowConfig []) windowEngine
      [.crash, .start, .step none none .seen, .step none none .seen]
    tableRows last.target = [(0, 9, some 9), (0, 3, some 3)] ∧
      LateKept (windowConfig []) 2 last := by
  have before : World.Runs (windowConfig []) windowEngine (SourceKept _ _)
      (windowWorld [[(0, 1, some 1)], [(0, 2, some 2)]] [(0, 9, some 9)]) openedWorld :=
    World.Runs.ofMoves _ _ _ _ _
  have arrives : WithinReach (windowConfig []) recordedWorld.source recordedWorld.target
      lateSource recordedWorld.target := by
    refine ⟨⟨lateSource_kept, [], (List.append_nil _).symm, nofun⟩, ?_⟩
    intro ours _newest
    have head : recordedWorld.target.head = 2 := rfl
    have reach : defaultMaxScan = 10000 := rfl
    omega
  have onward := World.Runs.ofMoves (windowConfig []) windowEngine (WithinReach (windowConfig []))
    { recordedWorld with source := lateSource }
    [.crash, .start, .step none none .seen, .step none none .seen]
  have later : World.Runs (windowConfig []) windowEngine (WithinReach (windowConfig []))
      recordedWorld _ :=
    Relation.ReflTransGen.head (.besides lateSource recordedWorld.target arrives) onward
  exact ⟨rfl, recordedWindow_keepsLate rfl (windowTable_keepsId _) before recordedWorld_records
    later⟩

/-! ### Our commit out of reach -/

/-- A commit of someone else's that changes nothing. -/
def idleCommit : Commit (Nat × Nat × Option Nat) := { actions := [] }

/-- A target with so many of them on top. -/
def buried (target : DeltaLog (Nat × Nat × Option Nat)) (count : Nat) :
    DeltaLog (Nat × Nat × Option Nat) :=
  { target with commits := target.commits ++ List.replicate count idleCommit }

section Buried

variable (target : DeltaLog (Nat × Nat × Option Nat)) (count : Nat)

theorem tableRows_buried : tableRows (buried target count) = tableRows target := by
  have live : ∀ files : List (AddFile (Nat × Nat × Option Nat)),
      (List.replicate count idleCommit).foldl
        (fun live commit => applyFileActions live commit.actions) files = files := by
    induction count with
    | zero =>
        intro files
        rfl
    | succ count ih =>
        intro files
        have idle : applyFileActions files idleCommit.actions = files := by
          unfold applyFileActions idleCommit
          simp only [List.any_nil, Bool.not_false, List.filter_true, List.filterMap_nil,
            List.append_nil]
        rw [List.replicate_succ, List.foldl_cons, idle, ih]
  unfold tableRows liveFiles buried
  rw [List.foldl_append, live]

theorem findSome?_buried {α : Type} (look : Commit (Nat × Nat × Option Nat) → Option α)
    (idle : look idleCommit = none) :
    (buried target count).commits.reverse.findSome? look = target.commits.reverse.findSome? look := by
  have silent : (List.replicate count idleCommit).reverse.findSome? look = none := by
    rw [List.findSome?_eq_none_iff]
    intro commit member
    rw [List.eq_of_mem_replicate (List.mem_reverse.mp member)]
    exact idle
  unfold buried
  rw [List.reverse_append, List.findSome?_append, silent]
  rfl

theorem transactionVersion_buried (appId : String) :
    transactionVersion (buried target count) appId = transactionVersion target appId :=
  findSome?_buried target count _ rfl

theorem metadataAt_buried (present : 0 < target.commits.length) :
    (buried target count).metadataAt (buried target count).head =
      target.metadataAt target.head := by
  have whole : ∀ log : DeltaLog (Nat × Nat × Option Nat), 0 < log.commits.length →
      log.metadataAt log.head =
        log.commits.reverse.findSome? fun commit => DeltaLog.metadataOf commit.actions := by
    intro log some_commit
    unfold DeltaLog.metadataAt DeltaLog.head
    rw [List.take_of_length_le (by omega)]
  rw [whole target present, whole (buried target count) ?_]
  · exact findSome?_buried target count _ rfl
  · unfold buried
    rw [List.length_append]
    omega

variable {target count}

theorem passedOver_buried {version : Nat} (readable : target.reclaimed version = false)
    (above : target.commits.length ≤ version) (within : version < target.commits.length + count)
    (appId : String) : PassedOver (buried target count) appId version := by
  refine ⟨[], ?_, rfl, rfl⟩
  rw [DeltaLog.readCommitEntry_eq]
  change (if target.reclaimed version then none else
    ((target.commits ++ List.replicate count idleCommit)[version]?).map Commit.actions) = some []
  rw [readable, if_neg Bool.false_ne_true, List.getElem?_append_right above,
    List.getElem?_replicate_of_lt (by omega)]
  rfl

theorem ourLastCommit_of_exhausted {log : DeltaLog (Nat × Nat × Option Nat)} {appId : String}
    {maxScan : Nat} (long : maxScan ≤ log.head)
    (passed : ∀ version, log.head < version + maxScan → version ≤ log.head →
      PassedOver log appId version) : ourLastCommit log appId maxScan = .default := by
  have answers : WalkBack.AnswersAt (ourLastCommitLook log appId maxScan) log.head 0 .default
      (log.head - maxScan) := by
    constructor
    · exact Nat.sub_le _ _
    · unfold ourLastCommitLook
      rw [if_pos (by omega)]
    · intro later above atMost
      obtain ⟨actions, found, foreign, _keeps⟩ := passed later (by omega) atMost
      unfold ourLastCommitLook
      rw [if_neg (by omega), found]
      simp only [foreign, Bool.false_eq_true, if_false]
  exact WalkBack.walkBack_eq answers

end Buried

/-- The target of the recorded window under as many commits as the walks go back. -/
def farTarget : DeltaLog (Nat × Nat × Option Nat) := buried recordedWorld.target defaultMaxScan

/-- What an open makes of it: the target counts as rebuilt, up to the source's newest commit. -/
def farCutoff : Cutoff Nat Nat Nat :=
  { dedup := { partitionColumns := [], watermark := some ⟨9, [9]⟩, partitions := [] }
    window := { reason := .rebuilt, through := some 3, resumed := false }
    skipped := 0 }

def farPipeline : Pipeline Nat Nat Nat :=
  { stream := openStream (windowConfig []) lateSource (StreamCursor.atVersion 0) (some farCutoff)
    cutoff := some farCutoff }

theorem opened_of_exhausted {target : DeltaLog (Nat × Nat × Option Nat)} {version : Nat}
    {table : TableState}
    (opened : openTable (windowConfig []) "target" target = .ok table)
    (offset : transactionVersion target (windowConfig []).appId = some 1)
    (state : targetState target (windowConfig []).appId defaultMaxScan = .overwrittenAt version)
    (ours : ourLastCommit target (windowConfig []).appId defaultMaxScan = .default)
    (rows : tableRows target = [(0, 9, some 9)]) :
    openPipeline (windowConfig []) windowEngine lateSource target = .ok farPipeline := by
  have stored : OffsetStore.lastCommittedVersion
      ⟨(windowConfig []).appId, (windowConfig []).startingVersion⟩ target = .ok (some 1) := by
    unfold OffsetStore.lastCommittedVersion
    simp only [offset]
    rfl
  have read : Dedup.readPartitioned (windowLineage []).columns (tableRows target) =
      .ok farCutoff.dedup := by
    rw [rows]
    rfl
  have resumed : resumeCursor (windowConfig []) windowEngine lateSource target =
      .ok
        { cursor := StreamCursor.atVersion 0
          bootstrapping := false
          rebuilt := some farCutoff.dedup
          committed := some 1 } := by
    have configured : (windowConfig []).dedup = some (windowLineage []).columns := rfl
    unfold resumeCursor
    simp only [stored, state, configured, read, Option.isNone_some, Bool.and_false,
      Bool.false_eq_true, if_false]
    rfl
  have source : openTable (windowConfig []) "source" lateSource =
      .ok { version := 3, metadata := { id := some "t", schemaString := "s" } } := rfl
  unfold openPipeline
  simp only [source, opened]
  unfold resolvePipeline
  simp only [resumed, ours]
  rfl

theorem farTarget_opened :
    openPipeline (windowConfig []) windowEngine lateSource farTarget = .ok farPipeline := by
  have commits : recordedWorld.target.commits.length = 3 := rfl
  have reach : defaultMaxScan = 10000 := rfl
  have length : farTarget.commits.length = 10003 := by
    unfold farTarget buried
    rw [List.length_append, List.length_replicate, commits, reach]
  have head : farTarget.head = 10002 := by
    unfold DeltaLog.head
    rw [length]
  have passed : ∀ version, farTarget.head < version + defaultMaxScan →
      version ≤ farTarget.head → PassedOver farTarget (windowConfig []).appId version := by
    intro version above within
    apply passedOver_buried rfl
    · omega
    · omega
  have long : defaultMaxScan ≤ farTarget.head := by omega
  have metadata : farTarget.metadataAt farTarget.head =
      some { id := some "t", schemaString := "s" } := metadataAt_buried _ _ (by omega)
  have loaded : farTarget.logState none =
      .ok { version := farTarget.head, metadata := { id := some "t", schemaString := "s" } } := by
    have inside : farTarget.head < farTarget.commits.length ∧
        farTarget.unloadable farTarget.head = false := ⟨by omega, rfl⟩
    unfold DeltaLog.logState
    simp only [Option.getD_none, metadata, if_pos inside]
  have opened : openTable (windowConfig []) "target" farTarget =
      .ok { version := farTarget.head, metadata := { id := some "t", schemaString := "s" } } := by
    unfold openTable
    rw [loaded]
  exact opened_of_exhausted opened (transactionVersion_buried _ _ _)
    (targetState_of_exhausted long passed) (ourLastCommit_of_exhausted long passed)
    (tableRows_buried _ _)

/-- What a step over the late source leaves of a process. -/
def stepped (pipeline : Pipeline Nat Nat Nat) : Pipeline Nat Nat Nat :=
  match stepDelta (windowConfig []) windowEngine lateSource "" none none pipeline with
  | .commits _ after => after
  | .caughtUp after => after
  | .failed _ => pipeline

theorem farPipeline_steps : ∀ path, ∃ commit, stepDelta (windowConfig []) windowEngine lateSource
    path none none farPipeline = .commits commit (stepped farPipeline) :=
  fun _path => ⟨_, rfl⟩

theorem stepped_steps : ∀ path, ∃ commit, stepDelta (windowConfig []) windowEngine lateSource
    path none none (stepped farPipeline) = .commits commit (stepped (stepped farPipeline)) :=
  fun _path => ⟨_, rfl⟩

theorem stepped_pulls : ∃ batch pulled,
    pullBatch lateSource none none (stepped (stepped farPipeline)) = (.ok (some batch), pulled) ∧
      (∃ entry, entry ∈ batch.entries ∧ 2 < entry.1) ∧
      ∃ filtered, applyCutoff (windowConfig []) pulled.cutoff [(0, 3, some 3)] = .ok filtered ∧
        filtered.kept = [] :=
  ⟨_, _, rfl, ⟨_, List.mem_cons_self, by decide⟩, _, rfl, rfl⟩


/-- Two steps after an open that takes the target for overwritten, the late row is about to be
dropped. -/
theorem far_dropsLate {target : DeltaLog (Nat × Nat × Option Nat)}
    (opened : openPipeline (windowConfig []) windowEngine lateSource target = .ok farPipeline)
    (kept : TargetKept (windowConfig []) recordedWorld.source recordedWorld.target lateSource
      target) :
    ∃ last, World.Runs (windowConfig []) windowEngine (TargetKept (windowConfig []))
        recordedWorld last ∧
      ¬ LateKept (windowConfig []) 2 last := by
  obtain ⟨first, first_eq⟩ := farPipeline_steps (nextPath target)
  obtain ⟨second, second_eq⟩ := stepped_steps (nextPath (target.append first))
  have crash : World.Step (windowConfig []) windowEngine (TargetKept (windowConfig []))
      recordedWorld { recordedWorld with process := none } := .ours .crash
  have besides : World.Step (windowConfig []) windowEngine (TargetKept (windowConfig []))
      { recordedWorld with process := none }
      { source := lateSource, target := target, process := none } :=
    .besides lateSource target kept
  have start : World.Step (windowConfig []) windowEngine (TargetKept (windowConfig []))
      { source := lateSource, target := target, process := none }
      { source := lateSource, target := target, process := some farPipeline } := by
    have moved : World.move (windowConfig []) windowEngine
        { source := lateSource, target := target, process := none } .start =
          { source := lateSource, target := target, process := some farPipeline } := by
      unfold World.move
      simp only [opened]
    rw [← moved]
    exact .ours .start
  have step : ∀ (pipeline : Pipeline Nat Nat Nat) (log : DeltaLog (Nat × Nat × Option Nat))
      commit, stepDelta (windowConfig []) windowEngine lateSource (nextPath log) none none
        pipeline = .commits commit (stepped pipeline) →
      World.Step (windowConfig []) windowEngine (TargetKept (windowConfig []))
        { source := lateSource, target := log, process := some pipeline }
        { source := lateSource, target := log.append commit, process := some (stepped pipeline) } := by
    intro pipeline log commit commits
    have moved : World.move (windowConfig []) windowEngine
        { source := lateSource, target := log, process := some pipeline }
        (.step none none .seen) =
          { source := lateSource, target := log.append commit
            process := some (stepped pipeline) } := by
      unfold World.move
      simp only [commits]
    rw [← moved]
    exact .ours (.step none none .seen)
  refine ⟨_, (((Relation.ReflTransGen.single crash).tail besides).tail start).tail
    (step _ _ _ first_eq) |>.tail (step _ _ _ second_eq), ?_⟩
  intro kept
  obtain ⟨batch, pulled, ok, late, filtered, cut, nothing⟩ := stepped_pulls
  have all := (kept _ none none batch pulled rfl ok).2 late _ _ cut
  rw [nothing] at all
  cases all

/-- Behind so many commits of others an open opens a window of its own, and the late row is
dropped in it. -/
theorem farWorld_dropsLate :
    World.Runs (windowConfig []) windowEngine (SourceKept _ _)
        (windowWorld [[(0, 1, some 1)], [(0, 2, some 2)]] [(0, 9, some 9)]) openedWorld ∧
      KeepsId (windowTable [[(0, 1, some 1)], [(0, 2, some 2)]]) (some "t") ∧
      RecordsHead (windowConfig []) windowEngine 2 openedWorld recordedWorld ∧
      ∃ last, World.Runs (windowConfig []) windowEngine (TargetKept (windowConfig []))
          recordedWorld last ∧
        ¬ LateKept (windowConfig []) 2 last := by
  refine ⟨World.Runs.ofMoves _ _ _ _ _, windowTable_keepsId _, recordedWorld_records, ?_⟩
  apply far_dropsLate farTarget_opened
  constructor
  · exact lateSource_kept
  · refine ⟨List.replicate defaultMaxScan idleCommit, rfl, ?_⟩
    intro commit member
    rw [List.eq_of_mem_replicate member]
    exact ⟨rfl, rfl⟩

end Ddi
