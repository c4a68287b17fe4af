/-
An open starts somewhere within the rows held, in a window whenever rows held
may lie ahead of it: after a rebuild from where the rescan reaches back to, on a
first start from the configured version, and otherwise where the newest commit
of ours left off.
-/

import Ddi.Pipeline.CoverageSteps
import Ddi.Pipeline.RescanSemantics

namespace Ddi

open Arrivals (stretch MarksOf)
open Ddi.Delta
open Ddi.Source

set_option linter.unusedSectionVars false

variable {ρ τ T K P : Type} [LinearOrder T] [DecidableEq K] [DecidableEq P]

namespace Lineage

variable {lineage : Lineage ρ τ T K P} {config : ResolvedPipeline τ T K P}
  {engine : Engine ρ τ T K P} {source : DeltaLog ρ} {target : DeltaLog τ} {once : Bool}
  {early again : List (Option Nat × ρ)} {count : Nat} {dedup : Dedup T K P}

private theorem Holding.marks (carries : lineage.Carries config engine)
    (holding : lineage.Holding config source once target early again count)
    (read : Dedup.readPartitioned lineage.columns (tableRows target) = .ok dedup) :
    MarksOf dedup.markOf (lineage.shown (heldRows config source early count)) := by
  have rows := holding.rows
  rw [← imageRows_append] at rows
  refine (carries.marks rows read).congr fun stamp => ?_
  rw [mem_shown, mem_shown]
  constructor
  · rintro ⟨row, member, shown⟩
    rcases List.mem_append.mp member with held | repeated
    · exact ⟨row, held, shown⟩
    · exact ⟨row, holding.among row repeated, shown⟩
  · rintro ⟨row, member, shown⟩
    exact ⟨row, List.mem_append_left _ member, shown⟩

private theorem inert_shows (carries : lineage.Carries config engine)
    {rows : List (Option Nat × ρ)} (marks : MarksOf dedup.markOf (lineage.shown rows))
    (form : dedup.partitionColumns = lineage.columns.partitionColumns)
    (inert : dedup.isInert = true) {row : Option Nat × ρ} (member : row ∈ rows) :
    lineage.image row.1 row.2 = [] := by
  by_contra comes
  obtain ⟨mark, found, _place⟩ := marks.of_mem (mem_shown.mpr ⟨row, member, comes, rfl⟩)
  have alike : dedup.isPartitioned = lineage.columns.isPartitioned := by
    rw [Dedup.isPartitioned, DedupColumns.isPartitioned, form]
  unfold Dedup.isInert at inert
  rw [alike] at inert
  cases partitioned : lineage.columns.isPartitioned with
  | false =>
      rw [partitioned, if_neg Bool.false_ne_true, Option.isNone_iff_eq_none] at inert
      rw [carries.whole partitioned, Dedup.markOf, inert] at found
      cases found
  | true =>
      obtain ⟨out, among⟩ := List.exists_mem_of_ne_nil _ comes
      obtain ⟨_time, kind, _key⟩ := carries.stamped row.1 row.2 out among
      rw [partitioned, if_pos rfl, List.isEmpty_iff] at inert
      rw [DedupColumns.classOf, partitioned, if_pos rfl] at kind
      obtain ⟨partition, _placed, same⟩ := Option.map_eq_some_iff.mp kind
      rw [← same, Dedup.markOf, inert] at found
      cases found

section Covering

variable {ours : OurLastCommit} {resume : Resume T K P} {replaced : Bool}
  {cursor : StreamCursor} {pipeline : Pipeline T K P}

/-- Wherever within the rows held an open starts, it starts in a window or has none to start
in. -/
private theorem Holding.opened (carries : lineage.Carries config engine)
    (holding : lineage.Holding config source once target early again count)
    (ready : Ready config pipeline) (standing : pipeline.stream.cursor = cursor)
    (started : config.startingVersion ≤ cursor.version)
    (written : cursor.version ≤ max config.startingVersion source.commits.length)
    (reached : reach config source cursor.version ≤ count) (loaded : 0 < source.commits.length)
    (covering : Covering config source target ours resume replaced cursor pipeline.cutoff)
    (rebuilt : ∀ dedup, resume.rebuilt = some dedup →
      Dedup.readPartitioned lineage.columns (tableRows target) = .ok dedup)
    (resumes : resume.rebuilt = none → resume.bootstrapping = false →
      ∀ recorded head, ours.cutoff = some recorded → recorded.sourceThrough = some head →
        head < source.commits.length ∧ (once = true → count ≤ reach config source (head + 1)))
    (outside : replaced = false → resume.rebuilt = none → resume.bootstrapping = false →
      (ours.cutoff = none ∨ ∃ recorded, ours.cutoff = some recorded ∧
        (recorded.partitionColumns ≠ lineage.columns.partitionColumns ∨
          ∃ through, recorded.sourceThrough = some through ∧
            hasDataCommitBetween source cursor.version through = false)) →
      lineage.Stands config source once cursor.version none count) :
    lineage.Working config source once pipeline early count := by
  -- what every window that is inferred comes with
  have inferred : ∀ {columns : DedupColumns τ T K P} {reason through resumed dedup},
      config.dedup = some columns →
      inferCutoff config columns source target ours resume replaced cursor =
        .ok (some (reason, through, resumed, dedup)) →
      Dedup.readPartitioned lineage.columns (tableRows target) = .ok dedup ∧
        ∀ head, through = some head → head < source.commits.length ∧
          (once = true → count ≤ reach config source (head + 1)) := by
    intro columns reason through resumed dedup configured found
    rw [carries.configured] at configured
    cases configured
    have read : ∀ {dedup}, (resume.rebuilt = some dedup ∨
        Dedup.readPartitioned lineage.columns (tableRows target) = .ok dedup) →
        Dedup.readPartitioned lineage.columns (tableRows target) = .ok dedup := by
      rintro dedup (held | fresh)
      · exact rebuilt dedup held
      · exact fresh
    cases inferCutoff_semantics found with
    | replaced _ marks => exact ⟨read marks, nofun⟩
    | filled _ _ _ marks atHead =>
        refine ⟨read marks, fun head known => ?_⟩
        rw [atHead head known, DeltaLog.head]
        refine ⟨by omega, fun _claimed => ?_⟩
        rw [reach_of_head config source (by omega)]
        exact holding.within
    | resumed recorded _ without running known marks =>
        exact ⟨marks, fun head through => resumes without running recorded head known through⟩
  have stays : pipeline.cutoff = none →
      lineage.Stands config source once cursor.version none count →
      lineage.Working config source once pipeline early count := by
    intro gone stands
    constructor
    · exact ready
    · rw [gone, standing]
      exact stands
    · intro cutoff impossible
      rw [gone] at impossible
      cases impossible
  generalize left : pipeline.cutoff = cutoff at covering
  cases covering with
  | unconfigured without =>
      rw [carries.configured] at without
      cases without
  | nothing columns configured found =>
      rw [carries.configured] at configured
      cases configured
      cases inferCutoff_semantics found with
      | outside same without running why =>
          exact stays left (outside same without running why)
  | spent columns configured reason through resumed dedup found idle =>
      obtain ⟨read, bounded⟩ := inferred configured found
      refine stays left ?_
      rcases idle with inert | ⟨head, known, past⟩
      · have silent : ∀ row, row ∈ heldRows config source early count →
            lineage.image row.1 row.2 = [] := fun row member =>
          inert_shows carries (holding.marks carries read)
            (Dedup.readBounded_semantics lineage.columns read).form inert member
        exact
          { started := started
            written := written
            reached := reached
            clear := by
              intro _claimed _outside
              refine List.flatMap_eq_nil_iff.mpr fun row member => silent row ?_
              exact List.mem_append_right _ (Arrivals.mem_take_of_mem_stretch member)
            formed := nofun
            bounded := nofun }
      · refine .outside started written reached fun claimed => ?_
        exact Nat.le_trans ((bounded head known).2 claimed) (reach_mono config source past)
  | opened columns configured reason through resumed dedup found active ahead =>
      obtain ⟨read, bounded⟩ := inferred configured found
      have form := (Dedup.readBounded_semantics lineage.columns read).form
      constructor
      · exact ready
      · rw [left, standing]
        exact
          { started := started
            written := written
            reached := reached
            clear := nofun
            formed := by
              intro _ same
              cases same
              exact form
            bounded := by
              rintro _ head ⟨⟩ known
              exact bounded head known }
      · intro cutoff stands
        rw [left] at stands
        cases stands
        refine ⟨count, ?_, holding.marks carries read⟩
        rw [standing, Nat.max_eq_left reached]

end Covering

/-- A resume point within the rows held, with what the newest commit of ours recorded. -/
private structure Resumable (lineage : Lineage ρ τ T K P) (config : ResolvedPipeline τ T K P)
    (source : DeltaLog ρ) (target : DeltaLog τ) (once : Bool) (ours : OurLastCommit)
    (resume : Resume T K P) (count : Nat) : Prop where
  started : config.startingVersion ≤ resume.cursor.version
  written : resume.cursor.version ≤ max config.startingVersion source.commits.length
  reached : reach config source resume.cursor.version ≤ count
  rebuilt : ∀ dedup, resume.rebuilt = some dedup →
    Dedup.readPartitioned lineage.columns (tableRows target) = .ok dedup
  resumes : resume.rebuilt = none → resume.bootstrapping = false →
    ∀ recorded head, ours.cutoff = some recorded → recorded.sourceThrough = some head →
      head < source.commits.length ∧ (once = true → count ≤ reach config source (head + 1))
  outside : resume.rebuilt = none → resume.bootstrapping = false →
    (ours.cutoff = none ∨ ∃ recorded, ours.cutoff = some recorded ∧
      (recorded.partitionColumns ≠ lineage.columns.partitionColumns ∨
        ∃ through, recorded.sourceThrough = some through ∧
          hasDataCommitBetween source resume.cursor.version through = false)) →
    lineage.Stands config source once resume.cursor.version none count

private theorem Stands.resumable {version : Nat} {window : Option RecordedCutoff}
    (stands : lineage.Stands config source once (version + 1) window count) {ours : OurLastCommit}
    (known : ours.cutoff = window) {resume : Resume T K P}
    (cursor : resume.cursor = StreamCursor.atVersion (version + 1))
    (rebuilt : resume.rebuilt = none) :
    Resumable lineage config source target once ours resume count := by
  have at_ : resume.cursor.version = version + 1 := by
    rw [cursor]
    rfl
  constructor
  · rw [at_]
    exact stands.started
  · rw [at_]
    exact stands.written
  · rw [at_]
    exact stands.reached
  · rw [rebuilt]
    nofun
  · intro _without _running recorded head found through
    rw [known] at found
    exact stands.bounded recorded head found through
  · intro _without _running why
    rw [at_] at why ⊢
    rw [known] at why
    rcases why with none_ | ⟨recorded, found, form | ⟨through, last, silent⟩⟩
    · rw [none_] at stands
      exact stands
    · exact absurd (stands.formed recorded found) form
    · refine .outside stands.started stands.written stands.reached fun claimed => ?_
      have bounded := (stands.bounded recorded through found last).2 claimed
      rcases Nat.le_total (version + 1) (through + 1) with ahead | behind
      · have silent := hasDataCommitBetween_false config.changePolicy silent
        rw [reach_of_silent config source stands.started ahead silent] at bounded
        exact bounded
      · exact Nat.le_trans bounded (reach_mono config source behind)

private theorem Agree.resumable (carries : lineage.Carries config engine)
    (orderly : lineage.Orderly engine source) (numbered : source.commits.length ≤ 2 ^ 64)
    (readable : ∀ number, target.reclaimed number = false) (present : 0 < target.commits.length)
    {process : Option (Pipeline T K P)}
    (agree : lineage.Agree config source once target process early again count)
    {resume : Resume T K P} (resuming : Resuming config engine source target resume) :
    Resumable lineage config source target once
      (ourLastCommit target config.appId defaultMaxScan) resume count := by
  have holding := agree.holding
  cases resuming with
  | declared version through without overwritten cursor bootstrapping rebuilt =>
      rw [carries.configured] at without
      cases without
  | rescanned version columns dedup overwritten configured read cursor bootstrapping rebuilt =>
      rw [carries.configured] at configured
      cases configured
      obtain ⟨started, written, reached⟩ := rescanStart_semantics carries orderly holding.before
        (holding.marks carries read) (Dedup.readBounded_semantics lineage.columns read).form
      constructor
      · rw [cursor]
        exact started
      · rw [cursor]
        exact written
      · rw [cursor]
        exact reached
      · rw [rebuilt]
        intro _ same
        cases same
        exact read
      · rw [rebuilt]
        intro impossible
        cases impossible
      · rw [rebuilt]
        intro impossible
        cases impossible
  | ordinary cursor bootstrapping rebuilt kept =>
      have state : targetState target config.appId defaultMaxScan = .oursOrUntouched := by
        rcases kept with ⟨_without, impossible⟩ | state
        · rw [carries.configured] at impossible
          cases impossible
        · exact state
      rcases targetState_oursOrUntouched state with
        ⟨number, within, near, gone | ⟨actions, found, ours⟩, newest⟩ | foreign
      · rw [DeltaLog.readCommitEntry_eq, readable number, if_neg Bool.false_ne_true,
          Option.map_eq_none_iff, List.getElem?_eq_none_iff] at gone
        unfold DeltaLog.head at within
        omega
      · obtain ⟨path, rows, version, identity, window, same, stored, stands⟩ :=
          agree.recorded number actions found ours near newest
        have described := ourLastCommit_eq found ours near newest
        refine stands.resumable ?_ ?_ rebuilt
        · rw [described, same]
          refine (describeOurs_sinkCommit number ?_).2.2
          intro recorded through known last
          exact Nat.lt_of_lt_of_le (stands.bounded recorded through known last).1 numbered
        · rw [cursor, resumePoint, stored]
          rfl
      · have none_ : transactionVersion target config.appId = none := by
          refine transactionVersion_foreign fun commit member => ?_
          obtain ⟨number, inside, same⟩ := List.mem_iff_getElem.mp member
          obtain ⟨actions, found, carries, _keeps⟩ := foreign number (by unfold DeltaLog.head; omega)
          rw [DeltaLog.readCommitEntry_eq, readable number, if_neg Bool.false_ne_true,
            List.getElem?_eq_getElem inside, same] at found
          cases found
          exact carries
        have start : resume.cursor.version = config.startingVersion := by
          rw [cursor, resumePoint, none_]
          rfl
        rw [none_] at bootstrapping
        constructor
        · rw [start]
        · rw [start]
          exact Nat.le_max_left _ _
        · rw [start, reach_start]
          exact Nat.zero_le _
        · rw [rebuilt]
          intro _ impossible
          cases impossible
        · intro _without running
          rw [bootstrapping] at running
          cases running
        · intro _without running
          rw [bootstrapping] at running
          cases running

/-- An open keeps what the tables agree on, and its process agrees too. -/
theorem Agree.opened (carries : lineage.Carries config engine)
    (orderly : lineage.Orderly engine source) (numbered : source.commits.length ≤ 2 ^ 64)
    (readable : ∀ number, target.reclaimed number = false)
    {process : Option (Pipeline T K P)}
    (agree : lineage.Agree config source once target process early again count)
    {pipeline : Pipeline T K P}
    (resolved : openPipeline config engine source target = .ok pipeline) :
    lineage.Agree config source once target (some pipeline) early again count := by
  refine ⟨agree.holding, agree.recorded, ?_⟩
  intro _ same
  cases same
  obtain ⟨resume, replaced, opening⟩ := openPipeline_semantics resolved
  obtain ⟨_sourceState, sourceLoaded⟩ := opening.sourceLoaded
  obtain ⟨_targetState, targetLoaded⟩ := opening.targetLoaded
  have loaded := (DeltaLog.logState_lt sourceLoaded).1
  have present := (DeltaLog.logState_lt targetLoaded).1
  have resumable := agree.resumable carries orderly numbered readable (by omega) opening.resuming
  have ready := opening.ready
  have cursor := opening.cursor
  have covering := opening.covering
  cases opening.adjusting with
  | same sameTable forwards =>
      exact agree.holding.opened carries ready cursor resumable.started resumable.written
        resumable.reached (by omega) covering resumable.rebuilt resumable.resumes
        fun _same => resumable.outside
  | replaced columns configured why =>
      refine agree.holding.opened carries ready cursor (Nat.le_refl _) (Nat.le_max_left _ _) ?_
        (by omega) covering resumable.rebuilt resumable.resumes ?_
      · change reach config source config.startingVersion ≤ count
        rw [reach_start]
        exact Nat.zero_le _
      · intro impossible
        cases impossible

end Lineage

end Ddi
