/-
The handover from whatever filled the target: from a target that holds the first
rows of the source, every row of the source gets there, and no row twice unless
it has no key to tell it by. So it is for one cut-off, and for one per partition.
-/

import Ddi.Pipeline.CoverageOpen

namespace Ddi

open Arrivals (Stamp stretch)
open Ddi.Delta
open Ddi.Source

set_option linter.unusedSectionVars false

variable {ρ τ T K P : Type} [LinearOrder T] [DecidableEq K] [DecidableEq P]

namespace Lineage

/-- The source gains commits, its rows still in order, and may lose commit files and states to
retention; nobody else writes to the target. -/
structure Arriving (lineage : Lineage ρ τ T K P) (engine : Engine ρ τ T K P)
    (source : DeltaLog ρ) (target : DeltaLog τ) (source' : DeltaLog ρ) (target' : DeltaLog τ) :
    Prop where
  grows : Extends source source'
  numbered : source'.commits.length ≤ 2 ^ 64
  orderly : lineage.Orderly engine source'
  untouched : target' = target

/-- The target holds the first `count` rows the source emits, and what wrote them last was
someone else. -/
structure Filled (lineage : Lineage ρ τ T K P) (config : ResolvedPipeline τ T K P)
    (source : DeltaLog ρ) (target : DeltaLog τ) (count : Nat) : Prop where
  rows : (tableRows target).Perm
    (imageRows lineage.image ((sourceRows config source 0 source.commits.length).take count))
  unclaimed : transactionVersion target config.appId = none ∨
    ∃ version, targetState target config.appId defaultMaxScan = .overwrittenAt version
  readable : ∀ number, target.reclaimed number = false

/-- A row of the target that can be told from every other. -/
def keyed (lineage : Lineage ρ τ T K P) (row : τ) : Bool :=
  lineage.columns.key.isNone || (lineage.columns.keyOf row).isSome

/-- Some rows are in the target, and nothing else; one that can be told from the others is
there once. -/
structure Complete (lineage : Lineage ρ τ T K P) (rows : List (Option Nat × ρ))
    (target : List τ) : Prop where
  every : ∃ again, target.Perm (imageRows lineage.image rows ++ imageRows lineage.image again) ∧
    ∀ row, row ∈ again → row ∈ rows ∧ lineage.Unkeyed row
  once : (target.filter lineage.keyed).Perm
    ((imageRows lineage.image rows).filter lineage.keyed)

end Lineage

/-- The process has read past the head of its source. -/
def World.CaughtUp (world : World ρ τ T K P) : Prop :=
  ∃ pipeline, world.process = some pipeline ∧
    world.source.head < pipeline.stream.cursor.version

section Start

variable {lineage : Lineage ρ τ T K P} {config : ResolvedPipeline τ T K P}
  {source : DeltaLog ρ} {target : DeltaLog τ} {count : Nat}

private theorem foreign_of_noOffset {appId : String} (none_ : transactionVersion target appId = none)
    {number : Nat} {actions : List (Action τ)}
    (found : target.readCommitEntry number = some actions) : carriesTxn appId actions = false := by
  rw [DeltaLog.readCommitEntry_eq] at found
  split at found
  · cases found
  · obtain ⟨commit, present, same⟩ := Option.map_eq_some_iff.mp found
    unfold transactionVersion at none_
    rw [List.findSome?_eq_none_iff] at none_
    have nothing := none_ commit (List.mem_reverse.mpr (List.mem_of_getElem? present))
    rw [same] at nothing
    unfold txnOf at nothing
    rw [List.findSome?_eq_none_iff] at nothing
    unfold carriesTxn
    rw [List.any_eq_false]
    intro action member
    have here := nothing action (List.mem_reverse.mpr member)
    cases action with
    | txn app version =>
        simp only [beq_iff_eq]
        intro own
        simp only [own, if_true] at here
        cases here
    | add file => exact Bool.false_ne_true
    | remove file => exact Bool.false_ne_true
    | metaData metadata => exact Bool.false_ne_true
    | commitInfo info => exact Bool.false_ne_true
    | other => exact Bool.false_ne_true

private theorem Lineage.Filled.recorded (filled : lineage.Filled config source target count)
    (once : Bool) (held : Nat) : lineage.Recorded config source once target held := by
  intro number actions found ours near newest
  exfalso
  rcases filled.unclaimed with none_ | ⟨version, overwritten⟩
  · rw [foreign_of_noOffset none_ found] at ours
    cases ours
  · obtain ⟨within, why, later⟩ := targetState_overwrittenAt overwritten
    have foreign : ∀ {other}, target.readCommitEntry number = some other →
        carriesTxn config.appId other = false → False := by
      intro other read none_
      rw [found] at read
      cases read
      rw [none_] at ours
      cases ours
    have here := DeltaLog.readCommitEntry_lt found
    rcases Nat.lt_trichotomy number version with before | same | after
    · obtain ⟨other, read, none_, keeps⟩ := newest version before within
      rcases why with far | ⟨removing, readToo, _none, removes⟩
      · omega
      · rw [read] at readToo
        cases readToo
        rw [keeps] at removes
        cases removes
    · subst same
      rcases why with far | ⟨removing, read, none_, _removes⟩
      · omega
      · exact foreign read none_
    · obtain ⟨other, read, none_, _keeps⟩ := later number after (by unfold DeltaLog.head; omega)
      exact foreign read none_

/-- A target someone else filled agrees with the source. -/
theorem Lineage.Filled.agree (filled : lineage.Filled config source target count)
    (once : Bool) : ∃ held, lineage.Agree config source once target none
      ((sourceRows config source 0 config.startingVersion).take count) [] held := by
  refine ⟨min (count - (sourceRows config source 0 config.startingVersion).length)
    (streamed config source).length, ?_, filled.recorded once _, ?_⟩
  rotate_left
  · intro pipeline impossible
    cases impossible
  constructor
  · exact Nat.min_le_right _ _
  · exact List.take_prefix _ _
  · have rows := filled.rows
    have most : (streamed config source).take
        (count - (sourceRows config source 0 config.startingVersion).length) =
        (streamed config source).take (min
          (count - (sourceRows config source 0 config.startingVersion).length)
          (streamed config source).length) := List.take_eq_take_min
    rw [sourceRows_whole, List.take_append, most] at rows
    rw [imageRows_nil, List.append_nil]
    exact rows
  · intro row impossible
    cases impossible
  · intro _claimed row impossible
    cases impossible

end Start

section Run

variable {lineage : Lineage ρ τ T K P} {config : ResolvedPipeline τ T K P}
  {engine : Engine ρ τ T K P}

/-- What holds at every moment of a handover. -/
structure Handing (lineage : Lineage ρ τ T K P) (config : ResolvedPipeline τ T K P)
    (engine : Engine ρ τ T K P) (once : Bool) (early : List (Option Nat × ρ))
    (world : World ρ τ T K P) : Prop where
  orderly : lineage.Orderly engine world.source
  numbered : world.source.commits.length ≤ 2 ^ 64
  readable : ∀ number, world.target.reclaimed number = false
  agree : ∃ again count,
    lineage.Agree config world.source once world.target world.process early again count

theorem Handing.moved {once : Bool} {early : List (Option Nat × ρ)}
    {before after : World ρ τ T K P} (carries : lineage.Carries config engine)
    (handing : Handing lineage config engine once early before)
    (moved : World.Moved config engine before after) :
    Handing lineage config engine once early after := by
  obtain ⟨again, count, agree⟩ := handing.agree
  cases moved with
  | idle => exact handing
  | stopped =>
      refine ⟨handing.orderly, handing.numbered, handing.readable, again, count,
        agree.holding, agree.recorded, ?_⟩
      intro pipeline impossible
      cases impossible
  | opened pipeline resolved =>
      exact ⟨handing.orderly, handing.numbered, handing.readable, again, count,
        agree.opened carries handing.orderly handing.numbered handing.readable resolved⟩
  | caughtUp running after budget retryBudget runs stepped =>
      have working := agree.working running runs
      refine ⟨handing.orderly, handing.numbered, handing.readable, again, count,
        agree.holding, agree.recorded, ?_⟩
      intro _ same
      cases same
      exact working.caughtUp (stepDelta_caughtUp working.ready stepped)
  | put running after budget retryBudget commit process runs stepped goesOn =>
      have working := agree.working running runs
      obtain ⟨pulled, batch, output, filtered, version, committing⟩ :=
        stepDelta_commits working.ready stepped
      rw [runs] at agree
      exact ⟨handing.orderly, handing.numbered, handing.readable,
        agree.put carries handing.orderly committing goesOn⟩

/-- A step that finds nothing has read past the head. -/
theorem caughtUp_of_step {world : World ρ τ T K P} {running after : Pipeline T K P}
    {budget retryBudget : Option Nat} {path : String} (ready : Ready config running)
    (stepped : stepDelta config engine world.source path budget retryBudget running =
      .caughtUp after) : World.CaughtUp { world with process := some after } :=
  ⟨after, rfl, (stepDelta_caughtUp ready stepped).exhausted rfl⟩

/-- Once it has read past the head, nothing streamed is missing. -/
theorem caughtUp_holds {once : Bool} {early again : List (Option Nat × ρ)} {count : Nat}
    {world : World ρ τ T K P}
    (agree : lineage.Agree config world.source once world.target world.process early again count)
    (caughtUp : world.CaughtUp) : count = (streamed config world.source).length := by
  obtain ⟨pipeline, runs, past⟩ := caughtUp
  have stands := (agree.working pipeline runs).stands
  have reached := stands.reached
  unfold DeltaLog.head at past
  rw [reach_of_head config world.source (by omega)] at reached
  exact Nat.le_antisymm agree.holding.within reached

private theorem keyed_image (carries : lineage.Carries config engine) {row : Option Nat × ρ}
    (unkeyed : lineage.Unkeyed row) {out : τ} (among : out ∈ lineage.image row.1 row.2) :
    lineage.keyed out = false := by
  obtain ⟨configured, without⟩ := unkeyed
  obtain ⟨_time, _kind, key⟩ := carries.stamped row.1 row.2 out among
  unfold Lineage.keyed
  rw [key, without]
  rw [Option.isSome_iff_ne_none] at configured
  cases known : lineage.columns.key with
  | none => exact absurd known configured
  | some key => rfl

private theorem Lineage.Holding.complete (carries : lineage.Carries config engine)
    {source : DeltaLog ρ} {target : DeltaLog τ} {early again : List (Option Nat × ρ)} {count : Nat}
    (holding : lineage.Holding config source true target early again count) :
    lineage.Complete (heldRows config source early count) (tableRows target) where
  every := ⟨again, holding.rows,
    fun row member => ⟨holding.among row member, holding.unkeyed rfl row member⟩⟩
  once := by
    have filtered := holding.rows.filter lineage.keyed
    have nothing : (imageRows lineage.image again).filter lineage.keyed = [] := by
      rw [List.filter_eq_nil_iff]
      intro out member
      obtain ⟨row, present, among⟩ := Lineage.mem_imageRows.mp member
      rw [keyed_image carries (holding.unkeyed rfl row present) among]
      exact Bool.false_ne_true
    rw [List.filter_append, nothing, List.append_nil] at filtered
    exact filtered

/-- From a target someone else filled, at every moment of every run, the target holds the first
rows of the source; all of them once the process has caught up. -/
private theorem handover {first last : World ρ τ T K P} {filled : Nat}
    (carries : lineage.Carries config engine) (orderly : lineage.Orderly engine first.source)
    (numbered : first.source.commits.length ≤ 2 ^ 64)
    (fill : lineage.Filled config first.source first.target filled)
    (stopped : first.process = none)
    (run : World.Runs config engine (lineage.Arriving engine) first last) :
    ∃ count, lineage.Complete (heldRows config last.source
        ((sourceRows config first.source 0 config.startingVersion).take filled) count)
      (tableRows last.target) ∧
      (last.CaughtUp → count = (streamed config last.source).length) := by
  have handing : Handing lineage config engine true
      ((sourceRows config first.source 0 config.startingVersion).take filled) last := by
    refine run.invariant ⟨orderly, numbered, fill.readable, [], ?_⟩ ?_ ?_
    · rw [stopped]
      exact fill.agree true
    · intro before after holds moved
      exact holds.moved carries moved
    · intro before source target holds happens
      obtain ⟨again, count, agree⟩ := holds.agree
      have same : target = before.target := happens.untouched
      subst same
      exact ⟨happens.orderly, happens.numbered, holds.readable, again, count,
        agree.grown happens.grows⟩
  obtain ⟨again, count, agree⟩ := handing.agree
  exact ⟨count, agree.holding.complete carries, caughtUp_holds agree⟩

end Run

/-- A row past the mark of its own class, whatever the marks of others; so is one of a class
without a mark. -/
def PastMark (columns : DedupColumns τ T K P) (dedup : Dedup T K P) (row : τ) : Prop :=
  ∀ kind mark time, columns.classOf row = some kind → dedup.markOf kind = some mark →
    columns.timestamp row = some time → mark.newest < time

section Past

variable {config : ResolvedPipeline τ T K P} {engine : Engine ρ τ T K P}
  {columns : DedupColumns τ T K P} {dedup : Dedup T K P}

private theorem pastMark_verdict (partitioned : columns.isPartitioned = true) {rows : List τ}
    {filtered : Filtered τ} (ok : dedup.filter columns rows = .ok filtered) {row : τ}
    (member : row ∈ rows) (past : PastMark columns dedup row) :
    row ∈ filtered.kept ∧ 0 < filtered.beyond := by
  obtain ⟨shape, placed⟩ := Dedup.filter_semantics ok
  obtain ⟨timed, classed⟩ := placed (Or.inl partitioned) row member
  obtain ⟨time, atTime⟩ := Option.isSome_iff_exists.mp timed
  obtain ⟨kind, ofKind⟩ := Option.isSome_iff_exists.mp classed
  have verdict : dedup.verdict columns row = .beyond := by
    unfold Dedup.verdict
    rw [ofKind]
    simp only
    cases found : dedup.markOf kind with
    | none => rfl
    | some mark =>
        rw [atTime]
        simp only [judge, if_pos (past kind mark time ofKind found atTime)]
  subst shape
  constructor
  · refine List.mem_filter.mpr ⟨member, decide_eq_true ?_⟩
    rw [verdict]
    intro same
    cases same
  · exact List.countP_pos_iff.mpr ⟨row, member, decide_eq_true verdict⟩

private theorem process_pastMark (configured : config.dedup = some columns)
    (partitioned : columns.isPartitioned = true) {path : String} {pipeline after : Pipeline T K P}
    {cutoff : Cutoff T K P} {batch : LogBatch ρ} {output : List τ} {commit : Commit τ}
    (inside : pipeline.cutoff = some cutoff)
    (transformed : engine.transform batch.throughLogTimestamp (batchRows batch) = .ok output)
    (processed : process config engine path pipeline batch = .commits commit after) {row : τ}
    (member : row ∈ output) (past : PastMark columns cutoff.dedup row) :
    (∃ file, Action.add file ∈ commit.actions ∧ row ∈ file.rows) ∧ after.cutoff = none := by
  unfold process at processed
  rw [transformed, inside] at processed
  simp only [applyCutoff, configured] at processed
  cases cut : cutoff.dedup.filter columns output with
  | error error =>
      rw [cut] at processed
      cases processed
  | ok filtered =>
      obtain ⟨kept, beyond⟩ := pastMark_verdict partitioned cut member past
      have closes : pipeline.closesAfter batch.end_ filtered.beyond = some true := by
        unfold Pipeline.closesAfter windowClosesAfter
        rw [inside, Option.map_some, decide_eq_true beyond, Bool.true_or]
      rw [cut] at processed
      simp only [closes] at processed
      cases stored : OffsetStore.txnVersionFor batch.end_ with
      | error error =>
          rw [stored] at processed
          cases processed
      | ok version =>
          rw [stored] at processed
          cases processed
          constructor
          · have some_row : filtered.kept.isEmpty = false := by
              rw [List.isEmpty_eq_false_iff]
              exact List.ne_nil_of_mem kept
            refine ⟨{ path := path, rows := filtered.kept }, ?_, kept⟩
            simp [sinkCommit, some_row]
          · simp [Pipeline.settleCutoff]

end Past

/-- Rows of a partition, a time and a key. -/
def windowLineage (partitionColumns : List String) :
    Lineage (Nat × Nat × Option Nat) (Nat × Nat × Option Nat) Nat Nat Nat where
  columns :=
    { timestampColumn := "ts"
      timestamp := fun row => some row.2.1
      key := some fun row => row.2.2
      partitionColumns := partitionColumns
      partition := fun row => some row.1 }
  image := fun _context row => [row]
  stamp := fun row =>
    { kind := if partitionColumns.isEmpty then none else some row.1
      time := row.2.1
      key := row.2.2 }

def windowConfig (partitionColumns : List String) :
    ResolvedPipeline (Nat × Nat × Option Nat) Nat Nat Nat where
  name := "p"
  appId := "p"
  sourceUri := "s"
  startingVersion := 0
  changePolicy := .fail
  maxFilesPerBatch := 1
  maxBytesPerBatch := 1
  hasLookups := false
  watermarkUri := none
  dedup := some (windowLineage partitionColumns).columns

def windowEngine : Engine (Nat × Nat × Option Nat) (Nat × Nat × Option Nat) Nat Nat Nat where
  transform := fun _context rows => .ok rows
  timestampBounds :=
    { boundOfScalar := fun _ => none,
      ordered := TimestampBounds.ordered_of_none, slack := none,
      parseTimestampMicros := fun _ => none }
  sourceColumns :=
    { has := fun _ => true, timestamp := fun row => some row.2.1, partition := fun row => some row.1,
      key := fun row => row.2.2, readable := fun _ => true, hasKey := fun _ => true,
      partitionKey := List.length }
  declaredWatermark := .ok none

/-- A table with a commit for each list of rows. -/
def windowTable (parts : List (List (Nat × Nat × Option Nat))) :
    DeltaLog (Nat × Nat × Option Nat) where
  commits := { actions := [.metaData { id := some "t", schemaString := "s" }] } ::
    parts.map fun rows => { actions := [.add { path := "a", rows := rows }] }

def windowWorld (parts : List (List (Nat × Nat × Option Nat)))
    (held : List (Nat × Nat × Option Nat)) :
    World (Nat × Nat × Option Nat) (Nat × Nat × Option Nat) Nat Nat Nat where
  source := windowTable parts
  target := windowTable [held]
  process := none

/-- An open, a commit that lands unseen, and from a fresh open on to the head. -/
def windowMoves : List Move :=
  [.start, .step none none .unseen, .start, .step none none .seen, .step none none .seen,
    .step none none .seen]

theorem windowLineage_carries (partitionColumns : List String) :
    (windowLineage partitionColumns).Carries (windowConfig partitionColumns) windowEngine where
  configured := rfl
  rowLocal := by
    intro context rows output transformed
    cases transformed
    exact (List.flatMap_singleton' rows).symm
  stamped := by
    intro context row out member
    rw [List.mem_singleton.mp member]
    refine ⟨rfl, ?_, rfl⟩
    cases partitionColumns <;> rfl
  whole := by
    intro single row
    cases partitionColumns with
    | nil => rfl
    | cons column rest => cases single
  sourceTime := by
    rintro row _ ⟨⟩
    rfl
  sourcePartition := by
    rintro partitioned row _ ⟨⟩
    cases partitionColumns with
    | nil => cases partitioned
    | cons column rest => rfl
  sourceKey := fun _configured row key known => known

private theorem windowFile_truthful (partitionColumns : List String)
    (rows : List (Nat × Nat × Option Nat)) :
    (windowLineage partitionColumns).Truthful windowEngine { path := "a", rows := rows } where
  counted := nofun
  bounded := nofun
  placed := by
    intro partitioned parts exactly_
    cases partitionColumns with
    | nil => cases partitioned
    | cons column rest =>
        unfold partitionFromStats at exactly_
        obtain ⟨nothing, _found, impossible⟩ := Option.map_eq_some_iff.mp exactly_
        cases impossible

private theorem windowTable_files (parts : List (List (Nat × Nat × Option Nat))) (first : Nat)
    (entry : Nat × AddFile (Nat × Nat × Option Nat)) (bound : Nat)
    (member : entry ∈ emitted (windowTable parts) .ignoreChanges first bound) :
    ∃ rows, entry.2 = { path := "a", rows := rows } := by
  obtain ⟨_low, _high, part⟩ := mem_emitted.mp member
  unfold emittedAt at part
  rw [DeltaLog.readCommitEntry_eq] at part
  cases here : (windowTable parts).written.commits[entry.1]? with
  | none =>
      rw [here] at part
      cases part
  | some commit =>
      rw [here] at part
      change entry.2 ∈ emittedAdds .ignoreChanges commit.actions at part
      rw [Lineage.emittedAdds_ignoreChanges] at part
      rcases List.mem_cons.mp (List.mem_of_getElem? here) with first_ | later
      · rw [first_] at part
        cases part
      · obtain ⟨rows, _present, same⟩ := List.mem_map.mp later
        rw [← same] at part
        exact ⟨rows, List.mem_singleton.mp part⟩

theorem windowTable_orderly {partitionColumns : List String}
    {parts : List (List (Nat × Nat × Option Nat))}
    (inOrder : Arrivals.InOrder ((rowsOf (emitted (windowTable parts) .ignoreChanges 0
      (windowTable parts).commits.length)).map (windowLineage partitionColumns).stamp)) :
    (windowLineage partitionColumns).Orderly windowEngine (windowTable parts) where
  inOrder := inOrder
  truthful := by
    intro entry member
    obtain ⟨rows, same⟩ := windowTable_files parts 0 entry _ member
    rw [same]
    exact windowFile_truthful partitionColumns rows

section Claims

variable {lineage : Lineage ρ τ T K P} {config : ResolvedPipeline τ T K P}
  {engine : Engine ρ τ T K P} {first last : World ρ τ T K P} {filled : Nat}

/-- However the rest of the source is cut into batches, and whatever order opens, steps, crashes
and arrivals come in, the target holds the first rows of the source, and once the process has
caught up all of them; only a row without a key is ever there again. -/
theorem coverageWindow_complete (carries : lineage.Carries config engine)
    (orderly : lineage.Orderly engine first.source)
    (numbered : first.source.commits.length ≤ 2 ^ 64)
    (fill : lineage.Filled config first.source first.target filled)
    (stopped : first.process = none)
    (run : World.Runs config engine (lineage.Arriving engine) first last) :
    ∃ count, lineage.Complete (heldRows config last.source
        ((sourceRows config first.source 0 config.startingVersion).take filled) count)
      (tableRows last.target) ∧
      (last.CaughtUp → count = (streamed config last.source).length) :=
  handover carries orderly numbered fill stopped run

/-- A row without a key that lies at the mark is written again. -/
theorem windowWorld_withoutKey :
    let world := windowWorld [[(0, 1, none)]] [(0, 1, none)]
    let last := world.moves (windowConfig []) windowEngine
      [.start, .step none none .seen, .step none none .seen]
    (windowLineage []).Orderly windowEngine world.source ∧
      (windowLineage []).Filled (windowConfig []) world.source world.target 1 ∧
      World.Runs (windowConfig []) windowEngine ((windowLineage []).Arriving windowEngine)
        world last ∧
      last.CaughtUp ∧ streamed (windowConfig []) last.source = [(none, 0, 1, none)] ∧
      tableRows last.target = [(0, 1, none), (0, 1, none)] := by
  refine ⟨windowTable_orderly ⟨by decide, by decide⟩, ⟨List.Perm.refl _, Or.inl rfl, fun _ => rfl⟩,
    World.Runs.ofMoves _ _ _ _ _, ⟨_, rfl, ?_⟩, rfl, rfl⟩
  decide

/-- Rows held and rows tied with them at the mark, written once. -/
theorem windowWorld_complete :
    let world := windowWorld [[(0, 1, some 1), (0, 2, some 2)], [(0, 2, some 3)], [(0, 3, some 4)]]
      [(0, 1, some 1), (0, 2, some 2)]
    let last := world.moves (windowConfig []) windowEngine windowMoves
    tableRows last.target = [(0, 1, some 1), (0, 2, some 2), (0, 2, some 3), (0, 3, some 4)] ∧
      ∃ count, (windowLineage []).Complete
        (heldRows (windowConfig []) last.source [] count) (tableRows last.target) ∧
        (last.CaughtUp → count = (streamed (windowConfig []) last.source).length) := by
  have run := World.Runs.ofMoves (windowConfig []) windowEngine
    ((windowLineage []).Arriving windowEngine)
    (windowWorld [[(0, 1, some 1), (0, 2, some 2)], [(0, 2, some 3)], [(0, 3, some 4)]]
      [(0, 1, some 1), (0, 2, some 2)]) windowMoves
  have orderly : (windowLineage []).Orderly windowEngine
      (windowTable [[(0, 1, some 1), (0, 2, some 2)], [(0, 2, some 3)], [(0, 3, some 4)]]) :=
    windowTable_orderly ⟨by decide, by decide⟩
  have fill : (windowLineage []).Filled (windowConfig [])
      (windowTable [[(0, 1, some 1), (0, 2, some 2)], [(0, 2, some 3)], [(0, 3, some 4)]])
      (windowTable [[(0, 1, some 1), (0, 2, some 2)]]) 2 :=
    ⟨List.Perm.refl _, Or.inl rfl, fun _ => rfl⟩
  have complete := coverageWindow_complete (windowLineage_carries []) orderly (by decide) fill rfl
    run
  exact ⟨rfl, complete⟩

/-- Per partition the rows are in order only within each, and still none is lost and none with
a key written twice: a row past its own partition's mark is written whatever the marks of the
others, and closes the window for all of them. -/
theorem partitionedWindow_complete (carries : lineage.Carries config engine)
    (partitioned : lineage.columns.isPartitioned = true)
    (orderly : lineage.Orderly engine first.source)
    (numbered : first.source.commits.length ≤ 2 ^ 64)
    (fill : lineage.Filled config first.source first.target filled)
    (stopped : first.process = none)
    (run : World.Runs config engine (lineage.Arriving engine) first last) :
    (∃ count, lineage.Complete (heldRows config last.source
        ((sourceRows config first.source 0 config.startingVersion).take filled) count)
      (tableRows last.target) ∧
      (last.CaughtUp → count = (streamed config last.source).length)) ∧
    ∀ path (pipeline after : Pipeline T K P) cutoff (batch : LogBatch ρ) output commit,
      pipeline.cutoff = some cutoff →
      engine.transform batch.throughLogTimestamp (batchRows batch) = .ok output →
      process config engine path pipeline batch = .commits commit after →
      ∀ row, row ∈ output → PastMark lineage.columns cutoff.dedup row →
        (∃ file, Action.add file ∈ commit.actions ∧ row ∈ file.rows) ∧ after.cutoff = none := by
  refine ⟨handover carries orderly numbered fill stopped run, ?_⟩
  intro path pipeline after cutoff batch output commit inside transformed processed row member past
  exact process_pastMark carries.configured partitioned inside transformed processed member past

/-- So it is per partition. -/
theorem windowWorld_partitionWithoutKey :
    let world := windowWorld [[(0, 1, none)]] [(0, 1, none)]
    let last := world.moves (windowConfig ["p"]) windowEngine
      [.start, .step none none .seen, .step none none .seen]
    (windowLineage ["p"]).Orderly windowEngine world.source ∧
      (windowLineage ["p"]).Filled (windowConfig ["p"]) world.source world.target 1 ∧
      World.Runs (windowConfig ["p"]) windowEngine ((windowLineage ["p"]).Arriving windowEngine)
        world last ∧
      last.CaughtUp ∧ streamed (windowConfig ["p"]) last.source = [(none, 0, 1, none)] ∧
      tableRows last.target = [(0, 1, none), (0, 1, none)] := by
  refine ⟨windowTable_orderly ⟨by decide, by decide⟩, ⟨List.Perm.refl _, Or.inl rfl, fun _ => rfl⟩,
    World.Runs.ofMoves _ _ _ _ _, ⟨_, rfl, ?_⟩, rfl, rfl⟩
  decide

/-- A row older than another partition's mark, and one of a partition without a mark. -/
theorem windowWorld_partitioned :
    let world := windowWorld [[(0, 1, some 1), (1, 5, some 2)], [(0, 2, some 3)], [(2, 1, some 4)]]
      [(0, 1, some 1), (1, 5, some 2)]
    let last := world.moves (windowConfig ["p"]) windowEngine windowMoves
    tableRows last.target = [(0, 1, some 1), (1, 5, some 2), (0, 2, some 3), (2, 1, some 4)] ∧
      ∃ count, (windowLineage ["p"]).Complete
        (heldRows (windowConfig ["p"]) last.source [] count) (tableRows last.target) ∧
        (last.CaughtUp → count = (streamed (windowConfig ["p"]) last.source).length) := by
  have run := World.Runs.ofMoves (windowConfig ["p"]) windowEngine
    ((windowLineage ["p"]).Arriving windowEngine)
    (windowWorld [[(0, 1, some 1), (1, 5, some 2)], [(0, 2, some 3)], [(2, 1, some 4)]]
      [(0, 1, some 1), (1, 5, some 2)]) windowMoves
  have orderly : (windowLineage ["p"]).Orderly windowEngine
      (windowTable [[(0, 1, some 1), (1, 5, some 2)], [(0, 2, some 3)], [(2, 1, some 4)]]) :=
    windowTable_orderly ⟨by decide, by decide⟩
  have fill : (windowLineage ["p"]).Filled (windowConfig ["p"])
      (windowTable [[(0, 1, some 1), (1, 5, some 2)], [(0, 2, some 3)], [(2, 1, some 4)]])
      (windowTable [[(0, 1, some 1), (1, 5, some 2)]]) 2 :=
    ⟨List.Perm.refl _, Or.inl rfl, fun _ => rfl⟩
  have complete := partitionedWindow_complete (windowLineage_carries ["p"]) rfl orderly (by decide)
    fill rfl run
  exact ⟨rfl, complete.1⟩

end Claims

end Ddi
