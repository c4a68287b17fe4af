/-
A step inside a coverage window or outside any keeps what the tables and the
process agree on, and so does a source that grows.
-/

import Ddi.Pipeline.Coverage

namespace Ddi

open Arrivals (stretch MarksOf)
open Ddi.Delta
open Ddi.Source

set_option linter.unusedSectionVars false

variable {ρ τ T K P : Type} [LinearOrder T] [DecidableEq K] [DecidableEq P]

namespace Pipeline

variable {pipeline : Pipeline T K P}

/-- What a step leaves of the window is what its commit recorded. -/
theorem settleCutoff_recorded (end_ : StreamCursor) (beyond covered : Nat) :
    (pipeline.settleCutoff (pipeline.closesAfter end_ beyond) covered).cutoff.map Cutoff.recorded =
      pipeline.recordsAs (pipeline.closesAfter end_ beyond) := by
  unfold settleCutoff closesAfter recordsAs
  cases stands : pipeline.cutoff with
  | none => simp
  | some cutoff =>
      simp only [Option.map_some]
      cases closes : windowClosesAfter cutoff.window.through end_ beyond with
      | true => simp
      | false =>
          simp only [Option.some.injEq, Bool.false_eq_true, if_false, Option.map_some]
          rfl

theorem settleCutoff_dedup {closes : Option Bool} {covered : Nat} {after : Cutoff T K P}
    (left : (pipeline.settleCutoff closes covered).cutoff = some after) :
    ∃ cutoff, pipeline.cutoff = some cutoff ∧ after.dedup = cutoff.dedup := by
  unfold settleCutoff at left
  simp only at left
  split at left
  · rw [retire_cutoff] at left
    cases left
  · obtain ⟨cutoff, stands, same⟩ := Option.map_eq_some_iff.mp left
    exact ⟨cutoff, stands, by rw [← same]⟩

theorem settleCutoff_cursor (closes : Option Bool) (covered : Nat) :
    (pipeline.settleCutoff closes covered).stream.cursor = pipeline.stream.cursor := by
  unfold settleCutoff
  simp only
  split
  · rw [retire_stream]
  · rfl

theorem settleCutoff_ready {config : ResolvedPipeline τ T K P} (ready : Ready config pipeline)
    (closes : Option Bool) (covered : Nat) :
    Ready config (pipeline.settleCutoff closes covered) := by
  have counted : Ready config { pipeline with
      cutoff := pipeline.cutoff.map fun cutoff =>
        { cutoff with skipped := cutoff.skipped + covered } } := by
    refine ⟨ready.whole, ready.policy, ready.pinning, ?_⟩
    change pipeline.stream.stopAfter = _
    rw [ready.stop, windowHead, windowHead]
    cases pipeline.cutoff with
    | none => rfl
    | some cutoff => rfl
  unfold settleCutoff
  simp only
  split
  · exact retire_ready counted
  · exact counted

theorem closes_cases {through : Option Nat} {end_ : StreamCursor} {beyond : Nat}
    (closes : windowClosesAfter through end_ beyond = true) :
    0 < beyond ∨ ∃ head, through = some head ∧ head < end_.version := by
  unfold windowClosesAfter at closes
  rw [Bool.or_eq_true] at closes
  rcases closes with past | read
  · exact Or.inl (of_decide_eq_true past)
  · cases through with
    | none => cases read
    | some head =>
        change (!cutoffApplies head end_) = true at read
        rw [Bool.not_eq_true'] at read
        exact Or.inr ⟨head, rfl, Nat.lt_of_not_le (of_decide_eq_false read)⟩

theorem stays_cases {through : Option Nat} {end_ : StreamCursor} {beyond : Nat}
    (stays : windowClosesAfter through end_ beyond = false) (head : Nat)
    (known : through = some head) : end_.version ≤ head := by
  subst known
  unfold windowClosesAfter at stays
  rw [Bool.or_eq_false_iff, Bool.not_eq_false'] at stays
  exact of_decide_eq_true stays.2

end Pipeline

namespace Lineage

variable {lineage : Lineage ρ τ T K P} {config : ResolvedPipeline τ T K P}
  {engine : Engine ρ τ T K P} {source : DeltaLog ρ} {target : DeltaLog τ} {once : Bool}
  {early again : List (Option Nat × ρ)} {count : Nat}

section Pull

variable {before after : Pipeline T K P} {result : Option (LogBatch ρ)}

/-- Outside a window, with nothing held ahead. -/
theorem Stands.outside {version : Nat} (started : config.startingVersion ≤ version)
    (written : version ≤ max config.startingVersion source.commits.length)
    (reached : reach config source version ≤ count)
    (clear : once = true → count ≤ reach config source version) :
    lineage.Stands config source once version none count where
  started := started
  written := written
  reached := reached
  clear := by
    intro claimed _outside
    rw [Arrivals.stretch_of_le _ (clear claimed)]
    rfl
  formed := nofun
  bounded := nofun

private theorem Working.pulled (working : lineage.Working config source once before early count)
    (pulled : Pulled config source before after result) :
    lineage.Stands config source once before.stream.cursor.version
        (after.cutoff.map Cutoff.recorded) count ∧
      ∀ cutoff, after.cutoff = some cutoff → ∃ floor,
        count = max floor (reach config source before.stream.cursor.version) ∧
          MarksOf cutoff.dedup.markOf (lineage.shown (heldRows config source early floor)) := by
  cases pulled.window with
  | kept same within =>
      rw [same]
      exact ⟨working.stands, working.marks⟩
  | retired head middle was gone low past high silent =>
      have stands := working.stands
      rw [gone]
      refine ⟨.outside stands.started stands.written stands.reached fun claimed => ?_, nofun⟩
      cases window : before.cutoff with
      | none =>
          rw [Pipeline.windowHead, window] at was
          cases was
      | some cutoff =>
          rw [Pipeline.windowHead, window, Option.bind_some] at was
          rw [window] at stands
          have bounded := (stands.bounded cutoff.recorded head rfl was).2 claimed
          rw [← reach_of_silent config source stands.started low silent]
          exact Nat.le_trans bounded (reach_mono config source past)

private theorem written_of_reached
    (working : lineage.Working config source once before early count)
    (pulled : Pulled config source before after result) :
    after.stream.cursor.version ≤ max config.startingVersion source.commits.length := by
  have stands := working.stands.written
  have onward := pulled.notBefore
  by_cases still : after.stream.cursor.version = before.stream.cursor.version
  · omega
  · have last := pulled.reached (after.stream.cursor.version - 1) (by omega) (by omega)
    omega

/-- A step that finds nothing. -/
theorem Working.caughtUp (working : lineage.Working config source once before early count)
    (pulled : Pulled config source before after (none : Option (LogBatch ρ))) :
    lineage.Working config source once after early count := by
  obtain ⟨stands, marks⟩ := working.pulled pulled
  have same := reach_of_silent config source stands.started pulled.notBefore pulled.files.symm
  constructor
  · exact pulled.ready
  · exact
      { started := Nat.le_trans stands.started pulled.notBefore
        written := written_of_reached working pulled
        reached := by rw [same]; exact stands.reached
        clear := by rw [same]; exact stands.clear
        formed := stands.formed
        bounded := stands.bounded }
  · rw [same]
    exact marks

end Pull

section Put

variable {path : String} {before after : Pipeline T K P} {commit : Commit τ}
  {pulled : Pipeline T K P} {batch : LogBatch ρ} {output : List τ} {filtered : Filtered τ}
  {version : Nat}

private theorem output_rows (carries : lineage.Carries config engine)
    (working : lineage.Working config source once before early count)
    (committing : Committing config engine source path before after commit pulled batch output
      filtered version) :
    output = imageRows lineage.image (stretch (streamed config source)
      (reach config source before.stream.cursor.version)
      (reach config source pulled.stream.cursor.version)) := by
  have files : batch.entries = _ := committing.pull.files
  rw [committing.delivery.rowwise carries.rowLocal, imageOf_eq, files]
  rw [← sourceRows_eq_stretch config source working.stands.started committing.pull.notBefore]
  rfl

theorem applyCutoff_outside {rows : List τ}
    (ok : applyCutoff config (none : Option (Cutoff T K P)) rows = .ok filtered) :
    filtered.kept = rows := by
  unfold applyCutoff at ok
  cases configured : config.dedup with
  | none =>
      rw [configured] at ok
      cases ok
      rfl
  | some columns =>
      rw [configured] at ok
      cases timed : requireTimestamps columns rows with
      | error error =>
          simp only [timed] at ok
          cases ok
      | ok seen =>
          cases placed : requirePartitions columns rows with
          | error error =>
              simp only [timed, placed] at ok
              cases ok
          | ok settled =>
              simp only [timed, placed] at ok
              cases ok
              rfl

private theorem Working.put_semantics (carries : lineage.Carries config engine)
    (orderly : lineage.Orderly engine source)
    (before_ : early <+: sourceRows config source 0 config.startingVersion)
    (working : lineage.Working config source once before early count)
    (committing : Committing config engine source path before after commit pulled batch output
      filtered version) :
    (∃ again, lineage.Written config source once early count
        (reach config source (version + 1)) filtered.kept again) ∧
      lineage.Stands config source once (version + 1)
        (pulled.recordsAs (pulled.closesAfter pulled.stream.cursor filtered.beyond))
        (max count (reach config source (version + 1))) ∧
      ∀ cutoff, pulled.cutoff = some cutoff → ∃ floor,
        max count (reach config source (version + 1)) =
            max floor (reach config source (version + 1)) ∧
          MarksOf cutoff.dedup.markOf (lineage.shown (heldRows config source early floor)) := by
  obtain ⟨stands, marks⟩ := working.pulled committing.pull
  have finish : pulled.stream.cursor.version = version + 1 := by
    rw [committing.finish]
    rfl
  have onward := committing.pull.notBefore
  have ordered := reach_mono config source onward
  have written := written_of_reached working committing.pull
  have cut := committing.cutoff
  rw [output_rows carries working committing] at cut
  rw [finish] at cut ordered written onward
  have started := Nat.le_trans stands.started onward
  cases window : pulled.cutoff with
  | none =>
      rw [window] at cut stands
      refine ⟨?_, ?_, nofun⟩
      · rw [applyCutoff_outside cut]
        exact written_outside early stands.reached ordered fun claimed =>
          stands.clear claimed rfl
      · have outside : pulled.recordsAs
            (pulled.closesAfter pulled.stream.cursor filtered.beyond) = none := by
          unfold Pipeline.recordsAs
          rw [window]
        rw [outside]
        exact
          { started := started
            written := written
            reached := Nat.le_max_right _ _
            clear := by
              intro claimed _outside
              have nothing := stands.clear claimed rfl
              rcases Nat.le_total count (reach config source (version + 1)) with past | held
              · rw [Nat.max_eq_right past, Arrivals.stretch_of_le _ (Nat.le_refl _)]
                rfl
              · rw [Nat.max_eq_left held]
                rw [← Arrivals.stretch_append _ ordered held, imageRows_append,
                  List.append_eq_nil_iff] at nothing
                exact nothing.2
            formed := nofun
            bounded := nofun }
  | some cutoff =>
      obtain ⟨floor, same, held⟩ := marks cutoff window
      rw [window] at cut stands
      unfold applyCutoff at cut
      rw [carries.configured] at cut
      obtain ⟨writes, beyond⟩ := written_inside carries orderly before_ held same cut
      refine ⟨writes, ?_, ?_⟩
      · unfold Pipeline.recordsAs Pipeline.closesAfter
        rw [window, Option.map_some]
        cases closes : windowClosesAfter cutoff.window.through pulled.stream.cursor
            filtered.beyond with
        | true =>
            refine .outside started written (Nat.le_max_right _ _) fun claimed => ?_
            rcases Pipeline.closes_cases closes with past | ⟨head, through, past⟩
            · have past := beyond past
              omega
            · have bounded := (stands.bounded cutoff.recorded head rfl through).2 claimed
              rw [finish] at past
              have further := reach_mono config source past
              change reach config source (head + 1) ≤ _ at further
              omega
        | false =>
            exact
              { started := started
                written := written
                reached := Nat.le_max_right _ _
                clear := nofun
                formed := fun recorded same => stands.formed recorded same
                bounded := by
                  rintro _ head ⟨⟩ through
                  obtain ⟨within, bounded⟩ := stands.bounded cutoff.recorded head rfl through
                  have inside := Pipeline.stays_cases closes head through
                  rw [finish] at inside
                  have further := reach_mono config source (Nat.le_succ_of_le inside)
                  exact ⟨within, fun claimed => Nat.max_le.mpr ⟨bounded claimed, further⟩⟩ }
      · intro _ same
        cases same
        exact ⟨floor, by omega, held⟩

private theorem Holding.written
    (holding : lineage.Holding config source once target early again count) {bound : Nat}
    {kept : List τ} {more : List (Option Nat × ρ)}
    (writes : lineage.Written config source once early count bound kept more)
    (within : bound ≤ (streamed config source).length) {log : DeltaLog τ}
    (rows : tableRows log = tableRows target ++ kept) :
    lineage.Holding config source once log early (again ++ more) (max count bound) where
  within := Nat.max_le.mpr ⟨holding.within, within⟩
  before := holding.before
  rows := by
    rw [rows, writes.rows, heldRows_append (Nat.le_max_left count bound), imageRows_append,
      imageRows_append]
    generalize imageRows lineage.image (stretch (streamed config source) count
      (max count bound)) = fresh
    have whole := holding.rows.append_right (imageRows lineage.image more ++ fresh)
    have moved : (imageRows lineage.image again ++ imageRows lineage.image more ++ fresh).Perm
        (fresh ++ (imageRows lineage.image again ++ imageRows lineage.image more)) :=
      List.perm_append_comm
    refine whole.trans ?_
    rw [List.append_assoc, List.append_assoc, ← List.append_assoc (imageRows lineage.image again)]
    exact moved.append_left _
  among := by
    intro row member
    refine mem_heldRows_of_le (Nat.le_max_left count bound) ?_
    rcases List.mem_append.mp member with earlier | later
    · exact holding.among row earlier
    · exact writes.among row later
  unkeyed := by
    intro claimed row member
    rcases List.mem_append.mp member with earlier | later
    · exact holding.unkeyed claimed row earlier
    · exact writes.unkeyed claimed row later

private theorem recorded_put {rows : List τ} {identity : Option (Nat × String)}
    {window : Option RecordedCutoff}
    (stands : lineage.Stands config source once (version + 1) window count) :
    lineage.Recorded config source once
      (target.append (sinkCommit path config.appId rows (Int.ofNat version) identity window))
      count := by
  intro number actions found ours _near newest
  obtain ⟨within, last, _earlier⟩ := readCommitEntry_append found
  have atHead : number = target.commits.length := by
    by_contra apart
    obtain ⟨other, read, foreign, _keeps⟩ := newest target.commits.length (by omega)
      (by rw [head_append])
    rw [(readCommitEntry_append read).2.1 rfl, sinkCommit_carriesTxn] at foreign
    cases foreign
  exact ⟨path, rows, version, identity, window, last atHead,
    transactionVersion_sinkCommit _ _ _ _ _ _ _, stands⟩

/-- A step that puts a commit, whether its process learns of it or not. -/
theorem Agree.put (carries : lineage.Carries config engine)
    (orderly : lineage.Orderly engine source)
    (agree : lineage.Agree config source once target (some before) early again count)
    (committing : Committing config engine source path before after commit pulled batch output
      filtered version) {process : Option (Pipeline T K P)}
    (goesOn : process = none ∨ process = some after) :
    ∃ again count, lineage.Agree config source once (target.append commit) process early again
      count := by
  have working := agree.working before rfl
  obtain ⟨⟨more, writes⟩, stands, marks⟩ :=
    working.put_semantics carries orderly agree.holding.before committing
  have finish : pulled.stream.cursor.version = version + 1 := by
    rw [committing.finish]
    rfl
  refine ⟨again ++ more, max count (reach config source (version + 1)), ?_, ?_, ?_⟩
  · refine agree.holding.written writes (reach_le config source _) ?_
    rw [committing.commit]
    exact tableRows_sinkCommit _ _ _ _ _ _ _
  · rw [committing.commit]
    exact recorded_put stands
  · intro pipeline runs
    rcases goesOn with stopped | onward
    · rw [stopped] at runs
      cases runs
    · rw [onward] at runs
      cases runs
      have cursor : after.stream.cursor.version = version + 1 := by
        rw [committing.settled, Pipeline.settleCutoff_cursor, finish]
      constructor
      · rw [committing.settled]
        exact Pipeline.settleCutoff_ready committing.pull.ready _ _
      · rw [cursor, committing.settled, Pipeline.settleCutoff_recorded]
        exact stands
      · intro cutoff left
        rw [committing.settled] at left
        obtain ⟨earlier, was, same⟩ := Pipeline.settleCutoff_dedup left
        rw [cursor, same]
        exact marks earlier was

end Put

section Growth

variable {longer : DeltaLog ρ}

theorem Stands.extends {version : Nat} {window : Option RecordedCutoff}
    (stands : lineage.Stands config source once version window count)
    (extends_ : Extends source longer) (within : count ≤ (streamed config source).length) :
    lineage.Stands config longer once version window count := by
  have same := reach_extends extends_ stands.written
  have length := extends_.length_le
  obtain ⟨later, streams⟩ := streamed_grows config extends_
  have cut : stretch (streamed config longer) (reach config source version) count =
      stretch (streamed config source) (reach config source version) count := by
    unfold stretch
    rw [← streams, List.take_append_of_le_length within]
  constructor
  · exact stands.started
  · exact Nat.le_trans stands.written (by omega)
  · rw [same]
    exact stands.reached
  · rw [same, cut]
    exact stands.clear
  · exact stands.formed
  · intro recorded head known through
    obtain ⟨inside, bounded⟩ := stands.bounded recorded head known through
    refine ⟨Nat.lt_of_lt_of_le inside length, ?_⟩
    rw [reach_extends extends_ (show head + 1 ≤ _ by omega)]
    exact bounded

theorem Agree.grown {process : Option (Pipeline T K P)}
    (agree : lineage.Agree config source once target process early again count)
    (extends_ : Extends source longer) :
    lineage.Agree config longer once target process early again count := by
  have holding := agree.holding
  have held : ∀ fewer, fewer ≤ count →
      heldRows config longer early fewer = heldRows config source early fewer :=
    fun fewer least => heldRows_extends extends_ (Nat.le_trans least holding.within)
  constructor
  · exact
      { within := Nat.le_trans holding.within (streamed_grows config extends_).length_le
        before := holding.before.trans (sourceRows_grows extends_ 0 config.startingVersion)
        rows := by
          rw [held count (Nat.le_refl _)]
          exact holding.rows
        among := by
          rw [held count (Nat.le_refl _)]
          exact holding.among
        unkeyed := holding.unkeyed }
  · intro number actions found ours near newest
    obtain ⟨path, rows, version, identity, window, same, stored, stands⟩ :=
      agree.recorded number actions found ours near newest
    exact ⟨path, rows, version, identity, window, same, stored,
      stands.extends extends_ holding.within⟩
  · intro pipeline runs
    have working := agree.working pipeline runs
    constructor
    · exact working.ready
    · exact working.stands.extends extends_ holding.within
    · intro cutoff stands
      obtain ⟨floor, same, marks⟩ := working.marks cutoff stands
      refine ⟨floor, ?_, ?_⟩
      · rw [reach_extends extends_ working.stands.written]
        exact same
      · rw [held floor (by omega)]
        exact marks

end Growth

end Lineage

end Ddi
