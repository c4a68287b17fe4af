/-
Runs with a data-quality table. While no open starts before the end of a batch
that landed, no write is skipped and each reject is recorded once; while the
source stays the table it is and no open starts past what has been read of it,
every skipped batch rereads; a source recreated at its URI is what goes wrong.
-/

import Ddi.Pipeline.Handover
import Ddi.Pipeline.RejectsKept

namespace Ddi

open Ddi.Delta
open Ddi.Source

set_option linter.unusedSectionVars false

variable {ρ τ T K P : Type} [LinearOrder T] [DecidableEq K] [DecidableEq P]

section Judged

variable {config : ResolvedPipeline τ T K P} {engine : Quarantine ρ τ T K P}
  {source : DeltaLog ρ} {before pulled : Pipeline T K P} {judged : JudgedBatch ρ τ T K P}
  {version : Nat}

theorem Judging.end_ (judging : Judging config engine source before judged pulled version) :
    judged.batch.end_.version = version + 1 := by
  rw [judging.pull.finish _ rfl, judging.finish]
  rfl

theorem Judging.behind (judging : Judging config engine source before judged pulled version) :
    before.stream.cursor.version ≤ version := by
  obtain ⟨low, high, _boundary, _quiet⟩ := judging.pull.start _ rfl
  rw [judging.finish, StreamCursor.atVersion_version] at high
  omega

theorem Judging.entries (judging : Judging config engine source before judged pulled version) :
    judged.batch.entries =
      emitted source config.changePolicy before.stream.cursor.version (version + 1) := by
  have files := judging.pull.files
  rw [judging.finish] at files
  exact files

theorem Judging.after_cursor
    (judging : Judging config engine source before judged pulled version) :
    judged.after.stream.cursor.version = version + 1 := by
  rw [judging.onward, judging.finish]
  rfl

theorem emitted_filter {log : DeltaLog ρ} {policy : ChangePolicy} {first bound at_ : Nat}
    (low : first ≤ at_) (high : at_ < bound) :
    (emitted log policy first bound).filter (fun entry => entry.1 == at_) =
      emitted log policy at_ (at_ + 1) := by
  rw [emitted_append log policy low (Nat.le_of_lt high),
    emitted_append log policy (Nat.le_succ at_) high, List.filter_append, List.filter_append]
  have before_ : (emitted log policy first at_).filter (fun entry => entry.1 == at_) = [] := by
    rw [List.filter_eq_nil_iff]
    intro entry member
    obtain ⟨_low, below, _emitted⟩ := mem_emitted.mp member
    rw [beq_iff_eq]
    omega
  have here : (emitted log policy at_ (at_ + 1)).filter (fun entry => entry.1 == at_) =
      emitted log policy at_ (at_ + 1) := by
    rw [List.filter_eq_self]
    intro entry member
    obtain ⟨above, below, _emitted⟩ := mem_emitted.mp member
    rw [beq_iff_eq]
    omega
  have beyond : (emitted log policy (at_ + 1) bound).filter (fun entry => entry.1 == at_) = [] := by
    rw [List.filter_eq_nil_iff]
    intro entry member
    obtain ⟨above, _below, _emitted⟩ := mem_emitted.mp member
    rw [beq_iff_eq]
    omega
  rw [before_, here, beyond, List.nil_append, List.append_nil]

theorem Judging.heldAt (judging : Judging config engine source before judged pulled version)
    {at_ : Nat} (some_held : heldAt judged.batch at_ ≠ []) :
    before.stream.cursor.version ≤ at_ ∧ at_ ≤ version ∧
      Ddi.heldAt judged.batch at_ = emitted source config.changePolicy at_ (at_ + 1) := by
  obtain ⟨entry, member⟩ := List.exists_mem_of_ne_nil _ some_held
  obtain ⟨held, same⟩ := heldAt_mem.mp member
  rw [judging.entries] at held
  obtain ⟨low, high, _emitted⟩ := mem_emitted.mp held
  rw [same] at low high
  refine ⟨low, Nat.le_of_lt_succ high, ?_⟩
  unfold Ddi.heldAt
  rw [judging.entries]
  exact emitted_filter low high

end Judged

/-! ### No rewinds -/

/-- A process stands past every batch that landed, and so past the table's own offset. -/
structure Ahead (config : ResolvedPipeline τ T K P) (reject : ρ → List Reject)
    (site : Site ρ τ T K P) : Prop where
  recording : Recording config reject site
  offset : ∀ stored, transactionVersion site.rejects (dqAppIdFor config.appId) = some stored →
    ∃ entry, entry ∈ site.past.landed ∧ stored + 1 = entry.2.end_.version
  within : ∀ entry, entry ∈ site.past.landed → ∀ file, file ∈ entry.2.entries →
    file.1 < entry.2.end_.version
  running : ∀ worker, site.process = some worker → ∀ entry, entry ∈ site.past.landed →
    entry.2.end_.version ≤ worker.pipeline.stream.cursor.version
  once : RecordedOnce reject site

section NoRewind

variable {config : ResolvedPipeline τ T K P} {engine : Quarantine ρ τ T K P}
  {reject : ρ → List Reject} {site after : Site ρ τ T K P} {move : SiteMove}

theorem FreshSite.ahead (fresh : FreshSite config site) : Ahead config reject site where
  recording := fresh.recording
  offset := by
    intro stored impossible
    rw [fresh.offset] at impossible
    cases impossible
  within := by
    intro entry member
    rw [fresh.past] at member
    cases member
  running := by
    intro worker runs
    rw [fresh.stopped] at runs
    cases runs
  once := by
    intro tables batch member
    rw [fresh.past] at member
    cases member

/-- The table's offset is never that of the batch at hand. -/
theorem Ahead.unrecorded {worker : Worker T K P} {judged : JudgedBatch ρ τ T K P}
    {pulled : Pipeline T K P} {version : Nat} (ahead : Ahead config reject site)
    (runs : site.process = some worker)
    (judging : Judging config engine site.source worker.pipeline judged pulled version) :
    worker.dq.alreadyRecorded judged.sourceVersion = false := by
  obtain ⟨ours, sees, _ready⟩ := ahead.recording.worker worker runs
  apply decide_eq_false
  intro found
  rw [ours, sees, judging.offset] at found
  obtain ⟨entry, landed, same⟩ := ahead.offset _ found
  have before_ := ahead.running worker runs entry landed
  have behind := judging.behind
  omega

theorem Ahead.rereads (ahead : Ahead config reject site) :
    Rereads config engine reject site move := by
  intro batch skips
  cases skips with
  | skips worker judged put budget retryBudget now recording committing runs turned not_empty found
      made lands =>
      obtain ⟨pulled, version, judging⟩ := ahead.recording.worker_judged runs turned
      rw [ahead.unrecorded runs judging] at found
      cases found

/-- A batch of an earlier stretch holds nothing of this one. -/
theorem Ahead.apart {worker : Worker T K P} {judged : JudgedBatch ρ τ T K P}
    {pulled : Pipeline T K P} {version : Nat} (ahead : Ahead config reject site)
    (runs : site.process = some worker)
    (judging : Judging config engine site.source worker.pipeline judged pulled version)
    {entry : Nat × LogBatch ρ} (landed : entry ∈ site.past.landed) (at_ : Nat) :
    heldAt entry.2 at_ = [] ∨ heldAt judged.batch at_ = [] := by
  by_cases mine : heldAt judged.batch at_ = []
  · exact Or.inr mine
  · left
    obtain ⟨low, _high, _same⟩ := judging.heldAt mine
    have before_ := ahead.running worker runs entry landed
    apply List.eq_nil_iff_forall_not_mem.mpr
    intro file member
    obtain ⟨held, same⟩ := heldAt_mem.mp member
    have below := ahead.within entry landed file held
    omega

theorem Judging.within {source : DeltaLog ρ} {before pulled : Pipeline T K P}
    {judged : JudgedBatch ρ τ T K P} {version : Nat}
    (judging : Judging config engine source before judged pulled version)
    {file : Nat × AddFile ρ} (held : file ∈ judged.batch.entries) :
    file.1 < judged.batch.end_.version := by
  rw [judging.entries] at held
  obtain ⟨_low, high, _emitted⟩ := mem_emitted.mp held
  rw [judging.end_]
  exact high

private theorem record_landed {past : Past ρ} {batch : LogBatch ρ}
    {entry : Nat × LogBatch ρ} :
    entry ∈ (past.record batch).landed ↔ entry ∈ past.landed ∨ entry = (past.tables, batch) := by
  unfold Past.landed Past.record
  simp only [List.mem_append, List.mem_singleton]
  tauto

private theorem commit_landed {past : Past ρ} {batch : LogBatch ρ}
    {entry : Nat × LogBatch ρ} :
    entry ∈ (past.commit batch).landed ↔ entry ∈ past.landed ∨ entry = (past.tables, batch) := by
  unfold Past.landed Past.commit
  simp only [List.mem_append, List.mem_singleton]
  tauto

private theorem both_landed {past : Past ρ} {batch : LogBatch ρ} {entry : Nat × LogBatch ρ} :
    entry ∈ ((past.record batch).commit batch).landed ↔
      entry ∈ past.landed ∨ entry = (past.tables, batch) := by
  rw [commit_landed, record_landed]
  exact or_assoc.trans (or_congr_right (or_self_iff))

theorem Ahead.record_once {worker : Worker T K P} {judged : JudgedBatch ρ τ T K P}
    {pulled : Pipeline T K P} {version : Nat} (ahead : Ahead config reject site)
    (runs : site.process = some worker)
    (judging : Judging config engine site.source worker.pipeline judged pulled version)
    {tables : Nat} {batch : LogBatch ρ} (committed : (tables, batch) ∈ site.past.committed)
    {at_ : Nat} (some_rejects : rejectedBy reject (heldAt batch at_) ≠ []) :
    (site.past.record judged.batch).recorded.countP
      (fun entry => !(heldAt entry.2 at_).isEmpty) = 1 := by
  have earlier := ahead.once tables batch committed at_ some_rejects
  have mine : heldAt judged.batch at_ = [] := by
    rcases ahead.apart runs judging (List.mem_append_right _ committed) at_ with theirs | mine
    · exact absurd theirs (heldAt_of_rejected some_rejects)
    · exact mine
  unfold Past.record
  rw [List.countP_append, earlier, List.countP_singleton, mine]
  rfl

theorem Ahead.moved (ahead : Ahead config reject site) (judges : JudgesRows engine reject)
    (noRewind : NoRewind config engine site move)
    (moved : Site.Moved config engine site move after) : Ahead config reject after := by
  have recording := ahead.recording.moved judges ahead.rereads moved
  cases moved with
  | idle => exact ahead
  | stopped =>
      exact
        { recording := recording
          offset := ahead.offset
          within := ahead.within
          running := by
            intro worker runs
            cases runs
          once := ahead.once }
  | opened pipeline resolved =>
      exact
        { recording := recording
          offset := ahead.offset
          within := ahead.within
          running := by
            intro worker runs
            cases runs
            exact noRewind rfl pipeline resolved
          once := ahead.once }
  | caughtUp worker after budget retryBudget move runs turned =>
      have ready := (ahead.recording.worker worker runs).2.2
      have onward := (turn_caughtUp ready turned).notBefore
      exact
        { recording := recording
          offset := ahead.offset
          within := ahead.within
          running := by
            intro other now_runs
            cases now_runs
            intro entry landed
            exact Nat.le_trans (ahead.running worker runs entry landed) onward
          once := ahead.once }
  | recorded worker judged commit budget retryBudget now move runs turned wrote =>
      obtain ⟨pulled, version, judging⟩ := ahead.recording.worker_judged runs turned
      obtain ⟨_some, _unrecorded, made⟩ := DataQuality.write_some wrote
      have ours := (ahead.recording.worker worker runs).1
      refine
        { recording := recording
          offset := ?_
          within := ?_
          running := ?_
          once := ?_ }
      · intro stored found
        rw [made, ← ours, DataQuality.transactionVersion_commit] at found
        cases found
        refine ⟨_, record_landed.mpr (Or.inr rfl), ?_⟩
        rw [judging.offset, judging.end_]
        rfl
      · intro entry landed file held
        rcases record_landed.mp landed with earlier | same
        · exact ahead.within entry earlier file held
        · subst same
          exact judging.within held
      · intro other now_runs
        cases now_runs
      · intro tables batch committed at_ some_rejects
        exact ahead.record_once runs judging committed some_rejects
  | passed worker judged put budget retryBudget now recorded committing process runs turned skipped
      made lands goesOn =>
      obtain ⟨pulled, version, judging⟩ := ahead.recording.worker_judged runs turned
      refine
        { recording := recording
          offset := ?_
          within := ?_
          running := ?_
          once := ?_ }
      · intro stored found
        obtain ⟨entry, landed, same⟩ := ahead.offset stored found
        exact ⟨entry, commit_landed.mpr (Or.inl landed), same⟩
      · intro entry landed file held
        rcases commit_landed.mp landed with earlier | same
        · exact ahead.within entry earlier file held
        · subst same
          exact judging.within held
      · intro other now_runs entry landed
        rw [goesOn.pipeline now_runs, judging.after_cursor]
        rcases commit_landed.mp landed with earlier | same
        · have before_ := ahead.running worker runs entry earlier
          have behind := judging.behind
          omega
        · subst same
          rw [judging.end_]
      · intro tables batch committed at_ some_rejects
        rcases List.mem_append.mp committed with earlier | last
        · exact ahead.once tables batch earlier at_ some_rejects
        · obtain ⟨_sameTables, sameBatch⟩ := Prod.mk.inj (List.mem_singleton.mp last)
          subst sameBatch
          rcases DataQuality.write_none skipped with empty | found
          · have rejected := judging.rejected judges
            rw [empty] at rejected
            exact absurd (List.nil_perm.mp rejected) (rejectedBy_held some_rejects)
          · rw [ahead.unrecorded runs judging] at found
            cases found
  | committed worker judged commit put budget retryBudget now move process runs turned wrote
      goesOn =>
      obtain ⟨pulled, version, judging⟩ := ahead.recording.worker_judged runs turned
      obtain ⟨_some, _unrecorded, made⟩ := DataQuality.write_some wrote
      have ours := (ahead.recording.worker worker runs).1
      refine
        { recording := recording
          offset := ?_
          within := ?_
          running := ?_
          once := ?_ }
      · intro stored found
        rw [made, ← ours, DataQuality.transactionVersion_commit] at found
        cases found
        refine ⟨_, both_landed.mpr (Or.inr rfl), ?_⟩
        rw [judging.offset, judging.end_]
        rfl
      · intro entry landed file held
        rcases both_landed.mp landed with earlier | same
        · exact ahead.within entry earlier file held
        · subst same
          exact judging.within held
      · intro other now_runs entry landed
        rw [goesOn.pipeline now_runs, judging.after_cursor]
        rcases both_landed.mp landed with earlier | same
        · have before_ := ahead.running worker runs entry earlier
          have behind := judging.behind
          omega
        · subst same
          rw [judging.end_]
      · intro tables batch committed at_ some_rejects
        rcases List.mem_append.mp committed with earlier | last
        · exact ahead.record_once runs judging earlier some_rejects
        · obtain ⟨_sameTables, sameBatch⟩ := Prod.mk.inj (List.mem_singleton.mp last)
          subst sameBatch
          have others : site.past.recorded.countP
              (fun entry => !(heldAt entry.2 at_).isEmpty) = 0 := by
            rw [List.countP_eq_zero]
            intro entry member
            rcases ahead.apart runs judging (List.mem_append_left _ member) at_ with theirs | mine
            · rw [theirs]
              nofun
            · exact absurd mine (heldAt_of_rejected some_rejects)
          have mine : (heldAt judged.batch at_).isEmpty = false := by
            rw [List.isEmpty_eq_false_iff]
            exact heldAt_of_rejected some_rejects
          change (site.past.recorded ++ [(site.past.tables, judged.batch)]).countP _ = 1
          rw [List.countP_append, others, List.countP_singleton, mine]
          rfl

theorem Ahead.besides (ahead : Ahead config reject site)
    (happens : Site.Besides config site after) : Ahead config reject after := by
  have recording := ahead.recording.besides happens
  cases happens with
  | grown source longer =>
      exact ⟨recording, ahead.offset, ahead.within, ahead.running, ahead.once⟩
  | recreated source =>
      exact ⟨recording, ahead.offset, ahead.within, ahead.running, ahead.once⟩
  | target target =>
      exact ⟨recording, ahead.offset, ahead.within, ahead.running, ahead.once⟩
  | rejects commit others =>
      refine ⟨recording, ?_, ahead.within, ahead.running, ahead.once⟩
      intro stored found
      rw [others.transactionVersion] at found
      exact ahead.offset stored found

end NoRewind

/-! ### The same source table -/

/-- Every version a source table has files at, from where it is read from, was in a batch that
landed. -/
def CoveredTo (config : ResolvedPipeline τ T K P) (site : Site ρ τ T K P) (bound : Nat) : Prop :=
  ∀ version, config.startingVersion ≤ version → version < bound →
    emitted site.source config.changePolicy version (version + 1) ≠ [] → ∃ batch,
      (site.past.tables, batch) ∈ site.past.landed ∧
        heldAt batch version = emitted site.source config.changePolicy version (version + 1)

/-- What was read of the source table has no gaps: neither up to a running process, nor up to the
end of any batch that landed, nor up to the data-quality table's offset. -/
structure Gapless (config : ResolvedPipeline τ T K P) (reject : ρ → List Reject)
    (site : Site ρ τ T K P) : Prop where
  recording : Recording config reject site
  offset : ∀ stored, transactionVersion site.rejects (dqAppIdFor config.appId) = some stored →
    ∃ batch, (site.past.tables, batch) ∈ site.past.landed ∧ stored + 1 = batch.end_.version
  landed : ∀ batch, (site.past.tables, batch) ∈ site.past.landed →
    CoveredTo config site batch.end_.version ∧ batch.end_.version ≤ site.source.commits.length
  running : ∀ worker, site.process = some worker →
    config.startingVersion ≤ worker.pipeline.stream.cursor.version ∧
      CoveredTo config site worker.pipeline.stream.cursor.version ∧
      worker.pipeline.stream.cursor.version ≤
        max config.startingVersion site.source.commits.length

/-- Something besides the process that leaves the source the table it is. -/
def Grows (config : ResolvedPipeline τ T K P) (before after : Site ρ τ T K P) : Prop :=
  Site.Besides config before after ∧ after.past.tables = before.past.tables

section NoSkip

variable {config : ResolvedPipeline τ T K P} {engine : Quarantine ρ τ T K P}
  {reject : ρ → List Reject} {site after : Site ρ τ T K P} {move : SiteMove}

theorem FreshSite.gapless (fresh : FreshSite config site) : Gapless config reject site where
  recording := fresh.recording
  offset := by
    intro stored impossible
    rw [fresh.offset] at impossible
    cases impossible
  landed := by
    intro batch member
    rw [fresh.past] at member
    cases member
  running := by
    intro worker runs
    rw [fresh.stopped] at runs
    cases runs

theorem CoveredTo.mono {bound bound' : Nat} (covered : CoveredTo config site bound)
    (less : bound' ≤ bound) : CoveredTo config site bound' := by
  intro version low high
  exact covered version low (Nat.lt_of_lt_of_le high less)

/-- What landed stays landed. -/
theorem CoveredTo.later {bound : Nat} (covered : CoveredTo config site bound)
    (source : after.source = site.source) (tables : after.past.tables = site.past.tables)
    (more : ∀ entry, entry ∈ site.past.landed → entry ∈ after.past.landed) :
    CoveredTo config after bound := by
  intro version low high
  rw [source, tables]
  intro some_files
  obtain ⟨batch, landed, same⟩ := covered version low high some_files
  exact ⟨batch, more _ landed, same⟩

theorem CoveredTo.grown {bound : Nat} (covered : CoveredTo config site bound)
    (within : bound ≤ max config.startingVersion site.source.commits.length)
    (longer : Extends site.source after.source) (past : after.past = site.past) :
    CoveredTo config after bound := by
  intro version low high
  have same : emitted after.source config.changePolicy version (version + 1) =
      emitted site.source config.changePolicy version (version + 1) :=
    emitted_extends longer config.changePolicy (by omega)
  rw [same, past]
  exact covered version low high

/-- Past a stretch without files there is nothing more to cover. -/
theorem CoveredTo.silent {middle bound : Nat} (covered : CoveredTo config site middle)
    (quiet : emitted site.source config.changePolicy middle bound = []) :
    CoveredTo config site bound := by
  intro version low high some_files
  by_cases early : version < middle
  · exact covered version low early some_files
  · rw [← emitted_filter (Nat.le_of_not_lt early) high, quiet] at some_files
    exact absurd List.filter_nil some_files

/-- Past a batch that landed everything up to its end is covered. -/
theorem CoveredTo.batch {before pulled : Pipeline T K P} {judged : JudgedBatch ρ τ T K P}
    {version : Nat} (covered : CoveredTo config site before.stream.cursor.version)
    (judging : Judging config engine site.source before judged pulled version)
    (landed : (site.past.tables, judged.batch) ∈ site.past.landed) :
    CoveredTo config site (version + 1) := by
  intro at_ low high some_files
  by_cases early : at_ < before.stream.cursor.version
  · exact covered at_ low early some_files
  · refine ⟨judged.batch, landed, ?_⟩
    unfold heldAt
    rw [judging.entries]
    exact emitted_filter (Nat.le_of_not_lt early) high

/-- A batch at whose end the table's offset stands holds nothing new. -/
theorem Gapless.rereads (gapless : Gapless config reject site) :
    Rereads config engine reject site move := by
  intro batch skips
  cases skips with
  | skips worker judged put budget retryBudget now recording committing runs turned not_empty found
      made lands =>
      intro at_ some_rejects
      obtain ⟨pulled, version, judging⟩ := gapless.recording.worker_judged runs turned
      obtain ⟨ours, sees, _ready⟩ := gapless.recording.worker worker runs
      have stored := of_decide_eq_true found
      rw [ours, sees, judging.offset] at stored
      obtain ⟨earlier, landed, end_⟩ := gapless.offset _ stored
      have covered := (gapless.landed earlier landed).1
      have start := (gapless.running worker runs).1
      have some_held := heldAt_of_rejected some_rejects
      obtain ⟨low, high, same⟩ := judging.heldAt some_held
      rw [same] at some_held ⊢
      apply covered at_
      · omega
      · omega
      · exact some_held

theorem Gapless.reached {worker : Worker T K P} {judged : JudgedBatch ρ τ T K P}
    {pulled : Pipeline T K P} {version : Nat}
    (judging : Judging config engine site.source worker.pipeline judged pulled version) :
    version + 1 ≤ site.source.commits.length := by
  apply judging.pull.reached
  · exact judging.behind
  · rw [judging.finish]
    exact Nat.lt_succ_self version

/-- One batch more, of which any part landed. -/
theorem Gapless.land {worker : Worker T K P} {judged : JudgedBatch ρ τ T K P}
    {pulled : Pipeline T K P} {version : Nat} (gapless : Gapless config reject site)
    (runs : site.process = some worker)
    (judging : Judging config engine site.source worker.pipeline judged pulled version)
    (recording : Recording config reject after) (source : after.source = site.source)
    (tables : after.past.tables = site.past.tables)
    (landed : ∀ entry, entry ∈ after.past.landed ↔
      entry ∈ site.past.landed ∨ entry = (site.past.tables, judged.batch))
    (offset : ∀ stored,
      transactionVersion after.rejects (dqAppIdFor config.appId) = some stored →
        transactionVersion site.rejects (dqAppIdFor config.appId) = some stored ∨
          stored = version)
    (goesOn : ∀ other, after.process = some other → other.pipeline = judged.after) :
    Gapless config reject after := by
  have more : ∀ entry, entry ∈ site.past.landed → entry ∈ after.past.landed :=
    fun entry member => (landed entry).mpr (Or.inl member)
  have mine : (after.past.tables, judged.batch) ∈ after.past.landed := by
    rw [tables]
    exact (landed _).mpr (Or.inr rfl)
  obtain ⟨start, covered, _within⟩ := gapless.running worker runs
  have judging' := judging
  rw [← source] at judging'
  have whole : CoveredTo config after (version + 1) :=
    (covered.later source tables more).batch judging' mine
  have reached := Gapless.reached judging
  have behind := judging.behind
  refine
    { recording := recording
      offset := ?_
      landed := ?_
      running := ?_ }
  · intro stored found
    rcases offset stored found with earlier | now_
    · obtain ⟨batch, member, same⟩ := gapless.offset stored earlier
      rw [tables]
      exact ⟨batch, more _ member, same⟩
    · refine ⟨judged.batch, mine, ?_⟩
      rw [now_, judging.end_]
      rfl
  · intro batch member
    rw [tables] at member
    rcases (landed _).mp member with earlier | same
    · obtain ⟨upto, inside⟩ := gapless.landed batch earlier
      rw [source]
      exact ⟨upto.later source tables more, inside⟩
    · cases same
      rw [judging.end_, source]
      exact ⟨whole, reached⟩
  · intro other now_runs
    rw [goesOn other now_runs, judging.after_cursor, source]
    refine ⟨by omega, whole, by omega⟩

theorem Gapless.moved (gapless : Gapless config reject site) (judges : JudgesRows engine reject)
    (noSkip : NoSkip config engine site move)
    (moved : Site.Moved config engine site move after) : Gapless config reject after := by
  have recording := gapless.recording.moved judges gapless.rereads moved
  cases moved with
  | idle => exact gapless
  | stopped =>
      exact
        { recording := recording
          offset := gapless.offset
          landed := gapless.landed
          running := by
            intro worker runs
            cases runs }
  | opened pipeline resolved =>
      exact
        { recording := recording
          offset := gapless.offset
          landed := gapless.landed
          running := by
            intro worker runs
            cases runs
            obtain ⟨low, starts⟩ := noSkip rfl pipeline resolved
            refine ⟨low, ?_⟩
            rcases starts with first | ⟨batch, landed, within⟩
            · change CoveredTo config _ pipeline.stream.cursor.version ∧
                pipeline.stream.cursor.version ≤ _
              rw [first]
              constructor
              · intro version above below
                omega
              · exact Nat.le_max_left _ _
            · obtain ⟨covered, inside⟩ := gapless.landed batch landed
              refine ⟨covered.mono within, ?_⟩
              exact Nat.le_trans within (Nat.le_trans inside (Nat.le_max_right _ _)) }
  | caughtUp worker after budget retryBudget move runs turned =>
      have ready := (gapless.recording.worker worker runs).2.2
      have pulled := turn_caughtUp ready turned
      obtain ⟨start, covered, within⟩ := gapless.running worker runs
      exact
        { recording := recording
          offset := gapless.offset
          landed := gapless.landed
          running := by
            intro other now_runs
            cases now_runs
            refine ⟨Nat.le_trans start pulled.notBefore, covered.silent pulled.files.symm, ?_⟩
            change after.stream.cursor.version ≤ max config.startingVersion
              site.source.commits.length
            by_cases still : after.stream.cursor.version ≤
                worker.pipeline.stream.cursor.version
            · omega
            · have last := pulled.reached (after.stream.cursor.version - 1) (by omega) (by omega)
              omega }
  | recorded worker judged commit budget retryBudget now move runs turned wrote =>
      obtain ⟨pulled, version, judging⟩ := gapless.recording.worker_judged runs turned
      obtain ⟨_some, _unrecorded, made⟩ := DataQuality.write_some wrote
      have ours := (gapless.recording.worker worker runs).1
      apply gapless.land runs judging recording rfl rfl fun _entry => record_landed
      · intro stored found
        rw [made, ← ours, DataQuality.transactionVersion_commit] at found
        cases found
        exact Or.inr judging.offset
      · intro other now_runs
        cases now_runs
  | passed worker judged put budget retryBudget now recorded committing process runs turned skipped
      made lands goesOn =>
      obtain ⟨pulled, version, judging⟩ := gapless.recording.worker_judged runs turned
      apply gapless.land runs judging recording rfl rfl fun _entry => commit_landed
      · intro stored found
        exact Or.inl found
      · intro other now_runs
        exact goesOn.pipeline now_runs
  | committed worker judged commit put budget retryBudget now move process runs turned wrote
      goesOn =>
      obtain ⟨pulled, version, judging⟩ := gapless.recording.worker_judged runs turned
      obtain ⟨_some, _unrecorded, made⟩ := DataQuality.write_some wrote
      have ours := (gapless.recording.worker worker runs).1
      apply gapless.land runs judging recording rfl rfl fun _entry => both_landed
      · intro stored found
        rw [made, ← ours, DataQuality.transactionVersion_commit] at found
        cases found
        exact Or.inr judging.offset
      · intro other now_runs
        exact goesOn.pipeline now_runs

theorem Gapless.besides (gapless : Gapless config reject site)
    (happens : Grows config site after) : Gapless config reject after := by
  obtain ⟨happens, sameTable⟩ := happens
  have recording := gapless.recording.besides happens
  cases happens with
  | grown source longer =>
      exact
        { recording := recording
          offset := gapless.offset
          landed := by
            intro batch member
            obtain ⟨covered, inside⟩ := gapless.landed batch member
            refine ⟨covered.grown ?_ longer rfl, Nat.le_trans inside longer.length_le⟩
            exact Nat.le_trans inside (Nat.le_max_right _ _)
          running := by
            intro worker runs
            obtain ⟨start, covered, within⟩ := gapless.running worker runs
            refine ⟨start, covered.grown within longer rfl, ?_⟩
            have longer_le := longer.length_le
            change worker.pipeline.stream.cursor.version ≤
              max config.startingVersion source.commits.length
            omega }
  | recreated source =>
      change site.past.tables + 1 = site.past.tables at sameTable
      omega
  | target target => exact ⟨recording, gapless.offset, gapless.landed, gapless.running⟩
  | rejects commit others =>
      refine ⟨recording, ?_, gapless.landed, gapless.running⟩
      intro stored found
      rw [others.transactionVersion] at found
      exact gapless.offset stored found

end NoSkip

/-- A run keeps every reject as long as each skipped batch rereads, and loses one with the first
that does not. Batches that never start behind one another are recorded once, and over one source
table every skipped batch rereads unless an open skips something. -/
theorem rejects_keptBy (config : ResolvedPipeline τ T K P) (engine : Quarantine ρ τ T K P)
    (reject : ρ → List Reject) (judges : JudgesRows engine reject) (first : Site ρ τ T K P)
    (fresh : FreshSite config first) :
    (∀ last, Site.Runs config engine (Rereads config engine reject) (Site.Besides config) first
        last →
      RejectsKept config reject last ∧
        ∀ move, ¬ Rereads config engine reject last move →
          ¬ RejectsKept config reject (last.move config engine move)) ∧
      (∀ last, Site.Runs config engine (NoRewind config engine) (Site.Besides config) first last →
        RejectsKept config reject last ∧ RecordedOnce reject last) ∧
      ∀ last, Site.Runs config engine (NoSkip config engine) (Grows config) first last →
        RejectsKept config reject last ∧ ∀ move, Rereads config engine reject last move := by
  refine ⟨?_, ?_, ?_⟩
  · intro last run
    have recording : Recording config reject last := run.invariant fresh.recording
      (fun _before _move _after holds rereads moved => holds.moved judges rereads moved)
      (fun _before _after holds happens => holds.besides happens)
    exact ⟨recording.tables, fun _move => Recording.loses⟩
  · intro last run
    have ahead : Ahead config reject last := run.invariant fresh.ahead
      (fun _before _move _after holds noRewind moved => holds.moved judges noRewind moved)
      (fun _before _after holds happens => holds.besides happens)
    exact ⟨ahead.recording.tables, ahead.once⟩
  · intro last run
    have gapless : Gapless config reject last := run.invariant fresh.gapless
      (fun _before _move _after holds noSkip moved => holds.moved judges noSkip moved)
      (fun _before _after holds happens => holds.besides happens)
    exact ⟨gapless.recording.tables, fun _move => gapless.rereads⟩

/-! ### A source recreated at its URI -/

/-- Rows whose partition is 7 do not convert. -/
def unreadable (row : Nat × Nat × Option Nat) : List Reject :=
  if row.1 = 7 then
    [{ columnName := some "part", reason := "not a part",
       payload := some (if row.2.1 = 1 then "first" else "second") }]
  else []

def unreadableEngine :
    Quarantine (Nat × Nat × Option Nat) (Nat × Nat × Option Nat) Nat Nat Nat where
  toEngine :=
    { windowEngine with
      transform := fun _stamp rows => .ok (rows.filter fun row => (unreadable row).isEmpty) }
  rejects := fun _stamp rows => rows.flatMap unreadable
  put := appendMode

theorem unreadableEngine_judges : JudgesRows unreadableEngine unreadable :=
  fun _stamp _rows _output _transformed => List.Perm.refl _

/-- A table under an id, with one commit of rows. -/
def tableNamed (id : String) (rows : List (Nat × Nat × Option Nat)) :
    DeltaLog (Nat × Nat × Option Nat) where
  commits :=
    [{ actions := [.metaData { id := some id, schemaString := "s" }] },
      { actions := [.add { path := "a", rows := rows }] }]

def rejectSite : Site (Nat × Nat × Option Nat) (Nat × Nat × Option Nat) Nat Nat Nat where
  source := tableNamed "t" [(0, 1, some 1), (7, 1, none)]
  target := windowTable []
  rejects := { commits := [] }
  process := none
  past := { tables := 0, recorded := [], committed := [] }

theorem rejectSite_fresh : FreshSite (windowConfig []) rejectSite where
  offset := rfl
  rows := rfl
  stopped := rfl
  past := rfl

/-- One batch, its rejects recorded and its commit seen. -/
def recordedSite : Site (Nat × Nat × Option Nat) (Nat × Nat × Option Nat) Nat Nat Nat :=
  (rejectSite.move (windowConfig []) unreadableEngine .start).move (windowConfig [])
    unreadableEngine (.step none none 0 .seen .seen)

theorem recordedSite_keeps :
    rejectsOf "p" recordedSite.rejects =
        [{ columnName := some "part", reason := "not a part", payload := some "first" }] ∧
      RejectsKept (windowConfig []) unreadable recordedSite ∧
      RecordedOnce unreadable recordedSite := by
  have opens : Site.Step (windowConfig []) unreadableEngine
      (NoRewind (windowConfig []) unreadableEngine) (Site.Besides (windowConfig [])) rejectSite
      (rejectSite.move (windowConfig []) unreadableEngine .start) := by
    apply Site.Step.ours
    intro _start pipeline _opened entry landed
    cases landed
  have steps : Site.Step (windowConfig []) unreadableEngine
      (NoRewind (windowConfig []) unreadableEngine) (Site.Besides (windowConfig []))
      (rejectSite.move (windowConfig []) unreadableEngine .start) recordedSite := by
    apply Site.Step.ours
    intro impossible
    cases impossible
  constructor
  · rfl
  · exact (rejects_keptBy (windowConfig []) unreadableEngine unreadable unreadableEngine_judges
      rejectSite rejectSite_fresh).2.1 recordedSite
      ((Relation.ReflTransGen.single opens).tail steps)

/-- The source dropped, and another table created where it was. -/
def recreatedSite : Site (Nat × Nat × Option Nat) (Nat × Nat × Option Nat) Nat Nat Nat :=
  { recordedSite.stop with
    source := tableNamed "u" [(0, 5, some 5), (7, 2, none)]
    past := { recordedSite.past with tables := recordedSite.past.tables + 1 } }

/-- Its one batch ends at the version the last batch of the other table ended at. -/
def lostSite : Site (Nat × Nat × Option Nat) (Nat × Nat × Option Nat) Nat Nat Nat :=
  (recreatedSite.move (windowConfig []) unreadableEngine .start).move (windowConfig [])
    unreadableEngine (.step none none 0 .seen .seen)

/-- The batch of the recreated table is committed and its reject is nowhere. -/
theorem lostSite_losesReject :
    JudgesRows unreadableEngine unreadable ∧ FreshSite (windowConfig []) rejectSite ∧
      Site.Runs (windowConfig []) unreadableEngine (fun _site _move => True)
        (Site.Besides (windowConfig [])) rejectSite lostSite ∧
      transactionVersion lostSite.target "p" = some 1 ∧
      rejectsOf "p" lostSite.rejects =
        [{ columnName := some "part", reason := "not a part", payload := some "first" }] ∧
      ¬ RejectsKept (windowConfig []) unreadable lostSite := by
  refine ⟨unreadableEngine_judges, rejectSite_fresh, ?_, rfl, rfl, ?_⟩
  · have moved : ∀ site move, Site.Step (windowConfig []) unreadableEngine
        (fun _site _move => True) (Site.Besides (windowConfig [])) site
        (site.move (windowConfig []) unreadableEngine move) :=
      fun _site move => .ours move trivial
    have recorded : Site.Runs (windowConfig []) unreadableEngine (fun _site _move => True)
        (Site.Besides (windowConfig [])) rejectSite recordedSite :=
      (Relation.ReflTransGen.single (moved _ _)).tail (moved _ _)
    have recreates : Site.Step (windowConfig []) unreadableEngine (fun _site _move => True)
        (Site.Besides (windowConfig [])) recordedSite.stop recreatedSite :=
      .besides _ (.recreated _)
    exact (((recorded.tail (moved _ .crash)).tail recreates).tail (moved _ _)).tail (moved _ _)
  · intro kept
    have committed : ∃ batch, (1, batch) ∈ lostSite.past.committed ∧
        rejectedBy unreadable (heldAt batch 1) =
          [{ columnName := some "part", reason := "not a part", payload := some "second" }] :=
      ⟨_, List.mem_cons_of_mem _ List.mem_cons_self, rfl⟩
    obtain ⟨batch, member, rejects⟩ := committed
    have some_rejects : rejectedBy unreadable (heldAt batch 1) ≠ [] := by
      rw [rejects]
      exact List.cons_ne_nil _ _
    obtain ⟨other, recorded, _same⟩ := kept.kept 1 batch member 1 some_rejects
    have numbers : lostSite.past.recorded.map Prod.fst = [0] := rfl
    have number : 1 ∈ lostSite.past.recorded.map Prod.fst := List.mem_map_of_mem recorded
    rw [numbers] at number
    cases number with
    | tail _ impossible => cases impossible

end Ddi
