/-
Which runs lose a reject. The write to the data-quality table is skipped when
the table's own offset is exactly the batch's, so what it holds must be what the
batch rejects: it is wherever each version of the batch with a reject was in an
earlier batch of the same source table, and nowhere else.
-/

import Ddi.Pipeline.RejectSteps

namespace Ddi

open Ddi.Delta
open Ddi.Source

set_option linter.unusedSectionVars false

variable {ρ τ T K P : Type} [LinearOrder T] [DecidableEq K] [DecidableEq P]

/-- The files of a batch that come from one version. -/
def heldAt (batch : LogBatch ρ) (version : Nat) : List (Nat × AddFile ρ) :=
  batch.entries.filter fun entry => entry.1 == version

/-- What is rejected of some files, each row judged by itself. -/
def rejectedBy (reject : ρ → List Reject) (entries : List (Nat × AddFile ρ)) : List Reject :=
  entries.flatMap fun entry => entry.2.rows.flatMap reject

/-- A transform and coercion that judge each row the same way every time. -/
def JudgesRows (engine : Quarantine ρ τ T K P) (reject : ρ → List Reject) : Prop :=
  ∀ stamp rows output, engine.transform stamp rows = .ok output →
    (engine.rejects stamp rows).Perm (rows.flatMap reject)

/-- Nothing of ours in the data-quality table yet, and no process. -/
structure FreshSite (config : ResolvedPipeline τ T K P) (site : Site ρ τ T K P) : Prop where
  offset : transactionVersion site.rejects (dqAppIdFor config.appId) = none
  rows : rejectsOf config.appId site.rejects = []
  stopped : site.process = none
  past : site.past = { tables := 0, recorded := [], committed := [] }

/-- The table holds the rejects of the batches recorded in it, and every version of a committed
batch that has any was in one of those, as a version of the same source table. -/
structure RejectsKept (config : ResolvedPipeline τ T K P) (reject : ρ → List Reject)
    (site : Site ρ τ T K P) : Prop where
  rows : (rejectsOf config.appId site.rejects).Perm
    (site.past.recorded.flatMap fun entry => rejectedBy reject entry.2.entries)
  kept : ∀ tables batch, (tables, batch) ∈ site.past.committed → ∀ version,
    rejectedBy reject (heldAt batch version) ≠ [] → ∃ other,
      (tables, other) ∈ site.past.recorded ∧ heldAt other version = heldAt batch version

/-- No version that a committed batch rejects rows of was recorded twice. -/
def RecordedOnce (reject : ρ → List Reject) (site : Site ρ τ T K P) : Prop :=
  ∀ tables batch, (tables, batch) ∈ site.past.committed → ∀ version,
    rejectedBy reject (heldAt batch version) ≠ [] →
      site.past.recorded.countP (fun entry => !(heldAt entry.2 version).isEmpty) = 1

/-- The move commits a batch that has rejects without writing them. -/
inductive Skips (config : ResolvedPipeline τ T K P) (engine : Quarantine ρ τ T K P)
    (site : Site ρ τ T K P) : SiteMove → LogBatch ρ → Prop
  | skips (worker : Worker T K P) (judged : JudgedBatch ρ τ T K P) (put : Commit τ)
      (budget retryBudget : Option Nat) (now : Int) (recording committing : Fate)
      (runs : site.process = some worker)
      (turned : turn config engine site.source budget retryBudget worker.pipeline =
        .judged judged)
      (some_rejects : judged.rejects ≠ [])
      (found : worker.dq.alreadyRecorded judged.sourceVersion = true)
      (made : judged.commit config engine (nextPath site.target) site.target = .ok put)
      (lands : committing ≠ .lost) :
      Skips config engine site (.step budget retryBudget now recording committing) judged.batch

/-- A skipped batch rejects only rows of versions an earlier batch of this source table held. -/
def Rereads (config : ResolvedPipeline τ T K P) (engine : Quarantine ρ τ T K P)
    (reject : ρ → List Reject) (site : Site ρ τ T K P) (move : SiteMove) : Prop :=
  ∀ batch, Skips config engine site move batch → ∀ version,
    rejectedBy reject (heldAt batch version) ≠ [] → ∃ other,
      (site.past.tables, other) ∈ site.past.landed ∧ heldAt other version = heldAt batch version

/-- An open does not start before the end of a batch any part of which landed. -/
def NoRewind (config : ResolvedPipeline τ T K P) (engine : Quarantine ρ τ T K P)
    (site : Site ρ τ T K P) (move : SiteMove) : Prop :=
  move = .start → ∀ pipeline,
    openPipeline config engine.toEngine site.source site.target = .ok pipeline →
      ∀ entry, entry ∈ site.past.landed → entry.2.end_.version ≤ pipeline.stream.cursor.version

/-- An open starts no later than the end of some batch of this source table that landed, or where
the table is read from. -/
def NoSkip (config : ResolvedPipeline τ T K P) (engine : Quarantine ρ τ T K P)
    (site : Site ρ τ T K P) (move : SiteMove) : Prop :=
  move = .start → ∀ pipeline,
    openPipeline config engine.toEngine site.source site.target = .ok pipeline →
      config.startingVersion ≤ pipeline.stream.cursor.version ∧
        (pipeline.stream.cursor.version = config.startingVersion ∨ ∃ batch,
          (site.past.tables, batch) ∈ site.past.landed ∧
            pipeline.stream.cursor.version ≤ batch.end_.version)

section Rows

variable {reject : ρ → List Reject} {batch : LogBatch ρ} {version : Nat}

theorem heldAt_mem {entry : Nat × AddFile ρ} :
    entry ∈ heldAt batch version ↔ entry ∈ batch.entries ∧ entry.1 = version := by
  unfold heldAt
  rw [List.mem_filter, beq_iff_eq]

/-- A batch with a rejected row has rejects. -/
theorem rejectedBy_held (some_rejects : rejectedBy reject (heldAt batch version) ≠ []) :
    rejectedBy reject batch.entries ≠ [] := by
  obtain ⟨one, member⟩ := List.exists_mem_of_ne_nil _ some_rejects
  obtain ⟨entry, held, rejects⟩ := List.mem_flatMap.mp member
  apply List.ne_nil_of_mem (a := one)
  exact List.mem_flatMap.mpr ⟨entry, (heldAt_mem.mp held).1, rejects⟩

theorem heldAt_of_rejected (some_rejects : rejectedBy reject (heldAt batch version) ≠ []) :
    heldAt batch version ≠ [] := by
  intro empty
  rw [empty] at some_rejects
  exact some_rejects rfl

end Rows

section Judged

variable {config : ResolvedPipeline τ T K P} {engine : Quarantine ρ τ T K P}
  {reject : ρ → List Reject} {source : DeltaLog ρ} {before pulled : Pipeline T K P}
  {judged : JudgedBatch ρ τ T K P} {version : Nat}

/-- What a judged batch sets aside is what its rows are rejected for. -/
theorem Judging.rejected (judging : Judging config engine source before judged pulled version)
    (judges : JudgesRows engine reject) :
    judged.rejects.Perm (rejectedBy reject judged.batch.entries) := by
  obtain ⟨output, _filtered, transformed, _cut, _rows⟩ := judging.kept
  have each := judges _ _ _ transformed
  rw [judging.rejects]
  have rows : batchRows judged.batch =
      judged.batch.entries.flatMap fun entry => entry.2.rows := by
    rw [batchRows, judging.pull.paired _ rfl, List.flatMap_map]
  rw [rows] at each ⊢
  unfold rejectedBy
  rw [List.flatMap_assoc] at each
  exact each

end Judged

/-! ### What every allowed move keeps -/

/-- The table, the past and the handle of a running process agree. -/
structure Recording (config : ResolvedPipeline τ T K P) (reject : ρ → List Reject)
    (site : Site ρ τ T K P) : Prop where
  tables : RejectsKept config reject site
  worker : ∀ worker, site.process = some worker →
    worker.dq.appId = config.appId ∧
      transactionVersion worker.dq.table (dqAppIdFor config.appId) =
        transactionVersion site.rejects (dqAppIdFor config.appId) ∧
      Ready config worker.pipeline

section Moves

variable {config : ResolvedPipeline τ T K P} {engine : Quarantine ρ τ T K P}
  {reject : ρ → List Reject} {site after : Site ρ τ T K P} {move : SiteMove}

theorem FreshSite.recording (fresh : FreshSite config site) : Recording config reject site where
  tables := by
    constructor
    · rw [fresh.rows, fresh.past]
      exact List.Perm.refl _
    · intro tables batch member
      rw [fresh.past] at member
      cases member
  worker := by
    intro worker runs
    rw [fresh.stopped] at runs
    cases runs

theorem RejectsKept.of_past {other : Site ρ τ T K P} (kept : RejectsKept config reject site)
    (rows : rejectsOf config.appId other.rejects = rejectsOf config.appId site.rejects)
    (recorded : other.past.recorded = site.past.recorded)
    (committed : other.past.committed = site.past.committed) :
    RejectsKept config reject other where
  rows := by
    rw [rows, recorded]
    exact kept.rows
  kept := by
    rw [recorded, committed]
    exact kept.kept

/-- The rejects of a batch are recorded with it. -/
theorem RejectsKept.recorded {worker : Worker T K P} {judged : JudgedBatch ρ τ T K P}
    {commit : Commit DqRow} {now : Int} {path : String} (kept : RejectsKept config reject site)
    (ours : worker.dq.appId = config.appId)
    (rejected : judged.rejects.Perm (rejectedBy reject judged.batch.entries))
    (wrote : worker.dq.write path judged.rejects judged.sourceVersion now = some commit) :
    RejectsKept config reject
      { site with
        rejects := site.rejects.append commit
        past := site.past.record judged.batch } where
  rows := by
    obtain ⟨_some, _unrecorded, made⟩ := DataQuality.write_some wrote
    change (rejectsOf config.appId (site.rejects.append commit)).Perm
      ((site.past.recorded ++ [(site.past.tables, judged.batch)]).flatMap _)
    rw [made, ← ours, DataQuality.rejectsOf_commit, ours, List.flatMap_append]
    apply List.Perm.append kept.rows
    rw [List.flatMap_cons, List.flatMap_nil, List.append_nil]
    exact rejected
  kept := by
    intro tables batch member version some_rejects
    obtain ⟨other, recorded, same⟩ := kept.kept tables batch member version some_rejects
    exact ⟨other, List.mem_append_left _ recorded, same⟩

/-- A committed batch may be added once its rejects are where they belong. -/
theorem RejectsKept.committed {batch : LogBatch ρ} (kept : RejectsKept config reject site)
    (held : ∀ version, rejectedBy reject (heldAt batch version) ≠ [] → ∃ other,
      (site.past.tables, other) ∈ site.past.landed ∧
        heldAt other version = heldAt batch version) (target : DeltaLog τ)
    (process : Option (Worker T K P)) :
    RejectsKept config reject
      { site with target := target, process := process, past := site.past.commit batch } where
  rows := kept.rows
  kept := by
    intro tables one member version some_rejects
    change (tables, one) ∈ site.past.committed ++ [(site.past.tables, batch)] at member
    rcases List.mem_append.mp member with earlier | last
    · exact kept.kept tables one earlier version some_rejects
    · obtain ⟨sameTables, sameBatch⟩ := Prod.mk.inj (List.mem_singleton.mp last)
      subst sameTables sameBatch
      obtain ⟨other, landed, same⟩ := held version some_rejects
      rcases List.mem_append.mp landed with recorded | was_committed
      · exact ⟨other, recorded, same⟩
      · rw [← same] at some_rejects ⊢
        exact kept.kept _ other was_committed version some_rejects

theorem Recording.worker_judged {worker : Worker T K P} {judged : JudgedBatch ρ τ T K P}
    {budget retryBudget : Option Nat} (recording : Recording config reject site)
    (runs : site.process = some worker)
    (turned : turn config engine site.source budget retryBudget worker.pipeline =
      .judged judged) :
    ∃ pulled version, Judging config engine site.source worker.pipeline judged pulled version :=
  turn_judged (recording.worker worker runs).2.2 turned

theorem Recording.moved (recording : Recording config reject site)
    (judges : JudgesRows engine reject) (rereads : Rereads config engine reject site move)
    (moved : Site.Moved config engine site move after) : Recording config reject after := by
  cases moved with
  | idle => exact recording
  | stopped =>
      refine ⟨recording.tables.of_past rfl rfl rfl, ?_⟩
      intro worker runs
      cases runs
  | opened pipeline resolved =>
      refine ⟨recording.tables.of_past rfl rfl rfl, ?_⟩
      intro worker runs
      cases runs
      obtain ⟨resume, replaced, opening⟩ := openPipeline_semantics resolved
      exact ⟨rfl, rfl, opening.ready⟩
  | caughtUp worker after budget retryBudget move runs turned =>
      obtain ⟨ours, sees, ready⟩ := recording.worker worker runs
      refine ⟨recording.tables.of_past rfl rfl rfl, ?_⟩
      intro other now_runs
      cases now_runs
      exact ⟨ours, sees, (turn_caughtUp ready turned).ready⟩
  | recorded worker judged commit budget retryBudget now move runs turned wrote =>
      obtain ⟨ours, _sees, _ready⟩ := recording.worker worker runs
      obtain ⟨pulled, version, judging⟩ := recording.worker_judged runs turned
      have recorded := recording.tables.recorded ours (judging.rejected judges) wrote
      refine ⟨recorded.of_past rfl rfl rfl, ?_⟩
      intro other now_runs
      cases now_runs
  | passed worker judged put budget retryBudget now recorded committing process runs turned skipped
      made lands goesOn =>
      obtain ⟨ours, sees, _ready⟩ := recording.worker worker runs
      obtain ⟨pulled, version, judging⟩ := recording.worker_judged runs turned
      have rejected := judging.rejected judges
      constructor
      · apply recording.tables.committed
        intro at_ some_rejects
        have not_empty : judged.rejects ≠ [] := by
          intro empty
          rw [empty] at rejected
          exact rejectedBy_held some_rejects (List.nil_perm.mp rejected)
        rcases DataQuality.write_none skipped with empty | found
        · exact absurd empty not_empty
        · exact rereads judged.batch (.skips worker judged put budget retryBudget now recorded
            committing runs turned not_empty found made lands) at_ some_rejects
      · intro other now_runs
        rcases goesOn with stopped | onward
        · subst stopped
          cases now_runs
        · subst onward
          cases now_runs
          exact ⟨ours, sees, judging.ready⟩
  | committed worker judged commit put budget retryBudget now move process runs turned wrote
      goesOn =>
      obtain ⟨ours, _sees, _ready⟩ := recording.worker worker runs
      obtain ⟨pulled, version, judging⟩ := recording.worker_judged runs turned
      have recorded := recording.tables.recorded ours (judging.rejected judges) wrote
      constructor
      · have held : ∀ at_, rejectedBy reject (heldAt judged.batch at_) ≠ [] → ∃ other,
            (site.past.tables, other) ∈ (site.past.record judged.batch).landed ∧
              heldAt other at_ = heldAt judged.batch at_ := by
          intro at_ _some_rejects
          refine ⟨judged.batch, ?_, rfl⟩
          apply List.mem_append_left
          exact List.mem_append_right _ List.mem_cons_self
        exact recorded.committed held (site.target.append put) process
      · intro other now_runs
        rcases goesOn with stopped | onward
        · subst stopped
          cases now_runs
        · subst onward
          cases now_runs
          exact ⟨ours, rfl, judging.ready⟩

theorem Recording.besides (recording : Recording config reject site)
    (happens : Site.Besides config site after) : Recording config reject after := by
  cases happens with
  | grown source longer => exact ⟨recording.tables.of_past rfl rfl rfl, recording.worker⟩
  | recreated source => exact ⟨recording.tables.of_past rfl rfl rfl, recording.worker⟩
  | target target => exact ⟨recording.tables.of_past rfl rfl rfl, recording.worker⟩
  | rejects commit others =>
      refine ⟨recording.tables.of_past others.rejectsOf rfl rfl, ?_⟩
      intro worker runs
      obtain ⟨ours, sees, ready⟩ := recording.worker worker runs
      refine ⟨ours, ?_, ready⟩
      rw [sees]
      exact others.transactionVersion.symm

/-- A skip of anything else leaves a committed reject out of the table. -/
theorem Recording.loses (unsafe_ : ¬ Rereads config engine reject site move) :
    ¬ RejectsKept config reject (site.move config engine move) := by
  intro kept
  apply unsafe_
  intro batch skips version some_rejects
  cases skips with
  | skips worker judged put budget retryBudget now recorded committing runs turned not_empty found
      made lands =>
      have nothing : worker.dq.write (nextPath site.rejects) judged.rejects judged.sourceVersion
          now = none := by
        unfold DataQuality.write
        rw [if_neg (by rw [List.isEmpty_iff]; exact not_empty), if_pos found]
      have past : (site.move config engine (.step budget retryBudget now recorded
          committing)).past = site.past.commit judged.batch := by
        unfold Site.move Site.settles Site.commits
        simp only [runs, turned, nothing, made]
        cases committing with
        | seen => rfl
        | unseen => rfl
        | lost => exact absurd rfl lands
      have committed : (site.past.tables, judged.batch) ∈ (site.move config engine
          (.step budget retryBudget now recorded committing)).past.committed := by
        rw [past]
        exact List.mem_append_right _ List.mem_cons_self
      obtain ⟨other, recorded_, same⟩ := kept.kept _ _ committed version some_rejects
      rw [past] at recorded_
      exact ⟨other, List.mem_append_left _ recorded_, same⟩

end Moves

end Ddi
