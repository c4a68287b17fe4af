/-
What a step of a pipeline comes to. A pull hands out whole commits, exactly
those between where the reader stood and where it stands, and leaves the window
held or retires it because nothing it held back was left; the commit of a batch
carries what of the transformed rows its cut-off lets through.
-/

import Ddi.Pipeline.Step
import Ddi.Source.Emitted

namespace Ddi

open Ddi.Delta
open Ddi.Source

variable {ρ τ T K P : Type}

/-- The last source version a pipeline's window may read. -/
def Pipeline.windowHead (pipeline : Pipeline T K P) : Option Nat :=
  pipeline.cutoff.bind fun cutoff => cutoff.window.through

/-- A pipeline as an open sets it up and every step leaves it. -/
structure Ready (config : ResolvedPipeline τ T K P) (pipeline : Pipeline T K P) : Prop where
  whole : Whole pipeline.stream
  policy : pipeline.stream.policy = config.changePolicy
  pinning : pipeline.stream.pinLookupSnapshots = config.hasLookups
  stop : pipeline.stream.stopAfter = pipeline.windowHead

/-- What a pull does to the window. -/
inductive WindowAfter (source : DeltaLog ρ) (config : ResolvedPipeline τ T K P)
    (before after : Pipeline T K P) : Prop
  | kept (same : after.cutoff = before.cutoff)
      (within : ∀ head, before.windowHead = some head →
        before.stream.cursor.version ≤ head ∧ after.stream.cursor.version ≤ head + 1)
  | retired (head middle : Nat) (was : before.windowHead = some head)
      (gone : after.cutoff = none)
      (low : before.stream.cursor.version ≤ middle) (past : head < middle)
      (high : middle ≤ after.stream.cursor.version)
      (silent : emitted source config.changePolicy before.stream.cursor.version middle = [])

/-- What a pull that answers comes to. -/
structure Pulled (config : ResolvedPipeline τ T K P) (source : DeltaLog ρ)
    (before after : Pipeline T K P) (result : Option (LogBatch ρ)) : Prop where
  ready : Ready config after
  notBefore : before.stream.cursor.version ≤ after.stream.cursor.version
  reached : ∀ version, before.stream.cursor.version ≤ version →
    version < after.stream.cursor.version → version < source.commits.length
  files : entriesOf result = emitted source config.changePolicy
    before.stream.cursor.version after.stream.cursor.version
  exhausted : result = none → source.head < after.stream.cursor.version
  window : WindowAfter source config before after
  learns : Learns source before.stream.identity after.stream.identity
  finish : ∀ batch, result = some batch → batch.end_ = after.stream.cursor
  start : ∀ batch, result = some batch →
    before.stream.cursor.version ≤ batch.start.version ∧
    batch.start.version < after.stream.cursor.version ∧ batch.start.index = 0 ∧
    emitted source config.changePolicy before.stream.cursor.version batch.start.version = []
  carrying : ∀ batch, result = some batch → batch.entries ≠ []
  paired : ∀ batch, result = some batch → batch.files = batch.entries.map Prod.snd
  timestamp : ∀ batch, result = some batch → batch.throughLogTimestamp =
    logTimestampOf source config.hasLookups batch.entries
  single : ∀ batch, result = some batch → config.hasLookups = true →
    ∀ entry, entry ∈ batch.entries → entry.1 = batch.throughVersion
  recognized : ∀ batch, result = some batch →
    ∃ state, source.logState (some batch.throughVersion) = .ok state ∧
      (state.metadata.id.isSome = true → ∀ seenAt was,
        before.stream.identity = some (seenAt, was) →
          ∃ anywhere, IdentifiedAt source anywhere was)

namespace Pipeline

@[simp] theorem retire_windowHead (pipeline : Pipeline T K P) :
    pipeline.retire.windowHead = none := by
  unfold retire windowHead
  cases cutoff : pipeline.cutoff with
  | none => simp only [cutoff, Option.bind_none]
  | some window => rfl

@[simp] theorem retire_cutoff (pipeline : Pipeline T K P) : pipeline.retire.cutoff = none := by
  unfold retire
  cases cutoff : pipeline.cutoff with
  | none => simp only [cutoff]
  | some window => rfl

theorem retire_stream (pipeline : Pipeline T K P) :
    pipeline.retire.stream = { pipeline.stream with stopAfter := pipeline.retire.stream.stopAfter } := by
  unfold retire
  cases cutoff : pipeline.cutoff with
  | none => rfl
  | some window => rfl

theorem retire_ready {config : ResolvedPipeline τ T K P} {pipeline : Pipeline T K P}
    (ready : Ready config pipeline) : Ready config pipeline.retire where
  whole := by
    rw [retire_stream]
    exact ⟨ready.whole.boundary, ready.whole.unsplit, ready.whole.behind⟩
  policy := by
    rw [retire_stream]
    exact ready.policy
  pinning := by
    rw [retire_stream]
    exact ready.pinning
  stop := by
    rw [retire_windowHead]
    have stop := ready.stop
    unfold windowHead at stop
    unfold retire
    cases cutoff : pipeline.cutoff with
    | none =>
        rw [cutoff, Option.bind_none] at stop
        exact stop
    | some window => rfl

/-- Outside a window there is nothing to settle. -/
theorem settleCutoff_outside {pipeline : Pipeline T K P} (outside : pipeline.cutoff = none)
    (closes : Option Bool) (covered : Nat) :
    pipeline.settleCutoff closes covered = pipeline := by
  obtain ⟨stream, cutoff⟩ := pipeline
  change cutoff = none at outside
  subst outside
  unfold settleCutoff
  split
  · rfl
  · rfl

end Pipeline

/-- A window is retired when the cursor is past its head, and only then. -/
inductive Retiring (before : Pipeline T K P) : Bool × Pipeline T K P → Prop
  | held (within : ∀ head, before.windowHead = some head → before.stream.cursor.version ≤ head) :
      Retiring before (false, before)
  | retired (head : Nat) (was : before.windowHead = some head)
      (past : head < before.stream.cursor.version) : Retiring before (true, before.retire)

theorem retireCutoffIfReadThrough_semantics (before : Pipeline T K P) :
    Retiring before before.retireCutoffIfReadThrough := by
  unfold Pipeline.retireCutoffIfReadThrough
  have named : before.windowHead = before.cutoff.bind fun cutoff => cutoff.window.through := rfl
  cases through : before.cutoff.bind fun cutoff => cutoff.window.through with
  | none =>
      refine .held fun head impossible => ?_
      rw [named, through] at impossible
      cases impossible
  | some head =>
      have was : before.windowHead = some head := named.trans through
      simp only
      cases applies : cutoffApplies head before.stream.cursor with
      | true =>
          refine .held fun other same => ?_
          rw [was] at same
          cases same
          exact of_decide_eq_true applies
      | false => exact .retired head was (Nat.lt_of_not_le (of_decide_eq_false applies))

section Call

variable {config : ResolvedPipeline τ T K P} {source : DeltaLog ρ} {before : Pipeline T K P}
  {budget : Option Nat} {result : Option (LogBatch ρ)}

private theorem afterCall_ready (ready : Ready config before)
    (ok : (nextBatch source budget before.stream).1 = .ok result) :
    Ready config (before.afterCall source budget) := by
  obtain ⟨_spec, effect, _floor⟩ := nextBatch_ok ok
  exact
    { whole := (nextBatch_reads ready.whole ok).whole
      policy := effect.policy.trans ready.policy
      pinning := effect.pinning.trans ready.pinning
      stop := effect.stopAfter.trans ready.stop }

private theorem afterCall_pulled (ready : Ready config before)
    (within : ∀ head, before.windowHead = some head → before.stream.cursor.version ≤ head)
    (ok : (nextBatch source budget before.stream).1 = .ok result)
    (reaches : result = none → source.head <
      (nextBatch source budget before.stream).2.cursor.version) :
    Pulled config source before (before.afterCall source budget) result := by
  have reads := nextBatch_reads ready.whole ok
  obtain ⟨_spec, effect, _floor⟩ := nextBatch_ok ok
  have files := reads.files
  rw [ready.policy] at files
  refine
    { ready := afterCall_ready ready ok
      notBefore := reads.notBefore
      reached := reads.reached
      files := files
      exhausted := reaches
      window := .kept rfl ?_
      learns := effect.learns
      finish := reads.finish
      start := ?_
      carrying := reads.carrying
      paired := reads.paired
      timestamp := by
        rw [← ready.pinning]
        exact reads.timestamp
      single := by
        rw [← ready.pinning]
        exact reads.single
      recognized := reads.recognized }
  · intro head is_head
    have inside := within head is_head
    have stop := ready.stop.trans is_head
    have held := reads.held
    rw [stop] at held
    change _ ∨ _ ≤ min head source.head + 1 at held
    refine ⟨inside, ?_⟩
    change (nextBatch source budget before.stream).2.cursor.version ≤ head + 1
    omega
  · intro batch handed
    have low := (reads.through batch handed).1
    have high := (reads.through batch handed).2
    rw [reads.start batch handed, emitted_self]
    refine ⟨Nat.le_refl _, ?_, ready.whole.boundary, rfl⟩
    change before.stream.cursor.version < (nextBatch source budget before.stream).2.cursor.version
    omega

private theorem Pulled.after_silence {middle after : Pipeline T K P} {head : Nat}
    (pulled : Pulled config source middle after result)
    (ordered : before.stream.cursor.version ≤ middle.stream.cursor.version)
    (reached : ∀ version, before.stream.cursor.version ≤ version →
      version < middle.stream.cursor.version → version < source.commits.length)
    (silent : emitted source config.changePolicy before.stream.cursor.version
      middle.stream.cursor.version = [])
    (learns : Learns source before.stream.identity middle.stream.identity)
    (was : before.windowHead = some head) (past : head < middle.stream.cursor.version)
    (gone : middle.cutoff = none) :
    Pulled config source before after result := by
  have onward := pulled.notBefore
  refine
    { ready := pulled.ready
      notBefore := Nat.le_trans ordered onward
      reached := ?_
      files := ?_
      exhausted := pulled.exhausted
      window := ?_
      learns := learns.trans pulled.learns
      finish := pulled.finish
      start := ?_
      carrying := pulled.carrying
      paired := pulled.paired
      timestamp := pulled.timestamp
      single := pulled.single
      recognized := ?_ }
  · intro version low high
    by_cases early : version < middle.stream.cursor.version
    · exact reached version low early
    · exact pulled.reached version (Nat.le_of_not_lt early) high
  · rw [emitted_append source config.changePolicy ordered onward, silent, List.nil_append]
    exact pulled.files
  · refine .retired head middle.stream.cursor.version was ?_ ordered past onward silent
    cases pulled.window with
    | kept same within => rw [same, gone]
    | retired other middle' was' gone' low past' high silent' => exact gone'
  · intro batch handed
    obtain ⟨low, high, boundary, quiet⟩ := pulled.start batch handed
    refine ⟨Nat.le_trans ordered low, high, boundary, ?_⟩
    rw [emitted_append source config.changePolicy ordered low, silent, quiet, List.append_nil]
  · intro batch handed
    obtain ⟨state, loaded, recognized⟩ := pulled.recognized batch handed
    refine ⟨state, loaded, fun present seenAt was same => ?_⟩
    generalize middle.stream.identity = known at learns recognized
    rw [same] at learns
    cases learns with
    | nothing => exact recognized present seenAt was rfl
    | newer _ version _ now identified anywhere => exact anywhere

private theorem unheld_reaches (ready : Ready config before) (outside : before.windowHead = none)
    (ok : (nextBatch source budget before.stream).1 = .ok result) :
    result = none →
      source.head < (nextBatch source budget before.stream).2.cursor.version := by
  intro nothing
  have exhausted := (nextBatch_reads ready.whole ok).exhausted nothing
  rw [ready.stop, outside] at exhausted
  exact exhausted

end Call

section Pull

variable {config : ResolvedPipeline τ T K P} {source : DeltaLog ρ} {before after : Pipeline T K P}
  {budget retryBudget : Option Nat} {result : Option (LogBatch ρ)}

private theorem windowHead_retired {pipeline : Pipeline T K P} {head : Nat}
    (head_ : pipeline.retire.windowHead = some head) :
    pipeline.retire.stream.cursor.version ≤ head := by
  rw [Pipeline.retire_windowHead] at head_
  cases head_

private theorem pollBatch_semantics (ready : Ready config before)
    (within : ∀ head, before.windowHead = some head → before.stream.cursor.version ≤ head)
    (ok : pollBatch source budget retryBudget before = (.ok result, after)) :
    Pulled config source before after result := by
  unfold pollBatch at ok
  cases first : (nextBatch source budget before.stream).1 with
  | error error =>
      rw [first] at ok
      cases ok
  | ok answer =>
      rw [first] at ok
      cases answer with
      | some batch =>
          cases ok
          exact afterCall_pulled ready within first nofun
      | none =>
          have readyPolled := afterCall_ready ready first
          have reads := nextBatch_reads ready.whole first
          obtain ⟨_spec, effect, _floor⟩ := nextBatch_ok first
          have retiring := retireCutoffIfReadThrough_semantics (before.afterCall source budget)
          simp only at ok
          generalize (before.afterCall source budget).retireCutoffIfReadThrough =
            settled at ok retiring
          cases retiring with
          | held held =>
              cases ok
              refine afterCall_pulled ready within first fun nothing => ?_
              have exhausted := reads.exhausted nothing
              rw [ready.stop] at exhausted
              cases stands : before.windowHead with
              | none =>
                  rw [stands] at exhausted
                  exact exhausted
              | some head =>
                  have inside := held head stands
                  change (nextBatch source budget before.stream).2.cursor.version ≤ head
                    at inside
                  rw [stands] at exhausted
                  change min head source.head < _ at exhausted
                  omega
          | retired head was past =>
              -- nothing was left at or before the window's head
              have readyNow := Pipeline.retire_ready readyPolled
              have outside := Pipeline.retire_windowHead (before.afterCall source budget)
              have moved : (before.afterCall source budget).retire.stream =
                  { (nextBatch source budget before.stream).2 with
                    stopAfter := (before.afterCall source budget).retire.stream.stopAfter } :=
                Pipeline.retire_stream _
              simp only [if_true] at ok
              obtain ⟨second, final⟩ := Prod.mk.inj ok
              subst final
              have files := reads.files
              rw [ready.policy] at files
              refine (afterCall_pulled readyNow (fun head => windowHead_retired) second
                (unheld_reaches readyNow outside second)).after_silence ?_ ?_ ?_ ?_ was ?_
                (Pipeline.retire_cutoff _)
              · rw [moved]
                exact reads.notBefore
              · rw [moved]
                exact reads.reached
              · rw [moved]
                exact files.symm
              · rw [moved]
                exact effect.learns
              · rw [moved]
                exact past

theorem pullBatch_semantics (ready : Ready config before)
    (ok : pullBatch source budget retryBudget before = (.ok result, after)) :
    Pulled config source before after result := by
  unfold pullBatch at ok
  have retiring := retireCutoffIfReadThrough_semantics before
  generalize before.retireCutoffIfReadThrough = retired at ok retiring
  cases retiring with
  | held within => exact pollBatch_semantics ready within ok
  | retired head was past =>
      -- the window had been read past, so the calls are outside any
      have pulled := pollBatch_semantics (Pipeline.retire_ready ready)
        (fun head => windowHead_retired) ok
      have same : before.retire.stream.cursor = before.stream.cursor := by
        rw [Pipeline.retire_stream]
      refine pulled.after_silence (Nat.le_of_eq (by rw [same])) ?_ ?_ ?_ was ?_
        (Pipeline.retire_cutoff before)
      · intro version low high
        rw [same] at high
        omega
      · rw [same, emitted_self]
      · rw [Pipeline.retire_stream]
        exact .nothing _
      · rw [same]
        exact past

end Pull

section Commit

variable [LinearOrder T] [DecidableEq K] [DecidableEq P]

/-- What a step that puts a commit has done on the way to it. -/
structure Committing (config : ResolvedPipeline τ T K P) (engine : Engine ρ τ T K P)
    (source : DeltaLog ρ) (path : String) (before after : Pipeline T K P) (commit : Commit τ)
    (pulled : Pipeline T K P) (batch : LogBatch ρ) (output : List τ) (filtered : Filtered τ)
    (version : Nat) : Prop where
  pull : Pulled config source before pulled (some batch)
  transform : engine.transform batch.throughLogTimestamp
    (batch.entries.flatMap fun entry => entry.2.rows) = .ok output
  cutoff : applyCutoff config pulled.cutoff output = .ok filtered
  finish : pulled.stream.cursor = StreamCursor.atVersion (version + 1)
  commit : commit = sinkCommit path config.appId filtered.kept version pulled.stream.identity
    (pulled.recordsAs (pulled.closesAfter pulled.stream.cursor filtered.beyond))
  settled : after = pulled.settleCutoff
    (pulled.closesAfter pulled.stream.cursor filtered.beyond) filtered.covered

variable {config : ResolvedPipeline τ T K P} {engine : Engine ρ τ T K P} {source : DeltaLog ρ}
  {path : String} {budget retryBudget : Option Nat} {before after : Pipeline T K P}
  {commit : Commit τ}

theorem stepDelta_caughtUp (ready : Ready config before)
    (ok : stepDelta config engine source path budget retryBudget before = .caughtUp after) :
    Pulled config source before after (none : Option (LogBatch ρ)) := by
  unfold stepDelta at ok
  rcases pulled : pullBatch source budget retryBudget before with ⟨outcome, reached⟩
  rw [pulled] at ok
  cases outcome with
  | error error => cases ok
  | ok result =>
      cases result with
      | none =>
          cases ok
          exact pullBatch_semantics ready pulled
      | some batch =>
          simp only [process] at ok
          split at ok
          · cases ok
          · split at ok
            · cases ok
            · split at ok
              · cases ok
              · cases ok

theorem stepDelta_commits (ready : Ready config before)
    (ok : stepDelta config engine source path budget retryBudget before = .commits commit after) :
    ∃ pulled batch output filtered version, Committing config engine source path before after
      commit pulled batch output filtered version := by
  unfold stepDelta at ok
  rcases pull : pullBatch source budget retryBudget before with ⟨outcome, pulled⟩
  rw [pull] at ok
  cases outcome with
  | error error => cases ok
  | ok result =>
      cases result with
      | none => cases ok
      | some batch =>
          have semantics := pullBatch_semantics ready pull
          simp only [process] at ok
          cases transformed : engine.transform batch.throughLogTimestamp (batchRows batch) with
          | error error =>
              rw [transformed] at ok
              cases ok
          | ok output =>
              rw [transformed] at ok
              cases cut : applyCutoff config pulled.cutoff output with
              | error error =>
                  simp only [cut] at ok
                  cases ok
              | ok filtered =>
                  simp only [cut] at ok
                  cases stored : OffsetStore.txnVersionFor batch.end_ with
                  | error error =>
                      rw [stored] at ok
                      cases ok
                  | ok sourceVersion =>
                      rw [stored] at ok
                      obtain ⟨version, same, finish⟩ := OffsetStore.txnVersionFor_ok stored
                      have end_ := semantics.finish batch rfl
                      subst same
                      cases ok
                      refine ⟨pulled, batch, output, filtered, version, semantics, ?_, cut, ?_,
                        ?_, ?_⟩
                      · rw [batchRows, semantics.paired batch rfl, List.flatMap_map] at transformed
                        exact transformed
                      · rw [← end_, finish]
                      · rw [end_]
                        rfl
                      · rw [end_]

end Commit

end Ddi
