/-
What a log emits between two versions, as it was written, and a call of a
reader that hands out whole commits: it hands out exactly what lies between
where it stood and where it stands.
-/

import Ddi.Source.CallSemantics

namespace Ddi.Source

open Ddi.Delta

variable {ρ : Type}

/-- The files a log emits from one version and before another, each under its version. -/
def emitted (log : DeltaLog ρ) (policy : ChangePolicy) (first bound : Nat) :
    List (Nat × AddFile ρ) :=
  emittedBefore log.written policy (StreamCursor.atVersion first) bound

/-- A log with later commits; what of either can still be read is left open. -/
def Extends (before after : DeltaLog ρ) : Prop := before.commits <+: after.commits

theorem Extends.refl (log : DeltaLog ρ) : Extends log log := List.prefix_rfl

theorem Extends.trans {first second third : DeltaLog ρ} (left : Extends first second)
    (right : Extends second third) : Extends first third := List.IsPrefix.trans left right

theorem Extends.length_le {before after : DeltaLog ρ} (extends_ : Extends before after) :
    before.commits.length ≤ after.commits.length := List.IsPrefix.length_le extends_

theorem Extends.getElem? {before after : DeltaLog ρ} (extends_ : Extends before after)
    {version : Nat} (within : version < before.commits.length) :
    after.commits[version]? = before.commits[version]? := by
  obtain ⟨later, same⟩ := extends_
  rw [← same, List.getElem?_append_left within]

theorem Extends.metadataAt {before after : DeltaLog ρ} (extends_ : Extends before after)
    {version : Nat} (within : version < before.commits.length) :
    after.metadataAt version = before.metadataAt version := by
  obtain ⟨later, same⟩ := extends_
  unfold DeltaLog.metadataAt
  rw [← same, List.take_append_of_le_length within]

theorem IdentifiedAt.lt {log : DeltaLog ρ} {version : Nat} {id : String}
    (identified : IdentifiedAt log version id) : version < log.commits.length := by
  obtain ⟨state, loaded, _known⟩ := identified
  exact (DeltaLog.logState_lt loaded).1

/-- A version that can still be loaded keeps the id it had. -/
theorem IdentifiedAt.extends {before after : DeltaLog ρ} (extends_ : Extends before after)
    {version : Nat} {id : String} (identified : IdentifiedAt before version id)
    (loadable : after.unloadable version = false) : IdentifiedAt after version id := by
  obtain ⟨state, loaded, known⟩ := identified
  have within := (DeltaLog.logState_lt loaded).1
  have same := extends_.metadataAt within
  rw [DeltaLog.logState_metadata loaded] at same
  refine ⟨{ version := version, metadata := state.metadata }, ?_, known⟩
  simp only [DeltaLog.logState, Option.getD_some, same]
  rw [if_pos ⟨Nat.lt_of_lt_of_le within extends_.length_le, loadable⟩]

@[simp] theorem emitted_self (log : DeltaLog ρ) (policy : ChangePolicy) (first : Nat) :
    emitted log policy first first = [] :=
  Segments.between_of_le _ _ (Nat.le_refl _)

theorem emitted_append (log : DeltaLog ρ) (policy : ChangePolicy) {first middle bound : Nat}
    (low : first ≤ middle) (high : middle ≤ bound) :
    emitted log policy first bound =
      emitted log policy first middle ++ emitted log policy middle bound :=
  Segments.between_append _ low high

theorem mem_emitted {log : DeltaLog ρ} {policy : ChangePolicy} {first bound : Nat}
    {entry : Nat × AddFile ρ} :
    entry ∈ emitted log policy first bound ↔ first ≤ entry.1 ∧ entry.1 < bound ∧
      entry.2 ∈ emittedAt log.written policy entry.1 :=
  Segments.mem_between

theorem emittedAt_written_extends {before after : DeltaLog ρ} (extends_ : Extends before after)
    (policy : ChangePolicy) {version : Nat} (within : version < before.commits.length) :
    emittedAt after.written policy version = emittedAt before.written policy version := by
  unfold emittedAt
  rw [DeltaLog.readCommitEntry_eq, DeltaLog.readCommitEntry_eq]
  simp only [DeltaLog.written, Bool.false_eq_true, if_false, extends_.getElem? within]

/-- Later commits change nothing before them. -/
theorem emitted_extends {before after : DeltaLog ρ} (extends_ : Extends before after)
    (policy : ChangePolicy) {first bound : Nat} (within : bound ≤ max first before.commits.length) :
    emitted after policy first bound = emitted before policy first bound := by
  refine Segments.between_congr fun version low high => ?_
  rw [StreamCursor.atVersion_version] at low
  exact emittedAt_written_extends extends_ policy (by omega)

theorem emittedAt_written {log : DeltaLog ρ} {policy : ChangePolicy} {version : Nat}
    {actions : List (Action ρ)} (found : log.readCommitEntry version = some actions) :
    emittedAt log policy version = emittedAt log.written policy version := by
  unfold emittedAt
  rw [DeltaLog.readCommitEntry_written found, found]

theorem readCommitEntry_of_accepted {log : DeltaLog ρ} {stream : LogStreamBuilder}
    {cursor : StreamCursor} (accepted : refusal log stream cursor = none) :
    ∃ actions, log.readCommitEntry cursor.version = some actions := by
  unfold refusal at accepted
  cases read : log.readCommitEntry cursor.version with
  | none =>
      rw [read] at accepted
      cases accepted
  | some actions => exact ⟨actions, rfl⟩

@[simp] theorem StreamCursor.meets_version (start : StreamCursor) (version : Nat) :
    (start.meets version).version = version := by
  unfold StreamCursor.meets
  split
  · rename_i same
    exact same.symm
  · rfl

/-- The files of a batch, each under the version recorded for it. -/
def LogBatch.entries (batch : LogBatch ρ) : List (Nat × AddFile ρ) :=
  batch.fileVersions.zip batch.files

def entriesOf : Option (LogBatch ρ) → List (Nat × AddFile ρ)
  | none => []
  | some batch => batch.entries

/-- The log timestamp of the last commit some files come from. -/
def logTimestampOf (log : DeltaLog ρ) (pinned : Bool) (files : List (Nat × AddFile ρ)) :
    Option Nat :=
  if pinned then
    files.getLast?.bind fun entry => (log.commits[entry.1]?).map Commit.lastModified
  else none

/-- A reader that hands out whole commits, and has schemas at hand of those behind it only. -/
structure Whole (stream : LogStreamBuilder) : Prop where
  boundary : stream.cursor.index = 0
  unsplit : stream.allowCommitSplitting = false
  behind : ∀ entry, entry ∈ stream.schemaCache → entry.1 < stream.cursor.version

/-- What a call that answers does to a reader that hands out whole commits. -/
structure CallReads (log : DeltaLog ρ) (before after : LogStreamBuilder)
    (result : Option (LogBatch ρ)) : Prop where
  whole : Whole after
  notBefore : before.cursor.version ≤ after.cursor.version
  reached : ∀ version, before.cursor.version ≤ version → version < after.cursor.version →
    version < log.commits.length
  held : after.cursor.version = before.cursor.version ∨
    after.cursor.version ≤ readableThrough before.stopAfter log.head + 1
  files : entriesOf result =
    emitted log before.policy before.cursor.version after.cursor.version
  exhausted : result = none →
    readableThrough before.stopAfter log.head < after.cursor.version
  start : ∀ batch, result = some batch → batch.start = before.cursor
  finish : ∀ batch, result = some batch → batch.end_ = after.cursor
  carrying : ∀ batch, result = some batch → batch.entries ≠ []
  through : ∀ batch, result = some batch → before.cursor.version ≤ batch.throughVersion ∧
    batch.throughVersion < after.cursor.version
  paired : ∀ batch, result = some batch → batch.files = batch.entries.map Prod.snd
  timestamp : ∀ batch, result = some batch → batch.throughLogTimestamp =
    logTimestampOf log before.pinLookupSnapshots batch.entries
  single : ∀ batch, result = some batch → before.pinLookupSnapshots = true →
    ∀ entry, entry ∈ batch.entries → entry.1 = batch.throughVersion
  /-- A batch is of a table its reader still recognizes. -/
  recognized : ∀ batch, result = some batch →
    ∃ state, log.logState (some batch.throughVersion) = .ok state ∧
      (state.metadata.id.isSome = true → ∀ seenAt was, before.identity = some (seenAt, was) →
        ∃ anywhere, IdentifiedAt log anywhere was)

section Call

variable {log : DeltaLog ρ} {before : LogStreamBuilder} {readable : Nat} {gathered : Gathered ρ}

private theorem consumed_whole {start : StreamCursor} (boundary : start.index = 0)
    (policy : ChangePolicy) :
    consumed log policy start = Segments.upto (emittedAt log policy) start.version 0 := by
  unfold consumed
  rw [boundary]

private theorem handed_whole {start finish : StreamCursor} {files : List (Nat × AddFile ρ)}
    {policy : ChangePolicy} (startBoundary : start.index = 0) (finishBoundary : finish.index = 0)
    (ordered : start.version ≤ finish.version)
    (present : ∀ version, start.version ≤ version → version < finish.version →
      ∃ actions, log.readCommitEntry version = some actions)
    (handed : consumed log policy finish = consumed log policy start ++ files) :
    files = emitted log policy start.version finish.version := by
  rw [consumed_whole startBoundary, consumed_whole finishBoundary,
    ← Segments.upto_append_between_zero _ ordered] at handed
  rw [← List.append_cancel_left handed]
  refine Segments.between_congr fun version low high => ?_
  obtain ⟨actions, found⟩ := present version low high
  exact emittedAt_written found

private theorem gathered_present (gathering : Gathering log before before.cursor readable gathered)
    (version : Nat) (low : before.cursor.version ≤ version)
    (high : version < gathered.cursor.version) :
    ∃ actions, log.readCommitEntry version = some actions := by
  have found := readCommitEntry_of_accepted (gathering.passed version low high)
  rw [StreamCursor.meets_version] at found
  exact found

private theorem ending_boundary (whole : Whole before)
    (ending : Ending log before before.cursor readable gathered) :
    gathered.cursor.index = 0 := by
  have boundary : (before.cursor.meets gathered.cursor.version).index = 0 := by
    unfold StreamCursor.meets
    split
    · exact whole.boundary
    · rfl
  cases ending with
  | exhausted standing reached => rw [standing]; exact boundary
  | pinned mode carrying standing => rw [standing]; exact boundary
  | full standing carrying postponed notSilent => rw [standing]; exact boundary
  | split count carrying allowed oversized accepted cursor positive within =>
      rw [whole.unsplit] at allowed
      cases allowed

private theorem behind_after {after : LogStreamBuilder} {result : Option (LogBatch ρ)}
    (whole : Whole before) (effect : CallEffect log before after (.ok result))
    (ordered : before.cursor.version ≤ after.cursor.version)
    (through : ∀ batch, result = some batch → batch.throughVersion < after.cursor.version) :
    ∀ entry, entry ∈ after.schemaCache → entry.1 < after.cursor.version := by
  intro entry member
  rcases effect.cache entry member with kept | ⟨batch, handed, same⟩
  · exact Nat.lt_of_lt_of_le (whole.behind entry kept) ordered
  · cases handed
    rw [same]
    exact through batch rfl

private theorem recognized_ahead {after : LogStreamBuilder} {batch : LogBatch ρ}
    (whole : Whole before) (effect : CallEffect log before after (.ok (some batch)))
    (ahead : before.cursor.version ≤ batch.throughVersion) :
    ∃ state, log.logState (some batch.throughVersion) = .ok state ∧
      (state.metadata.id.isSome = true → ∀ seenAt was, before.identity = some (seenAt, was) →
        ∃ anywhere, IdentifiedAt log anywhere was) := by
  rcases effect.recognized batch rfl with cached | loaded
  · rw [List.lookup_isSome_iff] at cached
    obtain ⟨entry, member, same⟩ := cached
    have behind := whole.behind entry member
    have here : batch.throughVersion = entry.1 := eq_of_beq same
    omega
  · exact loaded

private theorem zip_entries {batch : LogBatch ρ} {files : List (Nat × AddFile ρ)}
    (named : batch.files = files.map Prod.snd) (versions : batch.fileVersions = files.map Prod.fst) :
    batch.entries = files := by
  rw [LogBatch.entries, named, versions, List.zip_map']
  exact List.map_id' _

end Call

theorem nextBatch_reads {log : DeltaLog ρ} {before : LogStreamBuilder} {budget : Option Nat}
    {result : Option (LogBatch ρ)} (whole : Whole before)
    (ok : (nextBatch log budget before).1 = .ok result) :
    CallReads log before (nextBatch log budget before).2 result := by
  obtain ⟨spec, effect, _floor⟩ := nextBatch_ok ok
  generalize (nextBatch log budget before).2 = after at *
  have unsplit : after.allowCommitSplitting = false := effect.splitting.trans whole.unsplit
  cases spec with
  | beyond ahead cursor =>
      have ordered : before.cursor.version ≤ after.cursor.version := by rw [cursor]
      exact
        { whole := ⟨by rw [cursor]; exact whole.boundary, unsplit,
            behind_after whole effect ordered nofun⟩
          notBefore := ordered
          reached := by
            intro version low high
            rw [cursor] at high
            omega
          held := Or.inl (by rw [cursor])
          files := by rw [cursor, emitted_self]; rfl
          exhausted := by
            intro _none
            rw [cursor]
            exact ahead
          start := nofun
          finish := nofun
          carrying := nofun
          through := nofun
          paired := nofun
          timestamp := nofun
          single := nofun
          recognized := nofun }
  | passed within cursor silent accepted =>
      have present : ∀ version, before.cursor.version ≤ version →
          version < after.cursor.version → ∃ actions, log.readCommitEntry version = some actions := by
        intro version low high
        rw [cursor, StreamCursor.atVersion_version] at high
        have found := readCommitEntry_of_accepted (accepted version low (by omega))
        rw [StreamCursor.meets_version] at found
        exact found
      have boundary : after.cursor.index = 0 := by rw [cursor]; rfl
      have ordered : before.cursor.version ≤ after.cursor.version := by
        rw [cursor, StreamCursor.atVersion_version]
        omega
      exact
        { whole := ⟨boundary, unsplit, behind_after whole effect ordered nofun⟩
          notBefore := ordered
          reached := by
            intro version low high
            obtain ⟨actions, found⟩ := present version low high
            exact DeltaLog.readCommitEntry_lt found
          held := Or.inr (by rw [cursor]; exact Nat.le_refl _)
          files := by
            refine handed_whole whole.boundary boundary ordered present ?_
            rw [silent]
            exact (List.append_nil _).symm
          exhausted := by
            intro _none
            rw [cursor]
            exact Nat.lt_succ_self _
          start := nofun
          finish := nofun
          carrying := nofun
          through := nofun
          paired := nofun
          timestamp := nofun
          single := nofun
          recognized := nofun }
  | batch gathered batch within gathering ending carrying cursor start finish files versions
      through timestamp =>
      have boundary : gathered.cursor.index = 0 := ending_boundary whole ending
      have entries : batch.entries = gathered.files := zip_entries files versions
      have present := gathered_present gathering
      have handed := handed_whole whole.boundary boundary gathering.notBefore present
        gathering.handed
      have last := List.getLast_mem carrying
      have throughLast : batch.throughVersion = (gathered.files.getLast carrying).1 := by
        have named := gathering.through
        rw [through, List.getLast?_eq_some_getLast carrying, Option.map_some] at named
        exact Option.some.inj named
      have emits : ∀ entry, entry ∈ gathered.files →
          before.cursor.version ≤ entry.1 ∧ entry.1 < gathered.cursor.version := by
        intro entry member
        rw [handed] at member
        obtain ⟨low, high, _present⟩ := mem_emitted.mp member
        exact ⟨low, high⟩
      obtain ⟨low, high⟩ := emits _ last
      rw [← throughLast] at low high
      have ordered : before.cursor.version ≤ after.cursor.version := by
        rw [cursor]
        exact gathering.notBefore
      exact
        { whole := ⟨by rw [cursor]; exact boundary, unsplit, behind_after whole effect ordered (by
            intro _ same
            cases same
            rw [cursor]
            exact high)⟩
          notBefore := ordered
          reached := by
            intro version low high
            rw [cursor] at high
            obtain ⟨actions, found⟩ := present version low high
            exact DeltaLog.readCommitEntry_lt found
          held := Or.inr (by rw [cursor]; exact gathering.notBeyond)
          files := by
            change batch.entries = _
            rw [entries, cursor]
            exact handed
          exhausted := nofun
          start := by
            intro _ same
            cases same
            exact start
          finish := by
            intro _ same
            cases same
            rw [finish, cursor]
          carrying := by
            intro _ same
            cases same
            rw [entries]
            exact carrying
          through := by
            intro _ same
            cases same
            rw [cursor]
            exact ⟨low, high⟩
          paired := by
            intro _ same
            cases same
            rw [entries, files]
          timestamp := by
            intro _ same
            cases same
            obtain ⟨actions, found⟩ := present batch.throughVersion low high
            rw [timestamp, gathering.stamp, through, entries, logTimestampOf, Option.bind_some,
              DeltaLog.readCommit_written found, List.getLast?_eq_some_getLast carrying,
              Option.bind_some, ← throughLast]
          single := by
            intro _ same pinned entry member
            cases same
            rw [entries] at member
            have same := gathering.single pinned entry member
            rw [through] at same
            exact (Option.some.inj same).symm
          recognized := by
            intro _ same
            cases same
            exact recognized_ahead whole effect low }

end Ddi.Source
