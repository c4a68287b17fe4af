/-
Successive calls of the reader over a log it can read: between them they hand
out every emitted file from the starting cursor, in commit then log order, and
none twice, under whatever memory ceilings and releases come between the calls.
-/

import Ddi.Source.CallSemantics
import Mathlib.Tactic.IntervalCases

namespace Ddi.Source

open Ddi.Delta

variable {ρ : Type}

/-- What comes between two calls: a held version let go, a memory ceiling. -/
structure Poll where
  release : Bool
  budget : Option Nat

def Poll.prepare (poll : Poll) (stream : LogStreamBuilder) : LogStreamBuilder :=
  if poll.release then stream.releaseStop else stream

/-- The reader before call `count`. -/
def readerAt (log : DeltaLog ρ) (polls : Nat → Poll) (stream : LogStreamBuilder) :
    Nat → LogStreamBuilder
  | 0 => stream
  | count + 1 =>
    (nextBatch log (polls count).budget
      ((polls count).prepare (readerAt log polls stream count))).2

/-- What call `count` returns. -/
def outcomeAt (log : DeltaLog ρ) (polls : Nat → Poll) (stream : LogStreamBuilder) (count : Nat) :
    Except Error (Option (LogBatch ρ)) :=
  (nextBatch log (polls count).budget
    ((polls count).prepare (readerAt log polls stream count))).1

/-- The files of an outcome, each under the version recorded for it. -/
def outcomeFiles : Except Error (Option (LogBatch ρ)) → List (Nat × AddFile ρ)
  | .ok (some batch) => batch.fileVersions.zip batch.files
  | _ => []

/-- The concatenation of what the first `count` calls hand out. -/
def handedOut (log : DeltaLog ρ) (polls : Nat → Poll) (stream : LogStreamBuilder) (count : Nat) :
    List (Nat × AddFile ρ) :=
  (List.range count).flatMap fun call => outcomeFiles (outcomeAt log polls stream call)

/-- Call `count` may read to the head. -/
def UnheldAt (log : DeltaLog ρ) (polls : Nat → Poll) (stream : LogStreamBuilder) (count : Nat) :
    Prop :=
  readableThrough ((polls count).prepare (readerAt log polls stream count)).stopAfter log.head =
    log.head

/-- No commit from the cursor on is refused to this reader. -/
def Accepts (log : DeltaLog ρ) (stream : LogStreamBuilder) : Prop :=
  ∀ version, stream.cursor.version ≤ version → version ≤ log.head →
    refusal log stream (stream.cursor.meets version) = none

/-- A cursor a reader of this log can come to stand at. -/
def Placed (log : DeltaLog ρ) (cursor : StreamCursor) : Prop :=
  cursor.version ≤ log.head ∨ cursor = StreamCursor.atVersion (log.head + 1)

theorem handedOut_succ (log : DeltaLog ρ) (polls : Nat → Poll) (stream : LogStreamBuilder)
    (count : Nat) :
    handedOut log polls stream (count + 1) =
      handedOut log polls stream count ++ outcomeFiles (outcomeAt log polls stream count) := by
  simp [handedOut, List.range_succ, List.flatMap_append]

theorem consumed_append_undelivered {log : DeltaLog ρ} (policy : ChangePolicy)
    (cursor : StreamCursor) (placed : Placed log cursor) :
    consumed log policy cursor ++ undelivered log policy cursor =
      consumed log policy (StreamCursor.atVersion (log.head + 1)) := by
  rcases placed with within | atHead
  · exact Segments.upto_append_between _ _ (Nat.lt_succ_of_le within)
  · subst atHead
    have nothing : undelivered log policy (StreamCursor.atVersion (log.head + 1)) = [] :=
      Segments.between_of_le _ _ (Nat.le_refl _)
    rw [nothing, List.append_nil]

theorem refusal_advancedBy {log : DeltaLog ρ} {stream : LogStreamBuilder} {cursor : StreamCursor}
    (count : Nat) (allowed : stream.allowCommitSplitting = true)
    (accepted : refusal log stream cursor = none) :
    refusal log stream (cursor.advancedBy count) = none := by
  unfold refusal at accepted ⊢
  rw [StreamCursor.advancedBy_version]
  cases read : log.readCommitEntry cursor.version with
  | none =>
      rw [read] at accepted
      cases accepted
  | some actions =>
      simp only [read] at accepted ⊢
      cases emits : emission stream.policy actions with
      | skip => rfl
      | refuse =>
          simp only [emits] at accepted
          cases accepted
      | emit adds =>
          simp only [emits] at accepted ⊢
          cases vector : adds.find? AddFile.deletionVector with
          | some file =>
              simp only [vector] at accepted
              cases accepted
          | none => simp only [allowed, Bool.or_true, if_true]

section Batch

variable {log : DeltaLog ρ} {stream : LogStreamBuilder} {start : StreamCursor} {readable : Nat}
  {gathered : Gathered ρ}

theorem Ending.cursor_cases (ending : Ending log stream start readable gathered) :
    gathered.cursor = start.meets gathered.cursor.version ∨
      ∃ count, stream.allowCommitSplitting = true ∧ gathered.cursor.version ≤ readable ∧
        refusal log stream (start.meets gathered.cursor.version) = none ∧
        gathered.cursor = (start.meets gathered.cursor.version).advancedBy count := by
  cases ending with
  | exhausted standing reached => exact Or.inl standing
  | pinned mode carrying standing => exact Or.inl standing
  | full standing carrying postponed notSilent => exact Or.inl standing
  | split count carrying allowed oversized accepted cursor positive within =>
      exact Or.inr ⟨count, allowed, within, accepted, cursor⟩

/-- A gathering that holds files does not stand where it started. -/
theorem Gathering.moved (gathering : Gathering log stream start readable gathered)
    (carrying : gathered.files ≠ []) : gathered.cursor ≠ start := by
  intro same
  have handed := gathering.handed
  rw [same] at handed
  exact carrying (List.append_right_eq_self.mp handed.symm)

theorem Gathering.boundary (gathering : Gathering log stream start readable gathered)
    (ending : Ending log stream start readable gathered) (carrying : gathered.files ≠ [])
    (whole : stream.allowCommitSplitting = false) : gathered.cursor.index = 0 := by
  rcases ending.cursor_cases with standing | ⟨count, allowed, _within, _accepted, _cursor⟩
  · by_cases same : gathered.cursor.version = start.version
    · rw [same, StreamCursor.meets_self] at standing
      exact absurd standing (gathering.moved carrying)
    · have low := gathering.notBefore
      rw [StreamCursor.meets_later (by omega)] at standing
      rw [standing]
      rfl
  · rw [whole] at allowed
    cases allowed

theorem Gathering.placed (gathering : Gathering log stream start readable gathered)
    (ending : Ending log stream start readable gathered) (within : start.version ≤ readable)
    (bound : readable ≤ log.head) : Placed log gathered.cursor := by
  by_cases inside : gathered.cursor.version ≤ log.head
  · exact Or.inl inside
  · have high := gathering.notBeyond
    rcases ending.cursor_cases with standing | ⟨count, _allowed, here, _accepted, _cursor⟩
    · rw [StreamCursor.meets_later (by omega)] at standing
      have reached : gathered.cursor.version = log.head + 1 := by omega
      rw [reached] at standing
      exact Or.inr standing
    · omega

end Batch

/-- What holds before every call of a run that started at `origin`. -/
structure Progress (log : DeltaLog ρ) (origin stream : LogStreamBuilder)
    (handed : List (Nat × AddFile ρ)) : Prop where
  attached : Attached log stream
  settings : SameSettings origin stream
  accepts : Accepts log stream
  account : consumed log origin.policy stream.cursor =
    consumed log origin.policy origin.cursor ++ handed
  notBefore : origin.cursor.version ≤ stream.cursor.version
  placed : (origin.cursor.version ≤ log.head ∧ Placed log stream.cursor) ∨
    (stream.cursor = origin.cursor ∧ handed = [])

theorem Progress.start {log : DeltaLog ρ} {stream : LogStreamBuilder}
    (attached : Attached log stream) (accepts : Accepts log stream) :
    Progress log stream stream [] where
  attached := attached
  settings := .refl stream
  accepts := accepts
  account := (List.append_nil _).symm
  notBefore := Nat.le_refl _
  placed := Or.inr ⟨rfl, rfl⟩

theorem Progress.prepare {log : DeltaLog ρ} {origin stream : LogStreamBuilder}
    {handed : List (Nat × AddFile ρ)} (progress : Progress log origin stream handed)
    (poll : Poll) : Progress log origin (poll.prepare stream) handed := by
  unfold Poll.prepare
  split
  · have released : SameSettings stream stream.releaseStop := ⟨rfl, rfl, rfl, rfl, rfl, rfl⟩
    exact
      { attached := ⟨progress.attached.floor, progress.attached.identity⟩
        settings := progress.settings.trans released
        accepts := by
          intro version low high
          rw [released.refusal]
          exact progress.accepts version low high
        account := progress.account
        notBefore := progress.notBefore
        placed := progress.placed }
  · exact progress

/-- What one call of an accepted run returns, and the progress it leaves. -/
inductive Served (log : DeltaLog ρ) (origin before after : LogStreamBuilder)
    (handed : List (Nat × AddFile ρ)) (readable : Nat) :
    Except Error (Option (LogBatch ρ)) → Prop
  | idle (progress : Progress log origin after handed)
      (finished : readable = log.head → handed = undelivered log origin.policy origin.cursor) :
      Served log origin before after handed readable (.ok none)
  | batch (batch : LogBatch ρ)
      (progress : Progress log origin after (handed ++ batch.fileVersions.zip batch.files))
      (paired : batch.fileVersions.length = batch.files.length)
      (some_files : batch.files ≠ [])
      (start : batch.start = before.cursor) (finish : batch.end_ = after.cursor)
      (placed : Placed log batch.end_)
      (boundary : before.allowCommitSplitting = false → batch.end_.index = 0)
      (versions : ∀ version, version ∈ batch.fileVersions → version ≤ readable)
      (stops : batch.end_.version ≤ readable + 1) :
      Served log origin before after handed readable (.ok (some batch))

private theorem finished_at_head {log : DeltaLog ρ} {origin stream : LogStreamBuilder}
    {handed : List (Nat × AddFile ρ)} (progress : Progress log origin stream handed)
    (past : log.head < stream.cursor.version) :
    handed = undelivered log origin.policy origin.cursor := by
  rcases progress.placed with ⟨originWithin, within | here⟩ | ⟨unmoved, nothing⟩
  · omega
  · have whole := consumed_append_undelivered origin.policy origin.cursor
      (Or.inl originWithin)
    rw [← here, progress.account] at whole
    exact (List.append_cancel_left whole).symm
  · rw [unmoved] at past
    rw [nothing]
    exact (Segments.between_of_le _ _ past).symm

private theorem accepts_after {log : DeltaLog ρ} {before after : LogStreamBuilder}
    {gathered : Gathered ρ} {readable : Nat} (accepts : Accepts log before)
    (settings : SameSettings before after) (cursor : after.cursor = gathered.cursor)
    (gathering : Gathering log before before.cursor readable gathered)
    (ending : Ending log before before.cursor readable gathered) :
    Accepts log after := by
  have notBefore := gathering.notBefore
  intro version low high
  rw [settings.refusal]
  rw [cursor] at low ⊢
  by_cases here : version = gathered.cursor.version
  · have met := accepts gathered.cursor.version notBefore (by omega)
    rw [here, StreamCursor.meets_self]
    rcases ending.cursor_cases with standing | ⟨count, allowed, _within, accepted, at_⟩
    · rw [standing]
      exact met
    · rw [at_]
      exact refusal_advancedBy count allowed accepted
  · have later := accepts version (by omega) high
    rw [StreamCursor.meets_later (by omega)]
    rw [StreamCursor.meets_later (by omega)] at later
    exact later

theorem served_of_progress {log : DeltaLog ρ} {origin stream : LogStreamBuilder}
    {handed : List (Nat × AddFile ρ)} (budget : Option Nat)
    (intact : Intact log (min origin.cursor.version log.head))
    (progress : Progress log origin stream handed) :
    Served log origin stream (nextBatch log budget stream).2 handed
        (readableThrough stream.stopAfter log.head) (nextBatch log budget stream).1 ∧
      (nextBatch log budget stream).2.stopAfter = stream.stopAfter := by
  have notBefore := progress.notBefore
  have intactHere : Intact log (min stream.cursor.version log.head) :=
    ⟨intact.nonempty, intact.headKept, fun version low high =>
      intact.loadable version (by omega) high⟩
  obtain ⟨spec, attached, settings, stop⟩ :=
    nextBatch_semantics budget intactHere progress.attached
  refine ⟨?_, stop⟩
  have bound := readableThrough_le stream.stopAfter log.head
  have same := progress.settings.policy
  generalize readableThrough stream.stopAfter log.head = readable at *
  generalize (nextBatch log budget stream).2 = after at *
  generalize (nextBatch log budget stream).1 = outcome at *
  cases spec with
  | beyond ahead cursor =>
      refine .idle
        { attached := attached
          settings := progress.settings.trans settings
          accepts := ?_
          account := by rw [cursor]; exact progress.account
          notBefore := by rw [cursor]; exact notBefore
          placed := by rw [cursor]; exact progress.placed } ?_
      · intro version low high
        rw [settings.refusal]
        rw [cursor] at low ⊢
        exact progress.accepts version low high
      · intro atHead
        exact finished_at_head progress (by omega)
  | passed within cursor silent accepted =>
      rw [same] at silent
      have after_progress : Progress log origin after handed :=
        { attached := attached
          settings := progress.settings.trans settings
          accepts := by
            intro version low high
            rw [cursor, StreamCursor.atVersion_version] at low
            have later := progress.accepts version (by omega) high
            rw [StreamCursor.meets_later (by omega)] at later
            rw [settings.refusal, cursor, StreamCursor.atVersion_meets]
            exact later
          account := by rw [silent]; exact progress.account
          notBefore := by
            rw [cursor, StreamCursor.atVersion_version]
            omega
          placed := by
            refine Or.inl ⟨by omega, ?_⟩
            rw [cursor]
            by_cases atHead : readable = log.head
            · rw [atHead]
              exact Or.inr rfl
            · exact Or.inl (by rw [StreamCursor.atVersion_version]; omega) }
      refine .idle after_progress fun atHead => finished_at_head after_progress ?_
      rw [cursor, StreamCursor.atVersion_version]
      omega
  | batch gathered batch within gathering ending carrying cursor start finish files versions
      _through _timestamp =>
      have pairs : batch.fileVersions.zip batch.files = gathered.files := by
        rw [versions, files, List.zip_map']
        exact List.map_id' _
      have handed_on := gathering.handed
      have low := gathering.notBefore
      have placed := gathering.placed ending within bound
      refine .batch batch
        { attached := attached
          settings := progress.settings.trans settings
          accepts := accepts_after progress.accepts settings cursor gathering ending
          account := ?_
          notBefore := by rw [cursor]; omega
          placed := Or.inl ⟨by omega, by rw [cursor]; exact placed⟩ }
        ?_ ?_ start (by rw [finish, cursor]) (by rw [finish]; exact placed) ?_ ?_ ?_
      · rw [pairs, cursor, ← List.append_assoc, ← progress.account, ← same]
        exact handed_on
      · rw [versions, files, List.length_map, List.length_map]
      · rw [files, Ne, List.map_eq_nil_iff]
        exact carrying
      · intro whole
        rw [finish]
        exact gathering.boundary ending carrying whole
      · intro version member
        rw [versions] at member
        obtain ⟨entry, present, same⟩ := List.mem_map.mp member
        rw [← same]
        exact (gathering.versions entry present).2
      · rw [finish]
        exact gathering.notBeyond
  | refused gathered error between within found reached cursor =>
      have met := progress.accepts gathered.cursor.version between.notBefore (by omega)
      rw [← between.standing, found] at met
      cases met

section Run

variable {log : DeltaLog ρ} {stream : LogStreamBuilder}

theorem progress_readerAt (intact : Intact log (min stream.cursor.version log.head))
    (attached : Attached log stream) (accepts : Accepts log stream) (polls : Nat → Poll)
    (count : Nat) :
    Progress log stream (readerAt log polls stream count) (handedOut log polls stream count) := by
  induction count with
  | zero => exact Progress.start attached accepts
  | succ count ih =>
      obtain ⟨served, _stop⟩ :=
        served_of_progress (polls count).budget intact (ih.prepare (polls count))
      rw [handedOut_succ]
      change Progress log stream (nextBatch log _ _).2 (_ ++ outcomeFiles (nextBatch log _ _).1)
      generalize (nextBatch log (polls count).budget
        ((polls count).prepare (readerAt log polls stream count))).1 = outcome at served ⊢
      cases served with
      | idle progress finished =>
          change Progress log stream _ (_ ++ [])
          rw [List.append_nil]
          exact progress
      | batch batch progress paired some_files start finish placed boundary versions stops =>
          exact progress

theorem served_outcomeAt (intact : Intact log (min stream.cursor.version log.head))
    (attached : Attached log stream) (accepts : Accepts log stream) (polls : Nat → Poll)
    (count : Nat) :
    Served log stream ((polls count).prepare (readerAt log polls stream count))
      (readerAt log polls stream (count + 1)) (handedOut log polls stream count)
      (readableThrough ((polls count).prepare (readerAt log polls stream count)).stopAfter
        log.head)
      (outcomeAt log polls stream count) :=
  (served_of_progress (polls count).budget intact
    ((progress_readerAt intact attached accepts polls count).prepare (polls count))).1

theorem handedOut_bounded (intact : Intact log (min stream.cursor.version log.head))
    (attached : Attached log stream) (accepts : Accepts log stream) (polls : Nat → Poll)
    (count : Nat) :
    (handedOut log polls stream count).length ≤
      (consumed log stream.policy (StreamCursor.atVersion (log.head + 1))).length := by
  have progress := progress_readerAt intact attached accepts polls count
  rcases progress.placed with ⟨_within, placed⟩ | ⟨_unmoved, nothing⟩
  · have whole := congrArg List.length
      (consumed_append_undelivered stream.policy _ placed)
    rw [progress.account, List.length_append, List.length_append] at whole
    omega
  · rw [nothing]
    exact Nat.zero_le _

theorem stopAfter_readerAt (intact : Intact log (min stream.cursor.version log.head))
    (attached : Attached log stream) (accepts : Accepts log stream) (polls : Nat → Poll)
    (count : Nat) :
    (readerAt log polls stream (count + 1)).stopAfter =
      ((polls count).prepare (readerAt log polls stream count)).stopAfter :=
  (served_of_progress (polls count).budget intact
    ((progress_readerAt intact attached accepts polls count).prepare (polls count))).2

private theorem prepare_stopAfter_none {poll : Poll} {reader : LogStreamBuilder}
    (free : reader.stopAfter = none) : (poll.prepare reader).stopAfter = none := by
  unfold Poll.prepare
  split
  · rfl
  · exact free

theorem free_from (intact : Intact log (min stream.cursor.version log.head))
    (attached : Attached log stream) (accepts : Accepts log stream) (polls : Nat → Poll)
    (letGo : stream.stopAfter = none ∨ ∃ call, (polls call).release = true) :
    ∃ first, ∀ count, first ≤ count →
      ((polls count).prepare (readerAt log polls stream count)).stopAfter = none := by
  have onward : ∀ first,
      ((polls first).prepare (readerAt log polls stream first)).stopAfter = none →
      ∀ count, first ≤ count →
        ((polls count).prepare (readerAt log polls stream count)).stopAfter = none := by
    intro first free count later
    induction count, later using Nat.le_induction with
    | base => exact free
    | succ count later ih =>
        refine prepare_stopAfter_none ?_
        rw [stopAfter_readerAt intact attached accepts]
        exact ih
  rcases letGo with free | ⟨call, release⟩
  · exact ⟨0, onward 0 (prepare_stopAfter_none free)⟩
  · refine ⟨call, onward call ?_⟩
    unfold Poll.prepare
    rw [if_pos release]
    rfl

private theorem handedOut_grows (intact : Intact log (min stream.cursor.version log.head))
    (attached : Attached log stream) (accepts : Accepts log stream) (polls : Nat → Poll)
    (first count : Nat)
    (busy : ∀ call, first ≤ call → outcomeAt log polls stream call ≠ .ok none) :
    count ≤ (handedOut log polls stream (first + count)).length := by
  induction count with
  | zero => exact Nat.zero_le _
  | succ count ih =>
      have served := served_outcomeAt intact attached accepts polls (first + count)
      have working := busy (first + count) (Nat.le_add_right _ _)
      rw [← Nat.add_assoc, handedOut_succ, List.length_append]
      generalize outcomeAt log polls stream (first + count) = outcome at *
      cases served with
      | idle progress finished => exact absurd rfl working
      | batch batch progress paired some_files start finish placed boundary versions stops =>
          have positive : 0 < batch.files.length := List.length_pos_iff.mpr some_files
          have grown : (outcomeFiles (.ok (some batch))).length = batch.files.length := by
            rw [outcomeFiles, List.length_zip, paired, Nat.min_self]
          omega

/-- Call `last` reports the reader caught up with the head. -/
def CaughtUpAt (log : DeltaLog ρ) (polls : Nat → Poll) (stream : LogStreamBuilder) (last : Nat) :
    Prop :=
  outcomeAt log polls stream last = .ok none ∧ UnheldAt log polls stream last

theorem caughtUp_complete (intact : Intact log (min stream.cursor.version log.head))
    (attached : Attached log stream) (accepts : Accepts log stream) (polls : Nat → Poll)
    (last : Nat) (caughtUp : CaughtUpAt log polls stream last) :
    handedOut log polls stream last = undelivered log stream.policy stream.cursor := by
  have served := served_outcomeAt intact attached accepts polls last
  rw [caughtUp.1] at served
  cases served with
  | idle progress finished => exact finished caughtUp.2

theorem caughtUp_reached (intact : Intact log (min stream.cursor.version log.head))
    (attached : Attached log stream) (accepts : Accepts log stream) (polls : Nat → Poll)
    (letGo : stream.stopAfter = none ∨ ∃ call, (polls call).release = true) :
    ∃ last, CaughtUpAt log polls stream last := by
  obtain ⟨first, free⟩ := free_from intact attached accepts polls letGo
  by_contra never
  have busy : ∀ call, first ≤ call → outcomeAt log polls stream call ≠ .ok none := by
    intro call later idle
    refine never ⟨call, idle, ?_⟩
    unfold UnheldAt
    rw [free call later]
    rfl
  have grows := handedOut_grows intact attached accepts polls first
    ((consumed log stream.policy (StreamCursor.atVersion (log.head + 1))).length + 1) busy
  have bounded := handedOut_bounded intact attached accepts polls
    (first + ((consumed log stream.policy (StreamCursor.atVersion (log.head + 1))).length + 1))
  omega

theorem restart_complete (intact : Intact log (min stream.cursor.version log.head))
    (attached : Attached log stream) (accepts : Accepts log stream) (polls : Nat → Poll)
    {call : Nat} {batch : LogBatch ρ} (handed : outcomeAt log polls stream call = .ok (some batch))
    {again : LogStreamBuilder} (settings : SameSettings stream again)
    (cursor : again.cursor = batch.end_) :
    Intact log (min again.cursor.version log.head) ∧ Accepts log again ∧
      handedOut log polls stream (call + 1) ++ undelivered log stream.policy again.cursor =
        undelivered log stream.policy stream.cursor := by
  have served := served_outcomeAt intact attached accepts polls call
  rw [handedOut_succ]
  rw [handed] at served ⊢
  cases served with
  | batch batch progress paired some_files start finish placed boundary versions stops =>
      have here : again.cursor = (readerAt log polls stream (call + 1)).cursor := by
        rw [cursor, finish]
      have notBefore := progress.notBefore
      refine ⟨⟨intact.nonempty, intact.headKept, fun version low high =>
        intact.loadable version (by rw [here] at low; omega) high⟩, ?_, ?_⟩
      · intro version low high
        rw [here] at low ⊢
        rw [settings.refusal, ← progress.settings.refusal]
        exact progress.accepts version low high
      · rcases progress.placed with ⟨within, reached⟩ | ⟨_unmoved, nothing⟩
        · have before := consumed_append_undelivered stream.policy stream.cursor
            (Or.inl within)
          have behind := consumed_append_undelivered stream.policy _ reached
          rw [progress.account, ← before, List.append_assoc] at behind
          rw [here]
          exact List.append_cancel_left behind
        · exfalso
          obtain ⟨_empty, zipped⟩ := List.append_eq_nil_iff.mp nothing
          have short := congrArg List.length zipped
          rw [List.length_zip, paired, Nat.min_self] at short
          exact some_files (List.length_eq_zero_iff.mp short)

end Run

/-- Between the first call and the first that reports the head reached, every emitted file
from the starting cursor is handed out once, in order, under its own commit's version; a
reader started where any batch ended hands out exactly what is left. -/
theorem nextBatch_complete (log : DeltaLog ρ) (stream : LogStreamBuilder) (polls : Nat → Poll)
    (intact : Intact log (min stream.cursor.version log.head)) (attached : Attached log stream)
    (accepts : Accepts log stream)
    (letGo : stream.stopAfter = none ∨ ∃ call, (polls call).release = true) :
    (∃ last, CaughtUpAt log polls stream last) ∧
    (∀ last, CaughtUpAt log polls stream last →
      handedOut log polls stream last = undelivered log stream.policy stream.cursor) ∧
    (∀ call error, outcomeAt log polls stream call ≠ .error error) ∧
    ∀ call batch, outcomeAt log polls stream call = .ok (some batch) →
      batch.fileVersions.length = batch.files.length ∧
      (stream.allowCommitSplitting = false → batch.end_.isCommitBoundary = true) ∧
      (∀ stop, ((polls call).prepare (readerAt log polls stream call)).stopAfter = some stop →
        (∀ version, version ∈ batch.fileVersions → version ≤ stop) ∧
          batch.end_.version ≤ stop + 1) ∧
      ∀ again morePolls, SameSettings stream again → again.cursor = batch.end_ →
        Attached log again →
        (again.stopAfter = none ∨ ∃ call, (morePolls call).release = true) →
        (∃ last, CaughtUpAt log morePolls again last) ∧
        ∀ last, CaughtUpAt log morePolls again last →
          handedOut log polls stream (call + 1) ++ handedOut log morePolls again last =
            undelivered log stream.policy stream.cursor := by
  refine ⟨caughtUp_reached intact attached accepts polls letGo,
    caughtUp_complete intact attached accepts polls, ?_, ?_⟩
  · intro call error failed
    have served := served_outcomeAt intact attached accepts polls call
    rw [failed] at served
    cases served
  · intro call batch handed
    have served := served_outcomeAt intact attached accepts polls call
    rw [handed] at served
    have settings := ((progress_readerAt intact attached accepts polls call).prepare
      (polls call)).settings
    cases served with
    | batch batch progress paired some_files start finish placed boundary versions stops =>
        refine ⟨paired, ?_, ?_, ?_⟩
        · intro whole
          unfold StreamCursor.isCommitBoundary
          rw [boundary (settings.splitting.trans whole)]
          rfl
        · intro stop held
          rw [held] at versions stops
          have atMost : readableThrough (some stop) log.head ≤ stop := Nat.min_le_left _ _
          exact ⟨fun version member => Nat.le_trans (versions version member) atMost, by omega⟩
        · intro again morePolls same cursor attachedAgain letGoAgain
          obtain ⟨intactAgain, acceptsAgain, rest⟩ :=
            restart_complete intact attached accepts polls handed same cursor
          refine ⟨caughtUp_reached intactAgain attachedAgain acceptsAgain morePolls letGoAgain, ?_⟩
          intro last caughtUp
          rw [caughtUp_complete intactAgain attachedAgain acceptsAgain morePolls last caughtUp,
            same.policy]
          exact rest

/-- Two files, a compaction, one more file. -/
def sampleLog : DeltaLog Nat where
  commits :=
    [{ actions := [.metaData { id := some "t", schemaString := "s" }, .add { path := "a" },
        .add { path := "b" }] },
      { actions := [.remove { path := "a", dataChange := false },
        .add { path := "ab", dataChange := false }] },
      { actions := [.add { path := "c" }] }]

/-- Held at version 1, one file a batch, commits split. -/
def sampleStream : LogStreamBuilder :=
  (((LogStreamBuilder.new "s" sampleLog).withMaxFilesPerBatch 1).withCommitSplitting
    true).withStopAfter (some 1)

theorem sampleLog_complete :
    ∃ last, handedOut sampleLog (fun call => { release := call == 3, budget := some 1 })
        sampleStream last =
      [(0, { path := "a" }), (0, { path := "b" }), (2, { path := "c" })] := by
  obtain ⟨⟨last, caughtUp⟩, whole, _rest⟩ :=
    nextBatch_complete sampleLog sampleStream
      (fun call => { release := call == 3, budget := some 1 })
      { nonempty := List.cons_ne_nil _ _
        headKept := rfl
        loadable := by
          intro version _low high
          change version ≤ 2 at high
          interval_cases version
          · exact ⟨_, rfl⟩
          · exact ⟨_, rfl⟩
          · exact ⟨_, rfl⟩ }
      { floor := Nat.le_refl _
        identity := by
          intro seenAt was same
          cases same
          exact ⟨_, rfl, rfl⟩ }
      (by
        intro version _low high
        change version ≤ 2 at high
        interval_cases version
        · rfl
        · rfl
        · rfl)
      (Or.inr ⟨3, rfl⟩)
  exact ⟨last, whole last caughtUp⟩

end Ddi.Source
