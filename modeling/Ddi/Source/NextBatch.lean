/-
What one call of the log-diff reader does, stated once.

`Turn` lists everything one turn of the loop can do; `refusal` is the error a
commit earns on its own, whatever a batch has gathered before it; `consumed` is
the part of the log a cursor has behind it. The specification of a call is then
that it moves the cursor over exactly the files it hands out.
-/

import Ddi.Lib.Segments
import Ddi.Source.LogStream

namespace Ddi.Source

open Ddi.Delta

variable {ρ : Type}

/-- The files a commit contributes under a change policy. -/
def emittedAdds (policy : ChangePolicy) (actions : List (Action ρ)) : List (AddFile ρ) :=
  match emission policy actions with
  | .emit adds => adds
  | _ => []

/-- The files the commit of a version contributes. -/
def emittedAt (log : DeltaLog ρ) (policy : ChangePolicy) (version : Nat) :
    List (AddFile ρ) :=
  match log.readCommitEntry version with
  | some actions => emittedAdds policy actions
  | none => []

/-- What the commit under a cursor still has to contribute. -/
def remainingAdds (log : DeltaLog ρ) (policy : ChangePolicy) (cursor : StreamCursor) :
    List (AddFile ρ) :=
  (emittedAt log policy cursor.version).drop cursor.index

/-- Everything the log emits before a cursor, each file under its commit's version. -/
def consumed (log : DeltaLog ρ) (policy : ChangePolicy) (cursor : StreamCursor) :
    List (Nat × AddFile ρ) :=
  Segments.upto (emittedAt log policy) cursor.version cursor.index

/-- Everything the log emits from a cursor and before a version. -/
def emittedBefore (log : DeltaLog ρ) (policy : ChangePolicy) (cursor : StreamCursor)
    (version : Nat) : List (Nat × AddFile ρ) :=
  Segments.between (emittedAt log policy) cursor.version cursor.index version

/-- Everything the log emits from a cursor through its head. -/
def undelivered (log : DeltaLog ρ) (policy : ChangePolicy) (cursor : StreamCursor) :
    List (Nat × AddFile ρ) :=
  emittedBefore log policy cursor (log.head + 1)

def LogStreamBuilder.fits (stream : LogStreamBuilder) (files : List (AddFile ρ)) : Bool :=
  decide (files.length ≤ stream.maxFilesPerBatch ∧ totalBytes files ≤ stream.maxBytesPerBatch)

/-- The error the commit under a cursor earns by itself, if it cannot be delivered. -/
def refusal (log : DeltaLog ρ) (stream : LogStreamBuilder) (cursor : StreamCursor) :
    Option Error :=
  match log.readCommitEntry cursor.version with
  | none => some (.cursorUnavailable stream.sourceUri cursor)
  | some actions =>
    match emission stream.policy actions with
    | .skip => none
    | .refuse => some (.changeCommit cursor.version)
    | .emit adds =>
      match adds.find? AddFile.deletionVector with
      | some file => some (.deletionVectorUnsupported cursor.version file.path)
      | none =>
        let remaining := adds.drop cursor.index
        if remaining.isEmpty || stream.fits remaining || stream.allowCommitSplitting then none
        else some (.commitTooLarge cursor.version remaining.length (totalBytes remaining)
          stream.maxFilesPerBatch stream.maxBytesPerBatch)

/-- A refusal that ends a call at once, whatever it has gathered. -/
def endsCallAtOnce : Error → Bool
  | .changeCommit _ => true
  | .deletionVectorUnsupported _ _ => true
  | _ => false

/-- The log timestamp lookups are pinned at once the commit under the cursor is taken. -/
def stampAt (log : DeltaLog ρ) (stream : LogStreamBuilder) (gathered : Gathered ρ) :
    Option Nat :=
  if stream.pinLookupSnapshots then
    (log.readCommit gathered.cursor.version).map Commit.lastModified
  else gathered.throughLogTimestamp

/-- Everything one turn of the loop can do. -/
inductive Turn (log : DeltaLog ρ) (stream : LogStreamBuilder) (budget : Option Nat)
    (gathered : Gathered ρ) : Visit ρ → Prop
  | skipped (silent : remainingAdds log stream.policy gathered.cursor = [])
      (accepted : refusal log stream gathered.cursor = none) :
      Turn log stream budget gathered
        (.next { gathered with cursor := gathered.cursor.nextVersion })
  | taken (more : Gathered ρ)
      (accepted : refusal log stream gathered.cursor = none)
      (loud : remainingAdds log stream.policy gathered.cursor ≠ [])
      (files : more.files = gathered.files ++ Segments.tagged gathered.cursor.version
        (remainingAdds log stream.policy gathered.cursor))
      (cursor : more.cursor = gathered.cursor.nextVersion)
      (through : more.through = some gathered.cursor.version)
      (timestamp : more.throughLogTimestamp = stampAt log stream gathered) :
      Turn log stream budget gathered
        (if stream.pinLookupSnapshots then .stop more else .next more)
  | full (carrying : gathered.files ≠ [])
      (postponed : ∀ error, refusal log stream gathered.cursor = some error →
        endsCallAtOnce error = false)
      (notSilent : remainingAdds log stream.policy gathered.cursor ≠ [] ∨
        refusal log stream gathered.cursor ≠ none) :
      Turn log stream budget gathered (.stop gathered)
  | split (more : Gathered ρ) (count : Nat)
      (accepted : refusal log stream gathered.cursor = none)
      (empty : gathered.files = [])
      (allowed : stream.allowCommitSplitting = true)
      (oversized : stream.fits (remainingAdds log stream.policy gathered.cursor) = false)
      (positive : 0 < count)
      (within : count ≤ (remainingAdds log stream.policy gathered.cursor).length)
      (files : more.files = Segments.tagged gathered.cursor.version
        ((remainingAdds log stream.policy gathered.cursor).take count))
      (cursor : more.cursor = gathered.cursor.advancedBy count)
      (through : more.through = some gathered.cursor.version)
      (timestamp : more.throughLogTimestamp = stampAt log stream gathered) :
      Turn log stream budget gathered (.stop more)
  | refused (error : Error)
      (found : refusal log stream gathered.cursor = some error)
      (reached : gathered.files = [] ∨ endsCallAtOnce error = true) :
      Turn log stream budget gathered (.fail error)

private theorem drop_min_length {α : Type} (items : List α) (index : Nat) :
    items.drop (min index items.length) = items.drop index := by
  by_cases within : index ≤ items.length
  · rw [Nat.min_eq_left within]
  · have beyond : items.length ≤ index := by omega
    rw [Nat.min_eq_right beyond, List.drop_length, List.drop_eq_nil_of_le beyond]

private theorem ceiling_le (stream : LogStreamBuilder) (budget : Option Nat)
    (gathered : Gathered ρ) :
    (if gathered.files.isEmpty then stream.maxBytesPerBatch
      else stream.combinedCeiling budget) ≤ stream.maxBytesPerBatch := by
  split
  · exact Nat.le_refl _
  · unfold LogStreamBuilder.combinedCeiling
    cases budget with
    | none => exact Nat.le_refl _
    | some bytes => exact Nat.min_le_left _ _

theorem admitCommit_turn (log : DeltaLog ρ) (stream : LogStreamBuilder) (budget : Option Nat)
    (gathered : Gathered ρ) (actions : List (Action ρ)) (adds : List (AddFile ρ))
    (read : log.readCommitEntry gathered.cursor.version = some actions)
    (emits : emission stream.policy actions = .emit adds)
    (bytes : gathered.files = [] → gathered.bytes = 0) :
    Turn log stream budget gathered (admitCommit log stream budget gathered adds) := by
  have here : remainingAdds log stream.policy gathered.cursor =
      adds.drop gathered.cursor.index := by
    simp only [remainingAdds, emittedAt, emittedAdds, read, emits]
  unfold admitCommit
  cases vector : adds.find? AddFile.deletionVector with
  | some file =>
      refine Turn.refused _ ?_ (Or.inr rfl)
      simp only [refusal, read, emits, vector]
  | none =>
      have earns : refusal log stream gathered.cursor =
          if (adds.drop gathered.cursor.index).isEmpty ||
            stream.fits (adds.drop gathered.cursor.index) || stream.allowCommitSplitting then none
          else some (.commitTooLarge gathered.cursor.version
            (adds.drop gathered.cursor.index).length
            (totalBytes (adds.drop gathered.cursor.index))
            stream.maxFilesPerBatch stream.maxBytesPerBatch) := by
        simp only [refusal, read, emits, vector]
      simp only [drop_min_length, ← here]
      rw [← here] at earns
      cases silent : (remainingAdds log stream.policy gathered.cursor).isEmpty with
      | true =>
          have nothing := List.isEmpty_iff.mp silent
          refine Turn.skipped nothing ?_
          rw [earns, silent]
          rfl
      | false =>
          have loud : remainingAdds log stream.policy gathered.cursor ≠ [] := by
            intro nothing
            rw [nothing] at silent
            cases silent
          rw [silent, Bool.false_or] at earns
          have ceiling := ceiling_le stream budget gathered
          have unlimited : gathered.files = [] →
              (if gathered.files.isEmpty then stream.maxBytesPerBatch
                else stream.combinedCeiling budget) = stream.maxBytesPerBatch := by
            intro empty
            rw [empty]
            rfl
          generalize (if gathered.files.isEmpty then stream.maxBytesPerBatch
            else stream.combinedCeiling budget) = room at ceiling unlimited ⊢
          rw [if_neg Bool.false_ne_true]
          by_cases fitting : gathered.files.length +
                (remainingAdds log stream.policy gathered.cursor).length ≤
                  stream.maxFilesPerBatch ∧
              gathered.bytes + totalBytes (remainingAdds log stream.policy gathered.cursor) ≤ room
          · have alone : stream.fits (remainingAdds log stream.policy gathered.cursor) = true :=
              decide_eq_true ⟨by omega, by omega⟩
            rw [if_pos fitting]
            refine Turn.taken _ ?_ loud rfl rfl rfl rfl
            rw [earns, alone]
            rfl
          · rw [if_neg fitting]
            by_cases carrying : gathered.files = []
            · have crowded :
                  stream.fits (remainingAdds log stream.policy gathered.cursor) = false := by
                refine decide_eq_false fun alone => fitting ?_
                rw [carrying, bytes carrying, unlimited carrying, List.length_nil]
                omega
              rw [crowded, Bool.false_or] at earns
              simp only [carrying, List.isEmpty_nil, Bool.not_true, Bool.false_eq_true, if_false]
              cases splitting : stream.allowCommitSplitting with
              | false =>
                  rw [splitting] at earns
                  exact Turn.refused _ earns (Or.inl carrying)
              | true =>
                  rw [splitting] at earns
                  have positive :
                      0 < (remainingAdds log stream.policy gathered.cursor).length :=
                    List.length_pos_iff.mpr loud
                  exact Turn.split _ _ earns carrying splitting crowded (by omega)
                    (Nat.min_le_right _ _) rfl rfl rfl rfl
            · have present : (!gathered.files.isEmpty) = true := by
                cases files : gathered.files with
                | nil => exact absurd files carrying
                | cons first rest => rfl
              rw [if_pos present]
              refine Turn.full carrying ?_ (Or.inl loud)
              intro error found
              rw [earns] at found
              split at found
              · cases found
              · cases found
                rfl

theorem visit_turn (log : DeltaLog ρ) (stream : LogStreamBuilder) (budget : Option Nat)
    (gathered : Gathered ρ) (bytes : gathered.files = [] → gathered.bytes = 0) :
    Turn log stream budget gathered (visit log stream budget gathered) := by
  unfold visit
  cases read : log.readCommitEntry gathered.cursor.version with
  | none =>
      have gone : refusal log stream gathered.cursor =
          some (.cursorUnavailable stream.sourceUri gathered.cursor) := by
        simp only [refusal, read]
      cases files : gathered.files with
      | nil => exact Turn.refused _ gone (Or.inl files)
      | cons first rest =>
          refine Turn.full (by rw [files]; exact List.cons_ne_nil _ _) ?_ (Or.inr ?_)
          · intro error found
            rw [gone] at found
            cases found
            rfl
          · rw [gone]
            exact Option.some_ne_none _
  | some actions =>
      simp only
      cases emits : emission stream.policy actions with
      | skip =>
          simp only
          refine Turn.skipped ?_ ?_
          · simp only [remainingAdds, emittedAt, emittedAdds, read, emits, List.drop_nil]
          · simp only [refusal, read, emits]
      | refuse =>
          simp only
          refine Turn.refused _ ?_ (Or.inr rfl)
          simp only [refusal, read, emits]
      | emit adds => exact admitCommit_turn log stream budget gathered actions adds read emits bytes

/-- A cursor at a version: where a reader that started at `start` meets that commit. -/
def StreamCursor.meets (start : StreamCursor) (version : Nat) : StreamCursor :=
  if version = start.version then start else StreamCursor.atVersion version

theorem StreamCursor.meets_self (start : StreamCursor) : start.meets start.version = start :=
  if_pos rfl

theorem StreamCursor.meets_later {start : StreamCursor} {version : Nat}
    (later : start.version < version) : start.meets version = StreamCursor.atVersion version :=
  if_neg (Nat.ne_of_gt later)

@[simp] theorem StreamCursor.atVersion_meets (first version : Nat) :
    (StreamCursor.atVersion first).meets version = StreamCursor.atVersion version := by
  unfold StreamCursor.meets
  split
  · rename_i same
    rw [same]
    rfl
  · rfl

/-- What holds of a call's gathering at every turn of its loop. -/
structure Gathering (log : DeltaLog ρ) (stream : LogStreamBuilder) (start : StreamCursor)
    (readable : Nat) (gathered : Gathered ρ) : Prop where
  handed : consumed log stream.policy gathered.cursor =
    consumed log stream.policy start ++ gathered.files
  bytes : gathered.files = [] → gathered.bytes = 0
  notBefore : start.version ≤ gathered.cursor.version
  notBeyond : gathered.cursor.version ≤ readable + 1
  versions : ∀ entry, entry ∈ gathered.files → start.version ≤ entry.1 ∧ entry.1 ≤ readable
  through : gathered.through = gathered.files.getLast?.map Prod.fst
  stamp : gathered.throughLogTimestamp =
    if stream.pinLookupSnapshots then
      gathered.through.bind fun version => (log.readCommit version).map Commit.lastModified
    else none
  single : stream.pinLookupSnapshots = true →
    ∀ entry, entry ∈ gathered.files → gathered.through = some entry.1
  passed : ∀ version, start.version ≤ version → version < gathered.cursor.version →
    refusal log stream (start.meets version) = none

/-- A gathering between two turns stands where its reader meets the commit. -/
structure Between (log : DeltaLog ρ) (stream : LogStreamBuilder) (start : StreamCursor)
    (readable : Nat) (gathered : Gathered ρ) : Prop
    extends Gathering log stream start readable gathered where
  standing : gathered.cursor = start.meets gathered.cursor.version
  pinned : stream.pinLookupSnapshots = true → gathered.files = []

/-- Why a call stopped gathering. -/
inductive Ending (log : DeltaLog ρ) (stream : LogStreamBuilder) (start : StreamCursor)
    (readable : Nat) (gathered : Gathered ρ) : Prop
  | exhausted (standing : gathered.cursor = start.meets gathered.cursor.version)
      (reached : gathered.cursor.version = readable + 1)
  | pinned (mode : stream.pinLookupSnapshots = true) (carrying : gathered.files ≠ [])
      (standing : gathered.cursor = start.meets gathered.cursor.version)
  | full (standing : gathered.cursor = start.meets gathered.cursor.version)
      (carrying : gathered.files ≠ [])
      (postponed : ∀ error, refusal log stream gathered.cursor = some error →
        endsCallAtOnce error = false)
      (notSilent : remainingAdds log stream.policy gathered.cursor ≠ [] ∨
        refusal log stream gathered.cursor ≠ none)
  | split (count : Nat) (carrying : gathered.files ≠ [])
      (allowed : stream.allowCommitSplitting = true)
      (oversized : stream.fits (remainingAdds log stream.policy
        (start.meets gathered.cursor.version)) = false)
      (accepted : refusal log stream (start.meets gathered.cursor.version) = none)
      (cursor : gathered.cursor = (start.meets gathered.cursor.version).advancedBy count)
      (positive : 0 < count)
      (within : gathered.cursor.version ≤ readable)

/-- What a call's loop comes to. -/
inductive GatherSpec (log : DeltaLog ρ) (stream : LogStreamBuilder) (start : StreamCursor)
    (readable : Nat) : Except Error (Gathered ρ) → Prop
  | handed (gathered : Gathered ρ) (gathering : Gathering log stream start readable gathered)
      (ending : Ending log stream start readable gathered) :
      GatherSpec log stream start readable (.ok gathered)
  | refused (gathered : Gathered ρ) (error : Error)
      (between : Between log stream start readable gathered)
      (within : gathered.cursor.version ≤ readable)
      (found : refusal log stream gathered.cursor = some error)
      (reached : gathered.files = [] ∨ endsCallAtOnce error = true) :
      GatherSpec log stream start readable (.error error)

theorem consumed_nextVersion (log : DeltaLog ρ) (policy : ChangePolicy) (cursor : StreamCursor) :
    consumed log policy cursor.nextVersion = consumed log policy cursor ++
      Segments.tagged cursor.version (remainingAdds log policy cursor) :=
  Segments.upto_finish _ _ _

theorem consumed_advancedBy (log : DeltaLog ρ) (policy : ChangePolicy) (cursor : StreamCursor)
    (count : Nat) :
    consumed log policy (cursor.advancedBy count) = consumed log policy cursor ++
      Segments.tagged cursor.version ((remainingAdds log policy cursor).take count) :=
  Segments.upto_advance _ _ _ _

private theorem getLast_tagged (version : Nat) {adds : List (AddFile ρ)}
    (files : List (Nat × AddFile ρ)) (loud : adds ≠ []) :
    (files ++ Segments.tagged version adds).getLast?.map Prod.fst = some version := by
  have some_tagged : Segments.tagged version adds ≠ [] := by
    rw [Ne, Segments.tagged_eq_nil]
    exact loud
  rw [List.getLast?_append_of_ne_nil _ some_tagged, List.getLast?_eq_some_getLast some_tagged,
    Option.map_some, Segments.tagged_fst (List.getLast_mem some_tagged)]

theorem gathering_start (log : DeltaLog ρ) (stream : LogStreamBuilder) (start : StreamCursor)
    (readable : Nat) (within : start.version ≤ readable + 1) :
    Between log stream start readable
      { files := [], bytes := 0, cursor := start, through := none,
        throughLogTimestamp := none } where
  handed := (List.append_nil _).symm
  bytes _ := rfl
  notBefore := Nat.le_refl _
  notBeyond := within
  versions := by
    intro entry member
    cases member
  through := rfl
  stamp := by
    rw [Option.bind_none, ite_self]
  single := by
    intro _pinned entry member
    cases member
  passed := by
    intro version low high
    exact absurd high (Nat.not_lt_of_le low)
  standing := start.meets_self.symm
  pinned _ := rfl

section Loop

variable {log : DeltaLog ρ} {stream : LogStreamBuilder} {start : StreamCursor}
  {readable : Nat} {gathered more : Gathered ρ}

private theorem passed_nextVersion (between : Between log stream start readable gathered)
    (accepted : refusal log stream gathered.cursor = none) :
    ∀ version, start.version ≤ version → version < gathered.cursor.version + 1 →
      refusal log stream (start.meets version) = none := by
  intro version low high
  by_cases here : version = gathered.cursor.version
  · rw [here, ← between.standing]
    exact accepted
  · exact between.passed version low (by omega)

private theorem meets_nextVersion (between : Between log stream start readable gathered) :
    gathered.cursor.nextVersion = start.meets (gathered.cursor.version + 1) := by
  have low := between.notBefore
  rw [StreamCursor.meets_later (by omega)]
  rfl

theorem Between.skip (between : Between log stream start readable gathered)
    (within : gathered.cursor.version ≤ readable)
    (silent : remainingAdds log stream.policy gathered.cursor = [])
    (accepted : refusal log stream gathered.cursor = none) :
    Between log stream start readable
      { gathered with cursor := gathered.cursor.nextVersion } where
  handed := by
    have handed := between.handed
    rw [consumed_nextVersion, silent, Segments.tagged_nil, List.append_nil, handed]
  bytes := between.bytes
  notBefore := Nat.le_succ_of_le between.notBefore
  notBeyond := Nat.succ_le_succ within
  versions := between.versions
  through := between.through
  stamp := between.stamp
  single := between.single
  passed := passed_nextVersion between accepted
  standing := meets_nextVersion between
  pinned := between.pinned

private theorem stampAt_eq (between : Between log stream start readable gathered)
    (through : more.through = some gathered.cursor.version)
    (timestamp : more.throughLogTimestamp = stampAt log stream gathered) :
    more.throughLogTimestamp =
      if stream.pinLookupSnapshots then
        more.through.bind fun version => (log.readCommit version).map Commit.lastModified
      else none := by
  rw [timestamp, through]
  unfold stampAt
  cases mode : stream.pinLookupSnapshots with
  | true => rfl
  | false =>
      have before := between.stamp
      rw [mode] at before
      rw [before]
      rfl

theorem Between.take (between : Between log stream start readable gathered)
    (within : gathered.cursor.version ≤ readable)
    (accepted : refusal log stream gathered.cursor = none)
    (loud : remainingAdds log stream.policy gathered.cursor ≠ [])
    (files : more.files = gathered.files ++ Segments.tagged gathered.cursor.version
      (remainingAdds log stream.policy gathered.cursor))
    (cursor : more.cursor = gathered.cursor.nextVersion)
    (through : more.through = some gathered.cursor.version)
    (timestamp : more.throughLogTimestamp = stampAt log stream gathered) :
    Gathering log stream start readable more where
  handed := by
    rw [cursor, consumed_nextVersion, between.handed, files, List.append_assoc]
  bytes := by
    intro empty
    rw [files, List.append_eq_nil_iff, Segments.tagged_eq_nil] at empty
    exact absurd empty.2 loud
  notBefore := by
    rw [cursor]
    exact Nat.le_succ_of_le between.notBefore
  notBeyond := by
    rw [cursor]
    exact Nat.succ_le_succ within
  versions := by
    intro entry member
    rw [files] at member
    rcases List.mem_append.mp member with earlier | fresh
    · exact between.versions entry earlier
    · rw [Segments.tagged_fst fresh]
      exact ⟨between.notBefore, within⟩
  through := by
    rw [files, getLast_tagged _ _ loud, through]
  stamp := stampAt_eq between through timestamp
  single := by
    intro pinned entry member
    rw [files, between.pinned pinned, List.nil_append] at member
    rw [through, Segments.tagged_fst member]
  passed := by
    rw [cursor]
    exact passed_nextVersion between accepted

theorem Between.part (between : Between log stream start readable gathered)
    (within : gathered.cursor.version ≤ readable) (empty : gathered.files = []) {count : Nat}
    (positive : 0 < count)
    (room : count ≤ (remainingAdds log stream.policy gathered.cursor).length)
    (files : more.files = Segments.tagged gathered.cursor.version
      ((remainingAdds log stream.policy gathered.cursor).take count))
    (cursor : more.cursor = gathered.cursor.advancedBy count)
    (through : more.through = some gathered.cursor.version)
    (timestamp : more.throughLogTimestamp = stampAt log stream gathered) :
    Gathering log stream start readable more := by
  have loud : (remainingAdds log stream.policy gathered.cursor).take count ≠ [] := by
    rw [Ne, ← List.length_eq_zero_iff, List.length_take]
    omega
  exact
    { handed := by
        rw [cursor, consumed_advancedBy, between.handed, files, empty, List.append_nil]
      bytes := by
        intro nothing
        rw [files, Segments.tagged_eq_nil] at nothing
        exact absurd nothing loud
      notBefore := by
        rw [cursor]
        exact between.notBefore
      notBeyond := by
        rw [cursor]
        exact Nat.le_succ_of_le within
      versions := by
        intro entry member
        rw [files] at member
        rw [Segments.tagged_fst member]
        exact ⟨between.notBefore, within⟩
      through := by
        have last := getLast_tagged gathered.cursor.version [] loud
        rw [List.nil_append] at last
        rw [files, last, through]
      stamp := stampAt_eq between through timestamp
      single := by
        intro _pinned entry member
        rw [files] at member
        rw [through, Segments.tagged_fst member]
      passed := by
        rw [cursor]
        exact between.passed }

end Loop

/-- The loop keeps its invariant and ends for one of the reasons listed. -/
theorem gather_semantics (log : DeltaLog ρ) (stream : LogStreamBuilder) (budget : Option Nat)
    (start : StreamCursor) (readable : Nat) (left : Nat) (gathered : Gathered ρ)
    (between : Between log stream start readable gathered)
    (count : gathered.cursor.version + left = readable + 1) :
    GatherSpec log stream start readable (gather log stream budget left gathered) := by
  induction left generalizing gathered with
  | zero =>
      exact .handed gathered between.toGathering (.exhausted between.standing count)
  | succ left ih =>
      have within : gathered.cursor.version ≤ readable := by omega
      have turn := visit_turn log stream budget gathered between.bytes
      unfold gather
      generalize visit log stream budget gathered = visited at turn
      cases turn with
      | skipped silent accepted =>
          refine ih _ (between.skip within silent accepted) ?_
          change gathered.cursor.version + 1 + left = readable + 1
          omega
      | taken more accepted loud files cursor through timestamp =>
          have gathering := between.take within accepted loud files cursor through timestamp
          cases mode : stream.pinLookupSnapshots with
          | true =>
              rw [if_pos rfl]
              have standing : more.cursor = start.meets more.cursor.version := by
                rw [cursor]
                exact meets_nextVersion between
              refine .handed more gathering (.pinned mode ?_ standing)
              intro nothing
              rw [files, List.append_eq_nil_iff, Segments.tagged_eq_nil] at nothing
              exact loud nothing.2
          | false =>
              rw [if_neg Bool.false_ne_true]
              refine ih more ⟨gathering, ?_, ?_⟩ ?_
              · rw [cursor]
                exact meets_nextVersion between
              · intro pinned
                rw [mode] at pinned
                cases pinned
              · rw [cursor, StreamCursor.nextVersion_version]
                omega
      | full carrying postponed notSilent =>
          exact .handed gathered between.toGathering
            (.full between.standing carrying postponed notSilent)
      | split more count accepted empty allowed oversized positive room files cursor through
          timestamp =>
          have gathering := between.part within empty positive room files cursor through timestamp
          have same : more.cursor.version = gathered.cursor.version := by rw [cursor]; rfl
          refine .handed more gathering
            (.split count ?_ allowed ?_ ?_ ?_ positive (by rw [same]; exact within))
          · intro nothing
            rw [files, Segments.tagged_eq_nil, ← List.length_eq_zero_iff, List.length_take]
              at nothing
            omega
          · rw [same, ← between.standing]
            exact oversized
          · rw [same, ← between.standing]
            exact accepted
          · rw [same, ← between.standing]
            exact cursor
      | refused error found reached =>
          exact .refused gathered error between within found reached

end Ddi.Source
