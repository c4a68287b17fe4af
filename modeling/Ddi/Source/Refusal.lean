/-
What is handed out before a refusal.

A reader comes to a first commit it can never deliver. A missing commit and one
over the limits wait until what was gathered before them has been handed out; a
change commit under the default policy and a deletion vector end the call at
once and drop it. Whether everything before the refused commit is delivered
therefore depends on the kind of the refusal and on whether a gathering can
hold anything when the loop reaches it.
-/

import Ddi.Source.Completeness

namespace Ddi.Source

open Ddi.Delta

variable {ρ : Type}

/-- `version` is the first commit from the cursor on that cannot be delivered, by `error`;
every commit before it fits the limits and none is held back. -/
structure FirstRefusal (log : DeltaLog ρ) (stream : LogStreamBuilder) (version : Nat)
    (error : Error) : Prop where
  reached : stream.cursor.version ≤ version
  readable : version ≤ readableThrough stream.stopAfter log.head
  accepted : ∀ earlier, stream.cursor.version ≤ earlier → earlier < version →
    refusal log stream (stream.cursor.meets earlier) = none
  fits : ∀ earlier, stream.cursor.version ≤ earlier → earlier < version →
    stream.fits (remainingAdds log stream.policy (stream.cursor.meets earlier)) = true
  refused : refusal log stream (stream.cursor.meets version) = some error

/-- Successive calls hand out every emitted file before `version`, and then fail with `error`. -/
def DeliversAllBefore (log : DeltaLog ρ) (stream : LogStreamBuilder) (polls : Nat → Poll)
    (version : Nat) (error : Error) : Prop :=
  ∃ last, outcomeAt log polls stream last = .error error ∧
    (∀ call, call < last → ∃ result, outcomeAt log polls stream call = .ok result) ∧
    handedOut log polls stream last =
      emittedBefore log stream.policy stream.cursor version

theorem StreamCursor.meets_meets {start : StreamCursor} {first version : Nat}
    (low : start.version ≤ first) (later : first ≤ version) :
    (start.meets first).meets version = start.meets version := by
  by_cases same : first = start.version
  · rw [same, StreamCursor.meets_self]
  · have beyond : start.version < first := by omega
    rw [StreamCursor.meets_later beyond, StreamCursor.atVersion_meets,
      StreamCursor.meets_later (Nat.lt_of_lt_of_le beyond later)]

theorem consumed_append_emittedBefore (log : DeltaLog ρ) (policy : ChangePolicy)
    (cursor : StreamCursor) {version : Nat} (within : cursor.version ≤ version) :
    consumed log policy cursor ++ emittedBefore log policy cursor version =
      consumed log policy (cursor.meets version) := by
  rcases Nat.lt_or_eq_of_le within with earlier | here
  · rw [StreamCursor.meets_later earlier]
    exact Segments.upto_append_between _ _ earlier
  · rw [← here, StreamCursor.meets_self, emittedBefore,
      Segments.between_of_le _ _ (Nat.le_refl _), List.append_nil]

/-- A run on its way to the refused commit. -/
structure Approach (log : DeltaLog ρ) (origin stream : LogStreamBuilder) (version : Nat)
    (handed : List (Nat × AddFile ρ)) : Prop where
  attached : Attached log stream
  settings : SameSettings origin stream
  notBefore : origin.cursor.version ≤ stream.cursor.version
  notBeyond : stream.cursor.version ≤ version
  standing : stream.cursor = origin.cursor.meets stream.cursor.version
  readable : version ≤ readableThrough stream.stopAfter log.head
  account : handed ++ emittedBefore log origin.policy stream.cursor version =
    emittedBefore log origin.policy origin.cursor version

/-- What a call of an approaching run returns. -/
inductive Approached (log : DeltaLog ρ) (origin before after : LogStreamBuilder) (version : Nat)
    (error : Error) (handed : List (Nat × AddFile ρ)) :
    Except Error (Option (LogBatch ρ)) → Prop
  | batch (batch : LogBatch ρ)
      (approach : Approach log origin after version
        (handed ++ batch.fileVersions.zip batch.files))
      (some_files : batch.fileVersions.zip batch.files ≠ [])
      (owing : endsCallAtOnce error = true → origin.pinLookupSnapshots = false →
        emittedBefore log origin.policy after.cursor version ≠ []) :
      Approached log origin before after version error handed (.ok (some batch))
  | refused
      (dropped : emittedBefore log origin.policy before.cursor version = [] ∨
        (endsCallAtOnce error = true ∧ origin.pinLookupSnapshots = false)) :
      Approached log origin before after version error handed (.error error)

section Step

variable {log : DeltaLog ρ} {origin stream after : LogStreamBuilder} {version : Nat}
  {error : Error} {handed : List (Nat × AddFile ρ)} {gathered : Gathered ρ} {readable : Nat}

private theorem Approach.meets (approach : Approach log origin stream version handed)
    {later : Nat} (low : stream.cursor.version ≤ later) :
    stream.cursor.meets later = origin.cursor.meets later := by
  rw [approach.standing, StreamCursor.meets_meets approach.notBefore low]

private theorem Approach.refusal_eq (approach : Approach log origin stream version handed)
    {later : Nat} (low : stream.cursor.version ≤ later) :
    refusal log stream (stream.cursor.meets later) =
      refusal log origin (origin.cursor.meets later) := by
  rw [approach.settings.refusal, approach.meets low]

private theorem Approach.gathering_notBeyond (first : FirstRefusal log origin version error)
    (approach : Approach log origin stream version handed)
    (gathering : Gathering log stream stream.cursor readable gathered) :
    gathered.cursor.version ≤ version := by
  by_contra beyond
  have passed := gathering.passed version approach.notBeyond (Nat.lt_of_not_le beyond)
  rw [approach.refusal_eq approach.notBeyond, first.refused] at passed
  cases passed

private theorem Approach.gathering_standing (first : FirstRefusal log origin version error)
    (approach : Approach log origin stream version handed)
    (gathering : Gathering log stream stream.cursor readable gathered)
    (ending : Ending log stream stream.cursor readable gathered) :
    gathered.cursor = origin.cursor.meets gathered.cursor.version := by
  have low := gathering.notBefore
  have high := approach.gathering_notBeyond first gathering
  have notBefore := approach.notBefore
  rw [← approach.meets low]
  cases ending with
  | exhausted standing reached => exact standing
  | pinned mode carrying standing => exact standing
  | full standing carrying postponed notSilent => exact standing
  | split count carrying allowed oversized accepted cursor positive within =>
      exfalso
      rw [approach.refusal_eq low] at accepted
      rcases Nat.lt_or_eq_of_le high with earlier | here
      · have fits := first.fits gathered.cursor.version (by omega) earlier
        rw [approach.settings.policy, approach.meets low, LogStreamBuilder.fits,
          approach.settings.maxFiles, approach.settings.maxBytes] at oversized
        rw [LogStreamBuilder.fits] at fits
        rw [fits] at oversized
        cases oversized
      · rw [here, first.refused] at accepted
        cases accepted

private theorem Approach.owing (first : FirstRefusal log origin version error)
    (approach : Approach log origin stream version handed)
    (gathering : Gathering log stream stream.cursor readable gathered)
    (ending : Ending log stream stream.cursor readable gathered)
    (reaches : version ≤ readable)
    (immediate : endsCallAtOnce error = true) (unpinned : origin.pinLookupSnapshots = false) :
    emittedBefore log origin.policy gathered.cursor version ≠ [] := by
  have low := gathering.notBefore
  have high := approach.gathering_notBeyond first gathering
  have notBefore := approach.notBefore
  cases ending with
  | exhausted standing reached => omega
  | pinned mode carrying standing =>
      rw [approach.settings.pinning, unpinned] at mode
      cases mode
  | full standing carrying postponed notSilent =>
      have earns := approach.refusal_eq low
      rw [← standing] at earns
      rcases Nat.lt_or_eq_of_le high with earlier | here
      · have accepted := first.accepted gathered.cursor.version (by omega) earlier
        rw [earns, accepted, approach.settings.policy] at notSilent
        rcases notSilent with loud | impossible
        · exact Segments.between_ne_nil _ earlier loud
        · exact absurd rfl impossible
      · rw [here, first.refused] at earns
        have later := postponed error earns
        rw [immediate] at later
        cases later
  | split count carrying allowed oversized accepted cursor positive within =>
      exfalso
      have standing := approach.gathering_standing first gathering
        (.split count carrying allowed oversized accepted cursor positive within)
      rw [← approach.meets low] at standing
      have moved := congrArg StreamCursor.index (standing.symm.trans cursor)
      rw [StreamCursor.advancedBy_index] at moved
      omega

end Step

theorem approached_of_approach {log : DeltaLog ρ} {origin stream : LogStreamBuilder}
    {version : Nat} {error : Error} {handed : List (Nat × AddFile ρ)} (budget : Option Nat)
    (intact : Intact log (min origin.cursor.version log.head))
    (first : FirstRefusal log origin version error)
    (approach : Approach log origin stream version handed) :
    Approached log origin stream (nextBatch log budget stream).2 version error handed
      (nextBatch log budget stream).1 := by
  have notBefore := approach.notBefore
  have notBeyond := approach.notBeyond
  have reaches := approach.readable
  have intactHere : Intact log (min stream.cursor.version log.head) :=
    ⟨intact.nonempty, intact.headKept, fun version low high =>
      intact.loadable version (by omega) high⟩
  obtain ⟨spec, attached, settings, stop⟩ :=
    nextBatch_semantics budget intactHere approach.attached
  have same := approach.settings.policy
  generalize readable_ : readableThrough stream.stopAfter log.head = readable at *
  generalize (nextBatch log budget stream).2 = after at *
  generalize (nextBatch log budget stream).1 = outcome at *
  cases spec with
  | beyond ahead cursor => omega
  | passed within cursor silent accepted =>
      have met := accepted version notBeyond reaches
      rw [approach.refusal_eq notBeyond, first.refused] at met
      cases met
  | batch gathered batch within gathering ending carrying cursor start finish files versions
      _through _timestamp =>
      have low := gathering.notBefore
      have high := approach.gathering_notBeyond first gathering
      have standing := approach.gathering_standing first gathering ending
      have pairs : batch.fileVersions.zip batch.files = gathered.files := by
        rw [versions, files, List.zip_map']
        exact List.map_id' _
      have handed_on := gathering.handed
      rw [same] at handed_on
      refine .batch batch
        { attached := attached
          settings := approach.settings.trans settings
          notBefore := by rw [cursor]; omega
          notBeyond := by rw [cursor]; exact high
          standing := by rw [cursor]; exact standing
          readable := by rw [stop, readable_]; exact reaches
          account := ?_ }
        (by rw [pairs]; exact carrying) ?_
      · rw [pairs, cursor, ← approach.account, List.append_assoc]
        congr 1
        have here := consumed_append_emittedBefore log origin.policy gathered.cursor high
        have there := consumed_append_emittedBefore log origin.policy stream.cursor notBeyond
        rw [approach.meets notBeyond] at there
        rw [standing, StreamCursor.meets_meets (by omega) high, ← standing, handed_on,
          List.append_assoc, ← there] at here
        exact List.append_cancel_left here
      · rw [cursor]
        exact approach.owing first gathering ending reaches
  | refused gathered failed between within found reached cursor =>
      have low := between.notBefore
      have high := approach.gathering_notBeyond first between.toGathering
      have earns := approach.refusal_eq low
      rw [← between.standing] at earns
      have here : gathered.cursor.version = version := by
        by_contra elsewhere
        have accepted := first.accepted gathered.cursor.version (by omega) (by omega)
        rw [← earns, found] at accepted
        cases accepted
      rw [here, first.refused, found] at earns
      cases earns
      refine .refused ?_
      by_cases empty : gathered.files = []
      · have handed_on := between.handed
        rw [empty, List.append_nil, same] at handed_on
        have there := consumed_append_emittedBefore log origin.policy stream.cursor notBeyond
        rw [← here, ← between.standing, handed_on] at there
        rw [← here]
        exact Or.inl (List.append_right_eq_self.mp there)
      · refine Or.inr ⟨reached.resolve_left empty, ?_⟩
        cases mode : origin.pinLookupSnapshots with
        | false => rfl
        | true => exact absurd (between.pinned (by rw [approach.settings.pinning, mode])) empty

theorem Approach.prepare {log : DeltaLog ρ} {origin stream : LogStreamBuilder} {version : Nat}
    {handed : List (Nat × AddFile ρ)} (approach : Approach log origin stream version handed)
    (within : version ≤ log.head) (poll : Poll) :
    Approach log origin (poll.prepare stream) version handed := by
  unfold Poll.prepare
  split
  · exact
      { attached := ⟨approach.attached.floor, approach.attached.identity⟩
        settings := approach.settings.trans ⟨rfl, rfl, rfl, rfl, rfl, rfl⟩
        notBefore := approach.notBefore
        notBeyond := approach.notBeyond
        standing := approach.standing
        readable := within
        account := approach.account }
  · exact approach

section Run

variable {log : DeltaLog ρ} {stream : LogStreamBuilder} {version : Nat} {error : Error}

theorem FirstRefusal.withinHead (first : FirstRefusal log stream version error) :
    version ≤ log.head :=
  Nat.le_trans first.readable (readableThrough_le _ _)

theorem FirstRefusal.start (first : FirstRefusal log stream version error)
    (attached : Attached log stream) : Approach log stream stream version [] where
  attached := attached
  settings := .refl stream
  notBefore := Nat.le_refl _
  notBeyond := first.reached
  standing := stream.cursor.meets_self.symm
  readable := first.readable
  account := List.nil_append _

theorem approach_readerAt (intact : Intact log (min stream.cursor.version log.head))
    (attached : Attached log stream) (first : FirstRefusal log stream version error)
    (polls : Nat → Poll) (count : Nat)
    (unrefused : ∀ call, call < count → ∃ result, outcomeAt log polls stream call = .ok result) :
    Approach log stream (readerAt log polls stream count) version
        (handedOut log polls stream count) ∧
      count ≤ (handedOut log polls stream count).length ∧
      (endsCallAtOnce error = true → stream.pinLookupSnapshots = false →
        emittedBefore log stream.policy stream.cursor version ≠ [] →
        emittedBefore log stream.policy (readerAt log polls stream count).cursor version ≠ []) := by
  induction count with
  | zero => exact ⟨first.start attached, Nat.zero_le _, fun _ _ some_files => some_files⟩
  | succ count ih =>
      obtain ⟨approach, grown, _owing⟩ :=
        ih fun call earlier => unrefused call (Nat.lt_succ_of_lt earlier)
      obtain ⟨result, returned⟩ := unrefused count (Nat.lt_succ_self count)
      have step := approached_of_approach (polls count).budget intact first
        (approach.prepare first.withinHead (polls count))
      rw [handedOut_succ]
      change Approached log stream _ _ version error _ (outcomeAt log polls stream count) at step
      rw [returned] at step ⊢
      cases step with
      | batch batch onward some_files owing =>
          refine ⟨onward, ?_, fun immediate unpinned _ => owing immediate unpinned⟩
          have positive := List.length_pos_iff.mpr some_files
          rw [List.length_append]
          change count + 1 ≤ _ + (batch.fileVersions.zip batch.files).length
          omega

theorem refusal_reached (intact : Intact log (min stream.cursor.version log.head))
    (attached : Attached log stream) (first : FirstRefusal log stream version error)
    (polls : Nat → Poll) :
    ∃ last, outcomeAt log polls stream last = .error error ∧
      ∀ call, call < last → ∃ result, outcomeAt log polls stream call = .ok result := by
  have decided : ∀ count,
      (∃ last, outcomeAt log polls stream last = .error error ∧
        ∀ call, call < last → ∃ result, outcomeAt log polls stream call = .ok result) ∨
      ∀ call, call < count → ∃ result, outcomeAt log polls stream call = .ok result := by
    intro count
    induction count with
    | zero => exact Or.inr fun call impossible => absurd impossible (Nat.not_lt_zero call)
    | succ count ih =>
        rcases ih with found | unrefused
        · exact Or.inl found
        · obtain ⟨approach, _grown, _owing⟩ :=
            approach_readerAt intact attached first polls count unrefused
          have step := approached_of_approach (polls count).budget intact first
            (approach.prepare first.withinHead (polls count))
          change Approached log stream _ _ version error _ (outcomeAt log polls stream count)
            at step
          cases returned : outcomeAt log polls stream count with
          | error failed =>
              rw [returned] at step
              cases step
              exact Or.inl ⟨count, returned, unrefused⟩
          | ok result =>
              refine Or.inr fun call earlier => ?_
              rcases Nat.lt_or_eq_of_le (Nat.le_of_lt_succ earlier) with before | here
              · exact unrefused call before
              · rw [here]
                exact ⟨result, returned⟩
  have whole := (emittedBefore log stream.policy stream.cursor version).length
  rcases decided ((emittedBefore log stream.policy stream.cursor version).length + 1) with
    found | unrefused
  · exact found
  · obtain ⟨approach, grown, _owing⟩ :=
      approach_readerAt intact attached first polls _ unrefused
    have account := congrArg List.length approach.account
    rw [List.length_append] at account
    omega

end Run

/-- Every file before the first refused commit is delivered before its error exactly when the
refusal is one that waits, the reader takes one data commit a batch, or there is none. -/
theorem deliversAllBefore_iff (log : DeltaLog ρ) (stream : LogStreamBuilder)
    (polls : Nat → Poll) (version : Nat) (error : Error)
    (intact : Intact log (min stream.cursor.version log.head)) (attached : Attached log stream)
    (first : FirstRefusal log stream version error) :
    DeliversAllBefore log stream polls version error ↔
      endsCallAtOnce error = false ∨ stream.pinLookupSnapshots = true ∨
        emittedBefore log stream.policy stream.cursor version = [] := by
  constructor
  · rintro ⟨last, _failed, unrefused, whole⟩
    by_contra otherwise
    rw [not_or, not_or, Bool.not_eq_false, Bool.not_eq_true] at otherwise
    obtain ⟨immediate, unpinned, some_files⟩ := otherwise
    obtain ⟨approach, _grown, owing⟩ :=
      approach_readerAt intact attached first polls last unrefused
    have account := approach.account
    rw [whole] at account
    exact owing immediate unpinned some_files (List.append_right_eq_self.mp account)
  · intro condition
    obtain ⟨last, failed, unrefused⟩ := refusal_reached intact attached first polls
    obtain ⟨approach, _grown, _owing⟩ :=
      approach_readerAt intact attached first polls last unrefused
    refine ⟨last, failed, unrefused, ?_⟩
    have step := approached_of_approach (polls last).budget intact first
      (approach.prepare first.withinHead (polls last))
    change Approached log stream _ _ version error _ (outcomeAt log polls stream last) at step
    rw [failed] at step
    have account := (approach.prepare first.withinHead (polls last)).account
    have nothing : emittedBefore log stream.policy
        ((polls last).prepare (readerAt log polls stream last)).cursor version = [] := by
      cases step with
      | refused dropped =>
          rcases dropped with nothing | ⟨immediate, unpinned⟩
          · exact nothing
          · rcases condition with waits | pinned | empty
            · rw [immediate] at waits
              cases waits
            · rw [unpinned] at pinned
              cases pinned
            · rw [empty] at account
              exact (List.append_eq_nil_iff.mp account).2
    rw [nothing, List.append_nil] at account
    exact account

/-- Two appends and a commit that removes data. -/
def changedLog : DeltaLog Nat where
  commits :=
    [{ actions := [.metaData { id := some "t", schemaString := "s" }, .add { path := "a" }] },
      { actions := [.add { path := "b" }] },
      { actions := [.remove { path := "a" }, .add { path := "c" }] }]

/-- A reader at the default policy, and how many files a batch of it may hold. -/
def changedStream (maxFiles : Nat) : LogStreamBuilder :=
  (LogStreamBuilder.new "s" changedLog).withMaxFilesPerBatch maxFiles

def plainPolls : Nat → Poll := fun _ => { release := false, budget := none }

private theorem changedLog_intact : Intact changedLog 0 where
  nonempty := List.cons_ne_nil _ _
  headKept := rfl
  loadable := by
    intro version _low high
    change version ≤ 2 at high
    interval_cases version
    · exact ⟨_, rfl⟩
    · exact ⟨_, rfl⟩
    · exact ⟨_, rfl⟩

private theorem changedStream_attached (maxFiles : Nat) :
    Attached changedLog (changedStream maxFiles) where
  floor := Nat.le_refl _
  identity := by
    intro seenAt was same
    cases same
    exact ⟨_, rfl, rfl⟩

private theorem changedStream_firstRefusal {maxFiles : Nat}
    (limit : maxFiles = 1 ∨ maxFiles = 1000) :
    FirstRefusal changedLog (changedStream maxFiles) 2 (.changeCommit 2) where
  reached := Nat.zero_le _
  readable := Nat.le_refl _
  accepted := by
    intro earlier _low high
    rcases limit with rfl | rfl <;> interval_cases earlier <;> rfl
  fits := by
    intro earlier _low high
    rcases limit with rfl | rfl <;> interval_cases earlier <;> rfl
  refused := rfl

/-- A gathering is dropped by the change commit the same call runs into, so how much of it
had been handed out before depends on the limits. -/
theorem changeCommit_drops_gathering :
    FirstRefusal changedLog (changedStream 1000) 2 (.changeCommit 2) ∧
      FirstRefusal changedLog (changedStream 1) 2 (.changeCommit 2) ∧
      outcomeAt changedLog plainPolls (changedStream 1000) 0 = .error (.changeCommit 2) ∧
      outcomeAt changedLog plainPolls (changedStream 1) 1 = .error (.changeCommit 2) ∧
      handedOut changedLog plainPolls (changedStream 1) 1 = [(0, { path := "a" })] ∧
      emittedBefore changedLog .fail (StreamCursor.atVersion 0) 2 =
        [(0, { path := "a" }), (1, { path := "b" })] ∧
      ¬DeliversAllBefore changedLog (changedStream 1000) plainPolls 2 (.changeCommit 2) := by
  refine ⟨changedStream_firstRefusal (Or.inr rfl), changedStream_firstRefusal (Or.inl rfl), rfl,
    rfl, rfl, rfl, ?_⟩
  rintro ⟨last, _failed, unrefused, whole⟩
  cases last with
  | zero => cases whole
  | succ last =>
      obtain ⟨result, returned⟩ := unrefused 0 (Nat.succ_pos last)
      cases returned

theorem changedLog_deliversAllBefore_iff :
    DeliversAllBefore changedLog (changedStream 1000) plainPolls 2 (.changeCommit 2) ↔
      endsCallAtOnce (.changeCommit 2) = false ∨
        (changedStream 1000).pinLookupSnapshots = true ∨
        emittedBefore changedLog .fail (StreamCursor.atVersion 0) 2 = [] :=
  deliversAllBefore_iff changedLog (changedStream 1000) plainPolls 2 (.changeCommit 2)
    changedLog_intact (changedStream_attached 1000) (changedStream_firstRefusal (Or.inr rfl))

end Ddi.Source
