/-
A call of the reader on a log that is all there.

`Intact` says the head's commit and the states from a version on can be read;
`Attached` that what the reader remembers of the log is true of it. Under both,
a call either hands out a gathering, moves over commits that emit nothing, or
reports the refusal of the commit it stands before.
-/

import Ddi.Source.Identity

namespace Ddi.Source

open Ddi.Delta

variable {ρ : Type}

structure Intact (log : DeltaLog ρ) (first : Nat) : Prop where
  nonempty : log.commits ≠ []
  headKept : log.reclaimed log.head = false
  loadable : ∀ version, first ≤ version → version ≤ log.head →
    ∃ state, log.logState (some version) = .ok state

structure Attached (log : DeltaLog ρ) (stream : LogStreamBuilder) : Prop where
  floor : stream.versionFloor ≤ log.head
  identity : IdentityKept log stream.identity

theorem checkIdentity_semantics {log : DeltaLog ρ} {stream : LogStreamBuilder} {version : Nat}
    {state : TableState} (attached : Attached log stream)
    (loaded : log.logState (some version) = .ok state) :
    ∃ after, LogStreamBuilder.checkIdentity log stream state.version state.metadata.id =
      .ok after ∧ Attached log after ∧ Remembers stream after ∧
      after.schemaCache = stream.schemaCache := by
  have here := DeltaLog.logState_version loaded
  unfold LogStreamBuilder.checkIdentity
  cases known : state.metadata.id with
  | none => exact ⟨stream, rfl, attached, .refl stream, rfl⟩
  | some now =>
      cases recorded : stream.identity with
      | none => exact ⟨stream, rfl, attached, .refl stream, rfl⟩
      | some seen =>
          obtain ⟨seenAt, was⟩ := seen
          have updated : Attached log { stream with identity := some (state.version, now) } :=
            { floor := attached.floor
              identity := by
                intro version' id same
                cases same
                exact ⟨state, by rw [here]; exact loaded, known⟩ }
          obtain ⟨then_, reloaded, kept⟩ := attached.identity seenAt was recorded
          simp only [reloaded, kept, if_true]
          split
          · exact ⟨_, rfl, updated, ⟨⟨rfl, rfl, rfl, rfl, rfl, rfl⟩, rfl, rfl⟩, rfl⟩
          · exact ⟨_, rfl, updated, ⟨⟨rfl, rfl, rfl, rfl, rfl, rfl⟩, rfl, rfl⟩, rfl⟩

private theorem contiguousFrom_head {log : DeltaLog ρ} (nonempty : log.commits ≠ [])
    (headKept : log.reclaimed log.head = false) : log.contiguousFrom log.head = true := by
  have positive := List.length_pos_iff.mpr nonempty
  have single : log.commits.length - log.head = 1 := by
    unfold DeltaLog.head
    omega
  unfold DeltaLog.contiguousFrom
  rw [single, decide_eq_true (by unfold DeltaLog.head; omega)]
  simp [headKept]

theorem latestVersion_semantics {log : DeltaLog ρ} {stream : LogStreamBuilder} {first : Nat}
    (intact : Intact log first) (within : first ≤ log.head) (attached : Attached log stream) :
    ∃ after, stream.latestVersion log = (.ok log.head, after) ∧ Attached log after ∧
      Remembers stream after := by
  unfold LogStreamBuilder.latestVersion
  unfold DeltaLog.getLatestVersion
  by_cases reaches : log.contiguousFrom stream.versionFloor = true
  · rw [if_pos reaches]
    exact ⟨_, rfl, ⟨Nat.le_refl _, attached.identity⟩,
      ⟨⟨rfl, rfl, rfl, rfl, rfl, rfl⟩, rfl, rfl⟩⟩
  · rw [if_neg reaches]
    obtain ⟨state, loaded⟩ := intact.loadable log.head within (Nat.le_refl _)
    have headState := DeltaLog.logState_version loaded
    obtain ⟨after, checked, attachedAfter, remembers, _cache⟩ :=
      checkIdentity_semantics attached loaded
    have notShorter : ¬state.version < stream.versionFloor := by
      rw [headState]
      exact Nat.not_lt_of_le attached.floor
    have resolved : log.contiguousFrom state.version = true := by
      rw [headState]
      exact contiguousFrom_head intact.nonempty intact.headKept
    simp only [DeltaLog.logState_none, loaded, notShorter, if_false, checked, resolved, if_true]
    refine ⟨_, rfl, ⟨?_, attachedAfter.identity⟩, remembers.trans
      ⟨⟨rfl, rfl, rfl, rfl, rfl, rfl⟩, rfl, rfl⟩⟩
    exact Nat.le_of_eq headState

theorem schemaAt_semantics {log : DeltaLog ρ} {stream : LogStreamBuilder} {version : Nat}
    {state : TableState} (attached : Attached log stream)
    (loaded : log.logState (some version) = .ok state) :
    ∃ schema after, stream.schemaAt log version = .ok (schema, after) ∧ Attached log after ∧
      Remembers stream after := by
  unfold LogStreamBuilder.schemaAt
  cases cached : stream.schemaCache.lookup version with
  | some schema => exact ⟨schema, stream, rfl, attached, .refl stream⟩
  | none =>
      obtain ⟨after, checked, attachedAfter, remembers, _cache⟩ :=
        checkIdentity_semantics attached loaded
      simp only [loaded, checked]
      exact ⟨_, _, rfl, ⟨attachedAfter.floor, attachedAfter.identity⟩,
        remembers.trans ⟨⟨rfl, rfl, rfl, rfl, rfl, rfl⟩, rfl, rfl⟩⟩

/-- What a call comes to, read through `readable`. -/
inductive CallSpec (log : DeltaLog ρ) (readable : Nat) (before after : LogStreamBuilder) :
    Except Error (Option (LogBatch ρ)) → Prop
  | beyond (ahead : readable < before.cursor.version) (cursor : after.cursor = before.cursor) :
      CallSpec log readable before after (.ok none)
  | passed (within : before.cursor.version ≤ readable)
      (cursor : after.cursor = StreamCursor.atVersion (readable + 1))
      (silent : consumed log before.policy after.cursor =
        consumed log before.policy before.cursor)
      (accepted : ∀ version, before.cursor.version ≤ version → version ≤ readable →
        refusal log before (before.cursor.meets version) = none) :
      CallSpec log readable before after (.ok none)
  | batch (gathered : Gathered ρ) (batch : LogBatch ρ)
      (within : before.cursor.version ≤ readable)
      (gathering : Gathering log before before.cursor readable gathered)
      (ending : Ending log before before.cursor readable gathered)
      (carrying : gathered.files ≠ [])
      (cursor : after.cursor = gathered.cursor)
      (start : batch.start = before.cursor)
      (finish : batch.end_ = gathered.cursor)
      (files : batch.files = gathered.files.map Prod.snd)
      (versions : batch.fileVersions = gathered.files.map Prod.fst)
      (through : gathered.through = some batch.throughVersion)
      (timestamp : batch.throughLogTimestamp = gathered.throughLogTimestamp) :
      CallSpec log readable before after (.ok (some batch))
  | refused (gathered : Gathered ρ) (error : Error)
      (between : Between log before before.cursor readable gathered)
      (within : gathered.cursor.version ≤ readable)
      (found : refusal log before gathered.cursor = some error)
      (reached : gathered.files = [] ∨ endsCallAtOnce error = true)
      (cursor : after.cursor = before.cursor) :
      CallSpec log readable before after (.error error)

theorem readableThrough_le (stopAfter : Option Nat) (latest : Nat) :
    readableThrough stopAfter latest ≤ latest := by
  cases stopAfter with
  | none => exact Nat.le_refl _
  | some stop => exact Nat.min_le_right _ _

/-- What a call leaves of its reader, apart from where it stands. -/
structure CallEffect (log : DeltaLog ρ) (before after : LogStreamBuilder)
    (outcome : Except Error (Option (LogBatch ρ))) : Prop
    extends SameSettings before after where
  stopAfter : after.stopAfter = before.stopAfter
  learns : Learns log before.identity after.identity
  cache : ∀ entry, entry ∈ after.schemaCache → entry ∈ before.schemaCache ∨
    ∃ batch, outcome = .ok (some batch) ∧ entry.1 = batch.throughVersion
  /-- A batch whose schema was not at hand has checked the table it was read from. -/
  recognized : ∀ batch, outcome = .ok (some batch) →
    (before.schemaCache.lookup batch.throughVersion).isSome = true ∨
      ∃ state, log.logState (some batch.throughVersion) = .ok state ∧
        (state.metadata.id.isSome = true → ∀ seenAt was, before.identity = some (seenAt, was) →
          ∃ anywhere, IdentifiedAt log anywhere was)

private theorem CallEffect.still {log : DeltaLog ρ} {before after : LogStreamBuilder}
    {outcome : Except Error (Option (LogBatch ρ))}
    (same : after = { before with cursor := after.cursor })
    (empty : ∀ batch, outcome ≠ .ok (some batch)) : CallEffect log before after outcome where
  toSameSettings := by
    rw [same]
    exact ⟨rfl, rfl, rfl, rfl, rfl, rfl⟩
  stopAfter := by rw [same]
  learns := by
    rw [same]
    exact .nothing _
  cache := by
    intro entry member
    rw [same] at member
    exact Or.inl member
  recognized := by
    intro batch impossible
    exact absurd impossible (empty batch)

/-- The schema of a batch could not be loaded from the table it was read from. -/
def Unloaded (log : DeltaLog ρ) (readable : Nat) (stream : LogStreamBuilder)
    (outcome : Except Error (Option (LogBatch ρ))) : Prop :=
  ∃ version error, stream.cursor.version ≤ version ∧ version ≤ readable ∧
    stream.schemaAt log version = .error error ∧ outcome = .error error

theorem pull_semantics (log : DeltaLog ρ) (stream : LogStreamBuilder) (budget : Option Nat)
    (latest : Nat) :
    let after := (pull log budget latest stream).2
    let outcome := (pull log budget latest stream).1
    (CallSpec log (readableThrough stream.stopAfter latest) stream after outcome ∨
        Unloaded log (readableThrough stream.stopAfter latest) stream outcome) ∧
      CallEffect log stream after outcome ∧ after.versionFloor = stream.versionFloor := by
  unfold pull
  generalize readableThrough stream.stopAfter latest = readable at *
  by_cases ahead : readable < stream.cursor.version
  · simp only [if_pos ahead]
    exact ⟨Or.inl (.beyond ahead rfl), .still rfl nofun, trivial⟩
  · simp only [if_neg ahead]
    have within : stream.cursor.version ≤ readable := Nat.le_of_not_lt ahead
    have spec := gather_semantics log stream budget stream.cursor readable
      (readable + 1 - stream.cursor.version) _
      (gathering_start log stream stream.cursor readable (by omega)) (by
        change stream.cursor.version + (readable + 1 - stream.cursor.version) = readable + 1
        omega)
    generalize gather log stream budget (readable + 1 - stream.cursor.version) _ = outcome at *
    cases spec with
    | refused gathered error between reachable found reached =>
        exact ⟨Or.inl (.refused gathered error between reachable found reached rfl),
          .still rfl nofun, rfl⟩
    | handed gathered gathering ending =>
        simp only [deliver]
        cases empty : gathered.files with
        | nil =>
            simp only [List.isEmpty_nil, if_true]
            have finished : gathered.cursor = StreamCursor.atVersion (readable + 1) := by
              cases ending with
              | exhausted standing reached =>
                  rw [standing, reached, StreamCursor.meets_later (by omega)]
              | pinned mode carrying standing => exact absurd empty carrying
              | full standing carrying postponed notSilent => exact absurd empty carrying
              | split count carrying allowed oversized accepted cursor positive within =>
                  exact absurd empty carrying
            refine ⟨Or.inl (.passed within finished ?_ ?_), .still rfl nofun, trivial⟩
            · have handed := gathering.handed
              rw [empty, List.append_nil] at handed
              exact handed
            · intro version low high
              refine gathering.passed version low ?_
              rw [finished, StreamCursor.atVersion_version]
              omega
        | cons first rest =>
            have carrying : gathered.files ≠ [] := by
              rw [empty]
              exact List.cons_ne_nil _ _
            have last := List.getLast_mem carrying
            have through : gathered.through = some (gathered.files.getLast carrying).1 := by
              rw [gathering.through, List.getLast?_eq_some_getLast carrying, Option.map_some]
            obtain ⟨low, high⟩ := gathering.versions _ last
            simp only [List.isEmpty_cons, Bool.false_eq_true, if_false, through,
              Option.getD_some]
            cases read : stream.schemaAt log (gathered.files.getLast carrying).1 with
            | error error =>
                exact ⟨Or.inr ⟨_, error, low, high, read, rfl⟩, .still rfl nofun, rfl⟩
            | ok found =>
                obtain ⟨schema, loaded⟩ := found
                obtain ⟨learns, shape, cache, recognized⟩ := schemaAt_ok read
                refine ⟨Or.inl (.batch gathered _ within gathering ending carrying rfl rfl rfl
                  (congrArg (List.map Prod.snd) empty.symm)
                  (congrArg (List.map Prod.fst) empty.symm) through rfl), ?_, ?_⟩
                · exact
                    { toSameSettings := by
                        rw [shape]
                        exact ⟨rfl, rfl, rfl, rfl, rfl, rfl⟩
                      stopAfter := by rw [shape]
                      learns := learns
                      cache := by
                        intro entry member
                        rcases cache entry member with kept | fresh
                        · exact Or.inl kept
                        · exact Or.inr ⟨_, rfl, fresh⟩
                      recognized := by
                        rintro batch ⟨⟩
                        exact recognized }
                · rw [shape]

private theorem SameSettings.gathering {log : DeltaLog ρ} {before after : LogStreamBuilder}
    {start : StreamCursor} {readable : Nat} {gathered : Gathered ρ}
    (same : SameSettings before after)
    (gathering : Gathering log after start readable gathered) :
    Gathering log before start readable gathered where
  handed := by
    rw [← same.policy]
    exact gathering.handed
  bytes := gathering.bytes
  notBefore := gathering.notBefore
  notBeyond := gathering.notBeyond
  versions := gathering.versions
  through := gathering.through
  stamp := by
    rw [← same.pinning]
    exact gathering.stamp
  single := by
    rw [← same.pinning]
    exact gathering.single
  passed := by
    intro version low high
    rw [← same.refusal]
    exact gathering.passed version low high

private theorem SameSettings.between {log : DeltaLog ρ} {before after : LogStreamBuilder}
    {start : StreamCursor} {readable : Nat} {gathered : Gathered ρ}
    (same : SameSettings before after) (between : Between log after start readable gathered) :
    Between log before start readable gathered where
  toGathering := same.gathering between.toGathering
  standing := between.standing
  pinned := by
    rw [← same.pinning]
    exact between.pinned

private theorem SameSettings.ending {log : DeltaLog ρ} {before after : LogStreamBuilder}
    {start : StreamCursor} {readable : Nat} {gathered : Gathered ρ}
    (same : SameSettings before after) (ending : Ending log after start readable gathered) :
    Ending log before start readable gathered := by
  have fitting : ∀ files : List (AddFile ρ), after.fits files = before.fits files := by
    intro files
    unfold LogStreamBuilder.fits
    rw [same.maxFiles, same.maxBytes]
  cases ending with
  | exhausted standing reached => exact .exhausted standing reached
  | pinned mode carrying standing => exact .pinned (by rw [← same.pinning, mode]) carrying standing
  | full standing carrying postponed notSilent =>
      rw [same.policy, same.refusal] at notSilent
      simp only [same.refusal] at postponed
      exact .full standing carrying postponed notSilent
  | split count carrying allowed oversized accepted cursor positive within =>
      rw [same.policy, fitting] at oversized
      rw [same.refusal] at accepted
      exact .split count carrying (by rw [← same.splitting, allowed]) oversized accepted cursor
        positive within

private theorem Remembers.call {log : DeltaLog ρ} {before polled after : LogStreamBuilder}
    {readable : Nat} {outcome : Except Error (Option (LogBatch ρ))}
    (remembers : Remembers before polled) (spec : CallSpec log readable polled after outcome) :
    CallSpec log readable before after outcome := by
  have same := remembers.toSameSettings
  cases spec with
  | beyond ahead cursor =>
      rw [remembers.cursor] at ahead cursor
      exact .beyond ahead cursor
  | passed within cursor silent accepted =>
      rw [remembers.cursor] at within silent
      rw [same.policy] at silent
      simp only [remembers.cursor, same.refusal] at accepted
      exact .passed within cursor silent accepted
  | batch gathered batch within gathering ending carrying cursor start finish files versions
      through timestamp =>
      rw [remembers.cursor] at within gathering ending start
      exact .batch gathered batch within (same.gathering gathering) (same.ending ending) carrying
        cursor start finish files versions through timestamp
  | refused gathered error between within found reached cursor =>
      rw [remembers.cursor] at between cursor
      rw [same.refusal] at found
      exact .refused gathered error (same.between between) within found reached cursor

private theorem CallEffect.polled {log : DeltaLog ρ} {before polled after : LogStreamBuilder}
    {outcome : Except Error (Option (LogBatch ρ))} (remembers : Remembers before polled)
    (learns : Learns log before.identity polled.identity)
    (cache : polled.schemaCache = before.schemaCache)
    (effect : CallEffect log polled after outcome) : CallEffect log before after outcome where
  toSameSettings := remembers.toSameSettings.trans effect.toSameSettings
  stopAfter := effect.stopAfter.trans remembers.stopAfter
  learns := learns.trans effect.learns
  cache := by
    rw [← cache]
    exact effect.cache
  recognized := by
    intro batch handed
    rw [← cache]
    refine (effect.recognized batch handed).imp_right ?_
    rintro ⟨state, loaded, recognized⟩
    refine ⟨state, loaded, fun present seenAt was same => ?_⟩
    generalize polled.identity = known at learns recognized
    rw [same] at learns
    cases learns with
    | nothing => exact recognized present seenAt was rfl
    | newer _ version _ now identified anywhere => exact anywhere

/-- A call that answers, on any log. -/
theorem nextBatch_ok {log : DeltaLog ρ} {stream : LogStreamBuilder} {budget : Option Nat}
    {result : Option (LogBatch ρ)} (ok : (nextBatch log budget stream).1 = .ok result) :
    let after := (nextBatch log budget stream).2
    CallSpec log (readableThrough stream.stopAfter log.head) stream after (.ok result) ∧
      CallEffect log stream after (.ok result) ∧ after.versionFloor = log.head := by
  unfold nextBatch at ok ⊢
  rcases polled : stream.latestVersion log with ⟨answer, known⟩
  rw [polled] at ok
  cases answer with
  | error error => cases ok
  | ok latest =>
      obtain ⟨atHead, learns, shape⟩ := latestVersion_ok polled
      subst atHead
      simp only at ok ⊢
      have remembers : Remembers stream { known with head := some log.head } := by
        rw [shape]
        exact ⟨⟨rfl, rfl, rfl, rfl, rfl, rfl⟩, rfl, rfl⟩
      have cache : ({ known with head := some log.head } : LogStreamBuilder).schemaCache =
          stream.schemaCache := by rw [shape]
      have floor : ({ known with head := some log.head } : LogStreamBuilder).versionFloor =
          log.head := by rw [shape]
      have learnt : Learns log stream.identity
          ({ known with head := some log.head } : LogStreamBuilder).identity := learns
      generalize ({ known with head := some log.head } : LogStreamBuilder) = now at *
      obtain ⟨spec, effect, unchanged⟩ := pull_semantics log now budget log.head
      rw [ok] at spec effect
      rw [remembers.stopAfter] at spec
      refine ⟨?_, effect.polled remembers learnt cache, unchanged.trans floor⟩
      rcases spec with called | ⟨version, error, _low, _high, _failed, impossible⟩
      · exact remembers.call called
      · cases impossible

/-- Every call on an intact log, whatever the memory budget says. -/
theorem nextBatch_semantics {log : DeltaLog ρ} {stream : LogStreamBuilder}
    (budget : Option Nat) (intact : Intact log (min stream.cursor.version log.head))
    (attached : Attached log stream) :
    let after := (nextBatch log budget stream).2
    CallSpec log (readableThrough stream.stopAfter log.head) stream after
        (nextBatch log budget stream).1 ∧
      Attached log after ∧ SameSettings stream after ∧ after.stopAfter = stream.stopAfter := by
  obtain ⟨polled, latest, attachedPolled, remembers⟩ :=
    latestVersion_semantics intact (Nat.min_le_right _ _) attached
  have learnt : Remembers stream { polled with head := some log.head } :=
    remembers.trans ⟨⟨rfl, rfl, rfl, rfl, rfl, rfl⟩, rfl, rfl⟩
  have attachedNow : Attached log { polled with head := some log.head } :=
    ⟨attachedPolled.floor, attachedPolled.identity⟩
  unfold nextBatch
  simp only [latest]
  generalize ({ polled with head := some log.head } : LogStreamBuilder) = now at *
  obtain ⟨spec, effect, floor⟩ := pull_semantics log now budget log.head
  have headBound := readableThrough_le now.stopAfter log.head
  refine ⟨?_, ⟨?_, effect.learns.kept attachedNow.identity⟩,
    learnt.toSameSettings.trans effect.toSameSettings, effect.stopAfter.trans learnt.stopAfter⟩
  · rcases spec with called | ⟨version, error, low, high, failed, _outcome⟩
    · rw [learnt.stopAfter] at called
      exact learnt.call called
    · rw [learnt.cursor] at low
      obtain ⟨state, loaded⟩ := intact.loadable version (by omega) (by omega)
      obtain ⟨schema, after, read, _attached, _remembers⟩ :=
        schemaAt_semantics attachedNow loaded
      rw [failed] at read
      cases read
  · rw [floor]
    exact attachedNow.floor

end Ddi.Source
