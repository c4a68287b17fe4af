/-
What the handle of a replayed log sees: all that it wrote and every other file, and no checkpoint
of another engine for as long as no write leaves one under a path that the handle remembers.
-/

import Ddi.Storage.WithoutCheckpoints

namespace Ddi.Storage

variable {β : Type}

namespace WithoutCheckpoints

/-- Every checkpoint artefact that can be read or listed was last written through the handle. -/
structure OwnOnly (store : WithoutCheckpoints β) : Prop where
  read : ∀ path file, isCheckpointArtefact path = true → store.getOpts path = some file →
    file.through = true
  listed : ∀ root path file, isCheckpointArtefact path = true → (path, file) ∈ store.list root →
    file.through = true
  listedAfter : ∀ root offset path file, isCheckpointArtefact path = true →
    (path, file) ∈ store.listWithOffset root offset → file.through = true
  listedRight : ∀ root path file, isCheckpointArtefact path = true →
    (path, file) ∈ (store.listWithDelimiter root).objects → file.through = true

/-- Every file that is no checkpoint artefact is seen as it is stored. -/
structure OthersAsStored (store : WithoutCheckpoints β) : Prop where
  read : ∀ path, isCheckpointArtefact path = false → store.getOpts path = store.inner.get path
  listed : ∀ root, (store.list root).filter (fun entry => !isCheckpointArtefact entry.1) =
    (store.inner.list root).filter fun entry => !isCheckpointArtefact entry.1
  listedAfter : ∀ root offset,
    (store.listWithOffset root offset).filter (fun entry => !isCheckpointArtefact entry.1) =
      (store.inner.listWithOffset root offset).filter fun entry => !isCheckpointArtefact entry.1
  listedRight : ∀ root, (store.listWithDelimiter root).objects.filter
      (fun entry => !isCheckpointArtefact entry.1) =
    (store.inner.listWithDelimiter root).objects.filter fun entry =>
      !isCheckpointArtefact entry.1

/-- Every checkpoint artefact last written through the handle is seen as it is stored. -/
structure StaysVisible (store : WithoutCheckpoints β) : Prop where
  read : ∀ path file, isCheckpointArtefact path = true → store.inner.get path = some file →
    file.through = true → store.getOpts path = some file
  listed : ∀ root path file, isCheckpointArtefact path = true → file.through = true →
    (path, file) ∈ store.inner.list root → (path, file) ∈ store.list root
  listedAfter : ∀ root offset path file, isCheckpointArtefact path = true → file.through = true →
    (path, file) ∈ store.inner.listWithOffset root offset →
      (path, file) ∈ store.listWithOffset root offset
  listedRight : ∀ root path file, isCheckpointArtefact path = true → file.through = true →
    (path, file) ∈ (store.inner.listWithDelimiter root).objects →
      (path, file) ∈ (store.listWithDelimiter root).objects

/-- No file of another engine stands where the handle remembers a checkpoint artefact. -/
def Clear (store : WithoutCheckpoints β) : Prop :=
  ∀ path file, path ∈ store.ours → store.inner.get path = some file → file.through = true

/-- What is remembered: artefacts alone, and all that were written through the handle or may be
by an upload. -/
structure Tracked (store : WithoutCheckpoints β) : Prop where
  artefacts : ∀ path ∈ store.ours, isCheckpointArtefact path = true
  written : ∀ path file, isCheckpointArtefact path = true → store.inner.get path = some file →
    file.through = true → path ∈ store.ours
  uploads : ∀ path ∈ store.uploads, isCheckpointArtefact path = true → path ∈ store.ours

end WithoutCheckpoints

/-- An event leaves no checkpoint artefact of another engine where the handle remembers one. -/
def CleanStep (store : WithoutCheckpoints β) : Event β → Prop
  -- A write through the handle lands, or what it leaves in place is no other engine's.
  | .put location _ mode fault => isCheckpointArtefact location = true →
      (mode.lands (store.inner.get location) && !fault) = false →
        ∀ file, store.inner.get location = some file → file.through = true
  | .startMultipart location => isCheckpointArtefact location = true →
      ∀ file, store.inner.get location = some file → file.through = true
  | .copy source target mode fault => isCheckpointArtefact target = true →
      ((store.inner.get source).isSome && mode.lands (store.inner.get target) && !fault) = false →
        ∀ file, store.inner.get target = some file → file.through = true
  -- Another engine writes no artefact that the handle remembers.
  | .otherPut location _ mode fault =>
      (mode.lands (store.inner.get location) && !fault) = true → location ∉ store.ours
  | .complete _ _ | .delete _ | .otherDelete _ => True

/-- Every event of a run is clean where it happens. -/
def CleanRun (store : WithoutCheckpoints β) : List (Event β) → Prop
  | [] => True
  | event :: events => CleanStep store event ∧ CleanRun (step store event) events

namespace WithoutCheckpoints

variable {store : WithoutCheckpoints β}

theorem hidden_iff (path : Path) :
    store.hidden path = true ↔ isCheckpointArtefact path = true ∧ path ∉ store.ours := by
  unfold hidden
  rw [Bool.and_eq_true, Bool.not_eq_true', List.contains_eq_mem, decide_eq_false_iff_not]

theorem shown_of_other {path : Path} (other : isCheckpointArtefact path = false) :
    store.hidden path = false := by
  unfold hidden
  rw [other]
  rfl

theorem shown_iff {path : Path} (artefact : isCheckpointArtefact path = true) :
    store.hidden path = false ↔ path ∈ store.ours := by
  rw [← Bool.not_eq_true, hidden_iff]
  simp [artefact]

theorem getOpts_eq_some {path : Path} {file : File β} :
    store.getOpts path = some file ↔
      store.hidden path = false ∧ store.inner.get path = some file := by
  unfold getOpts
  cases store.hidden path with
  | true => simp
  | false => simp

theorem get_of_listed {root path : Path} {file : File β}
    (listed : (path, file) ∈ store.inner.list root) : store.inner.get path = some file :=
  Objects.get_of_mem (List.mem_filter.mp listed).1

theorem get_of_listedAfter {root offset path : Path} {file : File β}
    (listed : (path, file) ∈ store.inner.listWithOffset root offset) :
    store.inner.get path = some file :=
  get_of_listed (List.mem_filter.mp listed).1

theorem get_of_listedRight {root path : Path} {file : File β}
    (listed : (path, file) ∈ (store.inner.listWithDelimiter root).objects) :
    store.inner.get path = some file :=
  get_of_listed (List.mem_filter.mp listed).1

theorem mem_shown {entries : List (Path × File β)} {path : Path} {file : File β} :
    (path, file) ∈ entries.filter (fun entry => !store.hidden entry.1) ↔
      (path, file) ∈ entries ∧ store.hidden path = false := by
  rw [List.mem_filter]
  simp

theorem filter_others (entries : List (Path × File β)) :
    (entries.filter fun entry => !store.hidden entry.1).filter
        (fun entry => !isCheckpointArtefact entry.1) =
      entries.filter fun entry => !isCheckpointArtefact entry.1 := by
  rw [List.filter_filter]
  apply List.filter_congr
  intro entry _
  cases other : isCheckpointArtefact entry.1 with
  | true => rfl
  | false =>
      rw [shown_of_other other]
      rfl

theorem othersAsStored (store : WithoutCheckpoints β) : store.OthersAsStored where
  read path other := by
    unfold getOpts
    rw [shown_of_other other]
    rfl
  listed root := filter_others _
  listedAfter root offset := filter_others _
  listedRight root := filter_others _

theorem Tracked.staysVisible (tracked : store.Tracked) : store.StaysVisible := by
  have shown (path : Path) (file : File β) (artefact : isCheckpointArtefact path = true)
      (held : store.inner.get path = some file) (through : file.through = true) :
      store.hidden path = false :=
    (shown_iff artefact).mpr (tracked.written path file artefact held through)
  constructor
  · intro path file artefact held through
    exact getOpts_eq_some.mpr ⟨shown path file artefact held through, held⟩
  · intro root path file artefact through listed
    exact mem_shown.mpr ⟨listed, shown path file artefact (get_of_listed listed) through⟩
  · intro root offset path file artefact through listed
    exact mem_shown.mpr ⟨listed, shown path file artefact (get_of_listedAfter listed) through⟩
  · intro root path file artefact through listed
    exact mem_shown.mpr ⟨listed, shown path file artefact (get_of_listedRight listed) through⟩

theorem Tracked.ownOnly_iff (tracked : store.Tracked) : store.OwnOnly ↔ store.Clear := by
  constructor
  · intro own path file ours held
    have artefact := tracked.artefacts path ours
    exact own.read path file artefact (getOpts_eq_some.mpr ⟨(shown_iff artefact).mpr ours, held⟩)
  · intro clear
    constructor
    · intro path file artefact read
      obtain ⟨shown, held⟩ := getOpts_eq_some.mp read
      exact clear path file ((shown_iff artefact).mp shown) held
    · intro root path file artefact listed
      obtain ⟨listed, shown⟩ := mem_shown.mp listed
      exact clear path file ((shown_iff artefact).mp shown) (get_of_listed listed)
    · intro root offset path file artefact listed
      obtain ⟨listed, shown⟩ := mem_shown.mp listed
      exact clear path file ((shown_iff artefact).mp shown) (get_of_listedAfter listed)
    · intro root path file artefact listed
      obtain ⟨listed, shown⟩ := mem_shown.mp listed
      exact clear path file ((shown_iff artefact).mp shown) (get_of_listedRight listed)

/-! ### What one operation does -/

@[simp] theorem inner_remember (path : Path) : (store.remember path).inner = store.inner := by
  unfold remember
  split <;> rfl

@[simp] theorem uploads_remember (path : Path) :
    (store.remember path).uploads = store.uploads := by
  unfold remember
  split <;> rfl

theorem mem_remember (path other : Path) : other ∈ (store.remember path).ours ↔
    (other = path ∧ isCheckpointArtefact path = true) ∨ other ∈ store.ours := by
  unfold remember
  split
  · next artefact => simp [artefact]
  · next other => simp [other]

theorem Tracked.remember (tracked : store.Tracked) (path : Path) :
    (store.remember path).Tracked where
  artefacts other ours := by
    cases (mem_remember path other).mp ours with
    | inl own =>
        rw [own.1]
        exact own.2
    | inr held => exact tracked.artefacts other held
  written other file artefact held through := by
    rw [inner_remember] at held
    exact (mem_remember path other).mpr (Or.inr (tracked.written other file artefact held through))
  uploads other inside artefact := by
    rw [uploads_remember] at inside
    exact (mem_remember path other).mpr (Or.inr (tracked.uploads other inside artefact))

/-- Remembering a path shows what stands there. -/
theorem clear_remember (path : Path) : (store.remember path).Clear ↔ store.Clear ∧
    (isCheckpointArtefact path = true →
      ∀ file, store.inner.get path = some file → file.through = true) := by
  constructor
  · intro clear
    constructor
    · intro other file ours held
      exact clear other file ((mem_remember path other).mpr (Or.inr ours))
        (by rwa [inner_remember])
    · intro artefact file held
      exact clear path file ((mem_remember path path).mpr (Or.inl ⟨rfl, artefact⟩))
        (by rwa [inner_remember])
  · intro given other file ours held
    rw [inner_remember] at held
    cases (mem_remember path other).mp ours with
    | inl own =>
        rw [own.1] at held
        exact given.2 own.2 file held
    | inr inside => exact given.1 other file inside held

/-- A file written through the handle, where it is remembered if it is an artefact. -/
theorem Tracked.write (tracked : store.Tracked) {path : Path} (content : β)
    (ours : isCheckpointArtefact path = true → path ∈ store.ours) :
    ({ store with inner := store.inner.write path { content, through := true } } :
      WithoutCheckpoints β).Tracked where
  artefacts := tracked.artefacts
  written other file artefact held through := by
    dsimp only at held ⊢
    rw [Objects.get_write] at held
    split at held
    · next same =>
      rw [same] at artefact ⊢
      exact ours artefact
    · exact tracked.written other file artefact held through
  uploads := tracked.uploads

theorem Clear.write (clear : store.Clear) (path : Path) (content : β) :
    ({ store with inner := store.inner.write path { content, through := true } } :
      WithoutCheckpoints β).Clear := by
  intro other file ours held
  dsimp only at ours held
  rw [Objects.get_write] at held
  split at held
  · cases held
    rfl
  · exact clear other file ours held

theorem mem_remember_self {path : Path} (artefact : isCheckpointArtefact path = true) :
    path ∈ (store.remember path).ours := (mem_remember path path).mpr (Or.inl ⟨rfl, artefact⟩)

/-- A write through the handle is remembered before it lands, if it does. -/
theorem Tracked.attempt (tracked : store.Tracked) (path : Path) (content : β) (lands : Bool) :
    (if lands = true then
      { store.remember path with
        inner := store.inner.write path { content, through := true } }
    else store.remember path).Tracked := by
  split
  · have written := (tracked.remember path).write content mem_remember_self
    rwa [inner_remember] at written
  · exact tracked.remember path

theorem clear_attempt (clear : store.Clear) (path : Path) (content : β) (lands : Bool) :
    (if lands = true then
      { store.remember path with
        inner := store.inner.write path { content, through := true } }
    else store.remember path).Clear ↔
      (isCheckpointArtefact path = true → lands = false →
        ∀ file, store.inner.get path = some file → file.through = true) := by
  cases lands with
  | true =>
      rw [if_pos rfl]
      constructor
      · intro _ _ impossible
        cases impossible
      · intro _ other file ours held
        dsimp only at ours held
        rw [Objects.get_write] at held
        split at held
        · cases held
          rfl
        · next away =>
          cases (mem_remember path other).mp ours with
          | inl own => exact (away own.1).elim
          | inr inside => exact clear other file inside held
  | false =>
      rw [if_neg Bool.false_ne_true, clear_remember]
      constructor
      · exact fun given artefact _ => given.2 artefact
      · exact fun given => ⟨clear, fun artefact => given artefact rfl⟩

theorem Tracked.copyOpts (tracked : store.Tracked) (source target : Path) (mode : PutMode)
    (fault : Bool) : (store.copyOpts source target mode fault).Tracked := by
  unfold WithoutCheckpoints.copyOpts
  dsimp only
  rw [inner_remember]
  cases store.inner.get source with
  | none => exact tracked.remember target
  | some file => exact tracked.attempt target file.content _

theorem clear_copyOpts (clear : store.Clear) (source target : Path) (mode : PutMode)
    (fault : Bool) : (store.copyOpts source target mode fault).Clear ↔
      (isCheckpointArtefact target = true →
        ((store.inner.get source).isSome && mode.lands (store.inner.get target) && !fault) =
          false →
        ∀ file, store.inner.get target = some file → file.through = true) := by
  unfold WithoutCheckpoints.copyOpts
  dsimp only
  rw [inner_remember]
  cases store.inner.get source with
  | none =>
      dsimp only
      rw [clear_remember]
      constructor
      · exact fun given artefact _ => given.2 artefact
      · exact fun given => ⟨clear, fun artefact => given artefact rfl⟩
  | some file =>
      dsimp only
      rw [Option.isSome_some, Bool.true_and]
      exact clear_attempt clear target file.content _

end WithoutCheckpoints

open WithoutCheckpoints

variable {store : WithoutCheckpoints β}

/-- A file written or removed straight by another engine. -/
theorem tracked_inner (tracked : store.Tracked) {inner : Objects (File β)}
    (less : ∀ path file, inner.get path = some file → file.through = true →
      store.inner.get path = some file) :
    ({ store with inner } : WithoutCheckpoints β).Tracked where
  artefacts := tracked.artefacts
  written path file artefact held through :=
    tracked.written path file artefact (less path file held through) through
  uploads := tracked.uploads

theorem get_of_remove {inner : Objects (File β)} {location path : Path} {file : File β}
    (held : (inner.remove location).get path = some file) : inner.get path = some file := by
  rw [Objects.get_remove] at held
  split at held
  · cases held
  · exact held

/-- Every event keeps track of what was written through the handle. -/
theorem step_tracked (tracked : store.Tracked) (event : Event β) : (step store event).Tracked := by
  cases event with
  | put location content mode fault =>
      unfold step putOpts
      dsimp only
      rw [inner_remember]
      exact tracked.attempt location content _
  | startMultipart location =>
      have remembered := tracked.remember location
      refine ⟨remembered.artefacts, remembered.written, ?_⟩
      intro path inside artefact
      cases List.mem_cons.mp inside with
      | inl same =>
          rw [same] at artefact ⊢
          exact mem_remember_self artefact
      | inr held => exact remembered.uploads path held artefact
  | complete location content =>
      unfold step complete
      dsimp only
      split
      · next held =>
        have written := tracked.write content (tracked.uploads location held)
        refine ⟨written.artefacts, written.written, ?_⟩
        exact fun path inside => tracked.uploads path (List.mem_of_mem_erase inside)
      · exact tracked
  | copy source target mode fault => exact tracked.copyOpts source target mode fault
  | delete location => exact tracked_inner tracked fun path file held _ => get_of_remove held
  | otherPut location content mode fault =>
      unfold step
      dsimp only
      split
      · apply tracked_inner tracked
        intro path file held through
        rw [Objects.get_write] at held
        split at held
        · cases held
          cases through
        · exact held
      · exact tracked
  | otherDelete location => exact tracked_inner tracked fun path file held _ => get_of_remove held

theorem clear_remove (clear : store.Clear) (location : Path) :
    ({ store with inner := store.inner.remove location } : WithoutCheckpoints β).Clear :=
  fun path file ours held => clear path file ours (get_of_remove held)

/-- An event shows another engine's checkpoint exactly where it is not clean. -/
theorem step_clear (clear : store.Clear) (event : Event β) :
    (step store event).Clear ↔ CleanStep store event := by
  cases event with
  | put location content mode fault =>
      unfold step putOpts CleanStep
      dsimp only
      rw [inner_remember]
      exact clear_attempt clear location content _
  | startMultipart location =>
      refine (clear_remember location).trans ?_
      exact ⟨fun given => given.2, fun given => ⟨clear, given⟩⟩
  | complete location content =>
      refine iff_of_true ?_ trivial
      unfold step complete
      dsimp only
      split
      · exact clear.write location content
      · exact clear
  | copy source target mode fault => exact clear_copyOpts clear source target mode fault
  | delete location => exact iff_of_true (clear_remove clear location) trivial
  | otherPut location content mode fault =>
      unfold step CleanStep
      dsimp only
      cases lands : mode.lands (store.inner.get location) && !fault with
      | false =>
          rw [if_neg Bool.false_ne_true]
          exact iff_of_true clear fun impossible => by cases impossible
      | true =>
          rw [if_pos rfl]
          constructor
          · intro after _ ours
            have through := after location { content, through := false } ours
              (by rw [Objects.get_write, if_pos rfl])
            cases through
          · intro away path file ours held
            dsimp only at ours held
            rw [Objects.get_write] at held
            split at held
            · next same => exact (away rfl (same ▸ ours)).elim
            · exact clear path file ours held
  | otherDelete location => exact iff_of_true (clear_remove clear location) trivial

theorem head_states (events : List (Event β)) : store ∈ states store events := by
  cases events with
  | nil => exact List.mem_cons_self
  | cons event events => exact List.mem_cons_self

/-- In every state of a run all is tracked. -/
theorem run_tracked (tracked : store.Tracked) (events : List (Event β)) :
    ∀ after ∈ states store events, after.Tracked := by
  induction events generalizing store with
  | nil =>
      intro after inside
      rw [List.mem_singleton.mp inside]
      exact tracked
  | cons event events inductionHypothesis =>
      intro after inside
      cases List.mem_cons.mp inside with
      | inl same =>
          rw [same]
          exact tracked
      | inr later => exact inductionHypothesis (step_tracked tracked event) after later

/-- No state of a run shows another engine's checkpoint exactly where every event is clean. -/
theorem run_clear (clear : store.Clear) (events : List (Event β)) :
    (∀ after ∈ states store events, after.Clear) ↔ CleanRun store events := by
  induction events generalizing store with
  | nil =>
      refine iff_of_true ?_ trivial
      intro after inside
      rw [List.mem_singleton.mp inside]
      exact clear
  | cons event events inductionHypothesis =>
      unfold CleanRun states
      rw [List.forall_mem_cons, ← step_clear clear]
      constructor
      · intro given
        have next := given.2 _ (head_states events)
        exact ⟨next, (inductionHypothesis next).mp given.2⟩
      · intro given
        exact ⟨clear, (inductionHypothesis given.1).mpr given.2⟩

/-- A handle that replays the log sees all that it wrote and every other file throughout a run,
and another engine's checkpoint in no state of it exactly where every event is clean. -/
theorem replayed_sees {stored : Objects β} {log : Path}
    (opened : openReplayingTheLog stored log = .ok store) (events : List (Event β)) :
    (∀ after ∈ states store events, after.StaysVisible ∧ after.OthersAsStored) ∧
      ((∀ after ∈ states store events, after.OwnOnly) ↔ CleanRun store events) := by
  have new : store = .new (stored.map fun content => { content, through := false }) := by
    unfold openReplayingTheLog at opened
    split at opened
    · cases opened
    · cases opened
      rfl
  have foreign (path : Path) (file : File β) (held : store.inner.get path = some file) :
      file.through = false := by
    rw [new] at held
    unfold WithoutCheckpoints.new at held
    dsimp only at held
    rw [Objects.get_map] at held
    obtain ⟨content, _, same⟩ := Option.map_eq_some_iff.mp held
    rw [← same]
  have none : store.ours = [] := by
    rw [new]
    rfl
  have tracked : store.Tracked := by
    constructor
    · intro path ours
      rw [none] at ours
      cases ours
    · intro path file _ held through
      rw [foreign path file held] at through
      cases through
    · intro path inside
      rw [new] at inside
      cases inside
  have clear : store.Clear := by
    intro path file ours
    rw [none] at ours
    cases ours
  constructor
  · intro after inside
    exact ⟨(run_tracked tracked events after inside).staysVisible, othersAsStored after⟩
  · rw [← run_clear clear]
    constructor
    · exact fun own after inside =>
        (run_tracked tracked events after inside).ownOnly_iff.mp (own after inside)
    · exact fun all after inside =>
        (run_tracked tracked events after inside).ownOnly_iff.mpr (all after inside)

/-- A table with a first commit, and a checkpoint of another engine. -/
def compacted : Objects String where
  entries := [(⟨["orders", "_delta_log", "00000000000000000000.json"]⟩, "commit"),
    (⟨["orders", "_delta_log", "00000000000000000010.checkpoint.parquet"]⟩, "theirs")]
  distinct := by
    unfold Assoc.Distinct
    decide

def compactedView : WithoutCheckpoints String :=
  .new (compacted.map fun content => { content, through := false })

theorem compacted_opens :
    openReplayingTheLog compacted ⟨["orders", "_delta_log"]⟩ = .ok compactedView := rfl

/-- A checkpoint that is not written because there is one. -/
def lateCheckpoint : Event String :=
  .put ⟨["orders", "_delta_log", "00000000000000000010.checkpoint.parquet"]⟩ "ours" .create false

/-- A put that fails because the file exists shows the file, which is another engine's. -/
theorem lateCheckpoint_shows :
    compactedView.getOpts ⟨["orders", "_delta_log", "00000000000000000010.checkpoint.parquet"]⟩ =
        none ∧
      (step compactedView lateCheckpoint).getOpts
          ⟨["orders", "_delta_log", "00000000000000000010.checkpoint.parquet"]⟩ =
        some { content := "theirs", through := false } ∧
      ¬(step compactedView lateCheckpoint).OwnOnly := by
  have shown : (step compactedView lateCheckpoint).getOpts
      ⟨["orders", "_delta_log", "00000000000000000010.checkpoint.parquet"]⟩ =
        some { content := "theirs", through := false } := rfl
  refine ⟨rfl, shown, fun own => ?_⟩
  have through := own.read _ _ (by decide) shown
  cases through

/-- A checkpoint of the handle's own, and one of another engine after it. -/
def nextCheckpoints : List (Event String) :=
  [.put ⟨["orders", "_delta_log", "00000000000000000020.checkpoint.parquet"]⟩ "ours" .overwrite
      false,
    .otherPut ⟨["orders", "_delta_log", "00000000000000000030.checkpoint.parquet"]⟩ "theirs"
      .overwrite false]

theorem nextCheckpoints_seen :
    (∀ after ∈ states compactedView nextCheckpoints, after.StaysVisible ∧ after.OthersAsStored) ∧
      ((∀ after ∈ states compactedView nextCheckpoints, after.OwnOnly) ↔
        CleanRun compactedView nextCheckpoints) :=
  replayed_sees compacted_opens nextCheckpoints

end Ddi.Storage
