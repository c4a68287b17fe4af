/-
Compaction beside other engines: a log store that reads what was committed since a plan's snapshot
before it writes a commit of the plan.
-/

import Ddi.Delta.Log

namespace Ddi.Compact

open Ddi.Delta (Json)

/-- A line of a commit file, where it is JSON. -/
abbrev Line := Option Json

abbrev CommitFile := List Line

/-- The path a line removes. -/
def removedPath (line : Line) : Option String :=
  ((line.bind (·.get "remove")).bind (·.get "path")).bind Json.asStr

/-- The paths a commit file removes. -/
def removedPaths (commit : CommitFile) : List String := commit.filterMap removedPath

def isDisjoint (theirs ours : List String) : Bool := theirs.all fun path => !ours.contains path

/-! ### The store -/

/-- Where an attempt to write a commit through the guarded handle is. -/
inductive Phase
  | idle
  /-- The commits from `next` up to the version are still to be read; `seen` was the highest version
  known to hold no conflicting remove when the attempt began. -/
  | reading (version : Nat) (commit : CommitFile) (next seen : Nat)
  | ready (version : Nat) (commit : CommitFile) (seen : Nat)

/-- A commit of the handle's that landed. -/
structure Landing where
  version : Nat
  files : List String
  seen : Nat

/-- The log, and the one handle on it whose commits are guarded. -/
structure State where
  commits : List CommitFile
  /-- Commit files that log retention has removed. -/
  reclaimed : Nat → Bool
  /-- The highest version known to hold no conflicting remove. -/
  checked : Nat
  phase : Phase
  landings : List Landing

def State.readCommitEntry (state : State) (version : Nat) : Option CommitFile :=
  if state.reclaimed version then none else state.commits[version]?

/-- A handle on a log, planning on a snapshot of its version. -/
def guarded (commits : List CommitFile) (reclaimed : Nat → Bool) (base : Nat) : State :=
  { commits, reclaimed, checked := base, phase := .idle, landings := [] }

inductive Event
  /-- Another writer's commit lands. -/
  | rival (commit : CommitFile)
  | reclaim (version : Nat)
  /-- An attempt begins: a first one or a retry, of this commit or of another of the plan. -/
  | start (version : Nat) (commit : CommitFile)
  /-- The next commit is read, or there is none left to read. -/
  | look
  /-- The put, which succeeds where the version is still free. -/
  | put
  /-- A read fails, or the process does. -/
  | abandon

def start (state : State) (version : Nat) (commit : CommitFile) : State :=
  if removedPaths commit = [] then { state with phase := .ready version commit state.checked }
  else { state with phase := .reading version commit (state.checked + 1) state.checked }

def look (state : State) : State :=
  match state.phase with
  | .reading version commit next seen =>
      if next < version then
        match state.readCommitEntry next with
        -- A commit the log no longer holds cannot be checked.
        | none => { state with phase := .idle }
        | some theirs =>
            if isDisjoint (removedPaths theirs) (removedPaths commit) then
              { state with phase := .reading version commit (next + 1) seen }
            else { state with phase := .idle }
      else
        { state with
          checked := max state.checked (version - 1)
          phase := .ready version commit seen }
  | _ => state

def put (state : State) : State :=
  match state.phase with
  | .ready version commit seen =>
      if version = state.commits.length then
        { state with
          commits := state.commits ++ [commit]
          phase := .idle
          landings := ⟨version, removedPaths commit, seen⟩ :: state.landings }
      else { state with phase := .idle }
  | _ => state

def step (state : State) : Event → State
  | .rival commit => { state with commits := state.commits ++ [commit] }
  | .reclaim version =>
      { state with reclaimed := fun other => other == version || state.reclaimed other }
  | .start version commit => start state version commit
  | .look => look state
  | .put => put state
  | .abandon => { state with phase := .idle }

def run (state : State) (events : List Event) : State := events.foldl step state

/-! ### What no commit may do -/

/-- The commit of a version removes one of the files. -/
def RemovesAt (commits : List CommitFile) (version : Nat) (files : List String) : Prop :=
  ∃ theirs, commits[version]? = some theirs ∧ ∃ path, path ∈ removedPaths theirs ∧ path ∈ files

/-- No commit of the handle's removes a file that one since the plan's snapshot removed. -/
def Safe (base : Nat) (state : State) : Prop :=
  ∀ landing, landing ∈ state.landings → ∀ version, base < version → version < landing.version →
    ¬ RemovesAt state.commits version landing.files

/-- The same of the versions the handle had checked, for whatever files, when it began to write. -/
def NoneSkipped (base : Nat) (state : State) : Prop :=
  ∀ landing, landing ∈ state.landings → ∀ version, base < version → version < landing.version →
    version ≤ landing.seen → ¬ RemovesAt state.commits version landing.files

/-! ### What the guard has read -/

/-- The versions between two are in the log and remove none of the files. -/
def Clear (commits : List CommitFile) (seen next : Nat) (files : List String) : Prop :=
  ∀ version, seen < version → version < next →
    version < commits.length ∧ ¬ RemovesAt commits version files

theorem removesAt_append {commits : List CommitFile} {version : Nat} {files : List String}
    (within : version < commits.length) (more : List CommitFile) :
    RemovesAt (commits ++ more) version files ↔ RemovesAt commits version files := by
  unfold RemovesAt
  rw [List.getElem?_append_left within]

theorem Clear.append {commits : List CommitFile} {seen next : Nat} {files : List String}
    (clear : Clear commits seen next files) (more : List CommitFile) :
    Clear (commits ++ more) seen next files := by
  intro version above below
  obtain ⟨within, keeps⟩ := clear version above below
  constructor
  · rw [List.length_append]
    omega
  · rw [removesAt_append within more]
    exact keeps

theorem not_removesAt_nil (commits : List CommitFile) (version : Nat) :
    ¬ RemovesAt commits version [] := by
  rintro ⟨_theirs, _found, _path, _removed, member⟩
  cases member

theorem Clear.next {state : State} {seen next : Nat} {files : List String}
    (clear : Clear state.commits seen next files) {theirs : CommitFile}
    (found : state.readCommitEntry next = some theirs)
    (disjoint : isDisjoint (removedPaths theirs) files = true) :
    Clear state.commits seen (next + 1) files := by
  intro version above below
  by_cases here : version = next
  · subst here
    unfold State.readCommitEntry at found
    split at found
    · cases found
    · constructor
      · exact (List.getElem?_eq_some_iff.mp found).1
      · rintro ⟨other, found', path, removed, member⟩
        rw [found] at found'
        cases found'
        have apart := List.all_eq_true.mp disjoint path removed
        simp [member] at apart
  · exact clear version above (by omega)

/-- What holds of an attempt under way, and of every commit that landed. -/
structure Checked (state : State) : Prop where
  reading : ∀ version commit next seen, state.phase = .reading version commit next seen →
    Clear state.commits seen next (removedPaths commit)
  ready : ∀ version commit seen, state.phase = .ready version commit seen →
    removedPaths commit = [] ∨ Clear state.commits seen version (removedPaths commit)
  landed : ∀ landing, landing ∈ state.landings → landing.version < state.commits.length ∧
    ∀ version, landing.seen < version → version < landing.version →
      ¬ RemovesAt state.commits version landing.files

theorem guarded_checked (commits : List CommitFile) (reclaimed : Nat → Bool) (base : Nat) :
    Checked (guarded commits reclaimed base) := by
  constructor
  · intro version commit next seen phase
    cases phase
  · intro version commit seen phase
    cases phase
  · intro landing member
    cases member

theorem Checked.idle {state : State} (checked : Checked state) :
    Checked { state with phase := .idle } := by
  constructor
  · intro version commit next seen phase
    cases phase
  · intro version commit seen phase
    cases phase
  · exact checked.landed

theorem Checked.append {state : State} (checked : Checked state) (commit : CommitFile) :
    Checked { state with commits := state.commits ++ [commit] } := by
  constructor
  · intro version ours next seen phase
    exact (checked.reading version ours next seen phase).append [commit]
  · intro version ours seen phase
    rcases checked.ready version ours seen phase with none_removed | clear
    · exact Or.inl none_removed
    · exact Or.inr (clear.append [commit])
  · intro landing member
    obtain ⟨within, keeps⟩ := checked.landed landing member
    constructor
    · rw [List.length_append]
      omega
    · intro version above below
      rw [removesAt_append (by omega)]
      exact keeps version above below

theorem Checked.start {state : State} (checked : Checked state) (version : Nat)
    (commit : CommitFile) : Checked (start state version commit) := by
  unfold Compact.start
  split
  · rename_i none_removed
    constructor
    · intro version' commit' next seen phase
      cases phase
    · intro version' commit' seen phase
      cases phase
      exact Or.inl none_removed
    · exact checked.landed
  · constructor
    · intro version' commit' next seen phase
      cases phase
      intro between above below
      omega
    · intro version' commit' seen phase
      cases phase
    · exact checked.landed

theorem Checked.look {state : State} (checked : Checked state) : Checked (look state) := by
  unfold Compact.look
  cases phase : state.phase with
  | idle => exact checked
  | ready version commit seen => exact checked
  | reading version commit next seen =>
      have clear := checked.reading version commit next seen phase
      dsimp only
      split
      · cases found : state.readCommitEntry next with
        | none => exact checked.idle
        | some theirs =>
            dsimp only
            split
            · rename_i disjoint
              constructor
              · intro version' commit' next' seen' phase'
                cases phase'
                exact clear.next found disjoint
              · intro version' commit' seen' phase'
                cases phase'
              · exact checked.landed
            · exact checked.idle
      · rename_i exhausted
        constructor
        · intro version' commit' next' seen' phase'
          cases phase'
        · intro version' commit' seen' phase'
          cases phase'
          apply Or.inr
          intro between above below
          exact clear between above (by omega)
        · exact checked.landed

theorem Checked.put {state : State} (checked : Checked state) : Checked (put state) := by
  unfold Compact.put
  cases phase : state.phase with
  | idle => exact checked
  | reading version commit next seen => exact checked
  | ready version commit seen =>
      dsimp only
      split
      · rename_i free
        have longer := (checked.append commit).idle
        constructor
        · exact longer.reading
        · exact longer.ready
        · intro landing member
          rcases List.mem_cons.mp member with rfl | earlier
          · constructor
            · rw [List.length_append, free]
              exact Nat.lt_add_one _
            · intro between above below
              rcases checked.ready version commit seen phase with none_removed | clear
              · rw [none_removed]
                exact not_removesAt_nil _ between
              · exact (clear.append [commit] between above below).2
          · exact longer.landed landing earlier
      · exact checked.idle

theorem Checked.step {state : State} (checked : Checked state) (event : Event) :
    Checked (step state event) := by
  cases event with
  | rival commit => exact checked.append commit
  | reclaim version =>
      constructor
      · exact checked.reading
      · exact checked.ready
      · exact checked.landed
  | start version commit => exact checked.start version commit
  | look => exact checked.look
  | put => exact checked.put
  | abandon => exact checked.idle

theorem Checked.run {state : State} (checked : Checked state) (events : List Event) :
    Checked (run state events) := by
  induction events generalizing state with
  | nil => exact checked
  | cons event events ih => exact ih (checked.step event)

/-- In every run the commits of a guarded handle are safe exactly when none of them removes a file
that was removed in a version the handle had checked before, for other files. -/
theorem guarded_safe_iff (commits : List CommitFile) (reclaimed : Nat → Bool) (base : Nat)
    (events : List Event) :
    Safe base (run (guarded commits reclaimed base) events) ↔
      NoneSkipped base (run (guarded commits reclaimed base) events) := by
  have checked := (guarded_checked commits reclaimed base).run events
  constructor
  · intro safe landing member version above below _seen
    exact safe landing member version above below
  · intro none_skipped landing member version above below
    by_cases skipped : version ≤ landing.seen
    · exact none_skipped landing member version above below skipped
    · exact (checked.landed landing member).2 version (by omega) below

/-! ### One commit and its retries -/

/-- Attempts that all remove the same files, if any. -/
def OneCommit (files : List String) (events : List Event) : Prop :=
  ∀ version commit, .start version commit ∈ events →
    removedPaths commit = [] ∨ removedPaths commit = files

/-- What has been checked has been checked for these files. -/
structure CheckedFor (base : Nat) (files : List String) (state : State) : Prop where
  checked : Clear state.commits base (state.checked + 1) files
  reading : ∀ version commit next seen, state.phase = .reading version commit next seen →
    removedPaths commit = files ∧ Clear state.commits base next files
  ready : ∀ version commit seen, state.phase = .ready version commit seen →
    removedPaths commit = [] ∨ removedPaths commit = files ∧ Clear state.commits base version files
  landed : ∀ landing, landing ∈ state.landings → landing.version < state.commits.length ∧
    ∀ version, base < version → version < landing.version →
      ¬ RemovesAt state.commits version landing.files

theorem CheckedFor.append {base : Nat} {files : List String} {state : State}
    (holds : CheckedFor base files state) (commit : CommitFile) :
    CheckedFor base files { state with commits := state.commits ++ [commit] } := by
  constructor
  · exact holds.checked.append [commit]
  · intro version ours next seen phase
    obtain ⟨same, clear⟩ := holds.reading version ours next seen phase
    exact ⟨same, clear.append [commit]⟩
  · intro version ours seen phase
    rcases holds.ready version ours seen phase with none_removed | ⟨same, clear⟩
    · exact Or.inl none_removed
    · exact Or.inr ⟨same, clear.append [commit]⟩
  · intro landing member
    obtain ⟨within, keeps⟩ := holds.landed landing member
    constructor
    · rw [List.length_append]
      omega
    · intro version above below
      rw [removesAt_append (by omega)]
      exact keeps version above below

theorem CheckedFor.idle {base : Nat} {files : List String} {state : State}
    (holds : CheckedFor base files state) : CheckedFor base files { state with phase := .idle } := by
  constructor
  · exact holds.checked
  · intro version commit next seen phase
    cases phase
  · intro version commit seen phase
    cases phase
  · exact holds.landed

theorem CheckedFor.step {base : Nat} {files : List String} {state : State}
    (holds : CheckedFor base files state) {event : Event}
    (one : ∀ version commit, event = .start version commit →
      removedPaths commit = [] ∨ removedPaths commit = files) :
    CheckedFor base files (step state event) := by
  cases event with
  | rival commit => exact holds.append commit
  | reclaim version => exact ⟨holds.checked, holds.reading, holds.ready, holds.landed⟩
  | start version commit =>
      change CheckedFor base files (start state version commit)
      unfold Compact.start
      split
      · rename_i none_removed
        constructor
        · exact holds.checked
        · intro version' commit' next seen phase
          cases phase
        · intro version' commit' seen phase
          cases phase
          exact Or.inl none_removed
        · exact holds.landed
      · rename_i removes
        constructor
        · exact holds.checked
        · intro version' commit' next seen phase
          cases phase
          rcases one version commit rfl with none_removed | same
          · exact absurd none_removed removes
          · exact ⟨same, holds.checked⟩
        · intro version' commit' seen phase
          cases phase
        · exact holds.landed
  | look =>
      change CheckedFor base files (look state)
      unfold Compact.look
      cases phase : state.phase with
      | idle => exact holds
      | ready version commit seen => exact holds
      | reading version commit next seen =>
          obtain ⟨same, clear⟩ := holds.reading version commit next seen phase
          dsimp only
          split
          · cases found : state.readCommitEntry next with
            | none => exact holds.idle
            | some theirs =>
                dsimp only
                split
                · rename_i disjoint
                  rw [same] at disjoint
                  constructor
                  · exact holds.checked
                  · intro version' commit' next' seen' phase'
                    cases phase'
                    exact ⟨same, clear.next found disjoint⟩
                  · intro version' commit' seen' phase'
                    cases phase'
                  · exact holds.landed
                · exact holds.idle
          · rename_i exhausted
            constructor
            · intro between above below
              dsimp only at below
              by_cases former : between < state.checked + 1
              · exact holds.checked between above former
              · exact clear between above (by omega)
            · intro version' commit' next' seen' phase'
              cases phase'
            · intro version' commit' seen' phase'
              cases phase'
              apply Or.inr
              exact ⟨same, fun between above below => clear between above (by omega)⟩
            · exact holds.landed
  | put =>
      change CheckedFor base files (put state)
      unfold Compact.put
      cases phase : state.phase with
      | idle => exact holds
      | reading version commit next seen => exact holds
      | ready version commit seen =>
          dsimp only
          split
          · rename_i free
            have longer := (holds.append commit).idle
            constructor
            · exact longer.checked
            · exact longer.reading
            · exact longer.ready
            · intro landing member
              rcases List.mem_cons.mp member with rfl | earlier
              · constructor
                · rw [List.length_append, free]
                  exact Nat.lt_add_one _
                · intro between above below
                  rcases holds.ready version commit seen phase with none_removed | ⟨same, clear⟩
                  · rw [none_removed]
                    exact not_removesAt_nil _ between
                  · rw [same]
                    exact (clear.append [commit] between above below).2
              · exact longer.landed landing earlier
          · exact holds.idle
  | abandon => exact holds.idle

theorem CheckedFor.run {base : Nat} {files : List String} {state : State}
    (holds : CheckedFor base files state) {events : List Event} (one : OneCommit files events) :
    CheckedFor base files (run state events) := by
  induction events generalizing state with
  | nil => exact holds
  | cons event events ih =>
      apply ih
      · apply holds.step
        rintro version commit rfl
        exact one version commit List.mem_cons_self
      · intro version commit member
        exact one version commit (List.mem_cons_of_mem event member)

/-- A plan that is one commit, however often it is retried, is safe. -/
theorem guarded_safe_of_oneCommit (commits : List CommitFile) (reclaimed : Nat → Bool) (base : Nat)
    {files : List String} {events : List Event} (one : OneCommit files events) :
    Safe base (run (guarded commits reclaimed base) events) := by
  have initial : CheckedFor base files (guarded commits reclaimed base) := by
    constructor
    · intro version above below
      change version < base + 1 at below
      omega
    · intro version commit next seen phase
      cases phase
    · intro version commit seen phase
      cases phase
    · intro landing member
      cases member
  intro landing member version above below
  exact ((initial.run one).landed landing member).2 version above below

/-! ### A plan of two commits -/

def removing (path : String) : CommitFile :=
  [some (.obj [("remove", .obj [("path", .str path), ("dataChange", .bool false)])])]

/-- Another engine compacts `b`; then the two commits of a plan land that compact `a` and `b`. -/
def twoCommits : List Event :=
  [.rival (removing "b"), .start 2 (removing "a"), .look, .look, .put,
    .start 3 (removing "b"), .look, .look, .put]

theorem twoCommits_not_safe : ¬ Safe 0 (run (guarded [[]] (fun _ => false) 0) twoCommits) := by
  intro safe
  apply safe ⟨3, ["b"], 1⟩ (List.mem_cons_self) 1 (by decide) (by decide)
  exact ⟨removing "b", rfl, "b", List.mem_singleton.mpr rfl, List.mem_singleton.mpr rfl⟩

end Ddi.Compact
