/-
What is in the log of this write while its attempts run. Before each of them every commit of the
write has left the log, so that a commit found after it is the one it landed.
-/

import Ddi.DataQuality.WriteKafka

namespace Ddi.DqKafka

open Ddi.Delta Ddi.Kafka Succession

variable {writeId : String} {own : DqCommit} {place found later latest : Place DqCommit}

/-- A commit of this write, at a version. -/
def Ours (writeId : String) (place : Place DqCommit) (version : Nat) (commit : DqCommit) : Prop :=
  place.log[version]? = some commit ∧ writeIdOf commit = some writeId

/-- The commits of other writers. -/
def Move.Foreign (writeId : String) : Move → Prop
  | .commit other => writeIdOf other ≠ some writeId
  | .clean _first => True

/-- Nothing of this write is added. -/
structure Passes (writeId : String) (place later : Place DqCommit) : Prop where
  onward : place.Extends later
  old : ∀ version commit, Ours writeId later version commit → Ours writeId place version commit

/-- All of this write has left the log. -/
def Gone (writeId : String) (place : Place DqCommit) : Prop :=
  ∀ version commit, Ours writeId place version commit → version < place.first

/-- One commit of this write is added. -/
structure Adds (writeId : String) (own : DqCommit) (place later : Place DqCommit)
    (version : Nat) : Prop where
  onward : place.Extends later
  next : place.log.length ≤ version
  here : Ours writeId later version own
  old : ∀ other commit, Ours writeId later other commit → other ≠ version →
    Ours writeId place other commit

theorem Ours.version_lt {version : Nat} {commit : DqCommit}
    (ours : Ours writeId place version commit) : version < place.log.length :=
  (List.getElem?_eq_some_iff.mp ours.1).1

theorem Ours.stays {version : Nat} {commit : DqCommit} (ours : Ours writeId place version commit)
    (onward : place.Extends later) : Ours writeId later version commit :=
  ⟨onward.get ours.1, ours.2⟩

theorem Passes.refl (place : Place DqCommit) : Passes writeId place place :=
  ⟨Place.Extends.refl place, fun _version _commit ours => ours⟩

theorem Passes.trans (before : Passes writeId place later) (after : Passes writeId later latest) :
    Passes writeId place latest := by
  constructor
  · exact before.onward.trans after.onward
  · intro version commit ours
    exact before.old version commit (after.old version commit ours)

theorem Gone.passes (gone : Gone writeId place) (passes : Passes writeId place later) :
    Gone writeId later := by
  intro version commit ours
  have before := gone version commit (passes.old version commit ours)
  exact Nat.lt_of_lt_of_le before passes.onward.first

theorem Adds.passes {version : Nat} (adds : Adds writeId own place later version)
    (passes : Passes writeId later latest) : Adds writeId own place latest version := by
  constructor
  · exact adds.onward.trans passes.onward
  · exact adds.next
  · exact adds.here.stays passes.onward
  · intro other commit ours away
    exact adds.old other commit (passes.old other commit ours) away

theorem Passes.adds {version : Nat} (passes : Passes writeId place found)
    (adds : Adds writeId own found later version) : Adds writeId own place later version := by
  constructor
  · exact passes.onward.trans adds.onward
  · exact Nat.le_trans passes.onward.log.length_le adds.next
  · exact adds.here
  · intro other commit ours away
    exact passes.old other commit (adds.old other commit ours away)

/-- What landed and has left is all gone. -/
theorem Adds.gone {version : Nat} (adds : Adds writeId own place later version)
    (gone : Gone writeId place) (left : version < later.first) : Gone writeId later := by
  intro other commit ours
  by_cases same : other = version
  · rw [same]
    exact left
  · have before := gone other commit (adds.old other commit ours same)
    exact Nat.lt_of_lt_of_le before adds.onward.first

/-! ### Other writers -/

theorem Move.passes {move : Move} (foreign : move.Foreign writeId) (place : Place DqCommit) :
    Passes writeId place (move.apply place) := by
  cases move with
  | commit other =>
      constructor
      · exact ⟨List.prefix_append _ _, Nat.le_refl _⟩
      · intro version commit ours
        constructor
        · have inside := ours.1
          unfold Move.apply at inside
          dsimp only at inside
          rw [List.getElem?_append] at inside
          split at inside
          · exact inside
          · have held := List.mem_singleton.mp (List.mem_of_getElem? inside)
            rw [held] at ours
            exact absurd ours.2 foreign
        · exact ours.2
  | clean first =>
      constructor
      · exact ⟨List.prefix_refl _, Nat.le_max_left _ _⟩
      · intro version commit ours
        exact ours

theorem applyMoves_passes {moves : List Move} (foreign : ∀ move ∈ moves, move.Foreign writeId)
    (place : Place DqCommit) : Passes writeId place (applyMoves moves place) := by
  unfold applyMoves
  induction moves generalizing place with
  | nil => exact Passes.refl place
  | cons move moves ih =>
      have first := Move.passes (foreign move List.mem_cons_self) place
      exact first.trans (ih (fun other inside => foreign other (List.mem_cons_of_mem _ inside)) _)

theorem land_adds (marked : writeIdOf own = some writeId) (place : Place DqCommit) :
    Adds writeId own place (land own true place) place.log.length := by
  constructor
  · exact ⟨List.prefix_append _ _, Nat.le_refl _⟩
  · exact Nat.le_refl _
  · constructor
    · exact List.getElem?_concat_length
    · exact marked
  · intro other commit ours away
    have within := ours.version_lt
    have inside := ours.1
    unfold land at within inside
    rw [if_pos rfl] at within inside
    dsimp only at within inside
    rw [List.length_append, List.length_singleton] at within
    rw [List.getElem?_append_left (by omega)] at inside
    exact ⟨inside, ours.2⟩

/-! ### One attempt -/

/-- What other writers do at an attempt is theirs. -/
structure Happening.Foreign (writeId : String) (happening : Happening) : Prop where
  before : ∀ move ∈ happening.before, move.Foreign writeId
  after : ∀ move ∈ happening.after, move.Foreign writeId
  reopening : ∀ move ∈ happening.reopening, move.Foreign writeId
  reading : ∀ version, ∀ move ∈ (happening.reading version).1, move.Foreign writeId

/-- An attempt adds one commit or none. -/
def Tried (writeId : String) (own : DqCommit) (place later : Place DqCommit) : Prop :=
  Passes writeId place later ∨ ∃ version, Adds writeId own place later version

theorem Tried.onward (tried : Tried writeId own place later) : place.Extends later := by
  cases tried with
  | inl nothing => exact nothing.onward
  | inr landed =>
      cases landed with
      | intro version adds => exact adds.onward

theorem Tried.passes (tried : Tried writeId own place later)
    (passes : Passes writeId later latest) : Tried writeId own place latest := by
  cases tried with
  | inl nothing => exact Or.inl (nothing.trans passes)
  | inr landed =>
      cases landed with
      | intro version adds => exact Or.inr ⟨version, adds.passes passes⟩

theorem land_tried (marked : writeIdOf own = some writeId) (landed : Bool)
    (place : Place DqCommit) : Tried writeId own place (land own landed place) := by
  cases landed with
  | false => exact Or.inl (Passes.refl place)
  | true => exact Or.inr ⟨_, land_adds marked place⟩

/-- What one attempt leaves behind, by how it ended. -/
def Left (writeId : String) (own : DqCommit) (place later : Place DqCommit) :
    Except Attempt Nat → Prop
  | .ok version => Adds writeId own place later version
  | .error (.failed _cause) => Passes writeId place later
  | .error _other => Tried writeId own place later

theorem tryWriteKafka_left {happening : Happening} (marked : writeIdOf own = some writeId)
    (foreign : happening.Foreign writeId) (place : Place DqCommit) :
    Left writeId own place (tryWriteKafka own happening place).2
      (tryWriteKafka own happening place).1 := by
  have before := applyMoves_passes foreign.before place
  unfold tryWriteKafka
  cases happening.ending with
  | acknowledged =>
      have adds := before.adds (land_adds marked _)
      exact adds.passes (applyMoves_passes foreign.after _)
  | conflict landed detail =>
      have after := applyMoves_passes foreign.after
        (land own landed (applyMoves happening.before place))
      cases land_tried marked landed (applyMoves happening.before place) with
      | inl nothing => exact Or.inl ((before.trans nothing).trans after)
      | inr added =>
          cases added with
          | intro version adds => exact Or.inr ⟨version, (before.adds adds).passes after⟩
  | ambiguous landed cause =>
      have after := applyMoves_passes foreign.after
        (land own landed (applyMoves happening.before place))
      cases land_tried marked landed (applyMoves happening.before place) with
      | inl nothing => exact Or.inl ((before.trans nothing).trans after)
      | inr added =>
          cases added with
          | intro version adds => exact Or.inr ⟨version, (before.adds adds).passes after⟩
  | failed cause => exact before.trans (applyMoves_passes foreign.after _)

/-! ### The search -/

/-- What the search of a range of versions finds out. -/
def Searched (writeId : String) (happening : Happening) (place later : Place DqCommit)
    (since limit : Nat) : Except Error Bool → Prop
  | .ok true => ∃ version commit, place.first ≤ version ∧ Ours writeId later version commit
  | .ok false => ∀ version commit, since ≤ version → version < limit →
      Ours writeId later version commit → version < later.first
  | .error cause => ∃ version, since ≤ version ∧ version < limit ∧
      (happening.reading version).2 = .error cause

theorem readCommitEntry_none {version : Nat} (within : version < place.log.length)
    (missing : readCommitEntry place version = none) : version < place.first := by
  unfold readCommitEntry at missing
  by_cases early : version < place.first
  · exact early
  · rw [if_neg early, List.getElem?_eq_getElem within] at missing
    cases missing

theorem readCommitEntry_some {version : Nat} {commit : DqCommit}
    (read : readCommitEntry place version = some commit) :
    place.first ≤ version ∧ place.log[version]? = some commit := by
  unfold readCommitEntry at read
  by_cases early : version < place.first
  · rw [if_pos early] at read
    cases read
  · rw [if_neg early] at read
    exact ⟨Nat.le_of_not_lt early, read⟩

/-- The search goes down from the newest version: the first it cannot read ends it, and what is
    below has left the log as well. -/
theorem landedAmong_searched {happening : Happening} (foreign : happening.Foreign writeId)
    (since count : Nat) (place : Place DqCommit) (within : since + count ≤ place.log.length) :
    Passes writeId place (landedAmong writeId happening since count place).2 ∧
      Searched writeId happening place (landedAmong writeId happening since count place).2 since
        (since + count) (landedAmong writeId happening since count place).1 := by
  induction count generalizing place with
  | zero =>
      constructor
      · exact Passes.refl place
      · intro version commit above below _ours
        exact absurd above (Nat.not_le_of_lt below)
  | succ count ih =>
      have meanwhile := applyMoves_passes (foreign.reading (since + count)) place
      have longer := meanwhile.onward.log.length_le
      have inside : since + count <
          (applyMoves (happening.reading (since + count)).1 place).log.length :=
        Nat.lt_of_lt_of_le (Nat.lt_of_succ_le within) longer
      unfold landedAmong
      dsimp only
      cases failed : (happening.reading (since + count)).2 with
      | error cause =>
          constructor
          · exact meanwhile
          · exact ⟨since + count, Nat.le_add_right _ _, Nat.lt_succ_self _, failed⟩
      | ok done =>
          dsimp only
          cases read : readCommitEntry
              (applyMoves (happening.reading (since + count)).1 place) (since + count) with
          | none =>
              have gone := readCommitEntry_none inside read
              constructor
              · exact meanwhile
              · intro version commit _above below _ours
                exact Nat.lt_of_le_of_lt (Nat.le_of_lt_succ below) gone
          | some commit =>
              have present := readCommitEntry_some read
              dsimp only
              by_cases same : writeIdOf commit = some writeId
              · rw [if_pos same]
                constructor
                · exact meanwhile
                · exact ⟨since + count, commit,
                    Nat.le_trans meanwhile.onward.first present.1, present.2, same⟩
              · rw [if_neg same]
                have rest := ih _ (Nat.le_of_lt inside)
                constructor
                · exact meanwhile.trans rest.1
                · have searched := rest.2
                  revert searched
                  cases (landedAmong writeId happening since count
                      (applyMoves (happening.reading (since + count)).1 place)).1 with
                  | error cause =>
                      rintro ⟨version, above, below, why⟩
                      exact ⟨version, above, Nat.lt_succ_of_lt below, why⟩
                  | ok answer =>
                      cases answer with
                      | true =>
                          rintro ⟨version, other, above, ours⟩
                          exact ⟨version, other, Nat.le_trans meanwhile.onward.first above, ours⟩
                      | false =>
                          intro others version other above below ours
                          by_cases under : version < since + count
                          · exact others version other above under ours
                          · -- the newest version is another writer's commit
                            have top : version = since + count :=
                              Nat.le_antisymm (Nat.le_of_lt_succ below) (Nat.le_of_not_lt under)
                            rw [top] at ours
                            have before := rest.1.old _ _ ours
                            rw [before.1] at present
                            cases present.2
                            exact absurd ours.2 same

theorem headOf_none (empty : headOf place = none) : place.log = [] := by
  unfold headOf at empty
  split at empty
  · assumption
  · cases empty

theorem headOf_some {head : Nat} (loaded : headOf place = some head) :
    head + 1 = place.log.length := by
  unfold headOf at loaded
  split at loaded
  · cases loaded
  · rename_i first rest held
    cases loaded
    rw [held]
    rfl

/-- The first version that a search looks for. -/
def sinceOf (readVersion : Option Nat) : Nat := readVersion.elim 0 fun version => version + 1

theorem landed_searched {happening : Happening} (foreign : happening.Foreign writeId)
    {readVersion : Option Nat} (within : sinceOf readVersion ≤ place.log.length) :
    Passes writeId place (landed writeId happening readVersion (headOf place) place).2 ∧
      Searched writeId happening place (landed writeId happening readVersion (headOf place) place).2
        (sinceOf readVersion) place.log.length
        (landed writeId happening readVersion (headOf place) place).1 := by
  unfold landed
  cases loaded : headOf place with
  | none =>
      constructor
      · exact Passes.refl place
      · intro version commit _above below _ours
        rw [headOf_none loaded] at below
        exact absurd below (Nat.not_lt_zero _)
  | some head =>
      have newest := headOf_some loaded
      have span : sinceOf readVersion + (head + 1 - sinceOf readVersion) = place.log.length := by
        omega
      have searched := landedAmong_searched foreign (sinceOf readVersion)
        (head + 1 - sinceOf readVersion) place (Nat.le_of_eq span)
      rw [span] at searched
      exact searched

/-- What the search says of the attempt before it. -/
def Decided (writeId : String) (own : DqCommit) (happening : Happening)
    (place latest : Place DqCommit) : Except Error Bool → Prop
  | .ok true => ∃ version, Adds writeId own place latest version
  | .ok false => Gone writeId latest
  | .error cause => ∃ version, version < latest.log.length ∧
      (happening.reading version).2 = .error cause

theorem landed_decided {happening : Happening} (foreign : happening.Foreign writeId)
    (gone : Gone writeId place) (tried : Tried writeId own place later) {readVersion : Option Nat}
    (within : sinceOf readVersion ≤ place.log.length) :
    Decided writeId own happening place
      (landed writeId happening readVersion (headOf later) later).2
      (landed writeId happening readVersion (headOf later) later).1 := by
  have onward := tried.onward
  have searched := landed_searched foreign (Nat.le_trans within onward.log.length_le)
  cases searched with
  | intro passes found =>
      revert found
      cases (landed writeId happening readVersion (headOf later) later).1 with
      | error cause =>
          rintro ⟨version, _above, below, why⟩
          exact ⟨version, Nat.lt_of_lt_of_le below passes.onward.log.length_le, why⟩
      | ok answer =>
          cases answer with
          | true =>
              rintro ⟨version, commit, above, ours⟩
              cases tried with
              | inl nothing =>
                  -- it was there before, and had left the log
                  have before := gone version commit (nothing.old _ _ (passes.old _ _ ours))
                  have early := Nat.lt_of_lt_of_le before onward.first
                  exact absurd above (Nat.not_le_of_lt early)
              | inr landed =>
                  cases landed with
                  | intro own_version adds => exact ⟨own_version, adds.passes passes⟩
          | false =>
              intro others
              cases tried with
              | inl nothing => exact gone.passes (nothing.trans passes)
              | inr landed =>
                  cases landed with
                  | intro version adds =>
                      have below := adds.here.version_lt
                      have left := others version own (Nat.le_trans within adds.next) below
                        (adds.here.stays passes.onward)
                      exact (adds.passes passes).gone gone left

/-! ### Every attempt -/

/-- Every commit of this write is the one it makes. -/
def Mine (writeId : String) (own : DqCommit) (place : Place DqCommit) : Prop :=
  ∀ version commit, Ours writeId place version commit → commit = own

theorem Mine.tried (mine : Mine writeId own place) (tried : Tried writeId own place later) :
    Mine writeId own later := by
  intro version commit ours
  cases tried with
  | inl nothing => exact mine version commit (nothing.old version commit ours)
  | inr landed =>
      cases landed with
      | intro own_version adds =>
          by_cases same : version = own_version
          · rw [same] at ours
            have here := adds.here.1
            rw [ours.1] at here
            exact Option.some.inj here
          · exact mine version commit (adds.old version commit ours same)

/-- The table could not be reopened after an attempt, or a version of its log not read. -/
def Unread (happening : Happening) (place : Place DqCommit) : Prop :=
  (∃ cause, happening.reopened = .error cause) ∨
    ∃ version cause, version < place.log.length ∧ (happening.reading version).2 = .error cause

section Attempts

variable {rows : Nat} {happens : Nat → Happening}

/-- What a write comes to: attempts from one on, no more than `retries` of them again. -/
def Outcome (writeId : String) (own : DqCommit) (rows : Nat) (happens : Nat → Happening)
    (retries attempt : Nat) (dq : KafkaDq) (place : Place DqCommit) :
    Except WriteError Nat × KafkaDq × Place DqCommit → Prop
  | (.ok written, _dq, later) =>
      written = rows ∧ Mine writeId own later ∧
        ∃ earlier version, place.Extends earlier ∧ Gone writeId earlier ∧
          Adds writeId own earlier later version
  | (.error _cause, last, later) =>
      Gone writeId later ∨ ∃ more, more ≤ retries ∧
        last.conflictRetries = dq.conflictRetries + more ∧ Unread (happens (attempt + more)) later

theorem acknowledged_outcome {version retries attempt : Nat} {dq last : KafkaDq}
    (gone : Gone writeId place) (mine : Mine writeId own place)
    (adds : Adds writeId own place later version) :
    Outcome writeId own rows happens retries attempt dq place (.ok rows, last, later) := by
  constructor
  · rfl
  · constructor
    · exact mine.tried (Or.inr ⟨version, adds⟩)
    · exact ⟨place, version, Place.Extends.refl place, gone, adds⟩

/-- Once the table is reopened, a retry starts as the write did. -/
theorem sinceOf_headOf (onward : place.Extends later) :
    sinceOf (headOf place) ≤ later.log.length := by
  cases loaded : headOf place with
  | none => exact Nat.zero_le _
  | some head =>
      have newest := headOf_some loaded
      unfold sinceOf
      rw [Option.elim_some, newest]
      exact onward.log.length_le

/-- What a retry comes to is what the write comes to. -/
theorem Outcome.retried {retries attempt : Nat} {dq next : KafkaDq} (onward : place.Extends later)
    (counted : next.conflictRetries = dq.conflictRetries + 1)
    {result : Except WriteError Nat × KafkaDq × Place DqCommit}
    (outcome : Outcome writeId own rows happens retries (attempt + 1) next later result) :
    Outcome writeId own rows happens (retries + 1) attempt dq place result := by
  obtain ⟨ended, last, final⟩ := result
  cases ended with
  | ok written =>
      obtain ⟨same, mine, earlier, version, before, gone, adds⟩ := outcome
      exact ⟨same, mine, earlier, version, onward.trans before, gone, adds⟩
  | error cause =>
      cases outcome with
      | inl gone => exact Or.inl gone
      | inr unread =>
          obtain ⟨more, few, total, why⟩ := unread
          right
          refine ⟨more + 1, Nat.succ_le_succ few, ?_, ?_⟩
          · rw [total, counted, Nat.add_assoc, Nat.add_comm 1]
          · rw [Nat.add_comm more, ← Nat.add_assoc]
            exact why

theorem unread_outcome {retries attempt : Nat} {dq last : KafkaDq} {cause : WriteError}
    (uncounted : last.conflictRetries = dq.conflictRetries)
    (unread : Unread (happens attempt) later) :
    Outcome writeId own rows happens retries attempt dq place (.error cause, last, later) :=
  Or.inr ⟨0, Nat.zero_le _, uncounted, unread⟩

/-- One attempt, when the attempts after it are known to come to what they should. -/
theorem attempt_outcome (marked : writeIdOf own = some writeId) (retries attempt : Nat)
    (foreign : (happens attempt).Foreign writeId) {dq : KafkaDq} {place : Place DqCommit}
    (gone : Gone writeId place) (mine : Mine writeId own place)
    (within : sinceOf dq.version ≤ place.log.length)
    (again : ∀ fewer, retries = fewer + 1 → ∀ (next : KafkaDq) (later : Place DqCommit),
      Gone writeId later → Mine writeId own later → sinceOf next.version ≤ later.log.length →
      Outcome writeId own rows happens fewer (attempt + 1) next later
        (writeAttempts writeId own rows happens fewer (attempt + 1) next later)) :
    Outcome writeId own rows happens retries attempt dq place
      (writeAttempts writeId own rows happens retries attempt dq place) := by
  have left := tryWriteKafka_left marked foreign place
  unfold writeAttempts
  dsimp only
  revert left
  cases tryWriteKafka own (happens attempt) place with
  | mk ended found =>
      cases ended with
      | ok version => exact fun adds => acknowledged_outcome gone mine adds
      | error why =>
          have reopening := applyMoves_passes foreign.reopening found
          cases why with
          | failed cause =>
              intro passes
              have stays := gone.passes (passes.trans reopening)
              cases (happens attempt).reopened with
              | error other => exact Or.inl stays
              | ok done => exact Or.inl stays
          | ambiguous cause =>
              intro tried
              dsimp only
              cases reopened : (happens attempt).reopened with
              | error other => exact unread_outcome rfl (Or.inl ⟨other, reopened⟩)
              | ok done =>
                  dsimp only
                  have decided := landed_decided foreign gone (tried.passes reopening) within
                  revert decided
                  cases landed writeId (happens attempt) dq.version
                      (headOf (applyMoves (happens attempt).reopening found))
                      (applyMoves (happens attempt).reopening found) with
                  | mk answer latest =>
                      cases answer with
                      | error cause =>
                          rintro ⟨version, below, why⟩
                          exact unread_outcome rfl (Or.inr ⟨version, cause, below, why⟩)
                      | ok answer =>
                          cases answer with
                          | false => exact fun stays => Or.inl stays
                          | true =>
                              rintro ⟨version, adds⟩
                              exact acknowledged_outcome gone mine adds
          | conflict detail =>
              intro tried
              dsimp only
              cases reopened : (happens attempt).reopened with
              | error other => exact unread_outcome rfl (Or.inl ⟨other, reopened⟩)
              | ok done =>
                  dsimp only
                  have decided := landed_decided foreign gone (tried.passes reopening) within
                  have searched := landed_searched foreign (Nat.le_trans within
                    (tried.passes reopening).onward.log.length_le)
                  revert decided searched
                  cases landed writeId (happens attempt) dq.version
                      (headOf (applyMoves (happens attempt).reopening found))
                      (applyMoves (happens attempt).reopening found) with
                  | mk answer latest =>
                      cases answer with
                      | error cause =>
                          rintro ⟨version, below, why⟩ _searched
                          exact unread_outcome rfl (Or.inr ⟨version, cause, below, why⟩)
                      | ok answer =>
                          cases answer with
                          | true =>
                              rintro ⟨version, adds⟩ _searched
                              exact acknowledged_outcome gone mine adds
                          | false =>
                              intro stays searched
                              have whole := (tried.passes reopening).passes searched.1
                              cases retries with
                              | zero => exact Or.inl stays
                              | succ fewer =>
                                  have loaded := sinceOf_headOf searched.1.onward
                                  have rest := again fewer rfl
                                    { dq with
                                      version := headOf _
                                      conflictRetries := dq.conflictRetries + 1 }
                                    latest stays (mine.tried whole) loaded
                                  exact Outcome.retried whole.onward rfl rest

theorem writeAttempts_outcome (marked : writeIdOf own = some writeId)
    (foreign : ∀ attempt, (happens attempt).Foreign writeId) (retries attempt : Nat)
    {dq : KafkaDq} {place : Place DqCommit} (gone : Gone writeId place)
    (mine : Mine writeId own place) (within : sinceOf dq.version ≤ place.log.length) :
    Outcome writeId own rows happens retries attempt dq place
      (writeAttempts writeId own rows happens retries attempt dq place) := by
  induction retries generalizing attempt dq place with
  | zero =>
      apply attempt_outcome marked 0 attempt (foreign attempt) gone mine within
      intro fewer impossible
      cases impossible
  | succ retries ih =>
      apply attempt_outcome marked (retries + 1) attempt (foreign attempt) gone mine within
      intro fewer same next later stays known loaded
      cases same
      exact ih (attempt + 1) stays known loaded

end Attempts

end Ddi.DqKafka
