/-
Every event of a member keeps the accounting, as long as no reset keeps a batch whose partition was
moved and moved back.
-/

import Ddi.Kafka.AccountingMessages

namespace Ddi.Kafka

open Registers (Writes read)

namespace Member

variable {brokers : Brokers} {log : List (Writes TxnId Int)} {member fresh after : Member}
  {refresh : Refresh} {changed : List Int} {batch : KafkaBatch}

/-! ### A reset while the buffer fills -/

theorem bufferMoved_buffered (still : member.bufferMoved changed = false)
    (empty : member.buf.isEmpty = true → member.buf.ranges = []) {partition last : Int}
    (taken : member.lastTaken partition = some last) : partition ∉ changed := by
  intro listed
  unfold lastTaken at taken
  obtain ⟨range, found, _same⟩ := Option.map_eq_some_iff.mp taken
  have among : partition ∈ member.buf.ranges.map Prod.fst :=
    (Assoc.mem_keys_iff _ _).mpr ⟨range, found⟩
  unfold bufferMoved at still
  cases nothing : member.buf.isEmpty with
  | true =>
      rw [empty nothing] at found
      cases found
  | false =>
      rw [nothing, Bool.not_false, Bool.true_and] at still
      have away := List.any_eq_false.mp still partition among
      exact away (List.contains_iff_mem.mpr listed)

/-- What is ready and not buffered is, after a reset, where the target has it. -/
theorem Fills.repositioned (fills : member.Fills brokers)
    (refreshed : Refreshed member fresh changed) (tracks : member.Tracks brokers)
    {partition next start : Int} {reread : Option Reread}
    (found : (fresh.repositionChanged changed none).parts.lookup partition =
      some (.ready next start reread))
    (unbuffered : (fresh.undisturbed changed).buf.ranges.lookup partition = none) :
    reread = none ∧
      brokers.topic.Next partition (fresh.settledAt brokers partition) next := by
  obtain ⟨expects, placed⟩ := repositioned_next (refreshed.tracks tracks) found
    (fun batch impossible => by cases impossible) unbuffered
  rw [expects]
  refine ⟨?_, .succ _ _⟩
  rcases placed with nothing | ⟨away, held⟩
  · exact nothing
  · have before : member.parts.lookup partition = some (.ready next start reread) := by
      obtain ⟨handle, fence, same⟩ := refreshed.rest
      rw [same] at held
      exact held
    rcases fills.ready partition next start reread before with
      ⟨nothing, _beyond⟩ | ⟨_nothing, expected, _waits, _there, base⟩
    · exact nothing
    · have sameBase := refreshed.unchanged partition (isOwned_of_lookup before) away
      have here : fresh.settledAt brokers partition = next := by
        unfold settledAt
        rw [sameBase, base]
        rfl
      omega

theorem Fills.reset (fills : member.Fills brokers) (tracks : member.Tracks brokers)
    (resets : member.refreshAndReset log refresh = (fresh, .ok changed)) :
    (fresh.repositionChanged changed none).Fills brokers := by
  have refreshed := Refreshed.of_ok resets
  obtain ⟨handle, fence, same⟩ := refreshed.rest
  have settled : ∀ partition, (fresh.repositionChanged changed none).settledAt brokers partition =
      fresh.settledAt brokers partition := repositionChanged_settledAt
  cases moved : fresh.bufferMoved changed with
  | true =>
      have dropped : fresh.undisturbed changed = fresh.discard := by
        unfold undisturbed
        rw [if_pos moved]
      apply Fills.emptied
      · unfold repositionChanged
        rw [dropped]
        rfl
      · unfold repositionChanged
        rw [dropped]
        rfl
      · unfold repositionChanged
        rw [dropped]
        rfl
      · intro partition next start reread found
        rw [settled]
        apply Or.inl
        apply fills.repositioned refreshed tracks found
        rw [dropped]
        rfl
  | false =>
      have kept : fresh.undisturbed changed = fresh := by
        unfold undisturbed
        rw [moved]
        rfl
      have buf : (fresh.repositionChanged changed none).buf = member.buf := by
        unfold repositionChanged
        rw [kept, same]
      have buffered : (fresh.repositionChanged changed none).buffered = member.buffered := by
        unfold repositionChanged
        rw [kept, same]
        rfl
      have last : ∀ partition, (fresh.repositionChanged changed none).lastTaken partition =
          member.lastTaken partition := by
        intro partition
        unfold lastTaken
        rw [buf]
      have freshLast : ∀ partition, fresh.lastTaken partition = member.lastTaken partition := by
        intro partition
        rw [same]
        rfl
      have freshEmpty : fresh.buf.isEmpty = true → fresh.buf.ranges = [] := by
        rw [same]
        exact fills.empty
      have away : ∀ partition own, member.lastTaken partition = some own → partition ∉ changed := by
        intro partition own taken
        exact bufferMoved_buffered moved freshEmpty ((freshLast partition).trans taken)
      have base : ∀ partition own, member.lastTaken partition = some own →
          fresh.settledAt brokers partition = member.settledAt brokers partition := by
        intro partition own taken
        exact settledAt_of_base (refreshed.unchanged partition (fills.owned partition own taken)
          (away partition own taken))
      constructor
      · intro partition
        rw [buffered, settled]
        unfold reached
        rw [last, settled, fills.rows partition]
        unfold reached
        cases taken : member.lastTaken partition with
        | none => rw [Option.getD_none, Option.getD_none, Topic.between_self, Topic.between_self]
        | some own => rw [base partition own taken]
      · intro partition own taken
        rw [last] at taken
        rw [settled, base partition own taken]
        exact fills.past partition own taken
      · intro partition own taken
        rw [last] at taken
        rw [repositionChanged_isOwned, same]
        exact fills.owned partition own taken
      · intro partition next start reread found
        rw [last]
        cases taken : member.lastTaken partition with
        | none =>
            have unread : (fresh.undisturbed changed).buf.ranges.lookup partition = none := by
              rw [kept, same]
              exact Option.map_eq_none_iff.mp taken
            obtain ⟨nothing, beyond⟩ := fills.repositioned refreshed tracks found unread
            apply Or.inl
            refine ⟨nothing, ?_, ?_⟩
            · unfold reached
              rw [last, taken, settled]
              exact beyond
            · intro own impossible
              cases impossible
        | some own =>
            have stands : fresh.parts.lookup partition = some (.ready next start reread) := by
              rcases (repositioned_ready found).2 with ⟨repositions, _next, _fresh⟩ | ⟨_away, held⟩
              · obtain ⟨expected, _ready, listed | misplaced⟩ :=
                  (mem_toReposition fresh).mp repositions
                · unfold Member.again at listed
                  rw [moved] at listed
                  exact absurd listed (away partition own taken)
                · unfold lastTaken at taken
                  obtain ⟨range, inside, _same⟩ := Option.map_eq_some_iff.mp taken
                  have held : fresh.buf.ranges.lookup partition = some range := by
                    rw [same]
                    exact inside
                  rw [kept] at misplaced
                  unfold Member.misplaced at misplaced
                  simp [held] at misplaced
              · exact held
            rw [same] at stands
            rcases fills.ready partition next start reread stands with
              ⟨nothing, beyond, within⟩ | ⟨nothing, _rereads⟩
            · apply Or.inl
              refine ⟨nothing, ?_, ?_⟩
              · unfold reached at beyond ⊢
                rw [last, taken]
                rw [taken] at beyond
                exact beyond
              · intro other same
                rw [← taken] at same
                exact within other same
            · rw [nothing] at taken
              cases taken
      · intro partition block own found taken
        rw [last] at taken
        rw [settled, base partition own taken]
        have before : member.parts.lookup partition = some (.blocked block) := by
          rw [repositionChanged_lookup] at found
          obtain ⟨state, held, stays⟩ := Option.map_eq_some_iff.mp found
          by_cases repositions : partition ∈ fresh.toReposition changed none
          · rw [if_pos repositions] at stays
            cases stays
          · rw [if_neg repositions] at stays
            rw [stays, same] at held
            exact held
        exact fills.trimmed partition block own before taken
      · rw [buf]
        exact fills.empty
      · intro message waits partition owned
        have stalled : member.stalled = some message := by
          unfold repositionChanged at waits
          rw [kept, same] at waits
          exact waits
        rw [repositionChanged_isOwned, same] at owned
        rw [repositionChanged_paused, same]
        exact List.mem_append_left _ (fills.stalls message stalled partition owned)

theorem Accounts.reset (accounts : member.Accounts brokers) (idle : member.alive = none)
    (resets : member.refreshAndReset log refresh = (fresh, .ok changed)) :
    (fresh.repositionChanged changed none).Fills brokers ∧
      (fresh.repositionChanged changed none).Tracks brokers := by
  constructor
  · exact (accounts.fills idle).reset accounts.tracks resets
  · exact ((Refreshed.of_ok resets).tracks accounts.tracks).repositionChanged

/-! ### Taking a partition up -/

theorem startOf_ready {partition low high offset : Int} {reread : Option Reread}
    (starts : member.startOf brokers.explicit partition low high = .ready offset reread) :
    low ≤ member.settledAt brokers partition + 1 ∧
      (reread = none ∧ offset = member.settledAt brokers partition + 1 ∨
        member.Rereads partition offset reread) := by
  have stored : ((member.fence.base.lookup partition).getD (none, none)).1 =
      member.fence.baseOffset partition := by
    unfold Fence.baseOffset
    cases member.fence.base.lookup partition with
    | none => rfl
    | some held => rfl
  unfold startOf at starts
  dsimp only at starts
  rw [stored] at starts
  obtain ⟨above, fresh | ⟨base, waits⟩⟩ := resolve_ready starts
  · exact ⟨above, Or.inl fresh⟩
  · exact ⟨above, Or.inr ⟨_, waits, rereadAt_offset _ _, base⟩⟩

/-- Where a partition is taken up, what it expects is known from its offset or from its start. -/
theorem startOf_target {partition low high offset : Int} {reread : Option Reread}
    (starts : member.startOf brokers.explicit partition low high = .ready offset reread)
    (unbased : member.fence.baseOffset partition = none) :
    offset = member.settledAt brokers partition + 1 := by
  rcases (startOf_ready starts).2 with ⟨_fresh, same⟩ | ⟨_expected, _waits, _there, base⟩
  · exact same
  · rw [unbased] at base
    cases base

/-- A partition can be taken up again: it is paused, and if something of it is buffered, what comes
next by the target is gone. -/
structure Resumable (brokers : Brokers) (member : Member) (partition : Int) : Prop where
  owned : member.isOwned partition = true
  paused : partition ∈ member.paused
  trimmed : ∀ last, member.lastTaken partition = some last →
    member.settledAt brokers partition + 1 < brokers.low partition

theorem takeUp_puts {partition : Int} (owned : member.isOwned partition = true) (start : Start) :
    Puts member (member.takeUp partition start) partition (startState start) := by
  constructor
  · intro other
    rw [takeUp_parts]
    exact Assoc.lookup_put _ _ _ _
  · exact owned
  · exact takeUp_fence member partition start
  · cases start <;> rfl
  · cases start <;> rfl
  · cases start <;> rfl
  · intro other held
    rw [takeUp_paused]
    exact held
  · cases start <;> rfl
  · cases start <;> rfl

theorem takeUp_unbasedStart (partition other : Int) (start : Start) :
    (member.takeUp partition start).unbasedStart.lookup other =
      if other = partition ∧ member.fence.baseOffset partition = none then
        (startOffset start).or (member.unbasedStart.lookup other)
      else member.unbasedStart.lookup other := by
  cases start with
  | blocked block =>
      rw [show startOffset (.blocked block) = none from rfl, Option.none_or, ite_self]
      rfl
  | ready offset reread =>
      rw [show startOffset (.ready offset reread) = some offset from rfl, Option.some_or]
      unfold takeUp
      dsimp only
      cases member.fence.baseOffset partition with
      | none =>
          simp only [Option.isNone_none, if_true, and_true]
          exact Assoc.lookup_put _ _ _ _
      | some held => simp only [Option.isNone_some, reduceCtorEq, and_false, if_false]

theorem takeUp_next (partition other : Int) (start : Start) :
    (member.takeUp partition start).nextInTarget other =
      if other = partition ∧ member.fence.baseOffset other = none then
        (startOffset start).or (member.nextInTarget other)
      else member.nextInTarget other := by
  unfold nextInTarget
  rw [takeUp_fence, takeUp_unbasedStart]
  cases base : member.fence.baseOffset other with
  | some held =>
      have not : ¬(other = partition ∧ some held = none) := by
        intro both
        cases both.2
      rw [if_neg not]
  | none =>
      by_cases same : other = partition
      · rw [if_pos ⟨same, by rw [← same]; exact base⟩, if_pos ⟨same, rfl⟩]
      · rw [if_neg fun both => same both.1, if_neg fun both => same both.1]

theorem Accounts.takeUp (accounts : member.Accounts brokers) (idle : member.alive = none)
    {partition : Int} (resumable : Resumable brokers member partition) {high : Int} :
    (member.takeUp partition
      (member.startOf brokers.explicit partition (brokers.low partition) high)).Accounts
        brokers := by
  have puts := takeUp_puts resumable.owned
    (member.startOf brokers.explicit partition (brokers.low partition) high)
  have fills := accounts.fills idle
  constructor
  · constructor
    · intro other block found
      rw [puts.parts] at found
      rw [takeUp_paused]
      by_cases same : other = partition
      · rw [same]
        exact resumable.paused
      · rw [if_neg same] at found
        exact accounts.tracks.blocked other block found
    · intro other next start reread found reading
      rw [puts.parts] at found
      rw [takeUp_paused] at reading
      by_cases same : other = partition
      · rw [same] at reading
        exact absurd resumable.paused reading
      · rw [if_neg same] at found
        exact accounts.tracks.position other next start reread found reading
    · intro other next start reread found
      rw [puts.parts] at found
      rw [puts.settledAt, takeUp_next]
      by_cases same : other = partition
      · rw [if_pos same] at found
        subst same
        cases starts : member.startOf brokers.explicit other (brokers.low other) high with
        | blocked block =>
            rw [starts] at found
            cases found
        | ready offset again =>
            by_cases unbased : member.fence.baseOffset other = none
            · rw [if_pos ⟨rfl, unbased⟩, ← startOf_target starts unbased]
              rfl
            · rw [if_neg fun both => unbased both.2]
              obtain ⟨base, held⟩ := Option.ne_none_iff_exists'.mp unbased
              exact nextInTarget_of_some held
      · rw [if_neg same] at found
        rw [if_neg fun both => same both.1]
        exact accounts.tracks.target other next start reread found
  · intro _idle
    apply fills.puts puts
    · intro next start reread made
      cases starts : member.startOf brokers.explicit partition (brokers.low partition) high with
      | blocked block =>
          rw [starts] at made
          cases made
      | ready offset again =>
          rw [starts] at made
          cases made
          obtain ⟨above, placed⟩ := startOf_ready starts
          have nothing : member.lastTaken partition = none := by
            cases taken : member.lastTaken partition with
            | none => rfl
            | some last =>
                have gone := resumable.trimmed last taken
                omega
          rcases placed with ⟨fresh, same⟩ | rereads
          · apply Or.inl
            have reached : member.reached brokers partition =
                member.settledAt brokers partition := by
              unfold Member.reached
              rw [nothing]
              rfl
            rw [reached, same]
            refine ⟨fresh, .succ _ _, ?_⟩
            intro last taken
            rw [nothing] at taken
            cases taken
          · exact Or.inr ⟨nothing, rereads⟩
    · intro block last _made taken
      exact resumable.trimmed last taken
  · intro batch lives
    rw [puts.alive, idle] at lives
    cases lives

theorem Resumable.takeUp {partition other : Int} (resumable : Resumable brokers member other)
    (owned : member.isOwned partition = true) (start : Start) :
    Resumable brokers (member.takeUp partition start) other := by
  have puts := takeUp_puts owned start
  constructor
  · rw [puts.isOwned]
    exact resumable.owned
  · exact puts.paused other resumable.paused
  · intro last taken
    rw [puts.lastTaken] at taken
    rw [puts.settledAt]
    exact resumable.trimmed last taken

theorem Accounts.resolveAll (accounts : member.Accounts brokers) (idle : member.alive = none)
    {ranges : List (Int × Int × Int)} (truthful : brokers.Truthful (some ranges))
    (partitions : List Int)
    (resumable : ∀ partition ∈ partitions, Resumable brokers member partition) :
    (member.resolveAll brokers.explicit ranges partitions).Accounts brokers := by
  unfold Member.resolveAll
  induction partitions generalizing member with
  | nil => exact accounts
  | cons partition partitions ih =>
      rw [List.foldl_cons]
      have here := resumable partition List.mem_cons_self
      unfold Member.resolveOne
      cases found : ranges.lookup partition with
      | none =>
          exact ih accounts idle fun other later => resumable other (List.mem_cons_of_mem _ later)
      | some range =>
          have same := truthful ranges rfl partition range found
          rw [same]
          apply ih
          · exact accounts.takeUp idle here
          · rw [(takeUp_puts here.owned _).alive]
            exact idle
          · intro other later
            exact (resumable other (List.mem_cons_of_mem _ later)).takeUp here.owned _

/-! ### Rechecking what is blocked -/

variable {watermarks : Watermarks} {survives : Option KafkaBatch}

theorem repositionChanged_alive :
    (member.repositionChanged changed survives).alive = member.alive := by
  unfold repositionChanged undisturbed
  by_cases moved : member.bufferMoved changed
  · simp only [if_pos moved]
    rfl
  · simp only [if_neg moved]
    rfl

theorem Refreshed.alive (refreshed : Refreshed member fresh changed) :
    fresh.alive = member.alive := by
  obtain ⟨handle, fence, same⟩ := refreshed.rest
  rw [same]
  rfl

/-- What a refresh that fails leaves accounts for the same. -/
theorem Accounts.refreshFails (accounts : member.Accounts brokers) {error : KafkaError}
    (fails : member.refreshAndReset log refresh = (fresh, .error error)) :
    fresh.Accounts brokers := by
  obtain ⟨same, paused, held, work⟩ := refreshed_failed fails
  apply accounts.pauses same
  · intro partition among
    rw [paused]
    exact among
  · unfold Member.alive
    rw [held, work]
  · exact held

theorem Accounts.resetIdle (accounts : member.Accounts brokers) (idle : member.alive = none)
    (resets : member.refreshAndReset log refresh = (fresh, .ok changed)) :
    (fresh.repositionChanged changed none).Accounts brokers ∧
      (fresh.repositionChanged changed none).alive = none := by
  have nothing : (fresh.repositionChanged changed none).alive = none := by
    rw [repositionChanged_alive, (Refreshed.of_ok resets).alive, idle]
  obtain ⟨fills, tracks⟩ := accounts.reset idle resets
  refine ⟨⟨tracks, fun _idle => fills, ?_⟩, nothing⟩
  intro batch lives
  rw [nothing] at lives
  cases lives

theorem toResolve_blocked {partition : Int} (among : partition ∈ member.toResolve) :
    ∃ block, member.parts.lookup partition = some (.blocked block) := by
  have resolves := (List.mem_filter.mp among).2
  unfold resolvable at resolves
  cases found : member.parts.lookup partition with
  | none =>
      rw [found] at resolves
      cases resolves
  | some state =>
      cases state with
      | ready next start reread =>
          rw [found] at resolves
          cases resolves
      | blocked block => exact ⟨block, rfl⟩

theorem Accounts.unblocked (accounts : member.Accounts brokers) (blocked : Bool) :
    Accounts brokers { member with blocked := blocked } :=
  accounts.pauses ⟨rfl, rfl, rfl, rfl, rfl, rfl⟩ (fun _partition held => held) rfl rfl

theorem Accounts.recheckBlocked (accounts : member.Accounts brokers) (idle : member.alive = none)
    (truthful : brokers.Truthful watermarks)
    (rechecks : member.recheckBlocked log brokers.explicit refresh watermarks = some after) :
    after.Accounts brokers := by
  unfold Member.recheckBlocked at rechecks
  rcases resets : member.refreshAndReset log refresh with ⟨found, error | changed⟩
  · rw [resets] at rechecks
    dsimp only at rechecks
    by_cases fatal : error.kafkaClass = .consumerFatal
    · rw [if_pos fatal] at rechecks
      cases rechecks
    · rw [if_neg fatal] at rechecks
      cases rechecks
      exact (accounts.refreshFails resets).unblocked _
  · rw [resets] at rechecks
    dsimp only at rechecks
    obtain ⟨again, nothing⟩ := accounts.resetIdle idle resets
    by_cases nobody : (found.repositionChanged changed none).toResolve.isEmpty
    · rw [if_pos nobody] at rechecks
      cases rechecks
      exact again.unblocked false
    · rw [if_neg nobody] at rechecks
      cases watermarks with
      | none =>
          cases rechecks
          exact again
      | some ranges =>
          cases rechecks
          apply (again.unblocked false).resolveAll nothing truthful
          intro partition among
          obtain ⟨block, held⟩ := toResolve_blocked among
          constructor
          · exact isOwned_of_lookup held
          · exact again.tracks.blocked partition block held
          · intro last taken
            exact (again.fills nothing).trimmed partition block last held taken

/-! ### Taking the partitions given -/

/-- A start a partition can be read from. -/
def Starts (brokers : Brokers) (member : Member) (partition : Int) (start : Start) : Prop :=
  ∀ offset reread, start = .ready offset reread →
    reread = none ∧ offset = member.settledAt brokers partition + 1 ∨
      member.Rereads partition offset reread

theorem takeStarts_ready {partitions : List Int} {start : Int → Start} {partition next first : Int}
    {reread : Option Reread}
    (found : (member.takeStarts partitions start).parts.lookup partition =
      some (.ready next first reread)) :
    partition ∈ partitions ∧ start partition = .ready next reread := by
  rw [takeStarts_lookup] at found
  by_cases among : partition ∈ partitions
  · rw [if_pos among] at found
    cases starts : start partition with
    | blocked block =>
        rw [starts] at found
        cases found
    | ready offset again =>
        rw [starts] at found
        cases found
        exact ⟨among, rfl⟩
  · rw [if_neg among] at found
    cases found

theorem takeStarts_target {partitions : List Int} {start : Int → Start} {partition next : Int}
    {reread : Option Reread} (among : partition ∈ partitions)
    (starts : start partition = .ready next reread)
    (placed : Starts brokers member partition (start partition)) :
    (member.takeStarts partitions start).nextInTarget partition =
      some (member.settledAt brokers partition + 1) := by
  cases base : member.fence.baseOffset partition with
  | some held =>
      exact @nextInTarget_of_some brokers (member.takeStarts partitions start) partition held base
  | none =>
      have unbased : (member.takeStarts partitions start).unbasedStart.lookup partition =
          some next := by
        unfold takeStarts
        dsimp only
        rw [Assoc.lookup_filterMap partitions fun own =>
          if (member.fence.baseOffset own).isNone then startOffset (start own) else none]
        rw [if_pos among, base, starts]
        rfl
      unfold nextInTarget
      rw [show (member.takeStarts partitions start).fence = member.fence from rfl, base]
      dsimp only
      rw [unbased]
      rcases placed next reread starts with ⟨_fresh, same⟩ | ⟨_expected, _waits, _there, held⟩
      · rw [same]
      · rw [base] at held
        cases held

variable (member) in
theorem Accounts.takeStarts (idle : member.alive = none) (bare : member.buffered = [])
    (unread : ∀ partition, member.lastTaken partition = none)
    (empty : member.buf.isEmpty = true → member.buf.ranges = []) {partitions : List Int}
    {start : Int → Start}
    (placed : ∀ partition, partition ∈ partitions →
      Starts brokers member partition (start partition)) :
    (member.takeStarts partitions start).Accounts
      (brokers.assigned (member.takeStarts partitions start)) := by
  constructor
  · constructor
    · intro partition block found
      apply (mem_takeStarts_paused member partitions start partition).mpr
      rw [takeStarts_lookup] at found
      by_cases among : partition ∈ partitions
      · rw [if_pos among] at found
        refine ⟨among, ?_⟩
        cases starts : start partition with
        | blocked block => rfl
        | ready offset reread =>
            rw [starts] at found
            cases found
      · rw [if_neg among] at found
        cases found
    · intro partition next first reread found _reading message _inside later
      obtain ⟨among, starts⟩ := takeStarts_ready found
      unfold Brokers.assigned
      dsimp only
      rw [takeStarts_started, if_pos among, starts]
      exact later
    · intro partition next first reread found
      obtain ⟨among, starts⟩ := takeStarts_ready found
      exact takeStarts_target among starts (placed partition among)
  · intro _idle
    apply Fills.unread
    · exact unread
    · exact bare
    · exact empty
    · intro partition next first reread found
      obtain ⟨among, starts⟩ := takeStarts_ready found
      rcases placed partition among next reread starts with ⟨fresh, same⟩ | rereads
      · apply Or.inl
        rw [same]
        exact ⟨fresh, .succ _ _⟩
      · exact Or.inr rereads
  · intro batch lives
    rw [show (member.takeStarts partitions start).alive = member.alive from rfl, idle] at lives
    cases lives

theorem Fills.unowned (fills : member.Fills brokers) (nothing : member.parts = []) :
    member.buffered = [] ∧ ∀ partition, member.lastTaken partition = none := by
  have unread : ∀ partition, member.lastTaken partition = none := by
    intro partition
    cases taken : member.lastTaken partition with
    | none => rfl
    | some last =>
        have owned := fills.owned partition last taken
        unfold isOwned at owned
        rw [nothing] at owned
        cases owned
  refine ⟨?_, unread⟩
  apply List.eq_nil_iff_forall_not_mem.mpr
  intro message among
  have rows := fills.rows message.partition
  have reached : member.reached brokers message.partition =
      member.settledAt brokers message.partition := by
    unfold Member.reached
    rw [unread]
    rfl
  rw [reached, Topic.between_self] at rows
  have kept : message ∈ member.buffered.filter fun other =>
      other.partition == message.partition :=
    List.mem_filter.mpr ⟨among, beq_self_eq_true _⟩
  rw [rows] at kept
  cases kept

theorem Accounts.assign (accounts : member.Accounts brokers) (polling : member.work = .polling)
    (nothing : member.parts = []) (held : member.held = none) {partitions : List Int}
    (truthful : brokers.Truthful watermarks) (covers : Brokers.Covers watermarks partitions)
    (assigns : member.assign log brokers.explicit partitions refresh watermarks = some after) :
    after.Accounts (brokers.assigned after) := by
  have idle : member.alive = none := by
    unfold Member.alive
    rw [polling, held]
    rfl
  have fills := accounts.fills idle
  obtain ⟨bare, unread⟩ := fills.unowned nothing
  obtain ⟨handle, fence, rest⟩ := member.refreshThenReset_rest log partitions refresh
  unfold Member.assign Member.readStarts at assigns
  rcases resets : member.refreshThenReset log partitions refresh with ⟨found, outcome⟩
  rw [resets] at assigns rest
  dsimp only at rest
  have foundIdle : found.alive = none := by
    rw [rest]
    exact idle
  have foundBare : found.buffered = [] := by
    rw [rest]
    exact bare
  have foundUnread : ∀ partition, found.lastTaken partition = none := by
    rw [rest]
    exact unread
  have foundEmpty : found.buf.isEmpty = true → found.buf.ranges = [] := by
    rw [rest]
    exact fills.empty
  have blocked : ∀ error : KafkaError,
      (if error.kafkaClass = .consumerFatal then none
        else some ({ found with blocked := true }.takeStarts partitions fun _ =>
          .blocked .unresolved)) = some after → after.Accounts (brokers.assigned after) := by
    intro error takes
    by_cases fatal : error.kafkaClass = .consumerFatal
    · rw [if_pos fatal] at takes
      cases takes
    · rw [if_neg fatal] at takes
      cases takes
      apply Accounts.takeStarts { found with blocked := true } foundIdle foundBare foundUnread
        foundEmpty
      intro partition _among offset reread impossible
      cases impossible
  cases outcome with
  | some error => exact blocked error assigns
  | none =>
      cases watermarks with
      | none => exact blocked _ assigns
      | some ranges =>
          cases assigns
          apply Accounts.takeStarts found foundIdle foundBare foundUnread foundEmpty
          intro partition among offset reread starts
          obtain ⟨range, found⟩ := Option.isSome_iff_exists.mp (covers ranges rfl partition among)
          rw [found, Option.getD_some, truthful ranges rfl partition range found] at starts
          exact (startOf_ready starts).2

end Member

end Ddi.Kafka
