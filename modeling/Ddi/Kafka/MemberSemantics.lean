/-
What each operation of a member leaves of its partitions and of what is paused.
-/

import Ddi.Kafka.Group

namespace Ddi.Kafka

namespace Partitions

theorem mem_owned_iff (parts : Partitions) (partition : Int) :
    partition ∈ parts.owned ↔ (parts.lookup partition).isSome := by
  rw [Option.isSome_iff_exists]
  exact Assoc.mem_keys_iff parts partition

/-- A message of another partition changes nothing of a partition. -/
theorem admitMessage_of_ne (parts : Partitions) {partition other : Int} (away : other ≠ partition)
    (mark : MessageMark) :
    (parts.admitMessage partition mark).1.lookup other = parts.lookup other := by
  unfold admitMessage
  cases parts.lookup partition with
  | none => rfl
  | some state =>
      cases state with
      | blocked block => rfl
      | ready next start reread => exact Assoc.lookup_put_of_ne parts away _

theorem admitMessage_ready {parts : Partitions} {partition next start : Int}
    {reread : Option Reread} (found : parts.lookup partition = some (.ready next start reread))
    (mark : MessageMark) :
    (parts.admitMessage partition mark).2 = (admitReady next start reread mark).2 ∧
      (parts.admitMessage partition mark).1.lookup partition =
        some (admitReady next start reread mark).1 := by
  unfold admitMessage
  rw [found]
  exact ⟨rfl, Assoc.lookup_put_self parts partition _⟩

theorem admitMessage_blocked {parts : Partitions} {partition : Int} {block : Block}
    (found : parts.lookup partition = some (.blocked block)) (mark : MessageMark) :
    parts.admitMessage partition mark = (parts, .drop .blocked) := by
  unfold admitMessage
  rw [found]

theorem admitMessage_unowned {parts : Partitions} {partition : Int}
    (found : parts.lookup partition = none) (mark : MessageMark) :
    parts.admitMessage partition mark = (parts, .drop .notOwned) := by
  unfold admitMessage
  rw [found]

/-- What a ready partition does with a message: leave it as a duplicate, block on another message
at its stored offset, drop the one read again, or take it; it then expects the next. -/
theorem admitReady_cases (next start : Int) (reread : Option Reread) (mark : MessageMark) :
    admitReady next start reread mark = (.ready next start reread, .drop .duplicate) ∨
    (∃ recorded, reread = some (.expect recorded) ∧ mark.offset = recorded.offset ∧
      admitReady next start reread mark =
        (.ready next start reread, .block (.replaced recorded mark))) ∨
    (∃ expected, reread = some expected ∧ mark.offset = expected.offset ∧
      admitReady next start reread mark =
        (.ready (mark.offset + 1) start none, .drop .reread)) ∨
    ∃ gap, (reread = none ∧ next ≤ mark.offset ∨
        ∃ expected, reread = some expected ∧ expected.offset < mark.offset) ∧
      admitReady next start reread mark = (.ready (mark.offset + 1) start none, .take gap) := by
  unfold admitReady
  cases reread with
  | none =>
      simp only
      by_cases before : mark.offset < next
      · rw [if_pos before]
        exact Or.inl rfl
      · rw [if_neg before]
        exact Or.inr (Or.inr (Or.inr ⟨_, Or.inl ⟨trivial, Int.not_lt.mp before⟩, rfl⟩))
  | some expected =>
      simp only
      by_cases there : mark.offset = expected.offset
      · rw [if_pos there]
        cases expected with
        | unverifiable offset => exact Or.inr (Or.inr (Or.inl ⟨_, rfl, there, rfl⟩))
        | expect recorded =>
            simp only
            by_cases other :
                (recorded.timestampMs, recorded.valueLen) ≠ (mark.timestampMs, mark.valueLen)
            · rw [if_pos other]
              exact Or.inr (Or.inl ⟨recorded, rfl, there, rfl⟩)
            · rw [if_neg other]
              exact Or.inr (Or.inr (Or.inl ⟨_, rfl, there, rfl⟩))
      · rw [if_neg there]
        by_cases before : mark.offset < expected.offset
        · rw [if_pos before]
          exact Or.inl rfl
        · rw [if_neg before]
          have past : expected.offset < mark.offset := by omega
          exact Or.inr (Or.inr (Or.inr ⟨_, Or.inr ⟨expected, rfl, past⟩, rfl⟩))

/-- Where a partition is blocked or waits for its re-read after a message, it did before. -/
theorem admitMessage_keeps {parts : Partitions} {own partition : Int} {mark : MessageMark}
    {state : State}
    (found : (parts.admitMessage own mark).1.lookup partition = some state)
    (keeps : ∀ next start, state ≠ .ready next start none) :
    parts.lookup partition = some state := by
  by_cases same : partition = own
  · subst same
    cases held : parts.lookup partition with
    | none =>
        rw [admitMessage_unowned held] at found
        rw [← held]
        exact found
    | some before =>
        cases before with
        | blocked block =>
            rw [admitMessage_blocked held] at found
            rw [← held]
            exact found
        | ready next start reread =>
            rw [(admitMessage_ready held mark).2] at found
            rcases admitReady_cases next start reread mark with
              same | ⟨_, _, _, same⟩ | ⟨_, _, _, same⟩ | ⟨_, _, same⟩
            · rw [same] at found
              exact found
            · rw [same] at found
              exact found
            · rw [same] at found
              exact absurd (Option.some_inj.mp found).symm (keeps _ _)
            · rw [same] at found
              exact absurd (Option.some_inj.mp found).symm (keeps _ _)
  · rw [admitMessage_of_ne parts same] at found
    exact found

end Partitions

namespace Member

variable (member : Member)

theorem nextExpected_ready {partition next start : Int} {reread : Option Reread}
    (found : member.parts.lookup partition = some (.ready next start reread)) :
    member.nextExpected partition = some next := by
  unfold nextExpected
  rw [found]

theorem nextExpected_blocked {partition : Int} {block : Block}
    (found : member.parts.lookup partition = some (.blocked block)) :
    member.nextExpected partition = none := by
  unfold nextExpected
  rw [found]

theorem ready_lookup (partition : Int) :
    member.ready.lookup partition = member.nextExpected partition := by
  unfold ready
  rw [Assoc.lookup_filterMap]
  by_cases own : partition ∈ member.parts.owned
  · rw [if_pos own]
  · rw [if_neg own]
    have gone : member.parts.lookup partition = none := by
      cases found : member.parts.lookup partition with
      | none => rfl
      | some state =>
          refine absurd ((Partitions.mem_owned_iff _ _).mpr ?_) own
          rw [found]
          rfl
    unfold nextExpected
    rw [gone]

/-! ### Reading the target again -/

/-- A refresh and the reset after it touch the handle and the fence only. -/
theorem refreshThenReset_rest (log : List (Registers.Writes TxnId Int)) (owned : List Int)
    (refresh : Refresh) :
    ∃ handle fence, (member.refreshThenReset log owned refresh).1 =
      { member with handle := handle, fence := fence } := by
  cases refresh with
  | unmoved error => exact ⟨member.handle, member.fence, rfl⟩
  | moved version error => exact ⟨_, member.fence, rfl⟩
  | done version reading => exact ⟨_, _, rfl⟩

theorem refreshAndReset_fst (log : List (Registers.Writes TxnId Int)) (refresh : Refresh) :
    (member.refreshAndReset log refresh).1 =
      (member.refreshThenReset log member.parts.owned refresh).1 := by
  unfold refreshAndReset
  cases failed : (member.refreshThenReset log member.parts.owned refresh).2 with
  | none => simp only [failed]
  | some error => simp only [failed]

theorem refreshAndReset_rest (log : List (Registers.Writes TxnId Int)) (refresh : Refresh) :
    ∃ handle fence, (member.refreshAndReset log refresh).1 =
      { member with handle := handle, fence := fence } := by
  rw [refreshAndReset_fst]
  exact member.refreshThenReset_rest log member.parts.owned refresh

/-! ### Repositioning -/

theorem undisturbed_parts (changed : List Int) :
    (member.undisturbed changed).parts = member.parts := by
  unfold undisturbed
  by_cases moved : member.bufferMoved changed
  · rw [if_pos moved]
    rfl
  · rw [if_neg moved]

theorem undisturbed_paused (changed : List Int) :
    (member.undisturbed changed).paused = member.paused := by
  unfold undisturbed
  by_cases moved : member.bufferMoved changed
  · rw [if_pos moved]
    rfl
  · rw [if_neg moved]

theorem undisturbed_next (changed : List Int) (partition : Int) :
    (member.undisturbed changed).nextInTarget partition = member.nextInTarget partition := by
  unfold undisturbed
  by_cases moved : member.bufferMoved changed
  · rw [if_pos moved]
    rfl
  · rw [if_neg moved]

theorem undisturbed_expected (changed : List Int) (partition : Int) :
    (member.undisturbed changed).nextExpected partition = member.nextExpected partition := by
  unfold nextExpected
  rw [undisturbed_parts]

theorem mem_toReposition {changed : List Int} {survives : Option KafkaBatch} {partition : Int} :
    partition ∈ member.toReposition changed survives ↔
      ∃ next, member.nextExpected partition = some next ∧
        (partition ∈ member.again changed ∨
          (member.undisturbed changed).misplaced survives partition next = true) := by
  unfold toReposition repositioned
  rw [List.mem_filter, undisturbed_expected, undisturbed_parts]
  constructor
  · rintro ⟨_own, moved⟩
    cases expected : member.nextExpected partition with
    | none =>
        rw [expected] at moved
        cases moved
    | some next =>
        rw [expected] at moved
        refine ⟨next, rfl, ?_⟩
        rcases Bool.or_eq_true_iff.mp moved with listed | misplaced
        · exact Or.inl (List.contains_iff_mem.mp listed)
        · exact Or.inr misplaced
  · rintro ⟨next, expected, moved⟩
    rw [expected]
    constructor
    · rw [Partitions.mem_owned_iff]
      unfold nextExpected at expected
      cases found : member.parts.lookup partition with
      | none =>
          rw [found] at expected
          cases expected
      | some state => rfl
    · apply Bool.or_eq_true_iff.mpr
      rcases moved with listed | misplaced
      · exact Or.inl (List.contains_iff_mem.mpr listed)
      · exact Or.inr misplaced

theorem repositionChanged_lookup (changed : List Int) (survives : Option KafkaBatch)
    (partition : Int) :
    (member.repositionChanged changed survives).parts.lookup partition =
      (member.parts.lookup partition).map fun state =>
        if partition ∈ member.toReposition changed survives then
          .ready ((member.nextInTarget partition).getD 0)
            ((member.nextInTarget partition).getD 0) none
        else state := by
  unfold repositionChanged
  simp only
  unfold readyAgain
  rw [undisturbed_parts, Assoc.lookup_map member.parts fun own state =>
    if (member.toReposition changed survives).contains own then
      .ready (((member.undisturbed changed).nextInTarget own).getD 0)
        (((member.undisturbed changed).nextInTarget own).getD 0) none
    else state]
  simp only [List.contains_iff_mem, undisturbed_next]

theorem repositionChanged_paused (changed : List Int) (survives : Option KafkaBatch) :
    (member.repositionChanged changed survives).paused =
      member.paused ++ member.toReposition changed survives := by
  unfold repositionChanged
  simp only [undisturbed_paused]

theorem repositionChanged_started (changed : List Int) (survives : Option KafkaBatch) :
    (member.repositionChanged changed survives).started = member.started := by
  unfold repositionChanged undisturbed
  by_cases moved : member.bufferMoved changed
  · simp only [if_pos moved]
    rfl
  · simp only [if_neg moved]

/-! ### Resolving -/

variable {member} in
theorem takeUp_parts (partition : Int) (start : Start) :
    (member.takeUp partition start).parts =
      Assoc.put partition (startState start) member.parts := by
  cases start with
  | ready offset reread => rfl
  | blocked block => rfl

theorem takeUp_fence (partition : Int) (start : Start) :
    (member.takeUp partition start).fence = member.fence := by
  cases start with
  | ready offset reread => rfl
  | blocked block => rfl

theorem takeUp_paused (partition : Int) (start : Start) :
    (member.takeUp partition start).paused = member.paused := by
  cases start with
  | ready offset reread => rfl
  | blocked block => rfl

theorem takeUp_started (partition : Int) (start : Start) :
    (member.takeUp partition start).started = member.started := by
  cases start with
  | ready offset reread => rfl
  | blocked block => rfl

/-- What a recheck finds of a partition whose watermarks it has. -/
def found (explicit : Int → Option Int) (ranges : List (Int × Int × Int)) (partition : Int) :
    Option Start :=
  (ranges.lookup partition).map fun range => member.startOf explicit partition range.1 range.2

theorem found_of_fence {other : Member} (same : other.fence = member.fence)
    (explicit : Int → Option Int) (ranges : List (Int × Int × Int)) (partition : Int) :
    other.found explicit ranges partition = member.found explicit ranges partition := by
  unfold found startOf
  rw [same]

theorem resolveOne_eq (explicit : Int → Option Int) (ranges : List (Int × Int × Int))
    (partition : Int) :
    member.resolveOne explicit ranges partition =
      match member.found explicit ranges partition with
      | some start => member.takeUp partition start
      | none => member := by
  unfold resolveOne found
  cases ranges.lookup partition with
  | none => rfl
  | some range => rfl

theorem resolveOne_fence (explicit : Int → Option Int) (ranges : List (Int × Int × Int))
    (partition : Int) : (member.resolveOne explicit ranges partition).fence = member.fence := by
  rw [resolveOne_eq]
  cases member.found explicit ranges partition with
  | none => rfl
  | some start => exact takeUp_fence member partition start

/-- A recheck changes the partitions it resolves, each to what it finds of it, and no other. -/
theorem resolveAll_lookup (explicit : Int → Option Int) (ranges : List (Int × Int × Int))
    (partitions : List Int) (partition : Int) :
    (member.resolveAll explicit ranges partitions).parts.lookup partition =
      if partition ∈ partitions then
        ((member.found explicit ranges partition).map startState).or
          (member.parts.lookup partition)
      else member.parts.lookup partition := by
  unfold resolveAll
  induction partitions generalizing member with
  | nil => rfl
  | cons head partitions ih =>
      rw [List.foldl_cons, ih,
        found_of_fence member (member.resolveOne_fence explicit ranges head)]
      rw [resolveOne_eq]
      by_cases same : partition = head
      · subst same
        cases finds : member.found explicit ranges partition with
        | none => simp
        | some start => simp [takeUp_parts, Assoc.lookup_put_self]
      · cases finds : member.found explicit ranges head with
        | none => simp [same]
        | some start => simp [takeUp_parts, Assoc.lookup_put_of_ne _ same, same]

theorem resolveAll_paused (explicit : Int → Option Int) (ranges : List (Int × Int × Int))
    (partitions : List Int) :
    (member.resolveAll explicit ranges partitions).paused = member.paused := by
  unfold resolveAll
  induction partitions generalizing member with
  | nil => rfl
  | cons head partitions ih =>
      rw [List.foldl_cons, ih, resolveOne_eq]
      cases member.found explicit ranges head with
      | none => rfl
      | some start => exact takeUp_paused member head start

theorem resolveAll_started (explicit : Int → Option Int) (ranges : List (Int × Int × Int))
    (partitions : List Int) :
    (member.resolveAll explicit ranges partitions).started = member.started := by
  unfold resolveAll
  induction partitions generalizing member with
  | nil => rfl
  | cons head partitions ih =>
      rw [List.foldl_cons, ih, resolveOne_eq]
      cases member.found explicit ranges head with
      | none => rfl
      | some start => exact takeUp_started member head start

theorem mem_toResolve {partition : Int} (among : partition ∈ member.toResolve) :
    ∃ block, member.parts.lookup partition = some (.blocked block) := by
  have resolvable := (List.mem_filter.mp among).2
  unfold Member.resolvable at resolvable
  cases found : member.parts.lookup partition with
  | none =>
      rw [found] at resolvable
      cases resolvable
  | some state =>
      cases state with
      | ready next start reread =>
          rw [found] at resolvable
          cases resolvable
      | blocked block => exact ⟨block, rfl⟩

/-! ### Blocking -/

theorem blockAll_lookup (blocks : List (Int × Block)) (partition : Int) :
    (∃ block, (partition, block) ∈ blocks ∧
      (member.blockAll blocks).parts.lookup partition = some (.blocked block)) ∨
    (∀ block, (partition, block) ∉ blocks) ∧
      (member.blockAll blocks).parts.lookup partition = member.parts.lookup partition := by
  unfold blockAll
  induction blocks generalizing member with
  | nil =>
      apply Or.inr
      constructor
      · intro block among
        cases among
      · rfl
  | cons head blocks ih =>
      rw [List.foldl_cons]
      rcases ih (member.blockPartition head.1 head.2) with ⟨block, among, found⟩ | ⟨away, found⟩
      · exact Or.inl ⟨block, List.mem_cons_of_mem _ among, found⟩
      · rw [found]
        by_cases same : partition = head.1
        · subst same
          exact Or.inl ⟨head.2, List.mem_cons_self, Assoc.lookup_put_self _ _ _⟩
        · apply Or.inr
          constructor
          · intro block among
            rcases List.mem_cons.mp among with rfl | later
            · exact same rfl
            · exact away block later
          · exact Assoc.lookup_put_of_ne _ same _

theorem blockAll_paused (blocks : List (Int × Block)) :
    (member.blockAll blocks).paused = member.paused ++ blocks.map Prod.fst := by
  unfold blockAll
  induction blocks generalizing member with
  | nil => exact (List.append_nil _).symm
  | cons head blocks ih =>
      rw [List.foldl_cons, ih]
      change (member.paused ++ [head.1]) ++ blocks.map Prod.fst = _
      rw [List.append_assoc]
      rfl

theorem blockAll_started (blocks : List (Int × Block)) :
    (member.blockAll blocks).started = member.started := by
  unfold blockAll
  induction blocks generalizing member with
  | nil => rfl
  | cons head blocks ih => exact ih (member.blockPartition head.1 head.2)

/-! ### Releasing and assigning -/

def isResumed (unsought : List Int) (partition : Int) : Bool :=
  decide (partition ∈ member.paused) && decide (partition ∉ unsought)

theorem resumed_lookup (unsought : List Int) (partition : Int) :
    (member.ready.filter fun entry =>
      decide (entry.1 ∈ member.paused) && decide (entry.1 ∉ unsought)).lookup partition =
        if member.isResumed unsought partition then member.nextExpected partition else none := by
  change (member.ready.filter fun entry => member.isResumed unsought entry.1).lookup partition = _
  rw [Assoc.lookup_filter, ready_lookup]

theorem release_started (unsought : List Int) (partition : Int) :
    (member.release unsought).started.lookup partition =
      (if member.isResumed unsought partition then member.nextExpected partition else none).or
        (member.started.lookup partition) := by
  rw [← resumed_lookup]
  exact Assoc.lookup_append _ _ _

theorem mem_release_paused (unsought : List Int) (partition : Int) :
    partition ∈ (member.release unsought).paused ↔ partition ∈ member.paused ∧
      (if member.isResumed unsought partition then member.nextExpected partition
        else none) = none := by
  rw [← resumed_lookup]
  unfold release
  rw [List.mem_filter, Option.isNone_iff_eq_none]

theorem takeStarts_lookup (partitions : List Int) (start : Int → Start) (partition : Int) :
    (member.takeStarts partitions start).parts.lookup partition =
      if partition ∈ partitions then some (startState (start partition)) else none :=
  Assoc.lookup_tabulate partitions (fun own => startState (start own)) partition

theorem takeStarts_started (partitions : List Int) (start : Int → Start) (partition : Int) :
    (member.takeStarts partitions start).started.lookup partition =
      if partition ∈ partitions then startOffset (start partition) else none :=
  Assoc.lookup_filterMap partitions (fun own => startOffset (start own)) partition

theorem mem_takeStarts_paused (partitions : List Int) (start : Int → Start) (partition : Int) :
    partition ∈ (member.takeStarts partitions start).paused ↔
      partition ∈ partitions ∧ startOffset (start partition) = none := by
  unfold takeStarts
  rw [List.mem_filter, Option.isNone_iff_eq_none]

/-! ### What an operation leaves of the handle and the fence -/

/-- The handle and the fence are the same in both. -/
def SameView (before after : Member) : Prop :=
  after.handle = before.handle ∧ after.fence = before.fence

theorem SameView.refl (member : Member) : SameView member member := ⟨rfl, rfl⟩

theorem SameView.trans {first second third : Member} (one : SameView first second)
    (other : SameView second third) : SameView first third :=
  ⟨other.1.trans one.1, other.2.trans one.2⟩

theorem SameView.foldl {α : Type} {change : Member → α → Member}
    (same : ∀ member item, SameView member (change member item)) (items : List α)
    (member : Member) : SameView member (items.foldl change member) := by
  induction items generalizing member with
  | nil => exact .refl member
  | cons item items ih => exact (same member item).trans (ih (change member item))

variable (explicit : Int → Option Int)

theorem repositionChanged_view (changed : List Int) (survives : Option KafkaBatch) :
    SameView member (member.repositionChanged changed survives) := by
  unfold repositionChanged undisturbed
  by_cases moved : member.bufferMoved changed
  · simp only [if_pos moved]
    exact ⟨rfl, rfl⟩
  · simp only [if_neg moved]
    exact ⟨rfl, rfl⟩

theorem feed_view (message : KafkaMessage) (fed : Fed) :
    SameView member (member.feed message fed) := by
  cases fed with
  | taken => exact ⟨rfl, rfl⟩
  | waits => exact ⟨rfl, rfl⟩

theorem feedStalled_view (fed : Fed) : SameView member (member.feedStalled fed) := by
  unfold feedStalled
  cases member.stalled with
  | none => exact .refl member
  | some message => exact feed_view _ message fed

theorem take_view (message : KafkaMessage) (fed : Fed) :
    SameView member (member.take message fed) := by
  unfold take
  by_cases paused : message.partition ∈ member.paused
  · rw [if_pos paused]
    exact .refl member
  · rw [if_neg paused]
    rcases member.parts.admitMessage message.partition message.mark with ⟨parts, _ | _ | _⟩
    · exact feed_view _ message fed
    · exact ⟨rfl, rfl⟩
    · exact ⟨rfl, rfl⟩

theorem outOfRange_view (watermarks : Watermarks) :
    SameView member (member.outOfRange watermarks) := by
  unfold outOfRange
  cases watermarks with
  | none => exact ⟨rfl, rfl⟩
  | some ranges =>
      by_cases nobody : (member.offenders ranges).isEmpty
      · simp only [if_pos nobody]
        exact ⟨rfl, rfl⟩
      · simp only [if_neg nobody]
        apply SameView.foldl
        intro member entry
        exact ⟨rfl, rfl⟩

theorem resolveAll_view (ranges : List (Int × Int × Int)) (partitions : List Int) :
    SameView member (member.resolveAll explicit ranges partitions) := by
  apply SameView.foldl
  intro member partition
  unfold resolveOne
  cases ranges.lookup partition with
  | none => exact .refl member
  | some range =>
      simp only
      cases member.startOf explicit partition range.1 range.2 with
      | ready offset reread => exact ⟨rfl, rfl⟩
      | blocked block => exact ⟨rfl, rfl⟩

theorem holdForClass_view {batch : KafkaBatch} {error : KafkaError} {after : Member}
    (held : member.holdForClass batch error = some after) : SameView member after := by
  unfold holdForClass at held
  cases cls : error.kafkaClass with
  | consumerFatal =>
      rw [cls] at held
      cases held
  | replan | transient | capacity | blockingPipeline | blockingPartition | openRefusal =>
      rw [cls] at held
      cases held
      exact ⟨rfl, rfl⟩

end Member

end Ddi.Kafka
