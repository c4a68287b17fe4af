/-
Moving a pipeline's offsets by hand, with the guards that keep a move from losing or
doubling rows. An operator names the next offset to read; a partition's transaction
holds the last one accounted for.
-/

import Ddi.Kafka.Takeover
import Ddi.Lib.Assoc
import Ddi.Lib.Ordered
import Ddi.Error
import Mathlib.Data.Int.Order.Basic

namespace Ddi.Kafka

/-- One partition as the operator's tools read it. -/
structure PartitionStatus where
  partition : Int
  /-- The last offset the target holds. -/
  stored : Option Int
  low : Int
  high : Int
  deriving DecidableEq

/-- The first offset that is not accounted for. -/
def PartitionStatus.currentNext (status : PartitionStatus) : Int :=
  match status.stored with
  | some last => last + 1
  | none => 0

/-- The offset's message can still be read. -/
def PartitionStatus.Holds (status : PartitionStatus) (offset : Int) : Prop :=
  status.low ≤ offset ∧ offset < status.high

/-- What the operator asked for. -/
structure Request where
  /-- The next offset to read of each partition named. -/
  moves : List (Int × Int) := []
  moves_sorted : Ordered.Sorted moves := by decide
  /-- Every partition's offset again, at its own value. -/
  reassert : Bool := false
  /-- Why offsets that are still in the topic are skipped. -/
  acknowledgeSkip : Option String := none
  allowReplay : Bool := false

/-- What a request comes to, once it has passed every guard. -/
structure Decision where
  /-- The transaction to write for each partition: the last offset accounted for. -/
  assert : List (Int × Int)
  overrideReason : Option String
  backward : Bool
  deriving DecidableEq

def refuse {α : Type} (why : String) : Except Error α := .error (.other s!"set-offsets: {why}")

/-- The statuses by their partition; of several for one, the last. -/
def byPartition (partitions : List PartitionStatus) : List (Int × PartitionStatus) :=
  Ordered.collect (partitions.map fun status => (status.partition, status))

/-- The stored offsets by their partition. -/
def storedOffsets (partitions : List PartitionStatus) : List (Int × Int) :=
  Ordered.collect
    (partitions.filterMap fun status => status.stored.map fun last => (status.partition, last))

/-- What the moves looked at so far come to. -/
structure Moved where
  assert : List (Int × Int) := []
  skips : Bool := false
  backward : Bool := false
  deriving DecidableEq

/-- A move to an offset above 0 that the topic has reached. -/
def moveTo (request : Request) (status : PartitionStatus) (moved : Moved) (partition next : Int) :
    Except Error Moved :=
  match compare next status.currentNext with
  | .eq => .ok { moved with assert := Ordered.insert partition (next - 1) moved.assert }
  | .gt =>
      -- What the topic has trimmed cannot be read any more, so that skipping it loses nothing.
      if max status.currentNext status.low < next then
        match request.acknowledgeSkip with
        | none =>
            refuse (s!"partition {partition}: --next {next} skips offsets " ++
              s!"{max status.currentNext status.low}..{next} that the topic still holds. " ++
              "Say why with --acknowledge-skip \"<reason>\"")
        | some _ =>
            .ok { moved with
              assert := Ordered.insert partition (next - 1) moved.assert
              skips := true }
      else
        .ok { moved with
          assert := Ordered.insert partition (next - 1) moved.assert
          skips := moved.skips || request.acknowledgeSkip.isSome }
  | .lt =>
      if !request.allowReplay then
        refuse (s!"partition {partition}: --next {next} is behind its next offset " ++
          s!"({status.currentNext}) and would read {next}..{status.currentNext} again. Pass " ++
          "--allow-replay if that is what you want (the rows are written twice)")
      else if next < status.low then
        refuse (s!"partition {partition}: --next {next} is below the topic's first offset " ++
          s!"({status.low}): those messages are gone")
      else
        .ok { moved with
          assert := Ordered.insert partition (next - 1) moved.assert
          backward := true }

/-- One move of a request. -/
def decideMove (known : List (Int × PartitionStatus)) (request : Request) (moved : Moved)
    (partition next : Int) : Except Error Moved :=
  match known.lookup partition with
  | none => refuse s!"the topic has no partition {partition}"
  | some status =>
      if next < 0 then
        refuse s!"partition {partition}: --next {next} is negative"
      else if next = 0 then
        match status.stored with
        | some last =>
            refuse (s!"partition {partition} has an offset (Some({last})); --next 0 would have " ++
              "to remove it, which a txn cannot. Use a new app_id with `starting_offsets` to " ++
              "read from 0")
        | none => .ok moved
      else if status.high < next then
        refuse (s!"partition {partition}: --next {next} is past the end of the topic " ++
          s!"({status.high})")
      else moveTo request status moved partition next

def decideMoves (known : List (Int × PartitionStatus)) (request : Request) (moved : Moved) :
    List (Int × Int) → Except Error Moved
  | [] => .ok moved
  | (partition, next) :: rest =>
      match decideMove known request moved partition next with
      | .error error => .error error
      | .ok moved => decideMoves known request moved rest

/-- Every guard of a move by hand. -/
def Request.decide (request : Request) (partitions : List PartitionStatus) (era : Era) :
    Except Error Decision :=
  if era = .fresh then
    refuse ("this app_id has no offsets in the target (a fresh one): start it with " ++
      "`starting_offsets` in the config instead. A partition's txn without the takeover marker " ++
      "would make the era read as kafka-delta-ingest's")
  else if request.reassert then
    if !request.moves.isEmpty then
      refuse "--reassert takes no --partition/--next/--all-partitions"
    else if (storedOffsets partitions).isEmpty then
      refuse "no partition has an offset to reassert"
    else
      .ok { assert := storedOffsets partitions, overrideReason := none, backward := false }
  else if request.moves.isEmpty then
    refuse "name a partition with --partition P --next O, or use --all-partitions"
  else
    match decideMoves (byPartition partitions) request {} request.moves with
    | .error error => .error error
    | .ok moved =>
        if moved.assert.isEmpty then
          refuse "nothing to write: every named partition is at --next 0 already"
        else
          .ok
            { assert := moved.assert
              overrideReason := if moved.skips then request.acknowledgeSkip else none
              backward := moved.backward }

/-! ### What a move may do -/

/-- A move that passed its guards, and what it left in the decision. -/
structure Guarded (request : Request) (moved : Moved) (status : PartitionStatus) (next : Int) :
    Prop where
  reached : next = 0 ∧ status.stored = none ∨ 0 < next ∧ next ≤ status.high
  skipped : max status.currentNext status.low < next →
    request.acknowledgeSkip.isSome ∧ moved.skips = true
  replayed : next < status.currentNext →
    request.allowReplay = true ∧ status.low ≤ next ∧ moved.backward = true

/-- The flags a later move leaves are at least those of the earlier ones. -/
structure Moved.Grows (before after : Moved) : Prop where
  skips : before.skips = true → after.skips = true
  backward : before.backward = true → after.backward = true

theorem Moved.Grows.refl (moved : Moved) : moved.Grows moved := ⟨id, id⟩

theorem Guarded.grows {request : Request} {before after : Moved} {status : PartitionStatus}
    {next : Int} (guarded : Guarded request before status next) (grows : before.Grows after) :
    Guarded request after status next where
  reached := guarded.reached
  skipped := by
    intro past
    exact ⟨(guarded.skipped past).1, grows.skips (guarded.skipped past).2⟩
  replayed := by
    intro behind
    obtain ⟨allowed, held, backward⟩ := guarded.replayed behind
    exact ⟨allowed, held, grows.backward backward⟩

/-- All that a move to an offset above 0 can do. -/
theorem moveTo_cases {request : Request} {status : PartitionStatus} {before after : Moved}
    {partition next : Int} (positive : 0 < next) (high : next ≤ status.high)
    (accepted : moveTo request status before partition next = .ok after) :
    Guarded request after status next ∧ before.Grows after ∧
      after.assert = Ordered.insert partition (next - 1) before.assert ∧
      (after.skips = true → before.skips = true ∨ request.acknowledgeSkip.isSome) := by
  unfold moveTo at accepted
  cases order : compare next status.currentNext with
  | eq =>
      rw [order] at accepted
      cases accepted
      have same := compare_eq_iff_eq.mp order
      refine ⟨⟨Or.inr ⟨positive, high⟩, ?_, ?_⟩, ⟨id, id⟩, rfl, Or.inl⟩
      · intro past
        exact absurd (lt_of_le_of_lt (le_max_left _ _) past) (by omega)
      · intro behind
        omega
  | gt =>
      rw [order] at accepted
      have ahead := compare_gt_iff_gt.mp order
      by_cases past : max status.currentNext status.low < next
      · simp only [if_pos past] at accepted
        cases acknowledged : request.acknowledgeSkip with
        | none =>
            rw [acknowledged] at accepted
            cases accepted
        | some reason =>
            rw [acknowledged] at accepted
            cases accepted
            refine ⟨⟨Or.inr ⟨positive, high⟩, ?_, ?_⟩, ⟨fun _ => rfl, id⟩, rfl, fun _ => Or.inr rfl⟩
            · intro _past
              rw [acknowledged]
              exact ⟨rfl, rfl⟩
            · intro behind
              omega
      · simp only [if_neg past] at accepted
        cases accepted
        refine ⟨⟨Or.inr ⟨positive, high⟩, fun again => absurd again past, ?_⟩, ⟨?_, id⟩, rfl, ?_⟩
        · intro behind
          omega
        · intro skips
          simp only [skips, Bool.true_or]
        · intro skips
          exact Bool.or_eq_true_iff.mp skips
  | lt =>
      rw [order] at accepted
      by_cases allowed : request.allowReplay
      · by_cases gone : next < status.low
        · simp only [allowed, Bool.not_true, Bool.false_eq_true, if_false, if_pos gone] at accepted
          cases accepted
        · simp only [allowed, Bool.not_true, Bool.false_eq_true, if_false, if_neg gone] at accepted
          cases accepted
          have behind := compare_lt_iff_lt.mp order
          refine ⟨⟨Or.inr ⟨positive, high⟩, ?_, ?_⟩, ⟨id, fun _ => rfl⟩, rfl, Or.inl⟩
          · intro past
            exact absurd (lt_of_le_of_lt (le_max_left _ _) past) (by omega)
          · intro _behind
            exact ⟨allowed, Int.not_lt.mp gone, rfl⟩
      · simp only [allowed, Bool.not_false, if_true] at accepted
        cases accepted

/-- All that one move can do: it writes the offset before the next one, or, of a partition
without an offset that stays at 0, nothing. -/
theorem decideMove_cases {known : List (Int × PartitionStatus)} {request : Request}
    {before after : Moved} {partition next : Int}
    (accepted : decideMove known request before partition next = .ok after) :
    ∃ status, known.lookup partition = some status ∧ Guarded request after status next ∧
      before.Grows after ∧
      (after.skips = true → before.skips = true ∨ request.acknowledgeSkip.isSome) ∧
      (next = 0 ∧ after = before ∨
        next ≠ 0 ∧ after.assert = Ordered.insert partition (next - 1) before.assert) := by
  unfold decideMove at accepted
  cases found : known.lookup partition with
  | none =>
      rw [found] at accepted
      cases accepted
  | some status =>
      rw [found] at accepted
      simp only at accepted
      by_cases negative : next < 0
      · rw [if_pos negative] at accepted
        cases accepted
      · rw [if_neg negative] at accepted
        by_cases zero : next = 0
        · rw [if_pos zero] at accepted
          cases stored : status.stored with
          | some last =>
              rw [stored] at accepted
              cases accepted
          | none =>
              rw [stored] at accepted
              cases accepted
              have at_next : status.currentNext = 0 := by
                unfold PartitionStatus.currentNext
                rw [stored]
              refine ⟨status, rfl, ⟨Or.inl ⟨zero, stored⟩, ?_, ?_⟩, .refl _, Or.inl,
                Or.inl ⟨zero, rfl⟩⟩
              · intro past
                exact absurd (lt_of_le_of_lt (le_max_left _ _) past) (by omega)
              · intro behind
                omega
        · rw [if_neg zero] at accepted
          by_cases past : status.high < next
          · rw [if_pos past] at accepted
            cases accepted
          · rw [if_neg past] at accepted
            obtain ⟨guarded, grows, wrote, skips⟩ :=
              moveTo_cases (by omega) (Int.not_lt.mp past) accepted
            exact ⟨status, rfl, guarded, grows, skips, Or.inr ⟨zero, wrote⟩⟩

/-- What the moves looked at come to. -/
structure Accounts (known : List (Int × PartitionStatus)) (request : Request)
    (seen : List (Int × Int)) (moved : Moved) : Prop where
  sorted : Ordered.Sorted moved.assert
  wrote : ∀ partition last, moved.assert.lookup partition = some last ↔
    (partition, last + 1) ∈ seen ∧ last + 1 ≠ 0
  guarded : ∀ partition next, (partition, next) ∈ seen →
    ∃ status, known.lookup partition = some status ∧ Guarded request moved status next
  skips : moved.skips = true → request.acknowledgeSkip.isSome

theorem Accounts.nothing (known : List (Int × PartitionStatus)) (request : Request) :
    Accounts known request [] {} where
  sorted := List.Pairwise.nil
  wrote := by simp
  guarded := by simp
  skips := by simp

theorem Accounts.decideMove {known : List (Int × PartitionStatus)} {request : Request}
    {seen : List (Int × Int)} {before after : Moved} {partition next : Int}
    (accounts : Accounts known request seen before)
    (new : ∀ entry, entry ∈ seen → entry.1 ≠ partition)
    (accepted : decideMove known request before partition next = .ok after) :
    Accounts known request (seen ++ [(partition, next)]) after := by
  obtain ⟨status, found, guarded, grows, skips, wrote⟩ := decideMove_cases accepted
  have earlier : ∀ other wanted, (other, wanted) ∈ seen ++ [(partition, next)] →
      ∃ status, known.lookup other = some status ∧ Guarded request after status wanted := by
    intro other wanted among
    rcases List.mem_append.mp among with before | here
    · obtain ⟨status, found, guarded⟩ := accounts.guarded other wanted before
      exact ⟨status, found, guarded.grows grows⟩
    · cases List.mem_singleton.mp here
      exact ⟨status, found, guarded⟩
  have acknowledged : after.skips = true → request.acknowledgeSkip.isSome := by
    intro skipped
    rcases skips skipped with before | given
    · exact accounts.skips before
    · exact given
  rcases wrote with ⟨zero, same⟩ | ⟨nonzero, inserted⟩
  · subst same
    refine ⟨accounts.sorted, ?_, earlier, acknowledged⟩
    intro other last
    rw [accounts.wrote, List.mem_append, List.mem_singleton, Prod.mk.injEq]
    constructor
    · intro held
      exact ⟨Or.inl held.1, held.2⟩
    · rintro ⟨held | ⟨_same, at_zero⟩, nonzero⟩
      · exact ⟨held, nonzero⟩
      · omega
  · refine ⟨?_, ?_, earlier, acknowledged⟩
    · rw [inserted]
      exact accounts.sorted.insert _ _
    · intro other last
      rw [inserted, Ordered.lookup_insert accounts.sorted, List.mem_append, List.mem_singleton,
        Prod.mk.injEq]
      by_cases same : other = partition
      · subst same
        rw [if_pos rfl, Option.some.injEq]
        constructor
        · intro value
          exact ⟨Or.inr ⟨rfl, by omega⟩, by omega⟩
        · rintro ⟨held | ⟨_same, value⟩, _nonzero⟩
          · exact absurd rfl (new _ held)
          · omega
      · rw [if_neg same, accounts.wrote]
        constructor
        · intro held
          exact ⟨Or.inl held.1, held.2⟩
        · rintro ⟨held | ⟨equal, _value⟩, nonzero⟩
          · exact ⟨held, nonzero⟩
          · exact absurd equal same

/-- The moves' partitions are distinct, so that each is looked at once. -/
theorem Accounts.decideMoves {known : List (Int × PartitionStatus)} {request : Request}
    {moves : List (Int × Int)} {seen : List (Int × Int)} {before after : Moved}
    (accounts : Accounts known request seen before) (sorted : Ordered.Sorted (seen ++ moves))
    (accepted : decideMoves known request before moves = .ok after) :
    Accounts known request (seen ++ moves) after := by
  induction moves generalizing seen before with
  | nil =>
      cases accepted
      rw [List.append_nil]
      exact accounts
  | cons head moves ih =>
      obtain ⟨partition, next⟩ := head
      have new : ∀ entry, entry ∈ seen → entry.1 ≠ partition := by
        intro entry among
        have below := (List.pairwise_append.mp sorted).2.2 entry among _ List.mem_cons_self
        exact below.ne
      unfold Kafka.decideMoves at accepted
      cases moved : Kafka.decideMove known request before partition next with
      | error error =>
          rw [moved] at accepted
          cases accepted
      | ok middle =>
          rw [moved] at accepted
          rw [List.append_cons] at sorted ⊢
          exact ih (accounts.decideMove new moved) sorted accepted

/-! ### What a decision may do -/

/-- A decision that neither skips nor reads again silently. -/
structure Decision.Accountable (partitions : List PartitionStatus) (request : Request)
    (decision : Decision) : Prop where
  /-- A partition without an offset that stays at 0 is the one named partition not written. -/
  named : ∀ partition next, request.moves.lookup partition = some next →
    ∃ status, (byPartition partitions).lookup partition = some status ∧
      (next = 0 ∧ status.stored = none ∧ decision.assert.lookup partition = none ∨
        decision.assert.lookup partition = some (next - 1) ∧ 0 < next ∧ next ≤ status.high)
  skipped : ∀ partition next status offset, request.moves.lookup partition = some next →
    (byPartition partitions).lookup partition = some status →
    status.currentNext ≤ offset → offset < next → status.Holds offset →
      ∃ reason, request.acknowledgeSkip = some reason ∧ decision.overrideReason = some reason
  /-- An offset the topic has not reached again is not below its first one either. -/
  replayed : ∀ partition next status offset, request.moves.lookup partition = some next →
    (byPartition partitions).lookup partition = some status →
    next ≤ offset → offset < status.currentNext →
      request.allowReplay = true ∧ status.low ≤ offset ∧ decision.backward = true
  kept : ∀ partition status, (byPartition partitions).lookup partition = some status →
    request.moves.lookup partition = some status.currentNext →
      decision.assert.lookup partition = status.stored
  unnamed : ∀ partition last, request.moves.lookup partition = none →
    decision.assert.lookup partition = some last →
      ∃ status, status ∈ partitions ∧ status.partition = partition ∧ status.stored = some last
  reason : ∀ reason, decision.overrideReason = some reason → request.acknowledgeSkip = some reason

theorem storedOffsets_lookup {partitions : List PartitionStatus} {partition last : Int}
    (found : (storedOffsets partitions).lookup partition = some last) :
    ∃ status, status ∈ partitions ∧ status.partition = partition ∧ status.stored = some last := by
  obtain ⟨status, among, held⟩ := List.mem_filterMap.mp (Ordered.mem_of_lookup_collect found)
  cases stored : status.stored with
  | none =>
      rw [stored] at held
      cases held
  | some offset =>
      rw [stored] at held
      cases held
      exact ⟨status, among, rfl, stored⟩

theorem reassert_accountable (partitions : List PartitionStatus) {request : Request}
    (alone : request.moves = []) :
    Decision.Accountable partitions request
      { assert := storedOffsets partitions, overrideReason := none, backward := false } where
  named := by simp [alone]
  skipped := by simp [alone]
  replayed := by simp [alone]
  kept := by simp [alone]
  unnamed := fun _partition _last _unnamed => storedOffsets_lookup
  reason := nofun

theorem Accounts.lookup {known : List (Int × PartitionStatus)} {request : Request}
    {moved : Moved} (accounts : Accounts known request request.moves moved) {partition next : Int}
    (named : request.moves.lookup partition = some next) :
    moved.assert.lookup partition = if next = 0 then none else some (next - 1) := by
  by_cases zero : next = 0
  · rw [if_pos zero]
    cases held : moved.assert.lookup partition with
    | none => rfl
    | some last =>
        obtain ⟨among, nonzero⟩ := (accounts.wrote partition last).mp held
        rw [request.moves_sorted.lookup_of_mem among] at named
        cases named
        exact absurd zero nonzero
  · rw [if_neg zero]
    apply (accounts.wrote partition (next - 1)).mpr
    rw [Int.sub_add_cancel]
    exact ⟨Assoc.mem_of_lookup named, zero⟩

/-- The guards of the moves, read as what the whole decision may do. -/
theorem Accounts.accountable {partitions : List PartitionStatus} {request : Request}
    {moved : Moved} (accounts : Accounts (byPartition partitions) request request.moves moved) :
    Decision.Accountable partitions request
      { assert := moved.assert
        overrideReason := if moved.skips then request.acknowledgeSkip else none
        backward := moved.backward } := by
  have guarded : ∀ {partition next status}, request.moves.lookup partition = some next →
      (byPartition partitions).lookup partition = some status →
      Guarded request moved status next := by
    intro partition next status named found
    obtain ⟨own, own_found, guarded⟩ :=
      accounts.guarded partition next (Assoc.mem_of_lookup named)
    rw [found] at own_found
    cases own_found
    exact guarded
  constructor
  case named =>
    intro partition next named
    obtain ⟨status, found, own⟩ := accounts.guarded partition next (Assoc.mem_of_lookup named)
    refine ⟨status, found, ?_⟩
    rcases own.reached with ⟨zero, nothing⟩ | ⟨positive, high⟩
    · left
      refine ⟨zero, nothing, ?_⟩
      rw [accounts.lookup named, if_pos zero]
    · right
      rw [accounts.lookup named, if_neg (by omega)]
      exact ⟨rfl, positive, high⟩
  case skipped =>
    intro partition next status offset named found after before held
    have past : max status.currentNext status.low < next :=
      max_lt (lt_of_le_of_lt after before) (lt_of_le_of_lt held.1 before)
    obtain ⟨given, skips⟩ := (guarded named found).skipped past
    obtain ⟨reason, acknowledged⟩ := Option.isSome_iff_exists.mp given
    refine ⟨reason, acknowledged, ?_⟩
    simp only [skips, if_true, acknowledged]
  case replayed =>
    intro partition next status offset named found after before
    obtain ⟨allowed, held, backward⟩ :=
      (guarded named found).replayed (lt_of_le_of_lt after before)
    exact ⟨allowed, held.trans after, backward⟩
  case kept =>
    intro partition status found named
    rw [accounts.lookup named]
    have reached := (guarded named found).reached
    unfold PartitionStatus.currentNext at reached ⊢
    cases stored : status.stored with
    | none => simp only [if_true]
    | some last =>
        rw [stored] at reached
        rcases reached with ⟨_zero, nothing⟩ | ⟨positive, _high⟩
        · cases nothing
        · simp only at positive ⊢
          rw [if_neg (by omega), Int.add_sub_cancel]
  case unnamed =>
    intro partition last unnamed held
    have among := ((accounts.wrote partition last).mp held).1
    rw [request.moves_sorted.lookup_of_mem among] at unnamed
    cases unnamed
  case reason =>
    intro reason recorded
    by_cases skips : moved.skips
    · simpa only [skips, if_true] using recorded
    · simp only [skips, Bool.false_eq_true, if_false] at recorded
      cases recorded

theorem Request.decide_accountable {request : Request} {partitions : List PartitionStatus}
    {era : Era} {decision : Decision} (accepted : request.decide partitions era = .ok decision) :
    decision.Accountable partitions request := by
  unfold Request.decide at accepted
  by_cases fresh : era = .fresh
  · rw [if_pos fresh] at accepted
    cases accepted
  · rw [if_neg fresh] at accepted
    by_cases reassert : request.reassert
    · rw [if_pos reassert] at accepted
      cases moves : request.moves with
      | cons head rest =>
          rw [moves] at accepted
          cases accepted
      | nil =>
          rw [moves] at accepted
          by_cases nothing : (storedOffsets partitions).isEmpty
          · simp only [nothing, List.isEmpty_nil, Bool.not_true, Bool.false_eq_true, if_false,
              if_true] at accepted
            cases accepted
          · simp only [nothing, List.isEmpty_nil, Bool.not_true, Bool.false_eq_true,
              if_false] at accepted
            cases accepted
            exact reassert_accountable partitions moves
    · rw [if_neg reassert] at accepted
      by_cases none_named : request.moves.isEmpty
      · rw [if_pos none_named] at accepted
        cases accepted
      · rw [if_neg none_named] at accepted
        cases moves : decideMoves (byPartition partitions) request {} request.moves with
        | error error =>
            rw [moves] at accepted
            cases accepted
        | ok moved =>
            rw [moves] at accepted
            have accounts := (Accounts.nothing (byPartition partitions) request).decideMoves
              request.moves_sorted moves
            by_cases nothing : moved.assert.isEmpty
            · simp only [nothing, if_true] at accepted
              cases accepted
            · simp only [nothing, Bool.false_eq_true, if_false] at accepted
              cases accepted
              exact accounts.accountable

/-- Partition 0 moved past 40 offsets that the topic still holds. -/
def movedForward : Request where
  moves := [(0, 50)]
  moves_sorted := by decide
  acknowledgeSkip := some "poison pill"

theorem movedForward_accountable :
    Decision.Accountable [⟨0, some 9, 0, 100⟩] movedForward
      { assert := [(0, 49)], overrideReason := some "poison pill", backward := false } := by
  have accepted : movedForward.decide [⟨0, some 9, 0, 100⟩] .ddi =
      .ok { assert := [(0, 49)], overrideReason := some "poison pill", backward := false } := by
    decide
  exact Request.decide_accountable accepted

/-- Two partitions without an offset, the first kept at 0. -/
def firstKept : Request where
  moves := [(0, 0), (1, 40)]
  moves_sorted := by decide
  acknowledgeSkip := some "start here"

/-- A partition named at 0 is not written, as an offset of -1 would have to be. -/
theorem firstKept_unwritten :
    ¬ ∀ (request : Request) (partitions : List PartitionStatus) (era : Era) (decision : Decision),
      request.decide partitions era = .ok decision →
      ∀ partition next, request.moves.lookup partition = some next →
        decision.assert.lookup partition = some (next - 1) ∧ 0 < next := by
  intro written
  have accepted : firstKept.decide [⟨0, none, 0, 100⟩, ⟨1, none, 0, 100⟩] .kdi =
      .ok { assert := [(1, 39)], overrideReason := some "start here", backward := false } := by
    decide
  exact absurd (written _ _ _ _ accepted 0 0 (by decide)).2 (by decide)

/-! ### Writing the decision -/

/-- A commit another writer beat this one to is read again and tried again this many times. -/
def maxAttempts : Nat := 5

/-- What committing the decision's offsets comes to. -/
inductive Written
  | committed (version : Int)
  | conflict (error : Error)
  | failed (error : Error)

/-- What one attempt meets: what it reads of the target and the topic, its commit, and the
checkpoint made right after a move backwards, read back. -/
structure SetAttempt where
  view : Except Error (Era × List PartitionStatus)
  commit : Written
  checkpoint : Except Error Unit

/-- What was done. -/
structure Outcome where
  version : Int
  /-- The offset stored before, and the one stored after. -/
  moved : List (Int × Option Int × Int)
  checkpointed : Bool

def movedOffsets (partitions : List PartitionStatus) (decision : Decision) :
    List (Int × Option Int × Int) :=
  decision.assert.map fun entry =>
    (entry.1, (partitions.find? fun status => status.partition == entry.1).bind (·.stored), entry.2)

/-- The attempts that are left. A commit reported as a conflict may have landed, so that a move
backwards decided by any attempt asks for the checkpoint. -/
def setOffsetsFrom (request : Request) (backward : Bool) (last : Option Error) :
    List SetAttempt → Except Error Outcome
  | [] => .error (last.getD (.other "set-offsets: no attempt was made"))
  | attempt :: rest => do
      let (era, partitions) ← attempt.view
      let decision ← request.decide partitions era
      let backward := backward || decision.backward
      match attempt.commit with
      | .committed version =>
          if backward then attempt.checkpoint
          return { version, moved := movedOffsets partitions decision, checkpointed := backward }
      | .conflict error =>
          if rest.isEmpty then .error error
          else setOffsetsFrom request backward (some error) rest
      | .failed error => .error error

def setOffsets (request : Request) (attempts : Nat → SetAttempt) : Except Error Outcome :=
  setOffsetsFrom request false none ((List.range maxAttempts).map attempts)

/-- What is written is what the guards accept for the target and the topic read right before. -/
theorem setOffsetsFrom_decided {request : Request} {attempts : List SetAttempt} {backward : Bool}
    {last : Option Error} {outcome : Outcome}
    (done : setOffsetsFrom request backward last attempts = .ok outcome) :
    ∃ attempt, attempt ∈ attempts ∧ attempt.commit = .committed outcome.version ∧
      ∃ era partitions decision, attempt.view = .ok (era, partitions) ∧
        request.decide partitions era = .ok decision ∧
        outcome.moved = movedOffsets partitions decision ∧
        (decision.backward = true → outcome.checkpointed = true ∧ attempt.checkpoint = .ok ()) := by
  induction attempts generalizing backward last with
  | nil => cases done
  | cons attempt rest ih =>
      unfold setOffsetsFrom at done
      cases view : attempt.view with
      | error error =>
          rw [view] at done
          cases done
      | ok read =>
          obtain ⟨era, partitions⟩ := read
          rw [view] at done
          cases decided : request.decide partitions era with
          | error error =>
              simp only [bind, Except.bind, decided] at done
              cases done
          | ok decision =>
              simp only [bind, Except.bind, decided] at done
              cases commit : attempt.commit with
              | committed version =>
                  rw [commit] at done
                  refine ⟨attempt, List.mem_cons_self, ?_⟩
                  cases either : backward || decision.backward with
                  | false =>
                      simp only [either, Bool.false_eq_true, if_false] at done
                      cases done
                      refine ⟨commit, era, partitions, decision, view, decided, rfl, ?_⟩
                      intro moves
                      rw [moves, Bool.or_true] at either
                      cases either
                  | true =>
                      simp only [either, if_true] at done
                      cases checkpoint : attempt.checkpoint with
                      | error error =>
                          rw [checkpoint] at done
                          cases done
                      | ok made =>
                          rw [checkpoint] at done
                          cases done
                          exact ⟨commit, era, partitions, decision, view, decided, rfl,
                            fun _moves => ⟨rfl, rfl⟩⟩
              | conflict error =>
                  rw [commit] at done
                  cases rest with
                  | nil => cases done
                  | cons next rest =>
                      have again : setOffsetsFrom request (backward || decision.backward)
                          (some error) (next :: rest) = .ok outcome := done
                      obtain ⟨attempt, among, found⟩ := ih again
                      exact ⟨attempt, List.mem_cons_of_mem _ among, found⟩
              | failed error =>
                  rw [commit] at done
                  cases done

end Ddi.Kafka
