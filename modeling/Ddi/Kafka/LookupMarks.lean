/-
The marks below a checkpoint: what the walk down from it finds for a transaction, and that
what an earlier walk remembered of it makes no difference.
-/

import Ddi.Kafka.LookupLog

namespace Ddi.Kafka.Lookup.View

variable (served : Nat → Served)

/-- The mark of the newest commit with the application id's transaction, from
`floor + count - 1` down to `floor`, when that is of the version answered. -/
def belowMark (floor : Nat) (id : String) (version : Int) : Nat → Option MessageMark
  | 0 => none
  | count + 1 =>
      match served (floor + count) with
      | .file (some lines) =>
          match lastTxn lines id with
          | some txn => if txn.version = version then recordedMark lines txn else none
          | none => belowMark floor id version count
      | _ => none

/-- The mark that the commits below a checkpoint have for a transaction. -/
def bottomMark (bottom : Nat) (id : String) (version : Int) : Option MessageMark :=
  belowMark served (bottom - belowCheckpointReads) id version
    (bottom - (bottom - belowCheckpointReads))

/-- What the memo remembers of a checkpoint is what the commits below it have. -/
def Memo.Agrees (memo : Memo) : Prop :=
  ∀ bottom, memo.checkpoint = some bottom → ∀ id version mark,
    memo.found.lookup id = some (version, mark) → mark = bottomMark served bottom id version

/-- An answer with the mark that belongs to it. -/
def marked (bottom : Nat) (id : String) (state : TxnState) : TxnState :=
  { state with mark := state.version.bind (bottomMark served bottom id) }

/-- What is found, once every answer still being looked for has its mark. -/
def settled (bottom : Nat) (answered : List String) (found : Found) (id : String) :
    Option TxnState :=
  (found.lookup id).map fun state => if id ∈ answered then marked served bottom id state else state

/-- The answers that are looked for are there, without a mark so far. -/
def Pending (answered : List String) (found : Found) : Prop :=
  ∀ id, id ∈ answered → ∃ version, found.lookup id = some (unmarked version)

variable {served} {bottom : Nat}

theorem settled_nil (found : Found) (id : String) :
    settled served bottom [] found id = found.lookup id := by
  unfold settled
  simp

theorem settled_cons (own : String) (answered : List String) (found : Found) (id : String) :
    settled served bottom (own :: answered) found id =
      if id = own then (settled served bottom answered found id).map (marked served bottom id)
      else settled served bottom answered found id := by
  unfold settled
  by_cases here : id = own
  · rw [if_pos here, Option.map_map]
    congr 1
    funext state
    rw [if_pos (here ▸ List.mem_cons_self)]
    by_cases among : id ∈ answered
    · simp [among, marked]
    · simp [among]
  · rw [if_neg here]
    simp [here]

/-- Putting an answer's own mark beside it takes it off what is looked for. -/
theorem settled_put {own : String} {state : TxnState} {found : Found}
    (held : found.lookup own = some state) (answered : List String) (id : String) :
    settled served bottom answered (Assoc.put own (marked served bottom own state) found) id =
      settled served bottom (own :: answered) found id := by
  rw [settled_cons]
  unfold settled
  rw [Assoc.lookup_put]
  by_cases here : id = own
  · subst here
    rw [if_pos rfl, if_pos rfl, held, Option.map_map]
    by_cases among : id ∈ answered
    · simp [among, marked]
    · simp [among]
  · rw [if_neg here, if_neg here]

theorem settled_congr {answered others : List String} {found : Found} {id : String}
    (same : id ∈ answered ↔ id ∈ others) :
    settled served bottom answered found id = settled served bottom others found id := by
  unfold settled
  simp only [same]

/-! ### What is already known -/

theorem recall_cases (memo : Memo) (own : String) (answered : List String) (found : Found) :
    (found.lookup own = none ∧ recalled memo (own :: answered) found = recalled memo answered found) ∨
    (∃ answer mark, found.lookup own = some answer ∧ remembered memo own answer = some mark ∧
      recalled memo (own :: answered) found =
        recalled memo answered (Assoc.put own { answer with mark } found)) ∨
    recalled memo (own :: answered) found =
      (own :: (recalled memo answered found).1, (recalled memo answered found).2) := by
  rw [recalled]
  cases held : found.lookup own with
  | none => exact Or.inl ⟨rfl, rfl⟩
  | some answer =>
      cases known : remembered memo own answer with
      | some mark => exact Or.inr (Or.inl ⟨answer, mark, rfl, known, by simp only [known]⟩)
      | none =>
          simp only [known]
          exact Or.inr (Or.inr trivial)

theorem remembered_agrees {memo : Memo} (agrees : memo.Agrees served)
    (at_bottom : memo.checkpoint = some bottom) {id : String} {answer : TxnState}
    {mark : Option MessageMark} (known : remembered memo id answer = some mark) :
    { answer with mark } = marked served bottom id answer := by
  unfold remembered at known
  cases held : memo.found.lookup id with
  | none =>
      rw [held] at known
      cases known
  | some entry =>
      obtain ⟨version, own_mark⟩ := entry
      simp only [held] at known
      by_cases same : answer.version = some version
      · rw [if_pos same] at known
        cases known
        rw [agrees bottom at_bottom id version mark held]
        unfold marked
        simp only [same, Option.bind_some]
      · rw [if_neg same] at known
        cases known

theorem recall_kept (memo : Memo) (answered : List String) (found : Found) {id : String}
    (kept : id ∈ (recalled memo answered found).1) : id ∈ answered := by
  induction answered generalizing found with
  | nil => exact kept
  | cons own answered ih =>
      rcases recall_cases memo own answered found with
        ⟨_none, same⟩ | ⟨answer, mark, _held, _known, same⟩ | same
      · rw [same] at kept
        exact List.mem_cons_of_mem _ (ih _ kept)
      · rw [same] at kept
        exact List.mem_cons_of_mem _ (ih _ kept)
      · rw [same] at kept
        exact (List.mem_cons.mp kept).elim (fun here => here ▸ List.mem_cons_self)
          fun later => List.mem_cons_of_mem _ (ih _ later)

theorem recall_lookup (memo : Memo) {answered : List String} (distinct : answered.Nodup)
    (found : Found) {id : String}
    (kept : id ∈ (recalled memo answered found).1 ∨ id ∉ answered) :
    (recalled memo answered found).2.lookup id = found.lookup id := by
  induction answered generalizing found with
  | nil => rfl
  | cons own answered ih =>
      obtain ⟨away, rest_distinct⟩ := List.nodup_cons.mp distinct
      have outside : id ∉ own :: answered → id ∉ answered := fun absent member =>
        absent (List.mem_cons_of_mem _ member)
      rcases recall_cases memo own answered found with
        ⟨_none, same⟩ | ⟨answer, mark, _held, _known, same⟩ | same
      · rw [same] at kept ⊢
        exact ih rest_distinct _ (kept.imp_right outside)
      · rw [same] at kept ⊢
        rw [ih rest_distinct _ (kept.imp_right outside)]
        apply Assoc.lookup_put_of_ne
        intro here
        subst here
        rcases kept with inside | absent
        · exact away (recall_kept memo answered _ inside)
        · exact absent List.mem_cons_self
      · rw [same] at kept ⊢
        apply ih rest_distinct
        rcases kept with inside | absent
        · rcases List.mem_cons.mp inside with rfl | member
          · exact Or.inr away
          · exact Or.inl member
        · exact Or.inr (outside absent)

theorem recall_settled {memo : Memo} (agrees : memo.Agrees served)
    (at_bottom : memo.checkpoint = some bottom) (answered : List String) (found : Found)
    (id : String) :
    settled served bottom (recalled memo answered found).1 (recalled memo answered found).2 id =
      settled served bottom answered found id := by
  induction answered generalizing found with
  | nil => rfl
  | cons own answered ih =>
      rcases recall_cases memo own answered found with
        ⟨none_held, same⟩ | ⟨answer, mark, held, known, same⟩ | same
      · rw [same, ih, settled_cons]
        by_cases here : id = own
        · subst here
          rw [if_pos rfl]
          unfold settled
          rw [none_held]
          rfl
        · rw [if_neg here]
      · rw [same, remembered_agrees agrees at_bottom known, ih, settled_put held]
      · rw [same, settled_cons, settled_cons, ih]

/-! ### The walk -/

/-- Where the walk below a checkpoint stands is right so far. -/
structure Below.Right (served : Nat → Served) (bottom : Nat) (below : Below) : Prop where
  at_bottom : below.memo.checkpoint = some bottom
  agrees : below.memo.Agrees served
  pending : Pending below.answered below.found

theorem Below.meet_answered (below : Below) (id : String) (written : TxnState) :
    (below.meet id written).answered = below.answered.filter fun other => other ≠ id := by
  unfold Below.meet
  split
  · split
    · rfl
    · rfl
  · rfl

theorem Memo.Agrees.put {memo : Memo} (agrees : memo.Agrees served)
    (at_bottom : memo.checkpoint = some bottom) (id : String) (version : Int) :
    ({ memo with
        found := Assoc.put id (version, bottomMark served bottom id version) memo.found } :
      Memo).Agrees served := by
  intro other_bottom same other other_version mark held
  have here : bottom = other_bottom := Option.some.inj (at_bottom.symm.trans same)
  subst here
  rw [Assoc.lookup_put] at held
  by_cases own : other = id
  · rw [if_pos own] at held
    cases held
    rw [own]
  · rw [if_neg own] at held
    exact agrees bottom at_bottom other other_version mark held

/-- A transaction that is met gives the one looked for its mark. -/
theorem Below.Right.meet {below : Below} (right : below.Right served bottom) {id : String}
    (looked_for : id ∈ below.answered) {written : TxnState}
    (newest_below : ∀ version, bottomMark served bottom id version =
      if written.version = some version then written.mark else none) :
    (below.meet id written).Right served bottom ∧ ∀ other,
      settled served bottom (below.meet id written).answered (below.meet id written).found other =
        settled served bottom below.answered below.found other := by
  obtain ⟨version, held⟩ := right.pending id looked_for
  have met : below.meet id written =
      { answered := below.answered.filter fun other => other ≠ id
        found := Assoc.put id (marked served bottom id (unmarked version)) below.found
        memo := { below.memo with
          found := Assoc.put id (version, bottomMark served bottom id version)
            below.memo.found } } := by
    unfold Below.meet
    rw [held]
    unfold marked unmarked
    simp only [Option.bind_some, newest_below]
  rw [met]
  refine ⟨⟨right.at_bottom, right.agrees.put right.at_bottom id version, ?_⟩, ?_⟩
  · intro other among
    obtain ⟨still, away⟩ := List.mem_filter.mp among
    rw [Assoc.lookup_put_of_ne _ (of_decide_eq_true away)]
    exact right.pending other still
  · intro other
    rw [settled_put held]
    apply settled_congr
    rw [List.mem_cons, List.mem_filter]
    by_cases here : other = id
    · simp [here, looked_for]
    · simp [here]

/-- All transactions that one commit has of those looked for. -/
theorem Below.Right.meet_all {below : Below} (right : below.Right served bottom) {met : Found}
    (distinct : Assoc.Distinct met)
    (looked_for : ∀ entry, entry ∈ met → entry.1 ∈ below.answered)
    (newest_below : ∀ entry, entry ∈ met → ∀ version, bottomMark served bottom entry.1 version =
      if entry.2.version = some version then entry.2.mark else none) :
    let after := met.foldl (fun below entry => below.meet entry.1 entry.2) below
    after.Right served bottom ∧ ∀ other,
      settled served bottom after.answered after.found other =
        settled served bottom below.answered below.found other := by
  induction met generalizing below with
  | nil => exact ⟨right, fun _other => rfl⟩
  | cons entry met ih =>
      obtain ⟨away, rest_distinct⟩ := List.pairwise_cons.mp distinct
      obtain ⟨right_after, same⟩ := right.meet (looked_for entry List.mem_cons_self)
        (newest_below entry List.mem_cons_self)
      obtain ⟨right_end, same_end⟩ := ih right_after rest_distinct
        (by
          intro other later
          rw [Below.meet_answered, List.mem_filter]
          exact ⟨looked_for other (List.mem_cons_of_mem _ later),
            decide_eq_true fun equal => away other later equal.symm⟩)
        fun other later => newest_below other (List.mem_cons_of_mem _ later)
      exact ⟨right_end, fun other => (same_end other).trans (same other)⟩

theorem Below.meet_all_answered (met : Found) (below : Below) :
    (met.foldl (fun below entry => below.meet entry.1 entry.2) below).answered =
      below.answered.filter fun id => (met.lookup id).isNone := by
  induction met generalizing below with
  | nil => simp
  | cons entry met ih =>
      rw [List.foldl_cons, ih, Below.meet_answered, List.filter_filter]
      apply List.filter_congr
      intro id _member
      rw [List.lookup_cons]
      by_cases here : id = entry.1
      · subst here
        simp
      · rw [beq_false_of_ne here]
        simp [here]

theorem Below.Right.giveUp {below : Below} (right : below.Right served bottom)
    (unknown : ∀ id, id ∈ below.answered → ∀ version, bottomMark served bottom id version = none) :
    below.giveUp.memo.checkpoint = some bottom ∧ below.giveUp.memo.Agrees served ∧
      ∀ id, below.giveUp.found.lookup id =
        settled served bottom below.answered below.found id := by
  refine ⟨right.at_bottom, ?_, ?_⟩
  · have agrees := right.agrees
    have at_bottom := right.at_bottom
    unfold Below.giveUp
    revert unknown agrees at_bottom
    generalize below.answered = answered
    generalize below.memo = memo
    intro unknown agrees at_bottom
    induction answered generalizing memo with
    | nil => exact agrees
    | cons id answered ih =>
        have later : ∀ other, other ∈ answered → ∀ version,
            bottomMark served bottom other version = none := fun other member =>
          unknown other (List.mem_cons_of_mem _ member)
        rw [List.foldl_cons]
        split
        · rename_i version held
          have none_here := unknown id List.mem_cons_self version
          have put := agrees.put at_bottom id version
          rw [none_here] at put
          exact ih { memo with found := Assoc.put id (version, none) memo.found } later put
            at_bottom
        · exact ih memo later agrees at_bottom
  · intro id
    unfold settled
    by_cases among : id ∈ below.answered
    · obtain ⟨version, held⟩ := right.pending id among
      have own : marked served bottom id (unmarked version) = unmarked version := by
        unfold marked unmarked
        simp only [Option.bind_some, unknown id among version]
      change below.found.lookup id = _
      rw [held, Option.map_some, if_pos among, own]
    · simp only [if_neg among, Option.map_id']
      rfl

end Ddi.Kafka.Lookup.View
