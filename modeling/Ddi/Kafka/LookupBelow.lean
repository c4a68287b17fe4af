/-
The walk below a checkpoint gives every answer its mark, whatever is remembered of earlier
walks.
-/

import Ddi.Kafka.LookupMarks

namespace Ddi.Kafka.Lookup.View

variable {view : View} {bottom : Nat}

/-- What a commit has of the transactions that are looked for. -/
theorem recordCommit_below {version : Nat} {lines : List LogLine} {answered : List String}
    {met : Found} (recorded : recordCommit version (some lines) answered [] = .ok met) :
    Assoc.Distinct met ∧ (∀ entry, entry ∈ met → entry.1 ∈ answered ∧
      ∃ txn, lastTxn lines entry.1 = some txn ∧ entry.2 = stateOf lines txn) ∧
    ∀ id, id ∈ answered → ((met.lookup id).isNone ↔ lastTxn lines id = none) := by
  obtain ⟨own, same, keeps, lookup⟩ := recordCommit_ok recorded
  cases same
  have distinct := (keeps .empty).distinct
  refine ⟨distinct, ?_, ?_⟩
  · intro entry member
    have held : met.lookup entry.1 = some entry.2 := distinct.lookup_of_mem member
    rw [lookup] at held
    by_cases among : entry.1 ∈ answered
    · rw [if_pos among] at held
      obtain ⟨txn, last, state⟩ := Option.map_eq_some_iff.mp held
      exact ⟨among, txn, last, state.symm⟩
    · rw [if_neg among] at held
      cases held
  · intro id among
    rw [lookup, if_pos among]
    simp

theorem walkBelow_ok {floor count : Nat} {below : Below} (right : below.Right view.served bottom)
    (left : ∀ id, id ∈ below.answered → ∀ version, bottomMark view.served bottom id version =
      belowMark view.served floor id version count) :
    (view.walkBelow floor count below).2.memo.checkpoint = some bottom ∧
      (view.walkBelow floor count below).2.memo.Agrees view.served ∧
      ((view.walkBelow floor count below).1 = .ok () → ∀ id,
        (view.walkBelow floor count below).2.found.lookup id =
          settled view.served bottom below.answered below.found id) := by
  induction count generalizing below with
  | zero =>
      obtain ⟨at_bottom, agrees, found⟩ := right.giveUp left
      exact ⟨at_bottom, agrees, fun _ok => found⟩
  | succ count ih =>
      -- A commit that cannot be used ends the walk, for the marks as for the transactions.
      have ended (unusable : ∀ lines, view.served (floor + count) ≠ .file (some lines)) :
          ∀ id, id ∈ below.answered → ∀ version, bottomMark view.served bottom id version = none := by
        intro id among version
        rw [left id among version, belowMark]
        split
        · rename_i lines usable
          exact absurd usable (unusable lines)
        · rfl
      unfold View.walkBelow
      by_cases failed : view.outage (floor + count) = true
      · rw [if_pos failed]
        exact ⟨right.at_bottom, right.agrees, nofun⟩
      · rw [if_neg failed]
        cases served : view.served (floor + count) with
        | missing =>
            obtain ⟨at_bottom, agrees, found⟩ := right.giveUp (ended (by simp [served]))
            exact ⟨at_bottom, agrees, fun _ok => found⟩
        | refused =>
            obtain ⟨at_bottom, agrees, found⟩ := right.giveUp (ended (by simp [served]))
            exact ⟨at_bottom, agrees, fun _ok => found⟩
        | file file =>
            cases file with
            | none =>
                obtain ⟨at_bottom, agrees, found⟩ := right.giveUp (ended (by simp [served]))
                exact ⟨at_bottom, agrees, fun _ok => found⟩
            | some lines =>
                simp only
                cases recorded : recordCommit (floor + count) (some lines) below.answered [] with
                | error why => exact ⟨right.at_bottom, right.agrees, nofun⟩
                | ok met =>
                    obtain ⟨distinct, each, absent⟩ := recordCommit_below recorded
                    obtain ⟨right_after, same⟩ := right.meet_all distinct
                      (fun entry member => (each entry member).1) (by
                        intro entry member version
                        obtain ⟨among, txn, last, state⟩ := each entry member
                        rw [left entry.1 among version, belowMark, served, state]
                        simp only [last, stateOf, Option.some.injEq])
                    simp only
                    split
                    · rename_i all
                      refine ⟨right_after.at_bottom, right_after.agrees, ?_⟩
                      intro _ok id
                      rw [← same id, List.isEmpty_iff.mp all, settled_nil]
                    · obtain ⟨at_bottom, agrees, found⟩ := ih right_after (by
                        intro id still version
                        rw [Below.meet_all_answered, List.mem_filter] at still
                        rw [left id still.1 version, belowMark, served]
                        simp only [(absent id still.1).mp still.2])
                      exact ⟨at_bottom, agrees, fun ok id => (found ok id).trans (same id)⟩

/-- The walk as it starts at the checkpoint. -/
theorem walkBelow_from_bottom {below : Below} (right : below.Right view.served bottom) :
    let walked := view.walkBelow (bottom - belowCheckpointReads)
      (bottom - (bottom - belowCheckpointReads)) below
    walked.2.memo.checkpoint = some bottom ∧ walked.2.memo.Agrees view.served ∧
      (walked.1 = .ok () → ∀ id,
        walked.2.found.lookup id = settled view.served bottom below.answered below.found id) := by
  apply walkBelow_ok right
  intro id _among version
  rfl

/-- Whoever looks for less meets no store fault that looking for more does not meet. -/
theorem walkBelow_fewer {floor count : Nat} {below fewer : Below}
    (less : ∀ id, id ∈ fewer.answered → id ∈ below.answered)
    (ok : (view.walkBelow floor count below).1 = .ok ()) :
    (view.walkBelow floor count fewer).1 = .ok () := by
  induction count generalizing below fewer with
  | zero => rfl
  | succ count ih =>
      unfold View.walkBelow at ok ⊢
      by_cases failed : view.outage (floor + count) = true
      · rw [if_pos failed] at ok
        cases ok
      · rw [if_neg failed] at ok ⊢
        cases served : view.served (floor + count) with
        | missing => rfl
        | refused => rfl
        | file file =>
            cases file with
            | none => rfl
            | some lines =>
                rw [served] at ok
                simp only at ok ⊢
                obtain ⟨met, recorded⟩ : ∃ met,
                    recordCommit (floor + count) (some lines) below.answered [] = .ok met :=
                  ⟨_, rfl⟩
                obtain ⟨few, recorded_few⟩ : ∃ met,
                    recordCommit (floor + count) (some lines) fewer.answered [] = .ok met :=
                  ⟨_, rfl⟩
                obtain ⟨_distinct, _each, absent⟩ := recordCommit_below recorded
                obtain ⟨_distinct, _each, absent_few⟩ := recordCommit_below recorded_few
                rw [recorded] at ok
                rw [recorded_few]
                simp only at ok ⊢
                have still_less : ∀ id,
                    id ∈ (few.foldl (fun below entry => below.meet entry.1 entry.2) fewer).answered →
                    id ∈ (met.foldl (fun below entry => below.meet entry.1 entry.2) below).answered := by
                  intro id still
                  rw [Below.meet_all_answered, List.mem_filter] at still ⊢
                  have before := less id still.1
                  exact ⟨before, (absent id before).mpr ((absent_few id still.1).mp still.2)⟩
                split
                · rfl
                · rename_i some_left
                  split at ok
                  · rename_i none_left
                    rw [List.isEmpty_iff] at none_left some_left
                    obtain ⟨id, left⟩ := List.exists_mem_of_ne_nil _ some_left
                    have impossible := still_less id left
                    rw [none_left] at impossible
                    cases impossible
                  · exact ih still_less ok

theorem startMemo_right {served : Nat → Served} {memo : Memo} (agrees : memo.Agrees served) :
    (startMemo bottom memo).checkpoint = some bottom ∧ (startMemo bottom memo).Agrees served := by
  unfold startMemo
  by_cases other : memo.checkpoint ≠ some bottom
  · rw [if_pos other]
    exact ⟨rfl, fun _bottom _same id version mark held => nomatch held⟩
  · rw [if_neg other]
    exact ⟨not_not.mp other, agrees⟩

theorem belowCheckpoint_ok {answered : List String} {found : Found} {memo : Memo}
    (agrees : memo.Agrees view.served) (distinct : answered.Nodup)
    (pending : Pending answered found) :
    (view.belowCheckpoint bottom answered found memo).2.Agrees view.served ∧
      ∀ after, (view.belowCheckpoint bottom answered found memo).1 = .ok after → ∀ id,
        after.lookup id = settled view.served bottom answered found id := by
  obtain ⟨at_bottom, start_agrees⟩ : (startMemo bottom memo).checkpoint = some bottom ∧
      (startMemo bottom memo).Agrees view.served := startMemo_right agrees
  have same := recall_settled start_agrees at_bottom answered found
  have pending_kept : Pending (recalled (startMemo bottom memo) answered found).1
      (recalled (startMemo bottom memo) answered found).2 := by
    intro id kept
    obtain ⟨version, held⟩ := pending id (recall_kept _ _ _ kept)
    exact ⟨version, (recall_lookup _ distinct found (Or.inl kept)).trans held⟩
  unfold belowCheckpoint
  simp only
  by_cases nothing_left : (recalled (startMemo bottom memo) answered found).1.isEmpty = true
  · rw [if_pos nothing_left]
    refine ⟨start_agrees, ?_⟩
    intro after ok id
    have all_known := Except.ok.inj ok
    rw [← all_known, ← same id, List.isEmpty_iff.mp nothing_left, settled_nil]
  · rw [if_neg nothing_left]
    have start : Below.Right view.served bottom
        { answered := (recalled (startMemo bottom memo) answered found).1
          found := (recalled (startMemo bottom memo) answered found).2
          memo := startMemo bottom memo } := ⟨at_bottom, start_agrees, pending_kept⟩
    have from_bottom := walkBelow_from_bottom start
    simp only at from_bottom
    revert from_bottom
    generalize view.walkBelow _ _ _ = walked
    intro ⟨_at_bottom, walked_agrees, walked_found⟩
    refine ⟨walked_agrees, ?_⟩
    intro after ok id
    obtain ⟨result, below⟩ := walked
    cases result with
    | error why => cases ok
    | ok done =>
        cases ok
        exact (walked_found rfl id).trans (same id)

/-- Nothing is known of what a memo does not hold. -/
theorem recall_fresh {memo : Memo} (fresh : memo.found = []) {answered : List String}
    {found : Found} (pending : Pending answered found) :
    recalled memo answered found = (answered, found) := by
  induction answered with
  | nil => rfl
  | cons own answered ih =>
      obtain ⟨version, held⟩ := pending own List.mem_cons_self
      have unknown : remembered memo own (unmarked version) = none := by
        unfold remembered
        rw [fresh]
        rfl
      rw [recalled]
      simp only [held, unknown]
      rw [ih fun id later => pending id (List.mem_cons_of_mem _ later)]

theorem belowCheckpoint_fewer {answered : List String} {found : Found} (memo : Memo)
    (pending : Pending answered found) {after : Found}
    (ok : (view.belowCheckpoint bottom answered found {}).1 = .ok after) :
    ∃ after, (view.belowCheckpoint bottom answered found memo).1 = .ok after := by
  have less : ∀ id, id ∈ (recalled (startMemo bottom memo) answered found).1 → id ∈ answered :=
    fun _id => recall_kept _ _ _
  unfold belowCheckpoint at ok ⊢
  simp only at ok ⊢
  have fresh : (startMemo bottom {}).found = [] := rfl
  rw [recall_fresh fresh pending] at ok
  split at ok
  · rename_i nothing
    have none_asked : answered = [] := List.isEmpty_iff.mp nothing
    have none_kept : (recalled (startMemo bottom memo) answered found).1 = [] := by
      apply List.eq_nil_iff_forall_not_mem.mpr
      intro id kept
      have among : id ∈ answered := less id kept
      rw [none_asked] at among
      cases among
    rw [none_kept]
    exact ⟨_, rfl⟩
  · split
    · exact ⟨_, rfl⟩
    · have all_ok : (view.walkBelow (bottom - belowCheckpointReads)
          (bottom - (bottom - belowCheckpointReads))
          { answered, found, memo := startMemo bottom {} }).1 = .ok () := by
        generalize view.walkBelow _ _ _ = walked at ok
        obtain ⟨result, below⟩ := walked
        cases result with
        | error why => cases ok
        | ok done => rfl
      have few_ok : (view.walkBelow (bottom - belowCheckpointReads)
          (bottom - (bottom - belowCheckpointReads))
          { answered := (recalled (startMemo bottom memo) answered found).1
            found := (recalled (startMemo bottom memo) answered found).2
            memo := startMemo bottom memo }).1 = .ok () := walkBelow_fewer less all_ok
      rw [few_ok]
      exact ⟨_, rfl⟩

end Ddi.Kafka.Lookup.View
