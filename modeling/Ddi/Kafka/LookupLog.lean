/-
What the walk down the commits finds: for each application id the newest transaction of
the commits it has passed, all of which it has read.
-/

import Ddi.Kafka.Lookup
import Ddi.Lib.Walks
import Mathlib.Data.List.Perm.Subperm

namespace Ddi.Kafka.Lookup

open Walks (bind_ok_iff)

/-- Every commit of a table, those that log cleanup has removed too. -/
abbrev History := Nat → List LogLine

/-- A commit's transaction of an application id; of several, the last. -/
def lastTxn (lines : List LogLine) (id : String) : Option TxnAction :=
  (lines.filterMap (·.txn)).reverse.find? fun txn => decide (txn.appId = id)

/-- The version of the newest transaction at or below a commit. -/
def newest (history : History) : Nat → String → Option Int
  | 0, id => (lastTxn (history 0) id).map (·.version)
  | version + 1, id =>
      ((lastTxn (history (version + 1)) id).map (·.version)).or (newest history version id)

/-- An answer without a mark, as a checkpoint gives it. -/
def unmarked (version : Int) : TxnState := { version := some version }

theorem newest_succ (history : History) (version : Nat) (id : String) :
    newest history (version + 1) id =
      ((lastTxn (history (version + 1)) id).map (·.version)).or (newest history version id) := rfl

theorem lastTxn_appId {lines : List LogLine} {id : String} {txn : TxnAction}
    (last : lastTxn lines id = some txn) : txn.appId = id := by
  have same := List.find?_some last
  exact of_decide_eq_true same

theorem newest_of_written {history : History} {version : Nat} {id : String} {txn : TxnAction}
    (last : lastTxn (history version) id = some txn) :
    newest history version id = some txn.version := by
  cases version with
  | zero =>
      unfold newest
      rw [last]
      rfl
  | succ version =>
      unfold newest
      rw [last]
      rfl

theorem newest_of_silent {history : History} {low : Nat} {id : String} {head : Nat}
    (below : low ≤ head)
    (silent : ∀ version, low < version → version ≤ head → lastTxn (history version) id = none) :
    newest history head id = newest history low id := by
  induction head with
  | zero =>
      rw [Nat.le_zero.mp below]
  | succ head ih =>
      by_cases here : low = head + 1
      · rw [here]
      · rw [newest_succ, silent (head + 1) (by omega) le_rfl, Option.map_none, Option.none_or]
        exact ih (by omega) fun version above within => silent version above (by omega)

theorem newest_none {history : History} {head : Nat} {id : String}
    (silent : ∀ version, version ≤ head → lastTxn (history version) id = none) :
    newest history head id = none := by
  rw [newest_of_silent (Nat.zero_le head) fun version _above within => silent version within]
  unfold newest
  rw [silent 0 (Nat.zero_le head)]
  rfl

namespace View

variable (view : View)

/-- The commit is there and has no transaction of this application id. -/
def Silent (id : String) (version : Nat) : Prop :=
  ∃ lines, view.served version = .file (some lines) ∧ lastTxn lines id = none

/-- A state that the newest commit with the application id's transaction gives. -/
def FoundAt (id : String) (head : Nat) (state : TxnState) : Prop :=
  ∃ version lines txn, version ≤ head ∧ view.served version = .file (some lines) ∧
    lastTxn lines id = some txn ∧ state = stateOf lines txn ∧
    ∀ later, version < later → later ≤ head → view.Silent id later

/-- Nothing a commit of a walk could hold is missed: the checkpoint's own may be gone. -/
def Quiet (checkpointed : Bool) (bottom : Nat) (id : String) (version : Nat) : Prop :=
  view.Silent id version ∨
    checkpointed = true ∧ version = bottom ∧ view.served version = .missing

/-- What has been found belongs to what is wanted, once each. -/
structure Within (wanted : List String) (found : Found) : Prop where
  distinct : Assoc.Distinct found
  among : ∀ id, id ∈ found.map Prod.fst → id ∈ wanted

variable {view} {wanted : List String}

theorem Within.put {found : Found} (within : Within wanted found) {id : String}
    (among : id ∈ wanted) (state : TxnState) : Within wanted (Assoc.put id state found) where
  distinct := within.distinct.put id state
  among := by
    intro other member
    obtain ⟨entry, present, rfl⟩ := List.mem_map.mp member
    rcases Assoc.mem_put present with rfl | before
    · exact among
    · exact within.among _ (List.mem_map_of_mem before)

theorem Within.lookup {found : Found} (within : Within wanted found) {id : String}
    {state : TxnState} (held : found.lookup id = some state) : id ∈ wanted :=
  within.among id ((Assoc.mem_keys_iff found id).mpr ⟨state, held⟩)

theorem Within.empty : Within wanted [] where
  distinct := List.Pairwise.nil
  among := by simp

/-- As many found as are wanted are all of them. -/
theorem Within.all {found : Found} (within : Within wanted found)
    (all : allFound wanted found = true) {id : String} (among : id ∈ wanted) :
    ∃ state, found.lookup id = some state := by
  have many : wanted.length ≤ (found.map Prod.fst).length := by
    rw [List.length_map, eq_of_beq all]
  have same := (List.subperm_of_subset within.distinct.nodup_keys within.among).perm_of_length_le many
  exact (Assoc.mem_keys_iff found id).mp (same.mem_iff.mpr among)

/-- What a commit adds: its transactions that are wanted and not found yet. -/
theorem recordCommit_ok {version : Nat} {file : Option (List LogLine)} {found after : Found}
    (recorded : recordCommit version file wanted found = .ok after) :
    ∃ lines, file = some lines ∧ (Within wanted found → Within wanted after) ∧
      ∀ id, after.lookup id = (found.lookup id).or
        (if id ∈ wanted then (lastTxn lines id).map (stateOf lines) else none) := by
  cases file with
  | none => cases recorded
  | some lines =>
      cases recorded
      refine ⟨lines, rfl, ?_, ?_⟩
      · intro within
        have each : ∀ txn, txn ∈ (lines.filterMap (·.txn)).filter (fun txn =>
            wanted.contains txn.appId && (found.lookup txn.appId).isNone) → txn.appId ∈ wanted := by
          intro txn member
          have kept := (List.mem_filter.mp member).2
          rw [Bool.and_eq_true] at kept
          exact List.contains_iff_mem.mp kept.1
        revert each
        generalize (lines.filterMap (·.txn)).filter (fun txn =>
          wanted.contains txn.appId && (found.lookup txn.appId).isNone) = txns
        intro each
        induction txns generalizing found with
        | nil => exact within
        | cons txn txns ih =>
            exact ih (within.put (each txn List.mem_cons_self) _)
              fun other later => each other (List.mem_cons_of_mem _ later)
      · intro id
        rw [Assoc.lookup_foldl_put _ (fun txn : TxnAction => txn.appId) (stateOf lines),
          ← List.filter_reverse, List.find?_filter]
        unfold lastTxn
        have same : ∀ txn : TxnAction,
            decide ((wanted.contains txn.appId && (found.lookup txn.appId).isNone) = true ∧
              decide (txn.appId = id) = true) =
            (decide (txn.appId = id) && (decide (id ∈ wanted) && (found.lookup id).isNone)) := by
          intro txn
          by_cases own : txn.appId = id
          · subst own
            simp
          · simp [own]
        simp only [same]
        cases held : found.lookup id with
        | some state =>
            simp only [Option.isNone_some, Bool.and_false, Option.some_or]
            rw [List.find?_eq_none.mpr fun _txn _member => Bool.false_ne_true]
            rfl
        | none =>
            by_cases among : id ∈ wanted
            · simp [among]
            · simp [among]

theorem readCommit_ok {version : Nat} {answer : Option (Option (List LogLine))}
    (read : view.readCommit version = .ok answer) :
    (∃ file, answer = some file ∧ view.served version = .file file) ∨
      answer = none ∧ view.served version = .missing := by
  unfold readCommit at read
  by_cases failed : view.outage version
  · rw [if_pos failed] at read
    cases read
  · rw [if_neg failed] at read
    cases served : view.served version with
    | file lines =>
        rw [served] at read
        cases read
        exact Or.inl ⟨lines, rfl, rfl⟩
    | missing =>
        rw [served] at read
        cases read
        exact Or.inr ⟨rfl, rfl⟩
    | refused =>
        rw [served] at read
        cases read

/-- The commits from `low` up to the head have been passed, and nothing of them missed. -/
structure Passed (view : View) (wanted : List String) (checkpointed : Bool) (bottom head : Nat)
    (low : Nat) (found : Found) : Prop where
  within : Within wanted found
  holds : ∀ id state, found.lookup id = some state → view.FoundAt id head state
  quiet : ∀ id, id ∈ wanted → found.lookup id = none →
    ∀ version, low ≤ version → version ≤ head → view.Quiet checkpointed bottom id version

theorem Passed.record {checkpointed : Bool} {bottom head low : Nat} {found after : Found}
    (passed : Passed view wanted checkpointed bottom head (low + 1) found) (above : bottom ≤ low)
    (below : low ≤ head) {file : Option (List LogLine)} (served : view.served low = .file file)
    (recorded : recordCommit low file wanted found = .ok after) :
    Passed view wanted checkpointed bottom head low after := by
  obtain ⟨lines, rfl, keeps, lookup⟩ := recordCommit_ok recorded
  refine ⟨keeps passed.within, ?_, ?_⟩
  · intro id state held
    rw [lookup] at held
    cases before : found.lookup id with
    | some older =>
        rw [before] at held
        exact passed.holds id state (before.trans held)
    | none =>
        rw [before, Option.none_or] at held
        by_cases among : id ∈ wanted
        · rw [if_pos among] at held
          obtain ⟨txn, last, rfl⟩ := Option.map_eq_some_iff.mp held
          refine ⟨low, lines, txn, below, served, last, rfl, ?_⟩
          intro later after_low within
          rcases passed.quiet id among before later (by omega) within with silent | ⟨_, same, _⟩
          · exact silent
          · omega
        · rw [if_neg among] at held
          cases held
  · intro id among absent version from_low within
    rw [lookup, if_pos among] at absent
    obtain ⟨before, none_here⟩ := Option.or_eq_none_iff.mp absent
    by_cases here : version = low
    · subst here
      exact Or.inl ⟨lines, served, Option.map_eq_none_iff.mp none_here⟩
    · exact passed.quiet id among before version (by omega) within

theorem Passed.skip {bottom head : Nat} {found : Found}
    (passed : Passed view wanted true bottom head (bottom + 1) found)
    (served : view.served bottom = .missing) :
    Passed view wanted true bottom head bottom found where
  within := passed.within
  holds := passed.holds
  quiet := by
    intro id among absent version from_bottom within
    by_cases here : version = bottom
    · subst here
      exact Or.inr ⟨rfl, rfl, served⟩
    · exact passed.quiet id among absent version (by omega) within

/-- The whole walk: either everything is found, or every commit down to the bottom is passed. -/
theorem Passed.walkCommits {checkpointed : Bool} {bottom head count : Nat} {found after : Found}
    {enough : Bool} (passed : Passed view wanted checkpointed bottom head (bottom + count) found)
    (below : bottom + count ≤ head + 1)
    (walked : view.walkCommits wanted checkpointed bottom count found = .ok (after, enough)) :
    ∃ low, bottom ≤ low ∧ Passed view wanted checkpointed bottom head low after ∧
      (enough = true → allFound wanted after = true) ∧ (enough = false → low = bottom) := by
  induction count generalizing found with
  | zero =>
      cases walked
      exact ⟨bottom, le_rfl, passed, nofun, fun _ => rfl⟩
  | succ count ih =>
      unfold View.walkCommits at walked
      obtain ⟨middle, recorded, rest⟩ := bind_ok_iff.mp walked
      obtain ⟨read, commit, recorded⟩ := bind_ok_iff.mp recorded
      have passed_here : Passed view wanted checkpointed bottom head (bottom + count) middle := by
        have within : bottom + count ≤ head := by omega
        rcases readCommit_ok commit with ⟨file, rfl, served⟩ | ⟨rfl, served⟩
        · exact passed.record (Nat.le_add_right _ _) within served recorded
        · by_cases at_bottom : checkpointed = true ∧ bottom + count = bottom
          · simp only [if_pos at_bottom] at recorded
            cases recorded
            obtain ⟨rfl, same⟩ := at_bottom
            obtain rfl : count = 0 := by omega
            exact passed.skip served
          · simp only [if_neg at_bottom] at recorded
            cases recorded
      by_cases all : allFound wanted middle
      · rw [if_pos all] at rest
        cases rest
        exact ⟨bottom + count, Nat.le_add_right _ _, passed_here, fun _ => all, nofun⟩
      · rw [if_neg all] at rest
        exact ih passed_here (by omega) rest

end View

end Ddi.Kafka.Lookup
