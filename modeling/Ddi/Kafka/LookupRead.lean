/-
The answers of a whole read, as the table has them.
-/

import Ddi.Kafka.LookupTruth
import Mathlib.Data.List.Dedup

namespace Ddi.Kafka.Lookup.View

open Walks (bind_ok_iff)

variable {view : View} {history : History} {head : Nat} {wanted : List String}

/-! ### Versions -/

/-- What a checkpoint or the kernel puts in has no mark. -/
theorem readCheckpoint_unmarked {checkpoint : Checkpoint} {rest : List String}
    {found after : Found} (read : view.readCheckpoint checkpoint rest found = .ok after)
    (id : String) :
    after.lookup id = found.lookup id ∨ ∃ version, after.lookup id = some (unmarked version) := by
  unfold readCheckpoint at read
  cases in_files : view.checkpointTxns rest [] checkpoint.files with
  | ok txns =>
      rw [in_files] at read
      cases read
      have lookup := Assoc.lookup_foldl_put txns Prod.fst (fun txn => unmarked txn.2) found id
      cases last : txns.reverse.find? fun txn => decide (txn.1 = id) with
      | none =>
          rw [last] at lookup
          exact Or.inl lookup
      | some txn =>
          rw [last] at lookup
          exact Or.inr ⟨txn.2, lookup⟩
  | error why =>
      rw [in_files] at read
      simp only at read
      clear in_files
      induction rest generalizing found with
      | nil =>
          cases read
          exact Or.inl rfl
      | cons own rest ih =>
          unfold kernelLookups at read
          cases kernel : view.kernel own with
          | error why =>
              rw [kernel] at read
              cases read
          | ok answer =>
              rw [kernel] at read
              cases answer with
              | none => exact ih read
              | some version =>
                  rcases ih read with same | marked
                  · rw [Assoc.lookup_put] at same
                    by_cases here : id = own
                    · rw [if_pos here] at same
                      exact Or.inr ⟨version, same⟩
                    · rw [if_neg here] at same
                      exact Or.inl same
                  · exact Or.inr marked

/-- What the marks are looked for below a checkpoint is without one, and once each. -/
theorem walkVersions_pending {found : Found} {bottom : Nat} {answered : List String}
    (distinct : wanted.Nodup)
    (walked : view.walkVersions head wanted = .ok (found, some (bottom, answered))) :
    answered.Nodup ∧ Pending answered found := by
  obtain ⟨⟨before, checkpoint⟩, _down, rest⟩ := bind_ok_iff.mp walked
  cases checkpoint with
  | none => cases rest
  | some checkpoint =>
      obtain ⟨after, read, same⟩ := bind_ok_iff.mp rest
      cases same
      refine ⟨(distinct.filter _).filter _, ?_⟩
      intro id among
      obtain ⟨missing, some_answer⟩ := List.mem_filter.mp among
      rw [Bool.and_eq_true] at some_answer
      have none_before := Option.isNone_iff_eq_none.mp (List.mem_filter.mp missing).2
      rcases readCheckpoint_unmarked read id with same | answer
      · rw [same, none_before] at some_answer
        cases some_answer.1
      · exact answer

/-- Before the marks are looked for, every answer has the version of the table. -/
theorem walkVersions_truth {found : Found} {below : Option (Nat × List String)}
    (serves : view.Serves history head)
    (walked : view.walkVersions head wanted = .ok (found, below)) {id : String}
    (among : id ∈ wanted) :
    (∀ state, found.lookup id = some state → view.Truth history head id state) ∧
    (found.lookup id = none → newest history head id = none) ∧
    ∀ bottom answered, below = some (bottom, answered) → id ∈ answered →
      ∀ state, found.lookup id = some state →
        view.Truth history head id (marked view.served bottom id state) := by
  obtain ⟨⟨before, checkpoint⟩, down, rest⟩ := bind_ok_iff.mp walked
  have descended := walkDown_ok down
  cases checkpoint with
  | none =>
      cases rest
      refine ⟨fun state held => (descended.holds id state held).truth serves, ?_, nofun⟩
      intro absent
      exact newest_none fun version within =>
        serves.silent (descended.whole rfl id among absent version within)
  | some checkpoint =>
      obtain ⟨after, read, same⟩ := bind_ok_iff.mp rest
      cases same
      obtain ⟨within, ⟨listing, listed, set⟩, quiet⟩ := descended.down checkpoint rfl
      have missing_iff : id ∈ wanted.filter (fun id => (before.lookup id).isNone) ↔
          before.lookup id = none := by
        rw [List.mem_filter, Option.isNone_iff_eq_none]
        exact and_iff_right among
      have same_version : ∀ id, id ∈ wanted.filter (fun id => (before.lookup id).isNone) →
          newest history head id = newest history checkpoint.version id := by
        intro other missing
        obtain ⟨wanted_too, absent⟩ := List.mem_filter.mp missing
        apply newest_of_silent within
        intro version above below
        rcases quiet other wanted_too (Option.isNone_iff_eq_none.mp absent) version
          (Nat.le_of_lt above) below with silent | ⟨_, here, _⟩
        · exact serves.silent silent
        · omega
      have lookup := readCheckpoint_ok serves listed set same_version read id
      cases held : before.lookup id with
      | some state =>
          have not_missing : id ∉ wanted.filter (fun id => (before.lookup id).isNone) := by
            rw [missing_iff, held]
            exact nofun
          rw [if_neg not_missing, Option.none_or, held] at lookup
          have truth := (descended.holds id state held).truth serves
          refine ⟨?_, ?_, ?_⟩
          · intro other same
            cases lookup.symm.trans same
            exact truth
          · intro absent
            cases lookup.symm.trans absent
          · intro bottom answered same looked_for
            cases same
            exact absurd (List.mem_filter.mp looked_for).1 not_missing
      | none =>
          rw [if_pos (missing_iff.mpr held), held, Option.or_none] at lookup
          refine ⟨?_, ?_, ?_⟩
          · intro state same
            obtain ⟨version, answer, own⟩ := Option.map_eq_some_iff.mp (lookup.symm.trans same)
            subst own
            exact ⟨answer.symm, nofun⟩
          · intro absent
            exact Option.map_eq_none_iff.mp (lookup.symm.trans absent)
          · intro bottom answered same _looked_for state state_held
            cases same
            obtain ⟨version, answer, own⟩ :=
              Option.map_eq_some_iff.mp (lookup.symm.trans state_held)
            subst own
            refine ⟨answer.symm, ?_⟩
            intro mark below
            unfold marked unmarked at below
            simp only [Option.bind_some] at below
            exact bottomMark_truth serves within listed set (quiet id among held) answer below

/-! ### Reads -/

theorem walk_agrees {memo after : Memo} (distinct : wanted.Nodup) (agrees : memo.Agrees view.served)
    (walked : (view.walk head wanted (some memo)).2 = some after) : after.Agrees view.served := by
  unfold walk at walked
  cases versions : view.walkVersions head wanted with
  | error why =>
      rw [versions] at walked
      cases walked
      exact agrees
  | ok result =>
      obtain ⟨found, below⟩ := result
      rw [versions] at walked
      cases below with
      | none =>
          cases walked
          exact agrees
      | some below =>
          obtain ⟨bottom, answered⟩ := below
          obtain ⟨answered_distinct, pending⟩ := walkVersions_pending distinct versions
          simp only at walked
          split at walked
          · cases walked
            exact agrees
          · rw [← Option.some.inj walked]
            exact (belowCheckpoint_ok agrees answered_distinct pending).1

/-- What is found does not depend on the memo, but for whether the store answers. -/
theorem walk_found {memo : Memo} {found : Found} {below : Option (Nat × List String)}
    (distinct : wanted.Nodup) (agrees : memo.Agrees view.served)
    (versions : view.walkVersions head wanted = .ok (found, below)) {after : Found}
    (walked : (view.walk head wanted (some memo)).1 = .ok after) (id : String) :
    after.lookup id =
      match below with
      | none => found.lookup id
      | some (bottom, answered) => settled view.served bottom answered found id := by
  unfold walk at walked
  rw [versions] at walked
  cases below with
  | none =>
      cases walked
      rfl
  | some below =>
      obtain ⟨bottom, answered⟩ := below
      obtain ⟨answered_distinct, pending⟩ := walkVersions_pending distinct versions
      simp only at walked ⊢
      split at walked
      · rename_i nothing
        cases walked
        rw [List.isEmpty_iff.mp nothing, settled_nil]
      · exact (belowCheckpoint_ok agrees answered_distinct pending).2 after walked id

theorem walk_versions {memo : Memo} {after : Found}
    (walked : (view.walk head wanted (some memo)).1 = .ok after) :
    ∃ found below, view.walkVersions head wanted = .ok (found, below) := by
  unfold walk at walked
  cases versions : view.walkVersions head wanted with
  | error why =>
      rw [versions] at walked
      cases walked
  | ok result => exact ⟨result.1, result.2, rfl⟩

/-- A memo makes no walk fail that succeeds without one. -/
theorem walk_with_memo (memo : Memo) (distinct : wanted.Nodup) {after : Found}
    (walked : (view.walk head wanted (some {})).1 = .ok after) :
    ∃ after, (view.walk head wanted (some memo)).1 = .ok after := by
  obtain ⟨found, below, versions⟩ := walk_versions walked
  unfold walk at walked ⊢
  rw [versions] at walked ⊢
  cases below with
  | none => exact ⟨found, rfl⟩
  | some below =>
      obtain ⟨bottom, answered⟩ := below
      obtain ⟨_distinct, pending⟩ := walkVersions_pending distinct versions
      simp only at walked ⊢
      split at walked
      · rename_i nothing
        rw [if_pos nothing]
        exact ⟨found, rfl⟩
      · rename_i something
        rw [if_neg something]
        exact belowCheckpoint_fewer memo pending walked

theorem Left.agrees {served : Nat → Served} {memo : Memo} (left : Left served memo) :
    memo.Agrees served := by
  induction left with
  | start => exact fun _bottom same => nomatch same
  | read earlier head appIds same_log _left later ih =>
      subst same_log
      unfold View.read at later
      simp only at later
      split at later
      · cases later
        exact ih
      · split at later
        · cases later
          exact ih
        · exact walk_agrees (List.nodup_dedup _) ih later

theorem answers_lookup (found : Found) (id : String) :
    (answers wanted found).lookup id =
      if id ∈ wanted then some ((found.lookup id).getD {}) else none :=
  Assoc.lookup_tabulate wanted (fun own => (found.lookup own).getD {}) id

theorem read_ok {appIds : List String} {memo : Memo} {result : List (String × TxnState)}
    (ok : (view.read head appIds (some memo)).1 = .ok result) :
    view.retention = false ∧ ((appIds.dedup = [] ∧ result = []) ∨
      appIds.dedup ≠ [] ∧ ∃ found, (view.walk head appIds.dedup (some memo)).1 = .ok found ∧
        result = answers appIds.dedup found) := by
  unfold View.read at ok
  by_cases refused : view.retention = true
  · rw [if_pos refused] at ok
    cases ok
  · rw [if_neg refused] at ok
    refine ⟨Bool.eq_false_of_not_eq_true refused, ?_⟩
    by_cases nothing : appIds.dedup.isEmpty = true
    · rw [if_pos nothing] at ok
      exact Or.inl ⟨List.isEmpty_iff.mp nothing, (Except.ok.inj ok).symm⟩
    · rw [if_neg nothing] at ok
      refine Or.inr ⟨fun empty => nothing (List.isEmpty_iff.mpr empty), ?_⟩
      cases walked : (view.walk head appIds.dedup (some memo)).1 with
      | error why =>
          simp only [walked] at ok
          cases ok
      | ok found =>
          simp only [walked] at ok
          exact ⟨found, rfl, (Except.ok.inj ok).symm⟩

theorem read_of_walk {appIds : List String} {memo : Memo} {found : Found}
    (kept : view.retention = false) (asked : appIds.dedup ≠ [])
    (walked : (view.walk head appIds.dedup (some memo)).1 = .ok found) :
    (view.read head appIds (some memo)).1 = .ok (answers appIds.dedup found) := by
  unfold View.read
  rw [if_neg (by rw [kept]; exact Bool.false_ne_true),
    if_neg (fun nothing => asked (List.isEmpty_iff.mp nothing))]
  simp only [walked]
  rfl

/-- Answers that two walks find alike are the same. -/
theorem answers_congr {found others : Found}
    (same : ∀ id, found.lookup id = others.lookup id) : answers wanted found = answers wanted others := by
  unfold answers
  simp only [same]

/-- Two memos that earlier reads have left give the same answers. -/
theorem read_same {appIds : List String} {memo other : Memo} {result others : List (String × TxnState)}
    (agrees : memo.Agrees view.served) (other_agrees : other.Agrees view.served)
    (ok : (view.read head appIds (some memo)).1 = .ok result)
    (other_ok : (view.read head appIds (some other)).1 = .ok others) : others = result := by
  obtain ⟨_kept, cases_first⟩ := read_ok ok
  obtain ⟨_kept, cases_second⟩ := read_ok other_ok
  rcases cases_first with ⟨none_first, rfl⟩ | ⟨_some, found, walked, rfl⟩
  · rcases cases_second with ⟨_none, rfl⟩ | ⟨some_second, _⟩
    · rfl
    · exact absurd none_first some_second
  · rcases cases_second with ⟨none_second, _⟩ | ⟨_some, other_found, other_walked, rfl⟩
    · exact absurd none_second ‹_›
    · obtain ⟨versions_found, below, versions⟩ := walk_versions walked
      apply answers_congr
      intro id
      rw [walk_found (List.nodup_dedup _) agrees versions walked id,
        walk_found (List.nodup_dedup _) other_agrees versions other_walked id]

theorem read_truth {appIds : List String} {memo : Memo} {result : List (String × TxnState)}
    (serves : view.Serves history head) (agrees : memo.Agrees view.served)
    (ok : (view.read head appIds (some memo)).1 = .ok result) {id : String} (asked : id ∈ appIds) :
    ∃ state, result.lookup id = some state ∧ view.Truth history head id state := by
  have among : id ∈ appIds.dedup := List.mem_dedup.mpr asked
  obtain ⟨_kept, either⟩ := read_ok ok
  rcases either with ⟨nothing, _⟩ | ⟨_some, after, walked, rfl⟩
  · rw [nothing] at among
    cases among
  · refine ⟨_, (answers_lookup after id).trans (if_pos among), ?_⟩
    obtain ⟨found, below, versions⟩ := walk_versions walked
    obtain ⟨held_truth, none_truth, marked_truth⟩ := walkVersions_truth serves versions among
    rw [walk_found (List.nodup_dedup _) agrees versions walked id]
    have plain : view.Truth history head id ((found.lookup id).getD {}) := by
      cases held : found.lookup id with
      | none => exact ⟨(none_truth held).symm, nofun⟩
      | some state => exact held_truth state held
    cases below with
    | none => exact plain
    | some below =>
        obtain ⟨bottom, answered⟩ := below
        simp only
        unfold settled
        by_cases looked_for : id ∈ answered
        · cases held : found.lookup id with
          | none => exact ⟨(none_truth held).symm, nofun⟩
          | some state =>
              simp only [Option.map_some, if_pos looked_for, Option.getD_some]
              exact marked_truth bottom answered rfl looked_for state held
        · simp only [if_neg looked_for, Option.map_id']
          exact plain

/-- A read with whatever memo earlier reads have left answers what the table has, and what a
read with any other such memo answers; and it succeeds where one without a memo does. -/
theorem read_answers {memo : Memo} (serves : view.Serves history head)
    (left : Left view.served memo) (appIds : List String) :
    (∀ result, (view.read head appIds (some memo)).1 = .ok result →
      (∀ id, id ∈ appIds →
        ∃ state, result.lookup id = some state ∧ view.Truth history head id state) ∧
      ∀ other, Left view.served other → ∀ others,
        (view.read head appIds (some other)).1 = .ok others → others = result) ∧
    ∀ result, view.readTxns head appIds = .ok result →
      (view.read head appIds (some memo)).1 = .ok result := by
  constructor
  · intro result ok
    constructor
    · intro id asked
      exact read_truth serves left.agrees ok asked
    · intro other other_left others other_ok
      exact read_same left.agrees other_left.agrees ok other_ok
  · intro result fresh
    obtain ⟨kept, either⟩ := read_ok fresh
    have read : ∃ found, (view.read head appIds (some memo)).1 = .ok found := by
      rcases either with ⟨nothing, rfl⟩ | ⟨asked, found, walked, _⟩
      · unfold View.read
        rw [if_neg (by rw [kept]; exact Bool.false_ne_true),
          if_pos (List.isEmpty_iff.mpr nothing)]
        exact ⟨[], rfl⟩
      · obtain ⟨after, walked_too⟩ := walk_with_memo memo (List.nodup_dedup _) walked
        exact ⟨_, read_of_walk kept asked walked_too⟩
    obtain ⟨found, ok⟩ := read
    rw [ok]
    exact congrArg Except.ok (read_same Left.start.agrees left.agrees fresh ok)

/-! ### A commit at the checkpoint that is gone -/

/-- The first commit stores an offset with its mark, the second the same offset without one. -/
def rewritten : History
  | 0 =>
      [{ txn := some ⟨"a-0", 9⟩ },
        { info := some
            { appId := some (.str "a")
              marks := some (.obj [("0", .arr [.num 9, .num 100, .num 10])]) } }]
  | 1 => [{ txn := some ⟨"a-0", 9⟩ }, { info := some { appId := some (.str "a") } }]
  | _ => []

def oneCheckpoint : List Listed :=
  [⟨["00000000000000000001.checkpoint.parquet"], 1⟩, ⟨["_last_checkpoint"], 5⟩]

/-- Only the first commit is left, and a checkpoint at the second. -/
def cleanedUp : View where
  served
    | 0 => .file (some (rewritten 0))
    | _ => .missing
  listing := .ok oneCheckpoint
  parquet _ := .ok [none, some ("a-0", some 9)]

theorem oneCheckpoint_isFile {version : Nat} {kind : CheckpointFile} {file : Listed}
    (own : IsFile oneCheckpoint version kind file) :
    version = 1 ∧ kind = .single ∧ file = ⟨["00000000000000000001.checkpoint.parquet"], 1⟩ := by
  obtain ⟨member, named, _size⟩ := own
  unfold oneCheckpoint at member
  rcases List.mem_cons.mp member with rfl | other
  · have known : checkpointFile ⟨["00000000000000000001.checkpoint.parquet"], 1⟩ =
        some (1, .single) := by decide
    cases known.symm.trans named
    exact ⟨rfl, rfl, rfl⟩
  · obtain rfl := List.mem_singleton.mp other
    have unknown : checkpointFile ⟨["_last_checkpoint"], 5⟩ = none := by decide
    cases unknown.symm.trans named

theorem rewritten_newest (id : String) :
    newest rewritten 1 id = if id = "a-0" then some 9 else none := by
  by_cases own : id = "a-0"
  · subst own
    decide
  · rw [if_neg own]
    simp [newest, lastTxn, rewritten, Ne.symm own]

theorem cleanedUp_serves : cleanedUp.Serves rewritten 1 where
  commits := by
    intro version lines served
    cases version with
    | zero =>
        cases served
        rfl
    | succ version => cases served
  checkpoints := by
    intro listing version files txns listed set read
    cases listed
    have single : version = 1 ∧ files = [⟨["00000000000000000001.checkpoint.parquet"], 1⟩] := by
      cases set with
      | single own =>
          obtain ⟨rfl, _kind, rfl⟩ := oneCheckpoint_isFile own
          exact ⟨rfl, rfl⟩
      | uuid own =>
          obtain ⟨_version, impossible, _file⟩ := oneCheckpoint_isFile own
          cases impossible
      | parts some_part _all each =>
          obtain ⟨file, _member, own⟩ := each 1 le_rfl some_part
          obtain ⟨_version, impossible, _file⟩ := oneCheckpoint_isFile own
          cases impossible
    obtain ⟨rfl, rfl⟩ := single
    have held : txns = [("a-0", 9)] := by
      have all : cleanedUp.setTxns [⟨["00000000000000000001.checkpoint.parquet"], 1⟩] =
          .ok [("a-0", 9)] := by decide
      exact Except.ok.inj (read.symm.trans all)
    subst held
    intro id value
    rw [rewritten_newest]
    by_cases own : id = "a-0"
    · simp [own, eq_comm]
    · simp [own]
  kernel := nofun

/-- The read gives the mark of the first commit for an offset that the second one wrote. -/
theorem cleanedUp_mark :
    cleanedUp.Serves rewritten 1 ∧
      cleanedUp.readTxns 1 ["a-0"] =
        .ok [("a-0", { version := some 9, mark := some ⟨9, 100, 10⟩ })] ∧
      ¬ Recorded rewritten 1 "a-0" ⟨9, 100, 10⟩ := by
  refine ⟨cleanedUp_serves, by decide +kernel, ?_⟩
  intro ⟨version, txn, within, last, none_later, recorded, _offset⟩
  cases version with
  | zero =>
      have written : lastTxn (rewritten 1) "a-0" = some ⟨"a-0", 9⟩ := by decide
      cases written.symm.trans (none_later 1 Nat.zero_lt_one le_rfl)
  | succ version =>
      obtain rfl : version = 0 := by omega
      have written : lastTxn (rewritten 1) "a-0" = some ⟨"a-0", 9⟩ := by decide
      cases written.symm.trans last
      have unmarked_here : recordedMark (rewritten 1) ⟨"a-0", 9⟩ = none := by decide
      cases unmarked_here.symm.trans recorded

theorem cleanedUp_answers :
    ∃ state : TxnState, state.version = some 9 ∧
      cleanedUp.Truth rewritten 1 "a-0" state := by
  have ok : (cleanedUp.read 1 ["a-0"] (some {})).1 =
      .ok [("a-0", { version := some 9, mark := some ⟨9, 100, 10⟩ })] := by decide +kernel
  obtain ⟨state, held, truth⟩ :=
    ((read_answers cleanedUp_serves Left.start ["a-0"]).1 _ ok).1 "a-0" List.mem_cons_self
  cases held
  exact ⟨_, rfl, truth⟩

end Ddi.Kafka.Lookup.View
