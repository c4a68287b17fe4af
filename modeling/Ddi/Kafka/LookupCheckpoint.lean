/-
What a checkpoint, or the kernel in its place, answers for the application ids that the
commits after it do not.
-/

import Ddi.Kafka.LookupDown

namespace Ddi.Kafka.Lookup.View

open Walks (bind_ok_iff)

variable (view : View)

/-- Every transaction of every file of a checkpoint. -/
def setTxns : List Listed → Except String (List (String × Int))
  | [] => .ok []
  | file :: files => do
      let txns ← view.fileTxns file
      let others ← setTxns files
      return txns ++ others

/-- A table's log as one read finds it: the commits that are still there are the history's, a
complete checkpoint holds the transactions of its version, and the kernel knows those of the
head. -/
structure Serves (history : History) (head : Nat) : Prop where
  commits : ∀ version lines, view.served version = .file (some lines) → lines = history version
  checkpoints : ∀ listing version files txns, view.listing = .ok listing →
    CompleteSet listing version files → view.setTxns files = .ok txns →
    ∀ id value, (id, value) ∈ txns ↔ newest history version id = some value
  kernel : ∀ id answer, view.kernel id = .ok answer → answer = newest history head id

variable {view} {wanted : List String}

/-- Nothing of what is put in is contradicted, so nothing is lost. -/
theorem addTxns_ok {txns inFile after : List (String × Int)}
    (added : addTxns wanted txns inFile = .ok after) :
    (Assoc.Distinct txns → Assoc.Distinct after) ∧ ∀ id value, after.lookup id = some value ↔
      txns.lookup id = some value ∨ id ∈ wanted ∧ (id, value) ∈ inFile := by
  induction inFile generalizing txns with
  | nil =>
      cases added
      simp
  | cons head rest ih =>
      obtain ⟨own, version⟩ := head
      unfold addTxns at added
      by_cases skipped : (!wanted.contains own) = true
      · rw [if_pos skipped] at added
        have away : own ∉ wanted := by simpa using skipped
        obtain ⟨distinct, lookup⟩ := ih added
        refine ⟨distinct, ?_⟩
        intro id value
        rw [lookup, List.mem_cons]
        constructor
        · intro held
          exact held.imp_right fun ⟨among, member⟩ => ⟨among, Or.inr member⟩
        · intro held
          cases held with
          | inl before => exact Or.inl before
          | inr here =>
              obtain ⟨among, first | later⟩ := here
              · cases first
                exact absurd among away
              · exact Or.inr ⟨among, later⟩
      · rw [if_neg skipped] at added
        have among : own ∈ wanted := by simpa using skipped
        have same_or_new : (txns.lookup own = none ∨ txns.lookup own = some version) ∧
            addTxns wanted (Assoc.put own version txns) rest = .ok after := by
          cases held : txns.lookup own with
          | none =>
              simp only [held] at added
              exact ⟨Or.inl rfl, added⟩
          | some other =>
              simp only [held] at added
              by_cases differs : other ≠ version
              · rw [if_pos differs] at added
                cases added
              · rw [if_neg differs] at added
                exact ⟨Or.inr (congrArg some (not_not.mp differs)), added⟩
        obtain ⟨before, rest_added⟩ := same_or_new
        obtain ⟨distinct, lookup⟩ := ih rest_added
        refine ⟨fun fresh => distinct (fresh.put own version), ?_⟩
        intro id value
        rw [lookup, Assoc.lookup_put, List.mem_cons, Prod.mk.injEq]
        by_cases here : id = own
        · subst here
          rw [if_pos rfl]
          rcases before with none_yet | held
          · rw [none_yet]
            simp only [Option.some.injEq, eq_comm (a := version), reduceCtorEq, false_or, among,
              true_and]
          · rw [held]
            simp only [Option.some.injEq, eq_comm (a := version), among, true_and]
            tauto
        · rw [if_neg here]
          simp only [here, false_and, false_or]

theorem checkpointTxns_ok {txns after : List (String × Int)} {files : List Listed}
    (read : view.checkpointTxns wanted txns files = .ok after) :
    (Assoc.Distinct txns → Assoc.Distinct after) ∧ ∃ all, view.setTxns files = .ok all ∧
      ∀ id value, after.lookup id = some value ↔
        txns.lookup id = some value ∨ id ∈ wanted ∧ (id, value) ∈ all := by
  induction files generalizing txns with
  | nil =>
      cases read
      exact ⟨fun distinct => distinct, [], rfl, by simp⟩
  | cons file files ih =>
      obtain ⟨inFile, in_file, rest⟩ := bind_ok_iff.mp read
      obtain ⟨middle, added, rest⟩ := bind_ok_iff.mp rest
      obtain ⟨first_distinct, first_lookup⟩ := addTxns_ok added
      obtain ⟨distinct, all, all_read, lookup⟩ := ih rest
      refine ⟨fun fresh => distinct (first_distinct fresh), inFile ++ all, ?_, ?_⟩
      · unfold setTxns
        rw [in_file, all_read]
        rfl
      · intro id value
        rw [lookup, first_lookup, List.mem_append, and_or_left, or_assoc]

theorem kernelLookups_ok {history : History} {head : Nat} {rest : List String}
    {found after : Found} (serves : view.Serves history head)
    (asked : view.kernelLookups found rest = .ok after) (id : String) :
    after.lookup id = (if id ∈ rest then (newest history head id).map unmarked else none).or
      (found.lookup id) := by
  induction rest generalizing found with
  | nil =>
      cases asked
      rfl
  | cons own rest ih =>
      unfold kernelLookups at asked
      cases kernel : view.kernel own with
      | error why =>
          rw [kernel] at asked
          cases asked
      | ok answer =>
          have true_answer := serves.kernel own answer kernel
          rw [kernel] at asked
          cases answer with
          | none =>
              rw [ih asked]
              by_cases here : id = own
              · subst here
                simp [← true_answer]
              · simp [here]
          | some version =>
              rw [ih asked, Assoc.lookup_put]
              by_cases here : id = own
              · subst here
                rw [if_pos rfl, if_pos List.mem_cons_self, ← true_answer]
                by_cases again : id ∈ rest
                · rw [if_pos again]
                  rfl
                · rw [if_neg again]
                  rfl
              · simp [here]

/-- The application ids still missing get the version the table has at the checkpoint. -/
theorem readCheckpoint_ok {history : History} {head : Nat} {checkpoint : Checkpoint}
    {listing : List Listed} {rest : List String} {found after : Found}
    (serves : view.Serves history head) (listed : view.listing = .ok listing)
    (set : CompleteSet listing checkpoint.version checkpoint.files)
    (same : ∀ id, id ∈ rest → newest history head id = newest history checkpoint.version id)
    (read : view.readCheckpoint checkpoint rest found = .ok after) (id : String) :
    after.lookup id = (if id ∈ rest then (newest history head id).map unmarked else none).or
      (found.lookup id) := by
  unfold readCheckpoint at read
  cases in_files : view.checkpointTxns rest [] checkpoint.files with
  | error why =>
      rw [in_files] at read
      exact kernelLookups_ok serves read id
  | ok txns =>
      rw [in_files] at read
      cases read
      obtain ⟨distinct, all, all_read, lookup⟩ := checkpointTxns_ok in_files
      have reconciled := serves.checkpoints listing _ _ all listed set all_read
      refine (Assoc.lookup_foldl_put txns Prod.fst (fun txn => unmarked txn.2) found id).trans ?_
      have own : ((txns.reverse.find? fun txn => decide (txn.1 = id)).map fun txn =>
          unmarked txn.2) = (txns.lookup id).map unmarked := by
        rw [← (distinct List.Pairwise.nil).find?_reverse, Option.map_map]
        rfl
      rw [own]
      congr 1
      by_cases among : id ∈ rest
      · rw [if_pos among, same id among]
        congr 1
        apply Option.ext
        intro value
        rw [lookup, ← reconciled]
        simp [among]
      · rw [if_neg among, Option.map_eq_none_iff]
        cases held : txns.lookup id with
        | none => rfl
        | some value =>
            rcases (lookup id value).mp held with before | ⟨impossible, _⟩
            · cases before
            · exact absurd impossible among

end Ddi.Kafka.Lookup.View
