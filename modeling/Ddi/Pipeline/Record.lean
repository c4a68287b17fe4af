/-
What a commit of a pipeline leaves in its target, and what reading it back
gives: the rows it added, the offset, the source table it named and the window
it recorded.
-/

import Ddi.Pipeline.Step

namespace Ddi

open Ddi.Delta

variable {τ : Type}

theorem liveFiles_append (commits : List (Commit τ)) (commit : Commit τ) :
    liveFiles (commits ++ [commit]) = applyFileActions (liveFiles commits) commit.actions := by
  rw [liveFiles, List.foldl_append]
  rfl

theorem txnOf_foreign {appId : String} {actions : List (Action τ)}
    (foreign : carriesTxn appId actions = false) : txnOf appId actions = none := by
  unfold txnOf
  rw [List.findSome?_eq_none_iff]
  intro action member
  rw [List.mem_reverse] at member
  unfold carriesTxn at foreign
  rw [List.any_eq_false] at foreign
  have none_here := foreign action member
  cases action with
  | txn app version =>
      simp only [beq_iff_eq] at none_here
      simp only [if_neg none_here]
  | add file => rfl
  | remove file => rfl
  | metaData metadata => rfl
  | commitInfo info => rfl
  | other => rfl

/-- A log without a commit of ours has no offset of ours. -/
theorem transactionVersion_foreign {log : DeltaLog τ} {appId : String}
    (foreign : ∀ commit, commit ∈ log.commits → carriesTxn appId commit.actions = false) :
    transactionVersion log appId = none := by
  unfold transactionVersion
  rw [List.findSome?_eq_none_iff]
  intro commit member
  rw [List.mem_reverse] at member
  exact txnOf_foreign (foreign commit member)

theorem readCommitEntry_append {log : DeltaLog τ} {commit : Commit τ} {number : Nat}
    {actions : List (Action τ)} (found : (log.append commit).readCommitEntry number = some actions) :
    number ≤ log.commits.length ∧ (number = log.commits.length → actions = commit.actions) ∧
      (number < log.commits.length → log.readCommitEntry number = some actions) := by
  have within := DeltaLog.readCommitEntry_lt found
  rw [DeltaLog.readCommitEntry_eq] at found
  split at found
  · cases found
  · rename_i readable
    change number < (log.commits ++ [commit]).length at within
    change ((log.commits ++ [commit])[number]?).map Commit.actions = _ at found
    change ¬log.reclaimed number = true at readable
    rw [List.length_append, List.length_singleton] at within
    refine ⟨by omega, ?_, ?_⟩
    · intro last
      rw [last, List.getElem?_concat_length] at found
      exact (Option.some.inj found).symm
    · intro earlier
      rw [List.getElem?_append_left earlier] at found
      rw [DeltaLog.readCommitEntry_eq, if_neg readable]
      exact found

theorem head_append (log : DeltaLog τ) (commit : Commit τ) :
    (log.append commit).head = log.commits.length := by
  unfold DeltaLog.head DeltaLog.append
  rw [List.length_append, List.length_singleton, Nat.add_sub_cancel]

section Sink

variable (path appId : String) (rows : List τ) (version : Int)
  (identity : Option (Nat × String)) (cutoff : Option RecordedCutoff)

private theorem sinkCommit_actions :
    (sinkCommit path appId rows version identity cutoff).actions =
      (if rows.isEmpty then [] else [.add { path := path, rows := rows }]) ++
        [.txn appId version,
          .commitInfo (commitMetadata appId version identity cutoff)] := rfl

theorem sinkCommit_carriesTxn :
    carriesTxn appId (sinkCommit path appId rows version identity cutoff).actions = true := by
  simp [carriesTxn, sinkCommit_actions]

theorem sinkCommit_rewritesData :
    rewritesData (sinkCommit path appId rows version identity cutoff).actions = false := by
  rw [sinkCommit_actions]
  cases rows <;> rfl

theorem sinkCommit_txnOf :
    txnOf appId (sinkCommit path appId rows version identity cutoff).actions = some version := by
  simp [txnOf, sinkCommit_actions]

theorem applyFileActions_sinkCommit (live : List (AddFile τ)) :
    applyFileActions live (sinkCommit path appId rows version identity cutoff).actions =
      live ++ (if rows.isEmpty then [] else [{ path := path, rows := rows }]) := by
  rw [sinkCommit_actions, applyFileActions]
  cases rows with
  | nil => simp
  | cons row rest => simp

/-- A blind append: what was there stays, and the rows come after it. -/
theorem tableRows_sinkCommit (target : DeltaLog τ) :
    tableRows (target.append (sinkCommit path appId rows version identity cutoff)) =
      tableRows target ++ rows := by
  rw [tableRows, tableRows, DeltaLog.append, liveFiles_append, applyFileActions_sinkCommit,
    List.flatMap_append]
  cases rows with
  | nil => rfl
  | cons row rest => simp

theorem transactionVersion_sinkCommit (target : DeltaLog τ) :
    transactionVersion (target.append (sinkCommit path appId rows version identity cutoff)) appId =
      some version := by
  rw [transactionVersion_append, sinkCommit_txnOf]
  rfl

private theorem sinkCommit_commitInfoValue (key : String) :
    commitInfoValue (sinkCommit path appId rows version identity cutoff).actions key =
      (commitMetadata appId version identity cutoff).lookup key := by
  rw [sinkCommit_actions, commitInfoValue]
  cases rows <;> simp

private theorem sinkCommit_recordedCutoff :
    recordedCutoff (sinkCommit path appId rows version identity cutoff).actions =
      RecordedCutoff.fromCommitInfo (commitMetadata appId version identity cutoff) := by
  rw [sinkCommit_actions, recordedCutoff]
  cases rows <;> simp

end Sink

/-- The keys under which a window is recorded. -/
def cutoffKeys : List String :=
  [cutoffReasonKey, cutoffSourceThroughKey, cutoffPartitionColumnsKey]

theorem lookup_toCommitMetadata_none {cutoff : RecordedCutoff} {key : String}
    (other : key ∉ cutoffKeys) : cutoff.toCommitMetadata.lookup key = none := by
  rw [List.lookup_eq_none_iff]
  intro entry member
  have named : entry.1 ∈ cutoffKeys := by
    unfold RecordedCutoff.toCommitMetadata at member
    rcases List.mem_append.mp member with first | columns
    · rcases List.mem_cons.mp first with reason | through
      · subst reason
        exact List.mem_cons_self
      · cases recorded : cutoff.sourceThrough with
        | none =>
            rw [recorded] at through
            cases through
        | some head =>
            rw [recorded, List.mem_singleton] at through
            subst through
            exact List.mem_cons_of_mem _ List.mem_cons_self
    · split at columns
      · cases columns
      · rw [List.mem_singleton] at columns
        subst columns
        exact List.mem_cons_of_mem _ (List.mem_cons_of_mem _ List.mem_cons_self)
  rw [bne_iff_ne]
  intro same
  rw [← same] at named
  exact other named

theorem lookup_commitMetadata_cutoff {appId : String} {version : Int}
    {identity : Option (Nat × String)} {cutoff : Option RecordedCutoff} {key : String}
    (named : key ∈ cutoffKeys) :
    (commitMetadata appId version identity cutoff).lookup key =
      (match cutoff with
        | some cutoff => cutoff.toCommitMetadata
        | none => []).lookup key := by
  have apart : (key == "ddi.sourceVersion") = false ∧ (key == "ddi.appId") = false ∧
      (key == sourceTableIdKey) = false ∧ (key == sourceTableIdVersionKey) = false := by
    rcases List.mem_cons.mp named with rfl | later
    · exact ⟨rfl, rfl, rfl, rfl⟩
    · rcases List.mem_cons.mp later with rfl | last
      · exact ⟨rfl, rfl, rfl, rfl⟩
      · rw [List.mem_singleton] at last
        subst last
        exact ⟨rfl, rfl, rfl, rfl⟩
  obtain ⟨first, second, third, fourth⟩ := apart
  unfold commitMetadata
  rw [List.append_assoc, List.cons_append, List.cons_append, List.nil_append, List.lookup_cons,
    first, List.lookup_cons, second]
  cases identity with
  | none => rfl
  | some seen =>
      change List.lookup key ((sourceTableIdKey, Json.str seen.2) ::
        (sourceTableIdVersionKey, Json.num seen.1) :: _) = _
      rw [List.lookup_cons, third]
      change List.lookup key ((sourceTableIdVersionKey, Json.num seen.1) :: _) = _
      rw [List.lookup_cons, fourth]
      rfl

private theorem readReason_recorded (cutoff : RecordedCutoff) :
    (cutoff.toCommitMetadata.lookup cutoffReasonKey).map RecordedCutoff.readReason =
      some (some (cutoff.reason, !cutoff.partitionColumns.isEmpty)) := by
  rw [RecordedCutoff.toCommitMetadata, List.cons_append, List.lookup_cons_self, Option.map_some]
  cases empty : cutoff.partitionColumns.isEmpty with
  | true => exact congrArg some (RecordedCutoff.readReason_written cutoff.reason false)
  | false => exact congrArg some (RecordedCutoff.readReason_written cutoff.reason true)

private theorem readThrough_recorded {cutoff : RecordedCutoff}
    (fits : ∀ through, cutoff.sourceThrough = some through → through < 2 ^ 64) :
    RecordedCutoff.readThrough cutoff.toCommitMetadata = some cutoff.sourceThrough := by
  unfold RecordedCutoff.readThrough RecordedCutoff.toCommitMetadata
  rw [List.cons_append, List.lookup_cons,
    show (cutoffSourceThroughKey == cutoffReasonKey) = false from rfl]
  cases recorded : cutoff.sourceThrough with
  | none =>
      simp only [List.nil_append]
      split
      · rfl
      · rename_i raw found
        split at found
        · cases found
        · cases found
  | some through =>
      simp only [List.cons_append, List.lookup_cons_self]
      change (Json.asU64 (.num (Int.ofNat through))).map some = _
      rw [Json.asU64, if_pos (fits through recorded), Option.map_some]

private theorem mapM_asStr (columns : List String) :
    (columns.map Json.str).mapM Json.asStr = some columns := by
  induction columns with
  | nil => rfl
  | cons column rest ih =>
      rw [List.map_cons, List.mapM_cons, ih]
      rfl

private theorem readPartitionColumns_recorded (cutoff : RecordedCutoff) :
    RecordedCutoff.readPartitionColumns cutoff.toCommitMetadata =
      some cutoff.partitionColumns := by
  have skip : cutoff.toCommitMetadata.lookup cutoffPartitionColumnsKey =
      (if cutoff.partitionColumns.isEmpty then []
        else [(cutoffPartitionColumnsKey, Json.arr (cutoff.partitionColumns.map .str))]).lookup
          cutoffPartitionColumnsKey := by
    unfold RecordedCutoff.toCommitMetadata
    rw [List.cons_append, List.lookup_cons,
      show (cutoffPartitionColumnsKey == cutoffReasonKey) = false from rfl]
    cases cutoff.sourceThrough with
    | none => rfl
    | some through => rfl
  unfold RecordedCutoff.readPartitionColumns
  rw [skip]
  cases columns : cutoff.partitionColumns with
  | nil => rfl
  | cons column rest =>
      simp only [List.isEmpty_cons, Bool.false_eq_true, if_false, List.lookup_cons_self]
      exact mapM_asStr (column :: rest)

theorem fromCommitInfo_commitMetadata {appId : String} {version : Int}
    {identity : Option (Nat × String)} {cutoff : Option RecordedCutoff}
    (fits : ∀ recorded through, cutoff = some recorded → recorded.sourceThrough = some through →
      through < 2 ^ 64) :
    RecordedCutoff.fromCommitInfo (commitMetadata appId version identity cutoff) = cutoff := by
  have reason : cutoffReasonKey ∈ cutoffKeys := List.mem_cons_self
  have through : cutoffSourceThroughKey ∈ cutoffKeys :=
    List.mem_cons_of_mem _ List.mem_cons_self
  have columns : cutoffPartitionColumnsKey ∈ cutoffKeys :=
    List.mem_cons_of_mem _ (List.mem_cons_of_mem _ List.mem_cons_self)
  unfold RecordedCutoff.fromCommitInfo RecordedCutoff.readThrough
    RecordedCutoff.readPartitionColumns
  rw [lookup_commitMetadata_cutoff reason, lookup_commitMetadata_cutoff through,
    lookup_commitMetadata_cutoff columns]
  cases cutoff with
  | none => rfl
  | some recorded =>
      have readReason := readReason_recorded recorded
      have readThrough := readThrough_recorded fun head same => fits recorded head rfl same
      have readColumns := readPartitionColumns_recorded recorded
      unfold RecordedCutoff.readThrough at readThrough
      unfold RecordedCutoff.readPartitionColumns at readColumns
      cases raw : recorded.toCommitMetadata.lookup cutoffReasonKey with
      | none =>
          rw [raw] at readReason
          cases readReason
      | some text =>
          rw [raw, Option.map_some] at readReason
          simp only [Option.some.inj readReason, readThrough, readColumns]
          cases recorded.partitionColumns.isEmpty <;> rfl

private theorem lookup_commitMetadata_anonymous {appId : String} {version : Int}
    {cutoff : Option RecordedCutoff} {key : String} (other : key ∉ cutoffKeys)
    (first : (key == "ddi.sourceVersion") = false) (second : (key == "ddi.appId") = false) :
    (commitMetadata appId version none cutoff).lookup key = none := by
  unfold commitMetadata
  rw [List.append_assoc, List.cons_append, List.cons_append, List.nil_append, List.lookup_cons,
    first, List.lookup_cons, second]
  cases cutoff with
  | none => rfl
  | some recorded => exact lookup_toCommitMetadata_none other

/-- The table id a commit names is the one its reader knew. -/
theorem sinkCommit_sourceTableId (path appId : String) (rows : List τ) (version : Int)
    (identity : Option (Nat × String)) (cutoff : Option RecordedCutoff) :
    (commitInfoValue (sinkCommit path appId rows version identity cutoff).actions
      sourceTableIdKey).bind Json.asStr = identity.map Prod.snd := by
  have other : sourceTableIdKey ∉ cutoffKeys := by decide
  rw [sinkCommit_commitInfoValue]
  cases identity with
  | none =>
      rw [lookup_commitMetadata_anonymous other rfl rfl]
      rfl
  | some seen => rfl

/-- A window read back from a commit is the one it recorded. -/
theorem sinkCommit_recordedCutoff_some {path appId : String} {rows : List τ} {version : Int}
    {identity : Option (Nat × String)} {cutoff : Option RecordedCutoff} {found : RecordedCutoff}
    (read : recordedCutoff (sinkCommit path appId rows version identity cutoff).actions =
      some found) : cutoff = some found := by
  rw [sinkCommit_recordedCutoff] at read
  by_cases fits : ∀ recorded through, cutoff = some recorded →
      recorded.sourceThrough = some through → through < 2 ^ 64
  · rw [fromCommitInfo_commitMetadata fits] at read
    exact read
  · -- A head that does not fit cannot be read back.
    simp only [not_forall] at fits
    obtain ⟨recorded, through, same, known, beyond⟩ := fits
    subst same
    have unread : RecordedCutoff.readThrough
        (commitMetadata appId version identity (some recorded)) = none := by
      unfold RecordedCutoff.readThrough
      rw [lookup_commitMetadata_cutoff (List.mem_cons_of_mem _ List.mem_cons_self)]
      simp only [RecordedCutoff.toCommitMetadata, List.cons_append, List.lookup_cons, known]
      change (Json.asU64 (.num (Int.ofNat through))).map some = none
      rw [Json.asU64, if_neg beyond]
      rfl
    unfold RecordedCutoff.fromCommitInfo at read
    rw [unread] at read
    cases raw : (commitMetadata appId version identity (some recorded)).lookup cutoffReasonKey with
    | none =>
        rw [raw] at read
        cases read
    | some text =>
        rw [raw] at read
        simp only at read
        split at read
        · rename_i impossible _columns
          cases impossible
        · cases read

/-- What an open makes of a pipeline's own last commit. -/
theorem describeOurs_sinkCommit {path appId : String} {rows : List τ} {version : Int}
    {identity : Option (Nat × String)} {cutoff : Option RecordedCutoff} (at_ : Nat)
    (fits : ∀ recorded through, cutoff = some recorded → recorded.sourceThrough = some through →
      through < 2 ^ 64) :
    let described := describeOurs at_
      (sinkCommit path appId rows version identity cutoff).actions
    described.sourceTableId = identity.map Prod.snd ∧
      described.sourceTableIdVersion = (identity.map Prod.fst).bind
        (fun seenAt => if seenAt < 2 ^ 64 then some seenAt else none) ∧
      described.cutoff = cutoff := by
  have idVersionKey : sourceTableIdVersionKey ∉ cutoffKeys := by decide
  unfold describeOurs
  simp only
  rw [sinkCommit_sourceTableId, sinkCommit_commitInfoValue, sinkCommit_recordedCutoff]
  refine ⟨rfl, ?_, fromCommitInfo_commitMetadata fits⟩
  · cases identity with
    | none =>
        rw [lookup_commitMetadata_anonymous idVersionKey rfl rfl]
        rfl
    | some seen => rfl

end Ddi
