/-
A read that succeeds answers with the newest transaction of each application id in the whole
history, and with the same whatever earlier reads have left in the memo.
-/

import Ddi.Kafka.LookupCheckpoint
import Ddi.Kafka.LookupBelow

namespace Ddi.Kafka.Lookup

/-- The commit with the newest transaction of the application id, at or below the head,
recorded this mark for the offset that the transaction holds. -/
def Recorded (history : History) (head : Nat) (id : String) (mark : MessageMark) : Prop :=
  ∃ version txn, version ≤ head ∧ lastTxn (history version) id = some txn ∧
    (∀ later, version < later → later ≤ head → lastTxn (history later) id = none) ∧
    recordedMark (history version) txn = some mark ∧ mark.offset = txn.version

theorem markFor_offset {marks : Option Delta.Json} {appId : String} {txn : TxnAction}
    {mark : MessageMark} (recorded : markFor marks appId txn = some mark) :
    mark.offset = txn.version := by
  unfold markFor at recorded
  split at recorded
  · cases recorded
  · split at recorded
    · split at recorded
      · split at recorded
        · rename_i same
          cases recorded
          exact same
        · cases recorded
      · cases recorded
    · cases recorded

theorem recordedMark_offset {lines : List LogLine} {txn : TxnAction} {mark : MessageMark}
    (recorded : recordedMark lines txn = some mark) : mark.offset = txn.version := by
  obtain ⟨appId, _own, marks⟩ := Option.bind_eq_some_iff.mp recorded
  exact markFor_offset marks

namespace View

variable (view : View)

/-- The checkpoint's own commit is gone. It wrote the version answered again, and the newest
commit before it that wrote one recorded this mark for that version. -/
def Rewritten (history : History) (head : Nat) (id : String) (mark : MessageMark) : Prop :=
  ∃ earlier listing files again, earlier + 1 ≤ head ∧ view.listing = .ok listing ∧
    CompleteSet listing (earlier + 1) files ∧ view.served (earlier + 1) = .missing ∧
    lastTxn (history (earlier + 1)) id = some again ∧
    (∀ later, earlier + 1 < later → later ≤ head → lastTxn (history later) id = none) ∧
    newest history earlier id = some again.version ∧ Recorded history earlier id mark

/-- What a read may answer for an application id. -/
structure Truth (history : History) (head : Nat) (id : String) (state : TxnState) : Prop where
  version : state.version = newest history head id
  mark : ∀ mark, state.mark = some mark →
    Recorded history head id mark ∨ view.Rewritten history head id mark

/-- A memo that earlier reads of a log can have left. -/
inductive Left (served : Nat → Served) : Memo → Prop
  | start : Left served {}
  | read {memo after : Memo} (earlier : View) (head : Nat) (appIds : List String)
      (same_log : earlier.served = served) (left : Left served memo)
      (later : (earlier.read head appIds (some memo)).2 = some after) : Left served after

variable {view} {history : History} {head : Nat}

theorem Serves.silent (serves : view.Serves history head) {id : String} {version : Nat}
    (silent : view.Silent id version) : lastTxn (history version) id = none := by
  obtain ⟨lines, served, none_here⟩ := silent
  rw [← serves.commits version lines served]
  exact none_here

theorem FoundAt.truth {id : String} {state : TxnState} (found : view.FoundAt id head state)
    (serves : view.Serves history head) : view.Truth history head id state := by
  obtain ⟨version, lines, txn, within, served, last, same, silent⟩ := found
  have own := serves.commits version lines served
  rw [own] at last same
  have none_later : ∀ later, version < later → later ≤ head →
      lastTxn (history later) id = none :=
    fun later after below => serves.silent (silent later after below)
  constructor
  · rw [same, newest_of_silent within none_later, newest_of_written last]
    rfl
  · intro mark held
    rw [same] at held
    exact Or.inl ⟨version, txn, within, last, none_later, held, recordedMark_offset held⟩

theorem belowMark_recorded {served : Nat → Served} {floor count : Nat} {id : String}
    {version : Int} {mark : MessageMark}
    (below : belowMark served floor id version count = some mark) :
    ∃ at_version lines txn, at_version < floor + count ∧
      served at_version = .file (some lines) ∧ lastTxn lines id = some txn ∧
      txn.version = version ∧ recordedMark lines txn = some mark ∧
      ∀ between, at_version < between → between < floor + count →
        ∃ others, served between = .file (some others) ∧ lastTxn others id = none := by
  induction count with
  | zero => cases below
  | succ count ih =>
      unfold belowMark at below
      split at below
      · rename_i lines own
        split at below
        · rename_i txn last
          split at below
          · rename_i same
            refine ⟨floor + count, lines, txn, by omega, own, last, same, below, ?_⟩
            intro between above within
            omega
          · cases below
        · rename_i none_here
          obtain ⟨at_version, others, txn, within, file, last, same, recorded, silent⟩ := ih below
          refine ⟨at_version, others, txn, by omega, file, last, same, recorded, ?_⟩
          intro between above below_top
          by_cases here : between = floor + count
          · rw [here]
            exact ⟨lines, own, none_here⟩
          · exact silent between above (by omega)
      · cases below

/-- What is found below a checkpoint for the version answered was recorded for it. -/
theorem bottomMark_truth {checkpoint : Checkpoint} {listing : List Listed} {id : String}
    {version : Int} {mark : MessageMark} (serves : view.Serves history head)
    (within : checkpoint.version ≤ head) (listed : view.listing = .ok listing)
    (set : CompleteSet listing checkpoint.version checkpoint.files)
    (quiet : ∀ later, checkpoint.version ≤ later → later ≤ head →
      view.Quiet true checkpoint.version id later)
    (answered : newest history head id = some version)
    (below : bottomMark view.served checkpoint.version id version = some mark) :
    Recorded history head id mark ∨ view.Rewritten history head id mark := by
  unfold bottomMark at below
  have reach : checkpoint.version - belowCheckpointReads +
      (checkpoint.version - (checkpoint.version - belowCheckpointReads)) = checkpoint.version := by
    omega
  obtain ⟨low, lines, txn, before, file, last, same, recorded, silent⟩ := belowMark_recorded below
  rw [reach] at before silent
  have own := serves.commits low lines file
  rw [own] at last recorded
  have none_between : ∀ between, low < between → between < checkpoint.version →
      lastTxn (history between) id = none :=
    fun between above under => serves.silent (silent between above under)
  have none_above : ∀ later, checkpoint.version < later → later ≤ head →
      lastTxn (history later) id = none := by
    intro later above under
    rcases quiet later (Nat.le_of_lt above) under with silent | ⟨_, here, _⟩
    · exact serves.silent silent
    · omega
  cases at_bottom : lastTxn (history checkpoint.version) id with
  | none =>
      refine Or.inl ⟨low, txn, by omega, last, ?_, recorded, recordedMark_offset recorded⟩
      intro later above under
      rcases Nat.lt_trichotomy later checkpoint.version with less | here | more
      · exact none_between later above less
      · rw [here]
        exact at_bottom
      · exact none_above later more under
  | some again =>
      right
      obtain ⟨earlier, at_version⟩ : ∃ earlier, checkpoint.version = earlier + 1 :=
        ⟨checkpoint.version - 1, by omega⟩
      have gone : view.served checkpoint.version = .missing := by
        rcases quiet checkpoint.version le_rfl within with silent | ⟨_, _, missing⟩
        · rw [serves.silent silent] at at_bottom
          cases at_bottom
        · exact missing
      have written : newest history head id = some again.version := by
        rw [newest_of_silent within none_above, newest_of_written at_bottom]
      have version_again : version = again.version :=
        Option.some.inj (answered.symm.trans written)
      rw [at_version] at gone at_bottom none_above none_between before within set
      have silent_below : ∀ later, low < later → later ≤ earlier →
          lastTxn (history later) id = none :=
        fun later above under => none_between later above (by omega)
      refine ⟨earlier, listing, checkpoint.files, again, within, listed, set, gone, at_bottom,
        none_above, ?_, low, txn, by omega, last, silent_below, recorded,
        recordedMark_offset recorded⟩
      rw [newest_of_silent (by omega) silent_below, newest_of_written last, same, version_again]

end View

end Ddi.Kafka.Lookup
