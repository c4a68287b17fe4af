/-
The table rejects go to. A batch that has any makes one commit there, under an
offset of the table's own, and none when that offset is exactly the batch's.
-/

import Ddi.Offset
import Ddi.Pipeline.Record

namespace Ddi

open Ddi.Delta

/-- A row set aside: the column that refused it, unless the transform did, and why. -/
structure Reject where
  columnName : Option String
  reason : String
  payload : Option String
  deriving DecidableEq

/-- A row of the data-quality table. -/
structure DqRow extends Reject where
  appId : String
  pipeline : String
  /-- The last source version of the batch, not the row's. -/
  sourceVersion : Int
  timestamp : Int

def dqSuffix : String := "__ddi_dq"

/-- Where a pipeline's rejects go, unless it says otherwise. -/
def dqUriFor (targetUri : String) : String :=
  String.ofList ((targetUri.toList.reverse.dropWhile fun character => character == '/').reverse) ++
    dqSuffix

def dqAppIdFor (appId : String) : String := s!"{appId}.dq"

structure DataQuality where
  appId : String
  pipeline : String
  /-- The table as this handle last saw it. -/
  table : DeltaLog DqRow

namespace DataQuality

def open_ (appId pipeline : String) (table : DeltaLog DqRow) : DataQuality :=
  { appId := appId, pipeline := pipeline, table := table }

def batch (dq : DataQuality) (rejected : List Reject) (sourceVersion nowMicros : Int) :
    List DqRow :=
  rejected.map fun reject =>
    { reject with
      appId := dq.appId
      pipeline := dq.pipeline
      sourceVersion := sourceVersion
      timestamp := nowMicros }

/-- Whether the batch that ends at a version is the one last written. -/
def alreadyRecorded (dq : DataQuality) (sourceVersion : Int) : Bool :=
  decide (transactionVersion dq.table (dqAppIdFor dq.appId) = some sourceVersion)

def commit (dq : DataQuality) (path : String) (rejected : List Reject)
    (sourceVersion nowMicros : Int) : Commit DqRow where
  actions :=
    [.add { path := path, rows := dq.batch rejected sourceVersion nowMicros },
      .txn (dqAppIdFor dq.appId) sourceVersion,
      .commitInfo [("ddi.sourceVersion", .num sourceVersion), ("ddi.appId", .str dq.appId)]]

/-- The commit a batch's rejects make, if they make one. -/
def write (dq : DataQuality) (path : String) (rejected : List Reject)
    (sourceVersion nowMicros : Int) : Option (Commit DqRow) :=
  if rejected.isEmpty then none
  else if dq.alreadyRecorded sourceVersion then none
  else some (dq.commit path rejected sourceVersion nowMicros)

/-- The handle once it has seen its own commit land. -/
def sees (dq : DataQuality) (table : DeltaLog DqRow) : DataQuality := { dq with table := table }

end DataQuality

/-- The rejects of an application, in the order they were written. -/
def rejectsOf (appId : String) (table : DeltaLog DqRow) : List Reject :=
  ((tableRows table).filter fun row => row.appId == appId).map DqRow.toReject

/-- A commit of someone else's: rows of other applications, and nothing taken away. -/
structure OthersRejects (appId : String) (commit : Commit DqRow) : Prop where
  offset : carriesTxn (dqAppIdFor appId) commit.actions = false
  rows : ∀ file, .add file ∈ commit.actions → ∀ row, row ∈ file.rows → row.appId ≠ appId
  keeps : ∀ file, .remove file ∉ commit.actions

section Table

variable {appId : String} {table : DeltaLog DqRow} {commit : Commit DqRow}

private theorem rejectsOf_append
    (keeps : ∀ file, .remove file ∉ commit.actions) :
    rejectsOf appId (table.append commit) = rejectsOf appId table ++
      rejectsOf appId { commits := [commit] } := by
  have live : ∀ files : List (AddFile DqRow), applyFileActions files commit.actions =
      files ++ applyFileActions [] commit.actions := by
    intro files
    unfold applyFileActions
    rw [List.filter_nil, List.nil_append]
    apply congrArg (· ++ _)
    apply List.filter_eq_self.mpr
    intro file _member
    rw [Bool.not_eq_true', List.any_eq_false]
    intro action member
    cases action with
    | remove gone => exact absurd member (keeps gone)
    | add file => nofun
    | metaData metadata => nofun
    | txn appId version => nofun
    | commitInfo info => nofun
    | other => nofun
  unfold rejectsOf tableRows DeltaLog.append
  rw [liveFiles_append, live, List.flatMap_append, List.filter_append, List.map_append]
  rfl

theorem OthersRejects.rejectsOf (others : OthersRejects appId commit) :
    rejectsOf appId (table.append commit) = rejectsOf appId table := by
  have none_ours : Ddi.rejectsOf appId { commits := [commit] } = [] := by
    unfold Ddi.rejectsOf tableRows liveFiles applyFileActions
    rw [List.foldl_cons, List.foldl_nil, List.filter_nil, List.nil_append, List.map_eq_nil_iff,
      List.filter_eq_nil_iff]
    intro row member
    obtain ⟨file, added, held⟩ := List.mem_flatMap.mp member
    obtain ⟨action, present, same⟩ := List.mem_filterMap.mp added
    cases action with
    | add other =>
        cases same
        have foreign := others.rows file present row held
        rw [beq_iff_eq]
        exact foreign
    | remove gone => cases same
    | metaData metadata => cases same
    | txn app version => cases same
    | commitInfo info => cases same
    | other => cases same
  rw [rejectsOf_append others.keeps, none_ours, List.append_nil]

theorem OthersRejects.transactionVersion (others : OthersRejects appId commit) :
    transactionVersion (table.append commit) (dqAppIdFor appId) =
      transactionVersion table (dqAppIdFor appId) := by
  rw [transactionVersion_append, txnOf_foreign others.offset, Option.none_or]

end Table

namespace DataQuality

variable (dq : DataQuality) (path : String) (rejected : List Reject)
  (sourceVersion nowMicros : Int) (table : DeltaLog DqRow)

/-- What was there stays, and the batch's rejects come after it. -/
theorem rejectsOf_commit :
    rejectsOf dq.appId (table.append (dq.commit path rejected sourceVersion nowMicros)) =
      rejectsOf dq.appId table ++ rejected := by
  have own : rejectsOf dq.appId { commits := [dq.commit path rejected sourceVersion nowMicros] } =
      rejected := by
    have rows : tableRows { commits := [dq.commit path rejected sourceVersion nowMicros] } =
        dq.batch rejected sourceVersion nowMicros := by
      unfold tableRows liveFiles applyFileActions commit
      simp only [List.foldl_cons, List.foldl_nil, List.filter_nil, List.nil_append,
        List.filterMap_cons, List.filterMap_nil, List.flatMap_cons, List.flatMap_nil,
        List.append_nil]
    unfold rejectsOf
    rw [rows, batch, List.filter_eq_self.mpr ?_, List.map_map]
    · exact List.map_id _
    · intro row member
      obtain ⟨reject, _present, same⟩ := List.mem_map.mp member
      rw [← same]
      exact beq_self_eq_true _
  rw [rejectsOf_append ?_, own]
  intro file member
  unfold commit at member
  simp only [List.mem_cons, reduceCtorEq, List.not_mem_nil, or_self] at member

theorem transactionVersion_commit :
    transactionVersion (table.append (dq.commit path rejected sourceVersion nowMicros))
      (dqAppIdFor dq.appId) = some sourceVersion := by
  rw [transactionVersion_append]
  have own : txnOf (dqAppIdFor dq.appId) (dq.commit path rejected sourceVersion nowMicros).actions =
      some sourceVersion := by
    unfold txnOf commit
    simp only [List.reverse_cons, List.reverse_nil, List.nil_append, List.cons_append,
      List.findSome?_cons, if_true]
  rw [own]
  rfl

variable {dq path rejected sourceVersion nowMicros}

/-- A write that makes no commit had nothing to write, or found the offset there. -/
theorem write_none (nothing : dq.write path rejected sourceVersion nowMicros = none) :
    rejected = [] ∨ dq.alreadyRecorded sourceVersion = true := by
  unfold write at nothing
  split at nothing
  · rename_i empty
    exact Or.inl (List.isEmpty_iff.mp empty)
  · split at nothing
    · rename_i recorded
      exact Or.inr recorded
    · cases nothing

theorem write_some {made : Commit DqRow}
    (wrote : dq.write path rejected sourceVersion nowMicros = some made) :
    rejected ≠ [] ∧ dq.alreadyRecorded sourceVersion = false ∧
      made = dq.commit path rejected sourceVersion nowMicros := by
  unfold write at wrote
  split at wrote
  · cases wrote
  · rename_i some_rejects
    split at wrote
    · cases wrote
    · rename_i unrecorded
      cases wrote
      refine ⟨?_, Bool.eq_false_iff.mpr unrecorded, rfl⟩
      intro empty
      exact some_rejects (List.isEmpty_iff.mpr empty)

end DataQuality

end Ddi
