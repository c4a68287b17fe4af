/-
Skipping rows the target already holds, by timestamp.

A cut-off is read from the target in one pass: the newest timestamp with the
keys tied at it, once for the whole target or once per partition value. A row
below its mark is covered, one at its mark is settled by its key, one past it is
beyond anything whatever filled the target can have read.
-/

import Ddi.Error
import Ddi.Lib.Marks

namespace Ddi

open Marks (Mark)

set_option linter.unusedSectionVars false

variable {τ T K P : Type} [LinearOrder T] [DecidableEq K] [DecidableEq P]

/-- The columns a cut-off is kept by, as a row's values in them. -/
structure DedupColumns (τ T K P : Type) where
  timestampColumn : String
  timestamp : τ → Option T
  /-- `dedup_key` as text, when one is configured. -/
  key : Option (τ → Option K)
  partitionColumns : List String
  /-- The text of a row's partition tuple; none when one of the columns is null. -/
  partition : τ → Option P

namespace DedupColumns

variable (columns : DedupColumns τ T K P)

def isPartitioned : Bool := !columns.partitionColumns.isEmpty

def keyOf (row : τ) : Option K := columns.key.bind fun key => key row

/-- The cut-off a row is measured against: the one of the whole target, or its partition's. -/
def classOf (row : τ) : Option (Option P) :=
  if columns.isPartitioned then (columns.partition row).map some else some none

/-- Time and key of the rows of one class. -/
def heldIn (rows : List τ) (kind : Option P) : List (T × Option K) :=
  rows.filterMap fun row =>
    if columns.classOf row = some kind then
      (columns.timestamp row).map fun time => (time, columns.keyOf row)
    else none

end DedupColumns

/-- What the target already contains, expressed as a cut-off. -/
structure Dedup (T K P : Type) where
  partitionColumns : List String
  watermark : Option (Mark T K)
  partitions : List (P × Mark T K)

def maxDedupPartitions : Nat := 100000

namespace Dedup

def isPartitioned (dedup : Dedup T K P) : Bool := !dedup.partitionColumns.isEmpty

def isInert (dedup : Dedup T K P) : Bool :=
  if dedup.isPartitioned then dedup.partitions.isEmpty else dedup.watermark.isNone

def markOf (dedup : Dedup T K P) (kind : Option P) : Option (Mark T K) :=
  match kind with
  | none => dedup.watermark
  | some partition => dedup.partitions.lookup partition

/-- One row more for the mark of its partition. -/
def raiseAt (partition : P) (time : T) (key : Option K) :
    List (P × Mark T K) → List (P × Mark T K)
  | [] => [(partition, Marks.raise none time key)]
  | (known, mark) :: rest =>
    if partition = known then (known, Marks.raise (some mark) time key) :: rest
    else (known, mark) :: raiseAt partition time key rest

def tooManyPartitions (columns : List String) (maxPartitions : Nat) : Error :=
  .config s!"dedup_partition {columns} has more than {maxPartitions} distinct values"

/-- One row of the pass over the target. -/
def readRow (columns : DedupColumns τ T K P) (maxPartitions : Nat) (dedup : Dedup T K P)
    (row : τ) : Except Error (Dedup T K P) :=
  match columns.timestamp row with
  | none => .ok dedup
  | some time =>
    if columns.isPartitioned then
      match columns.partition row with
      | none => .ok dedup
      | some partition =>
        if (dedup.partitions.lookup partition).isNone &&
            decide (maxPartitions ≤ dedup.partitions.length) then
          .error (tooManyPartitions columns.partitionColumns maxPartitions)
        else
          .ok { dedup with
            partitions := raiseAt partition time (columns.keyOf row) dedup.partitions }
    else
      .ok { dedup with watermark := some (Marks.raise dedup.watermark time (columns.keyOf row)) }

def readRows (columns : DedupColumns τ T K P) (maxPartitions : Nat) :
    List τ → Dedup T K P → Except Error (Dedup T K P)
  | [], dedup => .ok dedup
  | row :: rest, dedup =>
    match readRow columns maxPartitions dedup row with
    | .error error => .error error
    | .ok dedup => readRows columns maxPartitions rest dedup

def empty (partitionColumns : List String) : Dedup T K P :=
  { partitionColumns := partitionColumns, watermark := none, partitions := [] }

/-- Reads the cut-off out of the target's rows. -/
def readBounded (columns : DedupColumns τ T K P) (maxPartitions : Nat) (rows : List τ) :
    Except Error (Dedup T K P) :=
  readRows columns maxPartitions rows (empty columns.partitionColumns)

def readPartitioned (columns : DedupColumns τ T K P) (rows : List τ) :
    Except Error (Dedup T K P) :=
  readBounded columns maxDedupPartitions rows

end Dedup

inductive Verdict
  | covered
  /-- At its mark, and not known to be held there. -/
  | tied
  | beyond
  deriving DecidableEq

/-- A row measured against its mark. -/
def judge (hasKey : Bool) (mark : Mark T K) (time : T) (key : Option K) : Verdict :=
  if mark.newest < time then .beyond
  else if time = mark.newest then
    if hasKey then
      match key with
      | none => .tied
      | some key => if key ∈ mark.ties then .covered else .tied
    else .covered
  else .covered

/-- What a cut-off made of one batch. -/
structure Filtered (τ : Type) where
  kept : List τ
  covered : Nat
  beyond : Nat

def Filtered.ofVerdicts (verdict : τ → Verdict) (batch : List τ) : Filtered τ where
  kept := batch.filter fun row => decide (verdict row ≠ .covered)
  covered := batch.countP fun row => decide (verdict row = .covered)
  beyond := batch.countP fun row => decide (verdict row = .beyond)

def nullTimestamps (columns : DedupColumns τ T K P) (batch : List τ) : Nat :=
  batch.countP fun row => (columns.timestamp row).isNone

def nullPartitions (columns : DedupColumns τ T K P) (batch : List τ) : Nat :=
  batch.countP fun row => (columns.partition row).isNone

def requireTimestamps (columns : DedupColumns τ T K P) (batch : List τ) : Except Error Unit :=
  if 0 < nullTimestamps columns batch then
    .error (.schema s!"dedup timestamp {columns.timestampColumn} contains {
      nullTimestamps columns batch
      } null(s); a row with no timestamp can be neither kept nor skipped safely")
  else .ok ()

def requirePartitions (columns : DedupColumns τ T K P) (batch : List τ) : Except Error Unit :=
  if columns.isPartitioned = true ∧ 0 < nullPartitions columns batch then
    .error (.schema s!"dedup partition {columns.partitionColumns} contains {
      nullPartitions columns batch
      } null(s); a row with no partition can be neither kept nor skipped safely")
  else .ok ()

namespace Dedup

/-- A row measured against the mark of its class. -/
def verdict (columns : DedupColumns τ T K P) (dedup : Dedup T K P) (row : τ) : Verdict :=
  match columns.classOf row with
  | none => .tied
  | some kind =>
    match dedup.markOf kind with
    | none => .beyond
    | some mark =>
      match columns.timestamp row with
      | none => .tied
      | some time => judge columns.key.isSome mark time (columns.keyOf row)

def filterPartitioned (columns : DedupColumns τ T K P) (dedup : Dedup T K P) (batch : List τ) :
    Except Error (Filtered τ) :=
  match requireTimestamps columns batch with
  | .error error => .error error
  | .ok () =>
    match requirePartitions columns batch with
    | .error error => .error error
    | .ok () =>
      .ok (Filtered.ofVerdicts (fun row =>
        match (columns.partition row).bind fun partition => dedup.partitions.lookup partition with
        | none => .beyond
        | some mark =>
          match columns.timestamp row with
          | none => .tied
          | some time => judge columns.key.isSome mark time (columns.keyOf row)) batch)

/-- Drops the rows the target already holds, and says how many went and how many of those
kept are past the watermark altogether. -/
def filter (columns : DedupColumns τ T K P) (dedup : Dedup T K P) (batch : List τ) :
    Except Error (Filtered τ) :=
  if columns.isPartitioned then filterPartitioned columns dedup batch
  else
    match dedup.watermark with
    | none => .ok { kept := batch, covered := 0, beyond := batch.length }
    | some mark =>
      match requireTimestamps columns batch with
      | .error error => .error error
      | .ok () =>
        .ok (Filtered.ofVerdicts (fun row =>
          match columns.timestamp row with
          | none => .tied
          | some time => judge columns.key.isSome mark time (columns.keyOf row)) batch)

section Read

variable (columns : DedupColumns τ T K P)

theorem lookup_raiseAt (partition asked : P) (time : T) (key : Option K)
    (marks : List (P × Mark T K)) :
    (raiseAt partition time key marks).lookup asked =
      if asked = partition then some (Marks.raise (marks.lookup partition) time key)
      else marks.lookup asked := by
  induction marks with
  | nil =>
      simp only [raiseAt, List.lookup_cons, List.lookup_nil]
      by_cases same : asked = partition
      · simp [same]
      · have apart : (asked == partition) = false := by simpa using same
        simp [same, apart]
  | cons entry rest ih =>
      obtain ⟨known, mark⟩ := entry
      unfold raiseAt
      by_cases here : partition = known
      · subst here
        rw [if_pos rfl]
        by_cases same : asked = partition
        · simp [same]
        · have apart : (asked == partition) = false := by simpa using same
          simp [List.lookup_cons, same, apart]
      · rw [if_neg here]
        by_cases atKnown : asked = known
        · subst atKnown
          have apart : ¬asked = partition := fun same => here same.symm
          simp [apart]
        · have apart : (asked == known) = false := by simpa using atKnown
          have away : (partition == known) = false := by simpa using here
          rw [List.lookup_cons, List.lookup_cons, List.lookup_cons, apart, away]
          exact ih

/-- The marks so far are those of the rows read so far. -/
structure ReadFrom (dedup : Dedup T K P) (rows : List τ) : Prop where
  form : dedup.partitionColumns = columns.partitionColumns
  marks : ∀ kind, dedup.markOf kind = Marks.ofRows (columns.heldIn rows kind)

theorem readRow_semantics {maxPartitions : Nat} {dedup after : Dedup T K P} {before : List τ}
    {row : τ} (readFrom : ReadFrom columns dedup before)
    (read : readRow columns maxPartitions dedup row = .ok after) :
    ReadFrom columns after (before ++ [row]) := by
  have appended : ∀ kind, columns.heldIn (before ++ [row]) kind =
      columns.heldIn before kind ++ columns.heldIn [row] kind := fun kind =>
    List.filterMap_append
  unfold readRow at read
  cases timed : columns.timestamp row with
  | none =>
      simp only [timed] at read
      cases read
      refine ⟨readFrom.form, fun kind => ?_⟩
      have nothing : columns.heldIn [row] kind = [] := by
        simp [DedupColumns.heldIn, timed]
      rw [appended, nothing, List.append_nil, readFrom.marks]
  | some time =>
      simp only [timed] at read
      cases partitioned : columns.isPartitioned with
      | false =>
          simp only [partitioned, Bool.false_eq_true, if_false] at read
          cases read
          refine ⟨readFrom.form, fun kind => ?_⟩
          rw [appended]
          cases kind with
          | none =>
              have one : columns.heldIn [row] none = [(time, columns.keyOf row)] := by
                simp [DedupColumns.heldIn, DedupColumns.classOf, partitioned, timed]
              have before_mark := readFrom.marks none
              rw [one, Marks.ofRows_append_singleton, ← before_mark]
              rfl
          | some partition =>
              have nothing : columns.heldIn [row] (some partition) = [] := by
                simp [DedupColumns.heldIn, DedupColumns.classOf, partitioned]
              rw [nothing, List.append_nil]
              exact readFrom.marks (some partition)
      | true =>
          simp only [partitioned, if_true] at read
          cases placed : columns.partition row with
          | none =>
              simp only [placed] at read
              cases read
              refine ⟨readFrom.form, fun kind => ?_⟩
              have nothing : columns.heldIn [row] kind = [] := by
                simp [DedupColumns.heldIn, DedupColumns.classOf, partitioned, placed]
              rw [appended, nothing, List.append_nil, readFrom.marks]
          | some partition =>
              simp only [placed] at read
              split at read
              · cases read
              · cases read
                refine ⟨readFrom.form, fun kind => ?_⟩
                rw [appended]
                cases kind with
                | none =>
                    have nothing : columns.heldIn [row] none = [] := by
                      simp [DedupColumns.heldIn, DedupColumns.classOf, partitioned]
                    rw [nothing, List.append_nil]
                    exact readFrom.marks none
                | some asked =>
                    change (raiseAt partition time (columns.keyOf row) dedup.partitions).lookup
                      asked = _
                    rw [lookup_raiseAt]
                    by_cases same : asked = partition
                    · subst same
                      have one : columns.heldIn [row] (some asked) =
                          [(time, columns.keyOf row)] := by
                        simp [DedupColumns.heldIn, DedupColumns.classOf, partitioned, placed,
                          timed]
                      have before_mark := readFrom.marks (some asked)
                      rw [if_pos rfl, one, Marks.ofRows_append_singleton, ← before_mark]
                      rfl
                    · have nothing : columns.heldIn [row] (some asked) = [] := by
                        have apart : ¬partition = asked := fun eq => same eq.symm
                        simp [DedupColumns.heldIn, DedupColumns.classOf, partitioned, placed,
                          apart]
                      rw [if_neg same, nothing, List.append_nil]
                      exact readFrom.marks (some asked)

theorem readRows_semantics {maxPartitions : Nat} {dedup after : Dedup T K P}
    {before rows : List τ} (readFrom : ReadFrom columns dedup before)
    (read : readRows columns maxPartitions rows dedup = .ok after) :
    ReadFrom columns after (before ++ rows) := by
  induction rows generalizing dedup before with
  | nil =>
      cases read
      rw [List.append_nil]
      exact readFrom
  | cons row rest ih =>
      unfold readRows at read
      cases step : readRow columns maxPartitions dedup row with
      | error error =>
          rw [step] at read
          cases read
      | ok next =>
          rw [step] at read
          have onward := ih (readRow_semantics columns readFrom step) read
          rw [List.append_assoc] at onward
          exact onward

/-- The cut-off read from a target is, per class, the mark of its rows. -/
theorem readBounded_semantics {maxPartitions : Nat} {rows : List τ} {dedup : Dedup T K P}
    (read : readBounded columns maxPartitions rows = .ok dedup) :
    ReadFrom columns dedup rows := by
  have start : ReadFrom columns (empty columns.partitionColumns) ([] : List τ) :=
    ⟨rfl, fun kind => by cases kind <;> rfl⟩
  exact readRows_semantics columns start read

end Read

section Filter

variable {columns : DedupColumns τ T K P} {dedup : Dedup T K P} {batch : List τ}
  {filtered : Filtered τ}

theorem requireTimestamps_ok {result : Unit} (ok : requireTimestamps columns batch = .ok result)
    {row : τ} (member : row ∈ batch) : (columns.timestamp row).isSome = true := by
  unfold requireTimestamps at ok
  split at ok
  · cases ok
  · rename_i none_null
    have zero : nullTimestamps columns batch = 0 := by omega
    have present := List.countP_eq_zero.mp zero row member
    rw [Bool.not_eq_true, Option.isNone_eq_false_iff] at present
    exact present

theorem requirePartitions_ok {result : Unit} (ok : requirePartitions columns batch = .ok result)
    (partitioned : columns.isPartitioned = true) {row : τ} (member : row ∈ batch) :
    (columns.partition row).isSome = true := by
  unfold requirePartitions at ok
  split at ok
  · cases ok
  · rename_i none_null
    have zero : nullPartitions columns batch = 0 := by
      by_contra some_null
      exact none_null ⟨partitioned, by omega⟩
    have present := List.countP_eq_zero.mp zero row member
    rw [Bool.not_eq_true, Option.isNone_eq_false_iff] at present
    exact present

private theorem ofVerdicts_congr {left right : τ → Verdict}
    (same : ∀ row, row ∈ batch → left row = right row) :
    Filtered.ofVerdicts left batch = Filtered.ofVerdicts right batch := by
  have pointwise : ∀ (test : Verdict → Bool),
      (∀ row, row ∈ batch → test (left row) = test (right row)) := fun test row member => by
    rw [same row member]
  unfold Filtered.ofVerdicts
  congr 1
  · exact List.filter_congr (pointwise fun verdict => decide (verdict ≠ .covered))
  · exact List.countP_congr fun row member => by
      rw [same row member]
  · exact List.countP_congr fun row member => by
      rw [same row member]

/-- A filter that answers judges every row by the mark of its class; one with marks has
seen a timestamp in each. -/
theorem filter_semantics (ok : dedup.filter columns batch = .ok filtered) :
    filtered = Filtered.ofVerdicts (dedup.verdict columns) batch ∧
      (columns.isPartitioned = true ∨ dedup.watermark.isSome = true →
        ∀ row, row ∈ batch → (columns.timestamp row).isSome = true ∧
          (columns.classOf row).isSome = true) := by
  unfold filter at ok
  cases partitioned : columns.isPartitioned with
  | true =>
      rw [partitioned, if_pos rfl] at ok
      unfold filterPartitioned at ok
      cases timed : requireTimestamps columns batch with
      | error error =>
          rw [timed] at ok
          cases ok
      | ok seen =>
          cases placed : requirePartitions columns batch with
          | error error =>
              rw [timed, placed] at ok
              cases ok
          | ok settled =>
              rw [timed, placed] at ok
              cases ok
              constructor
              · refine ofVerdicts_congr fun row member => ?_
                have present := requirePartitions_ok placed partitioned member
                obtain ⟨partition, known⟩ := Option.isSome_iff_exists.mp present
                simp only [verdict, DedupColumns.classOf, partitioned, if_true, known,
                  Option.map_some, Option.bind_some, markOf]
              · intro _form row member
                refine ⟨requireTimestamps_ok timed member, ?_⟩
                have present := requirePartitions_ok placed partitioned member
                rw [DedupColumns.classOf, partitioned, if_pos rfl, Option.isSome_map]
                exact present
  | false =>
      rw [partitioned, if_neg Bool.false_ne_true] at ok
      have single : ∀ row, columns.classOf row = some none := fun row => by
        rw [DedupColumns.classOf, partitioned, if_neg Bool.false_ne_true]
      cases read : dedup.watermark with
      | none =>
          rw [read] at ok
          cases ok
          constructor
          · have everything : ∀ row, dedup.verdict columns row = .beyond := fun row => by
              simp only [verdict, single, markOf, read]
            have whole : batch.filter (fun _ => true) = batch := List.filter_eq_self.mpr (by simp)
            simp [Filtered.ofVerdicts, everything, whole]
          · rintro (impossible | impossible)
            · cases impossible
            · cases impossible
      | some mark =>
          rw [read] at ok
          cases timed : requireTimestamps columns batch with
          | error error =>
              simp only [timed] at ok
              cases ok
          | ok seen =>
              simp only [timed] at ok
              cases ok
              constructor
              · refine ofVerdicts_congr fun row _member => ?_
                simp only [verdict, single, markOf, read]
              · intro _form row member
                rw [single]
                exact ⟨requireTimestamps_ok timed member, rfl⟩

end Filter

end Dedup

end Ddi
