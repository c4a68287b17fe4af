/-
What a scan of the target reads: per partition tuple, or overall, the newest time of its rows and
the keys tied at it, whatever order and batches the rows come in.
-/

import Ddi.TargetScanSemantics

namespace Ddi

open Marks (Mark)

set_option linter.unusedSectionVars false

section Scan

variable {τ T : Type} [LinearOrder T]

/-! ### How many partitions a pass meets -/

namespace Dedup

variable {K P : Type} [DecidableEq K] [DecidableEq P] {columns : DedupColumns τ T K P}

/-- The partitions of the rows that have a time. -/
def partitionsIn (columns : DedupColumns τ T K P) (rows : List τ) : List P :=
  rows.filterMap fun row => (columns.timestamp row).bind fun _time => columns.partition row

theorem raiseAt_keys (partition : P) (time : T) (key : Option K) (marks : List (P × Mark T K)) :
    (raiseAt partition time key marks).map Prod.fst =
      if (marks.lookup partition).isNone then marks.map Prod.fst ++ [partition]
      else marks.map Prod.fst := by
  induction marks with
  | nil => rfl
  | cons entry rest ih =>
      obtain ⟨known, mark⟩ := entry
      unfold raiseAt
      rw [List.lookup_cons]
      by_cases here : partition = known
      · subst here
        rw [if_pos rfl, beq_self_eq_true]
        rfl
      · have apart : (partition == known) = false := beq_false_of_ne here
        rw [if_neg here, apart, List.map_cons, ih]
        split
        · rfl
        · rfl

/-- The partitions with a mark are those met so far, each once. -/
structure Meets (columns : DedupColumns τ T K P) (maxPartitions : Nat) (rows : List τ)
    (dedup : Dedup T K P) : Prop where
  nodup : (dedup.partitions.map Prod.fst).Nodup
  same : ∀ partition, partition ∈ dedup.partitions.map Prod.fst ↔
    partition ∈ partitionsIn columns rows
  within : dedup.partitions.length ≤ maxPartitions

theorem Meets.card {maxPartitions : Nat} {rows : List τ} {dedup : Dedup T K P}
    (meets : Meets columns maxPartitions rows dedup) :
    (partitionsIn columns rows).toFinset.card = dedup.partitions.length := by
  have same : (partitionsIn columns rows).toFinset = (dedup.partitions.map Prod.fst).toFinset := by
    ext partition
    rw [List.mem_toFinset, List.mem_toFinset, meets.same]
  rw [same, List.toFinset_card_of_nodup meets.nodup, List.length_map]

theorem mem_keys {marks : List (P × Mark T K)} {partition : P} :
    partition ∈ marks.map Prod.fst ↔ (marks.lookup partition).isSome = true := by
  rw [List.lookup_isSome_iff, List.mem_map]
  constructor
  · rintro ⟨entry, member, same⟩
    exact ⟨entry, member, by rw [same]; exact beq_self_eq_true partition⟩
  · rintro ⟨entry, member, same⟩
    exact ⟨entry, member, (eq_of_beq same).symm⟩

theorem readRow_placed {maxPartitions : Nat} {dedup : Dedup T K P} {row : τ} {time : T}
    {partition : P} (partitioned : columns.isPartitioned = true)
    (timed : columns.timestamp row = some time)
    (placed : columns.partition row = some partition) :
    Dedup.readRow columns maxPartitions dedup row =
      if dedup.partitions.lookup partition = none ∧ maxPartitions ≤ dedup.partitions.length then
        .error (tooManyPartitions columns.partitionColumns maxPartitions)
      else .ok { dedup with
        partitions := raiseAt partition time (columns.keyOf row) dedup.partitions } := by
  unfold Dedup.readRow
  simp only [timed, placed, partitioned, if_true, Bool.and_eq_true, decide_eq_true_eq,
    Option.isNone_iff_eq_none]

/-- A row is read unless it would be the first of one partition too many. -/
theorem Meets.readRow {maxPartitions : Nat} {before : List τ} {dedup : Dedup T K P}
    (meets : Meets columns maxPartitions before dedup)
    (partitioned : columns.isPartitioned = true) (row : τ) :
    (∃ after, readRow columns maxPartitions dedup row = .ok after ∧
      Meets columns maxPartitions (before ++ [row]) after) ∨
    ((∃ error, readRow columns maxPartitions dedup row = .error error) ∧
      maxPartitions < (partitionsIn columns (before ++ [row])).toFinset.card) := by
  have appended : partitionsIn columns (before ++ [row]) =
      partitionsIn columns before ++ partitionsIn columns [row] := List.filterMap_append
  cases timed : columns.timestamp row with
  | none =>
      have nothing : partitionsIn columns [row] = [] := by simp [partitionsIn, timed]
      have read : Dedup.readRow columns maxPartitions dedup row = .ok dedup := by
        unfold Dedup.readRow
        rw [timed]
      refine Or.inl ⟨dedup, read, meets.nodup, fun partition => ?_, meets.within⟩
      rw [appended, nothing, List.append_nil, meets.same]
  | some time =>
      cases placed : columns.partition row with
      | none =>
          have nothing : partitionsIn columns [row] = [] := by simp [partitionsIn, timed, placed]
          have read : Dedup.readRow columns maxPartitions dedup row = .ok dedup := by
            unfold Dedup.readRow
            simp only [timed, placed, partitioned, if_true]
          refine Or.inl ⟨dedup, read, meets.nodup, fun partition => ?_, meets.within⟩
          rw [appended, nothing, List.append_nil, meets.same]
      | some partition =>
          rw [readRow_placed partitioned timed placed]
          have one : partitionsIn columns [row] = [partition] := by
            simp [partitionsIn, timed, placed]
          cases known : dedup.partitions.lookup partition with
          | some mark =>
              have held : partition ∈ dedup.partitions.map Prod.fst := by
                rw [mem_keys, known]
                rfl
              have keys := raiseAt_keys partition time (columns.keyOf row) dedup.partitions
              rw [known, Option.isNone_some, if_neg Bool.false_ne_true] at keys
              have length := congrArg List.length keys
              rw [List.length_map, List.length_map] at length
              rw [if_neg (fun both => nomatch both.1)]
              refine Or.inl ⟨_, rfl, ?_, ?_, ?_⟩
              · rw [keys]
                exact meets.nodup
              · intro other
                rw [keys, appended, one, List.mem_append, meets.same, List.mem_singleton]
                constructor
                · exact Or.inl
                · rintro (already | same)
                  · exact already
                  · rw [same, ← meets.same]
                    exact held
              · rw [length]
                exact meets.within
          | none =>
              have absent : partition ∉ dedup.partitions.map Prod.fst := by
                rw [mem_keys, known]
                exact Bool.false_ne_true
              have keys := raiseAt_keys partition time (columns.keyOf row) dedup.partitions
              rw [known, Option.isNone_none, if_pos rfl] at keys
              have length := congrArg List.length keys
              rw [List.length_map, List.length_append, List.length_map, List.length_singleton]
                at length
              by_cases full : maxPartitions ≤ dedup.partitions.length
              · rw [if_pos ⟨rfl, full⟩]
                refine Or.inr ⟨⟨_, rfl⟩, ?_⟩
                have more : (partitionsIn columns (before ++ [row])).toFinset =
                    insert partition (partitionsIn columns before).toFinset := by
                  ext other
                  rw [appended, one, List.mem_toFinset, List.mem_append, List.mem_singleton,
                    Finset.mem_insert, List.mem_toFinset, or_comm]
                have fresh : partition ∉ (partitionsIn columns before).toFinset := by
                  rw [List.mem_toFinset, ← meets.same]
                  exact absent
                rw [more, Finset.card_insert_of_notMem fresh, meets.card]
                omega
              · rw [if_neg (fun both => full both.2)]
                refine Or.inl ⟨_, rfl, ?_, ?_, ?_⟩
                · rw [keys]
                  exact List.nodup_append.mpr ⟨meets.nodup, List.nodup_singleton partition,
                    fun held inside other alone => by
                      rw [List.mem_singleton.mp alone]
                      intro same
                      rw [same] at inside
                      exact absent inside⟩
                · intro other
                  rw [keys, appended, one, List.mem_append, List.mem_append, meets.same]
                · rw [length]
                  omega

theorem card_mono {left right : List τ} :
    (partitionsIn columns left).toFinset.card ≤
      (partitionsIn columns (left ++ right)).toFinset.card := by
  apply Finset.card_le_card
  intro partition member
  rw [List.mem_toFinset] at member ⊢
  rw [show partitionsIn columns (left ++ right) =
    partitionsIn columns left ++ partitionsIn columns right from List.filterMap_append]
  exact List.mem_append_left _ member

theorem Meets.readRows {maxPartitions : Nat} {before rows : List τ} {dedup : Dedup T K P}
    (meets : Meets columns maxPartitions before dedup)
    (partitioned : columns.isPartitioned = true) :
    (∃ after, readRows columns maxPartitions rows dedup = .ok after) ↔
      (partitionsIn columns (before ++ rows)).toFinset.card ≤ maxPartitions := by
  induction rows generalizing before dedup with
  | nil =>
      rw [List.append_nil, meets.card]
      exact ⟨fun _ => meets.within, fun _ => ⟨dedup, rfl⟩⟩
  | cons row rest ih =>
      unfold Dedup.readRows
      rw [List.append_cons]
      rcases meets.readRow partitioned row with ⟨after, read, onward⟩ | ⟨⟨error, read⟩, beyond⟩
      · rw [read]
        exact ih onward
      · rw [read]
        have grows : (partitionsIn columns (before ++ [row])).toFinset.card ≤
          (partitionsIn columns (before ++ [row] ++ rest)).toFinset.card := card_mono
        constructor
        · rintro ⟨_after, impossible⟩
          cases impossible
        · intro small
          omega

end Dedup

/-! ### What is read -/

/-- A mark is exactly that of some rows: none without a row, and else the newest of their times
with the keys of the rows at it. -/
def MarksExactly (held : List (T × Option String)) (mark : Option (Mark T String)) : Prop :=
  (mark = none ↔ held = []) ∧ ∀ found, mark = some found → Marks.IsMark held found

/-- Two marks of one time with the same keys. -/
def SameMark (left right : Option (Mark T String)) : Prop :=
  left.map Mark.newest = right.map Mark.newest ∧
    ∀ first second, left = some first → right = some second →
      ∀ key, key ∈ first.ties ↔ key ∈ second.ties

namespace ScannedTable

variable (table : ScannedTable τ T) (projection : Projection)

def timed (row : τ) : Option (T × Option String) :=
  (table.timestamp projection.timestampColumn row).map fun time =>
    (time, table.keyAt projection row)

/-- Time and key of every row that has a time. -/
def held (rows : List τ) : List (T × Option String) := rows.filterMap (table.timed projection)

/-- Time and key of the rows of one partition tuple. -/
def heldAt (rows : List τ) (tuple : List ColumnValue) : List (T × Option String) :=
  table.held projection (rows.filter fun row => table.tupleOf projection row = some tuple)

/-- The mark of a partition tuple. -/
def markAt (dedup : Dedup T String String) (tuple : List ColumnValue) : Option (Mark T String) :=
  dedup.partitions.lookup (keyOfTuple tuple)

variable {table projection}

/-- The mark of some rows is that of the same rows in another order. -/
theorem MarksExactly.same {left right : List (T × Option String)}
    {first second : Option (Mark T String)} (leftMarks : MarksExactly left first)
    (rightMarks : MarksExactly right second) (perm : left.Perm right) : SameMark first second := by
  cases first with
  | none =>
      have nothing := leftMarks.1.mp rfl
      subst nothing
      have also : second = none := rightMarks.1.mpr (List.nil_perm.mp perm)
      subst also
      exact ⟨rfl, nofun⟩
  | some mark =>
      cases second with
      | none =>
          have nothing := rightMarks.1.mp rfl
          subst nothing
          cases leftMarks.1.mpr (List.perm_nil.mp perm)
      | some other =>
          have isMark := leftMarks.2 mark rfl
          have isOther := rightMarks.2 other rfl
          obtain ⟨top, held, at_⟩ := isMark.attained
          obtain ⟨peak, held', at_'⟩ := isOther.attained
          have newest : mark.newest = other.newest := by
            apply le_antisymm
            · rw [← at_]
              exact isOther.bound top (perm.mem_iff.mp held)
            · rw [← at_']
              exact isMark.bound peak (perm.mem_iff.mpr held')
          refine ⟨congrArg some newest, ?_⟩
          intro found found' same same' key
          cases same
          cases same'
          rw [isMark.ties, isOther.ties, newest, perm.mem_iff]

end ScannedTable

end Scan

end Ddi
