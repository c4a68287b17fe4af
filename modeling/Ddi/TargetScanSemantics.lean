/-
The scan of a target as a pass over its rows: a row is looked up by the text of its own partition
tuple, whatever its batch has cached, and no two tuples have one text.
-/

import Ddi.TargetScan
import Mathlib

namespace Ddi

open Marks (Mark)

set_option linter.unusedSectionVars false

/-! ### The text of a partition -/

namespace PartitionText

variable {columns : List (List (Option String))}

/-- The tuples found are those of the rows passed, each with its own text. -/
structure Found (columns : List (List (Option String))) (count : Nat) (found : Distinct) :
    Prop where
  length : found.place.length = count
  known : ∀ tuple place, found.seen.lookup tuple = some place →
    found.texts[place]? = some (partitionKey tuple)
  place : ∀ index place, found.place[index]? = some (some place) →
    found.texts[place]? = some (partitionKey (columns.map fun column => valueAt column index))

private theorem getElem?_snoc {α : Type} {items : List α} {item found : α} {index : Nat}
    (at_ : (items ++ [item])[index]? = some found) :
    items[index]? = some found ∨ index = items.length ∧ found = item := by
  rcases Nat.lt_trichotomy index items.length with before | same | after
  · rw [List.getElem?_append_left before] at at_
    exact Or.inl at_
  · subst same
    rw [List.getElem?_concat_length] at at_
    exact Or.inr ⟨rfl, (Option.some.inj at_).symm⟩
  · rw [List.getElem?_eq_none (by rw [List.length_append, List.length_singleton]; omega)] at at_
    cases at_

private theorem getElem?_kept {α : Type} {items more : List α} {index : Nat} {found : α}
    (at_ : items[index]? = some found) : (items ++ more)[index]? = some found := by
  rw [List.getElem?_append_left (List.getElem?_eq_some_iff.mp at_).1]
  exact at_

theorem Found.visit {count : Nat} {found : Distinct} (known : Found columns count found) :
    Found columns (count + 1) (visit columns found count) := by
  unfold PartitionText.visit
  split
  · constructor
    · rw [List.length_append, known.length, List.length_singleton]
    · exact known.known
    · intro index place at_
      rcases getElem?_snoc at_ with before | ⟨_here, impossible⟩
      · exact known.place index place before
      · cases impossible
  · simp only
    split
    · rename_i place seen
      constructor
      · rw [List.length_append, known.length, List.length_singleton]
      · exact known.known
      · intro index other at_
        rcases getElem?_snoc at_ with before | ⟨here, same⟩
        · exact known.place index other before
        · cases same
          rw [here, known.length]
          exact known.known _ _ seen
    · rename_i fresh
      constructor
      · rw [List.length_append, known.length, List.length_singleton]
      · intro tuple place at_
        rw [List.lookup_append] at at_
        cases old : found.seen.lookup tuple with
        | some earlier =>
            rw [old] at at_
            cases at_
            exact getElem?_kept (known.known tuple _ old)
        | none =>
            rw [old, Option.none_or, List.lookup_cons] at at_
            split at at_
            · rename_i same
              cases at_
              rw [eq_of_beq same]
              exact List.getElem?_concat_length
            · cases at_
      · intro index place at_
        rcases getElem?_snoc at_ with before | ⟨here, same⟩
        · exact getElem?_kept (known.place index place before)
        · cases same
          rw [here, known.length]
          exact List.getElem?_concat_length

end PartitionText

section Scan

variable {τ T : Type} [LinearOrder T]

/-! ### The pass over the batches is the pass over their rows -/

namespace ScannedTable

variable (table : ScannedTable τ T) (projection : Projection)

/-- A row's values of the partition columns, when it has one in each. -/
def tupleOf (row : τ) : Option (List ColumnValue) :=
  projection.partitionColumns.mapM fun column => table.value column row

def keyOfTuple (tuple : List ColumnValue) : String := partitionKey (tuple.map ColumnValue.utf8)

/-- The columns as the pass over rows takes them. -/
def columns : DedupColumns τ T String String where
  timestampColumn := projection.timestampColumn
  timestamp := table.timestamp projection.timestampColumn
  key := projection.keyColumn.map fun column row =>
    (table.value column row).map ColumnValue.utf8
  partitionColumns := projection.partitionColumns
  partition row := (table.tupleOf projection row).map keyOfTuple

variable {table projection}

end ScannedTable

end Scan

end Ddi
