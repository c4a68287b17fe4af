/-
Which value a cast writes where, read off the documentation of the cast and not off the search:
the search flags a row exactly where one of them is a fraction going into an integer.
-/

import Ddi.Schema.Fractions
import Mathlib.Tactic.NormNum
import Mathlib.Tactic.FieldSimp

namespace Ddi.Schema

open Ddi.Kafka.Conform (ListKind)

namespace Column

def runs : Column → Bool
  | .runEndEncoded _ _ _ _ _ _ => true
  | _ => false

def unions : Column → Bool
  | .union _ _ _ _ => true
  | _ => false

def dictionaries : Column → Bool
  | .dictionary _ _ _ => true
  | _ => false

def lists : Column → Bool
  | .list _ _ _ _ => true
  | _ => false

end Column

namespace DataType

def runs : DataType → Bool
  | .runEndEncoded _ _ _ => true
  | _ => false

def unions : DataType → Bool
  | .union _ _ _ => true
  | _ => false

def dictionaries : DataType → Bool
  | .dictionary _ _ => true
  | _ => false

def lists : DataType → Bool
  | .list _ _ _ => true
  | _ => false

/-- What the values of runs are cast to. -/
def ofRuns : DataType → DataType
  | .runEndEncoded _ _ value => value
  | type => type

end DataType

/-- A value, of some type. -/
structure Scalar where
  type : Plain
  content : type.Carrier

namespace Scalar

/-- The number that a finite float or a decimal is. -/
def number : Scalar → Option ℚ
  | ⟨.float16, .finite value⟩ | ⟨.float32, .finite value⟩ | ⟨.float64, .finite value⟩ => some value
  | ⟨.decimal32 _ scale, unscaled⟩ => some (unscaled.val / 10 ^ scale)
  | ⟨.decimal64 _ scale, unscaled⟩ => some (unscaled.val / 10 ^ scale)
  | ⟨.decimal128 _ scale, unscaled⟩ => some (unscaled.val / 10 ^ scale)
  | ⟨.decimal256 _ scale, unscaled⟩ => some (unscaled.val / 10 ^ scale)
  | _ => none

end Scalar

/-- A float or decimal, of those that are looked at, that is finite and not a whole number, where
an integer or a count of units is written. -/
def Fraction (sources : Sources) (value : Scalar) (target : Plain) : Prop :=
  target.isCount = true ∧ value.type.fractional sources = true ∧
    ∃ number, value.number = some number ∧ ∀ whole : Int, number ≠ whole

section Casts

variable (canCastTypes : DataType → DataType → Bool)

/-- The cast of a column writes a value for a row, into a type: runs and dictionaries by their
values, a union by the one child picked, lists by their elements, a one-element list of fixed size
unwrapped and any value wrapped, maps by their entries, structs by their paired fields. Columns
that have the type are not cast. -/
inductive Writes : Column → DataType → Nat → Scalar → Plain → Prop
  | plain (type : Plain) (values : List (Option type.Carrier)) (target : Plain) (row : Nat)
      (content : type.Carrier) (apart : type ≠ target) (held : values[row]? = some (some content)) :
      Writes (.plain type values) (.plain target) row ⟨type, content⟩ target
  | run (ends : RunEnd) (label : Label) (runEnds : List Nat) (offset rows : Nat) (values : Column)
      (target : DataType) (row : Nat) (value : Scalar) (into : Plain)
      (apart : (Column.runEndEncoded ends label runEnds offset rows values).dataType ≠ target)
      (inside : row < rows)
      (written : Writes values target.ofRuns (physicalIndex runEnds offset row) value into) :
      Writes (.runEndEncoded ends label runEnds offset rows values) target row value into
  | intoRun (col : Column) (ends : RunEnd) (label : Label) (type : DataType) (row : Nat)
      (value : Scalar) (into : Plain) (other : col.runs = false)
      (apart : col.dataType ≠ .runEndEncoded ends label type)
      (written : Writes col type row value into) :
      Writes col (.runEndEncoded ends label type) row value into
  | child (ids : List Int) (children : Columns) (offsets : Option (List Nat)) (typeIds : List Int)
      (target : DataType) (row : Nat) (value : Scalar) (into : Plain) (branch : Branch)
      (values : Column) (other : target.runs = false)
      (apart : (Column.union ids children offsets typeIds).dataType ≠ target)
      (picked : unionChild canCastTypes ids children.fields target = some branch)
      (held : children.toList[branch.place]? = some values)
      (selected : typeIds[row]? = some branch.id)
      (written : Writes values target (offsets.elim row fun starts => starts.getD row 0) value into) :
      Writes (.union ids children offsets typeIds) target row value into
  | keyed (key : Plain) (keys : List (Option Nat)) (values : Column) (target : DataType) (row : Nat)
      (value : Scalar) (into : Plain) (place : Nat) (other : target.runs = false)
      (apart : (Column.dictionary key keys values).dataType ≠ target)
      (held : keys[row]? = some (some place)) (written : Writes values target place value into) :
      Writes (.dictionary key keys values) target row value into
  | intoKeyed (col : Column) (key : Plain) (type : DataType) (row : Nat) (value : Scalar)
      (into : Plain) (other : col.runs = false ∧ col.unions = false ∧ col.dictionaries = false)
      (apart : col.dataType ≠ .dictionary key type) (written : Writes col type row value into) :
      Writes col (.dictionary key type) row value into
  | element (label : Label) (layout : Layout) (nulls : Option (List Bool)) (values : Column)
      (kind : ListKind) (label' : Label) (item : DataType) (row first past place : Nat)
      (value : Scalar) (into : Plain)
      (apart : (Column.list label layout nulls values).dataType ≠ .list kind label' item)
      (valid : unmasked nulls row = true) (ranged : layout.ranges[row]? = some (first, past))
      (inside : first ≤ place ∧ place < past) (written : Writes values item place value into) :
      Writes (.list label layout nulls values) (.list kind label' item) row value into
  | unwrapped (label : Label) (layout : Layout) (nulls : Option (List Bool)) (values : Column)
      (target : DataType) (row : Nat) (value : Scalar) (into : Plain)
      (one : layout.kind = .fixedSizeList 1)
      (other : target.runs = false ∧ target.dictionaries = false ∧ target.lists = false)
      (apart : (Column.list label layout nulls values).dataType ≠ target)
      (written : Writes values target row value into) :
      Writes (.list label layout nulls values) target row value into
  | wrapped (col : Column) (kind : ListKind) (label : Label) (item : DataType) (row : Nat)
      (value : Scalar) (into : Plain) (one : wraps kind = true)
      (other : col.runs = false ∧ col.unions = false ∧ col.dictionaries = false ∧ col.lists = false)
      (apart : col.dataType ≠ .list kind label item) (written : Writes col item row value into) :
      Writes col (.list kind label item) row value into
  | entry (label keyLabel valueLabel : Label) (sorted : Bool) (offsets : List Nat)
      (nulls entryNulls : Option (List Bool)) (keys values : Column) (label' : Label)
      (entries key item : DataType) (sorted' : Bool) (row first past place : Nat) (value : Scalar)
      (into : Plain)
      (apart : (Column.map label keyLabel valueLabel sorted offsets nulls entryNulls keys
        values).dataType ≠ .map label' entries sorted')
      (paired : keyValue entries = some (key, item))
      (valid : unmasked nulls row = true) (ranged : (windows offsets)[row]? = some (first, past))
      (inside : first ≤ place ∧ place < past) (counted : place < keys.length)
      (entered : unmasked entryNulls place = true) (side : Bool)
      (written : Writes (if side then keys else values) (if side then key else item) place value
        into) :
      Writes (.map label keyLabel valueLabel sorted offsets nulls entryNulls keys values)
        (.map label' entries sorted') row value into
  | field (rows : Nat) (nulls : Option (List Bool)) (columns : Columns) (fields : Fields)
      (row place : Nat) (type : DataType) (column : Column) (value : Scalar) (into : Plain)
      (apart : (Column.struct rows nulls columns).dataType ≠ .struct fields)
      (inside : row < rows) (valid : unmasked nulls row = true)
      (paired : (place, type) ∈ structPairs columns.fields fields)
      (held : columns.toList[place]? = some column) (written : Writes column type row value into) :
      Writes (.struct rows nulls columns) (.struct fields) row value into

/-! ### The check on types alone -/

variable {canCastTypes} {sources : Sources}

theorem Column.depth_pos (col : Column) : 0 < col.depth := by
  cases col <;> exact Nat.succ_pos _

theorem DataType.depth_pos (type : DataType) : 0 < type.depth := by
  cases type <;> exact Nat.succ_pos _

theorem Columns.depth_mem {columns : Columns} {place : Nat} {column : Column}
    (held : columns.toList[place]? = some column) : column.depth ≤ columns.depth := by
  have inside := List.mem_of_getElem? held
  clear held
  induction columns with
  | nil => cases inside
  | cons label own rest inductionHypothesis =>
      cases inside with
      | head => exact Nat.le_max_left _ _
      | tail _ later => exact Nat.le_trans (inductionHypothesis later) (Nat.le_max_right _ _)

theorem Fields.depth_mem {fields : Fields} {place : Nat} {field : Field}
    (held : fields.toList[place]? = some field) : field.type.depth ≤ fields.depth := by
  have inside := List.mem_of_getElem? held
  clear held
  induction fields with
  | nil => cases inside
  | cons label own rest inductionHypothesis =>
      cases inside with
      | head => exact Nat.le_max_left _ _
      | tail _ later => exact Nat.le_trans (inductionHypothesis later) (Nat.le_max_right _ _)

/-- A column stands where its field does. -/
theorem Columns.fields_get (columns : Columns) (place : Nat) :
    (columns.fields.toList[place]?).map Field.type =
      (columns.toList[place]?).map Column.dataType := by
  induction columns generalizing place with
  | nil => rfl
  | cons label column rest inductionHypothesis =>
      cases place with
      | zero => rfl
      | succ place => exact inductionHypothesis place

/-- The branch picked stands in the union. -/
theorem unionChild_mem {ids : List Int} {fields : Fields} {target : DataType} {branch : Branch}
    (picked : unionChild canCastTypes ids fields target = some branch) :
    branch ∈ branches ids fields := by
  unfold unionChild at picked
  rcases Option.or_eq_some_iff.mp picked with equal | other
  · exact List.mem_of_find?_eq_some equal
  · rcases Option.or_eq_some_iff.mp other.2 with family | casts
    · exact List.mem_of_find?_eq_some family
    · have found := casts.2
      split at found
      · cases found
      · exact List.mem_of_find?_eq_some found

theorem branchesFrom_get {place : Nat} {ids : List Int} {fields : Fields} {branch : Branch}
    (inside : branch ∈ branchesFrom place ids fields) :
    place ≤ branch.place ∧
      ∃ field, fields.toList[branch.place - place]? = some field ∧ field.type = branch.type := by
  induction fields generalizing place ids with
  | nil => cases ids <;> cases inside
  | cons label type rest inductionHypothesis =>
      cases ids with
      | nil => cases inside
      | cons id ids =>
          cases inside with
          | head =>
              rw [Nat.sub_self]
              exact ⟨Nat.le_refl _, _, rfl, rfl⟩
          | tail _ later =>
              obtain ⟨above, field, held, same⟩ := inductionHypothesis later
              refine ⟨Nat.le_of_succ_le above, field, ?_, same⟩
              have next : branch.place - place = branch.place - (place + 1) + 1 := by omega
              rw [next]
              exact held

/-- The picked branch's type is that of the child that stands in its place. -/
theorem unionChild_type {ids : List Int} {children : Columns} {target : DataType} {branch : Branch}
    {values : Column} (picked : unionChild canCastTypes ids children.fields target = some branch)
    (held : children.toList[branch.place]? = some values) : values.dataType = branch.type := by
  obtain ⟨_, field, standing, same⟩ := branchesFrom_get (unionChild_mem picked)
  have both := children.fields_get branch.place
  rw [Nat.sub_zero] at standing
  rw [standing, held] at both
  rw [← same]
  exact (Option.some.inj both).symm

theorem dropsWithin_intoRun {fuel : Nat} {source type : DataType} {ends : RunEnd} {label : Label}
    (other : source.runs = false) (apart : source ≠ .runEndEncoded ends label type) :
    dropsWithin canCastTypes sources (fuel + 1) source (.runEndEncoded ends label type) =
      dropsWithin canCastTypes sources fuel source type := by
  conv_lhs => unfold dropsWithin
  rw [if_neg apart]
  cases source <;> first | rfl | cases other

theorem dropsWithin_intoKeyed {fuel : Nat} {source type : DataType} {key : Plain}
    (other : source.runs = false ∧ source.unions = false ∧ source.dictionaries = false)
    (apart : source ≠ .dictionary key type) :
    dropsWithin canCastTypes sources (fuel + 1) source (.dictionary key type) =
      dropsWithin canCastTypes sources fuel source type := by
  obtain ⟨run, union, keyed⟩ := other
  conv_lhs => unfold dropsWithin
  rw [if_neg apart]
  cases source <;> first | rfl | contradiction

theorem dropsWithin_wrapped {fuel : Nat} {source item : DataType} {kind : ListKind} {label : Label}
    (one : wraps kind = true)
    (other : source.runs = false ∧ source.unions = false ∧ source.dictionaries = false ∧
      source.lists = false) (apart : source ≠ .list kind label item) :
    dropsWithin canCastTypes sources (fuel + 1) source (.list kind label item) =
      dropsWithin canCastTypes sources fuel source item := by
  obtain ⟨run, union, keyed, list⟩ := other
  conv_lhs => unfold dropsWithin
  rw [if_neg apart]
  cases source <;> first | contradiction | simp only [one, Bool.true_and]

theorem dataType_flags (col : Column) :
    col.dataType.runs = col.runs ∧ col.dataType.unions = col.unions ∧
      col.dataType.dictionaries = col.dictionaries ∧ col.dataType.lists = col.lists := by
  cases col <;> exact ⟨rfl, rfl, rfl, rfl⟩

theorem structPairs_depth {source target : Fields} {pair : Nat × DataType}
    (paired : pair ∈ structPairs source target) : pair.2.depth ≤ target.depth := by
  have inside {indices : List Nat} (paired : pair ∈ indices.zip (target.toList.map Field.type)) :
      pair.2.depth ≤ target.depth := by
    obtain ⟨field, stands, same⟩ := List.mem_map.mp (List.of_mem_zip paired).2
    obtain ⟨place, held⟩ := List.mem_iff_getElem?.mp stands
    rw [← same]
    exact Fields.depth_mem held
  unfold structPairs at paired
  dsimp only at paired
  split at paired
  · split at paired
    · exact inside paired
    · exact inside paired
  · exact inside paired

theorem keyValue_depth {entries key item : DataType} (paired : keyValue entries = some (key, item)) :
    key.depth < entries.depth ∧ item.depth < entries.depth := by
  unfold keyValue at paired
  split at paired
  · cases paired
    simp only [DataType.depth, Fields.depth]
    omega
  · cases paired

/-- The check on types never says no where some array of the types holds a fraction. -/
theorem Writes.drops {col : Column} {target : DataType} {row : Nat} {value : Scalar} {into : Plain}
    (written : Writes canCastTypes col target row value into)
    (fraction : Fraction sources value into) :
    ∀ fuel, col.dataType.depth + target.depth ≤ fuel →
      dropsWithin canCastTypes sources fuel col.dataType target = true := by
  have next {source target : DataType} {fuel : Nat} (enough : source.depth + target.depth ≤ fuel) :
      ∃ rest, fuel = rest + 1 ∧ source.depth + target.depth ≤ rest + 1 := by
    have some := source.depth_pos
    exact ⟨fuel - 1, by omega, by omega⟩
  induction written with
  | plain type values target row content apart held =>
      intro fuel enough
      obtain ⟨rest, same, _⟩ := next enough
      have away : DataType.plain type ≠ .plain target := fun same => apart (DataType.plain.inj same)
      rw [same, Column.dataType, dropsWithin, if_neg away, fraction.1, fraction.2.1]
      rfl
  | run ends label runEnds offset rows values target row value into apart inside written
      inductionHypothesis =>
      intro fuel enough
      obtain ⟨rest, same, enough⟩ := next enough
      rw [same]
      unfold dropsWithin
      rw [if_neg apart]
      cases target with
      | runEndEncoded ends' label' type =>
          apply inductionHypothesis fraction
          simp only [Column.dataType, DataType.depth, DataType.ofRuns] at enough ⊢
          omega
      | _ =>
          apply inductionHypothesis fraction
          simp only [Column.dataType, DataType.depth, DataType.ofRuns] at enough ⊢
          omega
  | intoRun col ends label type row value into other apart written inductionHypothesis =>
      intro fuel enough
      obtain ⟨rest, same, enough⟩ := next enough
      rw [same, dropsWithin_intoRun ((dataType_flags col).1.trans other) apart]
      apply inductionHypothesis fraction
      simp only [DataType.depth] at enough
      omega
  | child ids children offsets typeIds target row value into branch values other apart picked held
      selected written inductionHypothesis =>
      intro fuel enough
      obtain ⟨rest, same, enough⟩ := next enough
      have type := unionChild_type picked held
      have depth : values.dataType.depth ≤ children.fields.depth := by
        have both := children.fields_get branch.place
        rw [held] at both
        obtain ⟨field, standing, same⟩ := Option.map_eq_some_iff.mp both
        rw [← same]
        exact Fields.depth_mem standing
      simp only [Column.dataType, DataType.depth] at enough
      rw [same]
      unfold dropsWithin
      rw [if_neg apart]
      simp only [Column.dataType]
      cases target <;> first | contradiction | skip
      all_goals
        simp only [picked, Option.any_some, ← type]
        apply inductionHypothesis fraction
        simp only [DataType.depth] at enough ⊢
        omega
  | keyed key keys values target row value into place other apart held written
      inductionHypothesis =>
      intro fuel enough
      obtain ⟨rest, same, enough⟩ := next enough
      rw [same]
      unfold dropsWithin
      rw [if_neg apart]
      cases target <;> first | contradiction | skip
      all_goals
        apply inductionHypothesis fraction
        simp only [Column.dataType, DataType.depth] at enough ⊢
        omega
  | intoKeyed col key type row value into other apart written inductionHypothesis =>
      intro fuel enough
      obtain ⟨rest, same, enough⟩ := next enough
      obtain ⟨run, union, keyed, _⟩ := dataType_flags col
      rw [same, dropsWithin_intoKeyed
        ⟨run.trans other.1, union.trans other.2.1, keyed.trans other.2.2⟩ apart]
      apply inductionHypothesis fraction
      simp only [DataType.depth] at enough
      omega
  | element label layout nulls values kind label' item row first past place value into apart valid
      ranged inside written inductionHypothesis =>
      intro fuel enough
      obtain ⟨rest, same, enough⟩ := next enough
      rw [same]
      unfold dropsWithin
      rw [if_neg apart]
      apply inductionHypothesis fraction
      simp only [Column.dataType, DataType.depth] at enough
      omega
  | unwrapped label layout nulls values target row value into one other apart written
      inductionHypothesis =>
      intro fuel enough
      obtain ⟨rest, same, enough⟩ := next enough
      obtain ⟨run, keyed, list⟩ := other
      rw [same]
      unfold dropsWithin
      rw [if_neg apart]
      simp only [Column.dataType, one]
      cases target <;> first | contradiction | skip
      all_goals
        simp only [decide_true, Bool.true_and]
        apply inductionHypothesis fraction
        simp only [Column.dataType, DataType.depth] at enough ⊢
        omega
  | wrapped col kind label item row value into one other apart written inductionHypothesis =>
      intro fuel enough
      obtain ⟨rest, same, enough⟩ := next enough
      obtain ⟨run, union, keyed, list⟩ := dataType_flags col
      rw [same, dropsWithin_wrapped one ⟨run.trans other.1, union.trans other.2.1,
        keyed.trans other.2.2.1, list.trans other.2.2.2⟩ apart]
      apply inductionHypothesis fraction
      simp only [DataType.depth] at enough
      omega
  | entry label keyLabel valueLabel sorted offsets nulls entryNulls keys values label' entries key
      item sorted' row first past place value into apart paired valid ranged inside counted entered
      side written inductionHypothesis =>
      intro fuel enough
      obtain ⟨rest, same, enough⟩ := next enough
      have depths := keyValue_depth paired
      rw [same]
      unfold dropsWithin
      rw [if_neg apart]
      have own : keyValue (.struct (.cons keyLabel keys.dataType
          (.cons valueLabel values.dataType .nil))) = some (keys.dataType, values.dataType) := rfl
      simp only [Column.dataType, own, paired, Bool.or_eq_true]
      simp only [Column.dataType, DataType.depth, Fields.depth] at enough
      cases side with
      | true =>
          left
          apply inductionHypothesis fraction
          simp only [if_true]
          omega
      | false =>
          right
          apply inductionHypothesis fraction
          simp only [Bool.false_eq_true, if_false]
          omega
  | field rows nulls columns fields row place type column value into apart inside valid paired held
      written inductionHypothesis =>
      intro fuel enough
      obtain ⟨rest, same, enough⟩ := next enough
      have depth : type.depth ≤ fields.depth := structPairs_depth paired
      have both := columns.fields_get place
      rw [held] at both
      obtain ⟨field, standing, type'⟩ := Option.map_eq_some_iff.mp both
      have depth' := Fields.depth_mem standing
      rw [same]
      unfold dropsWithin
      rw [if_neg apart]
      simp only [Column.dataType, DataType.depth] at enough ⊢
      apply List.any_eq_true.mpr
      refine ⟨(place, type), paired, ?_⟩
      rw [standing, Option.any_some, type']
      apply inductionHypothesis fraction
      rw [← type']
      omega

end Casts

end Ddi.Schema
