/-
The search for dropped fractions flags exactly the rows that a cast writes one for.
-/

import Ddi.Schema.Writes
import Mathlib.Data.Nat.Prime.Basic
import Mathlib.Tactic.Ring
import Mathlib.Tactic.Zify
import Mathlib.Tactic.NormNum.Prime

namespace Ddi.Schema

open Ddi.Kafka.Conform (ListKind)

/-- A row is flagged. -/
def Flagged (result : Option (List Bool)) (row : Nat) : Prop :=
  ∃ flags, result = some flags ∧ flags[row]? = some true

theorem getD_flag (flags : List Bool) (row : Nat) :
    flags.getD row false = true ↔ flags[row]? = some true := by
  rw [List.getD_eq_getElem?_getD]
  cases flags[row]? <;> simp

theorem getD_range (count place : Nat) (test : Nat → Bool) :
    ((List.range count).map test).getD place false = true ↔
      place < count ∧ test place = true := by
  rw [getD_flag, List.getElem?_map]
  by_cases inside : place < count <;> simp [inside]

theorem flagged_iff (result : Option (List Bool)) (row : Nat) :
    Flagged result row ↔ (result.any fun flags => flags.getD row false) = true := by
  unfold Flagged
  cases result with
  | none => simp
  | some flags =>
      rw [Option.any_some, getD_flag]
      simp

/-! ### Values of plain types -/

theorem floating_fraction (value : Floating) :
    value.hasFraction = true ↔
      ∃ number, value = .finite number ∧ ∀ whole : Int, number ≠ whole := by
  cases value with
  | finite number =>
      rw [Floating.hasFraction, decide_eq_true_eq]
      constructor
      · intro apart
        refine ⟨number, rfl, fun whole same => apart ?_⟩
        rw [same]
        rfl
      · intro found
        obtain ⟨own, same, apart⟩ := found
        cases same
        intro one
        exact apart number.num (Rat.den_eq_one_iff number |>.mp one).symm
  | nan => simp [Floating.hasFraction]
  | infinite negative => simp [Floating.hasFraction]

/-- A decimal is whole exactly where its unit divides it. -/
theorem decimal_whole (unscaled : Int) (scale : Nat) :
    (∃ whole : Int, (unscaled : ℚ) / 10 ^ (scale : Int) = whole) ↔
      unscaled.tmod (10 ^ scale) = 0 := by
  have unit : (10 : ℚ) ^ (scale : Int) ≠ 0 := zpow_ne_zero _ (by norm_num)
  rw [← Int.dvd_iff_tmod_eq_zero]
  constructor
  · intro whole
    obtain ⟨whole, same⟩ := whole
    rw [div_eq_iff unit, zpow_natCast] at same
    refine ⟨whole, ?_⟩
    have cast : (unscaled : ℚ) = ((10 ^ scale * whole : Int) : ℚ) := by
      rw [same]
      push_cast
      ring
    exact_mod_cast cast
  · intro divides
    obtain ⟨whole, same⟩ := divides
    refine ⟨whole, ?_⟩
    rw [div_eq_iff unit, zpow_natCast, same]
    push_cast
    ring

theorem decimal_fraction {bits : Nat} {scale : Int} (positive : 0 < scale)
    (unscaled : Native bits) :
    decimalFraction scale unscaled = true ↔
      ∀ whole : Int, (unscaled.val : ℚ) / 10 ^ scale ≠ whole := by
  obtain ⟨digits, same⟩ := Int.eq_ofNat_of_zero_le positive.le
  subst same
  have none : (∀ whole : Int, (unscaled.val : ℚ) / 10 ^ (digits : Int) ≠ whole) ↔
      ¬unscaled.val.tmod (10 ^ digits) = 0 := by
    rw [← decimal_whole, not_exists]
  rw [none]
  unfold decimalFraction
  rw [Int.natAbs_natCast]
  split
  · rw [decide_eq_true_eq]
  · next large =>
    rw [decide_eq_true_eq, ← Int.dvd_iff_tmod_eq_zero]
    apply not_congr
    constructor
    · intro zero
      rw [zero]
      exact Int.dvd_zero _
    · intro divides
      by_contra away
      -- A unit past the type is no power of two, so no other value of the type is as large.
      have large' : 2 ^ (bits - 1) ≤ 10 ^ digits := by
        exact_mod_cast Int.not_lt.mp large
      have unit : 10 ^ digits ≤ unscaled.val.natAbs := by
        have divides' := Int.natAbs_dvd_natAbs.mpr divides
        rw [Int.natAbs_pow] at divides'
        exact Nat.le_of_dvd (Int.natAbs_pos.mpr away) divides'
      have bound : unscaled.val.natAbs ≤ 2 ^ (bits - 1) := by
        have low := unscaled.low
        have high := unscaled.high
        zify
        rw [abs_le]
        exact ⟨low, high.le⟩
      have power : 10 ^ digits = 2 ^ (bits - 1) := le_antisymm (unit.trans bound) large'
      have five : 5 ∣ 2 ^ (bits - 1) := by
        rw [← power]
        exact (by decide : 5 ∣ 10).trans (dvd_pow_self 10 (by omega))
      exact absurd (Nat.prime_five.dvd_of_dvd_pow five) (by decide)

theorem flagged_map {α : Type} (values : List (Option α)) (test : α → Bool) (row : Nat) :
    Flagged (some (values.map fun value => value.any test)) row ↔
      ∃ content, values[row]? = some (some content) ∧ test content = true := by
  rw [flagged_iff, Option.any_some, getD_flag, List.getElem?_map, Option.map_eq_some_iff]
  constructor
  · intro found
    obtain ⟨value, held, tested⟩ := found
    cases value with
    | none => cases tested
    | some content => exact ⟨content, held, tested⟩
  · intro found
    obtain ⟨content, held, passed⟩ := found
    exact ⟨_, held, passed⟩

theorem plainFractions_iff {sources : Sources} {type : Plain}
    (fractional : type.fractional sources = true) (values : List (Option type.Carrier))
    (row : Nat) :
    Flagged (plainFractions type values) row ↔
      ∃ content, values[row]? = some (some content) ∧
        ∃ number, (Scalar.mk type content).number = some number ∧
          ∀ whole : Int, number ≠ whole := by
  have floats (value : Floating) (number : Floating → Option ℚ)
      (reads : ∀ own, number (.finite own) = some own) (nan : number .nan = none)
      (infinite : ∀ negative, number (.infinite negative) = none) :
      value.hasFraction = true ↔ ∃ own, number value = some own ∧ ∀ whole : Int, own ≠ whole := by
    rw [floating_fraction]
    cases value with
    | finite own => simp [reads]
    | nan => simp [nan]
    | infinite negative => simp [infinite]
  have decimals {bits : Nat} (scale : Int) (positive : 0 < scale) (value : Native bits) :
      decimalFraction scale value = true ↔
        ∃ own : ℚ, some (value.val / 10 ^ scale : ℚ) = some own ∧ ∀ whole : Int, own ≠ whole := by
    rw [decimal_fraction positive]
    simp
  cases type with
  | float16 =>
      exact (@flagged_map Floating values Floating.hasFraction row).trans <|
        exists_congr fun value => and_congr_right fun _ =>
          floats value (fun own => Scalar.number ⟨.float16, own⟩) (fun _ => rfl) rfl fun _ => rfl
  | float32 =>
      exact (@flagged_map Floating values Floating.hasFraction row).trans <|
        exists_congr fun value => and_congr_right fun _ =>
          floats value (fun own => Scalar.number ⟨.float32, own⟩) (fun _ => rfl) rfl fun _ => rfl
  | float64 =>
      exact (@flagged_map Floating values Floating.hasFraction row).trans <|
        exists_congr fun value => and_congr_right fun _ =>
          floats value (fun own => Scalar.number ⟨.float64, own⟩) (fun _ => rfl) rfl fun _ => rfl
  | decimal32 precision scale =>
      exact (@flagged_map (Native 32) values (decimalFraction scale) row).trans <|
        exists_congr fun value => and_congr_right fun _ =>
          decimals scale (of_decide_eq_true fractional) value
  | decimal64 precision scale =>
      exact (@flagged_map (Native 64) values (decimalFraction scale) row).trans <|
        exists_congr fun value => and_congr_right fun _ =>
          decimals scale (of_decide_eq_true fractional) value
  | decimal128 precision scale =>
      exact (@flagged_map (Native 128) values (decimalFraction scale) row).trans <|
        exists_congr fun value => and_congr_right fun _ =>
          decimals scale (of_decide_eq_true fractional) value
  | decimal256 precision scale =>
      exact (@flagged_map (Native 256) values (decimalFraction scale) row).trans <|
        exists_congr fun value => and_congr_right fun _ =>
          decimals scale (of_decide_eq_true fractional) value
  | _ => cases fractional

/-! ### What each arm makes of the flags inside -/

/-- Rows that read the flags at another place, some of them. -/
theorem flagged_range (inner : Option (List Bool)) (rows row : Nat) (place' : Nat → Nat) :
    Flagged (inner.map fun flags => (List.range rows).map fun row => flags.getD (place' row) false)
        row ↔ row < rows ∧ Flagged inner (place' row) := by
  cases inner with
  | none => simp [Flagged]
  | some flags =>
      rw [flagged_iff, flagged_iff, Option.map_some, Option.any_some, Option.any_some, getD_flag,
        List.getElem?_map]
      by_cases inside : row < rows
      · simp [inside]
      · simp [inside]

theorem flagged_union (inner : Option (List Bool)) (typeIds : List Int) (id : Int) (row : Nat)
    (place' : Nat → Nat) :
    Flagged (inner.map fun flags => typeIds.mapIdx fun row own =>
        decide (own = id) && flags.getD (place' row) false) row ↔
      typeIds[row]? = some id ∧ Flagged inner (place' row) := by
  cases inner with
  | none => simp [Flagged]
  | some flags =>
      rw [flagged_iff, flagged_iff, Option.map_some, Option.any_some, Option.any_some, getD_flag,
        List.getElem?_mapIdx]
      cases typeIds[row]? with
      | none => simp
      | some own => simp

theorem flagged_keys (inner : Option (List Bool)) (keys : List (Option Nat)) (row : Nat) :
    Flagged (inner.map fun flags =>
        if !flags.contains true then keys.map fun _ => false
        else keys.map fun key => key.any fun key => flags.getD key false) row ↔
      ∃ key, keys[row]? = some (some key) ∧ Flagged inner key := by
  cases inner with
  | none => simp [Flagged]
  | some flags =>
      have none (some : ¬flags.contains true = true) (key : Nat) : flags.getD key false = false := by
        cases flag : flags.getD key false with
        | false => rfl
        | true =>
            have inside := List.mem_of_getElem? ((getD_flag flags key).mp flag)
            exact (some (List.contains_iff_mem.mpr inside)).elim
      simp only [flagged_iff, Option.map_some, Option.any_some]
      by_cases some : flags.contains true = true
      · rw [some]
        simp only [Bool.not_true, Bool.false_eq_true, if_false]
        rw [getD_flag, List.getElem?_map]
        cases keys[row]? with
        | none => simp
        | some key => cases key <;> simp
      · have clear : (!flags.contains true) = true := by simpa using some
        rw [if_pos clear, getD_flag, List.getElem?_map]
        constructor
        · intro flagged
          cases keys[row]? <;> simp at flagged
        · intro found
          obtain ⟨key, _, flagged⟩ := found
          rw [none some] at flagged
          cases flagged

theorem flagged_perRow (nulls : Option (List Bool)) (ranges : List (Nat × Nat)) (flags : List Bool)
    (row : Nat) :
    (perRow nulls ranges flags)[row]? = some true ↔
      ∃ first past, ranges[row]? = some (first, past) ∧ unmasked nulls row = true ∧
        ∃ place, first ≤ place ∧ place < past ∧ flags.getD place false = true := by
  have among (first past : Nat) : ((flags.drop first).take (past - first)).any id = true ↔
      ∃ place, first ≤ place ∧ place < past ∧ flags.getD place false = true := by
    rw [List.any_eq_true]
    constructor
    · intro found
      obtain ⟨flag, inside, own⟩ := found
      obtain ⟨place, held⟩ := List.mem_iff_getElem?.mp inside
      have same : flag = true := own
      rw [List.getElem?_take, List.getElem?_drop] at held
      split at held
      · next below =>
        refine ⟨first + place, Nat.le_add_right _ _, by omega, ?_⟩
        rw [getD_flag, held, same]
      · cases held
    · intro found
      obtain ⟨place, low, high, flag⟩ := found
      refine ⟨true, List.mem_iff_getElem?.mpr ⟨place - first, ?_⟩, rfl⟩
      rw [List.getElem?_take, if_pos (by omega), List.getElem?_drop, Nat.add_sub_cancel' low]
      exact (getD_flag flags place).mp flag
  unfold perRow
  rw [List.getElem?_mapIdx]
  cases held : ranges[row]? with
  | none => simp
  | some range =>
      obtain ⟨first, past⟩ := range
      simp only [Option.map_some, Option.some.injEq, Bool.and_eq_true, Prod.mk.injEq, among]
      constructor
      · intro both
        exact ⟨first, past, ⟨rfl, rfl⟩, both.1, both.2⟩
      · intro found
        obtain ⟨_, _, ⟨rfl, rfl⟩, valid, inside⟩ := found
        exact ⟨valid, inside⟩

/-! ### What each rule of the cast writes -/

/-- The cast writes a fraction for a row, where it cannot stand. -/
def Drops (canCastTypes : DataType → DataType → Bool) (sources : Sources) (col : Column)
    (target : DataType) (row : Nat) : Prop :=
  ∃ value into, Writes canCastTypes col target row value into ∧ Fraction sources value into

section Rules

variable {canCastTypes : DataType → DataType → Bool} {sources : Sources} {row : Nat}

theorem Drops.apart {col : Column} {target : DataType}
    (drops : Drops canCastTypes sources col target row) : col.dataType ≠ target := by
  obtain ⟨value, into, written, _⟩ := drops
  cases written with
  | plain type values target row content away held => exact fun same => away (DataType.plain.inj same)
  | run _ _ _ _ _ _ _ _ _ _ apart => exact apart
  | intoRun _ _ _ _ _ _ _ _ apart => exact apart
  | child _ _ _ _ _ _ _ _ _ _ _ apart => exact apart
  | keyed _ _ _ _ _ _ _ _ _ apart => exact apart
  | intoKeyed _ _ _ _ _ _ _ apart => exact apart
  | element _ _ _ _ _ _ _ _ _ _ _ _ _ apart => exact apart
  | unwrapped _ _ _ _ _ _ _ _ _ _ apart => exact apart
  | wrapped _ _ _ _ _ _ _ _ _ apart => exact apart
  | entry _ _ _ _ _ _ _ _ _ _ _ _ _ _ _ _ _ _ _ _ apart => exact apart
  | field _ _ _ _ _ _ _ _ _ _ apart => exact apart

theorem drops_run {ends : RunEnd} {label : Label} {runEnds : List Nat} {offset rows : Nat}
    {values : Column} {target : DataType}
    (apart : (Column.runEndEncoded ends label runEnds offset rows values).dataType ≠ target) :
    Drops canCastTypes sources (.runEndEncoded ends label runEnds offset rows values) target row ↔
      row < rows ∧
        Drops canCastTypes sources values target.ofRuns (physicalIndex runEnds offset row) := by
  constructor
  · intro drops
    obtain ⟨value, into, written, fraction⟩ := drops
    cases written with
    | run _ _ _ _ _ _ _ _ _ _ _ inside written => exact ⟨inside, value, into, written, fraction⟩
    | intoRun _ _ _ _ _ _ _ other => cases other
    | intoKeyed _ _ _ _ _ _ other => cases other.1
    | wrapped _ _ _ _ _ _ _ _ other => cases other.1
  · intro drops
    obtain ⟨inside, value, into, written, fraction⟩ := drops
    exact ⟨value, into, .run _ _ _ _ _ _ _ _ _ _ apart inside written, fraction⟩

theorem drops_intoRun {col : Column} {ends : RunEnd} {label : Label} {type : DataType}
    (other : col.runs = false) (apart : col.dataType ≠ .runEndEncoded ends label type) :
    Drops canCastTypes sources col (.runEndEncoded ends label type) row ↔
      Drops canCastTypes sources col type row := by
  constructor
  · intro drops
    obtain ⟨value, into, written, fraction⟩ := drops
    cases written with
    | run => cases other
    | intoRun _ _ _ _ _ _ _ _ _ written => exact ⟨value, into, written, fraction⟩
    | child _ _ _ _ _ _ _ _ _ _ away => cases away
    | keyed _ _ _ _ _ _ _ _ away => cases away
    | unwrapped _ _ _ _ _ _ _ _ _ away => cases away.1
  · intro drops
    obtain ⟨value, into, written, fraction⟩ := drops
    exact ⟨value, into, .intoRun _ _ _ _ _ _ _ other apart written, fraction⟩

theorem drops_child {ids : List Int} {children : Columns} {offsets : Option (List Nat)}
    {typeIds : List Int} {target : DataType} (other : target.runs = false)
    (apart : (Column.union ids children offsets typeIds).dataType ≠ target) :
    Drops canCastTypes sources (.union ids children offsets typeIds) target row ↔
      ∃ branch values, unionChild canCastTypes ids children.fields target = some branch ∧
        children.toList[branch.place]? = some values ∧ typeIds[row]? = some branch.id ∧
          Drops canCastTypes sources values target
            (offsets.elim row fun starts => starts.getD row 0) := by
  constructor
  · intro drops
    obtain ⟨value, into, written, fraction⟩ := drops
    cases written with
    | child _ _ _ _ _ _ _ _ branch values _ _ picked held selected written =>
        exact ⟨branch, values, picked, held, selected, value, into, written, fraction⟩
    | intoRun => cases other
    | intoKeyed _ _ _ _ _ _ away => cases away.2.1
    | wrapped _ _ _ _ _ _ _ _ away => cases away.2.1
  · intro drops
    obtain ⟨branch, values, picked, held, selected, value, into, written, fraction⟩ := drops
    exact ⟨value, into,
      .child _ _ _ _ _ _ _ _ branch values other apart picked held selected written, fraction⟩

theorem drops_keyed {key : Plain} {keys : List (Option Nat)} {values : Column} {target : DataType}
    (other : target.runs = false) (apart : (Column.dictionary key keys values).dataType ≠ target) :
    Drops canCastTypes sources (.dictionary key keys values) target row ↔
      ∃ place, keys[row]? = some (some place) ∧
        Drops canCastTypes sources values target place := by
  constructor
  · intro drops
    obtain ⟨value, into, written, fraction⟩ := drops
    cases written with
    | keyed _ _ _ _ _ _ _ place _ _ held written => exact ⟨place, held, value, into, written, fraction⟩
    | intoRun => cases other
    | intoKeyed _ _ _ _ _ _ away => cases away.2.2
    | wrapped _ _ _ _ _ _ _ _ away => cases away.2.2.1
  · intro drops
    obtain ⟨place, held, value, into, written, fraction⟩ := drops
    exact ⟨value, into, .keyed _ _ _ _ _ _ _ place other apart held written, fraction⟩

theorem drops_intoKeyed {col : Column} {key : Plain} {type : DataType}
    (other : col.runs = false ∧ col.unions = false ∧ col.dictionaries = false)
    (apart : col.dataType ≠ .dictionary key type) :
    Drops canCastTypes sources col (.dictionary key type) row ↔
      Drops canCastTypes sources col type row := by
  constructor
  · intro drops
    obtain ⟨value, into, written, fraction⟩ := drops
    cases written with
    | run => cases other.1
    | child => cases other.2.1
    | keyed => cases other.2.2
    | intoKeyed _ _ _ _ _ _ _ _ written => exact ⟨value, into, written, fraction⟩
    | unwrapped _ _ _ _ _ _ _ _ _ away => cases away.2.1
  · intro drops
    obtain ⟨value, into, written, fraction⟩ := drops
    exact ⟨value, into, .intoKeyed _ _ _ _ _ _ other apart written, fraction⟩

theorem drops_element {label label' : Label} {layout : Layout} {nulls : Option (List Bool)}
    {values : Column} {kind : ListKind} {item : DataType}
    (apart : (Column.list label layout nulls values).dataType ≠ .list kind label' item) :
    Drops canCastTypes sources (.list label layout nulls values) (.list kind label' item) row ↔
      ∃ first past, layout.ranges[row]? = some (first, past) ∧ unmasked nulls row = true ∧
        ∃ place, first ≤ place ∧ place < past ∧
          Drops canCastTypes sources values item place := by
  constructor
  · intro drops
    obtain ⟨value, into, written, fraction⟩ := drops
    cases written with
    | element _ _ _ _ _ _ _ _ first past place _ _ _ valid ranged inside written =>
        exact ⟨first, past, ranged, valid, place, inside.1, inside.2, value, into, written, fraction⟩
    | unwrapped _ _ _ _ _ _ _ _ _ away => cases away.2.2
    | wrapped _ _ _ _ _ _ _ _ away => cases away.2.2.2
  · intro drops
    obtain ⟨first, past, ranged, valid, place, low, high, value, into, written, fraction⟩ := drops
    exact ⟨value, into,
      .element _ _ _ _ _ _ _ _ first past place _ _ apart valid ranged ⟨low, high⟩ written, fraction⟩

theorem drops_unwrapped {label : Label} {layout : Layout} {nulls : Option (List Bool)}
    {values : Column} {target : DataType}
    (other : target.runs = false ∧ target.dictionaries = false ∧ target.lists = false)
    (apart : (Column.list label layout nulls values).dataType ≠ target) :
    Drops canCastTypes sources (.list label layout nulls values) target row ↔
      layout.kind = .fixedSizeList 1 ∧ Drops canCastTypes sources values target row := by
  constructor
  · intro drops
    obtain ⟨value, into, written, fraction⟩ := drops
    cases written with
    | unwrapped _ _ _ _ _ _ _ _ one _ _ written => exact ⟨one, value, into, written, fraction⟩
    | intoRun => cases other.1
    | intoKeyed => cases other.2.1
    | element => cases other.2.2
    | wrapped => cases other.2.2
  · intro drops
    obtain ⟨one, value, into, written, fraction⟩ := drops
    exact ⟨value, into, .unwrapped _ _ _ _ _ _ _ _ one other apart written, fraction⟩

theorem drops_wrapped {col : Column} {kind : ListKind} {label : Label} {item : DataType}
    (other : col.runs = false ∧ col.unions = false ∧ col.dictionaries = false ∧ col.lists = false)
    (apart : col.dataType ≠ .list kind label item) :
    Drops canCastTypes sources col (.list kind label item) row ↔
      wraps kind = true ∧ Drops canCastTypes sources col item row := by
  constructor
  · intro drops
    obtain ⟨value, into, written, fraction⟩ := drops
    cases written with
    | run => cases other.1
    | child => cases other.2.1
    | keyed => cases other.2.2.1
    | element => cases other.2.2.2
    | unwrapped => cases other.2.2.2
    | wrapped _ _ _ _ _ _ _ one _ _ written => exact ⟨one, value, into, written, fraction⟩
  · intro drops
    obtain ⟨one, value, into, written, fraction⟩ := drops
    exact ⟨value, into, .wrapped _ _ _ _ _ _ _ one other apart written, fraction⟩

theorem drops_entry {label keyLabel valueLabel label' : Label} {sorted sorted' : Bool}
    {offsets : List Nat} {nulls entryNulls : Option (List Bool)} {keys values : Column}
    {entries key item : DataType} (paired : keyValue entries = some (key, item))
    (apart : (Column.map label keyLabel valueLabel sorted offsets nulls entryNulls keys
      values).dataType ≠ .map label' entries sorted') :
    Drops canCastTypes sources
        (.map label keyLabel valueLabel sorted offsets nulls entryNulls keys values)
        (.map label' entries sorted') row ↔
      ∃ first past, (windows offsets)[row]? = some (first, past) ∧ unmasked nulls row = true ∧
        ∃ place, first ≤ place ∧ place < past ∧ place < keys.length ∧
          unmasked entryNulls place = true ∧
            (Drops canCastTypes sources keys key place ∨
              Drops canCastTypes sources values item place) := by
  constructor
  · intro drops
    obtain ⟨value, into, written, fraction⟩ := drops
    cases written with
    | entry _ _ _ _ _ _ _ _ _ _ _ key' item' _ _ first past place _ _ _ paired' valid ranged inside
        counted entered side written =>
        rw [paired] at paired'
        cases paired'
        refine ⟨first, past, ranged, valid, place, inside.1, inside.2, counted, entered, ?_⟩
        cases side with
        | true => exact Or.inl ⟨value, into, written, fraction⟩
        | false => exact Or.inr ⟨value, into, written, fraction⟩
  · intro drops
    obtain ⟨first, past, ranged, valid, place, low, high, counted, entered, drops⟩ := drops
    rcases drops with ⟨value, into, written, fraction⟩ | ⟨value, into, written, fraction⟩
    · exact ⟨value, into, .entry _ _ _ _ _ _ _ _ _ _ _ _ _ _ _ _ _ _ _ _ apart paired valid ranged
        ⟨low, high⟩ counted entered true written, fraction⟩
    · exact ⟨value, into, .entry _ _ _ _ _ _ _ _ _ _ _ _ _ _ _ _ _ _ _ _ apart paired valid ranged
        ⟨low, high⟩ counted entered false written, fraction⟩

theorem drops_field {rows : Nat} {nulls : Option (List Bool)} {columns : Columns} {fields : Fields}
    (apart : (Column.struct rows nulls columns).dataType ≠ .struct fields) :
    Drops canCastTypes sources (.struct rows nulls columns) (.struct fields) row ↔
      row < rows ∧ unmasked nulls row = true ∧
        ∃ pair ∈ structPairs columns.fields fields, ∃ column,
          columns.toList[pair.1]? = some column ∧
            Drops canCastTypes sources column pair.2 row := by
  constructor
  · intro drops
    obtain ⟨value, into, written, fraction⟩ := drops
    cases written with
    | field _ _ _ _ _ place type column _ _ _ inside valid paired held written =>
        exact ⟨inside, valid, (place, type), paired, column, held, value, into, written, fraction⟩
  · intro drops
    obtain ⟨inside, valid, pair, paired, column, held, value, into, written, fraction⟩ := drops
    exact ⟨value, into,
      .field _ _ _ _ _ pair.1 pair.2 column _ _ apart inside valid paired held written, fraction⟩

theorem drops_plain {type target : Plain} {values : List (Option type.Carrier)}
    (apart : type ≠ target) :
    Drops canCastTypes sources (.plain type values) (.plain target) row ↔
      target.isCount = true ∧ type.fractional sources = true ∧
        ∃ content, values[row]? = some (some content) ∧
          ∃ number, (Scalar.mk type content).number = some number ∧
            ∀ whole : Int, number ≠ whole := by
  constructor
  · intro drops
    obtain ⟨value, into, written, count, fractional, fraction⟩ := drops
    cases written with
    | plain _ _ _ _ content _ held => exact ⟨count, fractional, content, held, fraction⟩
  · intro drops
    obtain ⟨count, fractional, content, held, fraction⟩ := drops
    exact ⟨_, _, .plain type values target row content apart held, count, fractional, fraction⟩

/-! ### The search -/

theorem check_step {source target : DataType}
    (check : dropsFraction canCastTypes sources source target = true) :
    ∃ fuel, dropsWithin canCastTypes sources (fuel + 1) source target = true := by
  have some := source.depth_pos
  refine ⟨source.depth + target.depth - 1, ?_⟩
  have same : source.depth + target.depth - 1 + 1 = source.depth + target.depth := by omega
  rw [same]
  exact check

theorem apart_of_check {source target : DataType}
    (check : dropsFraction canCastTypes sources source target = true) : source ≠ target := by
  intro same
  obtain ⟨fuel, check⟩ := check_step check
  rw [same, dropsWithin_same] at check
  cases check

theorem Drops.check {col : Column} {target : DataType}
    (drops : Drops canCastTypes sources col target row) :
    dropsFraction canCastTypes sources col.dataType target = true := by
  obtain ⟨value, into, written, fraction⟩ := drops
  exact written.drops fraction _ (Nat.le_refl _)

/-- With fuel for the depth of an array and a type, the search is right about them. -/
def Searched (canCastTypes : DataType → DataType → Bool) (sources : Sources) (fuel : Nat) : Prop :=
  ∀ col target row, col.depth + target.depth ≤ fuel →
    (Flagged (droppedWithin canCastTypes sources fuel col target) row ↔
      Drops canCastTypes sources col target row)

section Step

variable {fuel : Nat} (searched : Searched canCastTypes sources fuel)

include searched

theorem step_intoRun {col : Column} {ends : RunEnd} {label : Label} {type : DataType}
    (other : col.runs = false)
    (check : dropsFraction canCastTypes sources col.dataType (.runEndEncoded ends label type) = true)
    (enough : col.depth + (DataType.runEndEncoded ends label type).depth ≤ fuel + 1) :
    Flagged (droppedWithin canCastTypes sources (fuel + 1) col (.runEndEncoded ends label type))
        row ↔ Drops canCastTypes sources col (.runEndEncoded ends label type) row := by
  rw [drops_intoRun other (apart_of_check check), ← searched col type row (by
    simp only [DataType.depth] at enough
    omega)]
  conv_lhs => unfold droppedWithin
  rw [check]
  cases col <;> first | contradiction | rfl

theorem step_intoKeyed {col : Column} {key : Plain} {type : DataType}
    (other : col.runs = false ∧ col.unions = false ∧ col.dictionaries = false)
    (check : dropsFraction canCastTypes sources col.dataType (.dictionary key type) = true)
    (enough : col.depth + (DataType.dictionary key type).depth ≤ fuel + 1) :
    Flagged (droppedWithin canCastTypes sources (fuel + 1) col (.dictionary key type)) row ↔
      Drops canCastTypes sources col (.dictionary key type) row := by
  rw [drops_intoKeyed other (apart_of_check check), ← searched col type row (by
    simp only [DataType.depth] at enough
    omega)]
  obtain ⟨run, union, keyed⟩ := other
  conv_lhs => unfold droppedWithin
  rw [check]
  cases col <;> first | contradiction | rfl

theorem step_wrapped {col : Column} {kind : ListKind} {label : Label} {item : DataType}
    (other : col.runs = false ∧ col.unions = false ∧ col.dictionaries = false ∧ col.lists = false)
    (check : dropsFraction canCastTypes sources col.dataType (.list kind label item) = true)
    (enough : col.depth + (DataType.list kind label item).depth ≤ fuel + 1) :
    Flagged (droppedWithin canCastTypes sources (fuel + 1) col (.list kind label item)) row ↔
      Drops canCastTypes sources col (.list kind label item) row := by
  rw [drops_wrapped other (apart_of_check check), ← searched col item row (by
    simp only [DataType.depth] at enough
    omega)]
  obtain ⟨run, union, keyed, list⟩ := other
  have arm : droppedWithin canCastTypes sources (fuel + 1) col (.list kind label item) =
      if wraps kind then droppedWithin canCastTypes sources fuel col item else none := by
    conv_lhs => unfold droppedWithin
    rw [check]
    cases col <;> first | contradiction | rfl
  rw [arm]
  by_cases one : wraps kind = true
  · rw [if_pos one]
    exact (and_iff_right one).symm
  · rw [if_neg one]
    constructor
    · intro flagged
      obtain ⟨flags, same, _⟩ := flagged
      cases same
    · intro both
      exact (one both.1).elim

theorem step_run {ends : RunEnd} {label : Label} {runEnds : List Nat} {offset rows : Nat}
    {values : Column} {target : DataType}
    (check : dropsFraction canCastTypes sources
      (Column.runEndEncoded ends label runEnds offset rows values).dataType target = true)
    (enough : (Column.runEndEncoded ends label runEnds offset rows values).depth + target.depth ≤
      fuel + 1) :
    Flagged (droppedWithin canCastTypes sources (fuel + 1)
        (.runEndEncoded ends label runEnds offset rows values) target) row ↔
      Drops canCastTypes sources (.runEndEncoded ends label runEnds offset rows values) target
        row := by
  have arm : droppedWithin canCastTypes sources (fuel + 1)
      (.runEndEncoded ends label runEnds offset rows values) target =
        (droppedWithin canCastTypes sources fuel values target.ofRuns).map fun flags =>
          (List.range rows).map fun row => flags.getD (physicalIndex runEnds offset row) false := by
    conv_lhs => unfold droppedWithin
    rw [check]
    cases target <;> rfl
  have smaller : target.ofRuns.depth ≤ target.depth := by
    cases target <;> simp [DataType.ofRuns, DataType.depth]
  rw [arm, flagged_range _ _ _ (physicalIndex runEnds offset), drops_run (apart_of_check check),
    searched values target.ofRuns _ (by
      simp only [Column.depth] at enough
      omega)]

theorem step_child {ids : List Int} {children : Columns} {offsets : Option (List Nat)}
    {typeIds : List Int} {target : DataType} (other : target.runs = false)
    (check : dropsFraction canCastTypes sources
      (Column.union ids children offsets typeIds).dataType target = true)
    (enough : (Column.union ids children offsets typeIds).depth + target.depth ≤ fuel + 1) :
    Flagged (droppedWithin canCastTypes sources (fuel + 1) (.union ids children offsets typeIds)
        target) row ↔
      Drops canCastTypes sources (.union ids children offsets typeIds) target row := by
  have arm : droppedWithin canCastTypes sources (fuel + 1) (.union ids children offsets typeIds)
      target = (unionChild canCastTypes ids children.fields target).bind fun child =>
        children.toList[child.place]?.bind fun values =>
          (droppedWithin canCastTypes sources fuel values target).map fun flags =>
            typeIds.mapIdx fun row id => decide (id = child.id) &&
              flags.getD (offsets.elim row fun starts => starts.getD row 0) false := by
    conv_lhs => unfold droppedWithin
    rw [check]
    cases target <;> first | contradiction | rfl
  rw [arm, drops_child other (apart_of_check check)]
  cases picked : unionChild canCastTypes ids children.fields target with
  | none => simp [Flagged]
  | some branch =>
      rw [Option.bind_some]
      cases held : children.toList[branch.place]? with
      | none =>
          constructor
          · intro flagged
            obtain ⟨flags, same, _⟩ := flagged
            cases same
          · intro found
            obtain ⟨own, values, same, stands, _⟩ := found
            cases same
            rw [held] at stands
            cases stands
      | some values =>
          rw [Option.bind_some, flagged_union _ _ _ _
            (fun row => offsets.elim row fun starts => starts.getD row 0)]
          have depth := Columns.depth_mem held
          rw [searched values target _ (by
            simp only [Column.depth] at enough
            omega)]
          constructor
          · intro both
            exact ⟨branch, values, rfl, held, both.1, both.2⟩
          · intro found
            obtain ⟨own, column, same, stands, selected, drops⟩ := found
            cases same
            rw [held] at stands
            cases stands
            exact ⟨selected, drops⟩

theorem step_keyed {key : Plain} {keys : List (Option Nat)} {values : Column} {target : DataType}
    (other : target.runs = false)
    (check : dropsFraction canCastTypes sources (Column.dictionary key keys values).dataType target =
      true) (enough : (Column.dictionary key keys values).depth + target.depth ≤ fuel + 1) :
    Flagged (droppedWithin canCastTypes sources (fuel + 1) (.dictionary key keys values) target)
        row ↔ Drops canCastTypes sources (.dictionary key keys values) target row := by
  have arm : droppedWithin canCastTypes sources (fuel + 1) (.dictionary key keys values) target =
      (droppedWithin canCastTypes sources fuel values target).map fun flags =>
        if !flags.contains true then keys.map fun _ => false
        else keys.map fun key => key.any fun key => flags.getD key false := by
    conv_lhs => unfold droppedWithin
    rw [check]
    cases target <;> first | contradiction | rfl
  rw [arm, flagged_keys, drops_keyed other (apart_of_check check)]
  apply exists_congr
  intro place
  rw [searched values target place (by
    simp only [Column.depth] at enough
    omega)]

theorem step_element {label label' : Label} {layout : Layout} {nulls : Option (List Bool)}
    {values : Column} {kind : ListKind} {item : DataType}
    (check : dropsFraction canCastTypes sources (Column.list label layout nulls values).dataType
      (.list kind label' item) = true)
    (enough : (Column.list label layout nulls values).depth +
      (DataType.list kind label' item).depth ≤ fuel + 1) :
    Flagged (droppedWithin canCastTypes sources (fuel + 1) (.list label layout nulls values)
        (.list kind label' item)) row ↔
      Drops canCastTypes sources (.list label layout nulls values) (.list kind label' item)
        row := by
  have arm : droppedWithin canCastTypes sources (fuel + 1) (.list label layout nulls values)
      (.list kind label' item) =
        (droppedWithin canCastTypes sources fuel values item).map (perRow nulls layout.ranges) := by
    conv_lhs => unfold droppedWithin
    rw [check]
    rfl
  have inner (place : Nat) := searched values item place (by
    simp only [Column.depth, DataType.depth] at enough
    omega)
  rw [arm, drops_element (apart_of_check check)]
  simp only [← inner, flagged_iff]
  cases droppedWithin canCastTypes sources fuel values item with
  | none => simp
  | some flags =>
      rw [Option.map_some, Option.any_some, getD_flag, flagged_perRow]
      rfl

theorem step_unwrapped {label : Label} {layout : Layout} {nulls : Option (List Bool)}
    {values : Column} {target : DataType}
    (other : target.runs = false ∧ target.dictionaries = false ∧ target.lists = false)
    (check : dropsFraction canCastTypes sources (Column.list label layout nulls values).dataType
      target = true)
    (enough : (Column.list label layout nulls values).depth + target.depth ≤ fuel + 1) :
    Flagged (droppedWithin canCastTypes sources (fuel + 1) (.list label layout nulls values) target)
        row ↔ Drops canCastTypes sources (.list label layout nulls values) target row := by
  obtain ⟨run, keyed, list⟩ := other
  have arm : droppedWithin canCastTypes sources (fuel + 1) (.list label layout nulls values) target =
      if layout.kind = .fixedSizeList 1 then droppedWithin canCastTypes sources fuel values target
      else none := by
    conv_lhs => unfold droppedWithin
    rw [check]
    cases target <;> first | contradiction | rfl
  rw [arm, drops_unwrapped ⟨run, keyed, list⟩ (apart_of_check check),
    ← searched values target row (by
      simp only [Column.depth] at enough
      omega)]
  by_cases one : layout.kind = .fixedSizeList 1
  · rw [if_pos one]
    exact (and_iff_right one).symm
  · rw [if_neg one]
    constructor
    · intro flagged
      obtain ⟨flags, same, _⟩ := flagged
      cases same
    · intro both
      exact (one both.1).elim

theorem step_entry {label keyLabel valueLabel label' : Label} {sorted sorted' : Bool}
    {offsets : List Nat} {nulls entryNulls : Option (List Bool)} {keys values : Column}
    {entries : DataType}
    (check : dropsFraction canCastTypes sources (Column.map label keyLabel valueLabel sorted offsets
      nulls entryNulls keys values).dataType (.map label' entries sorted') = true)
    (enough : (Column.map label keyLabel valueLabel sorted offsets nulls entryNulls keys
      values).depth + (DataType.map label' entries sorted').depth ≤ fuel + 1) :
    Flagged (droppedWithin canCastTypes sources (fuel + 1)
        (.map label keyLabel valueLabel sorted offsets nulls entryNulls keys values)
        (.map label' entries sorted')) row ↔
      Drops canCastTypes sources
        (.map label keyLabel valueLabel sorted offsets nulls entryNulls keys values)
        (.map label' entries sorted') row := by
  have arm : droppedWithin canCastTypes sources (fuel + 1)
      (.map label keyLabel valueLabel sorted offsets nulls entryNulls keys values)
      (.map label' entries sorted') = (keyValue entries).map fun target =>
        perRow nulls (windows offsets) ((List.range keys.length).map fun entry =>
          unmasked entryNulls entry &&
            ((droppedWithin canCastTypes sources fuel keys target.1).any
                (fun flags => flags.getD entry false) ||
              (droppedWithin canCastTypes sources fuel values target.2).any
                fun flags => flags.getD entry false)) := by
    conv_lhs => unfold droppedWithin
    rw [check]
    rfl
  rw [arm]
  cases paired : keyValue entries with
  | none =>
      constructor
      · intro flagged
        obtain ⟨flags, same, _⟩ := flagged
        cases same
      · intro drops
        obtain ⟨value, into, written, _⟩ := drops
        cases written with
        | entry _ _ _ _ _ _ _ _ _ _ _ _ _ _ _ _ _ _ _ _ _ paired' =>
            rw [paired] at paired'
            cases paired'
  | some target =>
      obtain ⟨key, item⟩ := target
      have depths := keyValue_depth paired
      simp only [Column.depth, DataType.depth] at enough
      have ofKeys (place : Nat) := searched keys key place (by omega)
      have ofValues (place : Nat) := searched values item place (by omega)
      rw [drops_entry paired (apart_of_check check)]
      simp only [← ofKeys, ← ofValues, flagged_iff, Option.map_some, Option.any_some]
      rw [getD_flag, flagged_perRow]
      simp only [getD_range, Bool.and_eq_true, Bool.or_eq_true]

theorem step_field {rows : Nat} {nulls : Option (List Bool)} {columns : Columns} {fields : Fields}
    (check : dropsFraction canCastTypes sources (Column.struct rows nulls columns).dataType
      (.struct fields) = true)
    (enough : (Column.struct rows nulls columns).depth + (DataType.struct fields).depth ≤
      fuel + 1) :
    Flagged (droppedWithin canCastTypes sources (fuel + 1) (.struct rows nulls columns)
        (.struct fields)) row ↔
      Drops canCastTypes sources (.struct rows nulls columns) (.struct fields) row := by
  have arm : droppedWithin canCastTypes sources (fuel + 1) (.struct rows nulls columns)
      (.struct fields) = some ((List.range rows).map fun row => unmasked nulls row &&
        ((structPairs columns.fields fields).filterMap fun pair =>
          columns.toList[pair.1]?.bind fun column =>
            droppedWithin canCastTypes sources fuel column pair.2).any
              fun flags => flags.getD row false) := by
    conv_lhs => unfold droppedWithin
    rw [check]
    rfl
  rw [arm, drops_field (apart_of_check check), flagged_iff, Option.any_some, getD_range,
    Bool.and_eq_true, List.any_eq_true]
  simp only [Column.depth, DataType.depth] at enough
  apply and_congr_right
  intro _
  apply and_congr_right
  intro _
  constructor
  · intro found
    obtain ⟨flags, inside, flag⟩ := found
    obtain ⟨pair, paired, dropped⟩ := List.mem_filterMap.mp inside
    obtain ⟨column, held, same⟩ := Option.bind_eq_some_iff.mp dropped
    have depth := Columns.depth_mem held
    have depth' := structPairs_depth paired
    refine ⟨pair, paired, column, held, (searched column pair.2 row (by omega)).mp ?_⟩
    exact ⟨flags, same, (getD_flag flags row).mp flag⟩
  · intro found
    obtain ⟨pair, paired, column, held, drops⟩ := found
    have depth := Columns.depth_mem held
    have depth' := structPairs_depth paired
    obtain ⟨flags, same, flag⟩ := (searched column pair.2 row (by omega)).mpr drops
    refine ⟨flags, List.mem_filterMap.mpr ⟨pair, paired, ?_⟩, (getD_flag flags row).mpr flag⟩
    rw [held, Option.bind_some, same]

theorem step_flags {col : Column} {target : DataType}
    (check : dropsFraction canCastTypes sources col.dataType target = true)
    (enough : col.depth + target.depth ≤ fuel + 1) :
    Flagged (droppedWithin canCastTypes sources (fuel + 1) col target) row ↔
      Drops canCastTypes sources col target row := by
  have none (arm : droppedWithin canCastTypes sources (fuel + 1) col target = none)
      (unwritten : ¬Drops canCastTypes sources col target row) :
      Flagged (droppedWithin canCastTypes sources (fuel + 1) col target) row ↔
        Drops canCastTypes sources col target row := by
    rw [arm]
    constructor
    · intro flagged
      obtain ⟨flags, same, _⟩ := flagged
      cases same
    · exact fun drops => (unwritten drops).elim
  cases col with
  | runEndEncoded ends label runEnds offset rows values => exact step_run searched check enough
  | union ids children offsets typeIds =>
      cases target with
      | runEndEncoded ends label type => exact step_intoRun searched rfl check enough
      | _ => exact step_child searched rfl check enough
  | dictionary key keys values =>
      cases target with
      | runEndEncoded ends label type => exact step_intoRun searched rfl check enough
      | _ => exact step_keyed searched rfl check enough
  | list label layout nulls values =>
      cases target with
      | runEndEncoded ends label type => exact step_intoRun searched rfl check enough
      | dictionary key type => exact step_intoKeyed searched ⟨rfl, rfl, rfl⟩ check enough
      | list kind label' item => exact step_element searched check enough
      | _ => exact step_unwrapped searched ⟨rfl, rfl, rfl⟩ check enough
  | map label keyLabel valueLabel sorted offsets nulls entryNulls keys values =>
      cases target with
      | runEndEncoded ends label type => exact step_intoRun searched rfl check enough
      | dictionary key type => exact step_intoKeyed searched ⟨rfl, rfl, rfl⟩ check enough
      | list kind label' item => exact step_wrapped searched ⟨rfl, rfl, rfl, rfl⟩ check enough
      | map label' entries sorted' => exact step_entry searched check enough
      | _ =>
          apply none
          · conv_lhs => unfold droppedWithin
            rw [check]
            rfl
          · intro drops
            obtain ⟨value, into, written, _⟩ := drops
            cases written
  | struct rows nulls columns =>
      cases target with
      | runEndEncoded ends label type => exact step_intoRun searched rfl check enough
      | dictionary key type => exact step_intoKeyed searched ⟨rfl, rfl, rfl⟩ check enough
      | list kind label' item => exact step_wrapped searched ⟨rfl, rfl, rfl, rfl⟩ check enough
      | struct fields => exact step_field searched check enough
      | _ =>
          apply none
          · conv_lhs => unfold droppedWithin
            rw [check]
            rfl
          · intro drops
            obtain ⟨value, into, written, _⟩ := drops
            cases written
  | plain type values =>
      cases target with
      | runEndEncoded ends label type => exact step_intoRun searched rfl check enough
      | dictionary key type => exact step_intoKeyed searched ⟨rfl, rfl, rfl⟩ check enough
      | list kind label' item => exact step_wrapped searched ⟨rfl, rfl, rfl, rfl⟩ check enough
      | plain into =>
          have away := apart_of_check check
          have arm : droppedWithin canCastTypes sources (fuel + 1) (.plain type values)
              (.plain into) = plainFractions type values := by
            conv_lhs => unfold droppedWithin
            rw [check]
            rfl
          have both : into.isCount = true ∧ type.fractional sources = true := by
            obtain ⟨rest, check⟩ := check_step check
            unfold dropsWithin at check
            rw [if_neg away] at check
            exact Bool.and_eq_true_iff.mp check
          rw [arm, plainFractions_iff both.2,
            drops_plain fun same => away (congrArg DataType.plain same)]
          constructor
          · exact fun found => ⟨both.1, both.2, found⟩
          · exact fun found => found.2.2
      | _ =>
          have away := apart_of_check check
          obtain ⟨rest, check⟩ := check_step check
          unfold dropsWithin at check
          rw [if_neg away] at check
          cases check

end Step

theorem searched (canCastTypes : DataType → DataType → Bool) (sources : Sources) (fuel : Nat) :
    Searched canCastTypes sources fuel := by
  induction fuel with
  | zero =>
      intro col target row enough
      have some := col.depth_pos
      omega
  | succ fuel inductionHypothesis =>
      intro col target row enough
      by_cases check : dropsFraction canCastTypes sources col.dataType target = true
      · exact step_flags inductionHypothesis check enough
      · rw [droppedWithin_off canCastTypes sources (Bool.eq_false_iff.mpr check)]
        constructor
        · intro flagged
          obtain ⟨flags, same, _⟩ := flagged
          cases same
        · exact fun drops => (check drops.check).elim

/-- A row is flagged exactly where the cast writes a fraction for it. -/
theorem droppedFractions_iff (canCastTypes : DataType → DataType → Bool) (sources : Sources)
    (col : Column) (target : DataType) (row : Nat) :
    Flagged (droppedFractions canCastTypes sources col target) row ↔
      Drops canCastTypes sources col target row :=
  searched canCastTypes sources _ col target row (Nat.le_refl _)

/-- A row has nothing that the cast writes: it is null, or holds another branch of a union than
the one picked. -/
inductive Hidden (canCastTypes : DataType → DataType → Bool) : Column → DataType → Nat → Prop
  | list (label : Label) (layout : Layout) (nulls : Option (List Bool)) (values : Column)
      (kind : ListKind) (label' : Label) (item : DataType) (row : Nat)
      (null : unmasked nulls row = false) :
      Hidden canCastTypes (.list label layout nulls values) (.list kind label' item) row
  | map (label keyLabel valueLabel : Label) (sorted : Bool) (offsets : List Nat)
      (nulls entryNulls : Option (List Bool)) (keys values : Column) (label' : Label)
      (entries : DataType) (sorted' : Bool) (row : Nat) (null : unmasked nulls row = false) :
      Hidden canCastTypes
        (.map label keyLabel valueLabel sorted offsets nulls entryNulls keys values)
        (.map label' entries sorted') row
  | struct (rows : Nat) (nulls : Option (List Bool)) (columns : Columns) (fields : Fields)
      (row : Nat) (null : unmasked nulls row = false) :
      Hidden canCastTypes (.struct rows nulls columns) (.struct fields) row
  | keyed (key : Plain) (keys : List (Option Nat)) (values : Column) (target : DataType) (row : Nat)
      (other : target.runs = false) (null : keys[row]? = some none) :
      Hidden canCastTypes (.dictionary key keys values) target row
  | branch (ids : List Int) (children : Columns) (offsets : Option (List Nat)) (typeIds : List Int)
      (target : DataType) (row : Nat) (branch : Branch) (other : target.runs = false)
      (picked : unionChild canCastTypes ids children.fields target = some branch)
      (away : typeIds[row]? ≠ some branch.id) :
      Hidden canCastTypes (.union ids children offsets typeIds) target row

theorem Hidden.unwritten {col : Column} {target : DataType}
    (hidden : Hidden canCastTypes col target row) :
    ¬Drops canCastTypes sources col target row := by
  intro drops
  have apart := drops.apart
  cases hidden with
  | list label layout nulls values kind label' item row null =>
      obtain ⟨_, _, _, valid, _⟩ := (drops_element apart).mp drops
      rw [null] at valid
      cases valid
  | map label keyLabel valueLabel sorted offsets nulls entryNulls keys values label' entries sorted'
      row null =>
      obtain ⟨value, into, written, _⟩ := drops
      cases written with
      | entry _ _ _ _ _ _ _ _ _ _ _ _ _ _ _ _ _ _ _ _ _ _ valid =>
          rw [null] at valid
          cases valid
  | struct rows nulls columns fields row null =>
      have valid := ((drops_field apart).mp drops).2.1
      rw [null] at valid
      cases valid
  | keyed key keys values target row other null =>
      obtain ⟨place, held, _⟩ := (drops_keyed other apart).mp drops
      rw [null] at held
      cases held
  | branch ids children offsets typeIds target row branch other picked away =>
      obtain ⟨own, _, same, _, selected, _⟩ := (drops_child other apart).mp drops
      rw [picked] at same
      cases same
      exact away selected

end Rules

/-- A row is flagged exactly where the cast writes a fraction into an integer for it, which it
does not for what is hidden there, and the check on types never says no to such an array. -/
theorem fractionsDropped_exact (canCastTypes : DataType → DataType → Bool) (col : Column)
    (target : DataType) :
    (∀ row, Flagged (fractionsDropped canCastTypes col target) row ↔
        Drops canCastTypes .floatsAndDecimals col target row) ∧
      (∀ row, Hidden canCastTypes col target row →
        ¬Flagged (fractionsDropped canCastTypes col target) row) ∧
      ∀ source, dropsFraction canCastTypes .floatsAndDecimals source target = false →
        ∀ other row, other.dataType = source →
          ¬Drops canCastTypes .floatsAndDecimals other target row := by
  have exact (row : Nat) : Flagged (fractionsDropped canCastTypes col target) row ↔
      Drops canCastTypes .floatsAndDecimals col target row :=
    droppedFractions_iff canCastTypes .floatsAndDecimals col target row
  refine ⟨exact, ?_, ?_⟩
  · intro row hidden flagged
    exact hidden.unwritten ((exact row).mp flagged)
  · intro source off other row type drops
    have check := drops.check
    rw [type, off] at check
    cases check

/-- A one-element list whose row is null, over a half. -/
def nullHalf : Column :=
  .list ⟨"item", true⟩ (.fixed 1 1) (some [false]) (.plain .float64 [some (.finite (1 / 2))])

/-- Unwrapped into an integer, a null list is judged by the value under the null. -/
theorem nullHalf_flagged : nullHalf.isValid 0 = false ∧
    fractionsDropped (fun _ _ => false) nullHalf (.plain .int64) = some [true] := by
  decide +kernel

end Ddi.Schema
