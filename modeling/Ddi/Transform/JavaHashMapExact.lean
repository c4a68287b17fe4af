/-
The order found is that of the map, and both are told by the last size of the table.
-/

import Ddi.Transform.JavaHashMap
import Mathlib.Data.List.Nodup
import Mathlib.Data.Nat.Bitwise
import Mathlib.Tactic.Ring

namespace Ddi.Java

open Ddi.Bins (bin bins)
open Ddi.Jsonval (spread javaHashmapOrder Table)

/-! ### Sizes -/

/-- Powers of two from 16. -/
def IsSize (capacity : Nat) : Prop := ∃ power, capacity = 2 ^ (power + 4)

theorem IsSize.positive {capacity : Nat} (size : IsSize capacity) : 0 < capacity := by
  obtain ⟨power, same⟩ := size
  rw [same]
  exact Nat.two_pow_pos _

theorem IsSize.double {capacity : Nat} (size : IsSize capacity) : IsSize (2 * capacity) := by
  obtain ⟨power, same⟩ := size
  refine ⟨power + 1, ?_⟩
  rw [same]
  ring

theorem IsSize.and_sub_one {capacity : Nat} (size : IsSize capacity) (number : Nat) :
    number &&& (capacity - 1) = number % capacity := by
  obtain ⟨power, same⟩ := size
  rw [same, Nat.and_two_pow_sub_one_eq_mod]

/-- The next bit tells the half. -/
theorem IsSize.and_self {capacity : Nat} (size : IsSize capacity) (number : Nat) :
    number &&& capacity = 0 ↔ number % (2 * capacity) < capacity := by
  obtain ⟨power, same⟩ := size
  have split : number % (2 * 2 ^ (power + 4)) =
      number % 2 ^ (power + 4) + 2 ^ (power + 4) * (number / 2 ^ (power + 4) % 2) := by
    rw [← Nat.mod_pow_succ]
    congr 1
    ring
  have low : number % 2 ^ (power + 4) < 2 ^ (power + 4) := Nat.mod_lt _ (Nat.two_pow_pos _)
  rw [same, split, Nat.and_two_pow, Nat.testBit_eq_decide_div_mod_eq]
  rcases Nat.mod_two_eq_zero_or_one (number / 2 ^ (power + 4)) with even | odd
  · rw [even]
    simp [low]
  · rw [odd]
    simp

/-- Three quarters of twice the bins are twice the three quarters. -/
theorem IsSize.threshold {capacity : Nat} (size : IsSize capacity) :
    capacity * 3 / 4 * 2 = 2 * capacity * 3 / 4 := by
  obtain ⟨power, same⟩ := size
  have four : (2 : Nat) ^ (power + 4) = 4 * 2 ^ (power + 2) := by ring
  rw [same, four]
  omega

theorem isSize_doubledByBin {place : Nat → Nat} {index capacity : Nat} (size : IsSize capacity) :
    IsSize (doubledByBin place index capacity) := by
  unfold doubledByBin
  split
  · exact size.double
  · exact size

theorem isSize_doubledByLoad {count capacity : Nat} (size : IsSize capacity) :
    IsSize (doubledByLoad count capacity) := by
  unfold doubledByLoad
  split
  · exact size.double
  · exact size

theorem isSize_capacityAfter (place : Nat → Nat) (count : Nat) :
    IsSize (capacityAfter place count) := by
  induction count with
  | zero => exact ⟨0, rfl⟩
  | succ index inductionHypothesis =>
      exact isSize_doubledByLoad (isSize_doubledByBin inductionHypothesis)

/-- One more item in its bin. -/
theorem bin_succ (place : Nat → Nat) (capacity index : Nat) :
    (bin place capacity (List.range (index + 1)) (place index % capacity)).length =
      (bin place capacity (List.range index) (place index % capacity)).length + 1 := by
  rw [List.range_succ, Bins.bin_append, List.length_append]
  simp [bin]

/-! ### The order -/

section Order

variable (keys : List String)

theorem spread_empty : spread "" = 0 := by
  decide

theorem slotOf_placeOf {capacity : Nat} (size : IsSize capacity) (index : Nat) :
    Table.slotOf (keys.map spread) capacity index = placeOf keys index % capacity := by
  unfold Table.slotOf placeOf
  rw [size.and_sub_one, ← spread_empty]
  congr 2
  rw [List.getD_eq_getElem?_getD, List.getD_eq_getElem?_getD, List.getElem?_map]
  cases keys[index]? <;> rfl

theorem resize_bins {capacity : Nat} (size : IsSize capacity) (items : List Nat) :
    Table.resize (keys.map spread) ⟨capacity, bins (placeOf keys) capacity items⟩ =
      ⟨2 * capacity, bins (placeOf keys) (2 * capacity) items⟩ := by
  have twice : capacity * 2 = 2 * capacity := Nat.mul_comm capacity 2
  unfold Table.resize
  simp only [twice, slotOf_placeOf keys size.double]
  congr 1
  exact Bins.redistribute (placeOf keys) (Nat.dvd_mul_left capacity 2) size.positive items

/-- An index inserted into the bins of those before it. -/
theorem insert_bins (index : Nat) :
    Table.insert (keys.map spread) ⟨capacityAfter (placeOf keys) index,
        bins (placeOf keys) (capacityAfter (placeOf keys) index) (List.range index)⟩ index =
      ⟨capacityAfter (placeOf keys) (index + 1),
        bins (placeOf keys) (capacityAfter (placeOf keys) (index + 1))
          (List.range (index + 1))⟩ := by
  have size := isSize_capacityAfter (placeOf keys) index
  have after : capacityAfter (placeOf keys) (index + 1) = doubledByLoad (index + 1)
      (doubledByBin (placeOf keys) index (capacityAfter (placeOf keys) index)) := rfl
  rw [after]
  generalize capacityAfter (placeOf keys) index = capacity at size ⊢
  have within := Nat.mod_lt (placeOf keys index) size.positive
  have pushed := @Bins.push_bins _ (placeOf keys) capacity (List.range index) index
  rw [← List.range_succ] at pushed
  have ninth := bin_succ (placeOf keys) capacity index
  have byBin : (if (Jsonval.treeifyThreshold ≤
      ((bins (placeOf keys) capacity (List.range index)).getD
        (placeOf keys index % capacity) []).length && decide (capacity < Jsonval.minTreeifyCapacity))
          = true then
        Table.resize (keys.map spread)
          ⟨capacity, bins (placeOf keys) capacity (List.range (index + 1))⟩
      else ⟨capacity, bins (placeOf keys) capacity (List.range (index + 1))⟩) =
      ⟨doubledByBin (placeOf keys) index capacity,
        bins (placeOf keys) (doubledByBin (placeOf keys) index capacity)
          (List.range (index + 1))⟩ := by
    rw [Bins.getD_bins _ within]
    unfold doubledByBin Jsonval.treeifyThreshold Jsonval.minTreeifyCapacity
    rw [ninth, resize_bins keys size]
    by_cases crowded : 8 ≤ (bin (placeOf keys) capacity (List.range index)
        (placeOf keys index % capacity)).length ∧ capacity < 64
    · rw [if_pos (by simpa using crowded), if_pos (by omega)]
    · rw [if_neg (by simpa using crowded), if_neg (by omega)]
  have sized := @isSize_doubledByBin (placeOf keys) index capacity size
  unfold Table.insert
  simp only [slotOf_placeOf keys size]
  unfold Bins.push at pushed
  rw [pushed, byBin]
  unfold doubledByLoad
  dsimp only
  split
  · exact resize_bins keys sized _
  · rfl

theorem fold_insert (count : Nat) :
    (List.range count).foldl (Table.insert (keys.map spread)) Table.empty =
      ⟨capacityAfter (placeOf keys) count,
        bins (placeOf keys) (capacityAfter (placeOf keys) count) (List.range count)⟩ := by
  induction count with
  | zero => rw [List.range_zero, List.foldl_nil, Bins.bins_nil]; rfl
  | succ index inductionHypothesis =>
      rw [List.range_succ, List.foldl_append, inductionHypothesis, ← List.range_succ]
      exact insert_bins keys index

end Order

/-! ### The map -/

section Map

variable (keys : List String)

def nodeOf (index : Nat) : Node :=
  { hash := spread (keys.getD index ""), key := keys.getD index "", value := index }

/-- A map of the first keys, which counts so many and has so many bins. -/
def held (count size capacity : Nat) : HashMap :=
  { table := (bins (placeOf keys) capacity (List.range count)).map (List.map (nodeOf keys))
    size
    threshold := capacity * 3 / 4 }

@[simp] theorem length_held (count size capacity : Nat) :
    (held keys count size capacity).table.length = capacity := by
  rw [held, List.length_map, Bins.length_bins]

theorem getD_held {capacity slot : Nat} (within : slot < capacity) (count size : Nat) :
    (held keys count size capacity).table.getD slot [] =
      (bin (placeOf keys) capacity (List.range count) slot).map (nodeOf keys) := by
  rw [held, List.getD_eq_getElem?_getD, List.getElem?_map, Bins.getElem?_bins _ within]
  rfl

/-- Every bin split by the next bit, the bins are those of twice as many. -/
theorem resize_held {capacity : Nat} (isSize : IsSize capacity) (count size : Nat) :
    (held keys count size capacity).resize = held keys count size (2 * capacity) := by
  have low (chain : List Nat) : (chain.map (nodeOf keys)).filter
      (fun node => node.hash.toNat &&& capacity = 0) =
        (chain.filter fun index => placeOf keys index % (2 * capacity) < capacity).map
          (nodeOf keys) := by
    rw [List.filter_map]
    congr 2
    funext index
    exact decide_eq_decide.mpr (isSize.and_self _)
  have high (chain : List Nat) : (chain.map (nodeOf keys)).filter
      (fun node => node.hash.toNat &&& capacity ≠ 0) =
        (chain.filter fun index => capacity ≤ placeOf keys index % (2 * capacity)).map
          (nodeOf keys) := by
    rw [List.filter_map]
    congr 2
    funext index
    exact decide_eq_decide.mpr ((not_congr (isSize.and_self _)).trans Nat.not_lt)
  unfold HashMap.resize
  rw [length_held]
  unfold held
  rw [← Bins.split _ isSize.positive, List.map_append, isSize.threshold]
  simp only [List.map_map]
  congr 2
  · apply List.map_congr_left
    exact fun chain _ => low chain
  · apply List.map_congr_left
    exact fun chain _ => high chain

theorem map_modify {α β : Type} (f : α → β) (g : α → α) (h : β → β)
    (same : ∀ value, f (g value) = h (f value)) (values : List α) (place : Nat) :
    (values.modify place g).map f = (values.map f).modify place h := by
  induction values generalizing place with
  | nil => rw [List.modify_nil, List.map_nil, List.modify_nil]
  | cons value values inductionHypothesis =>
      cases place with
      | zero =>
          rw [List.modify_zero_cons, List.map_cons, List.map_cons, List.modify_zero_cons, same]
      | succ place =>
          rw [List.modify_succ_cons, List.map_cons, List.map_cons, List.modify_succ_cons,
            inductionHypothesis]

/-- A key that is not there yet is put at the end of its bin. -/
theorem modify_held (index size capacity : Nat) :
    (held keys index size capacity).table.modify (placeOf keys index % capacity)
        (fun chain => chain ++ [nodeOf keys index]) =
      (held keys (index + 1) size capacity).table := by
  unfold held
  rw [List.range_succ, ← Bins.push_bins, Bins.push]
  apply (map_modify _ _ _ _ _ _).symm
  intro chain
  rw [List.map_append, List.map_singleton]

/-- No key before a key is the same. -/
theorem bin_fresh (distinct : keys.Nodup) {index : Nat} (within : index < keys.length)
    (chain : List Nat) (before : ∀ other ∈ chain, other < index) :
    (chain.map (nodeOf keys)).any (fun node =>
      node.hash == spread (keys.getD index "") && node.key == keys.getD index "") = false := by
  rw [List.any_eq_false]
  intro node inside found
  obtain ⟨other, among, same⟩ := List.mem_map.mp inside
  have less := before other among
  have equal : keys.getD other "" = keys.getD index "" := by
    rw [← same] at found
    exact beq_iff_eq.mp (Bool.and_eq_true_iff.mp found).2
  rw [List.getD_eq_getElem _ _ (Nat.lt_trans less within), List.getD_eq_getElem _ _ within] at equal
  have one := (List.Nodup.getElem_inj_iff distinct).mp equal
  omega

/-- Putting the next key makes the bins those of the next size. -/
theorem put_held (distinct : keys.Nodup) {index : Nat} (within : index < keys.length)
    (roomy : ¬Crowded (placeOf keys) keys.length) :
    (held keys index index (capacityAfter (placeOf keys) index)).put (keys.getD index "") index =
      some (held keys (index + 1) (index + 1) (capacityAfter (placeOf keys) (index + 1))) := by
  have isSize := isSize_capacityAfter (placeOf keys) index
  have after : capacityAfter (placeOf keys) (index + 1) = doubledByLoad (index + 1)
      (doubledByBin (placeOf keys) index (capacityAfter (placeOf keys) index)) := rfl
  have small (many : 9 ≤ (bin (placeOf keys) (capacityAfter (placeOf keys) index)
      (List.range (index + 1)) (placeOf keys index % capacityAfter (placeOf keys) index)).length) :
      capacityAfter (placeOf keys) index < 64 := by
    by_contra large
    exact roomy ⟨index, within, _, List.mem_cons_self, Nat.le_of_not_lt large, _, many⟩
  rw [after]
  generalize capacityAfter (placeOf keys) index = capacity at isSize small ⊢
  have inside := Nat.mod_lt (placeOf keys index) isSize.positive
  have ninth := bin_succ (placeOf keys) capacity index
  have slot : (capacity - 1) &&& (spread (keys.getD index "")).toNat =
      placeOf keys index % capacity := by
    rw [Nat.land_comm]
    exact isSize.and_sub_one _
  have fresh := bin_fresh keys distinct within
    (bin (placeOf keys) capacity (List.range index) (placeOf keys index % capacity))
    fun other among => List.mem_range.mp (List.mem_filter.mp among).1
  have byBin : (if 8 ≤ ((bin (placeOf keys) capacity (List.range index)
        (placeOf keys index % capacity)).map (nodeOf keys)).length then
      if (held keys (index + 1) index capacity).table.length < 64 then
        some (held keys (index + 1) index capacity).resize
      else none
    else some (held keys (index + 1) index capacity)) =
      some (held keys (index + 1) index (doubledByBin (placeOf keys) index capacity)) := by
    rw [List.length_map, length_held, resize_held keys isSize]
    unfold doubledByBin
    rw [ninth]
    by_cases many : 8 ≤ (bin (placeOf keys) capacity (List.range index)
        (placeOf keys index % capacity)).length
    · have low : capacity < 64 := small (by omega)
      rw [if_pos many, if_pos low, if_pos ⟨by omega, low⟩]
    · rw [if_neg many, if_neg (by omega)]
  have sized := @isSize_doubledByBin (placeOf keys) index capacity isSize
  have moved := modify_held keys index index capacity
  unfold nodeOf at moved
  unfold HashMap.put
  dsimp only
  rw [length_held, slot, getD_held keys inside, if_neg (Bool.eq_false_iff.mp fresh)]
  simp only [moved]
  refine (congrArg (Option.map _) byBin).trans ?_
  rw [Option.map_some]
  unfold doubledByLoad
  congr 1
  by_cases full : doubledByBin (placeOf keys) index capacity * 3 / 4 < index + 1
  · rw [if_pos full]
    refine (if_pos full).trans ?_
    exact resize_held keys sized (index + 1) (index + 1)
  · rw [if_neg full]
    exact if_neg full

/-- The map of the keys, put into it one after another. -/
theorem ofKeys_held (distinct : keys.Nodup) (roomy : ¬Crowded (placeOf keys) keys.length) :
    HashMap.ofKeys keys =
      some (held keys keys.length keys.length (capacityAfter (placeOf keys) keys.length)) := by
  have first (count : Nat) (within : count ≤ keys.length) :
      (keys.take count).zipIdx.foldlM (fun map entry => map.put entry.1 entry.2) HashMap.new =
        some (held keys count count (capacityAfter (placeOf keys) count)) := by
    induction count with
    | zero =>
        have none : held keys 0 0 (capacityAfter (placeOf keys) 0) = HashMap.new := by
          have sixteen : capacityAfter (placeOf keys) 0 = 16 := rfl
          rw [sixteen, held, List.range_zero, Bins.bins_nil, List.map_replicate]
          rfl
        rw [none]
        rfl
    | succ index inductionHypothesis =>
        have inside : index < keys.length := within
        rw [List.take_succ_eq_append_getElem inside, List.zipIdx_append, List.foldlM_append,
          inductionHypothesis inside.le]
        have put := put_held keys distinct inside roomy
        rw [List.getD_eq_getElem _ _ inside] at put
        rw [List.length_take, Nat.min_eq_left inside.le, Nat.zero_add]
        simp [put]
  have whole := first keys.length (Nat.le_refl _)
  rw [List.take_length] at whole
  exact whole

end Map

/-- The order found is a permutation of the indexes and the order of the map, which is slot after
slot of the last table and in a slot the order of the keys. -/
theorem javaHashmapOrder_iterates (keys : List String) (distinct : keys.Nodup)
    (roomy : ¬Crowded (placeOf keys) keys.length) :
    (javaHashmapOrder keys).Perm (List.range keys.length) ∧
      (∃ map, HashMap.ofKeys keys = some map ∧ javaHashmapOrder keys = map.iterate ∧
        map.table.length = capacityAfter (placeOf keys) keys.length) ∧
      javaHashmapOrder keys =
        (List.range (capacityAfter (placeOf keys) keys.length)).flatMap fun slot =>
          (List.range keys.length).filter fun index =>
            placeOf keys index % capacityAfter (placeOf keys) keys.length = slot := by
  have isSize := isSize_capacityAfter (placeOf keys) keys.length
  have order : javaHashmapOrder keys = (bins (placeOf keys)
      (capacityAfter (placeOf keys) keys.length) (List.range keys.length)).flatten := by
    unfold javaHashmapOrder
    rw [fold_insert]
  refine ⟨?_, ⟨_, ofKeys_held keys distinct roomy, ?_, length_held keys _ _ _⟩, ?_⟩
  · rw [order]
    exact Bins.flatten_perm _ isSize.positive _
  · rw [order, HashMap.iterate, held, ← List.map_flatten, List.map_map]
    exact (List.map_id _).symm
  · rw [order, bins, List.flatMap_def]
    rfl

theorem bin_length_le (place : Nat → Nat) (capacity count slot : Nat) :
    (bin place capacity (List.range count) slot).length ≤ count := by
  refine (List.length_filter_le _ _).trans ?_
  rw [List.length_range]

/-- The two keys of Trino's own example come out the other way round. -/
theorem javaHashmapOrder_two : javaHashmapOrder ["key_1", "key_2"] = [1, 0] ∧
    ∃ map, HashMap.ofKeys ["key_1", "key_2"] = some map ∧
      javaHashmapOrder ["key_1", "key_2"] = map.iterate := by
  have roomy : ¬Crowded (placeOf ["key_1", "key_2"]) 2 := by
    intro crowded
    obtain ⟨index, within, capacity, _, _, slot, nine⟩ := crowded
    have few := bin_length_le (placeOf ["key_1", "key_2"]) capacity (index + 1) slot
    omega
  obtain ⟨_, ⟨map, built, same, _⟩, _⟩ :=
    javaHashmapOrder_iterates ["key_1", "key_2"] (by decide) roomy
  exact ⟨by decide, map, built, same⟩

end Ddi.Java
