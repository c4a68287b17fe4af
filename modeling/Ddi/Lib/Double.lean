/-
Doubles as rationals: the nearest double of a rational, a tie going to the even one, and the
fewest decimal digits that a double reads back from.
-/

import Mathlib.Algebra.Order.Field.Rat
import Mathlib.Data.Nat.Log
import Mathlib.Data.Rat.Floor
import Mathlib.Tactic.Common

namespace Double

/-- A power with an exponent of either sign. -/
def power (base : Nat) (exponent : Int) : ℚ :=
  if 0 ≤ exponent then ((base ^ exponent.toNat : Nat) : ℚ)
  else 1 / ((base ^ (-exponent).toNat : Nat) : ℚ)

/-- The exponent of the greatest power that is at most a positive number. -/
def floorLog (base : Nat) (number : ℚ) : Int :=
  let guess : Int := Nat.log base number.num.natAbs - Nat.log base number.den
  if power base guess ≤ number then guess else guess - 1

inductive Magnitude
  | finite (value : ℚ)
  | infinite
  deriving DecidableEq

def roundEven (number : ℚ) : Int :=
  let down := number.floor
  let rest := number - down
  if rest < 1 / 2 then down
  else if 1 / 2 < rest then down + 1
  else if down % 2 = 0 then down else down + 1

/-- The distance between doubles of this size. -/
def step (number : ℚ) : ℚ := power 2 (max (floorLog 2 number) (-1022) - 52)

/-- The double nearest to a number that is not negative. -/
def nearest (number : ℚ) : Magnitude :=
  if number = 0 then .finite 0
  else
    let value := roundEven (number / step number) * step number
    if power 2 1024 ≤ value then .infinite else .finite value

/-- A double that is a number or infinite. Zero has a sign too. -/
structure Binary64 where
  negative : Bool
  magnitude : Magnitude
  deriving DecidableEq

namespace Binary64

/-- Equal as doubles are: the zeros are one. -/
def same (first second : Binary64) : Bool :=
  first.magnitude == second.magnitude &&
    (first.negative == second.negative || first.magnitude == .finite 0)

end Binary64

/-! ### The shortest digits -/

/-- Of the two numbers of so many digits around a number, the one that reads back as it, the
nearer one where both do. -/
def roundTrip (number scale : ℚ) : Option Nat :=
  let down := (number * scale).floor.toNat
  let fits (digits : Nat) : Bool := nearest (digits / scale) == .finite number
  let nearer : Bool := number * scale - down ≤ (down : ℚ) + 1 - number * scale
  if fits down && (nearer || !fits (down + 1)) then some down
  else if fits (down + 1) then some (down + 1)
  else none

/-- A positive double as the fewest digits that read back as it: their number, and the power of
ten that they count. -/
def shortest (number : ℚ) : Nat × Int :=
  let exponent := floorLog 10 number
  ((List.range 17).findSome? fun (more : Nat) =>
    let place : Int := exponent - more
    (roundTrip number (power 10 (-place))).map fun digits => (digits, place)).getD
      ((number * power 10 (16 - exponent)).floor.toNat, exponent - 16)

/-! ### Bounds -/

theorem power_eq_zpow (base : Nat) (exponent : Int) : power base exponent = (base : ℚ) ^ exponent := by
  unfold power
  split
  · next nonnegative =>
    obtain ⟨number, rfl⟩ := Int.eq_ofNat_of_zero_le nonnegative
    simp
  · next negative =>
    obtain ⟨number, rfl⟩ := Int.eq_negSucc_of_lt_zero (lt_of_not_ge negative)
    simp [zpow_negSucc]

theorem power_pos {base : Nat} (positive : 0 < base) (exponent : Int) : 0 < power base exponent := by
  rw [power_eq_zpow]
  exact zpow_pos (Nat.cast_pos.mpr positive) _

theorem floorLog_le {base : Nat} (large : 1 < base) {number : ℚ} (positive : 0 < number) :
    power base (floorLog base number) ≤ number := by
  unfold floorLog
  dsimp only
  split
  · next fits => exact fits
  · rw [power_eq_zpow]
    have numerator : (base : ℚ) ^ Nat.log base number.num.natAbs ≤ number.num.natAbs := by
      have held := Nat.pow_log_le_self base
        (Int.natAbs_ne_zero.mpr (Rat.num_pos.mpr positive).ne')
      exact_mod_cast held
    have denominator : (number.den : ℚ) ≤ (base : ℚ) ^ (Nat.log base number.den + 1) := by
      exact_mod_cast (Nat.lt_pow_succ_log_self large number.den).le
    have whole : number = (number.num.natAbs : ℚ) / number.den := by
      have signed : ((number.num.natAbs : ℤ) : ℚ) = number.num := by
        rw [Int.natAbs_of_nonneg (Rat.num_pos.mpr positive).le]
      rw [← Int.cast_natCast (R := ℚ), signed]
      exact (Rat.num_div_den number).symm
    have based : (0 : ℚ) < base := Nat.cast_pos.mpr (Nat.zero_lt_of_lt large)
    have exponent : (Nat.log base number.num.natAbs : ℤ) - Nat.log base number.den - 1 =
        (Nat.log base number.num.natAbs : ℤ) - (Nat.log base number.den + 1 : ℕ) := by
      push_cast
      ring
    rw [exponent, zpow_sub₀ based.ne', zpow_natCast, zpow_natCast]
    calc (base : ℚ) ^ Nat.log base number.num.natAbs / (base : ℚ) ^ (Nat.log base number.den + 1)
        ≤ number.num.natAbs / (base : ℚ) ^ (Nat.log base number.den + 1) := by gcongr
      _ ≤ number.num.natAbs / number.den := by
          have divides : (0 : ℚ) < number.den := Nat.cast_pos.mpr number.den_pos
          gcongr
      _ = number := whole.symm

theorem scaled_pos {number : ℚ} (positive : 0 < number) {place : Int}
    (below : place ≤ floorLog 10 number) : 0 < (number * power 10 (-place)).floor.toNat := by
  have large : (1 : ℚ) ≤ number * power 10 (-place) := by
    have held := floorLog_le (by decide : 1 < 10) positive
    have scale := power_pos (by decide : 0 < 10) (-place)
    calc (1 : ℚ) ≤ (10 : ℚ) ^ (floorLog 10 number + -place) :=
          one_le_zpow₀ (by norm_num) (by omega)
      _ = power 10 (floorLog 10 number) * power 10 (-place) := by
          rw [power_eq_zpow, power_eq_zpow, zpow_add₀ (by norm_num)]
          norm_num
      _ ≤ number * power 10 (-place) := by gcongr
  have floored : 1 ≤ (number * power 10 (-place)).floor := Rat.le_floor_iff.mpr (by exact_mod_cast large)
  omega

/-- A positive number has digits. -/
theorem shortest_pos {number : ℚ} (positive : 0 < number) : 0 < (shortest number).1 := by
  unfold shortest
  dsimp only
  cases found : (List.range 17).findSome? fun (more : Nat) =>
      (roundTrip number (power 10 (-(floorLog 10 number - (more : Int))))).map fun digits =>
        (digits, floorLog 10 number - (more : Int)) with
  | none =>
      have scaled := scaled_pos positive (Int.sub_le_self (floorLog 10 number) (by decide : (0 : Int) ≤ 16))
      rw [neg_sub] at scaled
      exact scaled
  | some pair =>
      obtain ⟨more, _inside, read⟩ := List.exists_of_findSome?_eq_some found
      obtain ⟨digits, trip, same⟩ := Option.map_eq_some_iff.mp read
      cases same
      have scaled := scaled_pos positive
        (Int.sub_le_self (floorLog 10 number) (Int.natCast_nonneg more))
      unfold roundTrip at trip
      dsimp only at trip
      split at trip
      · cases trip
        exact scaled
      · split at trip
        · cases trip
          exact Nat.succ_pos _
        · cases trip

theorem nearest_nonneg {number value : ℚ} (nonnegative : 0 ≤ number)
    (found : nearest number = .finite value) : 0 ≤ value := by
  unfold nearest at found
  split at found
  · cases found
    exact le_rfl
  · dsimp only at found
    split at found
    · cases found
    · cases found
      have scale : 0 < step number := power_pos (by decide) _
      have floored : 0 ≤ (number / step number).floor :=
        Rat.le_floor_iff.mpr (by exact_mod_cast div_nonneg nonnegative scale.le)
      have rounded : 0 ≤ roundEven (number / step number) := by
        unfold roundEven
        dsimp only
        split_ifs <;> omega
      exact mul_nonneg (by exact_mod_cast rounded) scale.le

end Double
