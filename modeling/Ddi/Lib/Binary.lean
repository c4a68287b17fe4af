/-
Binary formats of floating-point numbers: the number of a format nearest to a rational, a tie going
to the even one, and that the fewest decimal digits which read back as a number are found.
-/

import Ddi.Lib.Double
import Mathlib.Tactic.Linarith
import Mathlib.Tactic.Positivity
import Mathlib.Tactic.Ring
import Mathlib.Tactic.NormNum

namespace Double

/-! ### Logarithms -/

theorem lt_floorLog {base : Nat} (large : 1 < base) {number : ℚ} (positive : 0 < number) :
    number < (base : ℚ) ^ (floorLog base number + 1) := by
  unfold floorLog
  dsimp only
  split
  · have numerator : (number.num.natAbs : ℚ) < (base : ℚ) ^ (Nat.log base number.num.natAbs + 1) := by
      exact_mod_cast Nat.lt_pow_succ_log_self large number.num.natAbs
    have denominator : (base : ℚ) ^ Nat.log base number.den ≤ number.den := by
      exact_mod_cast Nat.pow_log_le_self base number.den_pos.ne'
    have whole : number = (number.num.natAbs : ℚ) / number.den := by
      have signed : ((number.num.natAbs : ℤ) : ℚ) = number.num := by
        rw [Int.natAbs_of_nonneg (Rat.num_pos.mpr positive).le]
      rw [← Int.cast_natCast (R := ℚ), signed]
      exact (Rat.num_div_den number).symm
    have based : (0 : ℚ) < base := Nat.cast_pos.mpr (Nat.zero_lt_of_lt large)
    have divides : (0 : ℚ) < number.den := Nat.cast_pos.mpr number.den_pos
    have exponent : (Nat.log base number.num.natAbs : ℤ) - Nat.log base number.den + 1 =
        ((Nat.log base number.num.natAbs + 1 : ℕ) : ℤ) - (Nat.log base number.den : ℕ) := by
      push_cast
      ring
    rw [exponent, zpow_sub₀ based.ne', zpow_natCast, zpow_natCast]
    calc number = (number.num.natAbs : ℚ) / number.den := whole
      _ < (base : ℚ) ^ (Nat.log base number.num.natAbs + 1) / number.den := by gcongr
      _ ≤ (base : ℚ) ^ (Nat.log base number.num.natAbs + 1) /
          (base : ℚ) ^ Nat.log base number.den := by gcongr
  · next past =>
    rw [power_eq_zpow] at past
    rw [sub_add_cancel]
    exact lt_of_not_ge past

theorem le_floorLog_iff {base : Nat} (large : 1 < base) {number : ℚ} (positive : 0 < number)
    (exponent : Int) : exponent ≤ floorLog base number ↔ (base : ℚ) ^ exponent ≤ number := by
  have growing : (1 : ℚ) < base := by exact_mod_cast large
  have least := floorLog_le large positive
  rw [power_eq_zpow] at least
  constructor
  · intro below
    exact le_trans (zpow_le_zpow_right₀ growing.le below) least
  · intro held
    have strictly := lt_of_le_of_lt held (lt_floorLog large positive)
    have exponents := (zpow_lt_zpow_iff_right₀ growing).mp strictly
    omega

/-! ### Rounding -/

/-- A number less than a half away from a whole one is rounded to it. -/
theorem roundEven_of_near {number : ℚ} {whole : Int} (above : (whole : ℚ) - 1 / 2 < number)
    (below : number < (whole : ℚ) + 1 / 2) : roundEven number = whole := by
  unfold roundEven
  dsimp only
  by_cases atLeast : (whole : ℚ) ≤ number
  · have floored : number.floor = whole := by
      apply le_antisymm
      · have under : number.floor < whole + 1 := by
          rw [Rat.floor_lt_iff]
          push_cast
          linarith
        omega
      · exact Rat.le_floor_iff.mpr atLeast
    rw [floored, if_pos (by linarith)]
  · have floored : number.floor = whole - 1 := by
      apply le_antisymm
      · have under : number.floor < whole := Rat.floor_lt_iff.mpr (lt_of_not_ge atLeast)
        omega
      · rw [Rat.le_floor_iff]
        push_cast
        linarith
    rw [floored]
    push_cast
    rw [if_neg (by linarith), if_pos (by linarith)]
    omega

theorem roundEven_le {number : ℚ} {whole : Int} (below : number ≤ whole) :
    roundEven number ≤ whole := by
  have floored : number.floor ≤ whole := by
    have under : number.floor < whole + 1 := by
      rw [Rat.floor_lt_iff]
      push_cast
      linarith
    omega
  unfold roundEven
  dsimp only
  rcases lt_or_eq_of_le floored with less | same
  · split_ifs <;> omega
  · -- Only the whole number itself is rounded down to it.
    have least := Rat.le_floor_iff.mp (le_refl number.floor)
    rw [same] at least ⊢
    rw [if_pos (by linarith)]

theorem le_roundEven {number : ℚ} {whole : Int} (above : (whole : ℚ) ≤ number) :
    whole ≤ roundEven number := by
  have floored : whole ≤ number.floor := Rat.le_floor_iff.mpr above
  unfold roundEven
  dsimp only
  split_ifs <;> omega

end Double

/-! ### Formats -/

namespace Binary

open Double (power floorLog roundEven Magnitude)

/-- A format of numbers that are a significand times a power of two. -/
structure Format where
  /-- The bits of a significand. -/
  precision : Nat
  /-- The exponent of the least number whose significand has them all. -/
  lowest : Int
  /-- The exponent of the least power of two that is too large. -/
  highest : Int
  /-- The decimal digits after the first that tell any two numbers apart. -/
  digits : Nat
  bits : 0 < precision
  apart : 2 ^ precision < 10 ^ digits

def binary32 : Format :=
  { precision := 24, lowest := -126, highest := 128, digits := 8
    bits := by decide
    apart := by decide }

def binary64 : Format :=
  { precision := 53, lowest := -1022, highest := 1024, digits := 16
    bits := by decide
    apart := by decide }

namespace Format

variable (format : Format)

/-- The distance between numbers of this size. -/
def step (number : ℚ) : ℚ :=
  power 2 (max (floorLog 2 number) format.lowest - (format.precision - 1))

/-- The number of the format nearest to a number that is not negative. -/
def nearest (number : ℚ) : Magnitude :=
  if number = 0 then .finite 0
  else
    let value := roundEven (number / format.step number) * format.step number
    if power 2 format.highest ≤ value then .infinite else .finite value

/-- Of the two numbers of so many digits around a number, the one that reads back as it, the
nearer one where both do. -/
def roundTrip (number scale : ℚ) : Option Nat :=
  let down := (number * scale).floor.toNat
  let fits (digits : Nat) : Bool := format.nearest (digits / scale) == .finite number
  let nearer : Bool := number * scale - down ≤ (down : ℚ) + 1 - number * scale
  if fits down && (nearer || !fits (down + 1)) then some down
  else if fits (down + 1) then some (down + 1)
  else none

/-- A positive number of the format as the fewest digits that read back as it: their number, and
the power of ten that they count. -/
def shortest (number : ℚ) : Nat × Int :=
  let exponent := floorLog 10 number
  ((List.range (format.digits + 1)).findSome? fun (more : Nat) =>
    let place : Int := exponent - more
    (format.roundTrip number (power 10 (-place))).map fun digits => (digits, place)).getD
      ((number * power 10 (format.digits - exponent)).floor.toNat, exponent - format.digits)

end Format

/-- A magnitude of the format, which may be infinite. -/
def Format.Holds (format : Format) : Magnitude → Prop
  | .finite value => 0 ≤ value ∧ format.nearest value = .finite value
  | .infinite => True

theorem binary64_nearest : binary64.nearest = Double.nearest := rfl

theorem binary64_shortest : binary64.shortest = Double.shortest := rfl

/-! ### Reading back -/

namespace Format

variable (format : Format) {number candidate : ℚ}

theorem step_eq (number : ℚ) : format.step number =
    (2 : ℚ) ^ (max (floorLog 2 number) format.lowest - (format.precision - 1)) := by
  unfold step
  rw [Double.power_eq_zpow]
  rfl

theorem step_pos (number : ℚ) : 0 < format.step number := by
  rw [step_eq]
  exact zpow_pos two_pos _

/-- Below the next power of two there are as many steps as a significand counts. -/
theorem step_times (number : ℚ) : (2 : ℚ) ^ format.precision * format.step number =
    (2 : ℚ) ^ (max (floorLog 2 number) format.lowest + 1) := by
  rw [step_eq, ← zpow_natCast, ← zpow_add₀ two_ne_zero]
  congr 1
  ring

variable {format}

/-- What the rounding of a positive number is, told by the whole number of steps it is near. -/
theorem nearest_of_near (positive : 0 < candidate) {whole : Int}
    (above : ((whole : ℚ) - 1 / 2) * format.step candidate < candidate)
    (below : candidate < ((whole : ℚ) + 1 / 2) * format.step candidate)
    (small : (whole : ℚ) * format.step candidate < (2 : ℚ) ^ format.highest) :
    format.nearest candidate = .finite (whole * format.step candidate) := by
  have length := step_pos format candidate
  have rounded : roundEven (candidate / format.step candidate) = whole := by
    apply Double.roundEven_of_near
    · rw [lt_div_iff₀ length]
      exact above
    · rw [div_lt_iff₀ length]
      exact below
  unfold nearest
  dsimp only
  rw [if_neg positive.ne', rounded, Double.power_eq_zpow]
  exact if_neg (not_le.mpr small)

/-- A number of the format is a whole number of its steps. -/
theorem whole_of_nearest (positive : 0 < number) (held : format.nearest number = .finite number) :
    ∃ whole : Int, number = whole * format.step number ∧ number < (2 : ℚ) ^ format.highest := by
  unfold nearest at held
  dsimp only at held
  rw [if_neg positive.ne', Double.power_eq_zpow] at held
  split at held
  · cases held
  · next small =>
    have same := Magnitude.finite.inj held
    refine ⟨_, same.symm, ?_⟩
    rw [same] at small
    exact lt_of_not_ge small

/-- What a number is rounded to is a number of the format. -/
theorem nearest_nearest {value : ℚ} (nonnegative : 0 ≤ number)
    (found : format.nearest number = .finite value) : format.nearest value = .finite value := by
  by_cases zero : number = 0
  · unfold nearest at found
    rw [if_pos zero] at found
    rw [← Magnitude.finite.inj found]
    exact if_pos rfl
  have positive := lt_of_le_of_ne nonnegative (Ne.symm zero)
  have length := step_pos format number
  have times := step_times format number
  unfold nearest at found
  dsimp only at found
  rw [if_neg zero, Double.power_eq_zpow] at found
  split at found
  · cases found
  next finite =>
  have small := not_le.mp finite
  have same := Magnitude.finite.inj found
  generalize rounds : roundEven (number / format.step number) = whole at same small
  have least : 0 ≤ whole := by
    rw [← rounds]
    apply Double.le_roundEven
    exact_mod_cast (div_pos positive length).le
  have most : whole ≤ 2 ^ format.precision := by
    rw [← rounds]
    apply Double.roundEven_le
    push_cast
    rw [div_le_iff₀ length, times]
    apply le_trans (Double.lt_floorLog (by decide : 1 < 2) positive).le
    apply zpow_le_zpow_right₀ (by norm_num)
    omega
  rcases eq_or_lt_of_le least with none | some
  · rw [← none, Int.cast_zero, zero_mul] at same
    rw [← same]
    exact if_pos rfl
  have counts : (1 : ℚ) ≤ whole := by exact_mod_cast Int.add_one_le_iff.mpr some
  have values : 0 < value := by
    rw [← same]
    nlinarith
  have double : (2 : ℚ) ^ format.precision = 2 * 2 ^ (format.precision - 1) := by
    rw [← pow_succ', Nat.sub_add_cancel format.bits]
  rcases eq_or_lt_of_le most with carried | fewer
  · -- Rounding up reached the next power of two, where the steps are twice as long.
    have power : value = (2 : ℚ) ^ (max (floorLog 2 number) format.lowest + 1) := by
      rw [← same, carried, ← times]
      push_cast
      rfl
    have low := (Double.le_floorLog_iff (by decide : 1 < 2) values _).mpr power.ge
    have high : ¬max (floorLog 2 number) format.lowest + 1 + 1 ≤ floorLog 2 value := by
      intro past
      have held := (Double.le_floorLog_iff (by decide : 1 < 2) values _).mp past
      rw [power] at held
      have exponents := (zpow_le_zpow_iff_right₀ (by norm_num : (1 : ℚ) < 2)).mp held
      omega
    have level : max (floorLog 2 value) format.lowest =
        max (floorLog 2 number) format.lowest + 1 := by omega
    have steps : format.step value = format.step number * 2 := by
      rw [step_eq, step_eq, level, add_sub_right_comm, zpow_add_one₀ two_ne_zero]
    have counted : ((2 ^ (format.precision - 1) : ℤ) : ℚ) * format.step value = value := by
      have valued : value = 2 ^ format.precision * format.step number := by
        rw [← same, carried]
        push_cast
        rfl
      rw [steps, valued, double]
      push_cast
      ring
    have near := @nearest_of_near format value values (2 ^ (format.precision - 1))
    rw [counted] at near
    apply near _ _ (by rw [← same]; exact small)
    · nlinarith
    · nlinarith
  · have inside : value < (2 : ℚ) ^ (max (floorLog 2 number) format.lowest + 1) := by
      have strictly : (whole : ℚ) < 2 ^ format.precision := by exact_mod_cast fewer
      rw [← same, ← times]
      nlinarith
    have reach : floorLog 2 value ≤ max (floorLog 2 number) format.lowest := by
      by_contra past
      have held := (Double.le_floorLog_iff (by decide : 1 < 2) values _).mp
        (Int.add_one_le_iff.mpr (lt_of_not_ge past))
      exact absurd inside (not_lt.mpr held)
    have level : max (floorLog 2 value) format.lowest =
        max (floorLog 2 number) format.lowest := by
      by_cases normal : format.lowest ≤ floorLog 2 number
      · rw [max_eq_left normal] at reach times ⊢
        have reached : (2 : ℚ) ^ floorLog 2 number ≤ number :=
          (Double.le_floorLog_iff (by decide : 1 < 2) positive _).mp le_rfl
        have half : (2 : ℚ) ^ floorLog 2 number = 2 ^ (format.precision - 1) * format.step number := by
          rw [zpow_add_one₀ two_ne_zero, double] at times
          linarith
        have enough : (2 : ℤ) ^ (format.precision - 1) ≤ whole := by
          rw [← rounds]
          apply Double.le_roundEven
          push_cast
          rw [le_div_iff₀ length, ← half]
          exact reached
        have grown : (2 : ℚ) ^ floorLog 2 number ≤ value := by
          have enough' : (2 : ℚ) ^ (format.precision - 1) ≤ whole := by exact_mod_cast enough
          rw [half, ← same]
          nlinarith
        have held := (Double.le_floorLog_iff (by decide : 1 < 2) values _).mpr grown
        omega
      · omega
    have steps : format.step value = format.step number := by
      rw [step_eq, step_eq, level]
    have near := @nearest_of_near format value values whole
    rw [steps, same] at near
    exact near (by linarith) (by linarith) (by rw [← same]; exact small)

/-- What is close to a number of the format, for its size, is rounded to it. -/
theorem nearest_of_close (positive : 0 < number) (held : format.nearest number = .finite number)
    (above : number - number / 2 ^ (format.precision + 1) < candidate)
    (below : candidate < number + number / 2 ^ (format.precision + 1)) :
    format.nearest candidate = .finite number := by
  obtain ⟨whole, counted, small⟩ := whole_of_nearest positive held
  have length := step_pos format number
  have times := step_times format number
  have under : number < (2 : ℚ) ^ (max (floorLog 2 number) format.lowest + 1) := by
    apply lt_of_lt_of_le (Double.lt_floorLog (by decide : 1 < 2) positive)
    apply zpow_le_zpow_right₀ (by norm_num)
    omega
  have bits : (0 : ℚ) < 2 ^ format.precision := by positivity
  -- Half a step is more than what the candidate may be away.
  have half : number / 2 ^ (format.precision + 1) < format.step number / 2 := by
    rw [← times] at under
    rw [pow_succ, div_lt_div_iff₀ (by positivity) (by norm_num)]
    nlinarith
  have fewer : whole ≤ 2 ^ format.precision - 1 := by
    have strictly : (whole : ℚ) * format.step number < 2 ^ format.precision * format.step number := by
      rw [times, ← counted]
      exact under
    have counts : (whole : ℚ) < 2 ^ format.precision :=
      lt_of_mul_lt_mul_right strictly length.le
    have integers : whole < 2 ^ format.precision := by exact_mod_cast counts
    omega
  have inside : candidate < (2 : ℚ) ^ (max (floorLog 2 number) format.lowest + 1) := by
    have most : (whole : ℚ) ≤ 2 ^ format.precision - 1 := by exact_mod_cast fewer
    rw [← times]
    nlinarith
  have least : (1 : ℚ) ≤ whole := by
    have product : 0 < (whole : ℚ) * format.step number := by
      rw [← counted]
      exact positive
    have counts : 0 < whole := by exact_mod_cast (mul_pos_iff_of_pos_right length).mp product
    exact_mod_cast Int.add_one_le_iff.mpr counts
  have some : 0 < candidate := by nlinarith
  have reach : floorLog 2 candidate ≤ max (floorLog 2 number) format.lowest := by
    by_contra past
    have held := (Double.le_floorLog_iff (by decide : 1 < 2) some _).mp
      (Int.add_one_le_iff.mpr (lt_of_not_ge past))
    exact absurd inside (not_lt.mpr held)
  by_cases deep : floorLog 2 candidate < max (floorLog 2 number) format.lowest ∧
      format.lowest < max (floorLog 2 number) format.lowest
  · -- The number is a power of two, and below it the steps are half as long.
    obtain ⟨lower, normal⟩ := deep
    have same : max (floorLog 2 number) format.lowest = floorLog 2 number := by omega
    rw [same] at lower normal times
    have power : (2 : ℚ) ^ floorLog 2 number = 2 ^ format.precision * format.step number / 2 := by
      rw [times, zpow_add_one₀ two_ne_zero]
      ring
    have reached : (2 : ℚ) ^ floorLog 2 number ≤ number :=
      (Double.le_floorLog_iff (by decide : 1 < 2) positive _).mp le_rfl
    have before : candidate < (2 : ℚ) ^ floorLog 2 number := by
      by_contra past
      have held := (Double.le_floorLog_iff (by decide : 1 < 2) some _).mpr (not_lt.mp past)
      omega
    have whole_eq : (2 : ℚ) * whole = 2 ^ format.precision := by
      have low : (2 : ℚ) ^ format.precision ≤ 2 * whole := by
        apply le_of_mul_le_mul_right _ length
        linarith
      have high : (2 : ℚ) * whole - 1 < 2 ^ format.precision := by
        apply lt_of_mul_lt_mul_right _ length.le
        linarith
      have high' : 2 * whole - 1 < 2 ^ format.precision := by exact_mod_cast high
      have low' : 2 ^ format.precision ≤ 2 * whole := by exact_mod_cast low
      have counts : 2 * whole = 2 ^ format.precision := by omega
      exact_mod_cast counts
    have quarter : number / 2 ^ (format.precision + 1) = format.step number / 4 := by
      rw [pow_succ, ← whole_eq, div_eq_iff (by positivity)]
      linarith
    have next : floorLog 2 candidate = floorLog 2 number - 1 := by
      have halved : (2 : ℚ) ^ (floorLog 2 number - 1) ≤ candidate := by
        rw [zpow_sub_one₀ two_ne_zero, power, ← whole_eq]
        nlinarith
      have held := (Double.le_floorLog_iff (by decide : 1 < 2) some _).mpr halved
      omega
    have steps : format.step candidate = format.step number / 2 := by
      have level : max (floorLog 2 candidate) format.lowest =
          max (floorLog 2 number) format.lowest - 1 := by omega
      rw [step_eq, step_eq, level, sub_right_comm, zpow_sub_one₀ two_ne_zero]
      rfl
    have near := @nearest_of_near format candidate some (2 * whole)
    have doubled : ((2 * whole : ℤ) : ℚ) * format.step candidate = number := by
      rw [steps]
      push_cast
      linarith
    rw [doubled] at near
    apply near _ _ small
    · rw [steps]
      push_cast
      linarith
    · rw [steps]
      push_cast
      nlinarith
  · have level : max (floorLog 2 candidate) format.lowest =
        max (floorLog 2 number) format.lowest := by omega
    have steps : format.step candidate = format.step number := by
      rw [step_eq, step_eq, level]
    have near := @nearest_of_near format candidate some whole
    rw [steps, ← counted] at near
    exact near (by linarith) (by linarith) small

/-! ### The shortest digits -/

theorem roundTrip_fits {scale : ℚ} {digits : Nat}
    (found : format.roundTrip number scale = some digits) :
    format.nearest (digits / scale) = .finite number := by
  unfold roundTrip at found
  dsimp only at found
  split at found
  · next fits =>
    cases found
    exact eq_of_beq (Bool.and_eq_true_iff.mp fits).1
  · split at found
    · next fits =>
      cases found
      exact eq_of_beq fits
    · cases found

/-- Where no digits are found, neither of the two numbers around reads back. -/
theorem roundTrip_none {scale : ℚ} (none : format.roundTrip number scale = none) :
    format.nearest ((number * scale).floor.toNat / scale) ≠ .finite number ∧
      format.nearest (((number * scale).floor.toNat + 1 : ℕ) / scale) ≠ .finite number := by
  unfold roundTrip at none
  dsimp only at none
  split at none
  · cases none
  · next first =>
    split at none
    · cases none
    · next second =>
      have above := Bool.not_eq_true _ ▸ second
      rw [above, Bool.not_false, Bool.or_true, Bool.and_true] at first
      exact ⟨fun same => first (beq_iff_eq.mpr same), fun same => second (beq_iff_eq.mpr same)⟩

/-- At the digits that tell any two numbers apart, one of the numbers around reads back. -/
theorem roundTrip_some (positive : 0 < number) (held : format.nearest number = .finite number) :
    (format.roundTrip number (power 10 (-(floorLog 10 number - format.digits)))).isSome := by
  cases trip : format.roundTrip number (power 10 (-(floorLog 10 number - format.digits))) with
  | some digits => rfl
  | none =>
      obtain ⟨low, high⟩ := roundTrip_none trip
      rw [Double.power_eq_zpow] at low high
      generalize scaled : ((10 : ℕ) : ℚ) ^ (-(floorLog 10 number - format.digits)) = scale at low high
      have scales : 0 < scale := by
        rw [← scaled]
        exact zpow_pos (by norm_num) _
      -- The numbers around are closer together than the numbers of the format.
      have fine : 1 / scale < number / 2 ^ format.precision := by
        have least := (Double.le_floorLog_iff (by decide : 1 < 10) positive _).mp le_rfl
        have apart : (2 : ℚ) ^ format.precision < 10 ^ format.digits := by
          exact_mod_cast format.apart
        have inverse : 1 / scale = ((10 : ℕ) : ℚ) ^ floorLog 10 number / 10 ^ format.digits := by
          rw [← scaled, one_div, zpow_neg, inv_inv, zpow_sub₀ (by norm_num), zpow_natCast]
          norm_num
        rw [inverse]
        calc ((10 : ℕ) : ℚ) ^ floorLog 10 number / 10 ^ format.digits
            ≤ number / 10 ^ format.digits := by gcongr
          _ < number / 2 ^ format.precision := by gcongr
      have product : 0 ≤ number * scale := (mul_pos positive scales).le
      have floored : (((number * scale).floor.toNat : ℕ) : ℤ) = (number * scale).floor :=
        Int.toNat_of_nonneg (Rat.le_floor_iff.mpr (by exact_mod_cast product))
      have down : (((number * scale).floor.toNat : ℕ) : ℚ) ≤ number * scale := by
        have least := Rat.le_floor_iff.mp (le_refl (number * scale).floor)
        rw [← floored] at least
        exact_mod_cast least
      have up : number * scale < ((number * scale).floor.toNat : ℕ) + 1 := by
        have most := Rat.floor_lt_iff.mp (Int.lt_add_one_iff.mpr (le_refl (number * scale).floor))
        rw [← floored] at most
        exact_mod_cast most
      have halves : number / 2 ^ (format.precision + 1) = number / 2 ^ format.precision / 2 := by
        rw [pow_succ, div_div]
      have whole : number = number * scale * (1 / scale) := by
        rw [mul_one_div, mul_div_cancel_right₀ _ scales.ne']
      have inverse : 0 < 1 / scale := one_div_pos.mpr scales
      have close (digits : Nat) (above : number * scale - 1 / 2 ≤ digits)
          (below : (digits : ℚ) ≤ number * scale + 1 / 2) :
          format.nearest (digits / scale) = .finite number := by
        apply nearest_of_close positive held
        · rw [halves, div_eq_mul_one_div (digits : ℚ)]
          nlinarith
        · rw [halves, div_eq_mul_one_div (digits : ℚ)]
          nlinarith
      by_cases nearer : number * scale - ((number * scale).floor.toNat : ℕ) ≤ 1 / 2
      · exact absurd (close _ (by linarith) (by linarith)) low
      · refine absurd (close ((number * scale).floor.toNat + 1) ?_ ?_) high
        · push_cast
          linarith
        · push_cast
          linarith

/-- The shortest digits of a number of the format read back as it. -/
theorem shortest_reads (positive : 0 < number) (held : format.nearest number = .finite number) :
    format.nearest ((format.shortest number).1 * power 10 (format.shortest number).2) =
      .finite number := by
  have last := roundTrip_some positive held
  cases found : (List.range (format.digits + 1)).findSome? fun (more : Nat) =>
      (format.roundTrip number (power 10 (-(floorLog 10 number - (more : Int))))).map fun digits =>
        (digits, floorLog 10 number - (more : Int)) with
  | none =>
      have missing := List.findSome?_eq_none_iff.mp found format.digits
        (List.mem_range.mpr (Nat.lt_succ_self _))
      rw [Option.map_eq_none_iff.mp missing] at last
      cases last
  | some pair =>
      have same : format.shortest number = pair := by
        unfold shortest
        dsimp only
        rw [found, Option.getD_some]
      obtain ⟨more, _inside, read⟩ := List.exists_of_findSome?_eq_some found
      obtain ⟨digits, trip, paired⟩ := Option.map_eq_some_iff.mp read
      rw [same, ← paired]
      have fits := roundTrip_fits trip
      rw [Double.power_eq_zpow, zpow_neg, div_inv_eq_mul, ← Double.power_eq_zpow] at fits
      exact fits

/-- A positive number has digits. -/
theorem shortest_pos (positive : 0 < number) (held : format.nearest number = .finite number) :
    0 < (format.shortest number).1 := by
  have reads := shortest_reads positive held
  apply Nat.pos_of_ne_zero
  intro zero
  rw [zero, Nat.cast_zero, zero_mul] at reads
  have same : number = 0 := by
    unfold nearest at reads
    rw [if_pos rfl] at reads
    exact (Magnitude.finite.inj reads).symm
  exact positive.ne' same

end Format

end Binary
