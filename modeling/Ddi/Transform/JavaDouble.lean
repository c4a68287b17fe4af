/-
Doubles and floats as Java spells them, and that each spelling reads back as the very number.
-/

import Ddi.Lib.Binary
import Ddi.Transform.BigDecimal

namespace Ddi.Jsonval

open NumberText
open Binary (Format binary32 binary64)

/-! ### The spellings -/

/-- The shortest digits that a positive number of a format is read back from, and its exponent. -/
def scientificOf (format : Format) (number : ℚ) : List Char × Int :=
  let found := format.shortest number
  let digits := Nat.toDigits 10 found.1
  ((digits.reverse.dropWhile (· = '0')).reverse, found.2 + digits.length - 1)

/-- A number of a format in Java's layout. -/
def javaReal (format : Format) (double : Double.Binary64) : List Char :=
  match double.magnitude with
  | .infinite => if double.negative then "-Infinity".toList else "Infinity".toList
  | .finite number =>
      let sign := if double.negative then ['-'] else []
      if number = 0 then sign ++ "0.0".toList
      else
        let (digits, exponent) := scientificOf format number
        if 1 / 1000 ≤ number ∧ number < 10000000 then sign ++ plainLayout digits exponent
        else
          let rest := if digits.tail.isEmpty then ['0'] else digits.tail
          sign ++ digits.take 1 ++ '.' :: rest ++ 'E' :: intText exponent

theorem javaReal_double : javaReal binary64 = javaDouble := rfl

/-- `Float.toString`, of a float that is told by the double it converts to: the same layout of the
shortest digits of a float. -/
def javaFloat (float : Double.Binary64) : List Char :=
  if float.magnitude = .infinite ∨ float.magnitude = .finite 0 then javaDouble float
  else javaReal binary32 float

theorem javaFloat_eq : javaFloat = javaReal binary32 := by
  funext float
  unfold javaFloat
  split
  · next special =>
    rcases special with infinite | zero
    · simp only [javaDouble, javaReal, infinite]
    · simp only [javaDouble, javaReal, zero, if_true]
  · rfl

/-! ### What is spelt -/

/-- A text without a sign is a number of a value. -/
def Denotes (text : List Char) (value : ℚ) : Prop :=
  ∃ spelling : Spelling, spelling.Valid ∧ spelling.negative = false ∧ spelling.text = text ∧
    spelling.value = value

theorem Denotes.same {text other : List Char} {value number : ℚ} (denotes : Denotes text value)
    (texts : text = other) (values : value = number) : Denotes other number := by
  subst texts values
  exact denotes

/-- A sign before a number. -/
theorem Denotes.signed {text : List Char} {value : ℚ} (denotes : Denotes text value)
    (negative : Bool) :
    ∃ spelling : Spelling, spelling.Valid ∧
      (if negative then ['-'] else []) ++ text = spelling.text ∧
      spelling.negative = negative ∧ spelling.value = (if negative then -1 else 1) * value := by
  obtain ⟨spelling, valid, positive, same, valued⟩ := denotes
  refine ⟨{ spelling with negative }, ⟨valid.whole, valid.digits, valid.leading, valid.fraction,
    valid.exponent⟩, ?_, rfl, ?_⟩
  · rw [← same]
    simp [Spelling.text, positive]
  · rw [← valued, value_eq, value_eq, positive]
    unfold Spelling.digits Spelling.scale
    dsimp only
    simp only [Bool.false_eq_true, if_false, one_mul, mul_assoc]

theorem denotes_digits {whole fraction : List Char} {exponent : Option Exponent}
    (plain : Plain whole) (inhabited : fraction ≠ [])
    (digits : ∀ digit ∈ fraction, digit.isDigit = true)
    (valid : ∀ found, exponent = some found → found.Valid) :
    Denotes (whole ++ '.' :: fraction ++ exponent.elim [] Exponent.text)
      (natural (whole ++ fraction) *
        10 ^ (exponent.elim 0 Exponent.value - (fraction.length : Int))) := by
  refine ⟨⟨false, whole, some fraction, exponent⟩, ⟨plain.inhabited, plain.digits, plain.leading,
    ?_, valid⟩, rfl, ?_, ?_⟩
  · intro found same
    cases same
    exact ⟨inhabited, digits⟩
  · simp [Spelling.text]
  · simp [Spelling.value]

theorem Leading.plain {digits : List Char} (leading : Leading digits) : Plain digits where
  inhabited := leading.inhabited
  digits := leading.digits
  leading := fun zero => (leading.first zero).elim

theorem Leading.front {whole rest : List Char} (leading : Leading (whole ++ rest))
    (inhabited : whole ≠ []) : Plain whole where
  inhabited := inhabited
  digits := fun digit inside => leading.digits digit (List.mem_append_left _ inside)
  leading := by
    intro zero
    cases whole with
    | nil => exact (inhabited rfl).elim
    | cons first rest => exact (leading.first zero).elim

theorem plainLayout_denotes {digits : List Char} (leading : Leading digits) (exponent : Int) :
    Denotes (plainLayout digits exponent)
      (natural digits * 10 ^ (exponent + 1 - (digits.length : Int))) := by
  have counted : 0 < digits.length := List.length_pos_iff.mpr leading.inhabited
  unfold plainLayout
  dsimp only
  split
  · next below =>
    apply (@denotes_digits ['0'] (zeros (-(exponent + 1)).toNat ++ digits) none plain_zero
      (fun none => leading.inhabited (List.append_eq_nil_iff.mp none).2)
      (fun digit inside => by
        rcases List.mem_append.mp inside with zero | held
        · exact zeros_digits zero
        · exact leading.digits digit held)
      (fun found same => by cases same)).same
    · simp
    · have value : natural (['0'] ++ (zeros (-(exponent + 1)).toNat ++ digits)) =
          natural digits := by
        rw [natural_append, natural_append, zeros, natural_zeros]
        simp [natural, digitValue]
      rw [value, List.length_append, zeros, List.length_replicate, Option.elim_none]
      congr 2
      omega
  · next above =>
    split
    · next long =>
      apply (@denotes_digits (digits ++ zeros ((exponent + 1).toNat - digits.length)) ['0'] none
        ⟨fun none => leading.inhabited (List.append_eq_nil_iff.mp none).1, ?_, ?_⟩
        (List.cons_ne_nil _ _) (isDigit_singleton rfl) (fun found same => by cases same)).same
      · simp
      · rw [List.append_assoc, natural_append, natural_append, zeros, natural_zeros,
          Option.elim_none, List.length_append, List.length_replicate]
        have zero : natural ['0'] = 0 := rfl
        rw [zero, Nat.zero_mul, Nat.add_zero, Nat.cast_mul, Nat.cast_pow, mul_assoc,
          Nat.cast_ofNat, ← zpow_natCast, ← zpow_add₀ (by norm_num)]
        congr 2
        simp only [List.length_singleton]
        omega
      · intro digit inside
        rcases List.mem_append.mp inside with held | zero
        · exact leading.digits digit held
        · exact zeros_digits zero
      · intro zero
        cases digits with
        | nil => exact (leading.inhabited rfl).elim
        | cons first rest => exact (leading.first zero).elim
    · next short =>
      have split := List.take_append_drop (exponent + 1).toNat digits
      have rest : digits.drop (exponent + 1).toNat ≠ [] := by
        intro none
        have counts := List.drop_eq_nil_iff.mp none
        omega
      apply (@denotes_digits (digits.take (exponent + 1).toNat)
        (digits.drop (exponent + 1).toNat) none
        ((split.symm ▸ leading : Leading (digits.take _ ++ digits.drop _)).front ?_) rest
        (fun digit among => leading.digits digit (List.mem_of_mem_drop among))
        (fun found same => by cases same)).same
      · simp
      · rw [split, List.length_drop, Option.elim_none]
        congr 2
        omega
      · intro none
        rcases List.take_eq_nil_iff.mp none with zero | empty
        · omega
        · exact leading.inhabited empty

/-- An exponent as it is written, without a sign where it is positive. -/
theorem intText_denotes (number : Int) :
    ∃ exponent : Exponent, exponent.Valid ∧ exponent.text = 'E' :: intText number ∧
      exponent.value = number := by
  refine ⟨⟨'E', if 0 ≤ number then none else some '-', Nat.toDigits 10 number.natAbs⟩,
    ⟨Or.inr rfl, ?_, Nat.toDigits_ne_nil, fun digit inside => toDigits_digits inside⟩, ?_, ?_⟩
  · intro sign same
    dsimp only at same
    split at same
    · cases same
    · cases same
      exact Or.inr rfl
  · rw [intText_natAbs]
    unfold Exponent.text
    split <;> rfl
  · unfold Exponent.value
    dsimp only
    rw [natural_toDigits]
    by_cases positive : 0 ≤ number
    · rw [if_pos positive, if_neg (by decide)]
      omega
    · rw [if_neg positive, if_pos rfl]
      omega

theorem scientificLayout_denotes {digits : List Char} (leading : Leading digits) (exponent : Int) :
    Denotes (digits.take 1 ++ '.' :: (if digits.tail.isEmpty then ['0'] else digits.tail) ++
        'E' :: intText exponent)
      (natural digits * 10 ^ (exponent + 1 - (digits.length : Int))) := by
  obtain ⟨power, valid, written, value⟩ := intText_denotes exponent
  have held : ∀ found, some power = some found → found.Valid := by
    intro found same
    cases same
    exact valid
  have front : Plain (digits.take 1) := by
    have split := List.take_append_drop 1 digits
    apply (split.symm ▸ leading : Leading (digits.take 1 ++ digits.drop 1)).front
    intro none
    rcases List.take_eq_nil_iff.mp none with zero | empty
    · cases zero
    · exact leading.inhabited empty
  cases digits with
  | nil => exact (leading.inhabited rfl).elim
  | cons first rest =>
      cases rest with
      | nil =>
          apply (denotes_digits front (List.cons_ne_nil '0' []) (isDigit_singleton rfl) held).same
          · rw [Option.elim_some, written]
            rfl
          · have tenfold : natural ([first] ++ ['0']) = natural [first] * 10 := by
              rw [natural_append]
              rfl
            change ((natural ([first] ++ ['0']) : ℕ) : ℚ) * _ = _
            rw [tenfold, Option.elim_some, value, Nat.cast_mul, mul_assoc, Nat.cast_ofNat,
              ← zpow_one_add₀ (by norm_num)]
            congr 2
            simp only [List.length_singleton]
            omega
      | cons second rest =>
          apply (denotes_digits front (List.cons_ne_nil second rest)
            (fun digit among => leading.digits digit (List.mem_cons_of_mem _ among)) held).same
          · rw [Option.elim_some, written]
            rfl
          · rw [Option.elim_some, value]
            change ((natural (first :: second :: rest) : ℕ) : ℚ) * _ = _
            congr 2
            simp only [List.length_cons]
            omega

/-! ### Reading back -/

/-- The zeros that end digits only scale them. -/
theorem natural_trimmed (digits : List Char) :
    (natural ((digits.reverse.dropWhile (· = '0')).reverse) : ℚ) *
        10 ^ ((digits.length : Int) - ((digits.reverse.dropWhile (· = '0')).reverse.length : Int)) =
      natural digits := by
  have split : (digits.reverse.dropWhile (· = '0')).reverse ++
      (digits.reverse.takeWhile (· = '0')).reverse = digits := by
    rw [← List.reverse_append, List.takeWhile_append_dropWhile, List.reverse_reverse]
  have blank : (digits.reverse.takeWhile (· = '0')).reverse =
      List.replicate (digits.reverse.takeWhile (· = '0')).length '0' := by
    rw [← List.length_reverse]
    apply List.eq_replicate_of_mem
    intro digit inside
    have zero := List.mem_takeWhile_imp (List.mem_reverse.mp inside)
    exact of_decide_eq_true zero
  have counted := congrArg List.length split
  have mirrored : (digits.reverse.takeWhile (· = '0')).reverse.length =
      (digits.reverse.takeWhile (· = '0')).length := List.length_reverse
  rw [List.length_append, mirrored] at counted
  have valued := congrArg natural split
  rw [blank, natural_append, natural_zeros, Nat.add_zero, List.length_replicate] at valued
  rw [← valued, Nat.cast_mul, Nat.cast_pow, Nat.cast_ofNat, ← zpow_natCast]
  congr 2
  omega

theorem scientificOf_leading {format : Format} {number : ℚ} (positive : 0 < number)
    (held : format.nearest number = .finite number) : Leading (scientificOf format number).1 :=
  leading_rdropWhile
    { inhabited := Nat.toDigits_ne_nil
      digits := fun _ inside => toDigits_digits inside
      first := toDigits_head (Format.shortest_pos positive held) }

/-- The shortest digits denote what reads back. -/
theorem scientificOf_reads {format : Format} {number : ℚ} (positive : 0 < number)
    (held : format.nearest number = .finite number) :
    format.nearest (natural (scientificOf format number).1 *
      10 ^ ((scientificOf format number).2 + 1 - ((scientificOf format number).1.length : Int))) =
        .finite number := by
  have reads := Format.shortest_reads positive held
  rw [Double.power_eq_zpow] at reads
  rw [← reads]
  congr 1
  unfold scientificOf
  dsimp only
  have trimmed := natural_trimmed (Nat.toDigits 10 (format.shortest number).1)
  rw [natural_toDigits] at trimmed
  rw [← trimmed, mul_assoc, Nat.cast_ofNat, ← zpow_add₀ (by norm_num)]
  congr 2
  ring

/-- A number of a format in Java's layout reads back as the very number, its sign too. -/
theorem javaReal_reads {format : Format} {double : Double.Binary64} {number : ℚ}
    (finite : double.magnitude = .finite number) (nonnegative : 0 ≤ number)
    (held : format.nearest number = .finite number) :
    ∃ spelling : Spelling, spelling.Valid ∧ javaReal format double = spelling.text ∧
      spelling.negative = double.negative ∧ format.nearest (|spelling.value|) = .finite number := by
  have signed {text : List Char} {value : ℚ} (denotes : Denotes text value) (some : 0 ≤ value)
      (reads : format.nearest value = .finite number) :
      ∃ spelling : Spelling, spelling.Valid ∧
        (if double.negative then ['-'] else []) ++ text = spelling.text ∧
          spelling.negative = double.negative ∧
          format.nearest (|spelling.value|) = .finite number := by
    obtain ⟨spelling, valid, same, sign, valued⟩ := denotes.signed double.negative
    refine ⟨spelling, valid, same, sign, ?_⟩
    have absolute : |spelling.value| = value := by
      rw [valued]
      cases double.negative with
      | true => rw [if_pos rfl, neg_one_mul, abs_neg, abs_of_nonneg some]
      | false => rw [if_neg Bool.false_ne_true, one_mul, abs_of_nonneg some]
    rw [absolute]
    exact reads
  unfold javaReal
  rw [finite]
  dsimp only
  by_cases zero : number = 0
  · rw [if_pos zero]
    refine @signed "0.0".toList 0 ?_ le_rfl ?_
    · apply (@denotes_digits ['0'] ['0'] none plain_zero (List.cons_ne_nil '0' [])
        (isDigit_singleton rfl) (fun found same => by cases same)).same
      · rfl
      · simp [natural, digitValue]
    · rw [zero]
      exact if_pos rfl
  · rw [if_neg zero]
    have positive := lt_of_le_of_ne nonnegative (Ne.symm zero)
    have leading := scientificOf_leading positive held
    have reads := scientificOf_reads positive held
    have some : (0 : ℚ) ≤ natural (scientificOf format number).1 *
        10 ^ ((scientificOf format number).2 + 1 -
          ((scientificOf format number).1.length : Int)) :=
      mul_nonneg (Nat.cast_nonneg _) (zpow_nonneg (by norm_num) _)
    split
    · exact signed (plainLayout_denotes leading _) some reads
    · have written := signed (scientificLayout_denotes leading (scientificOf format number).2) some
        reads
      simpa only [List.append_assoc] using written

theorem javaReal_point {format : Format} {double : Double.Binary64} {number : ℚ}
    (finite : double.magnitude = .finite number) : '.' ∈ javaReal format double := by
  unfold javaReal
  rw [finite]
  dsimp only
  split
  · simp
  · split
    · apply List.mem_append_right
      unfold plainLayout
      dsimp only
      split
      · simp
      · split <;> simp
    · simp

theorem parseF64_spelling {spelling : Spelling} (valid : spelling.Valid) :
    parseF64 (String.ofList spelling.text) =
      some { negative := spelling.negative, magnitude := Double.nearest (|spelling.value|) } := by
  have stops : Stops [] := by
    intro first head
    cases head
  have scanned := scan_complete valid stops
  rw [List.append_nil] at scanned
  simp only [parseF64, String.toList_ofList, scanned]

/-- A double that is a number reads back as itself. -/
theorem parseF64_javaDouble {double : Double.Binary64} {number : ℚ}
    (finite : double.magnitude = .finite number) (nonnegative : 0 ≤ number)
    (held : binary64.nearest number = .finite number) :
    parseF64 (String.ofList (javaDouble double)) = some double := by
  obtain ⟨spelling, valid, same, sign, reads⟩ := javaReal_reads finite nonnegative held
  rw [← javaReal_double, same, parseF64_spelling valid, sign, ← Binary.binary64_nearest, reads,
    ← finite]

/-- A number written as its double reads as the same double, and is written as it is. -/
theorem numberText_double {spelling : Spelling} (valid : spelling.Valid) :
    parseF64 (String.ofList (numberText .javaDouble (String.ofList spelling.text))) =
        parseF64 (String.ofList spelling.text) ∧
      numberText .javaDouble (String.ofList (numberText .javaDouble (String.ofList spelling.text))) =
        numberText .javaDouble (String.ofList spelling.text) := by
  have read := parseF64_spelling valid
  by_cases marked : (spelling.text.any fun c => c == '.' || c == 'e' || c == 'E') = true
  · cases magnitude : Double.nearest (|spelling.value|) with
    | infinite =>
        have kept : numberText .javaDouble (String.ofList spelling.text) = spelling.text := by
          unfold numberText
          rw [String.toList_ofList, if_pos marked, read, magnitude]
          exact if_pos rfl
        rw [kept]
        exact ⟨rfl, kept⟩
    | finite number =>
        rw [magnitude] at read
        have written {text : List Char} (marks : (text.any fun c => c == '.' || c == 'e' ||
            c == 'E') = true) (reads : parseF64 (String.ofList text) =
              some { negative := spelling.negative, magnitude := .finite number }) :
            numberText .javaDouble (String.ofList text) =
              javaDouble { negative := spelling.negative, magnitude := .finite number } := by
          unfold numberText
          rw [String.toList_ofList, if_pos marks, reads]
          exact if_neg (by intro impossible; cases impossible)
        have back : parseF64 (String.ofList (javaDouble
            { negative := spelling.negative, magnitude := .finite number })) =
              some { negative := spelling.negative, magnitude := .finite number } :=
          parseF64_javaDouble rfl (Double.nearest_nonneg (abs_nonneg _) magnitude)
            (Binary.Format.nearest_nearest (abs_nonneg _) magnitude)
        have point : '.' ∈ javaDouble
            { negative := spelling.negative, magnitude := .finite number } := by
          rw [← javaReal_double]
          exact javaReal_point rfl
        rw [written marked read, back, read]
        exact ⟨rfl, written (List.any_eq_true.mpr ⟨'.', point, rfl⟩) back⟩
  · have kept : numberText .javaDouble (String.ofList spelling.text) = spelling.text := by
      rw [numberText, String.toList_ofList, if_neg marked]
    rw [kept]
    exact ⟨rfl, kept⟩

end Ddi.Jsonval
