/-
The texts of decimal numbers with a fraction and an exponent, and the rationals they denote.
-/

import Mathlib.Algebra.Order.Field.Rat
import Mathlib.Data.Rat.Cast.Order
import Mathlib.Tactic.Common
import Mathlib.Tactic.IntervalCases
import Mathlib.Tactic.Ring

namespace NumberText

structure Exponent where
  mark : Char
  sign : Option Char
  digits : List Char
  deriving DecidableEq

/-- The parts of a number's text. -/
structure Spelling where
  negative : Bool
  whole : List Char
  fraction : Option (List Char)
  exponent : Option Exponent
  deriving DecidableEq

namespace Exponent

def text (exponent : Exponent) : List Char :=
  exponent.mark :: (exponent.sign.toList ++ exponent.digits)

structure Valid (exponent : Exponent) : Prop where
  mark : exponent.mark = 'e' ∨ exponent.mark = 'E'
  sign : ∀ sign, exponent.sign = some sign → sign = '+' ∨ sign = '-'
  some : exponent.digits ≠ []
  digits : ∀ digit ∈ exponent.digits, digit.isDigit = true

end Exponent

def digitValue (digit : Char) : Nat := digit.toNat - 48

theorem isDigit_singleton {first : Char} (isDigit : first.isDigit = true) :
    ∀ digit ∈ [first], digit.isDigit = true := by
  intro digit inside
  rw [List.mem_singleton.mp inside]
  exact isDigit

/-- The number that digits spell, the first one first. -/
def natural (digits : List Char) : Nat :=
  digits.foldl (fun number digit => 10 * number + digitValue digit) 0

def Exponent.value (exponent : Exponent) : Int :=
  if exponent.sign = some '-' then -(natural exponent.digits : Int) else natural exponent.digits

namespace Spelling

def text (spelling : Spelling) : List Char :=
  (if spelling.negative then ['-'] else []) ++ spelling.whole ++
    (spelling.fraction.elim [] fun digits => '.' :: digits) ++
    spelling.exponent.elim [] Exponent.text

/-- The grammar of a number: no leading zero, and digits wherever a mark asks for them. -/
structure Valid (spelling : Spelling) : Prop where
  whole : spelling.whole ≠ []
  digits : ∀ digit ∈ spelling.whole, digit.isDigit = true
  leading : spelling.whole.head? = some '0' → spelling.whole = ['0']
  fraction : ∀ digits, spelling.fraction = some digits →
    digits ≠ [] ∧ ∀ digit ∈ digits, digit.isDigit = true
  exponent : ∀ exponent, spelling.exponent = some exponent → exponent.Valid

/-- The rational that a text denotes. -/
def value (spelling : Spelling) : ℚ :=
  (if spelling.negative then -1 else 1) *
    (natural (spelling.whole ++ spelling.fraction.getD []) : ℚ) *
    10 ^ (spelling.exponent.elim 0 Exponent.value - ((spelling.fraction.getD []).length : Int))

end Spelling

def Spelling.digits (spelling : Spelling) : List Char :=
  spelling.whole ++ spelling.fraction.getD []

/-- How many of the digits are tenths, where the exponent moves the point. -/
def Spelling.scale (spelling : Spelling) : Int :=
  (spelling.fraction.getD []).length - spelling.exponent.elim 0 Exponent.value

theorem value_eq (spelling : Spelling) :
    spelling.value = (if spelling.negative then -1 else 1) * (natural spelling.digits : ℚ) *
      10 ^ (-spelling.scale) := by
  unfold Spelling.scale
  rw [neg_sub]
  rfl

theorem natural_append (first second : List Char) :
    natural (first ++ second) = natural first * 10 ^ second.length + natural second := by
  have shifted (start : Nat) : second.foldl (fun number digit => 10 * number + digitValue digit)
      start = start * 10 ^ second.length + natural second := by
    unfold natural
    induction second generalizing start with
    | nil => simp
    | cons digit second inductionHypothesis =>
        rw [List.foldl_cons, List.foldl_cons, inductionHypothesis, inductionHypothesis (10 * 0 + _),
          List.length_cons, Nat.pow_succ]
        ring
  rw [natural, List.foldl_append]
  exact shifted _

theorem natural_zeros (count : Nat) : natural (List.replicate count '0') = 0 := by
  induction count with
  | zero => rfl
  | succ count inductionHypothesis =>
      rw [List.replicate_succ', natural_append, inductionHypothesis]
      rfl

theorem natural_toDigits (number : Nat) : natural (Nat.toDigits 10 number) = number :=
  Nat.ofDigitChars_ten_toDigits

theorem toDigits_digits {number : Nat} {digit : Char} (inside : digit ∈ Nat.toDigits 10 number) :
    digit.isDigit = true := Nat.isDigit_of_mem_toDigits (by decide) (by decide) inside

/-- Only zero is written with a leading zero. -/
theorem toDigits_head {number : Nat} (positive : 0 < number) :
    (Nat.toDigits 10 number).head? ≠ some '0' := by
  induction number using Nat.strongRecOn with
  | ind number inductionHypothesis =>
      rw [Nat.toDigits_eq_if (by decide)]
      split
      · next small =>
        interval_cases number <;> decide
      · next large =>
        have smaller : number / 10 < number := Nat.div_lt_self positive (by decide)
        have left : 0 < number / 10 := Nat.div_pos (Nat.le_of_not_lt large) (by decide)
        have held := inductionHypothesis _ smaller left
        cases digits : Nat.toDigits 10 (number / 10) with
        | nil => exact (Nat.toDigits_ne_nil digits).elim
        | cons first rest =>
            rw [digits] at held
            exact held

theorem negative_of_value (spelling : Spelling) (nonzero : spelling.value ≠ 0) :
    spelling.negative = decide (spelling.value < 0) := by
  unfold Spelling.value at nonzero ⊢
  have scaled : (0 : ℚ) <
      10 ^ (spelling.exponent.elim 0 Exponent.value - ((spelling.fraction.getD []).length : Int)) :=
    zpow_pos (by decide) _
  have counted : (0 : ℚ) ≤ (natural (spelling.whole ++ spelling.fraction.getD []) : ℚ) :=
    Nat.cast_nonneg _
  cases negative : spelling.negative with
  | true =>
      have positive : (0 : ℚ) < (natural (spelling.whole ++ spelling.fraction.getD []) : ℚ) := by
        apply lt_of_le_of_ne counted
        intro zero
        rw [← zero] at nonzero
        simp at nonzero
      symm
      rw [decide_eq_true_eq, if_pos rfl, neg_one_mul, neg_mul]
      exact neg_lt_zero.mpr (mul_pos positive scaled)
  | false =>
      symm
      rw [decide_eq_false_iff_not, not_lt, if_neg (by decide), one_mul]
      exact mul_nonneg counted scaled.le

/-! ### Reading -/

inductive Fault
  | leadingZero
  | noDigits
  | noFraction
  | noExponent
  deriving DecidableEq

def digitsOf (text : List Char) : List Char := text.takeWhile (·.isDigit)

def afterDigits (text : List Char) : List Char := text.dropWhile (·.isDigit)

def scanWhole (text : List Char) : Except Fault (List Char × List Char) :=
  if text.head? = some '0' then
    if (digitsOf text.tail).isEmpty then .ok (['0'], text.tail) else .error .leadingZero
  else if (digitsOf text).isEmpty then .error .noDigits
  else .ok (digitsOf text, afterDigits text)

def scanFraction (text : List Char) : Except Fault (Option (List Char) × List Char) :=
  if text.head? = some '.' then
    if (digitsOf text.tail).isEmpty then .error .noFraction
    else .ok (some (digitsOf text.tail), afterDigits text.tail)
  else .ok (none, text)

def scanSign (text : List Char) : Option Char × List Char :=
  match text with
  | first :: rest => if first = '+' ∨ first = '-' then (some first, rest) else (none, text)
  | [] => (none, [])

def scanExponent (text : List Char) : Except Fault (Option Exponent × List Char) :=
  match text with
  | mark :: rest =>
      if mark = 'e' ∨ mark = 'E' then
        let signed := scanSign rest
        if (digitsOf signed.2).isEmpty then .error .noExponent
        else
          .ok (some { mark, sign := signed.1, digits := digitsOf signed.2 }, afterDigits signed.2)
      else .ok (none, text)
  | [] => .ok (none, [])

/-- The longest number that a text begins with, and the rest. -/
def scan (text : List Char) : Except Fault (Spelling × List Char) := do
  let negative := text.head? == some '-'
  let (whole, text) ← scanWhole (if negative then text.tail else text)
  let (fraction, text) ← scanFraction text
  let (exponent, text) ← scanExponent text
  return ({ negative, whole, fraction, exponent }, text)

/-- The rational of a text that is a number and nothing else. -/
def valueOf (text : List Char) : Option ℚ :=
  match scan text with
  | .ok (spelling, []) => some spelling.value
  | _ => none

/-! ### What a scan finds -/

theorem digits_split (text : List Char) : digitsOf text ++ afterDigits text = text :=
  List.takeWhile_append_dropWhile

theorem digitsOf_digits {text : List Char} {digit : Char} (inside : digit ∈ digitsOf text) :
    digit.isDigit = true := by
  have all := List.all_takeWhile (p := fun digit : Char => digit.isDigit) (l := text)
  exact List.all_eq_true.mp all digit inside

theorem digitsOf_append {digits rest : List Char} (all : ∀ digit ∈ digits, digit.isDigit = true)
    (stops : ∀ first, rest.head? = some first → first.isDigit = false) :
    digitsOf (digits ++ rest) = digits ∧ afterDigits (digits ++ rest) = rest := by
  have ends : digitsOf rest = [] ∧ afterDigits rest = rest := by
    cases rest with
    | nil => exact ⟨rfl, rfl⟩
    | cons first tail => simp [digitsOf, afterDigits, stops first rfl]
  constructor
  · unfold digitsOf at ends ⊢
    rw [List.takeWhile_append_of_pos all, ends.1, List.append_nil]
  · unfold afterDigits at ends ⊢
    rw [List.dropWhile_append_of_pos all, ends.2]

theorem scanWhole_sound {text whole rest : List Char}
    (scanned : scanWhole text = .ok (whole, rest)) :
    text = whole ++ rest ∧ whole ≠ [] ∧ (∀ digit ∈ whole, digit.isDigit = true) ∧
      (whole.head? = some '0' → whole = ['0']) := by
  unfold scanWhole at scanned
  split at scanned
  · next zero =>
    split at scanned
    · cases scanned
      cases text with
      | nil => cases zero
      | cons first tail =>
          cases Option.some.inj zero
          refine ⟨rfl, List.cons_ne_nil _ _, ?_, fun _ => rfl⟩
          intro digit inside
          rw [List.mem_singleton.mp inside]
          rfl
    · cases scanned
  · next notZero =>
    split at scanned
    · cases scanned
    · next found =>
      cases scanned
      have inhabited : digitsOf text ≠ [] := by simpa using found
      refine ⟨(digits_split text).symm, inhabited, fun digit => digitsOf_digits, ?_⟩
      intro zero
      cases text with
      | nil => exact (inhabited rfl).elim
      | cons first tail =>
          have head : (digitsOf (first :: tail)).head? = some first := by
            unfold digitsOf at inhabited ⊢
            rw [List.takeWhile_cons] at inhabited ⊢
            split at inhabited
            · next digit => simp [digit]
            · exact (inhabited rfl).elim
          rw [head] at zero
          exact (notZero zero).elim

theorem scanWhole_complete {whole rest : List Char} (inhabited : whole ≠ [])
    (all : ∀ digit ∈ whole, digit.isDigit = true)
    (leading : whole.head? = some '0' → whole = ['0'])
    (stops : ∀ first, rest.head? = some first → first.isDigit = false) :
    scanWhole (whole ++ rest) = .ok (whole, rest) := by
  obtain ⟨found, after⟩ := digitsOf_append all stops
  have head : (whole ++ rest).head? = whole.head? := by
    cases whole with
    | nil => exact (inhabited rfl).elim
    | cons first tail => rfl
  unfold scanWhole
  rw [head]
  split
  · next zero =>
    rw [leading zero]
    have noDigits : ∀ digit ∈ ([] : List Char), digit.isDigit = true := by simp
    have none := (digitsOf_append noDigits stops).1
    rw [List.nil_append] at none
    simp [none]
  · rw [found, after]
    simp [inhabited]

theorem scanFraction_sound {text rest : List Char} {fraction : Option (List Char)}
    (scanned : scanFraction text = .ok (fraction, rest)) :
    text = (fraction.elim [] fun digits => '.' :: digits) ++ rest ∧
      ∀ digits, fraction = some digits → digits ≠ [] ∧ ∀ digit ∈ digits, digit.isDigit = true := by
  unfold scanFraction at scanned
  split at scanned
  · next point =>
    split at scanned
    · cases scanned
    · next found =>
      cases scanned
      cases text with
      | nil => cases point
      | cons first tail =>
          cases Option.some.inj point
          refine ⟨congrArg (List.cons '.') (digits_split tail).symm, ?_⟩
          intro digits same
          cases same
          exact ⟨by simpa using found, fun digit => digitsOf_digits⟩
  · cases scanned
    exact ⟨rfl, fun digits same => by cases same⟩

theorem scanFraction_complete {fraction : Option (List Char)} {rest : List Char}
    (valid : ∀ digits, fraction = some digits →
      digits ≠ [] ∧ ∀ digit ∈ digits, digit.isDigit = true)
    (stops : ∀ first, rest.head? = some first → first.isDigit = false ∧ first ≠ '.') :
    scanFraction ((fraction.elim [] fun digits => '.' :: digits) ++ rest) =
      .ok (fraction, rest) := by
  cases fraction with
  | none =>
      have noPoint : rest.head? ≠ some '.' := fun point => (stops '.' point).2 rfl
      simp [scanFraction, noPoint]
  | some digits =>
      obtain ⟨inhabited, all⟩ := valid digits rfl
      obtain ⟨found, after⟩ := digitsOf_append all fun first head => (stops first head).1
      simp [scanFraction, found, after, inhabited]

theorem scanSign_sound (text : List Char) :
    text = (scanSign text).1.toList ++ (scanSign text).2 ∧
      ∀ sign, (scanSign text).1 = some sign → sign = '+' ∨ sign = '-' := by
  unfold scanSign
  split
  · next first rest =>
    split
    · next sign => exact ⟨rfl, fun found same => by cases same; exact sign⟩
    · exact ⟨rfl, fun found same => by cases same⟩
  · exact ⟨rfl, fun found same => by cases same⟩

theorem scanSign_complete {sign : Option Char} {digits : List Char}
    (signs : ∀ found, sign = some found → found = '+' ∨ found = '-') (inhabited : digits ≠ [])
    (all : ∀ digit ∈ digits, digit.isDigit = true) (rest : List Char) :
    scanSign (sign.toList ++ (digits ++ rest)) = (sign, digits ++ rest) := by
  cases sign with
  | some found => simp [scanSign, signs found rfl]
  | none =>
      cases digits with
      | nil => exact (inhabited rfl).elim
      | cons first tail =>
          have digit := all first List.mem_cons_self
          have unsigned : ¬(first = '+' ∨ first = '-') := by
            intro signed
            cases signed with
            | inl plus => rw [plus] at digit; exact absurd digit (by decide)
            | inr minus => rw [minus] at digit; exact absurd digit (by decide)
          simp [scanSign, unsigned]

theorem scanExponent_sound {text rest : List Char} {exponent : Option Exponent}
    (scanned : scanExponent text = .ok (exponent, rest)) :
    text = exponent.elim [] Exponent.text ++ rest ∧
      ∀ found, exponent = some found → found.Valid := by
  unfold scanExponent at scanned
  split at scanned
  · next mark tail =>
    split at scanned
    · next marked =>
      obtain ⟨signed, signs⟩ := scanSign_sound tail
      dsimp only at scanned
      split at scanned
      · cases scanned
      · next inhabited =>
        cases scanned
        constructor
        · simp only [Option.elim_some, Exponent.text, List.cons_append, List.append_assoc]
          rw [digits_split, ← signed]
        · intro found same
          cases same
          exact
            { mark := marked
              sign := signs
              some := by simpa using inhabited
              digits := fun digit => digitsOf_digits }
    · cases scanned
      exact ⟨rfl, fun found same => by cases same⟩
  · cases scanned
    exact ⟨rfl, fun found same => by cases same⟩

theorem scanExponent_complete {exponent : Option Exponent} {rest : List Char}
    (valid : ∀ found, exponent = some found → found.Valid)
    (stops : ∀ first, rest.head? = some first →
      first.isDigit = false ∧ first ≠ 'e' ∧ first ≠ 'E') :
    scanExponent (exponent.elim [] Exponent.text ++ rest) = .ok (exponent, rest) := by
  cases exponent with
  | none =>
      cases rest with
      | nil => rfl
      | cons first tail =>
          obtain ⟨_, noSmall, noLarge⟩ := stops first rfl
          simp [scanExponent, noSmall, noLarge]
  | some exponent =>
      have good := valid exponent rfl
      obtain ⟨found, after⟩ := digitsOf_append good.digits fun first head => (stops first head).1
      have signed := scanSign_complete good.sign good.some good.digits rest
      simp [scanExponent, Exponent.text, good.mark, signed, found, after, good.some]

theorem scan_sound {text rest : List Char} {spelling : Spelling}
    (scanned : scan text = .ok (spelling, rest)) :
    spelling.Valid ∧ text = spelling.text ++ rest := by
  unfold scan at scanned
  simp only [bind, Except.bind, pure, Except.pure] at scanned
  split at scanned
  · cases scanned
  · next whole scannedWhole =>
    split at scanned
    · cases scanned
    · next fraction scannedFraction =>
      split at scanned
      · cases scanned
      · next exponent scannedExponent =>
        cases scanned
        obtain ⟨textWhole, inhabited, digits, leading⟩ := scanWhole_sound scannedWhole
        obtain ⟨textFraction, validFraction⟩ := scanFraction_sound scannedFraction
        obtain ⟨textExponent, validExponent⟩ := scanExponent_sound scannedExponent
        refine ⟨⟨inhabited, digits, leading, validFraction, validExponent⟩, ?_⟩
        have tail : (if (text.head? == some '-') = true then text.tail else text) =
            whole.1 ++ ((fraction.1.elim [] fun digits => '.' :: digits) ++
              (exponent.1.elim [] Exponent.text ++ exponent.2)) := by
          rw [textWhole, textFraction, textExponent]
        simp only [Spelling.text, List.append_assoc]
        rw [← tail]
        cases text with
        | nil => rfl
        | cons first others =>
            by_cases minus : first = '-'
            · simp [minus]
            · simp [minus]

/-- A text that a number does not go on into. -/
def Stops (rest : List Char) : Prop :=
  ∀ first, rest.head? = some first →
    first.isDigit = false ∧ first ≠ '.' ∧ first ≠ 'e' ∧ first ≠ 'E'

theorem Exponent.head_of_text {exponent : Exponent} (valid : exponent.Valid) (rest : List Char)
    {first : Char} (head : (exponent.text ++ rest).head? = some first) :
    first.isDigit = false ∧ first ≠ '.' := by
  cases Option.some.inj head
  obtain small | large := valid.mark
  · rw [small]; decide
  · rw [large]; decide

theorem stops_exponent {exponent : Option Exponent} {rest : List Char}
    (valid : ∀ found, exponent = some found → found.Valid) (stops : Stops rest) {first : Char}
    (head : (exponent.elim [] Exponent.text ++ rest).head? = some first) :
    first.isDigit = false ∧ first ≠ '.' := by
  cases exponent with
  | none => exact ⟨(stops first head).1, (stops first head).2.1⟩
  | some exponent => exact Exponent.head_of_text (valid exponent rfl) rest head

theorem stops_fraction {fraction : Option (List Char)} {rest : List Char}
    (stops : ∀ first, rest.head? = some first → first.isDigit = false) {first : Char}
    (head : ((fraction.elim [] fun digits => '.' :: digits) ++ rest).head? = some first) :
    first.isDigit = false := by
  cases fraction with
  | none => exact stops first head
  | some digits =>
      cases Option.some.inj head
      rfl

theorem digit_head {whole : List Char} (inhabited : whole ≠ [])
    (digits : ∀ digit ∈ whole, digit.isDigit = true) (rest : List Char) :
    ∃ first, (whole ++ rest).head? = some first ∧ first.isDigit = true := by
  cases whole with
  | nil => exact (inhabited rfl).elim
  | cons first tail => exact ⟨first, rfl, digits first List.mem_cons_self⟩

/-- A number is read whole wherever what follows cannot go on with it. -/
theorem scan_complete {spelling : Spelling} {rest : List Char} (valid : spelling.Valid)
    (stops : Stops rest) : scan (spelling.text ++ rest) = .ok (spelling, rest) := by
  obtain ⟨negative, whole, fraction, exponent⟩ := spelling
  have exponentStops := fun first => @stops_exponent _ _ valid.exponent stops first
  have scannedWhole := scanWhole_complete valid.whole valid.digits valid.leading
    fun first => @stops_fraction fraction _ (fun next head => (exponentStops next head).1) first
  have scannedFraction := scanFraction_complete valid.fraction exponentStops
  have scannedExponent := scanExponent_complete valid.exponent fun first head =>
    ⟨(stops first head).1, (stops first head).2.2⟩
  dsimp only at scannedWhole scannedFraction scannedExponent
  have unsigned :
      scan ((if negative then ['-'] else []) ++ (whole ++
        ((fraction.elim [] fun digits => '.' :: digits) ++
          (exponent.elim [] Exponent.text ++ rest)))) =
        .ok ({ negative, whole, fraction, exponent }, rest) := by
    cases negative with
    | true =>
        simp [scan, bind, Except.bind, pure, Except.pure, scannedWhole, scannedFraction,
          scannedExponent]
    | false =>
        obtain ⟨first, head, digit⟩ := digit_head valid.whole valid.digits
          ((fraction.elim [] fun digits => '.' :: digits) ++
            (exponent.elim [] Exponent.text ++ rest))
        have notMinus : first ≠ '-' := by
          intro minus
          rw [minus] at digit
          exact absurd digit (by decide)
        dsimp only at head
        simp [scan, bind, Except.bind, pure, Except.pure, scannedWhole, scannedFraction,
          scannedExponent, head, notMinus]
  simpa [Spelling.text] using unsigned

theorem valueOf_text {spelling : Spelling} (valid : spelling.Valid) :
    valueOf spelling.text = some spelling.value := by
  have stops : Stops [] := by
    intro first head
    cases head
  have scanned := scan_complete valid stops
  rw [List.append_nil] at scanned
  simp [valueOf, scanned]

end NumberText
