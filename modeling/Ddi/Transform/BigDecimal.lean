/-
Java's spellings of a number: both are numbers of the grammar, and `BigDecimal`'s denotes the same
rational and is spelt as it is.
-/

import Ddi.Transform.Jsonval
import Mathlib.Data.List.DropRight

namespace Ddi.Jsonval

open NumberText

/-! ### Digits -/

/-- Digits as they are written before a point. -/
structure Plain (whole : List Char) : Prop where
  inhabited : whole ≠ []
  digits : ∀ digit ∈ whole, digit.isDigit = true
  leading : whole.head? = some '0' → whole = ['0']

/-- Digits without the zeros that lead them. -/
def stripped (digits : List Char) : List Char :=
  if (digits.dropWhile (· = '0')).isEmpty then ['0'] else digits.dropWhile (· = '0')

theorem plain_zero : Plain ['0'] where
  inhabited := List.cons_ne_nil _ _
  digits := isDigit_singleton rfl
  leading := fun _ => rfl

theorem stripped_plain {digits : List Char} (all : ∀ digit ∈ digits, digit.isDigit = true) :
    Plain (stripped digits) := by
  unfold stripped
  split
  · exact plain_zero
  · next some =>
    refine ⟨by simpa using some, ?_, ?_⟩
    · exact fun digit inside => all digit ((List.dropWhile_sublist _).subset inside)
    · intro zero
      have first := List.head?_dropWhile_not (fun digit => decide (digit = '0')) digits
      rw [zero] at first
      simp at first

theorem dropWhile_zeros (count : Nat) (digits : List Char) :
    (zeros count ++ digits).dropWhile (· = '0') = digits.dropWhile (· = '0') := by
  induction count with
  | zero => rfl
  | succ count inductionHypothesis =>
      rw [zeros, List.replicate_succ, List.cons_append, List.dropWhile_cons]
      exact inductionHypothesis

/-- Zeros ahead of digits are stripped again. -/
theorem stripped_zeros {digits : List Char} (plain : Plain digits) (count : Nat) :
    stripped (zeros count ++ digits) = digits := by
  unfold stripped
  rw [dropWhile_zeros]
  by_cases zero : digits.head? = some '0'
  · rw [plain.leading zero]
    rfl
  · cases digits with
    | nil => exact (plain.inhabited rfl).elim
    | cons first rest =>
        have notZero : first ≠ '0' := fun same => zero (by rw [same]; rfl)
        simp [notZero]

theorem stripped_self {digits : List Char} (plain : Plain digits) : stripped digits = digits :=
  stripped_zeros plain 0

theorem natural_stripped (digits : List Char) : natural (stripped digits) = natural digits := by
  have dropped : natural (digits.dropWhile (· = '0')) = natural digits := by
    induction digits with
    | nil => rfl
    | cons first rest inductionHypothesis =>
        rw [List.dropWhile_cons]
        split
        · next zero =>
          rw [inductionHypothesis, of_decide_eq_true zero, ← List.singleton_append, natural_append]
          simp [natural, digitValue]
        · rfl
  unfold stripped
  split
  · next none =>
    rw [List.isEmpty_iff.mp none] at dropped
    rw [← dropped]
    rfl
  · exact dropped

/-! ### The layout -/

def powerText (number : Int) : Exponent where
  mark := 'E'
  sign := some (if 0 ≤ number then '+' else '-')
  digits := Nat.toDigits 10 number.natAbs

theorem powerText_valid (number : Int) : (powerText number).Valid where
  mark := Or.inr rfl
  sign := by
    intro sign same
    cases same
    split
    · exact Or.inl rfl
    · exact Or.inr rfl
  some := Nat.toDigits_ne_nil
  digits := fun digit inside => toDigits_digits inside

theorem powerText_value (number : Int) : (powerText number).value = number := by
  unfold Exponent.value powerText
  dsimp only
  rw [natural_toDigits]
  by_cases positive : 0 ≤ number
  · rw [if_pos positive, if_neg (by decide)]
    omega
  · rw [if_neg positive, if_pos rfl]
    omega

theorem intText_natAbs (number : Int) :
    intText number =
      (if 0 ≤ number then [] else ['-']) ++ Nat.toDigits 10 number.natAbs := by
  cases number with
  | ofNat number =>
      have positive : 0 ≤ Int.ofNat number := Int.natCast_nonneg number
      rw [if_pos positive]
      exact Nat.toList_repr
  | negSucc number =>
      rw [if_neg (by omega)]
      have written : intText (Int.negSucc number) = ("-" ++ Nat.repr (number + 1)).toList := rfl
      rw [written, String.toList_append, Nat.toList_repr]
      rfl

theorem powerText_text (number : Int) :
    (powerText number).text =
      'E' :: (if 0 ≤ number then '+' :: intText number else intText number) := by
  rw [intText_natAbs]
  unfold Exponent.text powerText
  split <;> rfl

/-- The adjusted exponent of the digits. -/
def adjusted (digits : List Char) (scale : Int) : Int := -scale + ((digits.length : Int) - 1)

/-- What `BigDecimal` spells digits and a scale as. -/
def layout (negative : Bool) (digits : List Char) (scale : Int) : Spelling :=
  let negative := negative && digits != ['0']
  if scale = 0 then { negative, whole := digits, fraction := none, exponent := none }
  else if 0 < scale ∧ -6 ≤ adjusted digits scale then
    if scale < digits.length then
      { negative
        whole := digits.take (digits.length - scale).toNat
        fraction := some (digits.drop (digits.length - scale).toNat)
        exponent := none }
    else
      { negative
        whole := ['0']
        fraction := some (zeros (scale - digits.length).toNat ++ digits)
        exponent := none }
  else
    { negative
      whole := digits.take 1
      fraction := if digits.tail.isEmpty then none else some digits.tail
      exponent := some (powerText (adjusted digits scale)) }

theorem javaBigdecimal_layout (negative : Bool) (digits : List Char) (scale : Int) :
    javaBigdecimal negative digits scale = (layout negative (stripped digits) scale).text := by
  simp only [javaBigdecimal, layout]
  generalize same : (if (digits.dropWhile (· = '0')).isEmpty = true then ['0']
    else digits.dropWhile (· = '0')) = held
  change stripped digits = held at same
  rw [same]
  simp only [adjusted]
  generalize (negative && held != ['0']) = sign
  by_cases zero : scale = 0
  · simp only [zero, if_true, Spelling.text, Option.elim_none, List.append_nil]
  · by_cases plainly : 0 < scale ∧ -6 ≤ -scale + ((held.length : Int) - 1)
    · by_cases short : scale < held.length
      · simp only [if_neg zero, if_pos plainly, if_pos short, Spelling.text, Option.elim_none,
          Option.elim_some, List.append_nil, List.append_assoc]
      · simp only [if_neg zero, if_pos plainly, if_neg short, Spelling.text, Option.elim_none,
          Option.elim_some, List.append_nil, List.append_assoc, List.singleton_append]
    · by_cases none : held.tail.isEmpty = true
      · simp only [if_neg zero, if_neg plainly, if_pos none, Spelling.text, Option.elim_none,
          Option.elim_some, powerText_text, List.append_nil, List.append_assoc]
      · simp only [if_neg zero, if_neg plainly, if_neg none, Spelling.text, Option.elim_some,
          powerText_text, List.append_assoc, List.cons_append]

/-- A layout is a number of the grammar. -/
theorem layout_valid {digits : List Char} (plain : Plain digits) (negative : Bool) (scale : Int) :
    (layout negative digits scale).Valid := by
  have noFraction : ∀ found : List Char, (none : Option (List Char)) = some found →
      found ≠ [] ∧ ∀ digit ∈ found, digit.isDigit = true := fun found same => by cases same
  have noExponent : ∀ found : Exponent, (none : Option Exponent) = some found → found.Valid :=
    fun found same => by cases same
  unfold layout
  dsimp only
  split
  · exact ⟨plain.inhabited, plain.digits, plain.leading, noFraction, noExponent⟩
  · next scaled =>
    split
    · next plainly =>
      split
      · next short =>
        have front : (digits.length - scale).toNat ≠ 0 := by omega
        have inside : (digits.length - scale).toNat < digits.length := by omega
        refine ⟨?_, fun digit among => plain.digits digit (List.mem_of_mem_take among), ?_, ?_,
          noExponent⟩
        · intro none
          rcases List.take_eq_nil_iff.mp none with zero | empty
          · exact front zero
          · exact plain.inhabited empty
        · intro zero
          rw [List.head?_take, if_neg front] at zero
          have single := plain.leading zero
          rw [single] at inside front
          exact absurd inside (by simp only [List.length_singleton] at *; omega)
        · intro found same
          cases same
          refine ⟨?_, fun digit among => plain.digits digit (List.mem_of_mem_drop among)⟩
          intro none
          have counted := congrArg List.length none
          rw [List.length_drop] at counted
          simp only [List.length_nil] at counted
          omega
      · refine ⟨plain_zero.inhabited, plain_zero.digits, plain_zero.leading, ?_, noExponent⟩
        intro found same
        cases same
        constructor
        · intro none
          exact plain.inhabited (List.append_eq_nil_iff.mp none).2
        · intro digit among
          rcases List.mem_append.mp among with zero | held
          · rw [(List.mem_replicate.mp zero).2]
            rfl
          · exact plain.digits digit held
    · refine ⟨?_, fun digit among => plain.digits digit (List.mem_of_mem_take among), ?_, ?_, ?_⟩
      · intro none
        rcases List.take_eq_nil_iff.mp none with zero | empty
        · cases zero
        · exact plain.inhabited empty
      · intro zero
        rw [List.head?_take, if_neg (by decide)] at zero
        rw [plain.leading zero]
        rfl
      · intro found same
        split at same
        · cases same
        · next some =>
          cases same
          exact ⟨by simpa using some, fun digit among => plain.digits digit (List.mem_of_mem_tail among)⟩
      · intro found same
        cases same
        exact powerText_valid _

/-- The digits of a layout are its digits, with zeros ahead where there are not enough. -/
theorem layout_digits {digits : List Char} (plain : Plain digits) (negative : Bool) (scale : Int) :
    stripped (layout negative digits scale).digits = digits := by
  unfold layout Spelling.digits
  dsimp only
  split
  · rw [Option.getD_none, List.append_nil]
    exact stripped_self plain
  · split
    · split
      · rw [Option.getD_some, List.take_append_drop]
        exact stripped_self plain
      · rw [Option.getD_some]
        exact stripped_zeros plain (Nat.succ _)
    · have whole : digits.take 1 ++ digits.tail = digits := by
        cases digits with
        | nil => rfl
        | cons first rest => rfl
      have rest : (if digits.tail.isEmpty = true then none else some digits.tail).getD [] =
          digits.tail := by
        split
        · next none => exact (List.isEmpty_iff.mp none).symm
        · rfl
      rw [rest, whole]
      exact stripped_self plain

theorem layout_scale {digits : List Char} (plain : Plain digits) (negative : Bool) (scale : Int) :
    (layout negative digits scale).scale = scale := by
  have counted : 0 < digits.length := List.length_pos_iff.mpr plain.inhabited
  unfold layout Spelling.scale
  dsimp only
  split
  · next zero =>
    rw [zero]
    rfl
  · split
    · next plainly =>
      split
      · next short =>
        simp only [Option.getD_some, Option.elim_none, List.length_drop]
        omega
      · next long =>
        simp only [Option.getD_some, Option.elim_none, List.length_append, zeros,
          List.length_replicate]
        omega
    · have rest : (if digits.tail.isEmpty = true then none else some digits.tail).getD [] =
          digits.tail := by
        split
        · next none => exact (List.isEmpty_iff.mp none).symm
        · rfl
      rw [rest, Option.elim_some, powerText_value, adjusted, List.length_tail]
      omega

theorem layout_negative (negative : Bool) (digits : List Char) (scale : Int) :
    (layout negative digits scale).negative = (negative && digits != ['0']) := by
  unfold layout
  dsimp only
  split
  · rfl
  · split
    · split <;> rfl
    · rfl

/-- A layout denotes its digits at their scale. -/
theorem layout_value {digits : List Char} (plain : Plain digits) (negative : Bool) (scale : Int) :
    (layout negative digits scale).value =
      (if negative then -1 else 1) * (natural digits : ℚ) * 10 ^ (-scale) := by
  have counted := natural_stripped (layout negative digits scale).digits
  rw [layout_digits plain] at counted
  rw [value_eq, layout_scale plain, layout_negative, ← counted]
  cases negative with
  | false => rfl
  | true =>
      by_cases zero : digits = ['0']
      · rw [zero]
        simp [natural, digitValue]
      · simp [zero]

/-! ### From the text -/

theorem splitOnce_mark {cut : Char → Bool} {before : List Char} {c : Char} {after : List Char}
    (clear : ∀ c ∈ before, cut c = false) (mark : cut c = true) :
    splitOnce cut (before ++ c :: after) = some (before, after) := by
  have passed : ∀ c ∈ before, (!cut c) = true := fun c inside => by rw [clear c inside]; rfl
  unfold splitOnce
  rw [List.dropWhile_append_of_pos passed, List.takeWhile_append_of_pos passed,
    List.dropWhile_cons, List.takeWhile_cons, mark]
  simp

theorem splitOnce_none {cut : Char → Bool} {text : List Char} (clear : ∀ c ∈ text, cut c = false) :
    splitOnce cut text = none := by
  have passed : ∀ c ∈ text, (!cut c) = true := fun c inside => by rw [clear c inside]; rfl
  have dropped := @List.dropWhile_append_of_pos _ _ text [] passed
  rw [List.append_nil, List.dropWhile_nil] at dropped
  unfold splitOnce
  rw [dropped]

theorem parseDigits_digits {digits : List Char} (inhabited : digits ≠ [])
    (all : ∀ digit ∈ digits, digit.isDigit = true) :
    parseDigits digits = some (natural digits) := by
  unfold parseDigits
  have none : (digits.any fun digit => !digit.isDigit) = false := by
    rw [List.any_eq_false]
    intro digit inside
    simp [all digit inside]
  rw [none, Bool.or_false, if_neg (by simpa using inhabited)]

theorem digit_ne {digit other : Char} (isDigit : digit.isDigit = true) (not : other.isDigit = false) :
    digit ≠ other := by
  intro same
  rw [same, not] at isDigit
  cases isDigit

/-- The exponents that Java's `BigDecimal` takes. -/
def InRange (number : Int) : Prop := -2 ^ 31 ≤ number ∧ number < 2 ^ 31

instance (number : Int) : Decidable (InRange number) :=
  inferInstanceAs (Decidable (_ ∧ _))

theorem parseI32_exponent {exponent : Exponent} (valid : exponent.Valid) :
    parseI32 (exponent.sign.toList ++ exponent.digits) =
      if InRange exponent.value then some exponent.value else none := by
  obtain ⟨mark, sign, digits⟩ := exponent
  obtain ⟨_, signs, inhabited, all⟩ := valid
  dsimp only at signs inhabited all ⊢
  have read := parseDigits_digits inhabited all
  have filtered (number : Int) :
      (some number).filter (fun number => -2 ^ 31 ≤ number && number < 2 ^ 31) =
        if InRange number then some number else none := by
    by_cases fits : InRange number
    · rw [if_pos fits, Option.filter_some, if_pos (by simpa [InRange] using fits)]
    · rw [if_neg fits, Option.filter_some, if_neg (by simpa [InRange] using fits)]
  cases sign with
  | some sign =>
      rcases signs sign rfl with plus | minus
      · have unfolded : parseI32 ('+' :: digits) =
            ((parseDigits digits).map fun (number : Nat) => (number : Int)).filter
              fun number => -2 ^ 31 ≤ number && number < 2 ^ 31 := rfl
        rw [plus, Option.toList_some, List.singleton_append, unfolded, read, Option.map_some, filtered]
        simp [Exponent.value]
      · have unfolded : parseI32 ('-' :: digits) =
            ((parseDigits digits).map fun (number : Nat) => -(number : Int)).filter
              fun number => -2 ^ 31 ≤ number && number < 2 ^ 31 := rfl
        rw [minus, Option.toList_some, List.singleton_append, unfolded, read, Option.map_some,
          filtered]
        simp [Exponent.value]
  | none =>
      cases digits with
      | nil => exact (inhabited rfl).elim
      | cons first rest =>
          have digit := all first List.mem_cons_self
          have notMinus : first ≠ '-' := digit_ne digit (by decide)
          have notPlus : first ≠ '+' := digit_ne digit (by decide)
          have unsigned : parseI32 (first :: rest) =
              ((parseDigits (first :: rest)).map fun (number : Nat) => (number : Int)).filter
                fun number => -2 ^ 31 ≤ number && number < 2 ^ 31 := by
            unfold parseI32
            split
            · next same => exact (notMinus (List.cons.inj same).1).elim
            · next same => exact (notPlus (List.cons.inj same).1).elim
            · rfl
          rw [Option.toList_none, List.nil_append, unsigned, read]
          exact filtered _

/-- What is before the exponent: no mark of one, and a point only before a fraction. -/
theorem mantissa_clear {spelling : Spelling} (valid : spelling.Valid) {c : Char}
    (inside : c ∈ spelling.whole ++ (spelling.fraction.elim [] fun digits => '.' :: digits)) :
    c = '.' ∨ c.isDigit = true := by
  rcases List.mem_append.mp inside with whole | fraction
  · exact Or.inr (valid.digits c whole)
  · cases found : spelling.fraction with
    | none =>
        rw [found] at fraction
        cases fraction
    | some digits =>
        rw [found] at fraction
        rcases List.mem_cons.mp fraction with point | digit
        · exact Or.inl point
        · exact Or.inr ((valid.fraction digits found).2 c digit)

def isMark (c : Char) : Bool := c == 'e' || c == 'E'

theorem isMark_digit {c : Char} (clear : c = '.' ∨ c.isDigit = true) : isMark c = false := by
  rcases clear with point | digit
  · rw [point]
    rfl
  · have small := digit_ne digit (by decide : Char.isDigit 'e' = false)
    have large := digit_ne digit (by decide : Char.isDigit 'E' = false)
    simp [isMark, small, large]

theorem splitOnce_point {spelling : Spelling} (valid : spelling.Valid) :
    (splitOnce (· == '.')
        (spelling.whole ++ (spelling.fraction.elim [] fun digits => '.' :: digits))).getD
      (spelling.whole ++ (spelling.fraction.elim [] fun digits => '.' :: digits), []) =
    (spelling.whole, spelling.fraction.getD []) := by
  have clear : ∀ c ∈ spelling.whole, (c == '.') = false := by
    intro c inside
    exact beq_eq_false_iff_ne.mpr (digit_ne (valid.digits c inside) (by decide))
  cases found : spelling.fraction with
  | none =>
      rw [Option.elim_none, List.append_nil, splitOnce_none clear]
      rfl
  | some digits =>
      rw [Option.elim_some, splitOnce_mark clear (by decide)]
      rfl

/-- The text of a number respelt: its digits at their scale, or as it is where the exponent is
past what Java takes. -/
theorem javaBigdecimalText_text {spelling : Spelling} (valid : spelling.Valid) :
    javaBigdecimalText spelling.text =
      if ∀ exponent, spelling.exponent = some exponent → InRange exponent.value then
        (layout spelling.negative (stripped spelling.digits) spelling.scale).text
      else spelling.text := by
  have signed : (spelling.text.head? == some '-') = spelling.negative := by
    cases negative : spelling.negative with
    | true => simp [Spelling.text, negative]
    | false =>
        cases whole : spelling.whole with
        | nil => exact (valid.whole whole).elim
        | cons first rest =>
            have digit := valid.digits first (by rw [whole]; exact List.mem_cons_self)
            have notMinus := digit_ne digit (by decide : Char.isDigit '-' = false)
            simp [Spelling.text, negative, whole, notMinus]
  have unsigned : (if spelling.negative = true then spelling.text.tail else spelling.text) =
      (spelling.whole ++ (spelling.fraction.elim [] fun digits => '.' :: digits)) ++
        spelling.exponent.elim [] Exponent.text := by
    unfold Spelling.text
    cases spelling.negative <;> simp
  have clear : ∀ c ∈ spelling.whole ++ (spelling.fraction.elim [] fun digits => '.' :: digits),
      isMark c = false := fun c inside => isMark_digit (mantissa_clear valid inside)
  have point := splitOnce_point valid
  have respelt (exponent : Int) :
      javaBigdecimal spelling.negative (spelling.whole ++ spelling.fraction.getD [])
        ((spelling.fraction.getD []).length - exponent) =
      (layout spelling.negative (stripped spelling.digits)
        ((spelling.fraction.getD []).length - exponent)).text := javaBigdecimal_layout _ _ _
  unfold javaBigdecimalText
  dsimp only
  rw [signed, unsigned]
  have marks : (fun c => c == 'e' || c == 'E') = isMark := rfl
  rw [marks]
  cases found : spelling.exponent with
  | none =>
      have always : ∀ exponent : Exponent, (none : Option Exponent) = some exponent →
          InRange exponent.value := fun exponent same => by cases same
      rw [if_pos always, Option.elim_none, List.append_nil, splitOnce_none clear]
      dsimp only
      rw [point]
      dsimp only
      rw [respelt, Spelling.scale, found]
      rfl
  | some exponent =>
      have good := valid.exponent exponent found
      have mark : isMark exponent.mark = true := by
        rcases good.mark with same | same <;> rw [same] <;> rfl
      rw [Option.elim_some, Exponent.text, splitOnce_mark clear mark]
      dsimp only
      rw [parseI32_exponent good]
      by_cases fits : InRange exponent.value
      · have always : ∀ other, some exponent = some other → InRange other.value := by
          intro other same
          cases same
          exact fits
        rw [if_pos fits, if_pos always]
        dsimp only
        rw [point]
        dsimp only
        rw [respelt, Spelling.scale, found]
        rfl
      · have never : ¬∀ other, some exponent = some other → InRange other.value :=
          fun all => fits (all exponent rfl)
        rw [if_neg fits, if_neg never]

/-- `BigDecimal`'s spelling of a number is one of the same rational, and is spelt as it is. -/
theorem javaBigdecimalText_respells {spelling : Spelling} (valid : spelling.Valid) :
    ∃ respelt : Spelling, respelt.Valid ∧ javaBigdecimalText spelling.text = respelt.text ∧
      respelt.value = spelling.value ∧ javaBigdecimalText respelt.text = respelt.text := by
  have all : ∀ digit ∈ spelling.digits, digit.isDigit = true := by
    intro digit inside
    rcases List.mem_append.mp inside with whole | fraction
    · exact valid.digits digit whole
    · cases found : spelling.fraction with
      | none =>
          rw [found] at fraction
          cases fraction
      | some digits =>
          rw [found] at fraction
          exact (valid.fraction digits found).2 digit fraction
  have plain := stripped_plain all
  by_cases fits : ∀ exponent, spelling.exponent = some exponent → InRange exponent.value
  · have validLayout := layout_valid plain spelling.negative spelling.scale
    refine ⟨layout spelling.negative (stripped spelling.digits) spelling.scale, validLayout, ?_, ?_,
      ?_⟩
    · rw [javaBigdecimalText_text valid, if_pos fits]
    · rw [layout_value plain, value_eq, natural_stripped]
    · rw [javaBigdecimalText_text validLayout]
      split
      · rw [layout_digits plain, layout_scale plain, layout_negative]
        have again : layout (spelling.negative && stripped spelling.digits != ['0'])
            (stripped spelling.digits) spelling.scale =
              layout spelling.negative (stripped spelling.digits) spelling.scale := by
          unfold layout
          rw [Bool.and_assoc, Bool.and_self]
        rw [again]
      · rfl
  · have kept : javaBigdecimalText spelling.text = spelling.text := by
      rw [javaBigdecimalText_text valid, if_neg fits]
    exact ⟨spelling, valid, kept, rfl, kept⟩

/-! ### Doubles -/

/-- Digits that no zero leads. -/
structure Leading (shown : List Char) : Prop where
  inhabited : shown ≠ []
  digits : ∀ digit ∈ shown, digit.isDigit = true
  first : shown.head? ≠ some '0'

theorem leading_rdropWhile {digits : List Char} (leading : Leading digits) :
    Leading (digits.rdropWhile fun c => decide (c = '0')) := by
  have cut := List.rdropWhile_prefix (fun c => decide (c = '0')) digits
  have kept : digits.rdropWhile (fun c => decide (c = '0')) ≠ [] := by
    intro none
    have zero := List.rdropWhile_eq_nil_iff.mp none
    cases digits with
    | nil => exact leading.inhabited rfl
    | cons first rest =>
        have same := of_decide_eq_true (zero first List.mem_cons_self)
        exact leading.first (by rw [same]; rfl)
  refine ⟨kept, fun digit inside => leading.digits digit (cut.subset inside), ?_⟩
  obtain ⟨rest, same⟩ := cut
  intro zero
  apply leading.first
  rw [← same, List.head?_append, zero]
  rfl

theorem scientific_leading {number : ℚ} (positive : 0 < number) :
    Leading (scientific number).1 :=
  leading_rdropWhile
    { inhabited := Nat.toDigits_ne_nil
      digits := fun _ inside => toDigits_digits inside
      first := toDigits_head (Double.shortest_pos positive) }

/-- A text that a sign may stand before. -/
def Unsigned (text : List Char) : Prop :=
  ∃ spelling : Spelling, spelling.Valid ∧ spelling.negative = false ∧ spelling.text = text

theorem signed_spelling {text : List Char} (unsigned : Unsigned text) (negative : Bool) :
    ∃ spelling : Spelling, spelling.Valid ∧
      (if negative then ['-'] else []) ++ text = spelling.text := by
  obtain ⟨spelling, valid, positive, same⟩ := unsigned
  refine ⟨{ spelling with negative }, ⟨valid.whole, valid.digits, valid.leading, valid.fraction,
    valid.exponent⟩, ?_⟩
  rw [← same]
  simp [Spelling.text, positive]

theorem zeros_digits {count : Nat} {digit : Char} (inside : digit ∈ zeros count) :
    digit.isDigit = true := by
  rw [(List.mem_replicate.mp inside).2]
  rfl

theorem plainLayout_spelling {digits : List Char} (leading : Leading digits) (exponent : Int) :
    Unsigned (plainLayout digits exponent) := by
  have noExponent : ∀ found : Exponent, (none : Option Exponent) = some found → found.Valid :=
    fun found same => by cases same
  have headless {whole : List Char} (head : whole.head? = digits.head?) :
      whole.head? = some '0' → whole = ['0'] := fun zero => (leading.first (head ▸ zero)).elim
  unfold plainLayout
  dsimp only
  split
  · refine ⟨⟨false, ['0'], some (zeros (-(exponent + 1)).toNat ++ digits), none⟩,
      ⟨plain_zero.inhabited, plain_zero.digits, plain_zero.leading, ?_, noExponent⟩, rfl,
      by simp [Spelling.text]⟩
    intro found same
    cases same
    constructor
    · exact fun none => leading.inhabited (List.append_eq_nil_iff.mp none).2
    · intro digit inside
      rcases List.mem_append.mp inside with zero | held
      · exact zeros_digits zero
      · exact leading.digits digit held
  · next point =>
    split
    · refine ⟨⟨false, digits ++ zeros ((exponent + 1).toNat - digits.length), some ['0'], none⟩,
        ⟨?_, ?_, headless ?_, ?_, noExponent⟩, rfl, by simp [Spelling.text]⟩
      · exact fun none => leading.inhabited (List.append_eq_nil_iff.mp none).1
      · intro digit inside
        rcases List.mem_append.mp inside with held | zero
        · exact leading.digits digit held
        · exact zeros_digits zero
      · cases digits with
        | nil => exact (leading.inhabited rfl).elim
        | cons first rest => rfl
      · intro found same
        cases same
        exact ⟨List.cons_ne_nil _ _, isDigit_singleton rfl⟩
    · next short =>
      have front : (exponent + 1).toNat ≠ 0 := by omega
      refine ⟨⟨false, digits.take (exponent + 1).toNat, some (digits.drop (exponent + 1).toNat),
        none⟩, ⟨?_, fun digit among => leading.digits digit (List.mem_of_mem_take among),
          headless ?_, ?_, noExponent⟩, rfl, by simp [Spelling.text]⟩
      · intro none
        rcases List.take_eq_nil_iff.mp none with zero | empty
        · exact front zero
        · exact leading.inhabited empty
      · rw [List.head?_take, if_neg front]
      · intro found same
        cases same
        refine ⟨?_, fun digit among => leading.digits digit (List.mem_of_mem_drop among)⟩
        intro none
        have counted := congrArg List.length none
        rw [List.length_drop] at counted
        simp only [List.length_nil] at counted
        omega

theorem intText_exponent (number : Int) :
    ∃ exponent : Exponent, exponent.Valid ∧ exponent.text = 'E' :: intText number := by
  refine ⟨⟨'E', if 0 ≤ number then none else some '-', Nat.toDigits 10 number.natAbs⟩,
    ⟨Or.inr rfl, ?_, Nat.toDigits_ne_nil, fun digit inside => toDigits_digits inside⟩, ?_⟩
  · intro sign same
    dsimp only at same
    split at same
    · cases same
    · cases same
      exact Or.inr rfl
  · rw [intText_natAbs]
    unfold Exponent.text
    split <;> rfl

theorem scientificLayout_spelling {digits : List Char} (leading : Leading digits) (exponent : Int) :
    Unsigned (digits.take 1 ++
      '.' :: (if digits.tail.isEmpty then ['0'] else digits.tail) ++ 'E' :: intText exponent) := by
  obtain ⟨power, validPower, written⟩ := intText_exponent exponent
  refine ⟨⟨false, digits.take 1, some (if digits.tail.isEmpty then ['0'] else digits.tail),
    some power⟩, ⟨?_, fun digit among => leading.digits digit (List.mem_of_mem_take among), ?_, ?_,
    ?_⟩, rfl, ?_⟩
  · intro none
    rcases List.take_eq_nil_iff.mp none with zero | empty
    · cases zero
    · exact leading.inhabited empty
  · intro zero
    rw [List.head?_take, if_neg (by decide)] at zero
    exact (leading.first zero).elim
  · intro found same
    cases same
    split
    · exact ⟨List.cons_ne_nil _ _, isDigit_singleton rfl⟩
    · next some =>
      exact ⟨by simpa using some, fun digit among =>
        leading.digits digit (List.mem_of_mem_tail among)⟩
  · intro found same
    cases same
    exact validPower
  · simp only [Spelling.text, Option.elim_some, written]
    simp

/-- `Double.toString` of a number is a number of the grammar. -/
theorem javaDouble_spelling {double : Double.Binary64} {number : ℚ}
    (finite : double.magnitude = .finite number) (nonnegative : 0 ≤ number) :
    ∃ spelling : Spelling, spelling.Valid ∧ javaDouble double = spelling.text := by
  unfold javaDouble
  rw [finite]
  dsimp only
  split
  · apply signed_spelling
    refine ⟨⟨false, ['0'], some ['0'], none⟩,
      ⟨plain_zero.inhabited, plain_zero.digits, plain_zero.leading, ?_, ?_⟩, rfl, rfl⟩
    · intro found same
      cases same
      exact ⟨List.cons_ne_nil _ _, isDigit_singleton rfl⟩
    · intro found same
      cases same
  · next nonzero =>
    have leading := scientific_leading (lt_of_le_of_ne nonnegative (Ne.symm nonzero))
    split
    · exact signed_spelling (plainLayout_spelling leading _) _
    · have written := signed_spelling
        (scientificLayout_spelling leading (scientific number).2) double.negative
      simpa only [List.append_assoc] using written

/-! ### Either spelling -/

/-- A number is written as a number. -/
theorem numberText_spelling (numbers : Numbers) {spelling : Spelling} (valid : spelling.Valid) :
    ∃ written : Spelling, written.Valid ∧
      numberText numbers (String.ofList spelling.text) = written.text := by
  unfold numberText
  rw [String.toList_ofList]
  split
  · cases numbers with
    | bigDecimal =>
        obtain ⟨respelt, validRespelt, same, _⟩ := javaBigdecimalText_respells valid
        exact ⟨respelt, validRespelt, same⟩
    | javaDouble =>
        have stops : Stops [] := by
          intro first head
          cases head
        have scanned := scan_complete valid stops
        rw [List.append_nil] at scanned
        simp only [parseF64, String.toList_ofList, scanned]
        split
        · exact ⟨spelling, valid, rfl⟩
        · next finite =>
          cases magnitude : Double.nearest (|spelling.value|) with
          | infinite => exact (finite magnitude).elim
          | finite number =>
              have nonnegative := Double.nearest_nonneg (abs_nonneg _) magnitude
              exact javaDouble_spelling rfl nonnegative
  · exact ⟨spelling, valid, rfl⟩

/-- What `json_parse` stores of a number is one of the same rational, and is stored as it is. -/
theorem numberText_respells {spelling : Spelling} (valid : spelling.Valid) :
    ∃ written : Spelling, written.Valid ∧
      numberText .bigDecimal (String.ofList spelling.text) = written.text ∧
      written.value = spelling.value ∧
      numberText .bigDecimal (String.ofList written.text) = written.text := by
  have again {written : Spelling} (kept : javaBigdecimalText written.text = written.text) :
      numberText .bigDecimal (String.ofList written.text) = written.text := by
    unfold numberText
    rw [String.toList_ofList]
    split
    · exact kept
    · rfl
  obtain ⟨respelt, validRespelt, same, value, kept⟩ := javaBigdecimalText_respells valid
  by_cases marked : (spelling.text.any fun c => c == '.' || c == 'e' || c == 'E') = true
  · refine ⟨respelt, validRespelt, ?_, value, again kept⟩
    rw [numberText, String.toList_ofList, if_pos marked]
    exact same
  · have unchanged : numberText .bigDecimal (String.ofList spelling.text) = spelling.text := by
      rw [numberText, String.toList_ofList, if_neg marked]
    exact ⟨spelling, valid, unchanged, rfl, unchanged⟩

end Ddi.Jsonval
