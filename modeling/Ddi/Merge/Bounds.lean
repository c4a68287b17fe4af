/-
The bounds a merge draws its window from: values of a column and the statistics of the files,
floating point ones included, and which files may hold a key.

`F` stands for the doubles that are numbers, in their order.
-/

import Ddi.Lib.RowCode
import Ddi.Stats
import Mathlib.Data.Sum.Order
import Mathlib.Data.String.Basic
import Mathlib.Data.List.TakeWhile

namespace Ddi.Merge

variable {F : Type}

/-- A value from either side, reduced to something comparable. -/
inductive Bound (F : Type)
  | int (value : Int)
  | float (value : F)
  | text (value : String)
  deriving DecidableEq

namespace Bound

/-- The variants in their derived order. -/
def toSum : Bound F → Int ⊕ₗ (F ⊕ₗ String)
  | int value => Sum.inlₗ value
  | float value => Sum.inrₗ (Sum.inlₗ value)
  | text value => Sum.inrₗ (Sum.inrₗ value)

theorem toSum_injective : Function.Injective (toSum : Bound F → Int ⊕ₗ (F ⊕ₗ String)) := by
  intro left right same
  cases left <;> cases right <;> simp_all [toSum, Sum.inlₗ, Sum.inrₗ]

instance [LinearOrder F] : LinearOrder (Bound F) := LinearOrder.lift' toSum toSum_injective

variable [LinearOrder F]

@[simp] theorem int_lt_int (left right : Int) : (int left : Bound F) < int right ↔ left < right := by
  change toSum (int left : Bound F) < toSum (int right) ↔ _
  simp [toSum]

@[simp] theorem text_lt_text (left right : String) :
    (text left : Bound F) < text right ↔ left < right := by
  change toSum (text left : Bound F) < toSum (text right) ↔ _
  simp [toSum]

@[simp] theorem int_le_int (left right : Int) : (int left : Bound F) ≤ int right ↔ left ≤ right := by
  rw [← not_lt, ← not_lt, int_lt_int]

@[simp] theorem text_le_text (left right : String) :
    (text left : Bound F) ≤ text right ↔ left ≤ right := by
  rw [← not_lt, ← not_lt, text_lt_text]

/-- Below, allowing for a text that was cut short: one that starts the other proves nothing. -/
def provablyBelow (self other : Bound F) : Bool :=
  match self, other with
  | text left, text right => decide (left < right) && !left.toList.isPrefixOf right.toList
  | self, other => decide (self < other)

/-- The bounds that are not floating point. -/
def ofExact : Ddi.Bound → Bound F
  | .int value => int value
  | .text value => text value

theorem ofExact_lt (left right : Ddi.Bound) :
    (ofExact left : Bound F) < ofExact right ↔ left.lt right = true := by
  change toSum (ofExact left : Bound F) < toSum (ofExact right) ↔ _
  cases left <;> cases right <;> simp [ofExact, toSum, Ddi.Bound.lt]

/-- A bound stands for another: the same, or a text of which it is the beginning. -/
def Begins (recorded whole : Bound F) : Prop :=
  recorded = whole ∨
    ∃ kept text, recorded = .text kept ∧ whole = .text text ∧ kept.toList <+: text.toList

theorem lt_of_provablyBelow {self other : Bound F} (below : self.provablyBelow other = true) :
    self < other := by
  unfold provablyBelow at below
  split at below
  · rw [Bool.and_eq_true, decide_eq_true_iff] at below
    exact (text_lt_text _ _).mpr below.1
  · exact of_decide_eq_true below

theorem lt_of_begins {recorded whole other : Bound F} (below : recorded.provablyBelow other = true)
    (begins : Begins recorded whole) : whole < other := by
  rcases begins with same | ⟨kept, text, rfl, rfl, starts⟩
  · rw [← same]
    exact lt_of_provablyBelow below
  · cases other with
    | int value =>
        have impossible := lt_of_provablyBelow below
        change toSum (.text kept : Bound F) < toSum (.int value) at impossible
        simp [toSum] at impossible
    | float value =>
        have impossible := lt_of_provablyBelow below
        change toSum (.text kept : Bound F) < toSum (.float value) at impossible
        simp [toSum] at impossible
    | text right =>
        simp only [provablyBelow, Bool.and_eq_true, decide_eq_true_iff, Bool.not_eq_true'] at below
        obtain ⟨less, apart⟩ := below
        rw [text_lt_text]
        have no_start : ¬ kept.toList <+: right.toList := by
          intro starts
          rw [List.isPrefixOf_iff_prefix.mpr starts] at apart
          cases apart
        obtain ⟨tail, whole_eq⟩ := starts
        have extended := RowCode.append_lt_append (String.lt_iff_toList_lt.mp less) no_start tail []
        rw [whole_eq, List.append_nil] at extended
        exact String.lt_iff_toList_lt.mpr extended

end Bound

/-! ### A file against a set of keys -/

section Keys

variable [LinearOrder F]

/-- How many of the items come before the first the test fails on. -/
def partitionPoint {α : Type} (items : List α) (test : α → Bool) : Nat :=
  (items.takeWhile test).length

/-- Could a file reporting these bounds hold any of the keys? -/
def rangeTouchesAny (fileMin fileMax : Bound F) (wanted : List (Bound F)) : Bool :=
  match wanted[partitionPoint wanted fun key => decide (key < fileMin)]? with
  | some key => !fileMax.provablyBelow key
  | none => false

theorem getElem?_partitionPoint {α : Type} (items : List α) (test : α → Bool) :
    items[partitionPoint items test]? = (items.dropWhile test).head? := by
  have whole : items.takeWhile test ++ items.dropWhile test = items :=
    List.takeWhile_append_dropWhile
  have after : (items.takeWhile test ++ items.dropWhile test)[(items.takeWhile test).length]? =
      (items.dropWhile test)[(items.takeWhile test).length - (items.takeWhile test).length]? :=
    List.getElem?_append_right (Nat.le_refl _)
  rw [whole, Nat.sub_self, ← List.head?_eq_getElem?] at after
  exact after

theorem head_dropWhile_le {wanted : List (Bound F)} (sorted : wanted.Pairwise (· < ·))
    {test : Bound F → Bool} {key first : Bound F} (member : key ∈ wanted) (stays : test key = false)
    (at_head : (wanted.dropWhile test).head? = some first) : first ≤ key := by
  have among : key ∈ wanted.dropWhile test := by
    have whole : wanted.takeWhile test ++ wanted.dropWhile test = wanted :=
      List.takeWhile_append_dropWhile
    rw [← whole] at member
    rcases List.mem_append.mp member with taken | dropped
    · have passes := List.mem_takeWhile_imp taken
      rw [stays] at passes
      cases passes
    · exact dropped
  have still_sorted : (wanted.dropWhile test).Pairwise (· < ·) :=
    sorted.sublist (List.dropWhile_sublist test)
  cases rest : wanted.dropWhile test with
  | nil =>
      rw [rest] at among
      cases among
  | cons head tail =>
      rw [rest] at among at_head still_sorted
      cases at_head
      rcases List.mem_cons.mp among with same | later
      · exact le_of_eq same.symm
      · exact le_of_lt ((List.pairwise_cons.mp still_sorted).1 key later)

/-- A file that is excluded holds none of the keys, when its minimum is at or below each of its
values and its maximum stands for a bound of them. -/
theorem not_wanted_of_excluded {fileMin fileMax top : Bound F} {wanted : List (Bound F)}
    (sorted : wanted.Pairwise (· < ·)) (excluded : rangeTouchesAny fileMin fileMax wanted = false)
    (begins : fileMax.Begins top) {value : Bound F} (lowest : fileMin ≤ value) (highest : value ≤ top) :
    value ∉ wanted := by
  intro member
  have stays : decide (value < fileMin) = false := decide_eq_false (not_lt.mpr lowest)
  unfold rangeTouchesAny at excluded
  rw [getElem?_partitionPoint] at excluded
  cases at_head : (wanted.dropWhile fun key => decide (key < fileMin)).head? with
  | none =>
      rw [List.head?_eq_none_iff, List.dropWhile_eq_nil_iff] at at_head
      have below := at_head value member
      rw [stays] at below
      cases below
  | some first =>
      simp only [at_head, Bool.not_eq_false'] at excluded
      have least := head_dropWhile_le sorted member stays at_head
      have under := Bound.lt_of_begins excluded begins
      exact absurd (lt_of_lt_of_le under least) (not_lt.mpr highest)

/-- A file is excluded only if it holds none of the keys: its maximum may be the beginning alone of
the greatest of its texts. -/
theorem rangeTouchesAny_sound {fileMin fileMax : Bound F} {wanted values : List (Bound F)}
    (sorted : wanted.Pairwise (· < ·)) (lowest : ∀ value, value ∈ values → fileMin ≤ value)
    (highest : (∀ value, value ∈ values → value ≤ fileMax) ∨
      ∃ kept greatest, fileMax = .text kept ∧ kept.toList <+: greatest.toList ∧
        .text greatest ∈ values ∧ ∀ value, value ∈ values → value ≤ .text greatest)
    (excluded : rangeTouchesAny fileMin fileMax wanted = false) :
    ∀ value, value ∈ values → value ∉ wanted := by
  intro value member
  rcases highest with bounded | ⟨kept, greatest, max_eq, starts, _held, bounded⟩
  · exact not_wanted_of_excluded sorted excluded (Or.inl rfl) (lowest value member)
      (bounded value member)
  · exact not_wanted_of_excluded sorted excluded (Or.inr ⟨kept, greatest, max_eq, rfl, starts⟩)
      (lowest value member) (bounded value member)

/-- A file of two texts whose maximum was cut short, against keys around it. -/
theorem rangeTouchesAny_sound_cut :
    Bound.text (F := Int) "order-37" ∉ [.text "order-1", .text "order-2", .text "orders"] := by
  have excluded : rangeTouchesAny (F := Int) (.text "order-3") (.text "order-")
      [.text "order-1", .text "order-2", .text "orders"] = false := by decide
  have lowest : ∀ value, value ∈ [Bound.text "order-31", .text "order-37"] →
      (.text "order-3" : Bound Int) ≤ value := by decide
  apply rangeTouchesAny_sound _ lowest _ excluded _ (by decide)
  · decide
  · exact Or.inr ⟨"order-", "order-37", rfl, by decide, by decide, by decide⟩

end Keys

end Ddi.Merge
