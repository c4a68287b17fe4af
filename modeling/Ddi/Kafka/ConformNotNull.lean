/-
NOT NULL at every depth: what fits a type has no null that can be seen in a field, an element or
an entry that the type declares NOT NULL.
-/

import Ddi.Kafka.ConformMeaning

namespace Ddi.Kafka.Conform

mutual

/-- No null that can be seen stands where the type has none. Nothing under a null is seen. -/
def Honors : DataType → Cell → Prop
  | .plain _, _ => True
  | .struct fields, cell => cell.isNull = false → HonorsFields fields 0 cell
  | .list _ item nullable, cell => cell.isNull = false → ∀ element, element ∈ cell.elements →
      (nullable = false → element.isNull = false) ∧ Honors item element
  | .map key value nullable, cell => cell.isNull = false → ∀ entry, entry ∈ cell.entries →
      (entry.1.isNull = false ∧ Honors key entry.1) ∧
        (nullable = false → entry.2.isNull = false) ∧ Honors value entry.2
  | .union _ type rest, cell =>
      match cell with
      | .union 0 held => Honors type held
      | .union (branch + 1) held => HonorsBranch rest branch held
      | _ => True

def HonorsFields : Fields → Nat → Cell → Prop
  | .nil, _, _ => True
  | .cons _ type nullable rest, place, cell =>
      ((nullable = false → (cell.child place).isNull = false) ∧ Honors type (cell.child place)) ∧
        HonorsFields rest (place + 1) cell

def HonorsBranch : Fields → Nat → Cell → Prop
  | .nil, _, _ => True
  | .cons _ type _ rest, branch, held =>
      match branch with
      | 0 => Honors type held
      | branch + 1 => HonorsBranch rest branch held

end

theorem honorsFields_iff {fields : Fields} {start : Nat} {cell : Cell} :
    HonorsFields fields start cell ↔
      ∀ (place : Nat) (field : Field), fields.toList[place]? = some field →
        (field.nullable = false → (cell.child (start + place)).isNull = false) ∧
          Honors field.type (cell.child (start + place)) := by
  induction fields generalizing start with
  | nil =>
      constructor
      · intro _honors place field stands
        cases stands
      · intro _all
        trivial
  | cons name type nullable rest ih =>
      simp only [HonorsFields]
      constructor
      · intro honors place field stands
        cases place with
        | zero =>
            cases stands
            exact honors.1
        | succ place =>
            have below := ih.mp honors.2 place field stands
            rw [Nat.add_assoc, Nat.add_comm 1 place] at below
            exact below
      · intro all
        refine ⟨all 0 _ rfl, ih.mpr ?_⟩
        intro place field stands
        rw [Nat.add_assoc, Nat.add_comm 1 place]
        exact all (place + 1) field stands

theorem honorsBranch_get {fields : Fields} {branch : Nat} {field : Field} {held : Cell}
    (stands : fields.toList[branch]? = some field) :
    HonorsBranch fields branch held ↔ Honors field.type held := by
  induction fields generalizing branch with
  | nil => cases stands
  | cons name type nullable rest ih =>
      cases branch with
      | zero =>
          cases stands
          rfl
      | succ branch => exact ih stands

theorem honors_union {name : String} {type : DataType} {rest : Fields} {branch : Nat}
    {field : Field} {held : Cell} (stands : (branches name type rest)[branch]? = some field) :
    Honors (.union name type rest) (.union branch held) ↔ Honors field.type held := by
  cases branch with
  | zero =>
      cases stands
      rfl
  | succ branch => exact honorsBranch_get stands

mutual

theorem honors_null : ∀ (type : DataType) (cell : Cell), cell.isNull = true → Honors type cell
  | .plain _, _, _ => trivial
  | .struct _, _, null => fun valid => Bool.noConfusion (null.symm.trans valid)
  | .list _ _ _, _, null => fun valid => Bool.noConfusion (null.symm.trans valid)
  | .map _ _ _, _, null => fun valid => Bool.noConfusion (null.symm.trans valid)
  | .union _ type _, .union 0 held, null => honors_null type held null
  | .union _ _ rest, .union (branch + 1) held, null => honorsBranch_null rest branch held null
  | .union _ _ _, .plain _, _ => trivial
  | .union _ _ _, .struct _ _, _ => trivial
  | .union _ _ _, .list _ _, _ => trivial
  | .union _ _ _, .map _ _, _ => trivial

theorem honorsBranch_null : ∀ (fields : Fields) (branch : Nat) (held : Cell),
    held.isNull = true → HonorsBranch fields branch held
  | .nil, _, _, _ => trivial
  | .cons _ type _ _, 0, held, null => honors_null type held null
  | .cons _ _ _ rest, branch + 1, held, null => honorsBranch_null rest branch held null

end

/-- What fits a type has no null where the type has none, if the value had none where its own
type has none. -/
theorem Fitter.Fits.honors {arrow : Arrow} {fitter : Fitter} {source dest : DataType}
    {cell out : Cell} (fits : fitter.Fits arrow source dest cell out) (own : Honors source cell) :
    Honors dest out := by
  induction fits with
  | same type cell => exact own
  | null null stays => exact honors_null _ _ stays
  | word writes null => trivial
  | cast other unparsed casts => trivial
  | parsed parsed written fewer reads back => trivial
  | text writes written => trivial
  | held stands fits honors => exact honors ((honors_union stands).mp own)
  | into stands fits honors => exact (honors_union stands).mpr (honors own)
  | intoCast stands plain casts =>
      rw [honors_union stands, plain]
      trivial
  | @struct source dest children out length fits missing present kept honors =>
      simp only [Honors] at own ⊢
      intro _valid
      rw [honorsFields_iff]
      intro place field stands
      rw [Nat.zero_add]
      refine ⟨present place field stands, ?_⟩
      cases named : fieldNamed field.name source.toList with
      | none => exact honors_null _ _ (missing place field stands named).2
      | some found =>
          obtain ⟨ownPlace, ownField⟩ := found
          apply honors place field ownPlace ownField stands named
          have below := honorsFields_iff.mp (own rfl) ownPlace ownField (fieldNamed_some named).1
          rw [Nat.zero_add] at below
          exact below.2
  | @list kind source dest held nullable elements out length fits present honors =>
      simp only [Honors] at own ⊢
      intro _valid fitted among
      refine ⟨fun notNull => present notNull fitted among, ?_⟩
      obtain ⟨place, there⟩ := List.getElem?_of_mem among
      have within : place < elements.length := by
        rw [← length]
        exact (List.getElem?_eq_some_iff.mp there).1
      have stands := List.getElem?_eq_getElem within
      exact honors place _ fitted stands there
        (own rfl _ (List.mem_of_getElem? stands)).2
  | @map fromKey fromValue key value held nullable entries out places length inside all keys values
      presentKeys present honorKeys honorValues =>
      simp only [Honors] at own ⊢
      intro _valid fitted among
      obtain ⟨spot, there⟩ := List.getElem?_of_mem among
      have within : spot < places.length := by
        rw [← length]
        exact (List.getElem?_eq_some_iff.mp there).1
      have placed := List.getElem?_eq_getElem within
      have bound := inside _ (List.mem_of_getElem? placed)
      have stands := List.getElem?_eq_getElem bound
      have entry := own rfl _ (List.mem_of_getElem? stands)
      refine ⟨⟨presentKeys fitted among, ?_⟩, fun notNull => present notNull fitted among, ?_⟩
      · exact honorKeys spot _ _ fitted placed stands there entry.1.2
      · exact honorValues spot _ _ fitted placed stands there entry.2.2

end Ddi.Kafka.Conform
