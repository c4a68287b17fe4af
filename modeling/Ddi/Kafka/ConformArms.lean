/-
The cases of fitting: which rule fits a value of one type into another, each with the guards
that it comes to be tried under.
-/

import Ddi.Kafka.Conform

namespace Ddi.Kafka.Conform

def DataType.isUnion : DataType → Bool
  | .union _ _ _ => true
  | _ => false

namespace Fitter

variable (arrow : Arrow) (fitter : Fitter)

/-- What one step of fitting makes of a value, by its rule. -/
inductive Arm (inner : Inner) (column : List Slot) (path : String) (top : Bool) (slot : Slot) :
    DataType → DataType → Option Bool → Fitted → Prop
  | equal (type : DataType) (kdi : Option Bool) (idle : fitter.kdiWork type kdi = false) :
      Arm inner column path top slot type type kdi (.clean slot.cell)
  | unions (fromName : String) (fromType : DataType) (fromRest : Fields) (name : String)
      (type : DataType) (rest : Fields) (kdi : Option Bool) :
      Arm inner column path top slot (.union fromName fromType fromRest) (.union name type rest) kdi
        (fitter.unionToUnion arrow inner column (branches fromName fromType fromRest)
          (.union name type rest) (branches name type rest) { name, type, nullable := true } path slot)
  | unionTo (name : String) (type : DataType) (rest : Fields) (dest : DataType)
      (kdi : Option Bool) (other : dest.isUnion = false) :
      Arm inner column path top slot (.union name type rest) dest kdi
        (Fitter.unionTo inner column (branches name type rest) dest path kdi slot)
  | wrap (source : DataType) (name : String) (type : DataType) (rest : Fields)
      (kdi : Option Bool) (other : source.isUnion = false) :
      Arm inner column path top slot source (.union name type rest) kdi
        (fitter.wrapInUnion arrow inner column source (.union name type rest)
          (branches name type rest) { name, type, nullable := true } path slot)
  | text (source : DataType) (reach : Bool) (other : source.isUnion = false) :
      Arm inner column path top slot source (.plain .utf8) (some reach)
        (fitter.kdiText arrow column source path top reach slot)
  | plain (source : DataType) (dest : PlainType) (kdi : Option Bool)
      (other : source.isUnion = false) (untexted : kdi = none ∨ dest ≠ .utf8) :
      Arm inner column path top slot source (.plain dest) kdi
        (fitter.plain arrow source dest path top slot)
  | null (dest : DataType) (kdi : Option Bool) (nested : dest.isNested = true)
      (other : dest.isUnion = false) :
      Arm inner column path top slot (.plain .null) dest kdi (.clean (nullCell dest))
  | structs (source dest : Fields) (kdi : Option Bool) :
      Arm inner column path top slot (.struct source) (.struct dest) kdi
        (fitter.structs inner column source.toList dest.toList path kdi slot)
  | list (kind : ListKind) (source : DataType) (held : Bool) (dest : DataType) (nullable : Bool)
      (kdi : Option Bool) :
      Arm inner column path top slot (.list kind source held) (.list .list dest nullable) kdi
        (Fitter.list inner column source dest nullable path kdi slot)
  | map (fromKey fromValue : DataType) (held : Bool) (key value : DataType) (nullable : Bool)
      (kdi : Option Bool) :
      Arm inner column path top slot (.map fromKey fromValue held) (.map key value nullable) kdi
        (fitter.map inner column fromKey fromValue key value nullable path kdi slot)
  | refused (source dest : DataType) (kdi : Option Bool) (nested : dest.isNested = true)
      (union : source.isUnion = false ∧ dest.isUnion = false)
      (valued : source ≠ .plain .null)
      (struct : ∀ fields, source = .struct fields → ∀ others, dest ≠ .struct others)
      (list : ∀ kind item held, source = .list kind item held →
        ∀ other nullable, dest ≠ .list .list other nullable)
      (map : ∀ key value held, source = .map key value held →
        ∀ toKey toValue nullable, dest ≠ .map toKey toValue nullable) :
      Arm inner column path top slot source dest kdi (fitter.refused arrow source dest path slot)

theorem isUnion_false {type : DataType}
    (not : ∀ name first rest, type = .union name first rest → False) : type.isUnion = false := by
  cases type with
  | union name first rest => exact (not name first rest rfl).elim
  | _ => rfl

theorem isNested_true {type : DataType} (not : ∀ own, type = .plain own → False) :
    type.isNested = true := by
  cases type with
  | plain own => exact (not own rfl).elim
  | _ => rfl

/-- Every step of fitting goes by one of the rules. -/
theorem fitWithin_arm (steps : Nat) (column : List Slot) (source dest : DataType)
    (path : String) (top : Bool) (kdi : Option Bool) (slot : Slot) :
    fitter.Arm arrow (fitter.fitWithin arrow steps) column path top slot source dest kdi
      (fitter.fitWithin arrow (steps + 1) column source dest path top kdi slot) := by
  by_cases equal : source = dest ∧ fitter.kdiWork dest kdi = false
  · obtain ⟨same, idle⟩ := equal
    cases same
    have step : fitter.fitWithin arrow (steps + 1) column source source path top kdi slot =
        .clean slot.cell := by
      simp [fitWithin, idle]
    rw [step]
    exact .equal source kdi idle
  · simp only [fitWithin, if_neg equal]
    split
    · exact .unions _ _ _ _ _ _ _
    · next notInto => exact .unionTo _ _ _ _ _ (isUnion_false notInto)
    · next notFrom => exact .wrap _ _ _ _ _ (isUnion_false notFrom)
    · next notFrom =>
      split
      · exact .text _ _ (isUnion_false notFrom)
      · next untexted =>
        apply Arm.plain _ _ _ (isUnion_false notFrom)
        cases kdi with
        | none => exact .inl rfl
        | some reach => exact .inr fun utf8 => untexted reach rfl utf8
    · next notUnion notPlain =>
      exact .null _ _ (isNested_true notPlain) (isUnion_false notUnion)
    · exact .structs _ _ _
    · exact .list _ _ _ _ _ _
    · exact .map _ _ _ _ _ _ _
    · next notFrom notNull notInto notPlain _ notStructs notLists notMaps =>
      exact .refused source dest kdi (isNested_true notPlain)
        ⟨isUnion_false notFrom, isUnion_false notInto⟩ notNull
        (fun fields source others dest => notStructs fields others source dest)
        (fun kind item held source other nullable dest =>
          notLists kind item held other nullable source dest)
        (fun key value held source toKey toValue nullable dest =>
          notMaps key value held toKey toValue nullable source dest)

end Fitter

end Ddi.Kafka.Conform
