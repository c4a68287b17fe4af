/-
What fitting keeps: each value of a row that is kept stands at its own path in what it is fitted
to, and nothing stands there that did not come from the row.
-/

import Ddi.Kafka.ConformMeaning
import Ddi.Kafka.UnionSchema

namespace Ddi.Kafka.Conform

/-! ### A step of a path -/

theorem look_step {type : DataType} {cell : Cell} {node : Node}
    (there : nodeAt type cell = some node) (step : Step) (way : List Step) :
    look type cell (step :: way) =
      (node.inner step).bind fun inner => look inner.type inner.cell way := by
  simp only [look, there, Option.bind_some]

theorem look_plain {type : PlainType} {cell : Cell} (step : Step) (way : List Step) :
    look (.plain type) cell (step :: way) = none := by
  cases there : nodeAt (.plain type) cell with
  | none => simp only [look, there, Option.bind_none]
  | some node =>
      have same : node = { type := .plain type, cell } := by
        unfold nodeAt heldBy at there
        exact (Option.mem_filter_iff.mp there).1 |> fun held => (Option.some.inj held).symm
      rw [look_step there, same]
      cases step <;> rfl

namespace Fitter

variable (arrow : Arrow) (fitter : Fitter)

/-! ### Values at a path -/

/-- What a value that is not null stands as: itself, what it is cast to or read as, or a record,
a list of as many elements or a map of as many entries. Into the union, what it is cast to or
read as casts back to it. -/
inductive Stands : Node → Node → Prop
  | same (node : Node) : Stands node node
  | cast {own dest : PlainType} {value out : Value} (casts : arrow.cast own dest value = some out)
      (back : fitter.intoUnion = true → arrow.cast dest own out = some value) :
      Stands { type := .plain own, cell := .plain (some value) }
        { type := .plain dest, cell := .plain (some out) }
  | parsed {own dest : PlainType} {value : Value} {text : String} {unscaled : Int}
      (written : textOf arrow dest value = some text)
      (reads : arrow.parseDecimal dest text = some unscaled)
      (back : fitter.intoUnion = true → arrow.cast dest own (.decimal unscaled) = some value) :
      Stands { type := .plain own, cell := .plain (some value) }
        { type := .plain dest, cell := .plain (some (.decimal unscaled)) }
  | rendered {source : DataType} {dest : PlainType} {cell : Cell} {out : Value} {same : Bool}
      {node : Node} (holds : nodeAt source cell = some node) (nested : source.isNested = true)
      (renders : arrow.render source dest cell = some (out, same))
      (back : fitter.intoUnion = true → same = true) :
      Stands node { type := .plain dest, cell := .plain (some out) }
  | struct (source dest : Fields) (children out : List Cell) :
      Stands { type := .struct source, cell := .struct true children }
        { type := .struct dest, cell := .struct true out }
  | list (kind : ListKind) (source dest : DataType) (held nullable : Bool)
      {elements out : List Cell} (length : out.length = elements.length) :
      Stands { type := .list kind source held, cell := .list true elements }
        { type := .list .list dest nullable, cell := .list true out }
  | map (fromKey fromValue key value : DataType) (held nullable : Bool)
      {entries out : List (Cell × Cell)} (length : out.length = entries.length) :
      Stands { type := .map fromKey fromValue held, cell := .map true entries }
        { type := .map key value nullable, cell := .map true out }

/-- A path that leaves what a value is fitted to: into a nested value that is one plain value
there, or, in the target, into a field that the record there does not have. -/
inductive Leaves (source dest : DataType) (cell out : Cell) : List Step → Prop
  | flat {start : List Step} {one other : Node} {step : Step} {rest : List Step}
      (stands : look source cell start = some one) (there : look dest out start = some other)
      (flat : other.type.isNested = false) : Leaves source dest cell out (start ++ step :: rest)
  | field {start : List Step} {one other : Node} {fields : Fields} {name : String}
      {rest : List Step} (stands : look source cell start = some one)
      (there : look dest out start = some other) (struct : other.type = .struct fields)
      (missing : fieldNamed name fields.toList = none) (target : fitter.intoUnion = false) :
      Leaves source dest cell out (start ++ .field name :: rest)

/-- Whatever stands at a path of the result comes from the same path, and whatever stands at a
path of the value is kept there, unless the path leaves the result. -/
structure Mirrors (source dest : DataType) (cell out : Cell) : Prop where
  comes : ∀ way other, look dest out way = some other →
    ∃ one, look source cell way = some one ∧ fitter.Stands arrow one other
  kept : ∀ way one, look source cell way = some one →
    (∃ other, look dest out way = some other) ∨ fitter.Leaves source dest cell out way

end Fitter

namespace Fitter

variable {arrow : Arrow} {fitter : Fitter} {source dest : DataType} {cell out : Cell}

theorem Leaves.step {source' dest' : DataType} {cell' out' : Cell} {step : Step}
    {way : List Step} (leaves : fitter.Leaves source' dest' cell' out' way)
    (own : ∀ way, look source cell (step :: way) = look source' cell' way)
    (other : ∀ way, look dest out (step :: way) = look dest' out' way) :
    fitter.Leaves source dest cell out (step :: way) := by
  cases leaves with
  | @flat start one there step' rest stands inside flat =>
      exact @Leaves.flat fitter source dest cell out (step :: start) one there step' rest
        ((own _).trans stands) ((other _).trans inside) flat
  | @field start one there fields name rest stands inside struct missing target =>
      exact @Leaves.field fitter source dest cell out (step :: start) one there fields name rest
        ((own _).trans stands) ((other _).trans inside) struct missing target

theorem Leaves.through {source' dest' : DataType} {cell' out' : Cell} {way : List Step}
    (leaves : fitter.Leaves source' dest' cell' out' way)
    (own : ∀ way, look source cell way = look source' cell' way)
    (other : ∀ way, look dest out way = look dest' out' way) :
    fitter.Leaves source dest cell out way := by
  cases leaves with
  | flat stands inside flat => exact .flat ((own _).trans stands) ((other _).trans inside) flat
  | field stands inside struct missing target =>
      exact .field ((own _).trans stands) ((other _).trans inside) struct missing target

/-- Through a union on either side, the paths are the same. -/
theorem Mirrors.through {source' dest' : DataType} {cell' out' : Cell}
    (mirrors : fitter.Mirrors arrow source' dest' cell' out')
    (own : ∀ way, look source cell way = look source' cell' way)
    (other : ∀ way, look dest out way = look dest' out' way) :
    fitter.Mirrors arrow source dest cell out := by
  constructor
  · intro way found there
    rw [other] at there
    obtain ⟨one, stands, same⟩ := mirrors.comes way found there
    exact ⟨one, (own way).trans stands, same⟩
  · intro way one stands
    rw [own] at stands
    rcases mirrors.kept way one stands with ⟨found, there⟩ | leaves
    · exact .inl ⟨found, (other way).trans there⟩
    · exact .inr (leaves.through own other)

theorem Mirrors.refl (type : DataType) (cell : Cell) :
    fitter.Mirrors arrow type type cell cell where
  comes := fun _way other there => ⟨other, there, .same other⟩
  kept := fun _way one stands => .inl ⟨one, stands⟩

theorem Mirrors.null (null : cell.isNull = true) (stays : out.isNull = true) :
    fitter.Mirrors arrow source dest cell out := by
  constructor
  · intro way other there
    rw [look_null stays] at there
    cases there
  · intro way one stands
    rw [look_null null] at stands
    cases stands

/-- A value that is one plain value in the result. -/
theorem Mirrors.flat {dest : PlainType} {out : Value} {node : Node}
    (holds : nodeAt source cell = some node)
    (stands : fitter.Stands arrow node { type := .plain dest, cell := .plain (some out) }) :
    fitter.Mirrors arrow source (.plain dest) cell (.plain (some out)) := by
  constructor
  · intro way other there
    cases way with
    | nil =>
        cases there
        exact ⟨node, holds, stands⟩
    | cons step way =>
        rw [look_plain] at there
        cases there
  · intro way one there
    cases way with
    | nil => exact .inl ⟨_, rfl⟩
    | cons step way =>
        exact .inr (@Leaves.flat fitter source (.plain dest) cell (.plain (some out)) [] node _
          step way holds rfl rfl)

theorem Casts.mirrors {dest : PlainType} (casts : fitter.Casts arrow source dest cell out) :
    fitter.Mirrors arrow source (.plain dest) cell out := by
  cases casts with
  | null null => exact .null null rfl
  | plain type can casts back whole =>
      subst type
      exact .flat rfl (.cast casts back)
  | rendered holds nested can renders back =>
      exact .flat holds (.rendered holds nested renders back)

/-- What a step leads to on each side. -/
inductive Below (arrow : Arrow) (fitter : Fitter) (leaves : Prop) : Option Node → Option Node → Prop
  | neither : Below arrow fitter leaves none none
  | both {one other : Node}
      (mirrors : fitter.Mirrors arrow one.type other.type one.cell other.cell) :
      Below arrow fitter leaves (some one) (some other)
  | added {other : Node} (null : other.cell.isNull = true) :
      Below arrow fitter leaves none (some other)
  | dropped {one : Node} (lost : one.cell.isNull = true ∨ leaves) :
      Below arrow fitter leaves (some one) none

/-- A nested value is mirrored where what every step leads to is. -/
theorem Mirrors.nested {one other : Node} (holds : nodeAt source cell = some one)
    (fitted : nodeAt dest out = some other) (stands : fitter.Stands arrow one other)
    (below : ∀ step, Below arrow fitter (∀ way, fitter.Leaves source dest cell out (step :: way))
      (one.inner step) (other.inner step)) : fitter.Mirrors arrow source dest cell out := by
  constructor
  · intro way found there
    cases way with
    | nil =>
        cases fitted.symm.trans there
        exact ⟨one, holds, stands⟩
    | cons step way =>
        have inside := below step
        rw [look_step fitted] at there
        rw [look_step holds]
        generalize one.inner step = first at inside ⊢
        generalize other.inner step = second at inside there
        cases inside with
        | neither => cases there
        | both mirrors => exact mirrors.comes way found there
        | added null =>
            rw [Option.bind_some, look_null null] at there
            cases there
        | dropped lost => cases there
  · intro way found there
    cases way with
    | nil => exact .inl ⟨other, fitted⟩
    | cons step way =>
        have inside := below step
        have own := fun way => look_step holds step way
        have other' := fun way => look_step fitted step way
        rw [own] at there
        generalize one.inner step = first at inside own there
        generalize other.inner step = second at inside other'
        cases inside with
        | neither => cases there
        | added null => cases there
        | both mirrors =>
            rcases mirrors.kept way found there with ⟨kept, stays⟩ | leaves
            · exact .inl ⟨kept, (other' way).trans stays⟩
            · exact .inr (leaves.step own other')
        | @dropped inner lost =>
            rcases lost with null | leaves
            · rw [Option.bind_some, look_null null] at there
              cases there
            · exact .inr (leaves way)

theorem Mirrors.struct {source dest : Fields} {children out : List Cell}
    (mirrors : ∀ (place : Nat) (field : Field) (ownPlace : Nat) (own : Field),
      dest.toList[place]? = some field →
        fieldNamed field.name source.toList = some (ownPlace, own) →
          fitter.Mirrors arrow own.type field.type (children.getD ownPlace (.plain none))
            (out.getD place (.plain none)))
    (missing : ∀ (place : Nat) (field : Field), dest.toList[place]? = some field →
      fieldNamed field.name source.toList = none →
        (out.getD place (.plain none)).isNull = true)
    (kept : fitter.intoUnion = true → ∀ (place : Nat) (own : Field),
      source.toList[place]? = some own → fieldNamed own.name dest.toList = none →
        (children.getD place (.plain none)).isNull = true) :
    fitter.Mirrors arrow (.struct source) (.struct dest) (.struct true children)
      (.struct true out) := by
  apply Mirrors.nested rfl rfl (.struct source dest children out)
  intro step
  cases step with
  | element place => exact .neither
  | key place => exact .neither
  | value place => exact .neither
  | field name =>
      unfold Node.inner
      dsimp only
      cases stands : fieldNamed name source.toList with
      | none =>
          cases there : fieldNamed name dest.toList with
          | none => exact .neither
          | some found =>
              obtain ⟨place, field⟩ := found
              obtain ⟨at_, same⟩ := fieldNamed_some there
              apply Below.added
              apply missing place field at_
              rw [same]
              exact stands
      | some own =>
          obtain ⟨ownPlace, own⟩ := own
          cases there : fieldNamed name dest.toList with
          | some found =>
              obtain ⟨place, field⟩ := found
              obtain ⟨at_, same⟩ := fieldNamed_some there
              apply Below.both
              apply mirrors place field ownPlace own at_
              rw [same]
              exact stands
          | none =>
              apply Below.dropped
              cases union : fitter.intoUnion with
              | true =>
                  left
                  obtain ⟨at_, same⟩ := fieldNamed_some stands
                  apply kept union ownPlace own at_
                  rw [same]
                  exact there
              | false =>
                  right
                  intro way
                  exact @Leaves.field fitter _ _ _ _ [] _ _ dest name way rfl rfl rfl there union

theorem Mirrors.list {kind : ListKind} {source dest : DataType} {held nullable : Bool}
    {elements out : List Cell} (length : out.length = elements.length)
    (mirrors : ∀ (place : Nat) (element fitted : Cell), elements[place]? = some element →
      out[place]? = some fitted → fitter.Mirrors arrow source dest element fitted) :
    fitter.Mirrors arrow (.list kind source held) (.list .list dest nullable)
      (.list true elements) (.list true out) := by
  apply Mirrors.nested rfl rfl (.list kind source dest held nullable length)
  intro step
  cases step with
  | field name => exact .neither
  | key place => exact .neither
  | value place => exact .neither
  | element place =>
      unfold Node.inner
      dsimp only [Cell.elements]
      cases stands : elements[place]? with
      | none =>
          have absent : out[place]? = none := by
            rw [List.getElem?_eq_none_iff] at stands ⊢
            rw [length]
            exact stands
          rw [absent]
          exact .neither
      | some element =>
          have within : place < out.length := by
            rw [length]
            exact (List.getElem?_eq_some_iff.mp stands).1
          rw [List.getElem?_eq_getElem within]
          exact .both (mirrors place element _ stands (List.getElem?_eq_getElem within))

theorem Mirrors.map {fromKey fromValue key value : DataType} {held nullable : Bool}
    {entries out : List (Cell × Cell)} (length : out.length = entries.length)
    (mirrors : ∀ (place : Nat) (entry fitted : Cell × Cell), entries[place]? = some entry →
      out[place]? = some fitted → fitter.Mirrors arrow fromKey key entry.1 fitted.1 ∧
        fitter.Mirrors arrow fromValue value entry.2 fitted.2) :
    fitter.Mirrors arrow (.map fromKey fromValue held) (.map key value nullable)
      (.map true entries) (.map true out) := by
  have places : ∀ place : Nat, (entries[place]? = none ∧ out[place]? = none) ∨
      ∃ entry fitted : Cell × Cell, entries[place]? = some entry ∧ out[place]? = some fitted := by
    intro place
    cases stands : entries[place]? with
    | none =>
        left
        refine ⟨rfl, ?_⟩
        rw [List.getElem?_eq_none_iff] at stands ⊢
        rw [length]
        exact stands
    | some entry =>
        right
        have within : place < out.length := by
          rw [length]
          exact (List.getElem?_eq_some_iff.mp stands).1
        exact ⟨entry, _, rfl, List.getElem?_eq_getElem within⟩
  apply Mirrors.nested rfl rfl (.map fromKey fromValue key value held nullable length)
  intro step
  cases step with
  | field name => exact .neither
  | element place => exact .neither
  | key place =>
      unfold Node.inner
      dsimp only [Cell.entries]
      rcases places place with ⟨stands, there⟩ | ⟨entry, fitted, stands, there⟩
      · rw [stands, there]
        exact .neither
      · rw [stands, there]
        exact .both (mirrors place entry fitted stands there).1
  | value place =>
      unfold Node.inner
      dsimp only [Cell.entries]
      rcases places place with ⟨stands, there⟩ | ⟨entry, fitted, stands, there⟩
      · rw [stands, there]
        exact .neither
      · rw [stands, there]
        exact .both (mirrors place entry fitted stands there).2

/-- What fits mirrors, where kafka-delta-ingest's text is not written. -/
theorem Fits.mirrors (untexted : fitter.text = {})
    (fits : fitter.Fits arrow source dest cell out) :
    fitter.Mirrors arrow source dest cell out := by
  have plain : fitter.text.compat = false ∧ fitter.text.nullText = false := by
    rw [untexted]
    exact ⟨rfl, rfl⟩
  induction fits with
  | same type cell => exact .refl type cell
  | null null stays => exact .null null stays
  | word writes null => cases plain.2.symm.trans writes
  | cast other unparsed casts => exact casts.mirrors
  | parsed parsed written fewer reads back => exact .flat rfl (.parsed written reads back)
  | text writes written => cases plain.1.symm.trans writes
  | held stands fits mirrors =>
      exact mirrors.through (fun way => look_union stands way) fun way => rfl
  | into stands fits mirrors =>
      exact mirrors.through (fun way => rfl) fun way => look_union stands way
  | @intoCast name type rest branch field source dest cell out stands plain casts =>
      have below := casts.mirrors
      rw [← plain] at below
      exact below.through (fun way => rfl) fun way => look_union stands way
  | struct length fits missing present kept mirrors =>
      exact .struct mirrors (fun place field at_ none => (missing place field at_ none).2) kept
  | list length fits present mirrors => exact .list length mirrors
  | @map fromKey fromValue key value held nullable entries out places length inside all keys values
      presentKeys present mirrorKeys mirrorValues =>
      have whole := all plain.1
      rw [whole, List.length_range] at length
      apply Mirrors.map length
      intro place entry fitted stands there
      have own : places[place]? = some place := by
        rw [whole, List.getElem?_range (List.getElem?_eq_some_iff.mp stands).1]
      exact ⟨mirrorKeys place place entry fitted own stands there,
        mirrorValues place place entry fitted own stands there⟩

end Fitter

end Ddi.Kafka.Conform
