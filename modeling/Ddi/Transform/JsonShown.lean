/-
What a column's rows are as JSON, told by their types, and that what is rendered of a row is JSON
text of just that.
-/

import Ddi.Lib.Walks
import Ddi.Transform.JsonInvoke
import Ddi.Transform.JsonSpelled
import Ddi.Transform.JsonStored

namespace Ddi.JsonBuild

open Ddi.Jsonval
open Ddi.Kafka.Conform (TimeUnit)
open Binary (Format binary32 binary64)

/-! ### What a row is -/

/-- The varchar of a scalar, in quotes; JSON's null has none. -/
def VarcharShows : Option String → Option Json → Prop
  | none, json => json = none
  | some text, json =>
      ∃ held found, Spelled text held ∧ varchar held = .ok found ∧ json = found.map .string

/-- What a text is as JSON: a string, or the JSON that it holds, or the varchar of that. -/
def TextShows (mode : Mode) : Option Marker → Option String → Option Json → Prop
  | none, text, json => json = text.map .string
  | some marker, text, json =>
      if marker = .typed ∧ mode = .member then VarcharShows text json
      else Option.Rel Spelled text json

theorem textShows_embedded {mode : Mode} {marker : Marker}
    (embedded : ¬(marker = .typed ∧ mode = .member)) :
    TextShows mode (some marker) = Option.Rel Spelled := by
  funext text json
  exact if_neg embedded

section Shows

variable (arrow : Arrow)

mutual

/-- What a row of a column is as JSON, `none` where it is NULL. The marker tells text that holds
JSON. -/
def Shows (mode : Mode) (marker : Option Marker) : Column → Nat → Option Json → Prop
  | .null _, _, json => json = none
  | .boolean values, row, json => json = (inRow values row).map .bool
  | .integer values, row, json =>
      Option.Rel (fun (value : Int) => IsNumber value) (inRow values row) json
  | .float32 values, row, json => Option.Rel RealShows (inRow values row) json
  | .float64 values, row, json => Option.Rel RealShows (inRow values row) json
  | .decimal128 scale values, row, json | .decimal256 scale values, row, json =>
      Option.Rel (fun (value : Int) => IsNumber (value * 10 ^ (-scale))) (inRow values row) json
  | .text values, row, json =>
      TextShows mode marker (inRow values row) json
  | .timestamp unit zoned values, row, json =>
      Option.Rel (fun value json => ∃ text, timestampText arrow value unit zoned = some text ∧
        json = .string text) (inRow values row) json
  | .time values, row, json =>
      ∃ texts, arrow.asText (.time values) = .ok texts ∧ json = (inRow texts row).map .string
  | .span values, row, json =>
      ∃ texts, arrow.asText (.span values) = .ok texts ∧ json = (inRow texts row).map .string
  | .list item offsets valid values, row, json =>
      if valid[row]? = some true then
        ∃ items, json = some (.array items) ∧
          List.Forall₂ (fun index one => ∃ element, Shows .cast item.marker values index element ∧
              one = element.getD .null)
            (List.range' (offsets.getD row 0) (offsets.getD (row + 1) 0 - offsets.getD row 0)) items
      else json = none
  | .fixedSizeList item size valid values, row, json =>
      if valid[row]? = some true then
        ∃ items, json = some (.array items) ∧
          List.Forall₂ (fun index one => ∃ element, Shows .cast item.marker values index element ∧
              one = element.getD .null)
            (List.range' (row * size) size) items
      else json = none
  | .struct valid columns, row, json =>
      if valid[row]? = some true then
        ∃ members, json = some (.object members) ∧ ShowsColumns columns row members
      else json = none
  | .dictionary plain, row, json => Shows mode marker plain row json
  | .other _, _, _ => False

/-- The members that a row of a struct is, in the order of its fields. -/
def ShowsColumns : Columns → Nat → List (String × Json) → Prop
  | .nil, _, members => members = []
  | .cons field column rest, row, members =>
      ∃ json others, Shows .cast field.marker column row json ∧ ShowsColumns rest row others ∧
        members = (field.name, json.getD .null) :: others

end

end Shows

/-! ### What a column is promised to be -/

mutual

/-- An array as Arrow keeps it: the parts fit. -/
def Column.Valid : Column → Prop
  | .list _ offsets valid values =>
      offsets.length = valid.length + 1 ∧ (∀ offset ∈ offsets, offset ≤ values.length) ∧
        values.Valid
  | .fixedSizeList _ size valid values => values.length = valid.length * size ∧ values.Valid
  | .struct valid columns => columns.Valid valid.length
  | .dictionary plain => plain.Valid
  | .null _ | .boolean _ | .integer _ | .float32 _ | .float64 _ | .decimal128 _ _ | .decimal256 _ _
  | .text _ | .timestamp _ _ _ | .time _ | .span _ | .other _ => True

def Columns.Valid (rows : Nat) : Columns → Prop
  | .nil => True
  | .cons _ column rest => column.length = rows ∧ column.Valid ∧ rest.Valid rows

end

mutual

/-- Text that is marked as JSON is JSON. -/
def Column.HoldsJson (marker : Option Marker) : Column → Prop
  | .text values => marker ≠ none → ∀ text, some text ∈ values → ∃ json, Spelled text json
  | .list item _ _ values | .fixedSizeList item _ _ values => values.HoldsJson item.marker
  | .struct _ columns => columns.HoldsJson
  | .dictionary plain => plain.HoldsJson marker
  | .null _ | .boolean _ | .integer _ | .float32 _ | .float64 _ | .decimal128 _ _ | .decimal256 _ _
  | .timestamp _ _ _ | .time _ | .span _ | .other _ => True

def Columns.HoldsJson : Columns → Prop
  | .nil => True
  | .cons field column rest => column.HoldsJson field.marker ∧ rest.HoldsJson

end

/-- What Arrow's casts to text do. -/
structure Arrow.Faithful (arrow : Arrow) : Prop where
  text : ∀ values texts, arrow.asText (.text values) = .ok texts → texts = values
  integer : ∀ values texts, arrow.asText (.integer values) = .ok texts →
    texts = values.map fun value => value.map ToString.toString
  rows : ∀ column texts, arrow.asText column = .ok texts → texts.length = column.length

/-! ### Values -/

theorem inRow_map {α β : Type} (change : α → β) (values : List (Option α)) (row : Nat) :
    inRow (values.map fun value => value.map change) row = (inRow values row).map change := by
  unfold inRow
  rw [List.getElem?_map]
  cases values[row]? with
  | none => rfl
  | some value => rfl

/-- A column each of whose values is written as JSON of it. -/
theorem mapped_shows {α : Type} {Means : α → Json → Prop} {text : α → String}
    (each : ∀ value, ∃ json, Means value json ∧ Spelled (text value) json)
    (values : List (Option α)) (row : Nat) :
    ∃ json, Option.Rel Means (inRow values row) json ∧
      Option.Rel Spelled (inRow (values.map fun value => value.map text) row) json := by
  rw [inRow_map]
  cases inRow values row with
  | none => exact ⟨none, .none, .none⟩
  | some value =>
      obtain ⟨json, means, spelled⟩ := each value
      exact ⟨some json, .some means, .some spelled⟩

theorem spelled_bool (value : Bool) : Spelled (boolText value) (.bool value) := by
  cases value with
  | true => exact spelled_of_spells .true
  | false => exact spelled_of_spells .false

theorem signed_natAbs (value : Int) :
    (if decide (value < 0) then (-1 : ℚ) else 1) * (value.natAbs : ℚ) = value := by
  rw [← Int.cast_natCast]
  by_cases negative : value < 0
  · have absolute : ((value.natAbs : Int) : ℚ) = -value := by
      exact_mod_cast congrArg (Int.cast (R := ℚ)) (Int.ofNat_natAbs_of_nonpos negative.le)
    rw [if_pos (decide_eq_true negative), absolute, neg_one_mul, neg_neg]
  · have absolute : ((value.natAbs : Int) : ℚ) = value :=
      congrArg (Int.cast (R := ℚ)) (Int.natAbs_of_nonneg (not_lt.mp negative))
    rw [if_neg (by simpa using negative), absolute, one_mul]

/-- An integer as it is written. -/
theorem integer_shows (value : Int) :
    ∃ json, IsNumber value json ∧ Spelled (ToString.toString value) json := by
  let spelling : NumberText.Spelling :=
    ⟨decide (value < 0), Nat.toDigits 10 value.natAbs, none, none⟩
  have written : ToString.toString value = String.ofList spelling.text := by
    rw [← String.ofList_toList (s := ToString.toString value)]
    congr 1
    change intText value = spelling.text
    rw [intText_natAbs]
    simp only [spelling, NumberText.Spelling.text, Option.elim_none, List.append_nil]
    by_cases positive : 0 ≤ value
    · rw [if_pos positive, if_neg (by simpa using positive)]
    · rw [if_neg positive, if_pos (by simpa using positive)]
  have valid : spelling.Valid :=
    { whole := Nat.toDigits_ne_nil
      digits := fun digit inside => NumberText.toDigits_digits inside
      leading := by
        intro zero
        rcases Nat.eq_zero_or_pos value.natAbs with none | positive
        · simp only [spelling, none]
          rfl
        · exact (NumberText.toDigits_head positive zero).elim
      fraction := by
        intro digits same
        cases same
      exponent := by
        intro exponent same
        cases same }
  have denotes : spelling.value = value := by
    unfold NumberText.Spelling.value
    simp only [spelling, Option.getD_none, List.append_nil, Option.elim_none, List.length_nil,
      NumberText.natural_toDigits, Nat.cast_zero, sub_zero, zpow_zero, mul_one]
    exact signed_natAbs value
  refine ⟨.number (String.ofList spelling.text), ⟨_, rfl, ?_⟩, ?_⟩
  · rw [String.toList_ofList, valueOf_text valid, denotes]
  · rw [written]
    exact spelled_number valid

/-- A decimal as it is written. -/
theorem decimal128_shows (scale value : Int) :
    ∃ json, IsNumber (value * 10 ^ (-scale)) json ∧ Spelled (decimal128Text scale value) json := by
  have plain := @stripped_plain (Nat.toDigits 10 value.natAbs)
    fun digit inside => NumberText.toDigits_digits inside
  have valid := layout_valid plain (decide (value < 0)) scale
  have denotes : (layout (decide (value < 0)) (stripped (Nat.toDigits 10 value.natAbs))
      scale).value = value * 10 ^ (-scale) := by
    rw [layout_value plain, natural_stripped, NumberText.natural_toDigits, signed_natAbs]
  rw [decimal128Text, javaBigdecimal_layout]
  refine ⟨_, ⟨_, rfl, ?_⟩, spelled_number valid⟩
  rw [String.toList_ofList, valueOf_text valid, denotes]

/-- The sign of a decimal of 256 bits is the number's too. -/
theorem decimal256Text_eq : decimal256Text = decimal128Text := by
  funext scale value
  have written : (ToString.toString value).toList =
      (if 0 ≤ value then [] else ['-']) ++ Nat.toDigits 10 value.natAbs := intText_natAbs value
  unfold decimal256Text decimal128Text
  rw [written]
  by_cases positive : 0 ≤ value
  · have sign : decide (value < 0) = false := by simpa using positive
    rw [if_pos positive, List.nil_append, sign]
    cases digits : Nat.toDigits 10 value.natAbs with
    | nil => exact (Nat.toDigits_ne_nil digits).elim
    | cons first rest =>
        split
        · next minus same =>
          have digit : '-'.isDigit = true := by
            apply @NumberText.toDigits_digits value.natAbs
            rw [digits, same]
            exact List.mem_cons_self
          cases digit
        · rfl
  · have sign : decide (value < 0) = true := by simpa using positive
    rw [if_neg positive, sign]
    rfl

/-! ### Rows -/

theorem inRow_zipIdx {α β : Type} {step : Nat → Option α → Except Fault (Option β)}
    {values : List (Option α)} {outs : List (Option β)}
    (run : (values.zipIdx.mapM fun (value, row) => step row value) = .ok outs)
    (none : ∀ row, step row none = .ok none) :
    outs.length = values.length ∧ ∀ row, step row (inRow values row) = .ok (inRow outs row) := by
  have paired := (Paired.mapM_ok _ _ _).mp run
  have counted := paired.length_eq
  rw [List.length_zipIdx] at counted
  refine ⟨counted.symm, ?_⟩
  intro row
  unfold inRow
  by_cases within : row < values.length
  · have within' : row < outs.length := counted ▸ within
    have each := (List.forall₂_iff_get.mp paired).2 row
      (by rw [List.length_zipIdx]; exact within) within'
    simp only [List.get_eq_getElem, List.getElem_zipIdx, Nat.zero_add] at each
    rw [List.getElem?_eq_getElem within, List.getElem?_eq_getElem within']
    exact each
  · rw [List.getElem?_eq_none (Nat.le_of_not_lt within),
      List.getElem?_eq_none (counted ▸ Nat.le_of_not_lt within)]
    exact none row

theorem spelled_orNull {text : Option String} {json : Option Json}
    (spelled : Option.Rel Spelled text json) : Spelled (orNull text) (json.getD .null) := by
  cases spelled with
  | none => exact spelled_null
  | some held => exact held

/-- A range of a column's texts, each of which is JSON of what stands there. -/
theorem elements_show {Means : Nat → Option Json → Prop} {elements : Texts} {start stop : Nat}
    (each : ∀ index, ∃ json, Means index json ∧ Option.Rel Spelled (inRow elements index) json)
    (bound : stop ≤ elements.length) :
    ∃ items, List.Forall₂ (fun index one => ∃ json, Means index json ∧ one = json.getD .null)
        (List.range' start (stop - start)) items ∧
      Spelled (bracketed (((elements.take stop).drop start).map orNull)) (.array items) := by
  have cut : (elements.take stop).drop start =
      (List.range' start (stop - start)).map (inRow elements) := by
    apply List.ext_getElem
    · rw [List.length_drop, List.length_take, List.length_map, List.length_range',
        Nat.min_eq_left bound]
    · intro place within within'
      rw [List.length_map, List.length_range'] at within'
      rw [List.getElem_drop, List.getElem_take, List.getElem_map, List.getElem_range', Nat.one_mul,
        inRow, List.getElem?_eq_getElem]
      rfl
  have chosen : ∀ index ∈ List.range' start (stop - start), ∃ one,
      (∃ json, Means index json ∧ one = json.getD .null) ∧
        Spelled (orNull (inRow elements index)) one := by
    intro index _
    obtain ⟨json, means, spelled⟩ := each index
    exact ⟨json.getD .null, ⟨json, means, rfl⟩, spelled_orNull spelled⟩
  obtain ⟨items, paired⟩ := Paired.exists_outs chosen
  refine ⟨items, paired.imp fun index one both => both.1, ?_⟩
  apply spelled_bracketed
  rw [cut, List.map_map, List.forall₂_map_left_iff]
  exact paired.imp fun index one both => both.2

/-- A row of a list. -/
theorem inRow_listTexts {offsets : List Nat} {valid : List Bool}
    (counted : offsets.length = valid.length + 1) (elements : Texts) (row : Nat) :
    inRow (listTexts (windows offsets) valid elements) row =
      if valid[row]? = some true then
        some (bracketed (((elements.take (offsets.getD (row + 1) 0)).drop
          (offsets.getD row 0)).map orNull))
      else none := by
  unfold inRow listTexts windows
  rw [List.getElem?_map]
  by_cases within : row < valid.length
  · have start : row < offsets.length := by omega
    have stop : row < offsets.tail.length := by
      rw [List.length_tail]
      omega
    rw [List.getElem?_eq_getElem (by simp only [List.length_zip]; omega), List.getElem_zip,
      List.getElem_zip, List.getElem_tail, List.getElem?_eq_getElem within,
      List.getD_eq_getElem _ _ start,
      List.getD_eq_getElem _ _ (by omega : row + 1 < offsets.length)]
    cases valid[row] with
    | true => rfl
    | false => rfl
  · rw [List.getElem?_eq_none (by simp only [List.length_zip]; omega),
      List.getElem?_eq_none (Nat.le_of_not_lt within)]
    rfl

theorem length_listTexts {offsets : List Nat} {valid : List Bool}
    (counted : offsets.length = valid.length + 1) (elements : Texts) :
    (listTexts (windows offsets) valid elements).length = valid.length := by
  simp only [listTexts, windows, List.length_map, List.length_zip, List.length_tail]
  omega

/-- A row of a struct. -/
theorem inRow_structTexts (valid : List Bool) (columns : List (String × Texts)) (row : Nat) :
    inRow (structTexts valid columns) row =
      if valid[row]? = some true then
        some (braced (columns.map fun column => (column.1, orNull (inRow column.2 row))))
      else none := by
  unfold structTexts
  rw [inRow, List.getElem?_map, List.getElem?_zipIdx]
  cases valid[row]? with
  | none => rfl
  | some held =>
      cases held with
      | true => exact congrArg (fun place => some (braced (columns.map fun column =>
          (column.1, orNull (inRow column.2 place))))) (Nat.zero_add row)
      | false => rfl

/-! ### What is rendered -/

section Rendered

variable {arrow : Arrow} {who : String}

theorem asText_ok {column : Column} {texts : Texts} (run : asText arrow who column = .ok texts) :
    arrow.asText column = .ok texts := by
  unfold asText at run
  cases cast : arrow.asText column with
  | error error =>
      rw [cast] at run
      cases run
  | ok found =>
      rw [cast] at run
      cases run
      rfl

/-- What a row holds is one of the column's. -/
theorem mem_of_inRow {α : Type} {values : List (Option α)} {row : Nat} {value : α}
    (held : inRow values row = some value) : some value ∈ values := by
  unfold inRow at held
  exact List.mem_of_getElem? (Option.join_eq_some_iff.mp held)

theorem inRow_of_getElem {α : Type} {values : List (Option α)} {row : Nat}
    (within : row < values.length) : inRow values row = values[row] := by
  unfold inRow
  rw [List.getElem?_eq_getElem within]
  rfl

/-- A cast to text, each of whose texts is put in quotes. -/
theorem quoted_shows {texts : Texts} (row : Nat) :
    Option.Rel Spelled (inRow (texts.map fun text => text.map quote) row)
      ((inRow texts row).map Json.string) := by
  rw [inRow_map]
  cases inRow texts row with
  | none => exact .none
  | some text => exact .some (spelled_quote text)

theorem varchar_shows (faithful : arrow.Faithful) {values texts : Texts}
    (run : jsonToVarchar arrow who (.text values) = .ok texts) :
    texts.length = values.length ∧ ∀ row, ∃ json,
      VarcharShows (inRow values row) json ∧
        Option.Rel Spelled (inRow (texts.map fun text => text.map quote) row) json := by
  unfold jsonToVarchar at run
  obtain ⟨found, cast, run⟩ := Walks.bind_ok_iff.mp run
  rw [faithful.text _ _ (asText_ok cast)] at run
  obtain ⟨counted, rows⟩ := inRow_zipIdx run fun row => rfl
  refine ⟨counted, ?_⟩
  intro row
  have own := rows row
  rw [inRow_map]
  cases held : inRow values row with
  | none =>
      rw [held] at own
      rw [← Except.ok.inj own]
      exact ⟨none, rfl, .none⟩
  | some text =>
      rw [held] at own
      unfold varcharAt at own
      dsimp only at own
      cases read : parse arrow.shown text with
      | error error =>
          rw [read] at own
          cases own
      | ok doc =>
          rw [read] at own
          dsimp only at own
          cases scalar : varchar doc with
          | error what =>
              rw [scalar] at own
              cases own
          | ok found =>
              rw [scalar] at own
              rw [← Except.ok.inj own]
              refine ⟨found.map .string, ⟨doc, found, ((parse_spelled _ _ _).mp read).1, scalar,
                rfl⟩, ?_⟩
              cases found with
              | none => exact .none
              | some text => exact .some (spelled_quote text)

/-- A column of text: a string, or JSON that is embedded, or the varchar of JSON. -/
theorem text_shows (faithful : arrow.Faithful) {mode : Mode} {field : Field} {position : Nat}
    {values texts : Texts} (holds : (Column.text values).HoldsJson field.marker)
    (run : render arrow who mode field position (.text values) = .ok texts) :
    texts.length = values.length ∧ ∀ row, ∃ json,
      TextShows mode field.marker (inRow values row) json ∧
        Option.Rel Spelled (inRow texts row) json := by
  unfold render at run
  by_cases scalar : field.marker = some .typed ∧ mode = .member
  · rw [if_pos scalar] at run
    rw [scalar.1, scalar.2]
    cases cast : jsonToVarchar arrow who (.text values) with
    | error error =>
        rw [cast] at run
        cases run
    | ok found =>
        rw [cast] at run
        cases run
        rw [List.length_map]
        exact varchar_shows faithful cast
  · rw [if_neg scalar] at run
    obtain ⟨found, cast, run⟩ := Walks.bind_ok_iff.mp run
    rw [faithful.text _ _ (asText_ok cast)] at run
    cases run
    refine ⟨List.length_map _, ?_⟩
    intro row
    cases marked : field.marker with
    | none => exact ⟨_, rfl, quoted_shows row⟩
    | some marker =>
        rw [marked] at scalar
        have embedded : ¬(marker = .typed ∧ mode = .member) := by
          intro both
          exact scalar ⟨congrArg some both.1, both.2⟩
        rw [textShows_embedded embedded, inRow_map]
        cases held : inRow values row with
        | none => exact ⟨none, .none, .none⟩
        | some text =>
            rw [marked] at holds
            obtain ⟨json, spelled⟩ := holds (by simp) text (mem_of_inRow held)
            exact ⟨some json, .some spelled, .some spelled⟩

theorem timestamp_shows {mode : Mode} {marker : Option Marker} {unit : TimeUnit} {zoned : Bool}
    {values : List (Option Int)} {texts : Texts}
    (run : (values.zipIdx.mapM fun (value, row) => timestampAt arrow who unit zoned row value) =
      .ok texts) :
    texts.length = values.length ∧ ∀ row, ∃ json,
      Shows arrow mode marker (.timestamp unit zoned values) row json ∧
        Option.Rel Spelled (inRow texts row) json := by
  obtain ⟨counted, rows⟩ := inRow_zipIdx run fun row => rfl
  refine ⟨counted, ?_⟩
  intro row
  have own := rows row
  unfold Shows
  cases held : inRow values row with
  | none =>
      rw [held] at own
      rw [← Except.ok.inj own]
      exact ⟨none, .none, .none⟩
  | some value =>
      rw [held] at own
      unfold timestampAt at own
      dsimp only at own
      cases written : timestampText arrow value unit zoned with
      | none =>
          rw [written] at own
          cases own
      | some text =>
          rw [written] at own
          rw [← Except.ok.inj own]
          exact ⟨some (.string text), .some ⟨text, written, rfl⟩, .some (spelled_quote text)⟩

/-- A column cast to text, each of whose texts is put in quotes. -/
theorem span_shows (faithful : arrow.Faithful) {column : Column} {texts : Texts}
    (run : (do
      let texts ← asText arrow who column
      return texts.map fun text => text.map quote : Except Fault Texts) = .ok texts) :
    texts.length = column.length ∧ ∀ row, ∃ json,
      (∃ texts, arrow.asText column = .ok texts ∧ json = (inRow texts row).map .string) ∧
        Option.Rel Spelled (inRow texts row) json := by
  obtain ⟨found, cast, run⟩ := Walks.bind_ok_iff.mp run
  cases run
  rw [List.length_map]
  exact ⟨faithful.rows _ _ (asText_ok cast), fun row =>
    ⟨_, ⟨found, asText_ok cast, rfl⟩, quoted_shows row⟩⟩

theorem list_shows {Means : Nat → Option Json → Prop} {offsets : List Nat} {valid : List Bool}
    {elements : Texts} (counted : offsets.length = valid.length + 1)
    (bounded : ∀ offset ∈ offsets, offset ≤ elements.length)
    (each : ∀ index, ∃ json, Means index json ∧ Option.Rel Spelled (inRow elements index) json)
    (row : Nat) :
    ∃ json,
      (if valid[row]? = some true then
        ∃ items, json = some (.array items) ∧
          List.Forall₂ (fun index one => ∃ element, Means index element ∧ one = element.getD .null)
            (List.range' (offsets.getD row 0) (offsets.getD (row + 1) 0 - offsets.getD row 0)) items
      else json = none) ∧
        Option.Rel Spelled (inRow (listTexts (windows offsets) valid elements) row) json := by
  rw [inRow_listTexts counted]
  by_cases held : valid[row]? = some true
  · have within : row < valid.length := (List.getElem?_eq_some_iff.mp held).1
    have stop : offsets.getD (row + 1) 0 ≤ elements.length := by
      rw [List.getD_eq_getElem _ _ (by omega)]
      exact bounded _ (List.getElem_mem _)
    obtain ⟨items, paired, spelled⟩ :=
      @elements_show Means elements (offsets.getD row 0) (offsets.getD (row + 1) 0) each stop
    refine ⟨some (.array items), ?_, ?_⟩
    · rw [if_pos held]
      exact ⟨items, rfl, paired⟩
    · rw [if_pos held]
      exact .some spelled
  · refine ⟨none, ?_, ?_⟩
    · rw [if_neg held]
    · rw [if_neg held]
      exact .none

theorem length_fixedOffsets (size rows : Nat) : (fixedOffsets size rows).length = rows + 1 := by
  rw [fixedOffsets, List.length_map, List.length_range]

theorem fixedOffsets_le (size rows : Nat) :
    ∀ offset ∈ fixedOffsets size rows, offset ≤ rows * size := by
  intro offset inside
  obtain ⟨row, among, same⟩ := List.mem_map.mp inside
  rw [← same]
  exact Nat.mul_le_mul_right size (Nat.le_of_lt_succ (List.mem_range.mp among))

theorem getD_fixedOffsets (size : Nat) {rows row : Nat} (within : row ≤ rows) :
    (fixedOffsets size rows).getD row 0 = row * size := by
  rw [List.getD_eq_getElem _ _ (by rw [length_fixedOffsets]; omega)]
  simp only [fixedOffsets, List.getElem_map, List.getElem_range]

mutual

/-- What is rendered of each row is JSON of what the row is, or a NULL where it is one. -/
theorem render_shows (faithful : arrow.Faithful) {mode : Mode} {field : Field} {position : Nat}
    (column : Column) {texts : Texts} (fits : column.Valid) (holds : column.HoldsJson field.marker)
    (run : render arrow who mode field position column = .ok texts) :
    texts.length = column.length ∧ ∀ row, ∃ json,
      Shows arrow mode field.marker column row json ∧
        Option.Rel Spelled (inRow texts row) json := by
  cases column with
  | null rows =>
      cases run
      refine ⟨List.length_replicate, fun row => ⟨none, rfl, ?_⟩⟩
      have absent : inRow (List.replicate rows (none : Option String)) row = none := by
        unfold inRow
        rw [List.getElem?_replicate]
        split <;> rfl
      rw [absent]
      exact .none
  | boolean values =>
      cases run
      refine ⟨List.length_map _, fun row => ⟨_, rfl, ?_⟩⟩
      rw [inRow_map]
      cases inRow values row with
      | none => exact .none
      | some value => exact .some (spelled_bool value)
  | integer values =>
      have same := faithful.integer _ _ (asText_ok run)
      rw [same]
      exact ⟨List.length_map _, mapped_shows integer_shows values⟩
  | float32 values =>
      cases run
      refine ⟨List.length_map _, mapped_shows (fun real => ?_) values⟩
      rw [javaFloatText_eq]
      exact real_shows real
  | float64 values =>
      cases run
      refine ⟨List.length_map _, mapped_shows (fun real => ?_) values⟩
      rw [javaDoubleText_eq]
      exact real_shows real
  | decimal128 scale values =>
      cases run
      exact ⟨List.length_map _, mapped_shows (decimal128_shows scale) values⟩
  | decimal256 scale values =>
      cases run
      rw [decimal256Text_eq]
      exact ⟨List.length_map _, mapped_shows (decimal128_shows scale) values⟩
  | text values => exact text_shows faithful holds run
  | timestamp unit zoned values =>
      unfold render at run
      split at run
      · cases run
      · exact timestamp_shows run
  | time values =>
      unfold render at run
      split at run
      · cases run
      · exact span_shows faithful run
  | span values => exact span_shows faithful run
  | list item offsets valid values =>
      unfold render at run
      split at run
      · obtain ⟨elements, inner, run⟩ := Walks.bind_ok_iff.mp run
        cases run
        obtain ⟨sized, bounded, fitting⟩ := fits
        obtain ⟨counted, each⟩ := render_shows faithful values fitting holds inner
        rw [← counted] at bounded
        exact ⟨length_listTexts sized elements, list_shows sized bounded each⟩
      · cases run
  | fixedSizeList item size valid values =>
      unfold render at run
      split at run
      · obtain ⟨elements, inner, run⟩ := Walks.bind_ok_iff.mp run
        cases run
        obtain ⟨whole, fitting⟩ := fits
        obtain ⟨counted, each⟩ := render_shows faithful values fitting holds inner
        have sized : (fixedOffsets size valid.length).length = valid.length + 1 :=
          length_fixedOffsets size valid.length
        have bounded : ∀ offset ∈ fixedOffsets size valid.length,
            offset ≤ elements.length := by
          rw [counted, whole]
          exact fixedOffsets_le size valid.length
        refine ⟨length_listTexts sized elements, fun row => ?_⟩
        obtain ⟨json, shows, spelled⟩ := list_shows sized bounded each row
        refine ⟨json, ?_, spelled⟩
        unfold Shows
        by_cases held : valid[row]? = some true
        · rw [if_pos held] at shows ⊢
          have within : row < valid.length := (List.getElem?_eq_some_iff.mp held).1
          rw [getD_fixedOffsets size (Nat.succ_le_of_lt within),
            getD_fixedOffsets size within.le, Nat.succ_mul, Nat.add_sub_cancel_left] at shows
          exact shows
        · rw [if_neg held] at shows ⊢
          exact shows
      · cases run
  | struct valid columns =>
      unfold render at run
      split at run
      · obtain ⟨found, inner, run⟩ := Walks.bind_ok_iff.mp run
        cases run
        have each := renderColumns_show faithful columns fits holds inner
        refine ⟨?_, ?_⟩
        · change (List.map _ _).length = _
          rw [List.length_map, List.length_zipIdx]
          rfl
        · intro row
          rw [inRow_structTexts]
          obtain ⟨members, shows, spelled⟩ := each row
          by_cases held : valid[row]? = some true
          · refine ⟨some (.object members), ?_, ?_⟩
            · unfold Shows
              rw [if_pos held]
              exact ⟨members, rfl, shows⟩
            · rw [if_pos held]
              exact .some (spelled_braced spelled)
          · refine ⟨none, ?_, ?_⟩
            · unfold Shows
              rw [if_neg held]
            · rw [if_neg held]
              exact .none
      · cases run
  | dictionary plain =>
      have plainly : render arrow who mode { field with nullable := true } position plain =
          .ok texts := run
      exact @render_shows faithful mode { field with nullable := true } position plain texts fits
        holds plainly
  | other rows => cases run

theorem renderColumns_show (faithful : arrow.Faithful) {position : Nat} (columns : Columns)
    {rows : Nat} {texts : List (String × Texts)} (fits : columns.Valid rows)
    (holds : columns.HoldsJson) (run : renderColumns arrow who position columns = .ok texts)
    (row : Nat) :
    ∃ members, ShowsColumns arrow columns row members ∧
      List.Forall₂ SpelledMember (texts.map fun column => (column.1, orNull (inRow column.2 row)))
        members := by
  cases columns with
  | nil =>
      cases run
      exact ⟨[], rfl, .nil⟩
  | cons field column rest =>
      unfold renderColumns at run
      obtain ⟨found, first, run⟩ := Walks.bind_ok_iff.mp run
      obtain ⟨more, others, run⟩ := Walks.bind_ok_iff.mp run
      cases run
      obtain ⟨_, each⟩ := render_shows faithful column fits.2.1 holds.1 first
      obtain ⟨json, shows, spelled⟩ := each row
      obtain ⟨members, later, spelt⟩ := renderColumns_show faithful rest fits.2.2 holds.2
        others row
      exact ⟨_, ⟨json, members, shows, later, rfl⟩,
        .cons ⟨rfl, spelled_orNull spelled⟩ spelt⟩

end

end Rendered

/-- Each row of a column that is rendered is JSON text of what the row is, and no text where it is
NULL. The parser reads the text back unless it nests too deep. -/
theorem rendered_rows {arrow : Arrow} {who : String} (faithful : arrow.Faithful) {mode : Mode}
    {field : Field} {position : Nat} {column : Column} {texts : Texts} (fits : column.Valid)
    (holds : column.HoldsJson field.marker)
    (run : render arrow who mode field position column = .ok texts) :
    texts.length = column.length ∧ ∀ row,
      match inRow texts row with
      | none => Shows arrow mode field.marker column row none
      | some text => ∃ json, Shows arrow mode field.marker column row (some json) ∧
          Spelled text json ∧ (nesting json ≤ maxDepth → parse arrow.shown text = .ok json) := by
  obtain ⟨counted, each⟩ := render_shows faithful column fits holds run
  refine ⟨counted, fun row => ?_⟩
  obtain ⟨json, shows, spelled⟩ := each row
  cases text : inRow texts row with
  | none =>
      rw [text] at spelled
      cases spelled
      exact shows
  | some text' =>
      rw [text] at spelled
      cases spelled with
      | some spelled =>
          exact ⟨_, shows, spelled, fun shallow =>
            (parse_spelled arrow.shown text' _).mpr ⟨spelled, shallow⟩⟩

/-- Casts of text and of integers, and of nothing else. -/
def plainArrow : Arrow where
  asText
    | .text values => .ok values
    | .integer values => .ok (values.map fun value => value.map ToString.toString)
    | _ => .error "no cast"
  typeName _ := "a type"
  dateTime _ _ := none
  debug := id
  shown := String.singleton

theorem plainArrow_faithful : plainArrow.Faithful where
  text := by
    intro values texts cast
    cases cast
    rfl
  integer := by
    intro values texts cast
    cases cast
    rfl
  rows := by
    intro column texts cast
    cases column with
    | text values =>
        cases cast
        rfl
    | integer values =>
        cases cast
        exact List.length_map _
    | null _ => cases cast
    | boolean _ => cases cast
    | float32 _ => cases cast
    | float64 _ => cases cast
    | decimal128 _ _ => cases cast
    | decimal256 _ _ => cases cast
    | timestamp _ _ _ => cases cast
    | time _ => cases cast
    | span _ => cases cast
    | list _ _ _ _ => cases cast
    | fixedSizeList _ _ _ _ => cases cast
    | struct _ _ => cases cast
    | dictionary _ => cases cast
    | other _ => cases cast

/-- A list of an integer and a NULL. -/
theorem rendered_rows_list :
    ∃ texts, render plainArrow "CAST(.. AS JSON)" .cast ⟨"list", true, none⟩ 1
        (.list ⟨"item", true, none⟩ [0, 2] [true] (.integer [some 5, none])) = .ok texts ∧
      texts.length = 1 := by
  refine ⟨_, rfl, ?_⟩
  exact (rendered_rows plainArrow_faithful (by exact ⟨rfl, by decide, trivial⟩) (by exact trivial)
    (show render plainArrow "CAST(.. AS JSON)" .cast ⟨"list", true, none⟩ 1
      (.list ⟨"item", true, none⟩ [0, 2] [true] (.integer [some 5, none])) = .ok _ from rfl)).1

end Ddi.JsonBuild
