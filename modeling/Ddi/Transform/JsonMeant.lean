/-
What an expression of constructors says in a row, told by the expression alone, and that the text it
gives is JSON of that.
-/

import Ddi.Lib.Walks
import Ddi.Transform.JsonBuilt

namespace Ddi.JsonBuild

open Ddi.Jsonval

/-- A proof for every expression from one for each kind of them, given it of the arguments. -/
@[elab_as_elim]
theorem Expr.nested {motive : Expr → Prop} (value : ∀ field held, motive (.value field held))
    (call : ∀ kind args, (∀ arg ∈ args, motive arg) → motive (.call kind args)) (expr : Expr) :
    motive expr := by
  refine @Expr.rec motive (fun args => ∀ arg ∈ args, motive arg) value call ?_ ?_ expr
  · exact fun arg inside => by cases inside
  · exact fun first rest holds all => List.forall_mem_cons.mpr ⟨holds, all⟩

/-! ### What an expression says -/

/-- How an expression is read: for the JSON that its text holds, or for what it is in a constructor
or under a cast. -/
inductive Reading
  | held
  | shown (mode : Mode)

/-- The varchar of JSON, in quotes. -/
def VarcharOf : Option Json → Option Json → Prop
  | none, json => json = none
  | some held, json => ∃ found, varchar held = .ok found ∧ json = found.map .string

/-- What a text is read as, of the JSON it holds: text that is not marked is a string. -/
def ReadAs (reading : Reading) (marker : Option Marker) (text : Option String → Prop)
    (holds : Option Json → Prop) (json : Option Json) : Prop :=
  match reading with
  | .held => holds json
  | .shown mode =>
      match marker with
      | none => ∃ own, text own ∧ json = own.map .string
      | some marker =>
          if marker = .typed ∧ mode = .member then ∃ held, holds held ∧ VarcharOf held json
          else holds json

section Says

variable (arrow : Arrow) (rows row : Nat)

/-- The text of an expression. -/
def TextOf (expr : Expr) (text : Option String) : Prop :=
  ∃ value column texts, expr.eval arrow rows = .ok value ∧ toArray rows value = .ok column ∧
    arrow.asText column = .ok texts ∧ text = inRow texts row

/-- The key that an expression is. -/
def KeyOf (position : Nat) (expr : Expr) (key : Option String) : Prop :=
  ∃ value own, expr.eval arrow rows = .ok value ∧
    keyColumn arrow Build.object.spelling position value = .ok own ∧ key = own.inRow row

/-- The flag that an expression is. -/
def FlagOf (kind : Build) (expr : Expr) (absent : Bool) : Prop :=
  ∃ value, expr.eval arrow rows = .ok value ∧ absentOnNull kind (some value) = .ok absent

mutual

/-- What an expression says in a row. -/
def Expr.Says : Reading → Expr → Option Json → Prop
  | reading, .value field held, json =>
      ∃ column, toArray rows held = .ok column ∧
        match reading with
        | .held => ∃ texts, arrow.asText column = .ok texts ∧
            Option.Rel Spelled (inRow texts row) json
        | .shown mode => Shows arrow mode field.field.marker column row json
  | _, .call _ [], _ => False
  | reading, .call kind (first :: rest), json =>
      let text := TextOf arrow rows row (.call kind (first :: rest))
      match kind with
      | .object =>
          ReadAs reading none text (fun json => ∃ absent members pairs,
            FlagOf arrow rows .object first absent ∧ MembersSay 1 rest members ∧
              Keyed (inserted absent .null members) pairs ∧ json = some (.object (hashed pairs)))
            json
      | .array =>
          ReadAs reading none text (fun json => ∃ absent elements,
            FlagOf arrow rows .array first absent ∧ ElementsSay rest elements ∧
              json = some (.array (listed absent .null elements))) json
      | .toJson => ReadAs reading (some .typed) text (first.Says (.shown .cast)) json
      | .formatJson =>
          ReadAs reading (some .formatted) text (fun json => ∃ held, first.Says .held held ∧
            json = held.map (arranged .lastWins .javaDouble)) json
      | .embed => ReadAs reading (some .formatted) text (first.Says .held) json
      | .asJson =>
          ∃ fields, planAll rest = .ok fields ∧
            if asJsonTyped fields then ReadAs reading (some .typed) text (first.Says .held) json
            else first.Says reading json
      | .text =>
          ReadAs reading none text (fun json => ∃ own, text own ∧ Option.Rel Spelled own json) json

/-- What the elements of an array say. -/
def ElementsSay : List Expr → List (Option Json) → Prop
  | [], elements => elements = []
  | expr :: exprs, elements =>
      ∃ json others, expr.Says (.shown .member) json ∧ ElementsSay exprs others ∧
        elements = json :: others

/-- The keys of an object's members and what the members say. -/
def MembersSay : Nat → List Expr → List (Option String × Option Json) → Prop
  | position, key :: value :: exprs, members =>
      ∃ own json others, KeyOf arrow rows row position key own ∧
        value.Says (.shown .member) json ∧ MembersSay (position + 1) exprs others ∧
          members = (own, json) :: others
  | _, _, members => members = []

end

end Says

/-! ### What is promised of an expression -/

section Sound

variable (arrow : Arrow) (rows : Nat)

def Expr.Constructs : Expr → Prop
  | .call .object _ => True
  | .call .array _ => True
  | _ => False

/-- A value of the batch, each text of which is JSON. -/
def Expr.HoldsJson : Expr → Prop
  | .value _ held => ∀ column texts, toArray rows held = .ok column →
      arrow.asText column = .ok texts → ∀ text, some text ∈ texts → ∃ json, Spelled text json
  | .call _ _ => False

/-- Only a constructor is embedded as it was built, and only what is JSON gets its type back. -/
def Proper : Build → List Expr → Prop
  | .embed, first :: _ => first.Constructs
  | .asJson, first :: rest =>
      ∀ fields, planAll rest = .ok fields → asJsonTyped fields = true → first.HoldsJson arrow rows
  | _, _ => True

mutual

/-- An expression as the rewrite makes it, of values that hold JSON where they are marked. -/
def Expr.Sound : Expr → Prop
  | .value field held => ∃ column, toArray rows held = .ok column ∧ column.length = rows ∧
      column.Valid ∧ column.HoldsJson field.field.marker
  | .call kind args => Proper arrow rows kind args ∧ AllSound args

def AllSound : List Expr → Prop
  | [] => True
  | expr :: exprs => expr.Sound ∧ AllSound exprs

end

end Sound

/-! ### What is given -/

theorem spelled_rel_unique {text : Option String} {json other : Option Json}
    (spelled : Option.Rel Spelled text json) (again : Option.Rel Spelled text other) :
    json = other := by
  cases spelled with
  | none =>
      cases again
      rfl
  | some one =>
      cases again with
      | some another => exact congrArg some (one.unique another)

section Meant

variable (arrow : Arrow) (rows : Nat)

/-- A column that an expression gives is what the expression says: as it is rendered, and for the
JSON in its text. -/
structure Meant (expr : Expr) (field : ArgField) (column : Column) : Prop where
  counted : column.length = rows
  shown : ∀ mode who own position texts, own.marker = field.field.marker →
    render arrow who mode own position column = .ok texts → texts.length = rows ∧
      ∀ row < rows, ∃ json, expr.Says arrow rows row (.shown mode) json ∧
        Option.Rel Spelled (inRow texts row) json
  held : ∀ texts, arrow.asText column = .ok texts → ∀ row < rows, ∀ json,
    Option.Rel Spelled (inRow texts row) json → expr.Says arrow rows row .held json
  built : expr.Constructs → ∀ texts, arrow.asText column = .ok texts → ∀ row < rows,
    ∃ text json, inRow texts row = some text ∧ Spelled text json

/-- Whatever a sound expression gives is what it says. -/
def Known (expr : Expr) : Prop :=
  ∀ field value, expr.Sound arrow rows → expr.plan = .ok field → expr.eval arrow rows = .ok value →
    ∃ column, toArray rows value = .ok column ∧ Meant arrow rows expr field column

end Meant

section Given

variable {arrow : Arrow} {rows : Nat}

theorem known_value (faithful : arrow.Faithful) (field : ArgField) (held : ColumnarValue) :
    Known arrow rows (.value field held) := by
  intro planned value sound plan evaluated
  cases plan
  cases evaluated
  obtain ⟨column, sized, counted, fits, holds⟩ := sound
  refine ⟨column, sized, counted, ?_, ?_, fun never => never.elim⟩
  · intro mode who own position texts marked run
    rw [← marked] at holds
    obtain ⟨length, each⟩ := render_shows faithful column fits holds run
    refine ⟨length.trans counted, fun row _ => ?_⟩
    obtain ⟨json, shows, spelled⟩ := each row
    rw [marked] at shows
    exact ⟨json, ⟨column, sized, shows⟩, spelled⟩
  · intro texts cast row _ json spelled
    exact ⟨column, sized, texts, cast, spelled⟩

/-- Text that is rendered was cast to text. -/
theorem render_text_cast {who : String} {mode : Mode} {field : Field} {position : Nat}
    {values texts : Texts} (run : render arrow who mode field position (.text values) = .ok texts) :
    ∃ found, arrow.asText (.text values) = .ok found := by
  cases cast : asText arrow who (.text values) with
  | ok found => exact ⟨found, asText_ok cast⟩
  | error error =>
      unfold render at run
      split at run
      · unfold jsonToVarchar at run
        rw [cast] at run
        cases run
      · rw [cast] at run
        cases run

/-- Text that is marked is read for the JSON in it. -/
theorem readAs_marked {mode : Mode} {marker : Marker} {text : Option String}
    {isText : Option String → Prop} {holds : Option Json → Prop} {own json : Option Json}
    (held : holds own) (spelled : Option.Rel Spelled text own)
    (shows : TextShows mode (some marker) text json) :
    ReadAs (.shown mode) (some marker) isText holds json := by
  by_cases scalar : marker = .typed ∧ mode = .member
  · have varchar : VarcharShows text json := by
      rw [TextShows, if_pos scalar] at shows
      exact shows
    have read : ∃ held, holds held ∧ VarcharOf held json := by
      refine ⟨own, held, ?_⟩
      cases spelled with
      | none => exact varchar
      | some spelled =>
          obtain ⟨one, found, again, scalar, same⟩ := varchar
          rw [spelled.unique again]
          exact ⟨found, scalar, same⟩
    rw [ReadAs]
    exact (if_pos scalar).mpr read
  · rw [textShows_embedded scalar] at shows
    rw [spelled_rel_unique shows spelled, ReadAs]
    exact (if_neg scalar).mpr held

/-- A call that gives text: it is what it holds where it is marked, and a string where it is not. -/
theorem meant_texts (faithful : arrow.Faithful) {expr : Expr} {field : ArgField} {texts : Texts}
    (holds : Nat → Option Json → Prop)
    (evaluated : expr.eval arrow rows = .ok (.array (.text texts))) (counted : texts.length = rows)
    (tells : ∀ row reading json, ReadAs reading field.field.marker (TextOf arrow rows row expr)
      (holds row) json → expr.Says arrow rows row reading json)
    (wrote : field.field.marker ≠ none → ∀ row < rows, ∃ json, holds row json ∧
      Option.Rel Spelled (inRow texts row) json)
    (holding : arrow.asText (.text texts) = .ok texts → ∀ row < rows, ∀ json,
      Option.Rel Spelled (inRow texts row) json → holds row json)
    (built : expr.Constructs → ∀ row < rows, ∃ text json, inRow texts row = some text ∧
      Spelled text json) :
    Meant arrow rows expr field (.text texts) := by
  refine ⟨counted, ?_, ?_, ?_⟩
  · intro mode who own position outs marked run
    have json : (Column.text texts).HoldsJson own.marker := by
      intro some text among
      rw [marked] at some
      obtain ⟨place, at_, found⟩ := List.getElem_of_mem among
      obtain ⟨json, _, spelled⟩ := wrote some place (counted ▸ at_)
      have held : inRow texts place = Option.some text := (inRow_of_getElem at_).trans found
      rw [held] at spelled
      cases spelled with
      | some spelled => exact ⟨_, spelled⟩
    obtain ⟨length, each⟩ := text_shows faithful json run
    refine ⟨length.trans counted, fun row within => ?_⟩
    obtain ⟨json, shows, spelled⟩ := each row
    refine ⟨json, tells row _ json ?_, spelled⟩
    rw [marked] at shows
    cases marker : field.field.marker with
    | none =>
        rw [marker] at shows
        obtain ⟨found, cast⟩ := render_text_cast run
        have same := faithful.text _ _ cast
        rw [same] at cast
        exact ⟨_, ⟨_, _, _, evaluated, rfl, cast, rfl⟩, shows⟩
    | some marker' =>
        rw [marker] at shows
        obtain ⟨own, held, again⟩ := wrote (by rw [marker]; exact Option.some_ne_none _) row within
        exact readAs_marked held again shows
  · intro found cast row within json spelled
    have same := faithful.text _ _ cast
    rw [same] at cast spelled
    exact tells row .held json (holding cast row within json spelled)
  · intro constructs found cast row within
    rw [faithful.text _ _ cast]
    exact built constructs row within

/-- What is written in each row is what the text holds. -/
theorem wrote_holding {texts : Texts} {holds : Nat → Option Json → Prop}
    (wrote : ∀ row < rows, ∃ json, holds row json ∧ Option.Rel Spelled (inRow texts row) json)
    {row : Nat} (within : row < rows) {json : Option Json}
    (spelled : Option.Rel Spelled (inRow texts row) json) : holds row json := by
  obtain ⟨own, held, again⟩ := wrote row within
  rw [spelled_rel_unique spelled again]
  exact held

/-! ### Calls -/

theorem planAll_cons {expr : Expr} {exprs : List Expr} {fields : List ArgField}
    (plan : planAll (expr :: exprs) = .ok fields) :
    ∃ field others, expr.plan = .ok field ∧ planAll exprs = .ok others ∧
      fields = field :: others := by
  unfold planAll at plan
  obtain ⟨field, first, plan⟩ := Walks.bind_ok_iff.mp plan
  obtain ⟨others, rest, same⟩ := Walks.bind_ok_iff.mp plan
  exact ⟨field, others, first, rest, (Except.ok.inj same).symm⟩

theorem evalAll_cons {expr : Expr} {exprs : List Expr} {values : List ColumnarValue}
    (run : evalAll arrow rows (expr :: exprs) = .ok values) :
    ∃ value others, expr.eval arrow rows = .ok value ∧ evalAll arrow rows exprs = .ok others ∧
      values = value :: others := by
  unfold evalAll at run
  obtain ⟨value, first, run⟩ := Walks.bind_ok_iff.mp run
  obtain ⟨others, rest, same⟩ := Walks.bind_ok_iff.mp run
  exact ⟨value, others, first, rest, (Except.ok.inj same).symm⟩

/-- A call that was planned and run. -/
theorem call_ok {kind : Build} {args : List Expr} {field : ArgField} {value : ColumnarValue}
    (plan : (Expr.call kind args).plan = .ok field)
    (evaluated : (Expr.call kind args).eval arrow rows = .ok value) :
    ∃ fields values, planAll args = .ok fields ∧ evalAll arrow rows args = .ok values ∧
      returnField kind fields (args.head?.bind Expr.literal) = .ok field ∧
      invoke arrow kind values fields rows = .ok value := by
  unfold Expr.plan at plan
  unfold Expr.eval at evaluated
  obtain ⟨fields, planned, checked⟩ := Walks.bind_ok_iff.mp plan
  obtain ⟨again, planned', evaluated⟩ := Walks.bind_ok_iff.mp evaluated
  obtain ⟨values, ran, run⟩ := Walks.bind_ok_iff.mp evaluated
  rw [planned] at planned'
  cases planned'
  exact ⟨fields, values, planned, ran, checked, run⟩

/-- What a function other than the identity of what is no JSON gives is text. -/
theorem invoke_texts {kind : Build} {args : List ColumnarValue} {fields : List ArgField}
    {value : ColumnarValue} (run : invoke arrow kind args fields rows = .ok value)
    (typed : kind = .asJson → asJsonTyped fields.tail = true) :
    ∃ outs, texts arrow kind args fields rows = .ok outs ∧ value = .array (.text outs) := by
  have mapped : (texts arrow kind args fields rows).map (fun texts =>
      ColumnarValue.array (.text texts)) = .ok value := by
    unfold invoke at run
    split at run
    · rw [if_pos (typed rfl)] at run
      exact run
    · exact run
  cases found : texts arrow kind args fields rows with
  | error error =>
      rw [found] at mapped
      cases mapped
  | ok outs =>
      rw [found] at mapped
      cases mapped
      exact ⟨outs, rfl, rfl⟩

/-- The marker of what each function gives. -/
def markerOf : Build → Option Marker
  | .object | .array | .text => none
  | .toJson | .asJson => some .typed
  | .formatJson | .embed => some .formatted

theorem returnField_marker {kind : Build} {args : List ArgField} {first : Option ColumnarValue}
    {field : ArgField} (plan : returnField kind args first = .ok field)
    (typed : kind = .asJson → asJsonTyped args.tail = true) :
    field.field.marker = markerOf kind := by
  cases kind with
  | object =>
      unfold returnField at plan
      obtain ⟨_, _, plan⟩ := Walks.bind_ok_iff.mp plan
      split at plan
      · cases plan
      · obtain ⟨_, _, same⟩ := Walks.bind_ok_iff.mp plan
        cases same
        rfl
  | array =>
      unfold returnField at plan
      obtain ⟨_, _, same⟩ := Walks.bind_ok_iff.mp plan
      cases same
      rfl
  | toJson =>
      cases plan
      rfl
  | text =>
      cases plan
      rfl
  | formatJson =>
      unfold returnField at plan
      dsimp only at plan
      split at plan
      · cases plan
      · split at plan
        · cases plan
        · split at plan
          · cases plan
          · cases plan
            rfl
  | embed =>
      unfold returnField at plan
      dsimp only at plan
      split at plan
      · cases plan
      · split at plan
        · cases plan
        · split at plan
          · cases plan
          · cases plan
            rfl
  | asJson =>
      unfold returnField at plan
      rw [typed rfl] at plan
      dsimp only at plan
      split at plan
      · cases plan
      · split at plan
        · next never => cases never
        · split at plan
          · cases plan
          · cases plan
            rfl

/-- What a call other than the identity of what is no JSON gives, of its first argument. -/
theorem call_texts {kind : Build} {first : Expr} {rest : List Expr} {field : ArgField}
    {value : ColumnarValue} (known : Known arrow rows first) (sound : first.Sound arrow rows)
    (plan : (Expr.call kind (first :: rest)).plan = .ok field)
    (evaluated : (Expr.call kind (first :: rest)).eval arrow rows = .ok value)
    (typed : kind = .asJson → ∀ fields, planAll rest = .ok fields → asJsonTyped fields = true) :
    ∃ own others held values column outs, first.plan = .ok own ∧ planAll rest = .ok others ∧
      first.eval arrow rows = .ok held ∧ evalAll arrow rows rest = .ok values ∧
      toArray rows held = .ok column ∧ Meant arrow rows first own column ∧
      texts arrow kind (held :: values) (own :: others) rows = .ok outs ∧
      value = .array (.text outs) ∧ field.field.marker = markerOf kind := by
  obtain ⟨fields, args, planned, ran, checked, run⟩ := call_ok plan evaluated
  obtain ⟨own, others, first', rest', same⟩ := planAll_cons planned
  obtain ⟨held, values, first'', rest'', same'⟩ := evalAll_cons ran
  obtain ⟨column, sized, meant⟩ := known own held sound first' first''
  rw [same] at checked run
  rw [same'] at run
  have tail : kind = .asJson → asJsonTyped (own :: others).tail = true :=
    fun isAs => typed isAs others rest'
  obtain ⟨outs, found, given⟩ := invoke_texts run tail
  exact ⟨own, others, held, values, column, outs, first', rest', first'', rest'', sized, meant,
    found, given, returnField_marker checked tail⟩

theorem known_toJson (faithful : arrow.Faithful) {first : Expr} {rest : List Expr}
    (known : Known arrow rows first) : Known arrow rows (.call .toJson (first :: rest)) := by
  intro field value sound plan evaluated
  obtain ⟨own, others, held, values, column, outs, _, _, _, _, sized, meant, found, same, marker⟩ :=
    call_texts known sound.2.1 plan evaluated (fun never => by cases never)
  subst same
  unfold texts at found
  obtain ⟨column', sized', run⟩ := Walks.bind_ok_iff.mp found
  rw [sized] at sized'
  cases sized'
  obtain ⟨counted, wrote⟩ := meant.shown .cast _ own.field 1 outs rfl run
  refine ⟨_, rfl, meant_texts faithful (fun row => first.Says arrow rows row (.shown .cast))
    evaluated counted ?_ (fun _ => wrote) ?_ (fun never => never.elim)⟩
  · intro row reading json read
    rw [marker] at read
    exact read
  · intro _ row within json spelled
    exact wrote_holding wrote within spelled

theorem known_embed (faithful : arrow.Faithful) {first : Expr} {rest : List Expr}
    (known : Known arrow rows first) : Known arrow rows (.call .embed (first :: rest)) := by
  intro field value sound plan evaluated
  obtain ⟨own, others, held, values, column, outs, _, _, _, _, sized, meant, found, same, marker⟩ :=
    call_texts known sound.2.1 plan evaluated (fun never => by cases never)
  subst same
  unfold texts at found
  obtain ⟨column', sized', run⟩ := Walks.bind_ok_iff.mp found
  rw [sized] at sized'
  cases sized'
  have cast := asText_ok run
  have wrote : ∀ row < rows, ∃ json, first.Says arrow rows row .held json ∧
      Option.Rel Spelled (inRow outs row) json := by
    intro row within
    obtain ⟨text, json, held, spelled⟩ := meant.built sound.1 outs cast row within
    have given : Option.Rel Spelled (inRow outs row) (some json) := by
      rw [held]
      exact .some spelled
    exact ⟨some json, meant.held outs cast row within _ given, given⟩
  have counted : outs.length = rows := (faithful.rows _ _ cast).trans meant.counted
  refine ⟨_, rfl, meant_texts faithful (fun row => first.Says arrow rows row .held) evaluated
    counted ?_ (fun _ => wrote) ?_ (fun never => never.elim)⟩
  · intro row reading json read
    rw [marker] at read
    exact read
  · intro _ row within json spelled
    exact wrote_holding wrote within spelled

theorem known_formatJson (faithful : arrow.Faithful) {first : Expr} {rest : List Expr}
    (known : Known arrow rows first) : Known arrow rows (.call .formatJson (first :: rest)) := by
  intro field value sound plan evaluated
  obtain ⟨own, others, held, values, column, outs, _, _, _, _, sized, meant, found, same, marker⟩ :=
    call_texts known sound.2.1 plan evaluated (fun never => by cases never)
  subst same
  unfold texts at found
  obtain ⟨column', sized', run⟩ := Walks.bind_ok_iff.mp found
  rw [sized] at sized'
  cases sized'
  obtain ⟨raw, cast, run⟩ := Walks.bind_ok_iff.mp run
  have cast := asText_ok cast
  obtain ⟨length, each⟩ := inRow_zipIdx run fun row => rfl
  have wrote : ∀ row < rows, ∃ json, (∃ held, first.Says arrow rows row .held held ∧
      json = held.map (arranged .lastWins .javaDouble)) ∧
        Option.Rel Spelled (inRow outs row) json := by
    intro row within
    have own := each row
    have holds := meant.held raw cast row within
    cases text : inRow raw row with
    | none =>
        rw [text] at own holds
        rw [← Except.ok.inj own]
        exact ⟨none, ⟨none, holds none .none, rfl⟩, .none⟩
    | some text' =>
        rw [text] at own holds
        unfold formattedAt formatted at own
        dsimp only at own
        cases read : parse arrow.shown text' with
        | error error =>
            rw [read] at own
            cases own
        | ok doc =>
            rw [read] at own
            rw [← Except.ok.inj own]
            have again := parse_toString arrow.shown read .lastWins .javaDouble .utf8
            refine ⟨some (arranged .lastWins .javaDouble doc), ⟨some doc, holds _ ?_, rfl⟩, ?_⟩
            · exact .some ((parse_spelled _ _ _).mp read).1
            · exact .some ((parse_spelled _ _ _).mp again).1
  have counted : outs.length = rows :=
    (length.trans (faithful.rows _ _ cast)).trans meant.counted
  refine ⟨_, rfl, meant_texts faithful _ evaluated counted ?_ (fun _ => wrote) ?_
    (fun never => never.elim)⟩
  · intro row reading json read
    rw [marker] at read
    exact read
  · intro _ row within json spelled
    exact wrote_holding wrote within spelled

theorem length_zipIdx_mapM {step : Nat → Option String → Except Fault (Option String)}
    {values outs : Texts}
    (run : (values.zipIdx.mapM fun (value, row) => step row value) = .ok outs) :
    outs.length = values.length := by
  have paired := (Paired.mapM_ok _ _ _).mp run
  have counted := paired.length_eq
  rw [List.length_zipIdx] at counted
  exact counted.symm

theorem known_text (faithful : arrow.Faithful) {first : Expr} {rest : List Expr}
    (known : Known arrow rows first) : Known arrow rows (.call .text (first :: rest)) := by
  intro field value sound plan evaluated
  obtain ⟨own, others, held, values, column, outs, _, _, _, _, sized, meant, found, same, marker⟩ :=
    call_texts known sound.2.1 plan evaluated (fun never => by cases never)
  subst same
  unfold texts at found
  obtain ⟨column', sized', run⟩ := Walks.bind_ok_iff.mp found
  rw [sized] at sized'
  cases sized'
  have counted : outs.length = rows := by
    split at run
    · unfold jsonToVarchar at run
      obtain ⟨raw, cast, run⟩ := Walks.bind_ok_iff.mp run
      exact (length_zipIdx_mapM run).trans
        ((faithful.rows _ _ (asText_ok cast)).trans meant.counted)
    · exact (faithful.rows _ _ (asText_ok run)).trans meant.counted
  refine ⟨_, rfl, meant_texts faithful (fun row json => ∃ own,
    TextOf arrow rows row (.call .text (first :: rest)) own ∧ Option.Rel Spelled own json) evaluated
    counted ?_ (fun some => (some marker).elim) ?_ (fun never => never.elim)⟩
  · intro row reading json read
    rw [marker] at read
    exact read
  · intro cast row within json spelled
    exact ⟨_, ⟨_, _, _, evaluated, rfl, cast, rfl⟩, spelled⟩

/-- Text whose texts are JSON. -/
theorem Expr.HoldsJson.rel {expr : Expr} (holds : expr.HoldsJson arrow rows)
    {value : ColumnarValue} {column : Column} {texts : Texts}
    (evaluated : expr.eval arrow rows = .ok value) (sized : toArray rows value = .ok column)
    (cast : arrow.asText column = .ok texts) (row : Nat) :
    ∃ json, Option.Rel Spelled (inRow texts row) json := by
  cases expr with
  | call kind args => exact holds.elim
  | value field held =>
      cases evaluated
      cases text : inRow texts row with
      | none => exact ⟨none, .none⟩
      | some text' =>
          obtain ⟨json, spelled⟩ := holds column texts sized cast text' (mem_of_inRow text)
          exact ⟨some json, .some spelled⟩

/-- What turns out to be no JSON is given back, with its own type. -/
theorem invoke_untyped {held : ColumnarValue} {values : List ColumnarValue} {own : ArgField}
    {others : List ArgField} (untyped : asJsonTyped others = false) :
    invoke arrow .asJson (held :: values) (own :: others) rows = .ok held :=
  if_neg (fun typed => Bool.false_ne_true (untyped.symm.trans typed))

theorem returnField_untyped {own : ArgField} {others : List ArgField}
    {first : Option ColumnarValue} (untyped : asJsonTyped others = false) :
    returnField .asJson (own :: others) first =
      .ok { own with field := { own.field with name := Build.asJson.name } } :=
  if_pos (congrArg Bool.not untyped)

theorem known_asJson (faithful : arrow.Faithful) {first : Expr} {rest : List Expr}
    (known : Known arrow rows first) : Known arrow rows (.call .asJson (first :: rest)) := by
  intro field value sound plan evaluated
  obtain ⟨fields, args, planned, ran, checked, run⟩ := call_ok plan evaluated
  obtain ⟨own, others, first', rest', same⟩ := planAll_cons planned
  obtain ⟨held, values, first'', rest'', same'⟩ := evalAll_cons ran
  cases typed : asJsonTyped others with
  | true =>
      obtain ⟨own, others', held, values, column, outs, _, again, ran, _, sized, meant, found, same,
        marker⟩ := call_texts known sound.2.1 plan evaluated fun _ fields other => by
          rw [rest'] at other
          cases other
          exact typed
      rw [rest'] at again
      cases again
      subst same
      unfold texts at found
      obtain ⟨column', sized', run⟩ := Walks.bind_ok_iff.mp found
      rw [sized] at sized'
      cases sized'
      have cast := asText_ok run
      have wrote : ∀ row < rows, ∃ json, first.Says arrow rows row .held json ∧
          Option.Rel Spelled (inRow outs row) json := by
        intro row within
        obtain ⟨json, spelled⟩ := (sound.1 others rest' typed).rel ran sized cast row
        exact ⟨json, meant.held outs cast row within json spelled, spelled⟩
      have counted : outs.length = rows := (faithful.rows _ _ cast).trans meant.counted
      refine ⟨_, rfl, meant_texts faithful (fun row => first.Says arrow rows row .held) evaluated
        counted ?_ (fun _ => wrote) ?_ (fun never => never.elim)⟩
      · intro row reading json read
        rw [marker] at read
        exact ⟨others, rest', (if_pos typed).mpr read⟩
      · intro _ row within json spelled
        exact wrote_holding wrote within spelled
  | false =>
      have untyped : ¬asJsonTyped others = true := by
        rw [typed]
        exact Bool.false_ne_true
      rw [same] at checked run
      rw [same'] at run
      have itself : value = held := by
        rw [invoke_untyped typed] at run
        exact (Except.ok.inj run).symm
      have marked : field.field.marker = own.field.marker := by
        rw [returnField_untyped typed] at checked
        cases checked
        rfl
      obtain ⟨column, sized, meant⟩ := known own held sound.2.1 first' first''
      rw [itself]
      refine ⟨column, sized, meant.counted, ?_, ?_, fun never => never.elim⟩
      · intro mode who inner position texts own' run
        obtain ⟨length, each⟩ := meant.shown mode who inner position texts (own'.trans marked) run
        refine ⟨length, fun row within => ?_⟩
        obtain ⟨json, tells, spelled⟩ := each row within
        exact ⟨json, ⟨others, rest', (if_neg untyped).mpr tells⟩, spelled⟩
      · intro texts cast row within json spelled
        exact ⟨others, rest', (if_neg untyped).mpr (meant.held texts cast row within json spelled)⟩

/-! ### Constructors -/

theorem listed_spelled {values : List (Option String)} {jsons : List (Option Json)}
    (each : List.Forall₂ (Option.Rel Spelled) values jsons) (absentOnNull : Bool) :
    List.Forall₂ Spelled (listed absentOnNull "null" values) (listed absentOnNull .null jsons) := by
  induction each with
  | nil => exact .nil
  | cons first _ inductionHypothesis =>
      cases first with
      | none =>
          cases absentOnNull with
          | true => exact inductionHypothesis
          | false => exact .cons spelled_null inductionHypothesis
      | some spelled => exact .cons spelled inductionHypothesis

/-- A row's array is JSON of the elements that are not left out. -/
theorem buildArrays_spelled {columns : List Texts} {row : Nat} (within : row < rows)
    {jsons : List (Option Json)} (absentOnNull : Bool)
    (each : List.Forall₂ (Option.Rel Spelled) (columns.map fun texts => inRow texts row) jsons) :
    ∃ text, inRow (buildArrays columns rows absentOnNull) row = some text ∧
      Spelled text (.array (listed absentOnNull .null jsons)) := by
  refine ⟨bracketed (listed absentOnNull "null" (columns.map fun texts => inRow texts row)), ?_,
    spelled_bracketed (listed_spelled each absentOnNull)⟩
  unfold inRow buildArrays
  rw [List.getElem?_map, List.getElem?_range within]
  refine congrArg (fun items => some (bracketed items)) ?_
  rw [listed, List.filterMap_map]
  apply List.filterMap_congr
  intro texts _
  rw [Function.comp_apply, inRow]
  cases (texts[row]?).join <;> rfl

/-- The elements that are rendered are what the arguments say. -/
theorem elements_meant {kind : Build} {exprs : List Expr}
    (known : ∀ expr ∈ exprs, Known arrow rows expr) (sound : AllSound arrow rows exprs) :
    ∀ fields values position columns, planAll exprs = .ok fields →
      evalAll arrow rows exprs = .ok values →
      arrayElements arrow kind rows position values fields = .ok columns →
      ∀ row < rows, ∃ jsons, ElementsSay arrow rows row exprs jsons ∧
        List.Forall₂ (Option.Rel Spelled) (columns.map fun texts => inRow texts row) jsons := by
  induction exprs with
  | nil =>
      intro fields values position columns plan run built row _
      cases plan
      cases run
      cases built
      exact ⟨[], rfl, .nil⟩
  | cons expr exprs inductionHypothesis =>
      intro fields values position columns plan run built row within
      obtain ⟨field, others, first, rest, same⟩ := planAll_cons plan
      obtain ⟨value, more, first', rest', same'⟩ := evalAll_cons run
      subst same same'
      unfold arrayElements at built
      obtain ⟨column, sized, built⟩ := Walks.bind_ok_iff.mp built
      obtain ⟨texts, rendered, built⟩ := Walks.bind_ok_iff.mp built
      obtain ⟨later, remaining, given⟩ := Walks.bind_ok_iff.mp built
      obtain ⟨own, sized', meant⟩ := known expr List.mem_cons_self field value sound.1 first first'
      rw [sized] at sized'
      cases sized'
      obtain ⟨json, tells, spelled⟩ := (meant.shown _ _ _ _ _ rfl rendered).2 row within
      obtain ⟨jsons, others, each⟩ := inductionHypothesis
        (fun held among => known held (List.mem_cons_of_mem _ among)) sound.2 _ _ _ _ rest rest'
        remaining row within
      rw [← Except.ok.inj given]
      exact ⟨json :: jsons, ⟨json, jsons, tells, others, rfl⟩, .cons spelled each⟩

/-- The members that are rendered are what the arguments say, each with its key. -/
theorem members_meant (exprs : List Expr) : (∀ expr ∈ exprs, Known arrow rows expr) →
    AllSound arrow rows exprs →
    ∀ fields values position members, planAll exprs = .ok fields →
      evalAll arrow rows exprs = .ok values →
      objectMembers arrow .object rows position values fields = .ok members →
      ∀ row < rows, ∃ jsons,
        MembersSay arrow rows row position exprs (rowMembers (members.map Prod.fst) row jsons) ∧
        List.Forall₂ (Option.Rel Spelled)
          ((members.map Prod.snd).map fun texts => inRow texts row) jsons := by
  induction exprs using List.twoStepInduction with
  | nil =>
      intro _ _ fields values position members plan run built row _
      cases plan
      cases run
      cases built
      exact ⟨[], rfl, .nil⟩
  | singleton expr =>
      intro _ _ fields values position members plan run built row _
      obtain ⟨field, others, _, rest, same⟩ := planAll_cons plan
      obtain ⟨value, more, _, rest', same'⟩ := evalAll_cons run
      cases rest
      cases rest'
      subst same same'
      cases built
      exact ⟨[], rfl, .nil⟩
  | cons_cons key value exprs inductionHypothesis _ =>
      intro known sound fields values position members plan run built row within
      obtain ⟨keyField, fields', _, planned, same⟩ := planAll_cons plan
      obtain ⟨field, others, first, rest, same₂⟩ := planAll_cons planned
      obtain ⟨keyValue, values', keyed, ran, same₃⟩ := evalAll_cons run
      obtain ⟨held, more, first', rest', same₄⟩ := evalAll_cons ran
      subst same same₂ same₃ same₄
      unfold objectMembers at built
      obtain ⟨own, isKey, built⟩ := Walks.bind_ok_iff.mp built
      obtain ⟨column, sized, built⟩ := Walks.bind_ok_iff.mp built
      obtain ⟨texts, rendered, built⟩ := Walks.bind_ok_iff.mp built
      obtain ⟨later, remaining, given⟩ := Walks.bind_ok_iff.mp built
      obtain ⟨column', sized', meant⟩ := known value (List.mem_cons_of_mem _ List.mem_cons_self)
        field held sound.2.1 first first'
      rw [sized] at sized'
      cases sized'
      obtain ⟨json, tells, spelled⟩ := (meant.shown _ _ _ _ _ rfl rendered).2 row within
      obtain ⟨jsons, others, each⟩ := inductionHypothesis
        (fun held among => known held (List.mem_cons_of_mem _ (List.mem_cons_of_mem _ among)))
        sound.2.2 _ _ _ _ rest rest' remaining row within
      rw [← Except.ok.inj given]
      have isKeyOf : KeyOf arrow rows row position key (own.inRow row) :=
        ⟨keyValue, own, keyed, isKey, rfl⟩
      exact ⟨json :: jsons, ⟨_, json, _, isKeyOf, tells, others, rfl⟩, .cons spelled each⟩

theorem length_buildArrays (columns : List Texts) (absentOnNull : Bool) :
    (buildArrays columns rows absentOnNull).length = rows := by
  rw [buildArrays, List.length_map, List.length_range]

theorem known_array (faithful : arrow.Faithful) {first : Expr} {rest : List Expr}
    (known : Known arrow rows first) (others : ∀ expr ∈ rest, Known arrow rows expr) :
    Known arrow rows (.call .array (first :: rest)) := by
  intro field value sound plan evaluated
  obtain ⟨own, fields, held, values, column, outs, _, planned, flagged, ran, _, _, found, same,
    marker⟩ := call_texts known sound.2.1 plan evaluated (fun never => by cases never)
  subst same
  unfold texts at found
  obtain ⟨absent, flag, found⟩ := Walks.bind_ok_iff.mp found
  obtain ⟨columns, elements, given⟩ := Walks.bind_ok_iff.mp found
  have each := elements_meant others sound.2.2 fields values 1 columns planned ran elements
  rw [← Except.ok.inj given] at evaluated ⊢
  have wrote : ∀ row < rows, ∃ json, (∃ absent elements,
      FlagOf arrow rows .array first absent ∧ ElementsSay arrow rows row rest elements ∧
        json = some (.array (listed absent .null elements))) ∧
          Option.Rel Spelled (inRow (buildArrays columns rows absent) row) json := by
    intro row within
    obtain ⟨jsons, tells, spelled⟩ := each row within
    obtain ⟨text, held', written⟩ := buildArrays_spelled within absent spelled
    rw [held']
    exact ⟨_, ⟨absent, jsons, ⟨held, flagged, flag⟩, tells, rfl⟩, .some written⟩
  refine ⟨_, rfl, meant_texts faithful (fun row json => ∃ absent elements,
      FlagOf arrow rows .array first absent ∧ ElementsSay arrow rows row rest elements ∧
        json = some (.array (listed absent .null elements))) evaluated
    (length_buildArrays columns absent) ?_ (fun marked => (marked marker).elim) ?_ ?_⟩
  · intro row reading json read
    rw [marker] at read
    exact read
  · intro _ row within json spelled
    exact wrote_holding wrote within spelled
  · intro _ row within
    obtain ⟨jsons, _, spelled⟩ := each row within
    obtain ⟨text, held', written⟩ := buildArrays_spelled within absent spelled
    exact ⟨text, _, held', written⟩

theorem known_object (faithful : arrow.Faithful) {first : Expr} {rest : List Expr}
    (known : Known arrow rows first) (others : ∀ expr ∈ rest, Known arrow rows expr) :
    Known arrow rows (.call .object (first :: rest)) := by
  intro field value sound plan evaluated
  obtain ⟨own, fields, held, values, column, outs, _, planned, flagged, ran, _, _, found, same,
    marker⟩ := call_texts known sound.2.1 plan evaluated (fun never => by cases never)
  subst same
  unfold texts at found
  obtain ⟨absent, flag, found⟩ := Walks.bind_ok_iff.mp found
  obtain ⟨members, rendered, found⟩ := Walks.bind_ok_iff.mp found
  have run : buildObjects arrow.debug (members.map Prod.fst) (members.map Prod.snd) rows absent =
      .ok outs := by
    cases built : buildObjects arrow.debug (members.map Prod.fst) (members.map Prod.snd) rows
        absent with
    | error error =>
        rw [built] at found
        cases found
    | ok texts =>
        rw [built] at found
        cases found
        rfl
  have each := members_meant rest others sound.2.2 fields values 1 members planned ran rendered
  have fit : (members.map Prod.fst).length = (members.map Prod.snd).length := by
    rw [List.length_map, List.length_map]
  have objects : ∀ row < rows, ∃ text jsons pairs, inRow outs row = some text ∧
      MembersSay arrow rows row 1 rest (rowMembers (members.map Prod.fst) row jsons) ∧
      Keyed (inserted absent .null (rowMembers (members.map Prod.fst) row jsons)) pairs ∧
      Spelled text (.object (hashed pairs)) := by
    intro row within
    obtain ⟨jsons, tells, spelled⟩ := each row within
    obtain ⟨text, held', own⟩ := inRow_buildObjects run within
    obtain ⟨pairs, keyed, written⟩ := objectByRow_spelled fit own spelled
    exact ⟨text, jsons, pairs, held', tells, keyed, written⟩
  have wrote : ∀ row < rows, ∃ json, (∃ absent members pairs,
      FlagOf arrow rows .object first absent ∧ MembersSay arrow rows row 1 rest members ∧
        Keyed (inserted absent .null members) pairs ∧ json = some (.object (hashed pairs))) ∧
          Option.Rel Spelled (inRow outs row) json := by
    intro row within
    obtain ⟨text, jsons, pairs, held', tells, keyed, written⟩ := objects row within
    rw [held']
    exact ⟨_, ⟨absent, _, pairs, ⟨held, flagged, flag⟩, tells, keyed, rfl⟩, .some written⟩
  refine ⟨_, rfl, meant_texts faithful (fun row json => ∃ absent members pairs,
      FlagOf arrow rows .object first absent ∧ MembersSay arrow rows row 1 rest members ∧
        Keyed (inserted absent .null members) pairs ∧ json = some (.object (hashed pairs)))
    evaluated (length_buildObjects run) ?_ (fun marked => (marked marker).elim) ?_ ?_⟩
  · intro row reading json read
    rw [marker] at read
    exact read
  · intro _ row within json spelled
    exact wrote_holding wrote within spelled
  · intro _ row within
    obtain ⟨text, jsons, pairs, held', _, _, written⟩ := objects row within
    exact ⟨text, _, held', written⟩

/-- Whatever an expression of constructors gives is what it says. -/
theorem known (faithful : arrow.Faithful) (expr : Expr) : Known arrow rows expr := by
  induction expr using Expr.nested with
  | value field held => exact known_value faithful field held
  | call kind args arguments =>
      cases args with
      | nil =>
          intro field value _ plan evaluated
          obtain ⟨fields, values, planned, ran, _, run⟩ := call_ok plan evaluated
          cases planned
          cases ran
          cases kind <;> cases run
      | cons first rest =>
          obtain ⟨own, others⟩ := List.forall_mem_cons.mp arguments
          cases kind with
          | object => exact known_object faithful own others
          | array => exact known_array faithful own others
          | toJson => exact known_toJson faithful own
          | formatJson => exact known_formatJson faithful own
          | embed => exact known_embed faithful own
          | asJson => exact known_asJson faithful own
          | text => exact known_text faithful own

theorem constructs_texts {expr : Expr} {value : ColumnarValue} (constructs : expr.Constructs)
    (evaluated : expr.eval arrow rows = .ok value) : ∃ texts, value = .array (.text texts) := by
  cases expr with
  | value field held => exact constructs.elim
  | call kind args =>
      unfold Expr.eval at evaluated
      obtain ⟨fields, _, evaluated⟩ := Walks.bind_ok_iff.mp evaluated
      obtain ⟨values, _, run⟩ := Walks.bind_ok_iff.mp evaluated
      obtain ⟨outs, _, same⟩ := invoke_texts run fun never => by
        subst never
        exact constructs.elim
      exact ⟨outs, same⟩

/-- What a constructor gives is, in each row, JSON of what its expression says. -/
theorem composed (faithful : arrow.Faithful)
    (itself : ∀ values, arrow.asText (.text values) = .ok values) {expr : Expr} {field : ArgField}
    {value : ColumnarValue} (constructs : expr.Constructs) (sound : expr.Sound arrow rows)
    (planned : expr.plan = .ok field) (evaluated : expr.eval arrow rows = .ok value) :
    ∃ texts, value = .array (.text texts) ∧ texts.length = rows ∧
      ∀ row < rows, ∃ text json, inRow texts row = some text ∧ Spelled text json ∧
        expr.Says arrow rows row .held (some json) := by
  obtain ⟨column, sized, meant⟩ := known faithful expr field value sound planned evaluated
  obtain ⟨texts, same⟩ := constructs_texts constructs evaluated
  subst same
  cases sized
  refine ⟨texts, rfl, meant.counted, fun row within => ?_⟩
  obtain ⟨text, json, held, spelled⟩ := meant.built constructs texts (itself texts) row within
  have tells := meant.held texts (itself texts) row within (some json)
    (by rw [held]; exact .some spelled)
  exact ⟨text, json, held, spelled, tells⟩

/-- An object of a list that a constructor gives. -/
def plainObject : Expr :=
  let flag := Expr.value ⟨⟨"flag", false, none⟩, .text, "Utf8"⟩ (.utf8 (some "null"))
  let key := Expr.value ⟨⟨"key", false, none⟩, .text, "Utf8"⟩ (.utf8 (some "a"))
  let number := Expr.value ⟨⟨"number", true, none⟩, .other, "Int64"⟩ (.array (.integer [some 5]))
  .call .object [flag, key, .call .embed [.call .array [flag, number]]]

theorem plainObject_sound : plainObject.Sound plainArrow 1 := by
  have flag : (Expr.value ⟨⟨"flag", false, none⟩, .text, "Utf8"⟩ (.utf8 (some "null"))).Sound
      plainArrow 1 := ⟨_, rfl, rfl, trivial, fun never => (never rfl).elim⟩
  have key : (Expr.value ⟨⟨"key", false, none⟩, .text, "Utf8"⟩ (.utf8 (some "a"))).Sound
      plainArrow 1 := ⟨_, rfl, rfl, trivial, fun never => (never rfl).elim⟩
  have number : (Expr.value ⟨⟨"number", true, none⟩, .other, "Int64"⟩
      (.array (.integer [some 5]))).Sound plainArrow 1 := ⟨_, rfl, rfl, trivial, trivial⟩
  exact ⟨trivial, flag, key, ⟨trivial, ⟨trivial, flag, number, trivial⟩, trivial⟩, trivial⟩

/-- A list in an object. -/
theorem composed_object :
    ∃ texts text json, plainObject.eval plainArrow 1 = .ok (.array (.text texts)) ∧
      inRow texts 0 = some text ∧ Spelled text json ∧
      plainObject.Says plainArrow 1 0 .held (some json) := by
  have run : ∃ value, plainObject.eval plainArrow 1 = .ok value := ⟨_, rfl⟩
  have checked : ∃ field, plainObject.plan = .ok field := ⟨_, rfl⟩
  have constructs : plainObject.Constructs := trivial
  obtain ⟨value, evaluated⟩ := run
  obtain ⟨field, planned⟩ := checked
  obtain ⟨texts, same, _, each⟩ := composed plainArrow_faithful (fun _ => rfl) constructs
    plainObject_sound planned evaluated
  obtain ⟨text, json, held, spelled, tells⟩ := each 0 Nat.one_pos
  rw [same] at evaluated
  exact ⟨texts, text, json, evaluated, held, spelled, tells⟩

end Given

end Ddi.JsonBuild
