/-
What the objects and arrays are that are put together: JSON of the members that are put in, and when
an object is refused.
-/

import Ddi.Lib.Walks
import Ddi.Transform.JsonFormatted
import Ddi.Transform.JsonShown

namespace Ddi.JsonBuild

open Ddi.Jsonval

/-! ### What is to be built -/

/-- The members of a row that are put into an object: an absent one is not, and a NULL is one
value. -/
def inserted {α : Type} (absentOnNull : Bool) (null : α)
    (members : List (Option String × Option α)) : List (Option String × α) :=
  members.filterMap fun member =>
    match member.2 with
    | some value => some (member.1, value)
    | none => if absentOnNull then none else some (member.1, null)

/-- Members with keys, none of them twice. -/
def Keyed {α : Type} (members : List (Option String × α)) (pairs : List (String × α)) : Prop :=
  members = pairs.map (fun pair => (some pair.1, pair.2)) ∧ (pairs.map Prod.fst).Nodup

/-- Members in the order of a `java.util.HashMap`. -/
def hashed {α : Type} (pairs : List (String × α)) : List (String × α) :=
  (javaHashmapOrder (pairs.map Prod.fst)).filterMap fun place => pairs[place]?

/-- The elements of a row that are put into an array. -/
def listed {α : Type} (absentOnNull : Bool) (null : α) (elements : List (Option α)) : List α :=
  elements.filterMap fun element =>
    match element with
    | some value => some value
    | none => if absentOnNull then none else some null

/-- The members that stand in a row, each with its key. -/
def rowMembers {α : Type} (keys : List KeyColumn) (row : Nat) (values : List (Option α)) :
    List (Option String × Option α) :=
  List.zipWith (fun key value => (key.inRow row, value)) keys values

/-- Members of one key, whose values are related. -/
def Alongside {κ α β : Type} (Related : α → β → Prop) (pair : κ × α) (other : κ × β) : Prop :=
  pair.1 = other.1 ∧ Related pair.2 other.2

/-! ### Order -/

theorem hashed_map {α β : Type} (pairs : List (String × α)) (change : String × α → β)
    (atPlace : Nat → β)
    (same : ∀ place (within : place < pairs.length), atPlace place = change pairs[place]) :
    (hashed pairs).map change = (javaHashmapOrder (pairs.map Prod.fst)).map atPlace := by
  rw [hashed, List.map_filterMap]
  have each := @List.filterMap_eq_map _ _ atPlace
  rw [← each]
  apply List.filterMap_congr
  intro place inside
  have within : place < pairs.length := by
    rw [← List.length_map (f := Prod.fst)]
    exact mem_javaHashmapOrder.mp inside
  rw [List.getElem?_eq_getElem within, Option.map_some, Function.comp_apply, same place within]

theorem filterMap_range {α : Type} (items : List α) :
    (List.range items.length).filterMap (fun place => items[place]?) = items := by
  induction items using List.reverseRecOn with
  | nil => rfl
  | append_singleton items item inductionHypothesis =>
      rw [List.length_append, List.length_singleton, List.range_succ, List.filterMap_append]
      have before : (List.range items.length).filterMap (fun place => (items ++ [item])[place]?) =
          (List.range items.length).filterMap fun place => items[place]? := by
        apply List.filterMap_congr
        intro place inside
        exact List.getElem?_append_left (List.mem_range.mp inside)
      rw [before, inductionHypothesis]
      simp

/-- Each member is there once. -/
theorem hashed_perm {α : Type} (pairs : List (String × α)) : (hashed pairs).Perm pairs := by
  have moved := (javaHashmapOrder_perm (pairs.map Prod.fst)).filterMap fun place => pairs[place]?
  rw [List.length_map, filterMap_range] at moved
  exact moved

theorem alongside_keys {κ α β : Type} {Related : α → β → Prop} {pairs : List (κ × α)}
    {others : List (κ × β)} (each : List.Forall₂ (Alongside Related) pairs others) :
    pairs.map Prod.fst = others.map Prod.fst := by
  rw [← List.forall₂_eq_eq_eq, List.forall₂_map_left_iff, List.forall₂_map_right_iff]
  exact each.imp fun pair other both => both.1

theorem hashed_forall₂ {α β : Type} {Related : α → β → Prop} {pairs : List (String × α)}
    {others : List (String × β)}
    (each : List.Forall₂ (Alongside Related) pairs others) :
    List.Forall₂ (Alongside Related) (hashed pairs) (hashed others) := by
  have keys := alongside_keys each
  unfold hashed
  rw [keys]
  generalize javaHashmapOrder (others.map Prod.fst) = order
  induction order with
  | nil => exact .nil
  | cons place order inductionHypothesis =>
      rw [List.filterMap_cons, List.filterMap_cons]
      by_cases within : place < pairs.length
      · have within' : place < others.length := each.length_eq ▸ within
        rw [List.getElem?_eq_getElem within, List.getElem?_eq_getElem within']
        exact .cons (each.get within within') inductionHypothesis
      · have outside : ¬place < others.length := each.length_eq ▸ within
        rw [List.getElem?_eq_none (Nat.le_of_not_lt within),
          List.getElem?_eq_none (Nat.le_of_not_lt outside)]
        exact inductionHypothesis

/-! ### One object -/

section Objects

variable {debug : String → String} {keys : List KeyColumn} {row : Nat}

/-- The keys of a row's members are found unless one is NULL or there twice. -/
theorem rowKeys_ok_iff {members : List Nat} {before texts : List String} :
    rowKeys debug keys row members before = .ok texts ↔
      ∃ added, texts = before ++ added ∧
        List.Forall₂ (fun index key => (keys[index]?).bind (KeyColumn.inRow row) = some key)
          members added ∧
        added.Nodup ∧ ∀ key ∈ added, key ∉ before := by
  induction members generalizing before with
  | nil =>
      constructor
      · intro run
        cases run
        exact ⟨[], (List.append_nil _).symm, .nil, List.nodup_nil, by simp⟩
      · intro found
        obtain ⟨added, same, each, _⟩ := found
        cases each
        rw [same, List.append_nil]
        rfl
  | cons index members inductionHypothesis =>
      unfold rowKeys
      cases own : (keys[index]?).bind (KeyColumn.inRow row) with
      | none =>
          constructor
          · intro run
            cases run
          · intro found
            obtain ⟨added, _, each, _⟩ := found
            cases each with
            | cons first _ =>
                rw [own] at first
                cases first
      | some key =>
          dsimp only
          by_cases twice : key ∈ before
          · rw [if_pos (by simpa using twice)]
            constructor
            · intro run
              cases run
            · intro found
              obtain ⟨added, _, each, _, fresh⟩ := found
              cases each with
              | cons first _ =>
                  rw [own] at first
                  cases first
                  exact (fresh key List.mem_cons_self twice).elim
          · rw [if_neg (by simpa using twice), inductionHypothesis]
            constructor
            · intro found
              obtain ⟨added, same, each, distinct, fresh⟩ := found
              refine ⟨key :: added, by rw [same]; simp, .cons own each, ?_, ?_⟩
              · refine List.nodup_cons.mpr ⟨fun inside => ?_, distinct⟩
                exact fresh key inside (by simp)
              · refine List.forall_mem_cons.mpr ⟨twice, fun other inside among => ?_⟩
                exact fresh other inside (List.mem_append_left _ among)
            · intro found
              obtain ⟨added, same, each, distinct, fresh⟩ := found
              cases each with
              | @cons _ other _ added first rest =>
                  rw [own] at first
                  cases first
                  have apart := List.nodup_cons.mp distinct
                  refine ⟨added, by rw [same]; simp, rest, apart.2, ?_⟩
                  intro other inside among
                  rcases List.mem_append.mp among with held | itself
                  · exact fresh other (List.mem_cons_of_mem _ inside) held
                  · rw [List.mem_singleton.mp itself] at inside
                    exact apart.1 inside

/-- The members put in are those at the places of the row that are. -/
theorem inserted_present {values : List Texts} (fit : keys.length = values.length)
    (absentOnNull : Bool) :
    inserted absentOnNull "null" (rowMembers keys row (values.map fun texts => inRow texts row)) =
      (present values absentOnNull keys.length row).map fun index =>
        ((keys[index]?).bind (KeyColumn.inRow row), orNull (inRow (values.getD index []) row)) := by
  have members : rowMembers keys row (values.map fun texts => inRow texts row) =
      (List.range keys.length).map fun index =>
        ((keys[index]?).bind (KeyColumn.inRow row), inRow (values.getD index []) row) := by
    apply List.ext_getElem
    · simp [rowMembers, fit]
    · intro index within within'
      have own : index < keys.length := by simpa using within'
      have held : index < values.length := fit ▸ own
      simp only [rowMembers, List.getElem_zipWith, List.getElem_map, List.getElem_range]
      rw [List.getElem?_eq_getElem own, Option.bind_some, List.getD_eq_getElem _ _ held]
  have kept (f : Nat → Option String × String) :=
    @List.filterMap_eq_map _ _ f
  rw [members, inserted, List.filterMap_map, present, ← kept, List.filterMap_filter]
  apply List.filterMap_congr
  intro index _
  simp only [Function.comp_apply]
  cases inRow (values.getD index []) row with
  | some value => simp [orNull]
  | none => cases absentOnNull <;> simp [orNull]

theorem objectByRow_keyed {values : List Texts} (fit : keys.length = values.length)
    {absentOnNull : Bool} {pairs : List (String × String)}
    (keyed : Keyed (inserted absentOnNull "null"
      (rowMembers keys row (values.map fun texts => inRow texts row))) pairs) :
    objectByRow debug keys values absentOnNull row =
      .ok (braced ((hashed pairs).map fun pair => (quote pair.1, pair.2))) := by
  obtain ⟨same, distinct⟩ := keyed
  rw [inserted_present fit] at same
  have owns := congrArg (List.map Prod.fst) same
  have holds := congrArg (List.map Prod.snd) same
  rw [List.map_map, List.map_map] at owns holds
  have texts : rowKeys debug keys row (present values absentOnNull keys.length row) [] =
      .ok (pairs.map Prod.fst) := by
    apply rowKeys_ok_iff.mpr
    refine ⟨pairs.map Prod.fst, rfl, ?_, distinct, by simp⟩
    rw [List.forall₂_map_right_iff, ← List.forall₂_map_left_iff (R := fun own pair =>
      own = some (Prod.fst pair)), ← List.forall₂_map_right_iff (R := Eq), List.forall₂_eq_eq_eq]
    exact owns
  unfold objectByRow
  dsimp only
  rw [texts]
  dsimp only
  congr 2
  symm
  apply hashed_map
  intro place within
  have counted := congrArg List.length same
  rw [List.length_map, List.length_map] at counted
  have within' : place < (present values absentOnNull keys.length row).length := by
    rw [counted]
    exact within
  have value := List.getElem_of_eq holds (i := place) (by simpa using within')
  simp only [List.getElem_map, Function.comp_apply] at value
  rw [emit, List.getD_eq_getElem _ _ (by simpa using within), List.getElem_map,
    List.getD_eq_getElem _ _ within', value]

/-- A row's object is put together when its members have keys, none of them twice: it is those
members, in the order of a `java.util.HashMap`. -/
theorem objectByRow_ok_iff {values : List Texts} (fit : keys.length = values.length)
    (absentOnNull : Bool) (text : String) :
    objectByRow debug keys values absentOnNull row = .ok text ↔
      ∃ pairs, Keyed (inserted absentOnNull "null"
          (rowMembers keys row (values.map fun texts => inRow texts row))) pairs ∧
        text = braced ((hashed pairs).map fun pair => (quote pair.1, pair.2)) := by
  constructor
  · intro run
    cases found : rowKeys debug keys row (present values absentOnNull keys.length row) [] with
    | error error =>
        unfold objectByRow at run
        dsimp only at run
        rw [found] at run
        cases run
    | ok texts =>
        obtain ⟨added, same, each, distinct, _⟩ := rowKeys_ok_iff.mp found
        let held := (present values absentOnNull keys.length row).map fun index =>
          orNull (inRow (values.getD index []) row)
        have counted : added.length = held.length := by
          rw [List.length_map, each.length_eq]
        have keyed : Keyed (inserted absentOnNull "null"
            (rowMembers keys row (values.map fun texts => inRow texts row))) (added.zip held) := by
          constructor
          · rw [inserted_present fit]
            have owns : (present values absentOnNull keys.length row).map (fun index =>
                (keys[index]?).bind (KeyColumn.inRow row)) = added.map some := by
              rw [← List.forall₂_eq_eq_eq, List.forall₂_map_left_iff, List.forall₂_map_right_iff]
              exact each
            have zipped : (added.map some).zip held = (added.zip held).map (Prod.map some id) :=
              List.zip_map_left
            rw [← owns, List.zip_map'] at zipped
            exact zipped
          · rw [List.map_fst_zip counted.le]
            exact distinct
        rw [objectByRow_keyed fit keyed] at run
        exact ⟨_, keyed, (Except.ok.inj run).symm⟩
  · intro found
    obtain ⟨pairs, keyed, same⟩ := found
    rw [objectByRow_keyed fit keyed, same]

/-- Members of texts and of what the texts are. -/
theorem inserted_spelled {values : List (Option String)} {jsons : List (Option Json)}
    (each : List.Forall₂ (Option.Rel Spelled) values jsons) (absentOnNull : Bool) :
    List.Forall₂ (Alongside Spelled) (inserted absentOnNull "null" (rowMembers keys row values))
      (inserted absentOnNull .null (rowMembers keys row jsons)) := by
  induction each generalizing keys with
  | nil =>
      cases keys <;> exact .nil
  | cons first _ inductionHypothesis =>
      cases keys with
      | nil => exact .nil
      | cons key keys =>
          have others := @inductionHypothesis keys
          cases first with
          | none =>
              cases absentOnNull with
              | true => exact others
              | false => exact .cons ⟨rfl, spelled_null⟩ others
          | some spelled => exact .cons ⟨rfl, spelled⟩ others

theorem keyed_spelled {members : List (Option String × String)} {pairs : List (String × String)}
    {others : List (Option String × Json)} (keyed : Keyed members pairs)
    (each : List.Forall₂ (Alongside Spelled) members others) :
    ∃ found, Keyed others found ∧ List.Forall₂ (Alongside Spelled) pairs found := by
  obtain ⟨same, distinct⟩ := keyed
  rw [same, List.forall₂_map_left_iff] at each
  have paired : ∃ found, others = found.map (fun pair => (some pair.1, pair.2)) ∧
      List.Forall₂ (Alongside Spelled) pairs found := by
    clear same distinct
    induction each with
    | nil => exact ⟨[], rfl, .nil⟩
    | @cons pair other pairs others first _ inductionHypothesis =>
        obtain ⟨found, rest, paired⟩ := inductionHypothesis
        refine ⟨(pair.1, other.2) :: found, ?_, .cons ⟨rfl, first.2⟩ paired⟩
        rw [List.map_cons, rest]
        exact congrArg (· :: _) (Prod.ext first.1.symm rfl)
  obtain ⟨found, rest, paired⟩ := paired
  exact ⟨found, ⟨rest, alongside_keys paired ▸ distinct⟩, paired⟩

/-- The text of an object of texts that are JSON. -/
theorem objectByRow_spelled {values : List Texts} (fit : keys.length = values.length)
    {absentOnNull : Bool} {text : String} {jsons : List (Option Json)}
    (run : objectByRow debug keys values absentOnNull row = .ok text)
    (each : List.Forall₂ (Option.Rel Spelled) (values.map fun texts => inRow texts row) jsons) :
    ∃ members, Keyed (inserted absentOnNull .null (rowMembers keys row jsons)) members ∧
      Spelled text (.object (hashed members)) := by
  obtain ⟨pairs, keyed, same⟩ := (objectByRow_ok_iff fit absentOnNull text).mp run
  obtain ⟨members, found, paired⟩ := keyed_spelled keyed (inserted_spelled each absentOnNull)
  refine ⟨members, found, ?_⟩
  rw [same]
  apply spelled_braced
  rw [List.forall₂_map_left_iff]
  exact (hashed_forall₂ paired).imp fun pair other both => ⟨congrArg quote both.1, both.2⟩

end Objects

/-! ### Batches -/

/-- What stands under a key of members in the order of a `java.util.HashMap` is the member's. -/
theorem get_hashed {members : List (String × Json)} (distinct : (members.map Prod.fst).Nodup)
    (key : String) : (Json.object (hashed members)).get key = members.lookup key := by
  have own : Assoc.Distinct members := List.pairwise_map.mp distinct
  have moved : Assoc.Distinct (hashed members) :=
    List.pairwise_map.mp (((hashed_perm members).map Prod.fst).nodup_iff.mpr distinct)
  rw [get_object, moved.find?_reverse]
  exact own.lookup_perm (hashed_perm members) key

theorem buildObjects_ok_iff {debug : String → String} {keys : List KeyColumn}
    {values : List Texts} {rows : Nat} {absentOnNull : Bool} (batch : 0 < rows) (texts : Texts) :
    buildObjects debug keys values rows absentOnNull = .ok texts ↔
      List.Forall₂ (fun row out => ∃ text, out = some text ∧
        objectByRow debug keys values absentOnNull row = .ok text) (List.range rows) texts := by
  cases accepted : prepare debug keys absentOnNull with
  | ok prepared =>
      rw [buildObjects_prepared accepted, Paired.mapM_ok]
      have step (row : Nat) (out : Option String) :
          (objectByRow debug keys values absentOnNull row).map some = .ok out ↔
            ∃ text, out = some text ∧
              objectByRow debug keys values absentOnNull row = .ok text := by
        cases objectByRow debug keys values absentOnNull row with
        | error error =>
            constructor
            · intro run
              cases run
            · intro found
              obtain ⟨text, _, run⟩ := found
              cases run
        | ok text =>
            constructor
            · intro run
              cases run
              exact ⟨text, rfl, rfl⟩
            · intro found
              obtain ⟨other, same, run⟩ := found
              cases run
              rw [same]
              rfl
      constructor
      · exact fun each => each.imp fun row out => (step row out).mp
      · exact fun each => each.imp fun row out => (step row out).mpr
  | error error =>
      unfold prepare at accepted
      cases found : keys.mapM KeyColumn.literal with
      | none =>
          rw [found] at accepted
          cases accepted
      | some literals =>
          rw [found] at accepted
          dsimp only at accepted
          cases twice : repeated literals with
          | none =>
              rw [twice] at accepted
              cases accepted
          | some key =>
              cases absentOnNull with
              | true =>
                  rw [twice] at accepted
                  cases accepted
              | false =>
                  -- The literals are refused before any row, and every row would refuse them.
                  constructor
                  · intro run
                    unfold buildObjects prepare at run
                    rw [found] at run
                    dsimp only at run
                    rw [twice] at run
                    cases run
                  · intro each
                    obtain ⟨out, _, text, _, run⟩ :=
                      Paired.exists_mem each (List.mem_range.mpr batch)
                    rw [objectByRow_repeated found twice] at run
                    cases run

theorem length_buildObjects {debug : String → String} {keys : List KeyColumn} {values : List Texts}
    {rows : Nat} {absentOnNull : Bool} {outs : Texts}
    (run : buildObjects debug keys values rows absentOnNull = .ok outs) : outs.length = rows := by
  unfold buildObjects at run
  obtain ⟨prepared, _, run⟩ := Walks.bind_ok_iff.mp run
  have counted := ((Paired.mapM_ok _ _ _).mp run).length_eq
  rw [List.length_range] at counted
  exact counted.symm

/-- A row's text is the object built for the row. -/
theorem inRow_buildObjects {debug : String → String} {keys : List KeyColumn} {values : List Texts}
    {rows : Nat} {absentOnNull : Bool} {outs : Texts}
    (run : buildObjects debug keys values rows absentOnNull = .ok outs) {row : Nat}
    (within : row < rows) :
    ∃ text, inRow outs row = some text ∧
      objectByRow debug keys values absentOnNull row = .ok text := by
  have paired := (buildObjects_ok_iff (Nat.zero_lt_of_lt within) outs).mp run
  have inside : row < outs.length := by
    rw [length_buildObjects run]
    exact within
  have own := paired.get (by rw [List.length_range]; exact within) inside
  simp only [List.get_eq_getElem, List.getElem_range] at own
  obtain ⟨text, same, built⟩ := own
  exact ⟨text, (inRow_of_getElem inside).trans same, built⟩

/-- Objects are put together unless a member that is put in has a key that is NULL or another's. A
row's object is JSON of its members, each of which is found under its key. -/
theorem objects_built (debug : String → String) {keys : List KeyColumn} {values : List Texts}
    {rows : Nat} (fit : keys.length = values.length) (batch : 0 < rows) (absentOnNull : Bool) :
    ((∃ texts, buildObjects debug keys values rows absentOnNull = .ok texts) ↔
      ∀ row < rows, ∃ pairs, Keyed (inserted absentOnNull "null"
        (rowMembers keys row (values.map fun texts => inRow texts row))) pairs) ∧
    ∀ texts, buildObjects debug keys values rows absentOnNull = .ok texts →
      ∀ row < rows, ∀ jsons,
        List.Forall₂ (Option.Rel Spelled) (values.map fun texts => inRow texts row) jsons →
        ∃ text members, inRow texts row = some text ∧
          Keyed (inserted absentOnNull .null (rowMembers keys row jsons)) members ∧
          Spelled text (.object (hashed members)) ∧
          ∀ key, (Json.object (hashed members)).get key = members.lookup key := by
  constructor
  · constructor
    · intro built row within
      obtain ⟨texts, run⟩ := built
      obtain ⟨out, _, text, _, own⟩ := Paired.exists_mem
        ((buildObjects_ok_iff batch texts).mp run) (List.mem_range.mpr within)
      obtain ⟨pairs, keyed, _⟩ := (objectByRow_ok_iff fit absentOnNull text).mp own
      exact ⟨pairs, keyed⟩
    · intro accepted
      have each : ∀ row ∈ List.range rows, ∃ out : Option String, ∃ text, out = some text ∧
          objectByRow debug keys values absentOnNull row = .ok text := by
        intro row inside
        obtain ⟨pairs, keyed⟩ := accepted row (List.mem_range.mp inside)
        exact ⟨_, _, rfl, objectByRow_keyed fit keyed⟩
      obtain ⟨texts, paired⟩ := Paired.exists_outs each
      exact ⟨texts, (buildObjects_ok_iff batch texts).mpr paired⟩
  · intro texts run row within jsons each
    obtain ⟨text, held, built⟩ := inRow_buildObjects run within
    obtain ⟨members, keyed, spelled⟩ := objectByRow_spelled fit built each
    exact ⟨text, members, held, keyed, spelled, get_hashed keyed.2⟩

/-- A literal key and one of the row, the second's value NULL. -/
theorem objects_built_null :
    ∃ texts text members,
      buildObjects id [.constant "a", .perRow [some "b"]] [[some "true"], [none]] 1 false =
        .ok texts ∧ inRow texts 0 = some text ∧
      Keyed [(some "a", .bool true), (some "b", .null)] members ∧
      Spelled text (.object (hashed members)) := by
  have built := @objects_built id [.constant "a", .perRow [some "b"]] [[some "true"], [none]] 1 rfl
    Nat.one_pos false
  have accepted : ∀ row < 1, ∃ pairs, Keyed (inserted false "null"
      (rowMembers [.constant "a", .perRow [some "b"]] row
        ([[some "true"], [none]].map fun texts => inRow texts row))) pairs := by
    intro row within
    rw [Nat.lt_one_iff.mp within]
    exact ⟨[("a", "true"), ("b", "null")], rfl, by decide⟩
  obtain ⟨texts, run⟩ := built.1.mpr accepted
  obtain ⟨text, members, held, keyed, spelled, _⟩ := built.2 texts run 0 Nat.one_pos
    [some (.bool true), none] (.cons (.some (spelled_bool true)) (.cons .none .nil))
  exact ⟨texts, text, members, run, held, keyed, spelled⟩

end Ddi.JsonBuild
