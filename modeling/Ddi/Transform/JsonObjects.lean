/-
The objects and arrays that are put together row by row, and that keys which are literals are no
more than a quicker way to the same objects.
-/

import Ddi.Lib.Paired
import Ddi.Transform.JavaHashMapExact
import Ddi.Transform.JsonBuild

namespace Ddi.JsonBuild

open Ddi.Jsonval (quote javaHashmapOrder)

/-! ### Building -/

/-- The key of a member: a literal, or one for each row. -/
inductive KeyColumn
  | constant (key : String)
  | perRow (keys : Texts)

namespace KeyColumn

def inRow (row : Nat) : KeyColumn → Option String
  | .constant key => some key
  | .perRow keys => JsonBuild.inRow keys row

def literal : KeyColumn → Option String
  | .constant key => some key
  | .perRow _ => none

end KeyColumn

section Objects

variable (debug : String → String)

def duplicate (key : String) (row : Option Nat) : String :=
  let place := match row with
    | some row => s!" (row {row})"
    | none => ""
  s!"cannot construct a JSON object with duplicate key {debug key}{place}; Starburst refuses it too"

/-- The first key that stands among those before it. -/
def repeated (keys : List String) : Option String :=
  (keys.zipIdx.find? fun entry => (keys.take entry.2).contains entry.1).map Prod.fst

/-- What is worked out once where every key is a literal. -/
structure Prepared where
  order : List Nat
  quoted : List String

def prepare (keys : List KeyColumn) (absentOnNull : Bool) : Except String (Option Prepared) :=
  match keys.mapM KeyColumn.literal with
  | none => .ok none
  | some keys =>
      match repeated keys with
      -- Under `ABSENT ON NULL` only the members that are put in may not repeat a key.
      | some key => if absentOnNull then .ok none else .error (duplicate debug key none)
      | none => .ok (some { order := javaHashmapOrder keys, quoted := keys.map quote })

/-- The members that are put into a row's object. -/
def present (values : List Texts) (absentOnNull : Bool) (members row : Nat) : List Nat :=
  (List.range members).filter fun index =>
    !(absentOnNull && (inRow (values.getD index []) row).isNone)

/-- The keys of the members put in, after those before them. -/
def rowKeys (keys : List KeyColumn) (row : Nat) : List Nat → List String →
    Except String (List String)
  | [], texts => .ok texts
  | index :: present, texts =>
      match (keys[index]?).bind (KeyColumn.inRow row) with
      | none => .error s!"key #{index + 1} is NULL in row {row}; a key must not be null"
      | some key =>
          if texts.contains key then .error (duplicate debug key (some row))
          else rowKeys keys row present (texts ++ [key])

/-- A member as it is written, its key quoted already. -/
def emit (values : List Texts) (row : Nat) (quoted : String) (index : Nat) : String × String :=
  (quoted, orNull (inRow (values.getD index []) row))

/-- An object whose keys are looked at in its own row. -/
def objectByRow (keys : List KeyColumn) (values : List Texts) (absentOnNull : Bool) (row : Nat) :
    Except String String :=
  let present := present values absentOnNull keys.length row
  match rowKeys debug keys row present [] with
  | .error error => .error error
  | .ok texts => .ok (braced ((javaHashmapOrder texts).map fun place =>
      emit values row (quote (texts.getD place "")) (present.getD place 0)))

def buildObject (keys : List KeyColumn) (values : List Texts) (absentOnNull : Bool)
    (prepared : Option Prepared) (row : Nat) : Except String String :=
  match prepared with
  | some prepared =>
      if (present values absentOnNull keys.length row).length = keys.length then
        .ok (braced (prepared.order.map fun index =>
          emit values row (prepared.quoted.getD index "") index))
      else objectByRow debug keys values absentOnNull row
  | none => objectByRow debug keys values absentOnNull row

/-- Each row's object: of the members that are not absent, in the order of a `java.util.HashMap`. -/
def buildObjects (keys : List KeyColumn) (values : List Texts) (rows : Nat) (absentOnNull : Bool) :
    Except String Texts := do
  let prepared ← prepare debug keys absentOnNull
  (List.range rows).mapM fun row =>
    (buildObject debug keys values absentOnNull prepared row).map some

end Objects

def buildArrays (columns : List Texts) (rows : Nat) (absentOnNull : Bool) : Texts :=
  (List.range rows).map fun row =>
    some (bracketed (columns.filterMap fun values =>
      match inRow values row with
      | some value => some value
      | none => if absentOnNull then none else some "null"))

/-! ### The order of the keys -/

theorem javaHashmapOrder_perm (keys : List String) :
    (javaHashmapOrder keys).Perm (List.range keys.length) := by
  unfold javaHashmapOrder
  rw [Java.fold_insert]
  exact Bins.flatten_perm _ (Java.isSize_capacityAfter _ _).positive _

theorem mem_javaHashmapOrder {keys : List String} {place : Nat} :
    place ∈ javaHashmapOrder keys ↔ place < keys.length := by
  rw [(javaHashmapOrder_perm keys).mem_iff, List.mem_range]

/-! ### Literal keys -/

/-- A literal key given for each row. -/
def KeyColumn.spelledOut (rows : Nat) : KeyColumn → KeyColumn
  | .constant key => .perRow (List.replicate rows (some key))
  | .perRow keys => .perRow keys

theorem KeyColumn.inRow_spelledOut {rows row : Nat} (within : row < rows) (key : KeyColumn) :
    (key.spelledOut rows).inRow row = key.inRow row := by
  cases key with
  | constant key =>
      change ((List.replicate rows (some key))[row]?).join = some key
      rw [List.getElem?_replicate, if_pos within]
      rfl
  | perRow keys => rfl

theorem literals_iff {keys : List KeyColumn} {literals : List String} :
    keys.mapM KeyColumn.literal = some literals ↔ keys = literals.map KeyColumn.constant := by
  induction keys generalizing literals with
  | nil =>
      rw [List.mapM_nil]
      constructor
      · intro same
        cases same
        rfl
      · intro same
        rw [List.map_eq_nil_iff.mp same.symm]
        rfl
  | cons key keys inductionHypothesis =>
      rw [List.mapM_cons]
      constructor
      · intro same
        cases key with
        | perRow texts => cases same
        | constant key =>
            cases others : keys.mapM KeyColumn.literal with
            | none =>
                rw [others] at same
                cases same
            | some rest =>
                rw [others] at same
                cases same
                rw [List.map_cons, inductionHypothesis.mp others]
      · intro same
        cases literals with
        | nil => cases same
        | cons literal literals =>
            rw [List.map_cons] at same
            obtain ⟨first, rest⟩ := List.cons.inj same
            rw [first, inductionHypothesis.mpr rest]
            rfl

theorem rowKeys_spelledOut (debug : String → String) (keys : List KeyColumn) {rows row : Nat}
    (within : row < rows) (present : List Nat) (texts : List String) :
    rowKeys debug (keys.map (KeyColumn.spelledOut rows)) row present texts =
      rowKeys debug keys row present texts := by
  induction present generalizing texts with
  | nil => rfl
  | cons index present inductionHypothesis =>
      have key : (((keys.map (KeyColumn.spelledOut rows))[index]?).bind (KeyColumn.inRow row)) =
          (keys[index]?).bind (KeyColumn.inRow row) := by
        rw [List.getElem?_map]
        cases keys[index]? with
        | none => rfl
        | some key => exact KeyColumn.inRow_spelledOut within key
      unfold rowKeys
      rw [key]
      simp only [inductionHypothesis]

theorem objectByRow_spelledOut (debug : String → String) (keys : List KeyColumn)
    (values : List Texts) (absentOnNull : Bool) {rows row : Nat} (within : row < rows) :
    objectByRow debug (keys.map (KeyColumn.spelledOut rows)) values absentOnNull row =
      objectByRow debug keys values absentOnNull row := by
  unfold objectByRow
  dsimp only
  rw [List.length_map, rowKeys_spelledOut debug keys within]

/-- Keys given for each row are looked at in each row. -/
theorem prepare_spelledOut (debug : String → String) (rows : Nat) (keys : List KeyColumn)
    (absentOnNull : Bool) (some : keys ≠ []) :
    prepare debug (keys.map (KeyColumn.spelledOut rows)) absentOnNull = .ok none := by
  unfold prepare
  have none : (keys.map (KeyColumn.spelledOut rows)).mapM KeyColumn.literal = none := by
    cases keys with
    | nil => exact (some rfl).elim
    | cons key keys => cases key <;> rfl
  rw [none]

/-- The keys of all members, where each is a literal. -/
theorem rowKeys_literals (debug : String → String) (keys : List String) (row : Nat) (left : Nat) :
    ∀ start, start + left = keys.length →
      rowKeys debug (keys.map KeyColumn.constant) row (List.range' start left) (keys.take start) =
        match ((keys.zipIdx.drop start).find? fun entry =>
          (keys.take entry.2).contains entry.1).map Prod.fst with
        | some key => .error (duplicate debug key (some row))
        | none => .ok keys := by
  induction left with
  | zero =>
      intro start counted
      have all : keys.length ≤ start := by omega
      rw [List.drop_of_length_le (by rw [List.length_zipIdx]; exact all),
        List.take_of_length_le all]
      rfl
  | succ left inductionHypothesis =>
      intro start counted
      have within : start < keys.length := by omega
      have key : ((keys.map KeyColumn.constant)[start]?).bind (KeyColumn.inRow row) =
          some (keys[start]) := by
        rw [List.getElem?_map, List.getElem?_eq_getElem within]
        rfl
      have entry : keys.zipIdx.drop start =
          (keys[start], start) :: keys.zipIdx.drop (start + 1) := by
        rw [List.drop_eq_getElem_cons (by rw [List.length_zipIdx]; exact within),
          List.getElem_zipIdx, Nat.zero_add]
      rw [List.range'_succ, rowKeys, key, entry, List.find?_cons]
      dsimp only
      split
      · next repeats =>
        rw [repeats]
        rfl
      · next fresh =>
        have distinct : (keys.take start).contains keys[start] = false := by
          simpa using fresh
        rw [distinct, List.take_append_getElem within]
        exact inductionHypothesis (start + 1) (by omega)

/-- Of keys that are literals, none of them twice, what is worked out once is what each row
gives. -/
theorem buildObject_literals (debug : String → String) (keys : List String) (values : List Texts)
    (absentOnNull : Bool) (row : Nat) (distinct : repeated keys = none) :
    buildObject debug (keys.map KeyColumn.constant) values absentOnNull
        (some { order := javaHashmapOrder keys, quoted := keys.map quote }) row =
      objectByRow debug (keys.map KeyColumn.constant) values absentOnNull row := by
  unfold buildObject
  dsimp only
  rw [List.length_map]
  split
  · next all =>
    have every : present values absentOnNull keys.length row = List.range keys.length := by
      apply List.Sublist.eq_of_length List.filter_sublist
      rw [List.length_range]
      exact all
    have texts := rowKeys_literals debug keys row keys.length 0 (Nat.zero_add _)
    rw [List.drop_zero, ← List.range_eq_range', List.take_zero] at texts
    unfold repeated at distinct
    rw [distinct] at texts
    unfold objectByRow
    dsimp only
    rw [List.length_map, every, texts]
    dsimp only
    congr 2
    apply List.map_congr_left
    intro place inside
    have within := mem_javaHashmapOrder.mp inside
    have shown : (keys.map quote).getD place "" = quote (keys.getD place "") := by
      rw [List.getD_eq_getElem _ _ (by rw [List.length_map]; exact within), List.getElem_map,
        List.getD_eq_getElem _ _ within]
    have same : (List.range keys.length).getD place 0 = place := by
      rw [List.getD_eq_getElem _ _ (by rw [List.length_range]; exact within), List.getElem_range]
    rw [shown, same]
  · rfl

/-- What is worked out once of accepted keys is what each row gives. -/
theorem buildObject_prepared {debug : String → String} {keys : List KeyColumn}
    {absentOnNull : Bool} {prepared : Option Prepared}
    (accepted : prepare debug keys absentOnNull = .ok prepared) (values : List Texts) (row : Nat) :
    buildObject debug keys values absentOnNull prepared row =
      objectByRow debug keys values absentOnNull row := by
  unfold prepare at accepted
  cases found : keys.mapM KeyColumn.literal with
  | none =>
      rw [found] at accepted
      cases accepted
      rfl
  | some literals =>
      rw [found] at accepted
      dsimp only at accepted
      cases twice : repeated literals with
      | some key =>
          rw [twice] at accepted
          cases absentOnNull with
          | true =>
              cases accepted
              rfl
          | false => cases accepted
      | none =>
          rw [twice] at accepted
          cases accepted
          rw [literals_iff.mp found]
          exact buildObject_literals debug literals values absentOnNull row twice

theorem buildObjects_prepared {debug : String → String} {keys : List KeyColumn}
    {absentOnNull : Bool} {prepared : Option Prepared}
    (accepted : prepare debug keys absentOnNull = .ok prepared) (values : List Texts) (rows : Nat) :
    buildObjects debug keys values rows absentOnNull =
      (List.range rows).mapM fun row =>
        (objectByRow debug keys values absentOnNull row).map some := by
  have bound : buildObjects debug keys values rows absentOnNull =
      (List.range rows).mapM fun row =>
        (buildObject debug keys values absentOnNull prepared row).map some := by
    unfold buildObjects
    rw [accepted]
    rfl
  rw [bound]
  apply Paired.mapM_congr
  intro row inside
  rw [buildObject_prepared accepted]

theorem buildObjects_spelledOut (debug : String → String) (keys : List KeyColumn)
    (values : List Texts) (rows : Nat) (absentOnNull : Bool) :
    buildObjects debug (keys.map (KeyColumn.spelledOut rows)) values rows absentOnNull =
      (List.range rows).mapM fun row =>
        (objectByRow debug keys values absentOnNull row).map some := by
  have accepted : ∃ prepared,
      prepare debug (keys.map (KeyColumn.spelledOut rows)) absentOnNull = .ok prepared := by
    cases keys with
    | nil => exact ⟨_, rfl⟩
    | cons key keys => exact ⟨none, prepare_spelledOut debug rows _ _ (List.cons_ne_nil _ _)⟩
  obtain ⟨prepared, accepted⟩ := accepted
  rw [buildObjects_prepared accepted]
  apply Paired.mapM_congr
  intro row inside
  rw [objectByRow_spelledOut debug keys values absentOnNull (List.mem_range.mp inside)]

/-- A literal key that is there twice is one in every row in which no member is left out. -/
theorem objectByRow_repeated {debug : String → String} {keys : List KeyColumn}
    {literals : List String} {key : String} (found : keys.mapM KeyColumn.literal = some literals)
    (twice : repeated literals = some key) (values : List Texts) (row : Nat) :
    objectByRow debug keys values false row = .error (duplicate debug key (some row)) := by
  have every : present values false keys.length row = List.range keys.length :=
    List.filter_eq_self.mpr fun index inside => rfl
  have texts := rowKeys_literals debug literals row literals.length 0 (Nat.zero_add _)
  rw [List.drop_zero, ← List.range_eq_range', List.take_zero] at texts
  unfold repeated at twice
  rw [twice] at texts
  unfold objectByRow
  dsimp only
  rw [every, literals_iff.mp found, List.length_map, texts]

/-- Keys that are literals are no more than a quicker way: the same keys given for each row make the
same objects. A literal key that is there twice, where a NULL is a member too, is refused in the
same way, but for the row that the message names, and where there is no row. -/
theorem buildObjects_literals (debug : String → String) (keys : List KeyColumn)
    (values : List Texts) (rows : Nat) (absentOnNull : Bool) :
    match (keys.mapM KeyColumn.literal).bind repeated with
    | none =>
        buildObjects debug keys values rows absentOnNull =
          buildObjects debug (keys.map (KeyColumn.spelledOut rows)) values rows absentOnNull
    | some key =>
        buildObjects debug keys values rows true =
            buildObjects debug (keys.map (KeyColumn.spelledOut rows)) values rows true ∧
          buildObjects debug keys values rows false = .error (duplicate debug key none) ∧
          (0 < rows →
            buildObjects debug (keys.map (KeyColumn.spelledOut rows)) values rows false =
              .error (duplicate debug key (some 0))) := by
  cases found : keys.mapM KeyColumn.literal with
  | none =>
      have accepted : prepare debug keys absentOnNull = .ok none := by
        unfold prepare
        rw [found]
      rw [Option.bind_none, buildObjects_spelledOut]
      exact buildObjects_prepared accepted values rows
  | some literals =>
      rw [Option.bind_some]
      cases twice : repeated literals with
      | none =>
          have accepted : ∃ prepared, prepare debug keys absentOnNull = .ok prepared := by
            unfold prepare
            rw [found]
            dsimp only
            rw [twice]
            exact ⟨_, rfl⟩
          obtain ⟨prepared, accepted⟩ := accepted
          rw [buildObjects_spelledOut]
          exact buildObjects_prepared accepted values rows
      | some key =>
          have accepted : prepare debug keys true = .ok none := by
            unfold prepare
            rw [found]
            dsimp only
            rw [twice]
            rfl
          have refused : prepare debug keys false = .error (duplicate debug key none) := by
            unfold prepare
            rw [found]
            dsimp only
            rw [twice]
            rfl
          refine ⟨?_, ?_, ?_⟩
          · rw [buildObjects_spelledOut]
            exact buildObjects_prepared accepted values rows
          · unfold buildObjects
            rw [refused]
            rfl
          · intro some
            rw [buildObjects_spelledOut]
            cases rows with
            | zero => cases some
            | succ rows =>
                rw [List.range_succ_eq_map, List.mapM_cons, objectByRow_repeated found twice]
                rfl

end Ddi.JsonBuild
