/-
The types a schema's nodes stand for: each node's walk accepts exactly the encodings of
its type's values, and the shortcut for items that take no bytes changes none of it.
-/

import Ddi.Kafka.WireExact
import Mathlib.Data.List.Forall2

namespace Ddi.Kafka.Decode

open Avro (Bytes Ty Groups Varint Long Short Items Blocks Entry EncodesAll EncodesNth)
open Walks (Reads Passes bind_ok_iff)

/-! ### Nodes -/

section Placed

variable {α : Type}

theorem placed_lt {nodes : List α} {index : Nat} {node : α}
    (found : placed nodes index = some node) : index < nodes.length := by
  induction nodes with
  | nil => cases found
  | cons last earlier ih =>
      unfold placed at found
      rw [List.length_cons]
      by_cases here : index = earlier.length
      · omega
      · rw [if_neg here] at found
        have before := ih found
        omega

theorem placed_cons {last : α} {earlier : List α} {index : Nat} (before : index < earlier.length) :
    placed (last :: earlier) index = placed earlier index := by
  unfold placed
  rw [if_neg (by omega)]
  cases earlier <;> rfl

end Placed

/-- The type of the node at an index, its inner types those of the nodes before it. -/
def typeOf : List Node → Nat → Option Ty
  | [], _ => none
  | node :: earlier, index =>
      if index ≠ earlier.length then typeOf earlier index
      else
        match node with
        | .null => some .null
        | .boolean => some .boolean
        | .int => some .int
        | .long => some .long
        | .float => some .float
        | .double => some .double
        | .bytes => some .bytes
        | .fixed size => some (.fixed size)
        | .enum => some .enum
        | .array item => (typeOf earlier item).map .array
        | .map value => (typeOf earlier value).map .map
        | .union branches => (branches.mapM fun branch => typeOf earlier branch).map .union
        | .record fields => (fields.mapM fun field => typeOf earlier field).map .record

theorem typeOf_here (node : Node) (earlier : List Node) :
    typeOf (node :: earlier) earlier.length =
      match node with
      | .null => some .null
      | .boolean => some .boolean
      | .int => some .int
      | .long => some .long
      | .float => some .float
      | .double => some .double
      | .bytes => some .bytes
      | .fixed size => some (.fixed size)
      | .enum => some .enum
      | .array item => (typeOf earlier item).map .array
      | .map value => (typeOf earlier value).map .map
      | .union branches => (branches.mapM fun branch => typeOf earlier branch).map .union
      | .record fields => (fields.mapM fun field => typeOf earlier field).map .record := by
  simp only [typeOf, ne_eq, not_true_eq_false, if_false]

theorem typeOf_lt {nodes : List Node} {index : Nat} {ty : Ty} (found : typeOf nodes index = some ty) :
    index < nodes.length := by
  induction nodes with
  | nil => cases found
  | cons node earlier ih =>
      unfold typeOf at found
      rw [List.length_cons]
      by_cases here : index = earlier.length
      · omega
      · rw [if_pos here] at found
        have before := ih found
        omega

theorem typeOf_push {nodes : List Node} {index : Nat} {ty : Ty} (found : typeOf nodes index = some ty)
    (node : Node) : typeOf (node :: nodes) index = some ty := by
  have before := typeOf_lt found
  unfold typeOf
  rw [if_pos (by omega)]
  exact found

/-- The items of a list are each given a type. -/
theorem mapM_typeOf {indexes : List Nat} {types : List Ty} {nodes : List Node}
    (found : indexes.mapM (fun index => typeOf nodes index) = some types) :
    List.Forall₂ (fun index ty => typeOf nodes index = some ty) indexes types := by
  induction indexes generalizing types with
  | nil =>
      cases found
      exact .nil
  | cons index indexes ih =>
      rw [List.mapM_cons] at found
      cases here : typeOf nodes index with
      | none =>
          rw [here] at found
          cases found
      | some ty =>
          rw [here] at found
          cases others : indexes.mapM fun index => typeOf nodes index with
          | none =>
              rw [others] at found
              cases found
          | some rest =>
              rw [others] at found
              cases found
              exact .cons here (ih others)

theorem mapM_of_forall₂ {indexes : List Nat} {types : List Ty} {nodes : List Node}
    (each : List.Forall₂ (fun index ty => typeOf nodes index = some ty) indexes types) :
    indexes.mapM (fun index => typeOf nodes index) = some types := by
  induction each with
  | nil => rfl
  | cons here _rest ih =>
      rw [List.mapM_cons, here, ih]
      rfl

namespace Wire

/-! ### Nodes that take no bytes -/

theorem emptyNodes_length (nodes : List Node) : (emptyNodes nodes).length = nodes.length := by
  induction nodes with
  | nil => rfl
  | cons node earlier ih => exact congrArg Nat.succ ih

/-- What is known to take no bytes is walked at once. -/
theorem walkNodes_empty (skips : Nat → Bool) {nodes : List Node} {index : Nat}
    (empty : placed (emptyNodes nodes) index = some true) (buf : Bytes) :
    walkNodes skips nodes index buf = .ok buf := by
  induction nodes generalizing index buf with
  | nil => cases empty
  | cons node earlier ih =>
      unfold emptyNodes placed at empty
      simp only [emptyNodes_length] at empty
      unfold walkNodes
      by_cases here : index = earlier.length
      · rw [if_pos here] at empty
        rw [if_neg (not_not.mpr here)]
        cases node with
        | null => rfl
        | fixed size =>
            have nothing : size = 0 := by simpa using empty
            subst nothing
            have taken := (take_reads 0).on_word (show ([] : Bytes) = [] ∧ _ from ⟨rfl, rfl⟩) buf
            exact bind_ok_iff.mpr ⟨_, taken, rfl⟩
        | record fields =>
            have each : ∀ field, field ∈ fields → placed (emptyNodes earlier) field = some true := by
              intro field among
              have all := List.all_eq_true.mp (Option.some.inj empty) field among
              cases known : placed (emptyNodes earlier) field with
              | none =>
                  rw [known] at all
                  cases all
              | some value =>
                  rw [known] at all
                  exact congrArg some all
            simp only
            clear empty
            induction fields with
            | nil => rfl
            | cons field fields ih_fields =>
                rw [List.foldlM_cons, ih (each field List.mem_cons_self)]
                exact ih_fields fun other among => each other (List.mem_cons_of_mem _ among)
        | _ => cases empty
      · rw [if_neg here] at empty
        rw [if_pos here]
        exact ih empty buf

/-! ### The walk of one type -/

/-- The shortcut is only taken for nodes that take no bytes. -/
def Harmless (skips : Nat → Bool) (nodes : List Node) : Prop :=
  ∀ index, index < nodes.length → skips index = true → placed (emptyNodes nodes) index = some true

theorem Harmless.earlier {skips : Nat → Bool} {node : Node} {nodes : List Node}
    (harmless : Harmless skips (node :: nodes)) : Harmless skips nodes := by
  intro index before skipped
  have empty := harmless index (Nat.lt_succ_of_lt before) skipped
  unfold emptyNodes at empty
  rwa [placed_cons (by rwa [emptyNodes_length])] at empty

/-- A node's walk is that of its type. -/
abbrev Right (walk : Bytes → Except String Bytes) (ty : Ty) : Prop := Passes walk ty.Encodes

theorem fields_passes {walk : Nat → Bytes → Except String Bytes} {fields : List Nat}
    {types : List Ty} (each : List.Forall₂ (fun field ty => Right (walk field) ty) fields types) :
    Passes (fun buf => fields.foldlM (fun buf field => walk field buf) buf) (EncodesAll types) := by
  induction each with
  | nil =>
      intro body rest
      constructor
      · intro same
        cases same
        exact ⟨[], [], ⟨rfl, rfl⟩, rfl⟩
      · rintro ⟨values, bytes, ⟨_nothing, rfl⟩, rfl⟩
        rfl
  | cons here _rest ih =>
      apply (here.then_passes ih).of_words
      intro bytes
      constructor
      · rintro ⟨⟨value, others⟩, first, rest, word, later, rfl⟩
        exact ⟨value :: others, value, others, first, rest, rfl, word, later, rfl⟩
      · rintro ⟨_values, value, others, first, rest, _same, word, later, rfl⟩
        exact ⟨(value, others), first, rest, word, later, rfl⟩

theorem forall₂_getElem? {α β : Type} {R : α → β → Prop} {left : List α} {right : List β}
    (each : List.Forall₂ R left right) (index : Nat) :
    (left[index]? = none ∧ right[index]? = none) ∨
      ∃ a b, left[index]? = some a ∧ right[index]? = some b ∧ R a b := by
  induction each generalizing index with
  | nil => exact Or.inl ⟨rfl, rfl⟩
  | cons here _rest ih =>
      cases index with
      | zero => exact Or.inr ⟨_, _, rfl, rfl, here⟩
      | succ index => exact ih index

theorem branch_passes {walk : Nat → Bytes → Except String Bytes} {branches : List Nat}
    {types : List Ty} (each : List.Forall₂ (fun branch ty => Right (walk branch) ty) branches types)
    (index : Int) :
    Passes
      (fun rest => match if index < 0 then none else branches[index.toNat]? with
        | some branch => walk branch rest
        | none => .error s!"union branch {index} out of range ({branches.length} branches)")
      fun (held : Avro.Value) bytes =>
        0 ≤ index ∧ EncodesNth types index.toNat held bytes := by
  intro body rest
  by_cases negative : index < 0
  · simp only [if_pos negative]
    constructor
    · intro same
      cases same
    · rintro ⟨held, bytes, ⟨nonneg, _word⟩, _split⟩
      omega
  · simp only [if_neg negative]
    rcases forall₂_getElem? each index.toNat with ⟨absent, beyond⟩ | ⟨branch, ty, here, there, right⟩
    · simp only [absent]
      constructor
      · intro same
        cases same
      · rintro ⟨held, bytes, ⟨_nonneg, word⟩, _split⟩
        obtain ⟨ty, found, _word⟩ := (Avro.encodesNth_iff _ _ _ _).mp word
        rw [beyond] at found
        cases found
    · simp only [here]
      rw [right]
      constructor
      · rintro ⟨held, bytes, word, split⟩
        exact ⟨held, bytes, ⟨Int.not_lt.mp negative,
          (Avro.encodesNth_iff _ _ _ _).mpr ⟨ty, there, word⟩⟩, split⟩
      · rintro ⟨held, bytes, ⟨_nonneg, word⟩, split⟩
        obtain ⟨other, found, word⟩ := (Avro.encodesNth_iff _ _ _ _).mp word
        rw [there] at found
        cases found
        exact ⟨held, bytes, word, split⟩

theorem entry_passes {walk : Bytes → Except String Bytes} {ty : Ty} (right : Right walk ty) :
    Passes (fun buf => do
      let rest ← walkBytes buf
      walk rest) (Entry ty.Encodes) := by
  apply (walkBytes_passes.then_passes right).of_words
  intro bytes
  constructor
  · rintro ⟨⟨key, value⟩, first, body, ⟨count, counts, rfl⟩, word, rfl⟩
    exact ⟨(key, value), count, body, counts, word, List.append_assoc _ _ _⟩
  · rintro ⟨⟨key, value⟩, count, body, counts, word, rfl⟩
    exact ⟨(key, value), count ++ key, body, ⟨count, counts, rfl⟩, word,
      (List.append_assoc _ _ _).symm⟩

/-- Each node's walk accepts the encodings of its type's values: by induction on the nodes, as a
node's inner types are among those before it. -/
theorem walkNodes_right {skips : Nat → Bool} {nodes : List Node} (harmless : Harmless skips nodes)
    {index : Nat} {ty : Ty} (found : typeOf nodes index = some ty) :
    Right (walkNodes skips nodes index) ty := by
  induction nodes generalizing index ty with
  | nil => cases found
  | cons node earlier ih =>
      have before := harmless.earlier
      unfold typeOf at found
      change Right (fun buf => walkNodes skips (node :: earlier) index buf) ty
      unfold walkNodes
      by_cases away : index ≠ earlier.length
      · rw [if_pos away] at found
        simp only [if_pos away]
        exact ih before found
      · rw [if_neg away] at found
        simp only [if_neg away]
        cases node with
        | null =>
            cases found
            intro body rest
            constructor
            · intro same
              cases same
              exact ⟨.null, [], ⟨rfl, rfl⟩, rfl⟩
            · rintro ⟨value, bytes, ⟨_same, rfl⟩, rfl⟩
              rfl
        | boolean =>
            cases found
            intro body rest
            rw [bind_ok_iff]
            constructor
            · rintro ⟨⟨byte, left⟩, taken, same⟩
              obtain ⟨bytes, ⟨rfl, whole⟩, split⟩ := (take_reads 1 _ _ _).mp taken
              by_cases truth : byte = [0] ∨ byte = [1]
              · simp only [if_pos truth] at same
                cases same
                rcases truth with no | yes
                · exact ⟨.boolean false, byte, ⟨false, rfl, no⟩, split⟩
                · exact ⟨.boolean true, byte, ⟨true, rfl, yes⟩, split⟩
              · simp only [if_neg truth] at same
                cases same
            · rintro ⟨value, bytes, ⟨truth, _same, rfl⟩, rfl⟩
              refine ⟨_, (take_reads 1).on_word ⟨rfl, rfl⟩ rest, ?_⟩
              cases truth <;> rfl
        | int =>
            cases found
            apply (walkShort_passes "an int").of_words
            intro bytes
            exact ⟨fun ⟨number, word⟩ => ⟨_, number, rfl, word⟩,
              fun ⟨_value, number, _same, word⟩ => ⟨number, word⟩⟩
        | long =>
            cases found
            apply varint_reads.passes.of_words
            intro bytes
            exact ⟨fun ⟨raw, word⟩ => ⟨_, _, rfl, raw, word, rfl⟩,
              fun ⟨_value, _number, _same, raw, word, _zigzag⟩ => ⟨raw, word⟩⟩
        | float =>
            cases found
            apply (take_reads 4).passes.of_words
            intro bytes
            exact ⟨fun ⟨_data, _same, whole⟩ => ⟨_, rfl, whole⟩,
              fun ⟨_value, _same, whole⟩ => ⟨_, rfl, whole⟩⟩
        | double =>
            cases found
            apply (take_reads 8).passes.of_words
            intro bytes
            exact ⟨fun ⟨_data, _same, whole⟩ => ⟨_, rfl, whole⟩,
              fun ⟨_value, _same, whole⟩ => ⟨_, rfl, whole⟩⟩
        | bytes =>
            cases found
            apply walkBytes_passes.of_words
            intro bytes
            exact ⟨fun ⟨data, count, word, same⟩ => ⟨_, data, count, rfl, word, same⟩,
              fun ⟨_value, data, count, _same, word, same⟩ => ⟨data, count, word, same⟩⟩
        | fixed size =>
            cases found
            apply (take_reads size).passes.of_words
            intro bytes
            exact ⟨fun ⟨_data, _same, whole⟩ => ⟨_, rfl, whole⟩,
              fun ⟨_value, _same, whole⟩ => ⟨_, rfl, whole⟩⟩
        | enum =>
            cases found
            apply (walkShort_passes "an enum index").of_words
            intro bytes
            exact ⟨fun ⟨index, word⟩ => ⟨_, index, rfl, word⟩,
              fun ⟨_value, index, _same, word⟩ => ⟨index, word⟩⟩
        | array item =>
            obtain ⟨held, inner, rfl⟩ := Option.map_eq_some_iff.mp found
            have passes : Right (walkNodes skips earlier item) held := ih before inner
            have each : ∀ more buf, blocks (walkNodes skips earlier item) (skips item) more buf =
                blocks (walkNodes skips earlier item) false more buf := by
              intro more buf
              cases skipped : skips item with
              | false => rfl
              | true =>
                  exact blocks_skipped
                    (walkNodes_empty skips (before item (typeOf_lt inner) skipped)) more buf
            simp only [each]
            apply (blocks_passes passes).of_words
            intro bytes
            exact ⟨fun ⟨items, word⟩ => ⟨_, items, rfl, word⟩,
              fun ⟨_value, items, _same, word⟩ => ⟨items, word⟩⟩
        | map value =>
            obtain ⟨held, inner, rfl⟩ := Option.map_eq_some_iff.mp found
            apply (blocks_passes (entry_passes (ih before inner))).of_words
            intro bytes
            exact ⟨fun ⟨entries, word⟩ => ⟨_, entries, rfl, word⟩,
              fun ⟨_value, entries, _same, word⟩ => ⟨entries, word⟩⟩
        | union branches =>
            obtain ⟨types, inner, rfl⟩ := Option.map_eq_some_iff.mp found
            have each := (mapM_typeOf inner).imp fun _ _ typed => ih before typed
            apply (long_reads.then_passes (branch_passes each)).of_words
            intro bytes
            constructor
            · rintro ⟨⟨index, held⟩, first, second, word, ⟨nonneg, body⟩, rfl⟩
              refine ⟨_, index.toNat, held, first, second, rfl, ?_, body, rfl⟩
              rw [Int.toNat_of_nonneg nonneg]
              exact word
            · rintro ⟨_value, branch, held, first, second, _same, word, body, rfl⟩
              exact ⟨((branch : Int), held), first, second, word, ⟨by omega, body⟩, rfl⟩
        | record fields =>
            obtain ⟨types, inner, rfl⟩ := Option.map_eq_some_iff.mp found
            have each := (mapM_typeOf inner).imp fun _ _ typed => ih before typed
            apply (fields_passes each).of_words
            intro bytes
            exact ⟨fun ⟨values, word⟩ => ⟨_, values, rfl, word⟩,
              fun ⟨_value, values, _same, word⟩ => ⟨values, word⟩⟩

/-- The shortcut never changes an answer, nor an error. -/
theorem walkNodes_unskipped {skips : Nat → Bool} {nodes : List Node}
    (harmless : Harmless skips nodes) {index : Nat} {ty : Ty}
    (found : typeOf nodes index = some ty) (buf : Bytes) :
    walkNodes skips nodes index buf = walkNodes (fun _ => false) nodes index buf := by
  induction nodes generalizing index ty buf with
  | nil => rfl
  | cons node earlier ih =>
      have before := harmless.earlier
      unfold typeOf at found
      unfold walkNodes
      by_cases away : index ≠ earlier.length
      · rw [if_pos away] at found
        rw [if_pos away, if_pos away]
        exact ih before found buf
      · rw [if_neg away] at found
        rw [if_neg away, if_neg away]
        cases node with
        | array item =>
            obtain ⟨held, inner, rfl⟩ := Option.map_eq_some_iff.mp found
            have same : walkNodes skips earlier item = walkNodes (fun _ => false) earlier item :=
              funext (ih before inner)
            simp only [← same]
            cases skipped : skips item with
            | false => rfl
            | true =>
                exact blocks_skipped
                  (walkNodes_empty skips (before item (typeOf_lt inner) skipped)) _ buf
        | map value =>
            obtain ⟨held, inner, rfl⟩ := Option.map_eq_some_iff.mp found
            have same : walkNodes skips earlier value = walkNodes (fun _ => false) earlier value :=
              funext (ih before inner)
            simp only [same]
        | union branches =>
            obtain ⟨types, inner, rfl⟩ := Option.map_eq_some_iff.mp found
            have each := mapM_typeOf inner
            simp only
            congr 1
            funext read
            by_cases negative : read.1 < 0
            · simp only [if_pos negative]
            · simp only [if_neg negative]
              rcases forall₂_getElem? each read.1.toNat with
                ⟨absent, _beyond⟩ | ⟨branch, branch_ty, here, _there, typed⟩
              · simp only [absent]
              · simp only [here]
                exact ih before typed read.2
        | record fields =>
            obtain ⟨types, inner, rfl⟩ := Option.map_eq_some_iff.mp found
            have each := mapM_typeOf inner
            simp only
            clear inner found harmless
            induction each generalizing buf with
            | nil => rfl
            | cons typed _rest ih_fields =>
                rw [List.foldlM_cons, List.foldlM_cons, ih before typed]
                congr 1
                funext rest
                exact ih_fields rest
        | _ => rfl

end Wire

end Ddi.Kafka.Decode
