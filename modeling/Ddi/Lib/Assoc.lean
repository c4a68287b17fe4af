/-
Maps kept as lists of entries, one for each key.
-/

import Mathlib.Tactic.Common

namespace Assoc

variable {K V : Type} [DecidableEq K]

/-- The value in place of the key's old one, or last. -/
def put (key : K) (value : V) : List (K × V) → List (K × V)
  | [] => [(key, value)]
  | head :: rest => if head.1 = key then (key, value) :: rest else head :: put key value rest

theorem lookup_put (entries : List (K × V)) (key other : K) (value : V) :
    (put key value entries).lookup other =
      if other = key then some value else entries.lookup other := by
  induction entries with
  | nil =>
      by_cases same : other = key
      · subst same
        simp [put]
      · rw [if_neg same]
        simp only [put, List.lookup_cons, beq_eq_false_iff_ne.mpr same, List.lookup_nil]
  | cons head entries ih =>
      obtain ⟨own, held⟩ := head
      unfold put
      by_cases here : own = key
      · rw [if_pos here]
        subst here
        by_cases same : other = own
        · subst same
          simp
        · rw [if_neg same]
          simp only [List.lookup_cons, beq_eq_false_iff_ne.mpr same]
      · rw [if_neg here, List.lookup_cons, List.lookup_cons, ih]
        by_cases same : other = own
        · subst same
          simp [here]
        · simp only [beq_eq_false_iff_ne.mpr same]

theorem lookup_put_self (entries : List (K × V)) (key : K) (value : V) :
    (put key value entries).lookup key = some value := by
  rw [lookup_put, if_pos rfl]

theorem lookup_put_of_ne (entries : List (K × V)) {key other : K} (away : other ≠ key) (value : V) :
    (put key value entries).lookup other = entries.lookup other := by
  rw [lookup_put, if_neg away]

/-- A key's own value put in its place changes nothing. -/
theorem put_same {entries : List (K × V)} {key : K} {value : V}
    (found : entries.lookup key = some value) : put key value entries = entries := by
  induction entries with
  | nil => cases found
  | cons head entries ih =>
      unfold put
      by_cases here : head.1 = key
      · rw [if_pos here]
        rw [List.lookup_cons, beq_iff_eq.mpr here.symm] at found
        cases found
        rw [← here]
      · rw [if_neg here]
        rw [List.lookup_cons, beq_eq_false_iff_ne.mpr (Ne.symm here)] at found
        rw [ih found]

theorem mem_put {entries : List (K × V)} {key : K} {value : V} {entry : K × V}
    (member : entry ∈ put key value entries) : entry = (key, value) ∨ entry ∈ entries := by
  induction entries with
  | nil => exact Or.inl (List.mem_singleton.mp member)
  | cons head entries ih =>
      unfold put at member
      by_cases here : head.1 = key
      · rw [if_pos here] at member
        rcases List.mem_cons.mp member with first | later
        · exact Or.inl first
        · exact Or.inr (List.mem_cons_of_mem _ later)
      · rw [if_neg here] at member
        rcases List.mem_cons.mp member with first | later
        · exact Or.inr (List.mem_cons.mpr (Or.inl first))
        · rcases ih later with new | old
          · exact Or.inl new
          · exact Or.inr (List.mem_cons_of_mem _ old)

/-- No key has two entries. -/
def Distinct (entries : List (K × V)) : Prop :=
  entries.Pairwise fun one other => one.1 ≠ other.1

theorem Distinct.put {entries : List (K × V)} (distinct : Distinct entries) (key : K) (value : V) :
    Distinct (put key value entries) := by
  induction entries with
  | nil => exact List.pairwise_singleton _ _
  | cons head entries ih =>
      obtain ⟨first, rest⟩ := List.pairwise_cons.mp distinct
      unfold Assoc.put
      by_cases here : head.1 = key
      · rw [if_pos here]
        apply List.pairwise_cons.mpr
        constructor
        · intro other member
          rw [← here]
          exact first other member
        · exact rest
      · rw [if_neg here]
        apply List.pairwise_cons.mpr
        constructor
        · intro other member
          rcases mem_put member with new | old
          · rw [new]
            exact here
          · exact first other old
        · exact ih rest

theorem Distinct.lookup_of_mem {entries : List (K × V)} (distinct : Distinct entries) {key : K}
    {value : V} (member : (key, value) ∈ entries) : entries.lookup key = some value := by
  induction entries with
  | nil => cases member
  | cons head entries ih =>
      obtain ⟨first, rest⟩ := List.pairwise_cons.mp distinct
      obtain ⟨own, held⟩ := head
      rw [List.lookup_cons]
      rcases List.mem_cons.mp member with here | later
      · cases here
        simp
      · have away : key ≠ own := (first _ later).symm
        simp only [beq_eq_false_iff_ne.mpr away]
        exact ih rest later

theorem mem_of_lookup {entries : List (K × V)} {key : K} {value : V}
    (found : entries.lookup key = some value) : (key, value) ∈ entries := by
  obtain ⟨before, after, same, _away⟩ := List.lookup_eq_some_iff.mp found
  rw [same]
  exact List.mem_append_right _ List.mem_cons_self

theorem mem_keys_iff (entries : List (K × V)) (key : K) :
    key ∈ entries.map Prod.fst ↔ ∃ value, entries.lookup key = some value := by
  induction entries with
  | nil => simp
  | cons head entries ih =>
      obtain ⟨own, held⟩ := head
      rw [List.map_cons, List.mem_cons, List.lookup_cons]
      by_cases same : key = own
      · subst same
        simp
      · simp only [beq_eq_false_iff_ne.mpr same, same, false_or]
        exact ih

theorem lookup_eq_none_iff (entries : List (K × V)) (key : K) :
    entries.lookup key = none ↔ key ∉ entries.map Prod.fst := by
  rw [mem_keys_iff]
  cases entries.lookup key with
  | none => simp
  | some value => simp

/-- Every entry's value changed by its key. -/
theorem lookup_map {W : Type} (entries : List (K × V)) (change : K → V → W) (key : K) :
    (entries.map fun entry => (entry.1, change entry.1 entry.2)).lookup key =
      (entries.lookup key).map (change key) := by
  induction entries with
  | nil => rfl
  | cons head entries ih =>
      obtain ⟨own, held⟩ := head
      rw [List.map_cons, List.lookup_cons, List.lookup_cons, ih]
      by_cases same : key = own
      · subst same
        simp
      · simp only [beq_eq_false_iff_ne.mpr same]

theorem lookup_tabulate (keys : List K) (value : K → V) (key : K) :
    (keys.map fun own => (own, value own)).lookup key =
      if key ∈ keys then some (value key) else none := by
  induction keys with
  | nil => rfl
  | cons own keys ih =>
      rw [List.map_cons, List.lookup_cons, ih]
      by_cases same : key = own
      · subst same
        simp
      · simp [beq_eq_false_iff_ne.mpr same, same]

theorem lookup_filterMap (keys : List K) (value : K → Option V) (key : K) :
    (keys.filterMap fun own => (value own).map fun held => (own, held)).lookup key =
      if key ∈ keys then value key else none := by
  induction keys with
  | nil => rfl
  | cons own keys ih =>
      rw [List.filterMap_cons]
      by_cases same : key = own
      · subst same
        cases found : value key with
        | none => simp only [Option.map_none, ih, List.mem_cons, true_or, found, ite_self]
        | some held => simp
      · cases found : value own with
        | none => simp [ih, same]
        | some held =>
            simp only [Option.map_some, List.lookup_cons, beq_eq_false_iff_ne.mpr same, ih]
            simp [same]

theorem lookup_filter (entries : List (K × V)) (keep : K → Bool) (key : K) :
    (entries.filter fun entry => keep entry.1).lookup key =
      if keep key then entries.lookup key else none := by
  induction entries with
  | nil => simp
  | cons head entries ih =>
      obtain ⟨own, held⟩ := head
      rw [List.filter_cons, List.lookup_cons]
      by_cases same : key = own
      · subst same
        by_cases kept : keep key
        · simp [kept]
        · simp only [kept, Bool.false_eq_true, if_false] at ih ⊢
          exact ih
      · simp only [beq_eq_false_iff_ne.mpr same]
        by_cases kept : keep own
        · simp only [kept, if_true, List.lookup_cons, beq_eq_false_iff_ne.mpr same]
          exact ih
        · simp only [kept, Bool.false_eq_true, if_false]
          exact ih

theorem lookup_append (entries more : List (K × V)) (key : K) :
    (entries ++ more).lookup key = (entries.lookup key).or (more.lookup key) := by
  induction entries with
  | nil => rfl
  | cons head entries ih =>
      obtain ⟨own, held⟩ := head
      rw [List.cons_append, List.lookup_cons, List.lookup_cons, ih]
      by_cases same : key = own
      · subst same
        simp
      · simp only [beq_eq_false_iff_ne.mpr same]

/-- What a map holds does not depend on the order of its entries. -/
theorem Distinct.lookup_perm {entries others : List (K × V)} (distinct : Distinct others)
    (perm : entries.Perm others) (key : K) : entries.lookup key = others.lookup key := by
  cases held : entries.lookup key with
  | some value =>
      have among := perm.mem_iff.mp (mem_of_lookup held)
      exact (distinct.lookup_of_mem among).symm
  | none =>
      have absent := (lookup_eq_none_iff entries key).mp held
      symm
      apply (lookup_eq_none_iff others key).mpr
      intro inside
      exact absent ((perm.map Prod.fst).mem_iff.mpr inside)

/-- Several values put in one after the other: the last of a key stays. -/
theorem lookup_foldl_put {α : Type} (items : List α) (own : α → K) (value : α → V)
    (entries : List (K × V)) (key : K) :
    (items.foldl (fun entries item => put (own item) (value item) entries) entries).lookup key =
      ((items.reverse.find? fun item => decide (own item = key)).map value).or
        (entries.lookup key) := by
  induction items generalizing entries with
  | nil => rfl
  | cons item items ih =>
      rw [List.foldl_cons, ih, List.reverse_cons, List.find?_append, lookup_put]
      cases items.reverse.find? fun item => decide (own item = key) with
      | some last => rfl
      | none =>
          by_cases same : key = own item
          · subst same
            simp
          · rw [if_neg same]
            simp [Ne.symm same]

theorem Distinct.foldl_put {α : Type} {items : List α} {entries : List (K × V)}
    (distinct : Distinct entries) (own : α → K) (value : α → V) :
    Distinct (items.foldl (fun entries item => Assoc.put (own item) (value item) entries)
      entries) := by
  induction items generalizing entries with
  | nil => exact distinct
  | cons item items ih => exact ih (distinct.put _ _)

theorem put_absent {entries : List (K × V)} {key : K} (absent : ∀ entry ∈ entries, entry.1 ≠ key)
    (value : V) : put key value entries = entries ++ [(key, value)] := by
  induction entries with
  | nil => rfl
  | cons head entries ih =>
      rw [put, if_neg (absent head List.mem_cons_self),
        ih fun entry member => absent entry (List.mem_cons_of_mem _ member)]
      rfl

/-- The entries of a map put in one after the other are the map. -/
theorem Distinct.foldl_put_self {entries before : List (K × V)}
    (distinct : Distinct (before ++ entries)) :
    entries.foldl (fun held entry => Assoc.put entry.1 entry.2 held) before = before ++ entries := by
  induction entries generalizing before with
  | nil => exact (List.append_nil before).symm
  | cons entry entries ih =>
      have absent : ∀ held ∈ before, held.1 ≠ entry.1 := fun held member =>
        (List.pairwise_append.mp distinct).2.2 held member entry List.mem_cons_self
      rw [List.foldl_cons, put_absent absent, ih]
      · simp
      · simpa using distinct

theorem mem_foldl_put {items entries : List (K × V)} {entry : K × V}
    (member : entry ∈ items.foldl (fun held item => put item.1 item.2 held) entries) :
    entry ∈ items ∨ entry ∈ entries := by
  induction items generalizing entries with
  | nil => exact Or.inr member
  | cons item items ih =>
      rcases ih member with later | held
      · exact Or.inl (List.mem_cons_of_mem _ later)
      · rcases mem_put held with new | old
        · exact Or.inl (by rw [new]; exact List.mem_cons_self)
        · exact Or.inr old

theorem put_map {W : Type} (change : V → W) (key : K) (value : V) (entries : List (K × V)) :
    put key (change value) (entries.map fun entry => (entry.1, change entry.2)) =
      (put key value entries).map fun entry => (entry.1, change entry.2) := by
  induction entries with
  | nil => rfl
  | cons head entries ih =>
      rw [List.map_cons, put, put]
      split
      · rfl
      · rw [ih]
        rfl

/-- Values changed before they are put in, or after. -/
theorem foldl_put_map {W : Type} (change : V → W) (items entries : List (K × V)) :
    (items.map fun item => (item.1, change item.2)).foldl
        (fun held item => put item.1 item.2 held)
        (entries.map fun entry => (entry.1, change entry.2)) =
      (items.foldl (fun held item => put item.1 item.2 held) entries).map
        fun entry => (entry.1, change entry.2) := by
  induction items generalizing entries with
  | nil => rfl
  | cons item items ih =>
      rw [List.map_cons, List.foldl_cons, List.foldl_cons, ← ih, ← put_map]

omit [DecidableEq K] in
theorem Distinct.nodup_keys {entries : List (K × V)} (distinct : Distinct entries) :
    (entries.map Prod.fst).Nodup := List.pairwise_map.mpr distinct

/-- In a map the last entry of a key is its only one. -/
theorem Distinct.find?_reverse {entries : List (K × V)} (distinct : Distinct entries) (key : K) :
    (entries.reverse.find? fun entry => decide (entry.1 = key)).map Prod.snd =
      entries.lookup key := by
  cases found : entries.reverse.find? fun entry => decide (entry.1 = key) with
  | some entry =>
      have chosen := List.find?_some found
      have same : entry.1 = key := of_decide_eq_true chosen
      have among : (key, entry.2) ∈ entries := by
        rw [← same]
        exact List.mem_reverse.mp (List.mem_of_find?_eq_some found)
      rw [distinct.lookup_of_mem among]
      rfl
  | none =>
      rw [List.find?_eq_none] at found
      cases held : entries.lookup key with
      | none => rfl
      | some value =>
          have away := found _ (List.mem_reverse.mpr (mem_of_lookup held))
          simp at away

end Assoc
