/-
What an upsert leaves: of the rows that survive the collapse of their batch, the
latest of each key.

The collapse tells keys apart by their text. A key whose text is another's can
lose its row to it, and that is the only way a delivered row is lost: however
the deliveries are grouped and whichever are repeated, the table is settled for
what survives, and settled for everything delivered just when the latest row of
every key survives once.
-/

import Ddi.Lib.Latest
import Ddi.Upsert
import Mathlib.Data.List.Perm.Subperm

namespace Ddi.Upsert

open Latest (IsLatest Apart Single Settled Merged)

variable {V β : Type}

/-! ### The two comparisons are one order -/

/-- The row has a value in every column it is ordered by. -/
def Ranked (columns : Columns) (row : Row V) : Prop :=
  ∀ column, column ∈ columns.order → ∃ value, row column = some value

private theorem filterMap_length {names : List String} {row : Row V}
    (known : ∀ column, column ∈ names → ∃ value, row column = some value) :
    (names.filterMap row).length = names.length := by
  induction names with
  | nil => rfl
  | cons name names ih =>
      obtain ⟨value, found⟩ := known name List.mem_cons_self
      rw [List.filterMap_cons_some found, List.length_cons, List.length_cons,
        ih fun column member => known column (List.mem_cons_of_mem _ member)]

private theorem filterMap_same {names : List String} {source stored : Row V}
    (known : ∀ column, column ∈ names → ∃ value, source column = some value)
    (held : ∀ column, column ∈ names → ∃ value, stored column = some value) :
    names.filterMap source = names.filterMap stored ↔
      ∀ column, column ∈ names → source column = stored column := by
  induction names with
  | nil => simp
  | cons name names ih =>
      obtain ⟨new, found⟩ := known name List.mem_cons_self
      obtain ⟨old, present⟩ := held name List.mem_cons_self
      have rest := ih (fun column member => known column (List.mem_cons_of_mem _ member))
        fun column member => held column (List.mem_cons_of_mem _ member)
      rw [List.filterMap_cons_some found, List.filterMap_cons_some present, List.cons.injEq, rest,
        List.forall_mem_cons, found, present, Option.some_inj]

section Order

variable [LinearOrder V]

private theorem foldl_deciding (earlier : List String) {source stored : Row V}
    (known : ∀ column, column ∈ earlier → ∃ value, source column = some value)
    (held : ∀ column, column ∈ earlier → ∃ value, stored column = some value)
    {base : Expr} {verdict : Bool} (value : base.eval source stored = some verdict) :
    (earlier.foldl (fun acc before => Expr.and (.eq before) acc) base).eval source stored =
      some (decide (∀ column, column ∈ earlier → source column = stored column) && verdict) := by
  induction earlier generalizing base verdict with
  | nil =>
      rw [List.foldl_nil, value]
      simp
  | cons name earlier ih =>
      obtain ⟨new, found⟩ := known name List.mem_cons_self
      obtain ⟨old, present⟩ := held name List.mem_cons_self
      have step : (Expr.and (.eq name) base).eval source stored =
          some (decide (new = old) && verdict) := by
        simp only [Expr.eval, found, present, value]
        cases decide (new = old) <;> cases verdict <;> rfl
      rw [List.foldl_cons, ih (fun column member => known column (List.mem_cons_of_mem _ member))
        (fun column member => held column (List.mem_cons_of_mem _ member)) step]
      simp only [List.forall_mem_cons, found, present, Option.some_inj, Bool.decide_and]
      cases decide (new = old) <;>
        cases decide (∀ column, column ∈ earlier → source column = stored column) <;> rfl

private theorem newerLoop_eval (earlier rest : List String) {source stored : Row V}
    (known : ∀ column, column ∈ earlier ++ rest → ∃ value, source column = some value)
    (held : ∀ column, column ∈ earlier ++ rest → ∃ value, stored column = some value)
    {out : Option Expr}
    (before : (out = none ∧ earlier = []) ∨ ∃ expr, out = some expr ∧
      expr.eval source stored =
        some (decide (earlier.filterMap stored < earlier.filterMap source))) :
    (newerLoop earlier out rest = none ∧ earlier ++ rest = []) ∨
      ∃ expr, newerLoop earlier out rest = some expr ∧
        expr.eval source stored =
          some (decide ((earlier ++ rest).filterMap stored <
            (earlier ++ rest).filterMap source)) := by
  induction rest generalizing earlier out with
  | nil =>
      rw [List.append_nil]
      exact before
  | cons column rest ih =>
      rw [List.append_cons] at known held ⊢
      unfold newerLoop
      have knownBefore := fun name (member : name ∈ earlier) =>
        known name (List.mem_append_left _ (List.mem_append_left _ member))
      have heldBefore := fun name (member : name ∈ earlier) =>
        held name (List.mem_append_left _ (List.mem_append_left _ member))
      obtain ⟨new, found⟩ := known column (by simp)
      obtain ⟨old, present⟩ := held column (by simp)
      have last : (Expr.gt column).eval source stored = some (decide (old < new)) := by
        simp only [Expr.eval, found, present]
      have term := foldl_deciding earlier knownBefore heldBefore last
      have lengths : (earlier.filterMap stored).length = (earlier.filterMap source).length := by
        rw [filterMap_length knownBefore, filterMap_length heldBefore]
      have order : decide ((earlier ++ [column]).filterMap stored <
            (earlier ++ [column]).filterMap source) =
          (decide (earlier.filterMap stored < earlier.filterMap source) ||
            (decide (∀ name, name ∈ earlier → source name = stored name) &&
              decide (old < new))) := by
        rw [List.filterMap_append, List.filterMap_append, List.filterMap_cons_some found,
          List.filterMap_cons_some present, List.filterMap_nil, List.filterMap_nil,
          decide_eq_decide.mpr (RowCode.snoc_lt_snoc_iff lengths old new), Bool.decide_or,
          Bool.decide_and, decide_eq_decide.mpr (eq_comm.trans
            (filterMap_same knownBefore heldBefore))]
      apply ih (earlier ++ [column]) known held
      apply Or.inr
      rcases before with ⟨nothing, empty⟩ | ⟨prev, some_prev, value⟩
      · subst nothing empty
        refine ⟨_, rfl, ?_⟩
        rw [order]
        change (decidingTerm [] column).eval source stored = _
        unfold decidingTerm
        rw [term]
        simp
      · subst some_prev
        refine ⟨_, rfl, ?_⟩
        rw [order]
        change Expr.sqlOr (prev.eval source stored) ((decidingTerm earlier column).eval _ _) = _
        unfold decidingTerm
        rw [value, term]
        cases decide (earlier.filterMap stored < earlier.filterMap source) <;>
          cases (decide (∀ name, name ∈ earlier → source name = stored name) &&
            decide (old < new)) <;> rfl

/-- The expanded comparison with a stored row is the order of the ranks. -/
theorem newer_iff {plan : MergePlan V} {source stored : Row V}
    (known : Ranked plan.columns source) (held : Ranked plan.columns stored) :
    plan.newer source stored = true ↔ rank plan.columns stored < rank plan.columns source := by
  have start : ((none : Option Expr) = none ∧ ([] : List String) = []) ∨
      ∃ expr : Expr, none = some expr ∧ expr.eval source stored =
        some (decide (([] : List String).filterMap stored < ([] : List String).filterMap source)) :=
    Or.inl ⟨rfl, rfl⟩
  have result := newerLoop_eval [] plan.columns.order known held start
  rcases result with ⟨_none, nothing⟩ | ⟨expr, some_expr, value⟩
  · cases nothing
  · unfold MergePlan.newer newerThanStored
    simp only [some_expr, value]
    simp only [Option.some_inj, decide_eq_true_eq]
    rfl

variable [LinearOrder β]

/-- What the row encoding is: an order-keeping code for each of the columns. -/
structure Encodes (kernels : Kernels V β) (columns : Columns) : Prop where
  fields : ∀ column, column ∈ columns.order →
    ∃ code, kernels.sortField column = .ok code ∧ RowCode.Ordered code

private theorem rowConverter_semantics {kernels : Kernels V β} {names : List String}
    (fields : ∀ column, column ∈ names →
      ∃ code, kernels.sortField column = .ok code ∧ RowCode.Ordered code) :
    ∃ codes, rowConverter kernels names = .ok codes ∧ codes.length = names.length ∧
      ∀ code, code ∈ codes → RowCode.Ordered code := by
  induction names with
  | nil =>
      refine ⟨[], rfl, rfl, ?_⟩
      intro code member
      cases member
  | cons name names ih =>
      obtain ⟨code, found, ordered⟩ := fields name List.mem_cons_self
      obtain ⟨codes, rest, many, all⟩ := ih fun column member =>
        fields column (List.mem_cons_of_mem _ member)
      refine ⟨code :: codes, ?_, ?_, ?_⟩
      · simp only [rowConverter, found, rest]
      · rw [List.length_cons, List.length_cons, many]
      · intro other member
        rcases List.mem_cons.mp member with rfl | later
        · exact ordered
        · exact all other later

theorem convertRow_lt_iff {codes : List (V → List β)} {columns : Columns}
    (many : codes.length = columns.order.length)
    (ordered : ∀ code, code ∈ codes → RowCode.Ordered code) {one other : Row V}
    (known : Ranked columns one) (held : Ranked columns other) :
    convertRow codes columns one < convertRow codes columns other ↔
      rank columns one < rank columns other := by
  unfold convertRow
  apply RowCode.encode_lt_iff ordered
  · rw [many]
    exact filterMap_length known
  · rw [many]
    exact filterMap_length held

end Order

/-! ### What the collapse keeps -/

section Collapse

variable [LinearOrder β]

/-- The row wins its text: none before it is past it, and each after it lies before it. -/
def Wins (text : Row V → String) (code : Row V → List β) (rows : List (Row V)) (number : Nat)
    (row : Row V) : Prop :=
  ∃ before after, rows = before ++ row :: after ∧ before.length = number ∧
    (∀ other, other ∈ before → text other = text row → ¬ code row < code other) ∧
    ∀ other, other ∈ after → text other = text row → code other < code row

variable {text : Row V → String} {code : Row V → List β}

private theorem snoc_split {rows before after : List (Row V)} {next row : Row V}
    (same : rows ++ [next] = before ++ row :: after) :
    (∃ fewer, after = fewer ++ [next] ∧ rows = before ++ row :: fewer) ∨
      (after = [] ∧ row = next ∧ rows = before) := by
  rcases List.eq_nil_or_concat after with rfl | ⟨fewer, last, rfl⟩
  · apply Or.inr
    obtain ⟨front, back⟩ := List.append_inj' same rfl
    cases back
    exact ⟨rfl, rfl, front⟩
  · apply Or.inl
    rw [List.concat_eq_append, ← List.cons_append, ← List.append_assoc] at same
    obtain ⟨front, back⟩ := List.append_inj' same rfl
    cases back
    exact ⟨fewer, List.concat_eq_append, front⟩

theorem wins_snoc {rows : List (Row V)} {next row : Row V} {number : Nat} :
    Wins text code (rows ++ [next]) number row ↔
      (Wins text code rows number row ∧ (text next = text row → code next < code row)) ∨
      (number = rows.length ∧ row = next ∧
        ∀ other, other ∈ rows → text other = text row → ¬ code row < code other) := by
  constructor
  · rintro ⟨before, after, same, place, earlier, later⟩
    rcases snoc_split same with ⟨fewer, rfl, whole⟩ | ⟨rfl, rfl, rfl⟩
    · apply Or.inl
      constructor
      · exact ⟨before, fewer, whole, place, earlier, fun other member =>
          later other (List.mem_append_left _ member)⟩
      · exact later next (List.mem_append_right _ (List.mem_singleton_self _))
    · exact Or.inr ⟨place.symm, rfl, earlier⟩
  · rintro (⟨⟨before, after, rfl, place, earlier, later⟩, last⟩ | ⟨place, rfl, earlier⟩)
    · refine ⟨before, after ++ [next], ?_, place, earlier, ?_⟩
      · rw [List.append_assoc, List.cons_append]
      · intro other member
        rcases List.mem_append.mp member with among | end_
        · exact later other among
        · rw [List.mem_singleton.mp end_]
          exact last
    · refine ⟨rows, [], rfl, place.symm, earlier, ?_⟩
      intro other member
      cases member

/-- What the map of newest rows holds after some rows. -/
structure Newest (text : Row V → String) (code : Row V → List β) (seen : List (Row V))
    (newest : List (String × Nat × Row V)) : Prop where
  apart : Assoc.Distinct newest
  holds : ∀ name number row, newest.lookup name = some (number, row) ↔
    text row = name ∧ Wins text code seen number row
  known : ∀ row, row ∈ seen → ∃ entry, newest.lookup (text row) = some entry

private theorem Wins.le {seen : List (Row V)} {number : Nat} {best other : Row V}
    (wins : Wins text code seen number best) (member : other ∈ seen)
    (same : text other = text best) : ¬ code best < code other := by
  obtain ⟨before, after, rfl, _place, earlier, later⟩ := wins
  rcases List.mem_append.mp member with among | rest
  · exact earlier other among same
  · rcases List.mem_cons.mp rest with here | beyond
    · rw [here]
      exact lt_irrefl _
    · exact lt_asymm (later other beyond same)

theorem Wins.mem {seen : List (Row V)} {number : Nat} {row : Row V}
    (wins : Wins text code seen number row) : row ∈ seen := by
  obtain ⟨before, after, rfl, _rest⟩ := wins
  exact List.mem_append_right _ List.mem_cons_self

private theorem Newest.keep {seen : List (Row V)} {newest : List (String × Nat × Row V)}
    {row : Row V} {best : Nat × Row V} (held : Newest text code seen newest)
    (found : newest.lookup (text row) = some best) (behind : code row < code best.2) :
    Newest text code (seen ++ [row]) newest where
  apart := held.apart
  holds := by
    intro name number other
    obtain ⟨sameText, wins⟩ := (held.holds _ best.1 best.2).mp found
    rw [held.holds, wins_snoc]
    constructor
    · rintro ⟨own, stands⟩
      refine ⟨own, Or.inl ⟨stands, ?_⟩⟩
      intro same
      have entry := (held.holds (text row) number other).mpr ⟨same.symm, stands⟩
      rw [found] at entry
      cases entry
      exact behind
    · rintro ⟨own, ⟨stands, _above⟩ | ⟨_place, rfl, none_past⟩⟩
      · exact ⟨own, stands⟩
      · exact absurd behind (none_past best.2 wins.mem sameText)
  known := by
    intro other member
    rcases List.mem_append.mp member with among | last
    · exact held.known other among
    · rw [List.mem_singleton.mp last]
      exact ⟨best, found⟩

private theorem Newest.put {seen : List (Row V)} {newest : List (String × Nat × Row V)}
    {row : Row V} (held : Newest text code seen newest)
    (past : ∀ other, other ∈ seen → text other = text row → ¬ code row < code other) :
    Newest text code (seen ++ [row]) (Assoc.put (text row) (seen.length, row) newest) where
  apart := held.apart.put _ _
  holds := by
    intro name number other
    rw [Assoc.lookup_put, wins_snoc]
    by_cases own : name = text row
    · rw [if_pos own]
      constructor
      · intro same
        cases same
        exact ⟨own.symm, Or.inr ⟨rfl, rfl, past⟩⟩
      · rintro ⟨sameText, ⟨stands, above⟩ | ⟨rfl, rfl, _⟩⟩
        · rw [own] at sameText
          exact absurd (above sameText.symm) (past other stands.mem sameText)
        · rfl
    · rw [if_neg own, held.holds]
      constructor
      · rintro ⟨sameText, stands⟩
        refine ⟨sameText, Or.inl ⟨stands, ?_⟩⟩
        intro same
        exact absurd (sameText.symm.trans same.symm) own
      · rintro ⟨sameText, ⟨stands, _above⟩ | ⟨_place, rfl, _past⟩⟩
        · exact ⟨sameText, stands⟩
        · exact absurd sameText.symm own
  known := by
    intro other member
    rw [Assoc.lookup_put]
    by_cases same : text other = text row
    · rw [if_pos same]
      exact ⟨_, rfl⟩
    · rw [if_neg same]
      rcases List.mem_append.mp member with among | last
      · exact held.known other among
      · rw [List.mem_singleton.mp last] at same
        exact absurd rfl same

theorem newestLoop_newest (rest : List (Row V)) {seen : List (Row V)}
    {newest : List (String × Nat × Row V)} (held : Newest text code seen newest) :
    Newest text code (seen ++ rest) (newestLoop code text seen.length newest rest) := by
  induction rest generalizing seen newest with
  | nil =>
      rw [List.append_nil]
      exact held
  | cons row rest ih =>
      have put : (∀ other, other ∈ seen → text other = text row → ¬ code row < code other) →
          Newest text code (seen ++ [row] ++ rest) (newestLoop code text (seen.length + 1)
            (Assoc.put (text row) (seen.length, row) newest) rest) := by
        intro past
        have next := ih (held.put past)
        rw [List.length_append, List.length_singleton] at next
        exact next
      rw [List.append_cons]
      unfold newestLoop
      cases found : newest.lookup (text row) with
      | none =>
          apply put
          intro other member same
          obtain ⟨entry, present⟩ := held.known other member
          rw [same, found] at present
          cases present
      | some best =>
          obtain ⟨sameText, wins⟩ := (held.holds _ best.1 best.2).mp found
          by_cases behind : code row < code best.2
          · simp only [if_pos behind]
            have next := ih (held.keep found behind)
            rw [List.length_append, List.length_singleton] at next
            exact next
          · simp only [if_neg behind]
            apply put
            intro other member same past
            apply wins.le member (same.trans sameText.symm)
            exact lt_of_le_of_lt (le_of_not_gt behind) past

private theorem Newest.entries {seen : List (Row V)} {newest : List (String × Nat × Row V)}
    (held : Newest text code seen newest) {name : String} {number : Nat} {row : Row V} :
    (name, number, row) ∈ newest ↔ text row = name ∧ Wins text code seen number row := by
  rw [← held.holds]
  constructor
  · exact held.apart.lookup_of_mem
  · exact Assoc.mem_of_lookup

private theorem Wins.at {seen : List (Row V)} {number : Nat} {row : Row V}
    (wins : Wins text code seen number row) : seen[number]? = some row := by
  obtain ⟨before, after, rfl, rfl, _rest⟩ := wins
  simp

private theorem Newest.numbers_nodup {seen : List (Row V)}
    {newest : List (String × Nat × Row V)} (held : Newest text code seen newest) :
    (newest.map fun entry => entry.2.1).Nodup := by
  apply List.pairwise_map.mpr
  apply held.apart.imp_of_mem
  rintro ⟨name, number, row⟩ ⟨other, place, next⟩ member present away same
  change number = place at same
  obtain ⟨own, wins⟩ := held.entries.mp member
  obtain ⟨its, stands⟩ := held.entries.mp present
  have rows : some row = some next := by
    rw [← wins.at, ← stands.at, same]
  apply away
  change name = other
  rw [← own, ← its, Option.some_inj.mp rows]

private theorem range_rows (rows : List (Row V)) :
    (List.range rows.length).map (fun number => rows[number]?) = rows.map some := by
  apply List.ext_getElem?
  intro number
  rw [List.getElem?_map, List.getElem?_map]
  by_cases within : number < rows.length
  · rw [List.getElem?_range within, List.getElem?_eq_getElem within]
    simp [List.getElem?_eq_getElem within]
  · rw [List.getElem?_eq_none (by rw [List.length_range]; omega),
      List.getElem?_eq_none (by omega)]
    rfl

private theorem Newest.perm_of_length {seen : List (Row V)}
    {newest : List (String × Nat × Row V)} (held : Newest text code seen newest)
    (all : newest.length = seen.length) :
    List.Perm seen (newest.map fun entry => entry.2.2) := by
  have within : (newest.map fun entry => entry.2.1) ⊆ List.range seen.length := by
    intro number member
    obtain ⟨⟨name, place, row⟩, present, rfl⟩ := List.mem_map.mp member
    have stands := (held.entries.mp present).2.at
    apply List.mem_range.mpr
    obtain ⟨below, _same⟩ := List.getElem?_eq_some_iff.mp stands
    exact below
  have numbers : List.Perm (newest.map fun entry => entry.2.1) (List.range seen.length) := by
    apply (held.numbers_nodup.subperm within).perm_of_length_le
    rw [List.length_range, List.length_map, all]
  have rows := (numbers.map fun number => seen[number]?).symm
  rw [range_rows, List.map_map] at rows
  have same : newest.map ((fun number => seen[number]?) ∘ fun entry => entry.2.1) =
      (newest.map fun entry => entry.2.2).map some := by
    rw [List.map_map]
    apply List.map_congr_left
    rintro ⟨name, number, row⟩ member
    exact (held.entries.mp member).2.at
  rw [same] at rows
  exact (List.map_perm_map_iff (fun _ _ same => Option.some_inj.mp same)).mp rows

private theorem insertByNumber_perm (entry : Nat × Row V) (entries : List (Nat × Row V)) :
    List.Perm (insertByNumber entry entries) (entry :: entries) := by
  induction entries with
  | nil => exact List.Perm.refl _
  | cons head entries ih =>
      unfold insertByNumber
      by_cases before : entry.1 < head.1
      · rw [if_pos before]
      · rw [if_neg before]
        exact (ih.cons head).trans (List.Perm.swap entry head entries)

private theorem sortByNumber_perm (entries : List (Nat × Row V)) :
    List.Perm (sortByNumber entries) entries := by
  induction entries with
  | nil => exact List.Perm.refl _
  | cons head entries ih => exact (insertByNumber_perm head _).trans (ih.cons head)

end Collapse

private theorem nullCount_eq_zero {rows : List (Row V)} {column : String}
    (known : ∀ row, row ∈ rows → ∃ value, row column = some value) :
    nullCount rows column = 0 := by
  apply List.countP_eq_zero.mpr
  intro row member
  obtain ⟨value, found⟩ := known row member
  rw [found]
  simp

private theorem checkTiebreak_ok {rows : List (Row V)} {sequence : String} {names : List String}
    (known : ∀ row, row ∈ rows → ∀ column, column ∈ names → ∃ value, row column = some value) :
    checkTiebreak rows sequence names = .ok () := by
  induction names with
  | nil => rfl
  | cons name names ih =>
      unfold checkTiebreak
      rw [nullCount_eq_zero fun row member => known row member name List.mem_cons_self,
        if_neg (Nat.lt_irrefl 0)]
      apply ih
      intro row member column among
      exact known row member column (List.mem_cons_of_mem _ among)

section Kept

variable [LinearOrder V] [LinearOrder β]

private theorem wins_congr {text : Row V → String} {code : Row V → List β} {columns : Columns}
    {rows : List (Row V)}
    (same : ∀ one, one ∈ rows → ∀ other, other ∈ rows →
      (code one < code other ↔ rank columns one < rank columns other))
    {number : Nat} {row : Row V} :
    Wins text code rows number row ↔ Wins text (rank columns) rows number row := by
  constructor
  · rintro ⟨before, after, rfl, place, earlier, later⟩
    refine ⟨before, after, rfl, place, ?_, ?_⟩
    · intro other member sameText
      rw [← same row (by simp) other (List.mem_append_left _ member)]
      exact earlier other member sameText
    · intro other member sameText
      rw [← same other (List.mem_append_right _ (List.mem_cons_of_mem _ member)) row (by simp)]
      exact later other member sameText
  · rintro ⟨before, after, rfl, place, earlier, later⟩
    refine ⟨before, after, rfl, place, ?_, ?_⟩
    · intro other member sameText
      rw [same row (by simp) other (List.mem_append_left _ member)]
      exact earlier other member sameText
    · intro other member sameText
      rw [same other (List.mem_append_right _ (List.mem_cons_of_mem _ member)) row (by simp)]
      exact later other member sameText

/-- The kernels can cast the key column and order the others. -/
structure Comparable (kernels : Kernels V β) (columns : Columns) (utf8 : V → Option String) :
    Prop where
  castable : kernels.castToUtf8 = .ok utf8
  encodes : Encodes kernels columns

/-- A collapse keeps one row for each text: the one that wins it. -/
theorem collapse_semantics {kernels : Kernels V β} {columns : Columns} {utf8 : V → Option String}
    (comparable : Comparable kernels columns utf8) {batches : List (List (Row V))}
    (some_batch : batches ≠ []) (keyed : ∀ row, row ∈ batches.flatten → ∃ value,
      row columns.key = some value)
    (ranked : ∀ row, row ∈ batches.flatten → Ranked columns row) :
    ∃ kept, collapse kernels columns batches = .ok kept ∧
      (kept.Pairwise fun one other =>
        keyText utf8 columns one ≠ keyText utf8 columns other) ∧
      ∀ row, row ∈ kept ↔
        ∃ number, Wins (keyText utf8 columns) (rank columns) batches.flatten number row := by
  obtain ⟨codes, converter, many, ordered⟩ := rowConverter_semantics comparable.encodes.fields
  have sequence : columns.sequence ∈ columns.order := List.mem_cons_self
  have noKey := nullCount_eq_zero keyed
  have noSequence := nullCount_eq_zero fun row member => ranked row member _ sequence
  have noTiebreak : checkTiebreak batches.flatten columns.sequence columns.tiebreak = .ok () :=
    checkTiebreak_ok fun row member column among =>
      ranked row member column (List.mem_cons_of_mem _ among)
  generalize rows : batches.flatten = all at *
  have start : Newest (keyText utf8 columns) (convertRow codes columns) [] [] := by
    constructor
    · exact List.Pairwise.nil
    · intro name number row
      constructor
      · intro found
        cases found
      · rintro ⟨_sameText, wins⟩
        cases wins.mem
    · intro row member
      cases member
  have held := newestLoop_newest all start
  rw [List.nil_append, List.length_nil] at held
  generalize built : newestLoop (convertRow codes columns) (keyText utf8 columns) 0 [] all =
    newest at held
  have perm : ∃ kept, collapse kernels columns batches = .ok kept ∧
      List.Perm kept (newest.map fun entry => entry.2.2) := by
    unfold collapse
    have present : batches.isEmpty = false := by
      rw [List.isEmpty_eq_false_iff]
      exact some_batch
    simp only [present, Bool.false_eq_true, if_false, rows, noKey, noSequence, Nat.lt_irrefl,
      comparable.castable, noTiebreak, converter, built]
    by_cases empty : all.isEmpty
    · rw [if_pos empty]
      refine ⟨all, rfl, held.perm_of_length ?_⟩
      rw [List.isEmpty_iff.mp empty] at built
      rw [List.isEmpty_iff.mp empty, ← built]
      rfl
    · rw [if_neg empty]
      by_cases distinct : newest.length = all.length
      · rw [if_pos distinct]
        exact ⟨all, rfl, held.perm_of_length distinct⟩
      · rw [if_neg distinct]
        refine ⟨_, rfl, ?_⟩
        have sorted := (sortByNumber_perm (newest.map Prod.snd)).map Prod.snd
        rw [List.map_map] at sorted
        exact sorted
  obtain ⟨kept, result, perm⟩ := perm
  refine ⟨kept, result, ?_, ?_⟩
  · apply (perm.pairwise_iff fun away same => away same.symm).mpr
    apply List.pairwise_map.mpr
    apply held.apart.imp_of_mem
    rintro ⟨name, number, row⟩ ⟨other, place, next⟩ member present away
    rw [(held.entries.mp member).1, (held.entries.mp present).1]
    exact away
  · intro row
    have codes_rank : ∀ one, one ∈ all → ∀ other, other ∈ all →
        (convertRow codes columns one < convertRow codes columns other ↔
          rank columns one < rank columns other) := fun one member other present =>
      convertRow_lt_iff many ordered (ranked one member) (ranked other present)
    rw [perm.mem_iff, List.mem_map]
    constructor
    · rintro ⟨⟨name, number, own⟩, member, rfl⟩
      exact ⟨number, (wins_congr codes_rank).mp (held.entries.mp member).2⟩
    · rintro ⟨number, wins⟩
      exact ⟨(_, number, row), held.entries.mpr ⟨rfl, (wins_congr codes_rank).mpr wins⟩, rfl⟩

end Kept

end Ddi.Upsert
