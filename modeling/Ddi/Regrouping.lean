/-
Upserts over whole runs: rows are delivered in order, in batches of any size,
and any batch may come again from any earlier place, as after a commit that was
lost.

A merge into a table that holds one row per key leaves the later of the two rows
for each key. So every run leaves the latest of the rows that survived the
collapse of a batch they came in, whatever the batches were.
-/

import Ddi.UpsertSemantics

namespace Ddi.Upsert

open Latest (IsLatest Apart Single Settled Merged)

variable {V β : Type}

/-- The row's key, as the merge compares it. -/
def keyOf (columns : Columns) (row : Row V) : Option V := row columns.key

/-- A row as the transform and the coercer leave it: its key and everything it is ordered by
are there, and the columns the transform does not produce are null. -/
structure Deliverable (columns : Columns) (produced : List String) (row : Row V) : Prop where
  keyed : ∃ value, keyOf columns row = some value
  ranked : Ranked columns row
  within : ∀ column, column ∉ produced → row column = none

private theorem overwrite_eq {plan : MergePlan V} {source stored : Row V}
    (new : Deliverable plan.columns plan.updateColumns source)
    (old : Deliverable plan.columns plan.updateColumns stored) :
    plan.overwrite source stored = source := by
  funext column
  unfold MergePlan.overwrite
  by_cases produced : column ∈ plan.updateColumns
  · rw [if_pos produced]
  · rw [if_neg produced, new.within column produced, old.within column produced]

variable [LinearOrder V]

/-- The window opens low enough for every stored row with a key of the batch. -/
def Unclamped (setup : Setup V β) : Prop :=
  ∀ table batch stored source reached lower, stored ∈ table → source ∈ batch →
    keyOf setup.columns stored = keyOf setup.columns source →
    stored setup.columns.sequence = some reached → setup.window table batch = some lower →
    lower ≤ reached

section Merge

variable {plan : MergePlan V} {batch table : List (Row V)}

private theorem predicate_iff {source stored : Row V}
    (new : Deliverable plan.columns plan.updateColumns source)
    (old : Deliverable plan.columns plan.updateColumns stored)
    (open_ : ∀ reached lower, keyOf plan.columns stored = keyOf plan.columns source →
      stored plan.columns.sequence = some reached → plan.lower = some lower → lower ≤ reached) :
    plan.predicate source stored = true ↔
      keyOf plan.columns source = keyOf plan.columns stored := by
  obtain ⟨key, own⟩ := new.keyed
  obtain ⟨other, held⟩ := old.keyed
  obtain ⟨reached, sequence⟩ := old.ranked plan.columns.sequence List.mem_cons_self
  unfold keyOf at own held open_ ⊢
  unfold MergePlan.predicate
  rw [own, held] at open_ ⊢
  rw [Option.some_inj]
  simp only
  by_cases same : key = other
  · subst same
    rw [if_pos rfl, sequence]
    cases window : plan.lower with
    | none => simp
    | some lower =>
        simp only [decide_eq_true_eq]
        exact iff_of_true (open_ reached lower rfl sequence window) trivial
  · rw [if_neg same]
    simp [same]

/-- What the merge leaves in place of a stored row. -/
structure Replaced (columns : Columns) (batch : List (Row V)) (stored row : Row V) : Prop where
  key : keyOf columns row = keyOf columns stored
  from_ : (row = stored ∧ ∀ source, source ∈ batch →
      keyOf columns source = keyOf columns stored → rank columns source ≤ rank columns stored) ∨
    (row ∈ batch ∧ rank columns stored < rank columns row)

/-- Every row is deliverable and the window hides none of them. -/
structure Mergeable (plan : MergePlan V) (batch table : List (Row V)) : Prop where
  fresh : ∀ source, source ∈ batch → Deliverable plan.columns plan.updateColumns source
  held : ∀ stored, stored ∈ table → Deliverable plan.columns plan.updateColumns stored
  single : Single (keyOf plan.columns) batch
  unclamped : ∀ stored, stored ∈ table → ∀ source, source ∈ batch → ∀ reached lower,
    keyOf plan.columns stored = keyOf plan.columns source →
    stored plan.columns.sequence = some reached → plan.lower = some lower → lower ≤ reached

private theorem Mergeable.claims (mergeable : Mergeable plan batch table) {stored : Row V}
    (member : stored ∈ table) {source : Row V} (present : source ∈ batch) :
    (plan.predicate source stored && plan.newer source stored) = true ↔
      keyOf plan.columns source = keyOf plan.columns stored ∧
        rank plan.columns stored < rank plan.columns source := by
  have new := mergeable.fresh source present
  have old := mergeable.held stored member
  rw [Bool.and_eq_true, newer_iff new.ranked old.ranked, predicate_iff new old
    (mergeable.unclamped stored member source present)]

private theorem Mergeable.updateRow (mergeable : Mergeable plan batch table) {stored : Row V}
    (member : stored ∈ table) :
    ∃ row, plan.updateRow batch stored = some row ∧ Replaced plan.columns batch stored row := by
  unfold MergePlan.updateRow
  cases claims : batch.filter fun source =>
      plan.predicate source stored && plan.newer source stored with
  | nil =>
      refine ⟨stored, rfl, rfl, Or.inl ⟨rfl, ?_⟩⟩
      intro source present same
      apply le_of_not_gt
      intro newer
      have claimed := (mergeable.claims member present).mpr ⟨same, newer⟩
      have among : source ∈ batch.filter fun source =>
          plan.predicate source stored && plan.newer source stored :=
        List.mem_filter.mpr ⟨present, claimed⟩
      rw [claims] at among
      cases among
  | cons source more =>
      have first : source ∈ source :: more := List.mem_cons_self
      rw [← claims] at first
      obtain ⟨present, claimed⟩ := List.mem_filter.mp first
      obtain ⟨same, newer⟩ := (mergeable.claims member present).mp claimed
      cases more with
      | nil =>
          refine ⟨source, ?_, same, Or.inr ⟨present, newer⟩⟩
          change some (plan.overwrite source stored) = some source
          rw [overwrite_eq (mergeable.fresh source present) (mergeable.held stored member)]
      | cons other more =>
          have second : other ∈ source :: other :: more := by simp
          rw [← claims] at second
          obtain ⟨among, too⟩ := List.mem_filter.mp second
          have distinct := mergeable.single.sublist
            (List.filter_sublist : (batch.filter fun source =>
              plan.predicate source stored && plan.newer source stored).Sublist batch)
          rw [claims] at distinct
          have away := (List.pairwise_cons.mp distinct).1 other List.mem_cons_self
          exact absurd (same.trans ((mergeable.claims member among).mp too).1.symm) away

private theorem Mergeable.updateRows (mergeable : Mergeable plan batch table) :
    ∃ kept, plan.updateRows batch table = some kept ∧
      List.Forall₂ (Replaced plan.columns batch) table kept := by
  obtain ⟨fresh, held, single, unclamped⟩ := mergeable
  induction table with
  | nil => exact ⟨[], rfl, List.Forall₂.nil⟩
  | cons stored table ih =>
      have whole : Mergeable plan batch (stored :: table) := ⟨fresh, held, single, unclamped⟩
      obtain ⟨row, found, replaced⟩ := whole.updateRow List.mem_cons_self
      obtain ⟨kept, rest, all⟩ := ih
        (fun other member => held other (List.mem_cons_of_mem _ member))
        fun other member => unclamped other (List.mem_cons_of_mem _ member)
      refine ⟨row :: kept, ?_, List.Forall₂.cons replaced all⟩
      simp only [MergePlan.updateRows, found, rest]

omit [LinearOrder V] in
private theorem replaced_keys {columns : Columns} {relation : Row V → Row V → Prop}
    (keeps : ∀ stored row, relation stored row → keyOf columns row = keyOf columns stored)
    {stored kept : List (Row V)} (all : List.Forall₂ relation stored kept) :
    kept.map (keyOf columns) = stored.map (keyOf columns) := by
  induction all with
  | nil => rfl
  | cons replaced _rest ih => rw [List.map_cons, List.map_cons, ih, keeps _ _ replaced]

omit [LinearOrder V] in
private theorem forall₂_right {relation : Row V → Row V → Prop} {stored kept : List (Row V)}
    (all : List.Forall₂ relation stored kept) {row : Row V} (member : row ∈ kept) :
    ∃ before, before ∈ stored ∧ relation before row := by
  induction all with
  | nil => cases member
  | cons replaced _rest ih =>
      rcases List.mem_cons.mp member with rfl | later
      · exact ⟨_, List.mem_cons_self, replaced⟩
      · obtain ⟨before, present, related⟩ := ih later
        exact ⟨before, List.mem_cons_of_mem _ present, related⟩

omit [LinearOrder V] in
private theorem forall₂_left {relation : Row V → Row V → Prop} {stored kept : List (Row V)}
    (all : List.Forall₂ relation stored kept) {before : Row V} (member : before ∈ stored) :
    ∃ row, row ∈ kept ∧ relation before row := by
  induction all with
  | nil => cases member
  | cons replaced _rest ih =>
      rcases List.mem_cons.mp member with rfl | later
      · exact ⟨_, List.mem_cons_self, replaced⟩
      · obtain ⟨row, present, related⟩ := ih later
        exact ⟨row, List.mem_cons_of_mem _ present, related⟩

private theorem Mergeable.mem_inserted (mergeable : Mergeable plan batch table) {row : Row V} :
    row ∈ plan.inserted batch table ↔ row ∈ batch ∧ ∀ stored, stored ∈ table →
      keyOf plan.columns stored ≠ keyOf plan.columns row := by
  unfold MergePlan.inserted
  rw [List.mem_filter, Bool.not_eq_true', List.any_eq_false]
  constructor
  · rintro ⟨present, unmatched⟩
    refine ⟨present, ?_⟩
    intro stored member same
    apply unmatched stored member
    exact (predicate_iff (mergeable.fresh row present) (mergeable.held stored member)
      (mergeable.unclamped stored member row present)).mpr same.symm
  · rintro ⟨present, away⟩
    refine ⟨present, ?_⟩
    intro stored member matched
    apply away stored member
    exact ((predicate_iff (mergeable.fresh row present) (mergeable.held stored member)
      (mergeable.unclamped stored member row present)).mp matched).symm

private theorem Mergeable.merged (mergeable : Mergeable plan batch table)
    (single : Single (keyOf plan.columns) table) {kept : List (Row V)}
    (all : List.Forall₂ (Replaced plan.columns batch) table kept) :
    Merged (keyOf plan.columns) (rank plan.columns) table batch
      (kept ++ plan.inserted batch table) where
  single := by
    apply List.pairwise_append.mpr
    have keys := replaced_keys (fun stored row replaced => Replaced.key replaced) all
    refine ⟨?_, mergeable.single.sublist List.filter_sublist, ?_⟩
    · apply List.pairwise_map.mp
      rw [keys]
      exact List.pairwise_map.mpr single
    · intro row member fresh inserted same
      obtain ⟨stored, present, replaced⟩ := forall₂_right all member
      exact (mergeable.mem_inserted.mp inserted).2 stored present (replaced.key.symm.trans same)
  mem := by
    intro row
    constructor
    · intro member
      rcases List.mem_append.mp member with among | fresh
      · obtain ⟨stored, present, replaced⟩ := forall₂_right all among
        rcases replaced.from_ with ⟨rfl, bounds⟩ | ⟨came, newer⟩
        · exact Or.inl ⟨present, bounds⟩
        · refine Or.inr ⟨came, ?_⟩
          intro other among same
          rw [single.eq_of_key among present (same.trans replaced.key)]
          exact newer
      · obtain ⟨came, away⟩ := mergeable.mem_inserted.mp fresh
        exact Or.inr ⟨came, fun other among same => absurd same (away other among)⟩
    · rintro (⟨present, bounds⟩ | ⟨came, above⟩)
      · obtain ⟨other, among, replaced⟩ := forall₂_left all present
        rcases replaced.from_ with ⟨rfl, _bounds⟩ | ⟨came, newer⟩
        · exact List.mem_append_left _ among
        · exact absurd newer (not_lt_of_ge (bounds other came replaced.key))
      · by_cases held : ∃ stored, stored ∈ table ∧ keyOf plan.columns stored = keyOf plan.columns row
        · obtain ⟨stored, present, same⟩ := held
          obtain ⟨other, among, replaced⟩ := forall₂_left all present
          rcases replaced.from_ with ⟨_same, bounds⟩ | ⟨arrived, _newer⟩
          · exact absurd (above stored present same) (not_lt_of_ge (bounds row came same.symm))
          · rw [mergeable.single.eq_of_key came arrived (same.symm.trans replaced.key.symm)]
            exact List.mem_append_left _ among
        · apply List.mem_append_right
          apply mergeable.mem_inserted.mpr
          exact ⟨came, fun stored present same => held ⟨stored, present, same⟩⟩

private theorem updateRows_unchanged (nothing : plan.updated batch table = 0) :
    plan.updateRows batch table = some table := by
  induction table with
  | nil => rfl
  | cons stored table ih =>
      have none_claims := List.countP_eq_zero.mp nothing
      have rest : plan.updated batch table = 0 := List.countP_eq_zero.mpr fun other member =>
        none_claims other (List.mem_cons_of_mem _ member)
      have own := none_claims stored List.mem_cons_self
      rw [List.any_eq_true] at own
      have claims : batch.filter (fun source =>
          plan.predicate source stored && plan.newer source stored) = [] := by
        apply List.filter_eq_nil_iff.mpr
        intro source present claimed
        exact own ⟨source, present, claimed⟩
      simp only [MergePlan.updateRows, MergePlan.updateRow, claims, ih rest]

theorem sinkUpsert_semantics {target : Target V} (mergeable : Mergeable plan batch target.rows)
    (single : Single (keyOf plan.columns) target.rows) (sourceVersion : Nat) :
    ∃ after stats, sinkUpsert target batch sourceVersion plan = .ok (after, stats) ∧
      Merged (keyOf plan.columns) (rank plan.columns) target.rows batch after.rows ∧
      after.txn = some sourceVersion := by
  obtain ⟨kept, updates, all⟩ := mergeable.updateRows
  have merged := mergeable.merged single all
  unfold sinkUpsert
  simp only [updates]
  by_cases wrote : 0 < plan.updated batch target.rows + (plan.inserted batch target.rows).length
  · rw [if_pos wrote]
    exact ⟨_, _, rfl, merged, rfl⟩
  · rw [if_neg wrote]
    have still : plan.updated batch target.rows = 0 := by omega
    have unchanged := updateRows_unchanged still
    rw [updates, Option.some_inj] at unchanged
    have none_fresh : plan.inserted batch target.rows = [] :=
      List.length_eq_zero_iff.mp (by omega)
    rw [unchanged, none_fresh, List.append_nil] at merged
    exact ⟨_, _, rfl, merged, rfl⟩

end Merge

/-! ### Runs -/

/-- One batch of deliveries, with the offset its commit records. -/
structure Delivery (V : Type) where
  batches : List (List (Row V))
  txnVersion : Nat

def Delivery.rows (delivery : Delivery V) : List (Row V) := delivery.batches.flatten

section Runs

variable [LinearOrder β]

def upsertAll (setup : Setup V β) (target : Target V) :
    List (Delivery V) → Except Error (Target V)
  | [] => .ok target
  | delivery :: rest =>
      match upsert setup target delivery.batches delivery.txnVersion with
      | .error error => .error error
      | .ok (after, _stats) => upsertAll setup after rest

/-- The deliveries hand out `rows` in order as far as `reached`: each begins at or before what
has been reached, so any of them may come again, in the same or in another grouping. -/
inductive Delivered (rows : List (Row V)) : Nat → List (Delivery V) → Prop
  | start : Delivered rows 0 []
  | next {reached first last : Nat} {earlier : List (Delivery V)} {delivery : Delivery V} :
      Delivered rows reached earlier → first ≤ reached → first ≤ last → last ≤ rows.length →
      delivery.batches ≠ [] → delivery.rows = (rows.take last).drop first →
      Delivered rows (max reached last) (earlier ++ [delivery])

omit [LinearOrder V] in
theorem Delivered.stretch {rows : List (Row V)} {reached : Nat} {deliveries : List (Delivery V)}
    (delivered : Delivered rows reached deliveries) {delivery : Delivery V}
    (member : delivery ∈ deliveries) :
    delivery.batches ≠ [] ∧ delivery.rows.Sublist rows := by
  induction delivered with
  | start => cases member
  | next _before _from _through _within some_batch cut ih =>
      rcases List.mem_append.mp member with among | last
      · exact ih among
      · rw [List.mem_singleton.mp last]
        constructor
        · exact some_batch
        · rw [cut]
          exact (List.drop_sublist _ _).trans (List.take_sublist _ _)

omit [LinearOrder V] in
theorem Delivered.reaches {rows : List (Row V)} {reached : Nat} {deliveries : List (Delivery V)}
    (delivered : Delivered rows reached deliveries) {row : Row V}
    (member : row ∈ rows.take reached) : ∃ delivery, delivery ∈ deliveries ∧ row ∈ delivery.rows := by
  induction delivered with
  | start => cases member
  | @next reached first last earlier delivery _before low _through _within _some cut ih =>
      obtain ⟨place, below, found⟩ := List.mem_iff_getElem.mp member
      rw [List.length_take] at below
      rw [List.getElem_take] at found
      by_cases old : place < reached
      · have held : row ∈ rows.take reached := by
          rw [← found]
          apply List.mem_iff_getElem.mpr
          exact ⟨place, by rw [List.length_take]; omega, List.getElem_take⟩
        obtain ⟨delivery, present, inside⟩ := ih held
        exact ⟨delivery, List.mem_append_left _ present, inside⟩
      · refine ⟨delivery, List.mem_append_right _ (List.mem_singleton_self _), ?_⟩
        rw [cut, ← found]
        apply List.mem_iff_getElem.mpr
        refine ⟨place - first, ?_, ?_⟩
        · rw [List.length_drop, List.length_take]
          omega
        · rw [List.getElem_drop, List.getElem_take]
          congr 1
          omega

/-- The row survives the collapse of a batch with these rows. -/
def Survives (utf8 : V → Option String) (columns : Columns) (rows : List (Row V)) (row : Row V) :
    Prop :=
  ∃ number, Wins (keyText utf8 columns) (rank columns) rows number row

/-- Of the rows whose key is another's but whose key text is this one's, none before it in the
batch is past it, and each after it lies before it. -/
def Unhidden (utf8 : V → Option String) (columns : Columns) (rows : List (Row V)) (row : Row V) :
    Prop :=
  ∃ before after, rows = before ++ row :: after ∧
    (∀ other, other ∈ before → keyOf columns other ≠ keyOf columns row →
      keyText utf8 columns other = keyText utf8 columns row →
      ¬ rank columns row < rank columns other) ∧
    ∀ other, other ∈ after → keyOf columns other ≠ keyOf columns row →
      keyText utf8 columns other = keyText utf8 columns row →
      rank columns other < rank columns row

variable {setup : Setup V β} {utf8 : V → Option String}

theorem upsert_semantics (comparable : Comparable setup.kernels setup.columns utf8)
    (unclamped : Unclamped setup) {target : Target V} {delivery : Delivery V}
    (some_batch : delivery.batches ≠ [])
    (fresh : ∀ row, row ∈ delivery.rows → Deliverable setup.columns setup.produced row)
    (held : ∀ row, row ∈ target.rows → Deliverable setup.columns setup.produced row)
    (single : Single (keyOf setup.columns) target.rows) :
    ∃ after stats batch, upsert setup target delivery.batches delivery.txnVersion =
        .ok (after, stats) ∧
      (∀ row, row ∈ batch ↔ Survives utf8 setup.columns delivery.rows row) ∧
      Single (keyOf setup.columns) batch ∧
      Merged (keyOf setup.columns) (rank setup.columns) target.rows batch after.rows ∧
      after.txn = some delivery.txnVersion := by
  obtain ⟨batch, collapsed, texts, survivors⟩ := collapse_semantics comparable some_batch
    (fun row member => (fresh row member).keyed) fun row member => (fresh row member).ranked
  have keys : Single (keyOf setup.columns) batch := by
    apply texts.imp
    intro one other away same
    apply away
    change ((keyOf setup.columns one).bind utf8).getD "" = _
    rw [same]
    rfl
  have among : ∀ row, row ∈ batch → row ∈ delivery.rows := fun row member =>
    Wins.mem ((survivors row).mp member).choose_spec
  have mergeable : Mergeable
      { columns := setup.columns, lower := setup.window target.rows batch,
        updateColumns := setup.produced } batch target.rows :=
    { fresh := fun source member => fresh source (among source member)
      held := held
      single := keys
      unclamped := fun stored member source present reached lower same sequence opens =>
        unclamped target.rows batch stored source reached lower member present same sequence
          opens }
  obtain ⟨after, stats, result, merged, txn⟩ :=
    sinkUpsert_semantics mergeable single delivery.txnVersion
  refine ⟨after, stats, batch, ?_, survivors, keys, merged, txn⟩
  unfold upsert
  simp only [collapsed]
  exact result

theorem upsertAll_settles (comparable : Comparable setup.kernels setup.columns utf8)
    (unclamped : Unclamped setup) {deliveries : List (Delivery V)} {target : Target V}
    {seen : List (Row V)}
    (settled : Settled (keyOf setup.columns) (rank setup.columns) seen target.rows)
    (some_batch : ∀ delivery, delivery ∈ deliveries → delivery.batches ≠ [])
    (fresh : ∀ delivery, delivery ∈ deliveries → ∀ row, row ∈ delivery.rows →
      Deliverable setup.columns setup.produced row)
    (held : ∀ row, row ∈ seen → Deliverable setup.columns setup.produced row)
    (apart : Apart (keyOf setup.columns) (rank setup.columns)
      (seen ++ deliveries.flatMap Delivery.rows)) :
    ∃ final survivors, upsertAll setup target deliveries = .ok final ∧
      Settled (keyOf setup.columns) (rank setup.columns) survivors final.rows ∧
      ∀ row, row ∈ survivors ↔ row ∈ seen ∨ ∃ delivery, delivery ∈ deliveries ∧
        Survives utf8 setup.columns delivery.rows row := by
  induction deliveries generalizing target seen with
  | nil =>
      refine ⟨target, seen, rfl, settled, ?_⟩
      intro row
      simp
  | cons delivery deliveries ih =>
      have first : delivery ∈ delivery :: deliveries := List.mem_cons_self
      have stored : ∀ row, row ∈ target.rows → Deliverable setup.columns setup.produced row :=
        fun row member => held row ((settled.latest row).mp member).1
      obtain ⟨after, stats, batch, result, survivors, keys, merged, _txn⟩ :=
        upsert_semantics comparable unclamped (some_batch delivery first) (fresh delivery first)
          stored settled.single
      have among : ∀ row, row ∈ batch → row ∈ delivery.rows := fun row member =>
        Wins.mem ((survivors row).mp member).choose_spec
      have next := settled.merge (apart.sublist fun row member => by
        rcases List.mem_append.mp member with old | new
        · exact List.mem_append_left _ old
        · apply List.mem_append_right
          exact List.mem_flatMap.mpr ⟨delivery, first, among row new⟩) keys merged
      obtain ⟨final, kept, run, end_, members⟩ := ih next
        (fun other member => some_batch other (List.mem_cons_of_mem _ member))
        (fun other member => fresh other (List.mem_cons_of_mem _ member))
        (fun row member => by
          rcases List.mem_append.mp member with old | new
          · exact held row old
          · exact fresh delivery first row (among row new))
        (apart.sublist fun row member => by
          rw [List.flatMap_cons]
          rcases List.mem_append.mp member with front | later
          · rcases List.mem_append.mp front with old | new
            · exact List.mem_append_left _ old
            · exact List.mem_append_right _ (List.mem_append_left _ (among row new))
          · exact List.mem_append_right _ (List.mem_append_right _ later))
      refine ⟨final, kept, ?_, end_, ?_⟩
      · unfold upsertAll
        rw [result]
        exact run
      · intro row
        rw [members row, List.mem_append, survivors row, or_assoc]
        apply or_congr_right
        constructor
        · rintro (here | ⟨other, member, survives⟩)
          · exact ⟨delivery, first, here⟩
          · exact ⟨other, List.mem_cons_of_mem _ member, survives⟩
        · rintro ⟨other, member, survives⟩
          rcases List.mem_cons.mp member with rfl | later
          · exact Or.inl survives
          · exact Or.inr ⟨other, later, survives⟩

private theorem survives_iff_unhidden {columns : Columns} {rows batch : List (Row V)}
    {row : Row V} (latest : IsLatest (keyOf columns) (rank columns) rows row)
    (part : batch.Sublist rows)
    (apart : rows.Pairwise fun one other =>
      keyOf columns one = keyOf columns other → rank columns one ≠ rank columns other) :
    Survives utf8 columns batch row ↔ Unhidden utf8 columns batch row := by
  constructor
  · rintro ⟨number, before, after, same, _place, earlier, later⟩
    exact ⟨before, after, same, fun other member _away text => earlier other member text,
      fun other member _away text => later other member text⟩
  · rintro ⟨before, after, rfl, earlier, later⟩
    refine ⟨before.length, before, after, rfl, rfl, ?_, ?_⟩
    · intro other member text
      by_cases own : keyOf columns other = keyOf columns row
      · apply not_lt_of_ge
        exact latest.2 other (part.mem (List.mem_append_left _ member)) own
      · exact earlier other member own text
    · intro other member text
      by_cases own : keyOf columns other = keyOf columns row
      · have place := part.mem (List.mem_append_right before (List.mem_cons_of_mem row member))
        have distinct := (List.pairwise_append.mp (apart.sublist part)).2.1
        apply lt_of_le_of_ne (latest.2 other place own)
        exact ((List.pairwise_cons.mp distinct).1 other member own.symm).symm
      · exact later other member own text

/-- However the deliveries are grouped and repeated, the table is settled for all of them just
when the latest row of every key is unhidden in one of the batches it comes in. -/
theorem upserts_settle_iff (comparable : Comparable setup.kernels setup.columns utf8)
    (unclamped : Unclamped setup) {rows : List (Row V)} {deliveries : List (Delivery V)}
    {target : Target V} (empty : target.rows = [])
    (deliverable : ∀ row, row ∈ rows → Deliverable setup.columns setup.produced row)
    (apart : rows.Pairwise fun one other => keyOf setup.columns one = keyOf setup.columns other →
      rank setup.columns one ≠ rank setup.columns other)
    (delivered : Delivered rows rows.length deliveries) :
    ∃ final, upsertAll setup target deliveries = .ok final ∧
      (Settled (keyOf setup.columns) (rank setup.columns) rows final.rows ↔
        ∀ row, IsLatest (keyOf setup.columns) (rank setup.columns) rows row →
          ∃ delivery, delivery ∈ deliveries ∧
            Unhidden utf8 setup.columns delivery.rows row) := by
  have parts := fun delivery (member : delivery ∈ deliveries) => (delivered.stretch member).2
  have settled : Settled (keyOf setup.columns) (rank setup.columns) [] target.rows := by
    rw [empty]
    exact Settled.nil
  have apartAll := Apart.of_pairwise apart
  obtain ⟨final, survivors, run, ends, members⟩ := upsertAll_settles comparable unclamped settled
    (fun delivery member => (delivered.stretch member).1)
    (fun delivery member row inside => deliverable row ((parts delivery member).mem inside))
    (fun row member => by cases member)
    (apartAll.sublist fun row member => by
      obtain ⟨delivery, present, inside⟩ := List.mem_flatMap.mp member
      exact (parts delivery present).mem inside)
  have within : ∀ row, row ∈ survivors → row ∈ rows := by
    intro row member
    rcases (members row).mp member with nothing | ⟨delivery, present, survives⟩
    · cases nothing
    · exact (parts delivery present).mem (Wins.mem survives.choose_spec)
  refine ⟨final, run, ?_⟩
  rw [ends.widen_iff within apartAll]
  apply forall_congr'
  intro row
  apply imp_congr_right
  intro latest
  rw [members row]
  constructor
  · rintro (nothing | ⟨delivery, present, survives⟩)
    · cases nothing
    · exact ⟨delivery, present,
        (survives_iff_unhidden latest (parts delivery present) apart).mp survives⟩
  · rintro ⟨delivery, present, unhidden⟩
    exact Or.inr ⟨delivery, present,
      (survives_iff_unhidden latest (parts delivery present) apart).mpr unhidden⟩

/-- Where the key's text tells keys apart, nothing delivered is hidden. -/
theorem upserts_settle (comparable : Comparable setup.kernels setup.columns utf8)
    (unclamped : Unclamped setup) {rows : List (Row V)} {deliveries : List (Delivery V)}
    {target : Target V} (empty : target.rows = [])
    (deliverable : ∀ row, row ∈ rows → Deliverable setup.columns setup.produced row)
    (apart : rows.Pairwise fun one other => keyOf setup.columns one = keyOf setup.columns other →
      rank setup.columns one ≠ rank setup.columns other)
    (texts : ∀ one, one ∈ rows → ∀ other, other ∈ rows →
      keyText utf8 setup.columns one = keyText utf8 setup.columns other →
      keyOf setup.columns one = keyOf setup.columns other)
    (delivered : Delivered rows rows.length deliveries) :
    ∃ final, upsertAll setup target deliveries = .ok final ∧
      Settled (keyOf setup.columns) (rank setup.columns) rows final.rows := by
  obtain ⟨final, run, settles⟩ :=
    upserts_settle_iff comparable unclamped empty deliverable apart delivered
  refine ⟨final, run, settles.mpr ?_⟩
  rintro row ⟨member, _top⟩
  have all : row ∈ rows.take rows.length := by
    rw [List.take_length]
    exact member
  obtain ⟨delivery, present, inside⟩ := delivered.reaches all
  have part := (delivered.stretch present).2
  obtain ⟨before, after, same⟩ := List.append_of_mem inside
  refine ⟨delivery, present, before, after, same, ?_, ?_⟩
  · intro other among away text
    have place : other ∈ delivery.rows := by
      rw [same]
      exact List.mem_append_left _ among
    exact absurd (texts other (part.mem place) row member text) away
  · intro other among away text
    have place : other ∈ delivery.rows := by
      rw [same]
      exact List.mem_append_right _ (List.mem_cons_of_mem _ among)
    exact absurd (texts other (part.mem place) row member text) away

end Runs

/-! ### A binary key -/

/-- The text of a key of one byte: none where the byte is not a character by itself. -/
def byteText (byte : Nat) : Option String :=
  if byte < 128 then some (String.singleton (Char.ofNat byte)) else none

def byteSetup : Setup Nat Nat where
  kernels :=
    { castToUtf8 := .ok byteText
      sortField := fun _ => .ok fun byte => [1, byte] }
  columns := { key := "id", sequence := "at", tiebreak := [] }
  produced := ["id", "at"]
  window := fun _ _ => none

def byteRow (id moment : Nat) : Row Nat := fun column =>
  if column = "id" then some id else if column = "at" then some moment else none

def noRows : Target Nat := { rows := [], version := 0, txn := none }

theorem byteSetup_comparable : Comparable byteSetup.kernels byteSetup.columns byteText where
  castable := rfl
  encodes :=
    { fields := by
        intro column _member
        refine ⟨fun byte => [1, byte], rfl, ?_, ?_⟩
        · intro less more below
          simp [List.cons_lt_cons_iff, below]
        · intro one other begins
          simpa [List.cons_prefix_cons] using begins }

theorem byteSetup_unclamped : Unclamped byteSetup := by
  intro table batch stored source reached lower _member _present _same _sequence window
  cases window

theorem byteRow_deliverable (id moment : Nat) :
    Deliverable byteSetup.columns byteSetup.produced (byteRow id moment) where
  keyed := ⟨id, rfl⟩
  ranked := by
    intro column member
    rw [List.mem_singleton.mp member]
    exact ⟨moment, rfl⟩
  within := by
    intro column outside
    have away : column ≠ "id" ∧ column ≠ "at" := by
      simpa [byteSetup] using outside
    simp only [byteRow, if_neg away.1, if_neg away.2]

/-- Three rows of two keys, the second of them delivered twice. -/
theorem byteRows_settle :
    ∃ final, upsertAll byteSetup noRows
        [⟨[[byteRow 254 1], [byteRow 65 2]], 0⟩, ⟨[[byteRow 65 2, byteRow 65 3]], 1⟩] = .ok final ∧
      (Settled (keyOf byteSetup.columns) (rank byteSetup.columns)
          [byteRow 254 1, byteRow 65 2, byteRow 65 3] final.rows ↔
        ∀ row, IsLatest (keyOf byteSetup.columns) (rank byteSetup.columns)
            [byteRow 254 1, byteRow 65 2, byteRow 65 3] row →
          ∃ delivery, delivery ∈ [(⟨[[byteRow 254 1], [byteRow 65 2]], 0⟩ : Delivery Nat),
              ⟨[[byteRow 65 2, byteRow 65 3]], 1⟩] ∧
            Unhidden byteText byteSetup.columns delivery.rows row) := by
  have first : Delivered [byteRow 254 1, byteRow 65 2, byteRow 65 3] 2
      [⟨[[byteRow 254 1], [byteRow 65 2]], 0⟩] :=
    Delivered.next Delivered.start (Nat.le_refl 0) (Nat.zero_le 2) (by decide) (by simp) rfl
  have second : Delivered [byteRow 254 1, byteRow 65 2, byteRow 65 3] 3
      [⟨[[byteRow 254 1], [byteRow 65 2]], 0⟩, ⟨[[byteRow 65 2, byteRow 65 3]], 1⟩] :=
    Delivered.next first (show 1 ≤ 2 by decide) (show 1 ≤ 3 by decide) (show 3 ≤ 3 by decide)
      (by simp) rfl
  refine upserts_settle_iff byteSetup_comparable byteSetup_unclamped rfl ?_ ?_ second
  · intro row member
    simp only [List.mem_cons, List.not_mem_nil, or_false] at member
    rcases member with rfl | rfl | rfl
    · exact byteRow_deliverable 254 1
    · exact byteRow_deliverable 65 2
    · exact byteRow_deliverable 65 3
  · simp [keyOf, byteRow, byteSetup, rank, Columns.order]

/-- Two keys that are no text, delivered in one batch: one row is lost. -/
theorem byteRows_collapse :
    ([byteRow 254 1, byteRow 255 1].Pairwise fun one other =>
      keyOf byteSetup.columns one = keyOf byteSetup.columns other →
        rank byteSetup.columns one ≠ rank byteSetup.columns other) ∧
    Delivered [byteRow 254 1, byteRow 255 1] 2 [⟨[[byteRow 254 1, byteRow 255 1]], 0⟩] ∧
    ∃ final, upsertAll byteSetup noRows [⟨[[byteRow 254 1, byteRow 255 1]], 0⟩] = .ok final ∧
      ¬ Settled (keyOf byteSetup.columns) (rank byteSetup.columns)
        [byteRow 254 1, byteRow 255 1] final.rows := by
  constructor
  · simp [keyOf, byteRow, byteSetup]
  constructor
  · exact Delivered.next Delivered.start (Nat.le_refl 0) (Nat.zero_le 2) (by decide) (by simp) rfl
  refine ⟨{ rows := [byteRow 255 1], version := 1, txn := some 0 }, rfl, ?_⟩
  intro settled
  have latest : IsLatest (keyOf byteSetup.columns) (rank byteSetup.columns)
      [byteRow 254 1, byteRow 255 1] (byteRow 254 1) := by
    constructor
    · exact List.mem_cons_self
    · intro other member same
      simp only [List.mem_cons, List.not_mem_nil, or_false] at member
      rcases member with rfl | rfl
      · exact le_refl _
      · cases same
  have present := (settled.latest _).mpr latest
  have keys := congrArg (keyOf byteSetup.columns) (List.mem_singleton.mp present)
  cases keys

end Ddi.Upsert
