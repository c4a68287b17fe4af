/-
Where the rows of a target come from: each is the image of a source row, of
which it keeps the class, the time and the key. So the cut-off read from a target
is one over source rows, and what it makes of a batch it makes of the source rows
the batch came from.
-/

import Ddi.Pipeline.SourceRows

namespace Ddi

open Arrivals (Stamp InOrder MarksOf)
open Ddi.Delta
open Ddi.Source
open Marks (Mark)

set_option linter.unusedSectionVars false

structure Lineage (ρ τ T K P : Type) where
  columns : DedupColumns τ T K P
  image : Option Nat → ρ → List τ
  stamp : ρ → Stamp T K (Option P)

namespace Lineage

variable {ρ τ T K P : Type}

/-- The stamps of the rows that come to something. -/
def shown (lineage : Lineage ρ τ T K P) (rows : List (Option Nat × ρ)) :
    List (Stamp T K (Option P)) :=
  (rows.filter fun row => !(lineage.image row.1 row.2).isEmpty).map fun row =>
    lineage.stamp row.2

theorem mem_shown {lineage : Lineage ρ τ T K P} {rows : List (Option Nat × ρ)}
    {stamp : Stamp T K (Option P)} :
    stamp ∈ lineage.shown rows ↔
      ∃ row, row ∈ rows ∧ lineage.image row.1 row.2 ≠ [] ∧ lineage.stamp row.2 = stamp := by
  unfold shown
  simp only [List.mem_map, List.mem_filter, Bool.not_eq_true', List.isEmpty_eq_false_iff,
    and_assoc]

variable [LinearOrder T]

/-- The pipeline's transform and its reading of the source keep to the lineage. -/
structure Carries (lineage : Lineage ρ τ T K P) (config : ResolvedPipeline τ T K P)
    (engine : Engine ρ τ T K P) : Prop where
  configured : config.dedup = some lineage.columns
  rowLocal : RowLocal engine lineage.image
  stamped : ∀ context row out, out ∈ lineage.image context row →
    lineage.columns.timestamp out = some (lineage.stamp row).time ∧
      lineage.columns.classOf out = some (lineage.stamp row).kind ∧
      lineage.columns.keyOf out = (lineage.stamp row).key
  whole : lineage.columns.isPartitioned = false → ∀ row, (lineage.stamp row).kind = none
  sourceTime : ∀ row time, engine.sourceColumns.timestamp row = some time →
    (lineage.stamp row).time = time
  sourcePartition : lineage.columns.isPartitioned = true → ∀ row partition,
    engine.sourceColumns.partition row = some partition →
      (lineage.stamp row).kind = some partition
  sourceKey : lineage.columns.key.isSome = true → ∀ row key,
    engine.sourceColumns.key row = some key → (lineage.stamp row).key = some key

/-- The statistics of a file are true of its rows. -/
structure Truthful (lineage : Lineage ρ τ T K P) (engine : Engine ρ τ T K P) (file : AddFile ρ) :
    Prop where
  counted : ∀ count,
    (file.stats.bind fun stats => stats.get "numRecords").bind Json.asU64 = some count →
      file.rows.length = count
  bounded : ∀ like bound, engine.timestampBounds.maxOfFile lineage.columns.timestampColumn like
    file = some bound → file.rows ≠ [] ∧ ∀ row, row ∈ file.rows → ∃ reached,
      engine.timestampBounds.boundOfScalar (lineage.stamp row).time = some reached ∧
        bound.lt reached = false
  placed : lineage.columns.isPartitioned = true → ∀ parts,
    partitionFromStats file lineage.columns.partitionColumns = some (some parts) →
      ∀ row, row ∈ file.rows →
        (lineage.stamp row).kind = some (engine.sourceColumns.partitionKey parts)

/-- A source that receives its rows in order, with true statistics. -/
structure Orderly (lineage : Lineage ρ τ T K P) (engine : Engine ρ τ T K P) (source : DeltaLog ρ) :
    Prop where
  inOrder : InOrder
    ((rowsOf (emitted source .ignoreChanges 0 source.commits.length)).map lineage.stamp)
  truthful : ∀ entry, entry ∈ emitted source .ignoreChanges 0 source.commits.length →
    lineage.Truthful engine entry.2

section Order

variable {lineage : Lineage ρ τ T K P} {engine : Engine ρ τ T K P}
  {config : ResolvedPipeline τ T K P} {source : DeltaLog ρ}

theorem emittedAdds_ignoreChanges (actions : List (Action ρ)) :
    emittedAdds .ignoreChanges actions = dataAdds actions := by
  unfold emittedAdds emission classify
  simp only
  split_ifs with changes adds touches
  · rfl
  · rfl
  · exact (List.length_eq_zero_iff.mp (by omega)).symm
  · exact (List.length_eq_zero_iff.mp (by omega)).symm

private theorem emittedAdds_sublist (policy : ChangePolicy) (actions : List (Action ρ)) :
    (emittedAdds policy actions).Sublist (dataAdds actions) := by
  unfold emittedAdds emission
  cases classify actions with
  | data adds => exact List.Sublist.refl _
  | compaction => exact List.nil_sublist _
  | noData => exact List.nil_sublist _
  | change adds =>
      cases policy with
      | fail => exact List.nil_sublist _
      | skipChangeCommits => exact List.nil_sublist _
      | ignoreChanges => exact List.Sublist.refl _

/-- Whatever the change policy lets through arrives. -/
theorem emitted_sublist (source : DeltaLog ρ) (policy : ChangePolicy) (first bound : Nat) :
    (emitted source policy first bound).Sublist (emitted source .ignoreChanges first bound) := by
  refine Segments.between_sublist (fun version => ?_) first bound
  unfold emittedAt
  cases source.written.readCommitEntry version with
  | none => exact List.Sublist.refl _
  | some actions =>
      simp only [emittedAdds_ignoreChanges]
      exact emittedAdds_sublist policy actions

theorem map_snd_sourceRows (config : ResolvedPipeline τ T K P) (source : DeltaLog ρ)
    (first bound : Nat) : (sourceRows config source first bound).map Prod.snd =
      rowsOf (emitted source config.changePolicy first bound) := by
  unfold sourceRows arrivalsOf rowsOf
  rw [List.map_flatMap]
  refine List.flatMap_congr fun entry _member => ?_
  rw [List.map_map]
  exact List.map_id _

/-- The rows the source emits are in order. -/
theorem Orderly.emits (orderly : lineage.Orderly engine source)
    (config : ResolvedPipeline τ T K P) :
    InOrder ((sourceRows config source 0 source.commits.length).map fun row =>
      lineage.stamp row.2) := by
  refine orderly.inOrder.sublist ?_
  rw [show (fun row : Option Nat × ρ => lineage.stamp row.2) = lineage.stamp ∘ Prod.snd from rfl,
    ← List.map_map, map_snd_sourceRows]
  exact ((emitted_sublist source config.changePolicy 0 source.commits.length).flatMap _).map _

end Order

/-- What a cut-off with some marks makes of a row with a stamp. -/
def verdictAt [DecidableEq K] (keyed : Bool) (marks : Option P → Option (Mark T K))
    (stamp : Stamp T K (Option P)) : Verdict :=
  match marks stamp.kind with
  | none => .beyond
  | some mark => judge keyed mark stamp.time stamp.key

section Verdicts

variable [DecidableEq K] {marks : Option P → Option (Mark T K)}
  {held : List (Stamp T K (Option P))} {stamp : Stamp T K (Option P)} {keyed : Bool}

/-- A row that is held is covered, unless it has no key and lies at its mark. -/
theorem verdictAt_held (keyed : Bool) (marksOf : MarksOf marks held) (member : stamp ∈ held) :
    verdictAt keyed marks stamp = .covered ∨
      (verdictAt keyed marks stamp = .tied ∧ keyed = true ∧ stamp.key = none) := by
  obtain ⟨mark, found, place⟩ := marksOf.of_mem member
  unfold verdictAt judge
  rw [found]
  rcases place with below | ⟨tied, known⟩
  · refine Or.inl ?_
    simp only [if_neg (not_lt_of_gt below), if_neg (ne_of_lt below)]
  · simp only [tied, lt_self_iff_false, if_false, if_true]
    cases keyed with
    | false => exact Or.inl rfl
    | true =>
        cases key : stamp.key with
        | none => exact Or.inr ⟨rfl, rfl, rfl⟩
        | some own => exact Or.inl (if_pos (known own key))

/-- A row that arrives after everything held is not covered. -/
theorem verdictAt_after (marksOf : MarksOf marks held) (after : Arrivals.After held stamp)
    (ties : keyed = true ∨ ∀ other, other ∈ held → other.key = stamp.key) :
    verdictAt keyed marks stamp ≠ .covered := by
  unfold verdictAt judge
  cases found : marks stamp.kind with
  | none => nofun
  | some mark =>
      obtain ⟨notBelow, untied⟩ := marksOf.of_after after found
      rcases lt_or_eq_of_le notBelow with beyond | tied
      · simp only [if_pos beyond]
        nofun
      · simp only [tied.symm, lt_self_iff_false, if_false, if_true]
        rcases ties with rfl | unkeyed
        · simp only [if_true]
          cases key : stamp.key with
          | none => nofun
          | some own =>
              simp only [if_neg (untied tied.symm own key)]
              nofun
        · exact absurd tied (ne_of_lt (marksOf.of_after_unkeyed after unkeyed found))

end Verdicts

section Target

variable [DecidableEq K] [DecidableEq P] {lineage : Lineage ρ τ T K P}
  {config : ResolvedPipeline τ T K P} {engine : Engine ρ τ T K P} {rows : List (Option Nat × ρ)}
  {dedup : Dedup T K P}

theorem mem_imageRows {image : Option Nat → ρ → List τ} {out : τ} :
    out ∈ imageRows image rows ↔ ∃ row, row ∈ rows ∧ out ∈ image row.1 row.2 :=
  List.mem_flatMap

/-- The marks of a target are those of the source rows that came to its rows. -/
theorem Carries.marks (carries : lineage.Carries config engine) {target : List τ}
    (held : target.Perm (imageRows lineage.image rows))
    (read : Dedup.readPartitioned lineage.columns target = .ok dedup) :
    MarksOf dedup.markOf (lineage.shown rows) := by
  have readFrom := Dedup.readBounded_semantics lineage.columns read
  refine MarksOf.ofRows _ readFrom.marks fun stamp => ?_
  unfold DedupColumns.heldIn
  rw [List.mem_filterMap, mem_shown]
  constructor
  · rintro ⟨out, member, same⟩
    obtain ⟨row, present, among⟩ := mem_imageRows.mp (held.mem_iff.mp member)
    obtain ⟨time, kind, key⟩ := carries.stamped row.1 row.2 out among
    refine ⟨row, present, List.ne_nil_of_mem among, ?_⟩
    rw [kind] at same
    split at same
    · rename_i kindSame
      rw [time, key, Option.map_some, Option.some_inj, Prod.mk.injEq] at same
      rw [Option.some_inj] at kindSame
      cases stamp
      cases stamped : lineage.stamp row.2
      rw [stamped] at same kindSame
      simp only at same kindSame
      rw [same.1, same.2, kindSame]
    · cases same
  · rintro ⟨row, present, comes, rfl⟩
    obtain ⟨out, among⟩ := List.exists_mem_of_ne_nil _ comes
    obtain ⟨time, kind, key⟩ := carries.stamped row.1 row.2 out among
    refine ⟨out, held.mem_iff.mpr (mem_imageRows.mpr ⟨row, present, among⟩), ?_⟩
    rw [if_pos kind, time, key]
    rfl

theorem Carries.verdict (carries : lineage.Carries config engine) (dedup : Dedup T K P)
    {context : Option Nat} {row : ρ} {out : τ} (among : out ∈ lineage.image context row) :
    dedup.verdict lineage.columns out =
      verdictAt lineage.columns.key.isSome dedup.markOf (lineage.stamp row) := by
  obtain ⟨time, kind, key⟩ := carries.stamped context row out among
  unfold Dedup.verdict verdictAt
  cases found : dedup.markOf (lineage.stamp row).kind with
  | none => simp only [kind, found]
  | some mark => simp only [kind, found, time, key]

/-- The rows a cut-off lets through. -/
def passed (lineage : Lineage ρ τ T K P) (dedup : Dedup T K P) (rows : List (Option Nat × ρ)) :
    List (Option Nat × ρ) :=
  rows.filter fun row => decide
    (verdictAt lineage.columns.key.isSome dedup.markOf (lineage.stamp row.2) ≠ .covered)

private theorem filter_imageRows {image : Option Nat → ρ → List τ} {test : τ → Bool}
    {kept : Option Nat × ρ → Bool} (rows : List (Option Nat × ρ))
    (alike : ∀ row out, out ∈ image row.1 row.2 → test out = kept row) :
    (imageRows image rows).filter test = imageRows image (rows.filter kept) := by
  induction rows with
  | nil => rfl
  | cons row rest ih =>
      have first : (image row.1 row.2).filter test =
          if kept row then image row.1 row.2 else [] := by
        cases judged : kept row with
        | true =>
            rw [if_pos rfl, List.filter_eq_self]
            intro out among
            rw [alike row out among, judged]
        | false =>
            rw [if_neg Bool.false_ne_true, List.filter_eq_nil_iff]
            intro out among
            rw [alike row out among, judged]
            exact Bool.false_ne_true
      rw [imageRows, List.flatMap_cons, List.filter_append, first]
      change _ ++ (imageRows image rest).filter test = _
      rw [ih, List.filter_cons]
      split
      · rfl
      · rfl

/-- A cut-off goes source row by source row. -/
theorem Carries.filter (carries : lineage.Carries config engine) {filtered : Filtered τ}
    (ok : dedup.filter lineage.columns (imageRows lineage.image rows) = .ok filtered) :
    filtered.kept = imageRows lineage.image (lineage.passed dedup rows) ∧
      (0 < filtered.beyond → ∃ row, row ∈ rows ∧ lineage.image row.1 row.2 ≠ [] ∧
        verdictAt lineage.columns.key.isSome dedup.markOf (lineage.stamp row.2) = .beyond) := by
  obtain ⟨shape, _placed⟩ := Dedup.filter_semantics ok
  subst shape
  constructor
  · refine filter_imageRows rows fun row out among => ?_
    rw [carries.verdict dedup among]
  · intro some_beyond
    obtain ⟨out, member, verdict⟩ := List.countP_pos_iff.mp some_beyond
    obtain ⟨row, present, among⟩ := mem_imageRows.mp member
    refine ⟨row, present, List.ne_nil_of_mem among, ?_⟩
    rw [← carries.verdict dedup among]
    exact of_decide_eq_true verdict

end Target

end Lineage

end Ddi
