/-
What holds of a pipeline whose target was filled by someone else as well. The
target holds the first rows of the source, and besides at most rows written
again; the offset, the window its newest commit recorded and the window of a
running process all stand somewhere within those rows.
-/

import Ddi.Pipeline.Lineage
import Ddi.Pipeline.OpenSemantics
import Ddi.Pipeline.Record
import Ddi.Pipeline.World

namespace Ddi

open Arrivals (stretch InOrder After MarksOf)
open Ddi.Delta
open Ddi.Source

set_option linter.unusedSectionVars false

variable {ρ τ T K P : Type} [LinearOrder T] [DecidableEq K] [DecidableEq P]

/-- Some rows from before the configured version, and the first of those streamed. -/
def heldRows (config : ResolvedPipeline τ T K P) (source : DeltaLog ρ)
    (early : List (Option Nat × ρ)) (count : Nat) : List (Option Nat × ρ) :=
  early ++ (streamed config source).take count

namespace Lineage

/-- A row that has no key although one is configured: nothing settles whether it is held. -/
def Unkeyed (lineage : Lineage ρ τ T K P) (row : Option Nat × ρ) : Prop :=
  lineage.columns.key.isSome = true ∧ (lineage.stamp row.2).key = none

variable (lineage : Lineage ρ τ T K P) (config : ResolvedPipeline τ T K P) (source : DeltaLog ρ)

/-- The target holds the first `count` rows streamed. Where `once` is claimed, only rows
without a key are there again. -/
structure Holding (once : Bool) (target : DeltaLog τ) (early again : List (Option Nat × ρ))
    (count : Nat) : Prop where
  within : count ≤ (streamed config source).length
  before : early <+: sourceRows config source 0 config.startingVersion
  rows : (tableRows target).Perm
    (imageRows lineage.image (heldRows config source early count) ++ imageRows lineage.image again)
  among : ∀ row, row ∈ again → row ∈ heldRows config source early count
  unkeyed : once = true → ∀ row, row ∈ again → lineage.Unkeyed row

/-- A version to go on from, in a window or outside any. Outside, nothing ahead of it is held;
in one, nothing past its head. -/
structure Stands (once : Bool) (version : Nat) (window : Option RecordedCutoff) (count : Nat) :
    Prop where
  started : config.startingVersion ≤ version
  written : version ≤ max config.startingVersion source.commits.length
  reached : reach config source version ≤ count
  clear : once = true → window = none →
    imageRows lineage.image (stretch (streamed config source) (reach config source version) count)
      = []
  formed : ∀ recorded, window = some recorded →
    recorded.partitionColumns = lineage.columns.partitionColumns
  bounded : ∀ recorded head, window = some recorded → recorded.sourceThrough = some head →
    head < source.commits.length ∧ (once = true → count ≤ reach config source (head + 1))

/-- What the commit of ours an open would find has recorded. -/
def Recorded (once : Bool) (target : DeltaLog τ) (count : Nat) : Prop :=
  ∀ number actions, target.readCommitEntry number = some actions →
    carriesTxn config.appId actions = true → target.head - number < defaultMaxScan →
    (∀ later, number < later → later ≤ target.head → PassedOver target config.appId later) →
    ∃ path rows version identity window,
      actions = (sinkCommit path config.appId rows (Int.ofNat version) identity window).actions ∧
      transactionVersion target config.appId = some (Int.ofNat version) ∧
      lineage.Stands config source once (version + 1) window count

/-- A running process: its marks are of rows held when it was opened, and all it has written
since came after them. -/
structure Working (once : Bool) (pipeline : Pipeline T K P) (early : List (Option Nat × ρ))
    (count : Nat) : Prop where
  ready : Ready config pipeline
  stands : lineage.Stands config source once pipeline.stream.cursor.version
    (pipeline.cutoff.map Cutoff.recorded) count
  marks : ∀ cutoff, pipeline.cutoff = some cutoff → ∃ floor,
    count = max floor (reach config source pipeline.stream.cursor.version) ∧
      MarksOf cutoff.dedup.markOf (lineage.shown (heldRows config source early floor))

/-- The tables and the process agree on what is held. -/
structure Agree (once : Bool) (target : DeltaLog τ) (process : Option (Pipeline T K P))
    (early again : List (Option Nat × ρ)) (count : Nat) : Prop where
  holding : lineage.Holding config source once target early again count
  recorded : lineage.Recorded config source once target count
  working : ∀ pipeline, process = some pipeline →
    lineage.Working config source once pipeline early count

end Lineage

section Rows

variable {config : ResolvedPipeline τ T K P} {source : DeltaLog ρ}
  {early : List (Option Nat × ρ)} {lineage : Lineage ρ τ T K P}

theorem heldRows_append {count bound : Nat} (ordered : count ≤ bound) :
    heldRows config source early bound =
      heldRows config source early count ++ stretch (streamed config source) count bound := by
  unfold heldRows
  rw [List.append_assoc, Arrivals.take_append_stretch _ ordered]

theorem mem_heldRows_of_le {count bound : Nat} (ordered : count ≤ bound)
    {row : Option Nat × ρ} (member : row ∈ heldRows config source early count) :
    row ∈ heldRows config source early bound := by
  rw [heldRows_append ordered]
  exact List.mem_append_left _ member

theorem heldRows_extends {after : DeltaLog ρ} (extends_ : Extends source after) {count : Nat}
    (within : count ≤ (streamed config source).length) :
    heldRows config after early count = heldRows config source early count := by
  obtain ⟨later, same⟩ := streamed_grows config extends_
  unfold heldRows
  rw [← same, List.take_append_of_le_length within]

/-- Everything the source emits, what comes before the configured version first. -/
theorem sourceRows_whole (config : ResolvedPipeline τ T K P) (source : DeltaLog ρ) :
    sourceRows config source 0 source.commits.length =
      sourceRows config source 0 config.startingVersion ++ streamed config source := by
  unfold streamed
  rcases Nat.le_total config.startingVersion source.commits.length with within | beyond
  · exact sourceRows_append config source (Nat.zero_le _) within
  · rw [sourceRows_of_le config source beyond, List.append_nil,
      sourceRows_clip config source 0 config.startingVersion, Nat.min_eq_right beyond]

/-- What is streamed later arrives after everything held. -/
theorem Lineage.Orderly.after {engine : Engine ρ τ T K P} (orderly : lineage.Orderly engine source)
    (early_ : early <+: sourceRows config source 0 config.startingVersion) {floor : Nat}
    {row : Option Nat × ρ} (later : row ∈ (streamed config source).drop floor) :
    After (lineage.shown (heldRows config source early floor)) (lineage.stamp row.2) := by
  have inOrder := orderly.emits config
  have parts : (heldRows config source early floor ++ (streamed config source).drop floor).Sublist
      (sourceRows config source 0 source.commits.length) := by
    unfold heldRows
    rw [sourceRows_whole, List.append_assoc, List.take_append_drop]
    exact early_.sublist.append (List.Sublist.refl _)
  have ordered := inOrder.sublist (parts.map fun row => lineage.stamp row.2)
  rw [List.map_append] at ordered
  refine (ordered.after (List.mem_map.mpr ⟨row, later, rfl⟩)).of_subset ?_
  intro stamp shown
  obtain ⟨one, member, _comes, same⟩ := Lineage.mem_shown.mp shown
  exact List.mem_map.mpr ⟨one, member, same⟩

end Rows

section Cut

variable {config : ResolvedPipeline τ T K P} {engine : Engine ρ τ T K P} {source : DeltaLog ρ}
  {lineage : Lineage ρ τ T K P} {once : Bool} {early : List (Option Nat × ρ)}
  {floor count first bound : Nat}

theorem imageRows_filter {image : Option Nat → ρ → List τ} {kept : Option Nat × ρ → Bool}
    {rows : List (Option Nat × ρ)}
    (dropped : ∀ row, row ∈ rows → image row.1 row.2 ≠ [] → kept row = true) :
    imageRows image (rows.filter kept) = imageRows image rows := by
  induction rows with
  | nil => rfl
  | cons row rest ih =>
      have onward := ih fun other member => dropped other (List.mem_cons_of_mem _ member)
      cases keeps : kept row with
      | true =>
          rw [List.filter_cons_of_pos keeps]
          exact congrArg (image row.1 row.2 ++ ·) onward
      | false =>
          have nothing : image row.1 row.2 = [] := by
            by_contra comes
            rw [dropped row List.mem_cons_self comes] at keeps
            cases keeps
          rw [List.filter_cons_of_neg (by rw [keeps]; exact Bool.false_ne_true), onward]
          change _ = image row.1 row.2 ++ imageRows image rest
          rw [nothing, List.nil_append]

/-- What of the rows from one place and before another is written: those past what is held, and
some that are held already. -/
structure Lineage.Written (lineage : Lineage ρ τ T K P) (config : ResolvedPipeline τ T K P)
    (source : DeltaLog ρ) (once : Bool) (early : List (Option Nat × ρ)) (count bound : Nat)
    (kept : List τ) (again : List (Option Nat × ρ)) : Prop where
  rows : kept = imageRows lineage.image again ++
    imageRows lineage.image (stretch (streamed config source) count (max count bound))
  among : ∀ row, row ∈ again → row ∈ heldRows config source early count
  unkeyed : once = true → ∀ row, row ∈ again → lineage.Unkeyed row

private theorem mem_held_of_stretch {row : Option Nat × ρ}
    (member : row ∈ stretch (streamed config source) first (min count bound)) :
    row ∈ heldRows config source early count := by
  have taken := Arrivals.mem_take_of_mem_stretch member
  exact List.mem_append_right _
    ((List.take_sublist_take_left (Nat.min_le_left _ _)).mem taken)

/-- The rows that come to something. -/
private def Lineage.coming (lineage : Lineage ρ τ T K P) (rows : List (Option Nat × ρ)) :
    List (Option Nat × ρ) :=
  rows.filter fun row => !(lineage.image row.1 row.2).isEmpty

private theorem mem_coming {rows : List (Option Nat × ρ)} {row : Option Nat × ρ}
    (member : row ∈ lineage.coming rows) : row ∈ rows ∧ lineage.image row.1 row.2 ≠ [] := by
  obtain ⟨present, comes⟩ := List.mem_filter.mp member
  rw [Bool.not_eq_true', List.isEmpty_eq_false_iff] at comes
  exact ⟨present, comes⟩

private theorem imageRows_coming (rows : List (Option Nat × ρ)) :
    imageRows lineage.image (lineage.coming rows) = imageRows lineage.image rows := by
  refine imageRows_filter fun row _member comes => ?_
  rw [Bool.not_eq_true', List.isEmpty_eq_false_iff]
  exact comes

/-- Outside a window everything is written. -/
theorem Lineage.written_outside (early : List (Option Nat × ρ)) (low : first ≤ count)
    (high : first ≤ bound)
    (clear : once = true →
      imageRows lineage.image (stretch (streamed config source) first count) = []) :
    ∃ again, lineage.Written config source once early count bound
      (imageRows lineage.image (stretch (streamed config source) first bound)) again := by
  refine ⟨lineage.coming (stretch (streamed config source) first (min count bound)), ?_, ?_, ?_⟩
  · rw [imageRows_coming, ← imageRows_append, ← Arrivals.stretch_split _ count low]
  · intro row member
    exact mem_held_of_stretch (mem_coming member).1
  · intro claimed row member
    obtain ⟨present, comes⟩ := mem_coming member
    have nothing := clear claimed
    rw [← Arrivals.stretch_append _ (Nat.le_min.mpr ⟨low, high⟩) (Nat.min_le_left _ _),
      imageRows_append, List.append_eq_nil_iff] at nothing
    exact absurd (List.flatMap_eq_nil_iff.mp nothing.1 row present) comes

variable {dedup : Dedup T K P}

private theorem unkeyed_shown (carries : lineage.Carries config engine)
    (without : lineage.columns.key = none) {rows : List (Option Nat × ρ)}
    {stamp : Arrivals.Stamp T K (Option P)} (member : stamp ∈ lineage.shown rows) :
    stamp.key = none := by
  obtain ⟨row, _present, comes, same⟩ := Lineage.mem_shown.mp member
  obtain ⟨out, among⟩ := List.exists_mem_of_ne_nil _ comes
  obtain ⟨_time, _kind, key⟩ := carries.stamped row.1 row.2 out among
  rw [DedupColumns.keyOf, without] at key
  rw [← same, ← key]
  rfl

private theorem passed_later (carries : lineage.Carries config engine)
    (orderly : lineage.Orderly engine source)
    (before : early <+: sourceRows config source 0 config.startingVersion)
    (marks : MarksOf dedup.markOf (lineage.shown (heldRows config source early floor)))
    {rows : List (Option Nat × ρ)}
    (later : ∀ row, row ∈ rows → row ∈ (streamed config source).drop floor) :
    imageRows lineage.image (lineage.passed dedup rows) = imageRows lineage.image rows := by
  refine imageRows_filter fun row member comes => decide_eq_true ?_
  refine Lineage.verdictAt_after marks (orderly.after before (later row member)) ?_
  cases configured : lineage.columns.key with
  | some key => exact Or.inl rfl
  | none =>
      refine Or.inr fun other shown => ?_
      rw [unkeyed_shown carries configured shown]
      exact (unkeyed_shown carries configured
        (Lineage.mem_shown.mpr ⟨row, member, comes, rfl⟩)).symm

/-- Inside a window what is held is dropped, but for rows without a key at a mark; and a row
past its mark lies past what was held when the marks were read. -/
theorem Lineage.written_inside (carries : lineage.Carries config engine)
    (orderly : lineage.Orderly engine source)
    (before : early <+: sourceRows config source 0 config.startingVersion)
    (marks : MarksOf dedup.markOf (lineage.shown (heldRows config source early floor)))
    (same : count = max floor first) {filtered : Filtered τ}
    (ok : dedup.filter lineage.columns
      (imageRows lineage.image (stretch (streamed config source) first bound)) = .ok filtered) :
    (∃ again, lineage.Written config source once early count bound filtered.kept again) ∧
      (0 < filtered.beyond → floor < bound) := by
  obtain ⟨kept, beyond⟩ := carries.filter ok
  have low : first ≤ count := by omega
  have heldAt : ∀ row, row ∈ heldRows config source early floor →
      lineage.image row.1 row.2 ≠ [] →
      lineage.stamp row.2 ∈ lineage.shown (heldRows config source early floor) :=
    fun row member comes => Lineage.mem_shown.mpr ⟨row, member, comes, rfl⟩
  constructor
  · refine ⟨lineage.coming (lineage.passed dedup
      (stretch (streamed config source) first (min count bound))), ?_, ?_, ?_⟩
    · rw [kept, Arrivals.stretch_split _ count low, Lineage.passed, List.filter_append,
        imageRows_append, imageRows_coming]
      refine congrArg (_ ++ ·) (passed_later carries orderly before marks fun row member => ?_)
      have dropped := Arrivals.mem_drop_of_mem_stretch member
      exact (List.drop_sublist_drop_left _ (by omega)).mem dropped
    · intro row member
      exact mem_held_of_stretch (List.mem_filter.mp (mem_coming member).1).1
    · intro _claimed row member
      obtain ⟨present, comes⟩ := mem_coming member
      obtain ⟨inside, notCovered⟩ := List.mem_filter.mp present
      have notCovered := of_decide_eq_true notCovered
      -- something before what is held is left, so it was held when the marks were read
      have atFloor : count = floor := by
        by_contra apart
        have nothing := Arrivals.stretch_of_le (streamed config source)
          (show min count bound ≤ first by omega)
        rw [nothing] at inside
        cases inside
      have held : row ∈ heldRows config source early count := mem_held_of_stretch inside
      rw [atFloor] at held
      rcases Lineage.verdictAt_held lineage.columns.key.isSome marks
        (heldAt row held comes) with covered | ⟨_tied, keyed, unkeyed⟩
      · exact absurd covered notCovered
      · exact ⟨keyed, unkeyed⟩
  · intro some_beyond
    obtain ⟨row, member, comes, verdict⟩ := beyond some_beyond
    by_contra behind
    have taken := Arrivals.mem_take_of_mem_stretch member
    have held : row ∈ heldRows config source early floor :=
      List.mem_append_right _ ((List.take_sublist_take_left (by omega)).mem taken)
    rcases Lineage.verdictAt_held lineage.columns.key.isSome marks
      (heldAt row held comes) with covered | ⟨tied, _keyed, _unkeyed⟩
    · rw [covered] at verdict
      cases verdict
    · rw [tied] at verdict
      cases verdict

end Cut

end Ddi
