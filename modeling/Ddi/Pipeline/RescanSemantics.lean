/-
Where a rescan starts from. The commit a walk stops at holds rows the marks
cover, so no row up to it arrives after those the marks were read from: nothing
that is missing lies before the rescan.
-/

import Ddi.Pipeline.Coverage
import Ddi.RescanBound
import Ddi.RescanCoverage

namespace Ddi

open Arrivals (Stamp MarksOf After)
open Ddi.Delta
open Ddi.Source
open Marks (Mark)

set_option linter.unusedSectionVars false

variable {ρ τ T K P : Type} [LinearOrder T] [DecidableEq K] [DecidableEq P]

section Covered

variable {lineage : Lineage ρ τ T K P} {config : ResolvedPipeline τ T K P}
  {engine : Engine ρ τ T K P} {dedup : Dedup T K P} {file : AddFile ρ}

/-- The mark of its class covers a stamp. -/
def CoveredBy (dedup : Dedup T K P) (stamp : Stamp T K (Option P)) : Prop :=
  ∃ mark, dedup.markOf stamp.kind = some mark ∧ Marks.Covers mark stamp.time stamp.key

private theorem Lineage.Truthful.before (truthful : lineage.Truthful engine file) {newest : T}
    {mark bound : Bound} (known : engine.timestampBounds.boundOfScalar newest = some mark)
    (most : engine.timestampBounds.maxOfFile lineage.columns.timestampColumn mark file =
      some bound) (below : bound.lt mark = true) {row : ρ} (member : row ∈ file.rows) :
    (lineage.stamp row).time < newest := by
  obtain ⟨_some_row, bounded⟩ := truthful.bounded mark bound most
  obtain ⟨reached, own, atMost⟩ := bounded row member
  exact engine.timestampBounds.lt_of_bound known own atMost below

private theorem covered_of_stats
    (partitioned : lineage.columns.isPartitioned = true)
    (truthful : lineage.Truthful engine file) {count : Nat}
    (judged : fileCoverageFromStats engine.timestampBounds engine.sourceColumns lineage.columns
      dedup file = .covered count) :
    file.rows.length = count ∧
      ∀ row, row ∈ file.rows → CoveredBy dedup (lineage.stamp row) := by
  obtain ⟨counted, settled⟩ := fileCoverageFromStats_covered judged
  have length := truthful.counted count counted
  refine ⟨length, fun row member => ?_⟩
  rcases settled with empty | ⟨parts, mark, bound, high, below⟩
  · rw [empty] at length
    rw [List.length_eq_zero_iff.mp length] at member
    cases member
  · refine ⟨mark, ?_, Or.inl ?_⟩
    · rw [truthful.placed partitioned parts below.placed row member]
      exact below.marked
    · exact truthful.before below.known below.most (Bound.lt_of_provablyBelow below.below) member

private theorem coveredRow_covered (carries : lineage.Carries config engine)
    (partitioned : lineage.columns.isPartitioned = true) {keyed : Bool}
    (configured : keyed = true → lineage.columns.key.isSome = true) {row : ρ}
    (covered : coveredRow engine.sourceColumns dedup keyed row = true) :
    CoveredBy dedup (lineage.stamp row) := by
  unfold coveredRow at covered
  cases timed : engine.sourceColumns.timestamp row with
  | none =>
      rw [timed] at covered
      cases covered
  | some time =>
      cases placed : engine.sourceColumns.partition row with
      | none =>
          rw [timed, placed] at covered
          cases covered
      | some partition =>
          have time_ := carries.sourceTime row time timed
          have kind := carries.sourcePartition partitioned row partition placed
          cases found : dedup.partitions.lookup partition with
          | none =>
              simp only [timed, placed, found] at covered
              cases covered
          | some mark =>
              simp only [timed, placed, found] at covered
              refine ⟨mark, by rw [kind]; exact found, ?_⟩
              rw [time_]
              split at covered
              · cases covered
              · rename_i notBeyond
                split at covered
                · rename_i tied
                  rw [Bool.and_eq_true] at covered
                  obtain ⟨with_, among⟩ := covered
                  cases keyedAs : engine.sourceColumns.key row with
                  | none =>
                      rw [keyedAs] at among
                      cases among
                  | some key =>
                      rw [keyedAs] at among
                      exact Or.inr ⟨tied, key, carries.sourceKey (configured with_) row key keyedAs,
                        of_decide_eq_true among⟩
                · rename_i untied
                  exact Or.inl (lt_of_le_of_ne (not_lt.mp notBeyond) untied)

private theorem commit_covered (carries : lineage.Carries config engine)
    (partitioned : lineage.columns.isPartitioned = true)
    {actions : List (Action ρ)} {budget left : Nat}
    (truthful : ∀ file, file ∈ dataAdds actions → lineage.Truthful engine file)
    (proven : commitCoverage engine.timestampBounds engine.sourceColumns lineage.columns dedup
      actions budget = some (true, left)) :
    (∃ file, file ∈ dataAdds actions ∧ file.rows ≠ []) ∧
      ∀ file, file ∈ dataAdds actions → ∀ row, row ∈ file.rows →
        CoveredBy dedup (lineage.stamp row) := by
  apply commitCoverage_covered _ _ proven
  · intro file member count judged
    exact covered_of_stats partitioned (truthful file member) judged
  · intro file _member row _present looked
    apply coveredRow_covered carries partitioned _ looked
    intro keyed
    exact (Bool.and_eq_true_iff.mp keyed).1

end Covered

section Sound

variable {lineage : Lineage ρ τ T K P} {config : ResolvedPipeline τ T K P}
  {engine : Engine ρ τ T K P} {source : DeltaLog ρ} {dedup : Dedup T K P}
  {early : List (Option Nat × ρ)} {count version : Nat} {actions : List (Action ρ)}

private theorem emittedAt_of_read (found : source.readCommitEntry version = some actions)
    (policy : ChangePolicy) :
    emittedAt source.written policy version = emittedAdds policy actions := by
  rw [← emittedAt_written found, emittedAt, found]

private theorem mem_arrived (found : source.readCommitEntry version = some actions)
    {file : AddFile ρ} (member : file ∈ dataAdds actions) {first bound : Nat}
    (low : first ≤ version) (high : version < bound) :
    (version, file) ∈ emitted source .ignoreChanges first bound := by
  refine mem_emitted.mpr ⟨low, high, ?_⟩
  rw [emittedAt_of_read found, Lineage.emittedAdds_ignoreChanges]
  exact member

private theorem mem_sourceRows {first bound : Nat} {row : Option Nat × ρ}
    (member : row ∈ sourceRows config source first bound) :
    ∃ entry, entry ∈ emitted source config.changePolicy first bound ∧ row.2 ∈ entry.2.rows := by
  obtain ⟨entry, emits, present⟩ := List.mem_flatMap.mp member
  obtain ⟨one, inside, same⟩ := List.mem_map.mp present
  exact ⟨entry, emits, by rw [← same]; exact inside⟩

private theorem exists_beyond (within : count < reach config source (version + 1)) :
    ∃ row, row ∈ (streamed config source).drop count ∧
      row ∈ sourceRows config source config.startingVersion (version + 1) := by
  have some_row : Arrivals.stretch (streamed config source) count
      (reach config source (version + 1)) ≠ [] := by
    rw [Arrivals.stretch, streamed_take_reach]
    intro nothing
    rw [List.drop_eq_nil_iff] at nothing
    exact absurd within (Nat.not_lt_of_le nothing)
  obtain ⟨row, member⟩ := List.exists_mem_of_ne_nil _ some_row
  refine ⟨row, Arrivals.mem_drop_of_mem_stretch member, ?_⟩
  rw [← streamed_take_reach]
  exact Arrivals.mem_take_of_mem_stretch member

private theorem ordered_across (orderly : lineage.Orderly engine source)
    (found : source.readCommitEntry version = some actions) {file : AddFile ρ}
    (member : file ∈ dataAdds actions) {newer : ρ} (present : newer ∈ file.rows)
    {entry : Nat × AddFile ρ} {first bound : Nat}
    (emits : entry ∈ emitted source config.changePolicy first bound) (earlier : entry.1 < version)
    {older : ρ} (among : older ∈ entry.2.rows)
    (alike : (lineage.stamp older).kind = (lineage.stamp newer).kind) :
    (lineage.stamp older).time ≤ (lineage.stamp newer).time := by
  have within := DeltaLog.readCommitEntry_lt found
  have ordered := orderly.inOrder.ordered
  rw [emitted_append source .ignoreChanges (Nat.zero_le version) (Nat.le_of_lt within), rowsOf,
    List.flatMap_append, List.map_append, List.pairwise_append] at ordered
  obtain ⟨_low, _high, part⟩ := mem_emitted.mp
    ((Lineage.emitted_sublist source config.changePolicy first bound).mem emits)
  have before : entry ∈ emitted source .ignoreChanges 0 version :=
    mem_emitted.mpr ⟨Nat.zero_le _, earlier, part⟩
  refine ordered.2.2 _ (List.mem_map.mpr ⟨older, ?_, rfl⟩) _ (List.mem_map.mpr ⟨newer, ?_, rfl⟩)
    alike
  · exact List.mem_flatMap.mpr ⟨entry, before, among⟩
  · exact List.mem_flatMap.mpr
      ⟨(version, file), mem_arrived found member (Nat.le_refl _) within, present⟩

private theorem StopsAt.reached (carries : lineage.Carries config engine)
    (orderly : lineage.Orderly engine source)
    (before : early <+: sourceRows config source 0 config.startingVersion)
    (marks : MarksOf dedup.markOf (lineage.shown (heldRows config source early count)))
    (single : lineage.columns.isPartitioned = false) {mark : Mark T K}
    (known : dedup.watermark = some mark)
    {bound : Bound} {maxScan : Nat}
    (stops : StopsAt source engine.timestampBounds lineage.columns.timestampColumn mark.newest
      config.startingVersion maxScan bound version) :
    version < source.commits.length ∧ reach config source (version + 1) ≤ count := by
  obtain ⟨actions, newest, found, most, under_mark⟩ := stops.here
  have ownBound := stops.known
  have below := (commitMax_lt most under_mark).2
  have carrying : dataAdds actions ≠ [] := by
    intro nothing
    rw [nothing] at most
    cases most
  have within := DeltaLog.readCommitEntry_lt found
  have truthful : ∀ file, file ∈ dataAdds actions → lineage.Truthful engine file :=
    fun file member => orderly.truthful _ (mem_arrived found member (Nat.zero_le _) within)
  have older : ∀ file, file ∈ dataAdds actions → file.rows ≠ [] ∧ ∀ row, row ∈ file.rows →
      (lineage.stamp row).time < mark.newest := by
    intro file member
    obtain ⟨most, known_, under⟩ := below file member
    exact ⟨((truthful file member).bounded bound most known_).1,
      fun row present => (truthful file member).before ownBound known_ under present⟩
  refine ⟨within, Nat.le_of_not_lt fun missing => ?_⟩
  obtain ⟨row, later, inside⟩ := exists_beyond missing
  obtain ⟨entry, emits, present⟩ := mem_sourceRows inside
  have kind : ∀ one, (lineage.stamp one).kind = none := carries.whole single
  have after := orderly.after before later
  have newer := (marks.of_after after (by rw [kind]; exact known)).1
  obtain ⟨_low, high, part⟩ := mem_emitted.mp emits
  rcases Nat.lt_or_eq_of_le (Nat.le_of_lt_succ high) with earlier | here
  · obtain ⟨file, member⟩ := List.exists_mem_of_ne_nil _ carrying
    obtain ⟨some_row, each⟩ := older file member
    obtain ⟨one, among⟩ := List.exists_mem_of_ne_nil _ some_row
    have ordered := ordered_across orderly found member among emits earlier present
      (by rw [kind, kind])
    exact absurd (lt_of_le_of_lt ordered (each one among)) (not_lt_of_ge newer)
  · rw [here] at part
    have member : entry.2 ∈ dataAdds actions := by
      have arrives := (Lineage.emitted_sublist source config.changePolicy _ _).mem emits
      obtain ⟨_low, _high, part⟩ := mem_emitted.mp arrives
      rw [here, emittedAt_of_read found, Lineage.emittedAdds_ignoreChanges] at part
      exact part
    exact absurd ((older entry.2 member).2 row.2 present) (not_lt_of_ge newer)

private theorem emittedAdds_proven (may : mayProveCoverage actions = true)
    (policy : ChangePolicy) : emittedAdds policy actions = dataAdds actions := by
  unfold mayProveCoverage at may
  unfold emittedAdds emission
  simp only at may
  cases kind : classify actions with
  | data adds => rfl
  | compaction =>
      rw [kind] at may
      cases may
  | change adds =>
      rw [kind] at may
      cases may
  | noData =>
      rw [kind] at may
      cases may

private theorem Proven.reached (carries : lineage.Carries config engine)
    (partitioned : lineage.columns.isPartitioned = true)
    (orderly : lineage.Orderly engine source)
    (before : early <+: sourceRows config source 0 config.startingVersion)
    (marks : MarksOf dedup.markOf (lineage.shown (heldRows config source early count)))
    (stops : Proven source engine.timestampBounds engine.sourceColumns lineage.columns dedup
      config.startingVersion version) :
    version < source.commits.length ∧ reach config source (version + 1) ≤ count := by
  obtain ⟨actions, budget, left, found, may, judged⟩ := stops.covered
  have within := DeltaLog.readCommitEntry_lt found
  obtain ⟨⟨file, member, some_row⟩, covered⟩ := commit_covered carries partitioned
    (fun file member => orderly.truthful _ (mem_arrived found member (Nat.zero_le _) within))
    judged
  refine ⟨within, Nat.le_of_not_lt fun missing => ?_⟩
  have part : sourceRows config source version (version + 1) ≠ [] := by
    obtain ⟨row, present⟩ := List.exists_mem_of_ne_nil _ some_row
    have emits : (version, file) ∈ emitted source config.changePolicy version (version + 1) := by
      refine mem_emitted.mpr ⟨Nat.le_refl _, Nat.lt_succ_self _, ?_⟩
      rw [emittedAt_of_read found, emittedAdds_proven may]
      exact member
    exact List.ne_nil_of_mem (List.mem_flatMap.mpr
      ⟨_, emits, List.mem_map.mpr ⟨row, present, rfl⟩⟩)
  have whole := sourceRows_append config source stops.notBefore (Nat.le_succ version)
  unfold reach at missing
  rw [whole] at missing
  obtain ⟨row, last, own⟩ := Arrivals.exists_mem_drop_append part missing
  have later : row ∈ (streamed config source).drop count := by
    rw [← whole, ← streamed_take_reach] at last
    exact Arrivals.mem_drop_of_mem_stretch last
  obtain ⟨entry, emits, present⟩ := mem_sourceRows own
  obtain ⟨low, high, here⟩ := mem_emitted.mp emits
  have same : entry.1 = version := by omega
  rw [same, emittedAt_of_read found, emittedAdds_proven may] at here
  obtain ⟨mark, known, covers⟩ := covered entry.2 here _ present
  exact marks.not_after known covers (orderly.after before later)

/-- Nothing that is missing lies before a rescan. -/
theorem rescanStart_semantics (carries : lineage.Carries config engine)
    (orderly : lineage.Orderly engine source)
    (before : early <+: sourceRows config source 0 config.startingVersion)
    (marks : MarksOf dedup.markOf (lineage.shown (heldRows config source early count)))
    (form : dedup.partitionColumns = lineage.columns.partitionColumns) :
    let start := rescanStart engine lineage.columns source dedup config.startingVersion
    config.startingVersion ≤ start ∧ start ≤ max config.startingVersion source.commits.length ∧
      reach config source start ≤ count := by
  have fallback : config.startingVersion ≤ config.startingVersion ∧
      config.startingVersion ≤ max config.startingVersion source.commits.length ∧
        reach config source config.startingVersion ≤ count := by
    rw [reach_start]
    exact ⟨Nat.le_refl _, Nat.le_max_left _ _, Nat.zero_le _⟩
  have after : ∀ {version : Nat}, config.startingVersion ≤ version →
      version < source.commits.length ∧ reach config source (version + 1) ≤ count →
      config.startingVersion ≤ version + 1 ∧
        version + 1 ≤ max config.startingVersion source.commits.length ∧
          reach config source (version + 1) ≤ count := fun notBefore found =>
    ⟨Nat.le_succ_of_le notBefore, Nat.le_trans found.1 (Nat.le_max_right _ _), found.2⟩
  have alike : dedup.isPartitioned = lineage.columns.isPartitioned := by
    rw [Dedup.isPartitioned, DedupColumns.isPartitioned, form]
  unfold rescanStart
  rw [alike]
  cases single : lineage.columns.isPartitioned with
  | true =>
      simp only [if_true]
      unfold boundedRescanStartPartitioned
      split
      · exact fallback
      · split
        · rcases walkPartitioned_cases source engine.timestampBounds engine.sourceColumns
            lineage.columns dedup config.startingVersion defaultMaxScan source.head 0
            maxProbeFiles with none_ | ⟨version, found, stops⟩
          · rw [none_]
            exact fallback
          · rw [found]
            exact after stops.notBefore (stops.reached carries single orderly before marks)
        · exact fallback
  | false =>
      simp only [Bool.false_eq_true, if_false]
      cases known : dedup.watermark with
      | none => exact fallback
      | some mark =>
          simp only
          rcases boundedRescanStart_cases source engine.timestampBounds
            lineage.columns.timestampColumn mark.newest config.startingVersion defaultMaxScan with
            none_ | ⟨bound, version, found, stops⟩
          · rw [none_]
            exact fallback
          · rw [found]
            exact after stops.notBefore
              (stops.reached carries orderly before marks single known)

end Sound

end Ddi
