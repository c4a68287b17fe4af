/-
The rescan bound kept per partition against what arrives with each commit: a plain append all of
whose rows are covered lies in what the target was filled from, and so does all before it.
-/

import Ddi.Lib.Arrivals
import Ddi.Lib.RowCode
import Ddi.RescanBound
import Ddi.RescanCoverage

namespace Ddi

open Arrivals (Stamp MarksOf)
open Ddi.Delta
open Ddi.Source (dataAdds)
open Marks (Mark)

set_option linter.unusedSectionVars false

variable {ρ τ T K P : Type} [LinearOrder T] [DecidableEq K] [DecidableEq P]

/-! ### What a source row holds -/

/-- The values of a source row in the columns a cut-off is kept by. -/
structure RowValues (ρ T K : Type) where
  timestamp : ρ → Option T
  /-- The text of a row's value in a partition column. -/
  text : ρ → String → Option String
  key : ρ → Option K

namespace RowValues

variable (values : RowValues ρ T K)

def parts (row : ρ) : List String → Option (List String)
  | [] => some []
  | column :: rest =>
      match values.text row column with
      | some text => (parts row rest).map (text :: ·)
      | none => none

end RowValues

section Values

variable (source : SourceColumns ρ T K P) (columns : DedupColumns τ T K P)
  (values : RowValues ρ T K)

/-- The partition a row belongs to, when none of its columns is null. -/
def partitionOf (row : ρ) : Option P :=
  (values.parts row columns.partitionColumns).map source.partitionKey

/-- A row's partition, time and configured key. -/
def stampOf (row : ρ) : Option (Stamp T K P) :=
  match values.timestamp row, partitionOf source columns values row with
  | some time, some kind =>
      some { kind, time, key := if columns.key.isSome then values.key row else none }
  | _, _ => none

/-- What a rescan reads of a row is what the row holds. -/
structure ReadsTrue : Prop where
  timestamp : ∀ row time, source.timestamp row = some time → values.timestamp row = some time
  partition : ∀ row partition, source.partition row = some partition →
    partitionOf source columns values row = some partition
  key : ∀ row key, source.key row = some key → values.key row = some key

/-- What a writer may record for the highest value of a column: the beginning of a text, a timestamp
cut to the millisecond, and otherwise the value. -/
def RecordsHighest (slack : Option Slack) (recorded top : Bound) : Prop :=
  match slack, recorded, top with
  | _, .text kept, .text whole => kept.toList <+: whole.toList
  | some .millisecond, .int kept, .int whole =>
      whole < 2 ^ 63 ∧ (kept = whole ∨ kept = whole - whole % 1000)
  | _, recorded, top => recorded = top

/-- The statistics and the partition values of a file are true of its rows. -/
structure TrueFile (bounds : TimestampBounds T) (file : AddFile ρ) : Prop where
  counted : ∀ count,
    (file.stats.bind fun stats => stats.get "numRecords").bind Json.asU64 = some count →
      file.rows.length = count
  highest : ∀ like recorded,
    (statOf file.stats "maxValues" columns.timestampColumn).bind
        (fun stat => bounds.boundOfStat stat like) = some recorded →
      ∃ top, RecordsHighest bounds.slack recorded top ∧ ∀ row, row ∈ file.rows → ∀ time,
        values.timestamp row = some time →
          ∃ reached, bounds.boundOfScalar time = some reached ∧ top.lt reached = false
  noNulls : (statOf file.stats "nullCount" columns.timestampColumn).bind Json.asU64 = some 0 →
    ∀ row, row ∈ file.rows → values.timestamp row ≠ none
  placed : ∀ column text, column ∈ columns.partitionColumns →
    file.partitionValues.lookup column = some (some text) →
      ∀ row, row ∈ file.rows → values.text row column = some text
  alike : ∀ column number, column ∈ columns.partitionColumns →
    (statOf file.stats "nullCount" column).bind Json.asU64 = some 0 →
    (statOf file.stats "minValues" column).bind integerText = some number →
    (statOf file.stats "maxValues" column).bind integerText = some number →
      ∀ row, row ∈ file.rows → values.text row column = some number

end Values

/-! ### Covered files -/

section Files

variable {source : SourceColumns ρ T K P} {columns : DedupColumns τ T K P}
  {values : RowValues ρ T K} {bounds : TimestampBounds T} {dedup : Dedup T K P} {file : AddFile ρ}

/-- A row its own partition's mark covers: below it, or tied at it with a key held there. -/
def CoveredRow (source : SourceColumns ρ T K P) (columns : DedupColumns τ T K P)
    (values : RowValues ρ T K) (dedup : Dedup T K P) (row : ρ) : Prop :=
  ∃ stamp mark, stampOf source columns values row = some stamp ∧
    dedup.partitions.lookup stamp.kind = some mark ∧ Marks.Covers mark stamp.time stamp.key

theorem parts_of_stats (truthful : TrueFile columns values bounds file) {row : ρ}
    (member : row ∈ file.rows) {asked parts : List String}
    (among : ∀ column, column ∈ asked → column ∈ columns.partitionColumns)
    (placed : partitionFromStats file asked = some (some parts)) :
    values.parts row asked = some parts := by
  induction asked generalizing parts with
  | nil =>
      cases placed
      rfl
  | cons column rest ih =>
      have later := fun other present => among other (List.mem_cons_of_mem column present)
      have own := among column List.mem_cons_self
      -- The column's own text, and the texts of the rest.
      have join : ∀ text : String, values.text row column = some text →
          (partitionFromStats file rest).map (Option.map (text :: ·)) = some (some parts) →
          values.parts row (column :: rest) = some parts := by
        intro text known settled
        obtain ⟨inner, rest_eq, inner_eq⟩ := Option.map_eq_some_iff.mp settled
        obtain ⟨tail, tail_eq, parts_eq⟩ := Option.map_eq_some_iff.mp inner_eq
        unfold RowValues.parts
        rw [known]
        simp only
        rw [ih later (by rw [rest_eq, tail_eq]), Option.map_some, parts_eq]
      unfold partitionFromStats at placed
      cases value : file.partitionValues.lookup column with
      | some text =>
          cases text with
          | some text =>
              simp only [value] at placed
              exact join text (truthful.placed column text own value row member) placed
          | none => simp [value] at placed
      | none =>
          simp only [value] at placed
          have unsettled : (partitionFromStats file rest).map (fun _ => (none : Option (List String))) ≠
              some (some parts) := by
            cases partitionFromStats file rest <;> simp
          cases nulls : (statOf file.stats "nullCount" column).bind Json.asU64 with
          | none =>
              simp only [nulls] at placed
              exact absurd placed unsettled
          | some nulls' =>
              cases nulls' with
              | succ more => simp [nulls] at placed
              | zero =>
                  simp only [nulls] at placed
                  cases low : (statOf file.stats "minValues" column).bind integerText with
                  | none =>
                      simp only [low] at placed
                      exact absurd placed unsettled
                  | some low' =>
                      cases high : (statOf file.stats "maxValues" column).bind integerText with
                      | none =>
                          simp only [low, high] at placed
                          exact absurd placed unsettled
                      | some high' =>
                          simp only [low, high] at placed
                          split at placed
                          · rename_i same
                            subst same
                            exact join low' (truthful.alike column low' own nulls low high row member)
                              placed
                          · exact absurd placed unsettled

theorem lt_of_recorded (truthful : TrueFile columns values bounds file) {newest : T}
    {mark high : Bound} (known : bounds.boundOfScalar newest = some mark)
    (most : bounds.maxOfFile columns.timestampColumn mark file = some high)
    (below : high.provablyBelow mark = true) {row : ρ} (member : row ∈ file.rows) {time : T}
    (timed : values.timestamp row = some time) : time < newest := by
  obtain ⟨recorded, found, high_eq⟩ := Option.map_eq_some_iff.mp most
  obtain ⟨top, records, bounded⟩ := truthful.highest mark recorded found
  obtain ⟨reached, own, atMost⟩ := bounded row member time timed
  have top_below : top.lt mark = true := by
    subst high_eq
    cases recorded with
    | text kept =>
        have same : bounds.highest (.text kept) = .text kept := by
          unfold TimestampBounds.highest
          cases bounds.slack with
          | none => rfl
          | some slack => cases slack; rfl
        rw [same] at below
        cases top with
        | int whole =>
            unfold RecordsHighest at records
            split at records <;> simp_all
        | text whole =>
            have starts : kept.toList <+: whole.toList := by
              unfold RecordsHighest at records
              exact records
            cases mark with
            | int mark => cases below
            | text mark =>
                simp only [Bound.provablyBelow, Bool.and_eq_true, decide_eq_true_iff,
                  Bool.not_eq_true'] at below
                obtain ⟨less, apart⟩ := below
                have no_start : ¬ kept.toList <+: mark.toList := by
                  intro begins
                  rw [List.isPrefixOf_iff_prefix.mpr begins] at apart
                  cases apart
                obtain ⟨tail, whole_eq⟩ := starts
                have extended :=
                  RowCode.append_lt_append (String.lt_iff_toList_lt.mp less) no_start tail []
                rw [whole_eq, List.append_nil] at extended
                exact decide_eq_true (String.lt_iff_toList_lt.mpr extended)
    | int kept =>
        have under := Bound.lt_of_provablyBelow below
        cases top with
        | text whole =>
            unfold RecordsHighest at records
            split at records <;> simp_all
        | int whole =>
            apply Bound.lt_of_not_lt _ under
            -- Whatever was cut off is made up for by the slack.
            unfold TimestampBounds.highest
            unfold RecordsHighest at records
            cases slack : bounds.slack with
            | none =>
                simp only [slack, Bound.int.injEq] at records
                subst records
                exact Bound.lt_irrefl _
            | some kind =>
                cases kind
                simp only [slack] at records
                obtain ⟨fits, kept_eq⟩ := records
                unfold Slack.above truncatedMicros
                simp only
                split
                · apply decide_eq_false
                  omega
                · apply decide_eq_false
                  omega
  exact bounds.lt_of_bound known own atMost top_below

theorem coveredRow_of_stats (truthful : TrueFile columns values bounds file) {count : Nat}
    (judged : fileCoverageFromStats bounds source columns dedup file = .covered count) :
    file.rows.length = count ∧
      ∀ row, row ∈ file.rows → CoveredRow source columns values dedup row := by
  obtain ⟨counted, settled⟩ := fileCoverageFromStats_covered judged
  have length := truthful.counted count counted
  constructor
  · exact length
  · intro row member
    rcases settled with empty | ⟨parts, mark, bound, high, below⟩
    · rw [empty] at length
      rw [List.length_eq_zero_iff.mp length] at member
      cases member
    · cases timed : values.timestamp row with
      | none => exact absurd timed (truthful.noNulls below.noNulls row member)
      | some time =>
          have placed := parts_of_stats truthful member (fun _ among => among) below.placed
          have kind : partitionOf source columns values row = some (source.partitionKey parts) := by
            unfold partitionOf
            rw [placed]
            rfl
          have before :=
            lt_of_recorded truthful below.known below.most below.below member timed
          refine ⟨⟨source.partitionKey parts, time,
            if columns.key.isSome then values.key row else none⟩, mark, ?_, below.marked,
            Or.inl before⟩
          unfold stampOf
          rw [timed, kind]

theorem coveredRow_of_look (reads : ReadsTrue source columns values) {keyed : Bool}
    (configured : keyed = true → columns.key.isSome = true) {row : ρ}
    (looked : coveredRow source dedup keyed row = true) :
    CoveredRow source columns values dedup row := by
  unfold coveredRow at looked
  cases timed : source.timestamp row with
  | none => simp [timed] at looked
  | some time =>
      cases placed : source.partition row with
      | none => simp [timed, placed] at looked
      | some partition =>
          cases found : dedup.partitions.lookup partition with
          | none => simp [timed, placed, found] at looked
          | some mark =>
              simp only [timed, placed, found] at looked
              have stamped : stampOf source columns values row =
                  some ⟨partition, time, if columns.key.isSome then values.key row else none⟩ := by
                unfold stampOf
                rw [reads.timestamp row time timed, reads.partition row partition placed]
              refine ⟨_, mark, stamped, found, ?_⟩
              split at looked
              · cases looked
              · rename_i notBeyond
                split at looked
                · rename_i tied
                  rw [Bool.and_eq_true] at looked
                  obtain ⟨with_, among⟩ := looked
                  cases keyedAs : source.key row with
                  | none => simp [keyedAs] at among
                  | some key =>
                      rw [keyedAs] at among
                      refine Or.inr ⟨tied, key, ?_, of_decide_eq_true among⟩
                      rw [if_pos (configured with_)]
                      exact reads.key row key keyedAs
                · rename_i untied
                  exact Or.inl (lt_of_le_of_ne (not_lt.mp notBeyond) untied)

end Files

/-! ### Where the walk starts -/

section Sound

/-- The rows of a source in the order they arrive, commit by commit. -/
def flow (arrived : Nat → List ρ) (count : Nat) : List ρ := (List.range count).flatMap arrived

variable (log : DeltaLog ρ) (source : SourceColumns ρ T K P) (columns : DedupColumns τ T K P)
  (values : RowValues ρ T K) (bounds : TimestampBounds T) (arrived : Nat → List ρ)

/-- What arrives with each commit: with a plain append the rows of its files, in whatever order, and
otherwise any rows. The times of a partition do not go back, and no stamp with a key comes twice. -/
structure ArrivesByPartition : Prop where
  truthful : ∀ version actions, log.readCommitEntry version = some actions →
    ∀ file, file ∈ dataAdds actions → TrueFile columns values bounds file
  appends : ∀ version actions, log.readCommitEntry version = some actions →
    mayProveCoverage actions = true → ∀ row, row ∈ arrived version ↔
      ∃ file, file ∈ dataAdds actions ∧ row ∈ file.rows
  ordered : ((flow arrived log.commits.length).filterMap (stampOf source columns values)).Pairwise
    fun earlier later => earlier.kind = later.kind → earlier.time ≤ later.time
  distinct : ((flow arrived log.commits.length).filterMap (stampOf source columns values)).Pairwise
    fun earlier later => earlier = later → earlier.key = none

variable {log source columns values bounds arrived}

theorem flow_split (arrived : Nat → List ρ) {count version : Nat} (within : version < count) :
    ∃ later, flow arrived count = flow arrived version ++ arrived version ++ later := by
  have next : ∀ bound, flow arrived (bound + 1) = flow arrived bound ++ arrived bound := by
    intro bound
    unfold flow
    rw [List.range_succ, List.flatMap_append, List.flatMap_singleton]
  induction count with
  | zero => cases within
  | succ bound ih =>
      rw [next]
      rcases Nat.lt_or_eq_of_le (Nat.le_of_lt_succ within) with earlier | here
      · obtain ⟨later, whole⟩ := ih earlier
        exact ⟨later ++ arrived bound, by rw [whole, List.append_assoc]⟩
      · exact ⟨[], by rw [here, List.append_nil]⟩

theorem not_covered_later {count : Nat} {marks : P → Option (Mark T K)}
    (arriving : ArrivesByPartition log source columns values bounds arrived)
    (held : MarksOf marks (((flow arrived log.commits.length).take count).filterMap
      (stampOf source columns values)))
    {stamp : Stamp T K P} {mark : Mark T K}
    (later : stamp ∈ ((flow arrived log.commits.length).drop count).filterMap
      (stampOf source columns values))
    (found : marks stamp.kind = some mark) : ¬ Marks.Covers mark stamp.time stamp.key := by
  have ordered := arriving.ordered
  have distinct := arriving.distinct
  rw [← List.take_append_drop count (flow arrived log.commits.length), List.filterMap_append,
    List.pairwise_append] at ordered distinct
  intro covers
  rcases covers with below | ⟨tied, key, keyed, among⟩
  · obtain ⟨top, topHeld, topKind, topTime⟩ := held.attained _ mark found
    have notBefore := ordered.2.2 top topHeld stamp later topKind
    rw [topTime] at notBefore
    exact absurd below (not_lt_of_ge notBefore)
  · have present := (held.ties _ mark found key).mp among
    have same : (⟨stamp.kind, mark.newest, some key⟩ : Stamp T K P) = stamp := by
      rw [← tied, ← keyed]
    cases distinct.2.2 _ present stamp later same

/-- Nothing of the commits up to a proven one is missing from what the target was filled with. -/
theorem Proven.held {count fallback version : Nat} {dedup : Dedup T K P}
    (arriving : ArrivesByPartition log source columns values bounds arrived)
    (reads : ReadsTrue source columns values)
    (held : MarksOf (fun kind => dedup.partitions.lookup kind)
      (((flow arrived log.commits.length).take count).filterMap (stampOf source columns values)))
    (proven : Proven log bounds source columns dedup fallback version) :
    version < log.commits.length ∧
      (flow arrived version ++ arrived version).length ≤ count := by
  obtain ⟨actions, budget, left, found, may, judged⟩ := proven.covered
  have within := DeltaLog.readCommitEntry_lt found
  have appended := arriving.appends version actions found may
  have settled : (∃ file, file ∈ dataAdds actions ∧ file.rows ≠ []) ∧
      ∀ file, file ∈ dataAdds actions → ∀ row, row ∈ file.rows →
        CoveredRow source columns values dedup row := by
    apply commitCoverage_covered _ _ judged
    · intro file member count judged
      exact coveredRow_of_stats (arriving.truthful version actions found file member) judged
    · intro file _member row _present looked
      apply coveredRow_of_look reads _ looked
      intro keyed
      exact (Bool.and_eq_true_iff.mp keyed).1
  obtain ⟨⟨file, member, some_row⟩, covered⟩ := settled
  constructor
  · exact within
  · apply Nat.le_of_not_lt
    intro missing
    have carrying : arrived version ≠ [] := by
      obtain ⟨row, present⟩ := List.exists_mem_of_ne_nil _ some_row
      exact List.ne_nil_of_mem ((appended row).mpr ⟨file, member, present⟩)
    obtain ⟨row, unread, own⟩ := Arrivals.exists_mem_drop_append carrying missing
    obtain ⟨other, among, present⟩ := (appended row).mp own
    obtain ⟨stamp, mark, stamped, marked, covers⟩ := covered other among row present
    obtain ⟨rest, whole⟩ := flow_split arrived within
    have beyond : row ∈ (flow arrived log.commits.length).drop count := by
      rw [whole, List.drop_append]
      exact List.mem_append_left _ unread
    exact not_covered_later arriving held (List.mem_filterMap.mpr ⟨row, beyond, stamped⟩) marked
      covers

end Sound

/-! ### Two appends to one region -/

structure Reading where
  region : String
  time : Int
  id : Nat
  deriving DecidableEq

end Ddi
