/-
What it takes for the walk kept per partition to stop: a plain append of at least one row, every row
of which a file's statistics or a look at the row itself shows to be covered.
-/

import Ddi.Rescan

namespace Ddi

open Ddi.Delta
open Ddi.Source (dataAdds)

set_option linter.unusedSectionVars false

variable {ρ τ T K P : Type} [LinearOrder T] [DecidableEq K] [DecidableEq P]
  {bounds : TimestampBounds T} {source : SourceColumns ρ T K P} {columns : DedupColumns τ T K P}
  {dedup : Dedup T K P}

/-! ### One file -/

/-- A file of one partition whose highest timestamp is provably below the partition's mark. -/
structure BelowItsMark (bounds : TimestampBounds T) (source : SourceColumns ρ T K P)
    (columns : DedupColumns τ T K P) (dedup : Dedup T K P) (file : AddFile ρ)
    (parts : List String) (mark : Marks.Mark T K) (bound high : Bound) : Prop where
  placed : partitionFromStats file columns.partitionColumns = some (some parts)
  marked : dedup.partitions.lookup (source.partitionKey parts) = some mark
  known : bounds.boundOfScalar mark.newest = some bound
  noNulls : (statOf file.stats "nullCount" columns.timestampColumn).bind Json.asU64 = some 0
  most : bounds.maxOfFile columns.timestampColumn bound file = some high
  below : high.provablyBelow bound = true

private theorem below_of_covered {below above : Bool} {rows count : Nat}
    (judged : (if below then FileCoverage.covered rows
      else if above then .uncovered else .unknown) = .covered count) :
    below = true ∧ rows = count := by
  cases below with
  | true =>
      cases judged
      exact ⟨rfl, rfl⟩
  | false =>
      cases above with
      | true => cases judged
      | false => cases judged

/-- A file that its statistics show to be covered has the rows they count, and none or all of them
below the mark of their partition. -/
theorem fileCoverageFromStats_covered {file : AddFile ρ} {count : Nat}
    (judged : fileCoverageFromStats bounds source columns dedup file = .covered count) :
    (file.stats.bind fun stats => stats.get "numRecords").bind Json.asU64 = some count ∧
      (count = 0 ∨ ∃ parts mark bound high,
        BelowItsMark bounds source columns dedup file parts mark bound high) := by
  unfold fileCoverageFromStats at judged
  cases counted : (file.stats.bind fun stats => stats.get "numRecords").bind Json.asU64 with
  | none =>
      rw [counted] at judged
      cases judged
  | some rows =>
      rw [counted] at judged
      cases rows with
      | zero =>
          cases judged
          exact ⟨rfl, Or.inl rfl⟩
      | succ rows =>
          simp only at judged
          cases placed : partitionFromStats file columns.partitionColumns with
          | none =>
              rw [placed] at judged
              cases judged
          | some exactly_ =>
              cases exactly_ with
              | none =>
                  rw [placed] at judged
                  simp only at judged
                  split at judged
                  · cases judged
                  · split at judged
                    · split at judged
                      · cases judged
                      · cases judged
                    · cases judged
              | some parts =>
                  rw [placed] at judged
                  simp only at judged
                  cases found : dedup.partitions.lookup (source.partitionKey parts) with
                  | none =>
                      rw [found] at judged
                      cases judged
                  | some mark =>
                      rw [found] at judged
                      simp only at judged
                      cases known : bounds.boundOfScalar mark.newest with
                      | none =>
                          rw [known] at judged
                          cases judged
                      | some bound =>
                          rw [known] at judged
                          simp only at judged
                          split at judged
                          · cases judged
                          · cases judged
                          · rename_i noNulls
                            obtain ⟨below, same⟩ := below_of_covered judged
                            refine ⟨by rw [same], Or.inr ⟨parts, mark, bound, ?_⟩⟩
                            cases most : bounds.maxOfFile columns.timestampColumn bound file with
                            | none =>
                                rw [most] at below
                                cases below
                            | some high =>
                                rw [most] at below
                                exact ⟨high, placed, found, known, noNulls, most, below⟩

theorem probeFile_covered {file : AddFile ρ} {count : Nat}
    (judged : probeFile source columns dedup file = .covered count) :
    file.rows.length = count ∧ ∀ row, row ∈ file.rows →
      coveredRow source dedup (columns.key.isSome && source.hasKey file) row = true := by
  unfold probeFile at judged
  split at judged
  · split at judged
    · rename_i all
      cases judged
      exact ⟨rfl, fun row member => List.all_eq_true.mp all row member⟩
    · cases judged
  · cases judged

/-! ### One commit -/

/-- The verdict on a file, from its statistics or from its rows. -/
def Judged (probe : AddFile ρ → FileCoverage) (entry : AddFile ρ × FileCoverage)
    (count : Nat) : Prop :=
  entry.2 = .covered count ∨ (entry.2 = .unknown ∧ probe entry.1 = .covered count)

theorem probeFiles_covered {probe : AddFile ρ → FileCoverage}
    {entries : List (AddFile ρ × FileCoverage)} {budget rows left : Nat}
    (found : probeFiles probe entries budget rows = some (true, left)) :
    (∀ entry, entry ∈ entries → ∃ count, Judged probe entry count) ∧
      (0 < rows ∨ ∃ entry count, entry ∈ entries ∧ 0 < count ∧ Judged probe entry count) := by
  induction entries generalizing budget rows with
  | nil =>
      rw [probeFiles, Option.some.injEq, Prod.mk.injEq] at found
      exact ⟨nofun, Or.inl (of_decide_eq_true found.1)⟩
  | cons entry rest ih =>
      have step : ∀ {budget count : Nat}, Judged probe entry count →
          probeFiles probe rest budget (rows + count) = some (true, left) →
          (∀ one, one ∈ entry :: rest → ∃ count, Judged probe one count) ∧
            (0 < rows ∨ ∃ one count, one ∈ entry :: rest ∧ 0 < count ∧
              Judged probe one count) := by
        intro budget count judged onward
        obtain ⟨each, some_row⟩ := ih onward
        constructor
        · intro one member
          rcases List.mem_cons.mp member with rfl | later
          · exact ⟨count, judged⟩
          · exact each one later
        · rcases some_row with already | ⟨one, many, member, positive, later⟩
          · rcases Nat.eq_zero_or_pos count with nothing | something
            · exact Or.inl (by omega)
            · exact Or.inr ⟨entry, count, List.mem_cons_self, something, judged⟩
          · exact Or.inr ⟨one, many, List.mem_cons_of_mem _ member, positive, later⟩
      obtain ⟨file, verdict⟩ := entry
      cases verdict with
      | covered count => exact step (Or.inl rfl) found
      | uncovered => cases found
      | unknown =>
          cases budget with
          | zero => cases found
          | succ budget =>
              cases probed : probe file with
              | covered count =>
                  simp only [probeFiles, probed] at found
                  exact step (Or.inr ⟨rfl, probed⟩) found
              | uncovered =>
                  simp only [probeFiles, probed] at found
                  cases found
              | unknown =>
                  simp only [probeFiles, probed] at found
                  cases found

/-- A commit that proves something holds a row, and what the statistics and the look at a row show
holds of every row it adds. -/
theorem commitCoverage_covered {Holds : ρ → Prop} {actions : List (Action ρ)} {budget left : Nat}
    (counted : ∀ file, file ∈ dataAdds actions → ∀ count,
      fileCoverageFromStats bounds source columns dedup file = .covered count →
        file.rows.length = count ∧ ∀ row, row ∈ file.rows → Holds row)
    (looked : ∀ file, file ∈ dataAdds actions → ∀ row, row ∈ file.rows →
      coveredRow source dedup (columns.key.isSome && source.hasKey file) row = true → Holds row)
    (proven : commitCoverage bounds source columns dedup actions budget = some (true, left)) :
    (∃ file, file ∈ dataAdds actions ∧ file.rows ≠ []) ∧
      ∀ file, file ∈ dataAdds actions → ∀ row, row ∈ file.rows → Holds row := by
  unfold commitCoverage at proven
  simp only at proven
  split at proven
  · cases proven
  · obtain ⟨each, some_row⟩ := probeFiles_covered proven
    have settled : ∀ file count, file ∈ dataAdds actions →
        Judged (probeFile source columns dedup)
          (file, fileCoverageFromStats bounds source columns dedup file) count →
        file.rows.length = count ∧ ∀ row, row ∈ file.rows → Holds row := by
      intro file count member judged
      rcases judged with stats | ⟨_open, probed⟩
      · exact counted file member count stats
      · obtain ⟨length, all⟩ := probeFile_covered probed
        exact ⟨length, fun row present => looked file member row present (all row present)⟩
    constructor
    · rcases some_row with impossible | ⟨entry, count, member, positive, judged⟩
      · exact absurd impossible (Nat.lt_irrefl 0)
      · obtain ⟨file, present, same⟩ := List.mem_map.mp member
        rw [← same] at judged
        have length := (settled file count present judged).1
        refine ⟨file, present, ?_⟩
        intro nothing
        rw [nothing] at length
        exact absurd positive (by rw [← length]; exact Nat.lt_irrefl 0)
    · intro file member
      obtain ⟨count, judged⟩ := each _ (List.mem_map.mpr ⟨file, member, rfl⟩)
      exact (settled file count member judged).2

/-! ### The walk -/

/-- The commit a walk kept per partition stops at. -/
structure Proven (log : DeltaLog ρ) (bounds : TimestampBounds T)
    (source : SourceColumns ρ T K P) (columns : DedupColumns τ T K P) (dedup : Dedup T K P)
    (fallback version : Nat) : Prop where
  notBefore : fallback ≤ version
  covered : ∃ actions budget left, log.readCommitEntry version = some actions ∧
    mayProveCoverage actions = true ∧
      commitCoverage bounds source columns dedup actions budget = some (true, left)

theorem proven {actions : List (Action ρ)} {budget left : Nat}
    (judged : (if mayProveCoverage actions then
      commitCoverage bounds source columns dedup actions budget else some (false, budget)) =
        some (true, left)) :
    mayProveCoverage actions = true ∧
      commitCoverage bounds source columns dedup actions budget = some (true, left) := by
  split at judged
  · rename_i may
    exact ⟨may, judged⟩
  · cases judged

theorem walkPartitioned_cases (log : DeltaLog ρ) (bounds : TimestampBounds T)
    (source : SourceColumns ρ T K P) (columns : DedupColumns τ T K P) (dedup : Dedup T K P)
    (fallback maxScan version scanned budget : Nat) :
    walkPartitioned log bounds source columns dedup fallback maxScan version scanned budget =
        fallback ∨
      ∃ at_, walkPartitioned log bounds source columns dedup fallback maxScan version scanned
        budget = at_ + 1 ∧ Proven log bounds source columns dedup fallback at_ := by
  induction version generalizing scanned budget with
  | zero =>
      unfold walkPartitioned
      split
      · exact Or.inl rfl
      · rename_i within
        cases read : log.readCommitEntry 0 with
        | none => exact Or.inl rfl
        | some actions =>
            simp only
            split
            · exact Or.inl rfl
            · rename_i left judged
              refine Or.inr ⟨0, rfl, Nat.le_of_not_lt fun early => within (Or.inr early), ?_⟩
              exact ⟨actions, budget, left, read, proven judged⟩
            · exact Or.inl rfl
  | succ version ih =>
      unfold walkPartitioned
      split
      · exact Or.inl rfl
      · rename_i within
        cases read : log.readCommitEntry (version + 1) with
        | none => exact Or.inl rfl
        | some actions =>
            simp only
            split
            · exact Or.inl rfl
            · rename_i left judged
              refine Or.inr ⟨version + 1, rfl,
                Nat.le_of_not_lt fun early => within (Or.inr early), ?_⟩
              exact ⟨actions, budget, left, read, proven judged⟩
            · exact ih _ _

end Ddi
