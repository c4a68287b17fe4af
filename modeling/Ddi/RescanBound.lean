/-
The single cut-off's rescan bound against what arrives with each commit: the walk stops at the first
commit whose files all lie below the watermark, whatever kind of commit it is.
-/

import Ddi.Rescan

namespace Ddi

open Ddi.Delta
open Ddi.Source (dataAdds)
open WalkBack (AnswersAt)

section Bounds

variable {ρ T : Type} [LinearOrder T] {bounds : TimestampBounds T} {column : String} {mark : Bound}

theorem raiseMax_lt {reached : Option Bound} {bound high : Bound}
    (below : (raiseMax reached bound).lt high = true) :
    bound.lt high = true ∧ ∀ current, reached = some current → current.lt high = true := by
  unfold raiseMax at below
  cases reached with
  | none => exact ⟨below, nofun⟩
  | some current =>
      simp only at below
      split at below
      · rename_i smaller
        constructor
        · exact Bound.lt_of_not_lt (Bound.lt_asymm smaller) below
        · intro _ same
          cases same
          exact below
      · rename_i larger
        constructor
        · exact below
        · intro _ same
          cases same
          exact Bound.lt_of_not_lt (Bool.eq_false_iff.mpr larger) below

/-- Below a bound as a whole, each file is below it. -/
theorem commitMax_lt {files : List (AddFile ρ)} {reached : Option Bound} {newest high : Bound}
    (found : commitMax bounds column mark files reached = some (some newest))
    (below : newest.lt high = true) :
    (∀ current, reached = some current → current.lt high = true) ∧
      ∀ file, file ∈ files → ∃ bound, bounds.maxOfFile column mark file = some bound ∧
        bound.lt high = true := by
  induction files generalizing reached with
  | nil =>
      cases found
      constructor
      · intro _ same
        cases same
        exact below
      · exact nofun
  | cons file rest ih =>
      unfold commitMax at found
      cases most : bounds.maxOfFile column mark file with
      | none =>
          rw [most] at found
          cases found
      | some bound =>
          rw [most] at found
          obtain ⟨raised, later⟩ := ih found
          obtain ⟨here, earlier⟩ := raiseMax_lt (raised _ rfl)
          constructor
          · exact earlier
          · intro one member
            rcases List.mem_cons.mp member with rfl | behind
            · exact ⟨bound, most, here⟩
            · exact later one behind

/-- A value some bound of a file does not lie below, when the bound lies below a mark, does too. -/
theorem TimestampBounds.lt_of_bound (bounds : TimestampBounds T) {newest time : T}
    {mark bound reached : Bound} (known : bounds.boundOfScalar newest = some mark)
    (own : bounds.boundOfScalar time = some reached) (atMost : bound.lt reached = false)
    (below : bound.lt mark = true) : time < newest := by
  have under := Bound.lt_of_not_lt atMost below
  rcases lt_trichotomy time newest with before | same | after
  · exact before
  · rw [same, known] at own
    cases own
    rw [Bound.lt_irrefl] at under
    cases under
  · have higher := bounds.ordered _ _ _ _ known own after
    rw [Bound.lt_asymm higher] at under
    cases under

end Bounds

/-! ### Where the walk stops -/

section Walk

variable {ρ T : Type} [LinearOrder T] (source : DeltaLog ρ) (bounds : TimestampBounds T)
  (column : String)

/-- A commit the walk goes on past: it adds nothing, or something not known to be below the mark. -/
def PassedBy (mark : Bound) (version : Nat) : Prop :=
  ∃ actions reached, source.readCommitEntry version = some actions ∧
    commitMax bounds column mark (dataAdds actions) none = some reached ∧
    ∀ newest, reached = some newest → newest.lt mark = false

/-- The commit the walk stops at: the newest it comes to whose every added file lies below the
mark. -/
structure StopsAt (watermark : T) (fallback maxScan : Nat) (mark : Bound) (stop : Nat) : Prop where
  known : bounds.boundOfScalar watermark = some mark
  notBefore : fallback ≤ stop
  within : stop ≤ source.head
  near : source.head - stop < maxScan
  here : ∃ actions newest, source.readCommitEntry stop = some actions ∧
    commitMax bounds column mark (dataAdds actions) none = some (some newest) ∧
    newest.lt mark = true
  later : ∀ later, stop < later → later ≤ source.head → PassedBy source bounds column mark later

variable {source bounds column} {watermark : T} {fallback maxScan : Nat}

theorem rescanLook_none {mark : Bound} {version scanned : Nat}
    (silent : rescanLook source bounds column mark fallback maxScan version scanned = none) :
    PassedBy source bounds column mark version := by
  unfold rescanLook at silent
  split at silent
  · cases silent
  · cases read : source.readCommitEntry version with
    | none => simp [read] at silent
    | some actions =>
        cases most : commitMax bounds column mark (dataAdds actions) none with
        | none => simp [read, most] at silent
        | some reached =>
            cases reached with
            | none => exact ⟨actions, none, read, most, nofun⟩
            | some newest =>
                simp only [read, most, TimestampBounds.lowest_eq] at silent
                split at silent
                · cases silent
                · rename_i high
                  refine ⟨actions, some newest, read, most, ?_⟩
                  intro _ same
                  cases same
                  exact Bool.not_eq_true _ ▸ high

theorem boundedRescanStart_cases (source : DeltaLog ρ) (bounds : TimestampBounds T) (column : String)
    (watermark : T) (fallback maxScan : Nat) :
    boundedRescanStart source bounds column watermark fallback maxScan = fallback ∨
      ∃ mark stop, boundedRescanStart source bounds column watermark fallback maxScan = stop + 1 ∧
        StopsAt source bounds column watermark fallback maxScan mark stop := by
  unfold boundedRescanStart
  cases known : bounds.boundOfScalar watermark with
  | none => exact Or.inl rfl
  | some mark =>
      simp only
      generalize result : WalkBack.walkBack
        (rescanLook source bounds column mark fallback maxScan) fallback source.head 0 = start
      rcases WalkBack.walkBack_cases (rescanLook source bounds column mark fallback maxScan)
        fallback source.head 0 with ⟨version, answers⟩ | ⟨exhausted, _silent⟩
      · rw [result] at answers
        have answered := answers.answered
        have passed := fun later above atMost => rescanLook_none (answers.silent later above atMost)
        have within := answers.within
        unfold rescanLook at answered
        split at answered
        · exact Or.inl (Option.some.inj answered).symm
        · rename_i reaches
          rw [Nat.zero_add] at reaches
          cases read : source.readCommitEntry version with
          | none =>
              rw [read] at answered
              exact Or.inl (Option.some.inj answered).symm
          | some actions =>
              cases most : commitMax bounds column mark (dataAdds actions) none with
              | none =>
                  simp only [read, most] at answered
                  exact Or.inl (Option.some.inj answered).symm
              | some reached =>
                  cases reached with
                  | none =>
                      simp only [read, most] at answered
                      cases answered
                  | some newest =>
                      simp only [read, most, TimestampBounds.lowest_eq] at answered
                      split at answered
                      · rename_i below
                        right
                        refine ⟨mark, version, (Option.some.inj answered).symm, known, ?_, within, ?_,
                          ⟨actions, newest, read, most, below⟩, passed⟩
                        · omega
                        · omega
                      · cases answered
      · rw [result] at exhausted
        exact Or.inl exhausted

end Walk

/-! ### What arrives -/

section Arriving

variable {ρ T : Type} [LinearOrder T]

/-- The rows that newly arrive with each commit, among those its files add with `dataChange`: no
timestamp lies before that of an earlier arrival, and the statistics bound the rows of their
files. -/
structure Arriving (source : DeltaLog ρ) (bounds : TimestampBounds T) (column : String)
    (timestamp : ρ → Option T) (arrived : Nat → List ρ) : Prop where
  added : ∀ (version : Nat) (row : ρ), row ∈ arrived version →
    ∃ commit : Commit ρ, source.commits[version]? = some commit ∧
      ∃ file, file ∈ dataAdds commit.actions ∧ row ∈ file.rows
  ordered : ∀ earlier later, earlier < later → ∀ first second, first ∈ arrived earlier →
    second ∈ arrived later → ∀ time time', timestamp first = some time →
      timestamp second = some time' → time ≤ time'
  bounded : ∀ (version : Nat) (commit : Commit ρ), source.commits[version]? = some commit →
    ∀ file, file ∈ dataAdds commit.actions → ∀ like bound,
      bounds.maxOfFile column like file = some bound → ∀ row, row ∈ file.rows → ∀ time,
        timestamp row = some time →
          ∃ reached, bounds.boundOfScalar time = some reached ∧ bound.lt reached = false

variable (source : DeltaLog ρ) (bounds : TimestampBounds T) (column : String)
  (timestamp : ρ → Option T) (arrived : Nat → List ρ) (watermark : T) (fallback maxScan : Nat)

variable {source bounds column timestamp arrived watermark fallback maxScan}

end Arriving

/-! ### A source with a deletion -/

end Ddi
