/-
The slice of the target a merge looks at: the lowest sequence of any file that could hold a key of
the batch, and no lower than the lookback allows.
-/

import Ddi.Error
import Ddi.Merge.Bounds
import Mathlib.Algebra.Group.Int.Defs
import Mathlib.Algebra.Group.Nat.Defs
import Mathlib.Data.List.Sort

namespace Ddi.Merge

variable {F : Type}

/-- The arithmetic of doubles the window uses. -/
structure Doubles (F : Type) where
  add : F → F → F
  sub : F → F → F
  nextUp : F → F
  nextDown : F → F
  /-- `as i64`, which saturates. -/
  toInt : F → Int

/-! ### Slack -/

/-- How far a bound may lie from the value it stands for. -/
inductive Slack (F : Type)
  /-- A DECIMAL: one unit of the column's scale, and a few doubles beyond it. -/
  | decimal (unit : F)
  /-- A maximum that is a whole millisecond stands for up to 999 microseconds more. -/
  | millisecond

namespace Slack

def ulps : Nat := 16

def truncatedMicros : Int := 999

variable (doubles : Doubles F)

/-- The lowest value a bound could stand for. -/
def below (slack : Slack F) (bound : Bound F) : Bound F :=
  match slack, bound with
  | decimal unit, .float value => .float (doubles.nextDown^[ulps] (doubles.sub value unit))
  | _, other => other

/-- The highest value a bound could stand for. -/
def above (slack : Slack F) (bound : Bound F) : Bound F :=
  match slack, bound with
  | decimal unit, .float value => .float (doubles.nextUp^[ulps] (doubles.add value unit))
  | millisecond, .int micros =>
      if micros % 1000 = 0 then .int (min (micros + truncatedMicros) (2 ^ 63 - 1))
      else .int micros
  | _, other => other

end Slack

/-- The statistics recorded for one column of one file, read in the shape of the column's values. -/
structure ColumnStats (F : Type) where
  min : Option (Bound F)
  max : Option (Bound F)

def ColumnStats.loosened (doubles : Doubles F) (stats : ColumnStats F) (slack : Option (Slack F)) :
    ColumnStats F :=
  match slack with
  | none => stats
  | some slack =>
      { min := stats.min.map (slack.below doubles)
        max := stats.max.map (slack.above doubles) }

/-! ### Lookback -/

/-- The furthest back the window is allowed to reach. -/
inductive Lookback (F : Type)
  /-- A span of time, in microseconds. -/
  | duration (micros : Int)
  /-- A plain offset, for a numeric sequence column. -/
  | offset (number : F)

/-- A difference of two 64-bit numbers, as near as there is one. -/
def saturatingSub (value less : Int) : Int :=
  max (-(2 ^ 63)) (min (value - less) (2 ^ 63 - 1))

/-- The lookback subtracted from a bound; none when the two do not belong together. -/
def Lookback.floorBelow (doubles : Doubles F) (lookback : Lookback F) (from_ : Bound F)
    (sequenceIsTemporal : Bool) : Option (Bound F) :=
  match lookback, from_ with
  | duration micros, .int value =>
      if sequenceIsTemporal then some (.int (saturatingSub value micros)) else none
  | offset number, .int value =>
      if sequenceIsTemporal then none else some (.int (saturatingSub value (doubles.toInt number)))
  | offset number, .float value => some (.float (doubles.sub value number))
  | _, _ => none

/-! ### The batch -/

variable [LinearOrder F]

/-- Consecutive repeats removed. -/
def dedup : List (Bound F) → List (Bound F)
  | [] => []
  | [key] => [key]
  | key :: next :: rest => if key = next then dedup (next :: rest) else key :: dedup (next :: rest)

/-- What one batch holds in the two columns the window is drawn from. -/
structure BatchBounds (F : Type) [LinearOrder F] where
  /-- Every distinct key in the batch, in order. -/
  keys : List (Bound F)
  sorted : keys.Pairwise (· < ·)
  /-- The oldest sequence in the batch. -/
  sequenceMin : Bound F
  keySlack : Option (Slack F)
  sequenceSlack : Option (Slack F)

theorem mem_dedup (keys : List (Bound F)) (key : Bound F) : key ∈ dedup keys ↔ key ∈ keys := by
  induction keys with
  | nil => rfl
  | cons head keys ih =>
      cases keys with
      | nil => rfl
      | cons next rest =>
          unfold dedup
          by_cases same : head = next
          · rw [if_pos same, ih, same]
            simp
          · rw [if_neg same, List.mem_cons, ih, ← List.mem_cons]

theorem dedup_sorted (keys : List (Bound F)) (sorted : keys.Pairwise (· ≤ ·)) :
    (dedup keys).Pairwise (· < ·) := by
  induction keys with
  | nil => exact List.Pairwise.nil
  | cons head keys ih =>
      cases keys with
      | nil => exact List.pairwise_singleton _ _
      | cons next rest =>
          obtain ⟨least, tail_sorted⟩ := List.pairwise_cons.mp sorted
          unfold dedup
          by_cases same : head = next
          · rw [if_pos same]
            exact ih tail_sorted
          · rw [if_neg same]
            apply List.pairwise_cons.mpr
            constructor
            · intro key member
              rw [mem_dedup] at member
              have under : head < next :=
                lt_of_le_of_ne (least next List.mem_cons_self) same
              rcases List.mem_cons.mp member with rfl | later
              · exact under
              · exact lt_of_lt_of_le under ((List.pairwise_cons.mp tail_sorted).1 key later)
            · exact ih tail_sorted

/-- The bounds of a collapsed batch, whose keys and sequences are not null. -/
def BatchBounds.of (rows : List (Bound F × Bound F)) (keySlack sequenceSlack : Option (Slack F)) :
    Option (BatchBounds F) :=
  match rows with
  | [] => none
  | first :: rest =>
      some {
        keys := dedup ((rows.map Prod.fst).insertionSort (· ≤ ·))
        sorted := dedup_sorted _ (List.pairwise_insertionSort _ _)
        sequenceMin := rest.foldl (fun least row => if row.2 < least then row.2 else least) first.2
        keySlack
        sequenceSlack }

/-! ### The window -/

/-- A live file of the target, with the key and the sequence of each of its rows. -/
structure TargetFile (F : Type) where
  /-- Nothing where the file records none; nothing within where its text is not JSON. -/
  stats : Option (Option (String → ColumnStats F))
  rows : List (Option (Bound F) × Option (Bound F))

structure Window (F : Type) where
  /-- Lower bound on the sequence column; none for the whole target. -/
  lower : Option (Bound F)
  clamped : Bool
  candidateFiles : Nat
  examinedFiles : Nat
  unboundedBecause : Option String

def Window.unbounded (why : String) (examined : Nat) : Window F :=
  { lower := none
    clamped := false
    candidateFiles := 0
    examinedFiles := examined
    unboundedBecause := some why }

/-- What the statistics of one file say. -/
inductive Verdict (F : Type)
  | unanswered (why : String)
  /-- It provably holds none of the keys. -/
  | excluded
  | candidate (sequenceMin : Bound F)

section Plan

variable (doubles : Doubles F) (keyColumn sequenceColumn : String) (bounds : BatchBounds F)

def verdict (file : TargetFile F) : Verdict F :=
  match file.stats with
  | none => .unanswered "the file records no statistics"
  | some none => .unanswered "the file's statistics are unreadable"
  | some (some columns) =>
      let keys := (columns keyColumn).loosened doubles bounds.keySlack
      match keys.min, keys.max with
      | some keyMin, some keyMax =>
          if rangeTouchesAny keyMin keyMax bounds.keys then
            match ((columns sequenceColumn).loosened doubles bounds.sequenceSlack).min with
            | some sequenceMin => .candidate sequenceMin
            | none => .unanswered "no statistics for the sequence column"
          else .excluded
      | _, _ => .unanswered "no statistics for the key column"

/-- The running bound after the files, the candidates and the files seen; or why there is none. -/
inductive Drawn (F : Type)
  | opened (why : String) (examined : Nat)
  | drawn (lower : Option (Bound F)) (candidates examined : Nat)

/-- Whether the running bound has sunk to the floor. -/
def atFloor (floor : Option (Bound F)) (lower : Bound F) : Bool :=
  match floor with
  | some floor => decide (lower ≤ floor)
  | none => false

/-- Whether a running bound is already as low as a file's minimum. -/
def coversAlready (lower : Option (Bound F)) (sequenceMin : Bound F) : Bool :=
  match lower with
  | some current => decide (current ≤ sequenceMin)
  | none => false

def draw (floor lower : Option (Bound F)) (candidates examined : Nat) :
    List (TargetFile F) → Drawn F
  | [] => .drawn lower candidates examined
  | file :: files =>
      match verdict doubles keyColumn sequenceColumn bounds file with
      | .unanswered why => .opened why (examined + 1)
      | .excluded => draw floor lower candidates (examined + 1) files
      | .candidate sequenceMin =>
          if coversAlready lower sequenceMin then
            draw floor lower (candidates + 1) (examined + 1) files
          -- Nothing further can lower the answer.
          else if atFloor floor sequenceMin then
            .drawn (some sequenceMin) (candidates + 1) (examined + 1)
          else draw floor (some sequenceMin) (candidates + 1) (examined + 1) files

def lookbackMisfit (sequenceColumn : String) : Error :=
  .config <| s!"upsert_lookback does not fit the sequence column {sequenceColumn}: a timestamp column "
    ++ "needs a duration (\"48h\"), a numeric one needs a bare number (\"10000\"), and a text one "
    ++ "cannot be offset at all."

/-- The floor a lookback sets under the batch's oldest sequence, if there is a lookback. -/
def floorOf (lookback : Option (Lookback F)) (sequenceIsTemporal : Bool) :
    Except Error (Option (Bound F)) :=
  match lookback with
  | none => .ok none
  | some lookback =>
      match lookback.floorBelow doubles bounds.sequenceMin sequenceIsTemporal with
      | some floor => .ok (some floor)
      | none => .error (lookbackMisfit sequenceColumn)

/-- Decide how far back the merge has to reach. -/
def plan (files : List (TargetFile F)) (lookback : Option (Lookback F))
    (sequenceIsTemporal : Bool) : Except Error (Window F) :=
  match floorOf doubles sequenceColumn bounds lookback sequenceIsTemporal with
  | .error error => .error error
  | .ok floor =>
      match draw doubles keyColumn sequenceColumn bounds floor none 0 0 files with
      | .opened why examined => .ok (Window.unbounded why examined)
      | .drawn lower candidates examined =>
          let lower := lower.getD bounds.sequenceMin
          let clamped := match floor with
            | some floor => decide (lower < floor)
            | none => false
          .ok {
            lower := some (bif clamped then floor.getD lower else lower)
            clamped
            candidateFiles := candidates
            examinedFiles := examined
            unboundedBecause := none }

end Plan

end Ddi.Merge
