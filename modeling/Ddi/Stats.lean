/-
Per-file statistics of the Delta log, reduced to something comparable with the
values of a column. DOUBLE and DECIMAL bounds, which are floating point in the
source, are left out.
-/

import Ddi.Delta.Log
import Mathlib.Data.String.Basic

namespace Ddi

open Ddi.Delta

inductive Bound
  | int (value : Int)
  | text (value : String)
  deriving DecidableEq

/-- The derived order of the variants: numbers among themselves, then text. -/
def Bound.lt : Bound → Bound → Bool
  | .int left, .int right => decide (left < right)
  | .int _, .text _ => true
  | .text _, .int _ => false
  | .text left, .text right => decide (left < right)

/-- Below, allowing for a text that was cut short: one that starts the other proves nothing. -/
def Bound.provablyBelow : Bound → Bound → Bool
  | .text left, .text right =>
    decide (left < right) && !left.toList.isPrefixOf right.toList
  | left, right => left.lt right

namespace Bound

theorem lt_of_not_lt {low middle high : Bound} (atMost : middle.lt low = false)
    (below : middle.lt high = true) : low.lt high = true := by
  cases middle with
  | int middle =>
      cases low with
      | text low => cases atMost
      | int low =>
          cases high with
          | text high => rfl
          | int high =>
              have first := of_decide_eq_false atMost
              have second := of_decide_eq_true below
              exact decide_eq_true (by omega)
  | text middle =>
      cases high with
      | int high => cases below
      | text high =>
          cases low with
          | int low => rfl
          | text low =>
              have first := of_decide_eq_false atMost
              have second := of_decide_eq_true below
              exact decide_eq_true (lt_of_le_of_lt (not_lt.mp first) second)

theorem lt_asymm {low high : Bound} (below : low.lt high = true) : high.lt low = false := by
  cases low with
  | int low =>
      cases high with
      | text high => rfl
      | int high =>
          have first := of_decide_eq_true below
          exact decide_eq_false (by omega)
  | text low =>
      cases high with
      | int high => cases below
      | text high => exact decide_eq_false (not_lt_of_gt (of_decide_eq_true below))

theorem lt_irrefl (bound : Bound) : bound.lt bound = false := by
  cases same : bound.lt bound with
  | false => rfl
  | true =>
      rw [lt_asymm same] at same
      cases same

theorem lt_of_provablyBelow {low high : Bound} (below : low.provablyBelow high = true) :
    low.lt high = true := by
  cases low with
  | int low => exact below
  | text low =>
      cases high with
      | int high => exact below
      | text high => exact (Bool.and_eq_true_iff.mp below).1

end Bound

/-- How far a recorded bound may lie from the value it stands for. -/
inductive Slack
  /-- A maximum that is a whole millisecond stands for up to 999 microseconds more. -/
  | millisecond
  deriving DecidableEq

def truncatedMicros : Int := 999

namespace Slack

def below (_slack : Slack) (bound : Bound) : Bound := bound

def above (slack : Slack) (bound : Bound) : Bound :=
  match slack, bound with
  | millisecond, .int micros =>
    if micros % 1000 = 0 then .int (min (micros + truncatedMicros) (2 ^ 63 - 1))
    else .int micros
  | _, other => other

end Slack

/-- One entry of a file's statistics for a column. -/
def statOf (stats : Option Json) (which column : String) : Option Json :=
  (stats.bind fun stats => stats.get which).bind fun values => values.get column

/-- How a timestamp column meets its statistics: its values as bounds in their own order, the
slack of its type, and the spellings of a timestamp that are read. -/
structure TimestampBounds (T : Type) [LT T] where
  boundOfScalar : T → Option Bound
  ordered : ∀ left right low high, boundOfScalar left = some low →
    boundOfScalar right = some high → left < right → low.lt high = true
  slack : Option Slack
  parseTimestampMicros : String → Option Int

namespace TimestampBounds

/-- Where no time has a bound, bounds follow times. -/
theorem ordered_of_none {T : Type} [LT T] (left right : T) (low high : Bound)
    (found : (none : Option Bound) = some low) :
    (none : Option Bound) = some high → left < right → low.lt high = true := by
  cases found

variable {T : Type} [LT T] (bounds : TimestampBounds T)

/-- A statistic, in the shape of a bound already at hand. -/
def boundOfStat (stat : Json) (like : Bound) : Option Bound :=
  match like with
  | .int _ =>
    match stat with
    | .num value => if -(2 ^ 63) ≤ value ∧ value < 2 ^ 63 then some (.int value) else none
    | .str text => (bounds.parseTimestampMicros text).map .int
    | _ => none
  | .text _ => stat.asStr.map .text

def lowest (bound : Bound) : Bound :=
  match bounds.slack with
  | some slack => slack.below bound
  | none => bound

def highest (bound : Bound) : Bound :=
  match bounds.slack with
  | some slack => slack.above bound
  | none => bound

@[simp] theorem lowest_eq (bound : Bound) : bounds.lowest bound = bound := by
  unfold lowest
  cases bounds.slack with
  | none => rfl
  | some slack => rfl

/-- The highest value the statistics of a file allow in a column, if they say. -/
def maxOfFile {ρ : Type} (column : String) (mark : Bound) (file : AddFile ρ) : Option Bound :=
  ((statOf file.stats "maxValues" column).bind fun stat => bounds.boundOfStat stat mark).map
    bounds.highest

/-- The lowest value the statistics of a file allow in a column, if they say. -/
def minOfFile {ρ : Type} (column : String) (mark : Bound) (file : AddFile ρ) : Option Bound :=
  ((statOf file.stats "minValues" column).bind fun stat => bounds.boundOfStat stat mark).map
    bounds.lowest

end TimestampBounds

end Ddi
