/-
Registers kept in a log: each entry writes some of them, and the newest write of
a register is its value.

A writer plans an entry from a snapshot and names the registers it relies on.
The entry is let through when nothing after the snapshot wrote any of these, so
that each of them still has the value it had at the snapshot.
-/

import Mathlib.Tactic.Common

namespace Registers

variable {K V : Type} [DecidableEq K]

abbrev Writes (K V : Type) := List (K × V)

/-- The newest value written to a register. -/
def read : List (Writes K V) → K → Option V
  | [], _ => none
  | entry :: later, key => (read later key).or (entry.lookup key)

/-- Nothing after the snapshot wrote one of the registers. -/
def unwritten (log : List (Writes K V)) (snapshot : Nat) (keys : List K) : Bool :=
  (log.drop snapshot).all fun entry => keys.all fun key => (entry.lookup key).isNone

theorem read_append (log later : List (Writes K V)) (key : K) :
    read (log ++ later) key = (read later key).or (read log key) := by
  induction log with
  | nil =>
      change read later key = (read later key).or none
      rw [Option.or_none]
  | cons entry log ih =>
      change (read (log ++ later) key).or _ = _
      rw [ih, Option.or_assoc]
      rfl

theorem read_of_silent {log : List (Writes K V)} {key : K}
    (silent : ∀ entry, entry ∈ log → entry.lookup key = none) : read log key = none := by
  induction log with
  | nil => rfl
  | cons entry log ih =>
      change (read log key).or _ = none
      rw [ih fun other member => silent other (List.mem_cons_of_mem _ member),
        silent entry List.mem_cons_self]
      rfl

theorem read_snoc (log : List (Writes K V)) (entry : Writes K V) (key : K) :
    read (log ++ [entry]) key = (entry.lookup key).or (read log key) := by
  rw [read_append]
  rfl

theorem read_snoc_of_write {log : List (Writes K V)} {entry : Writes K V} {key : K} {value : V}
    (writes : entry.lookup key = some value) : read (log ++ [entry]) key = some value := by
  rw [read_snoc, writes]
  rfl

theorem read_snoc_of_silent {log : List (Writes K V)} {entry : Writes K V} {key : K}
    (silent : entry.lookup key = none) : read (log ++ [entry]) key = read log key := by
  rw [read_snoc, silent]
  rfl

/-- What is let through finds each of its registers as its snapshot had it. -/
theorem read_of_unwritten {log : List (Writes K V)} {snapshot : Nat} {keys : List K}
    (free : unwritten log snapshot keys = true) {key : K} (relied : key ∈ keys) :
    read log key = read (log.take snapshot) key := by
  have silent : read (log.drop snapshot) key = none := by
    apply read_of_silent
    intro entry member
    have quiet := List.all_eq_true.mp (List.all_eq_true.mp free entry member) key relied
    exact Option.isNone_iff_eq_none.mp quiet
  have whole := read_append (log.take snapshot) (log.drop snapshot) key
  rw [List.take_append_drop, silent, Option.none_or] at whole
  exact whole

end Registers
