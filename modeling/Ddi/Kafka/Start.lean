/-
Where a partition starts reading: its offset in the target against what the topic
holds now.
-/

import Ddi.Kafka.Partitions

namespace Ddi.Kafka

/-- Where a partition without an offset starts. -/
inductive NoTxnStart
  | explicit (offset : Int)
  | zero
  | unavailable (wanted low : Int)
  | regressed (wanted high : Int)
  deriving DecidableEq

def startWithoutOffset (low high : Int) (explicit : Option Int) : NoTxnStart :=
  match explicit with
  | some wanted =>
      if wanted < low then .unavailable wanted low
      else if high < wanted then .regressed wanted high
      else .explicit wanted
  | none => if low = 0 then .zero else .unavailable 0 low

inductive Start
  | ready (offset : Int) (reread : Option Reread)
  | blocked (block : Block)
  deriving DecidableEq

/-- The re-read of a stored offset: checked where a mark describes it. -/
def rereadAt (mark : Option MessageMark) (stored : Int) : Reread :=
  match mark.filter fun mark => mark.offset == stored with
  | some mark => .expect mark
  | none => .unverifiable stored

def resolve (stored : Option Int) (mark : Option MessageMark) (low high : Int)
    (explicit : Option Int) : Start :=
  match stored with
  | some base =>
      if base + 1 < low then .blocked (.unavailable (base + 1) low)
      else if base + 1 = low then .ready (base + 1) none
      else if high ≤ base then .blocked (.regressed base high)
      else .ready base (some (rereadAt mark base))
  | none =>
      match startWithoutOffset low high explicit with
      | .explicit offset => .ready offset none
      | .zero => .ready 0 none
      | .unavailable wanted low => .blocked (.unavailable wanted low)
      | .regressed wanted high => .blocked (.regressed (wanted - 1) high)

/-- The first offset a partition without one reads: its `starting_offsets` entry, or 0. -/
def firstOffset (explicit : Option Int) : Int := explicit.getD 0

/-- The offset before the first one to take. -/
def accounted (stored explicit : Option Int) : Int := stored.getD (firstOffset explicit - 1)

theorem rereadAt_offset (mark : Option MessageMark) (stored : Int) :
    (rereadAt mark stored).offset = stored := by
  unfold rereadAt
  cases kept : mark.filter fun mark => mark.offset == stored with
  | none => rfl
  | some mark => exact eq_of_beq (Option.filter_eq_some_iff.mp kept).2

/-- A partition that starts is at its stored offset, to read it again, or at the next one. -/
theorem resolve_ready {stored : Option Int} {mark : Option MessageMark} {low high : Int}
    {explicit : Option Int} {offset : Int} {reread : Option Reread}
    (starts : resolve stored mark low high explicit = .ready offset reread) :
    low ≤ accounted stored explicit + 1 ∧
      (reread = none ∧ offset = accounted stored explicit + 1 ∨
        stored = some offset ∧ reread = some (rereadAt mark offset)) := by
  unfold resolve at starts
  cases stored with
  | some base =>
      simp only at starts
      by_cases trimmed : base + 1 < low
      · rw [if_pos trimmed] at starts
        cases starts
      · rw [if_neg trimmed] at starts
        constructor
        · exact Int.not_lt.mp trimmed
        · by_cases next : base + 1 = low
          · rw [if_pos next] at starts
            cases starts
            exact Or.inl ⟨rfl, rfl⟩
          · rw [if_neg next] at starts
            by_cases past : high ≤ base
            · rw [if_pos past] at starts
              cases starts
            · rw [if_neg past] at starts
              cases starts
              exact Or.inr ⟨rfl, rfl⟩
  | none =>
      unfold startWithoutOffset at starts
      unfold accounted firstOffset
      cases explicit with
      | some wanted =>
          simp only at starts
          by_cases trimmed : wanted < low
          · rw [if_pos trimmed] at starts
            cases starts
          · rw [if_neg trimmed] at starts
            by_cases past : high < wanted
            · rw [if_pos past] at starts
              cases starts
            · rw [if_neg past] at starts
              cases starts
              simp only [Option.getD_none, Option.getD_some]
              exact ⟨by omega, Or.inl ⟨trivial, by omega⟩⟩
      | none =>
          simp only at starts
          by_cases whole : low = 0
          · rw [if_pos whole] at starts
            cases starts
            simp only [Option.getD_none]
            exact ⟨by omega, Or.inl ⟨trivial, by omega⟩⟩
          · rw [if_neg whole] at starts
            cases starts

end Ddi.Kafka
