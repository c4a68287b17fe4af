/-
What a member knows about each partition it owns, and the batch it is filling.

A partition is ready, with the next offset it expects, or blocked on something an
operator has to settle. A partition resumed at its stored offset reads that
offset again and compares it with what was recorded for it, before it takes
anything after it.
-/

import Ddi.Lib.Assoc

namespace Ddi.Kafka

/-- The message a commit recorded beside an offset. -/
structure MessageMark where
  offset : Int
  timestampMs : Int
  valueLen : Nat
  deriving DecidableEq

/-- What a partition's resume checks on the message at its stored offset. -/
inductive Reread
  /-- It must have this timestamp and length. -/
  | expect (mark : MessageMark)
  /-- No mark was recorded for this offset: the message there is dropped unchecked. -/
  | unverifiable (offset : Int)
  deriving DecidableEq

def Reread.offset : Reread → Int
  | expect mark => mark.offset
  | unverifiable offset => offset

/-- Why a partition is paused until an operator acts. -/
inductive Block
  | unavailable (wanted low : Int)
  | regressed (stored high : Int)
  | replaced (recorded found : MessageMark)
  /-- Assigned while the target's offsets could not be read. -/
  | unresolved
  deriving DecidableEq

/-- One owned partition. -/
inductive State
  | ready (nextExpected start : Int) (reread : Option Reread)
  | blocked (block : Block)
  deriving DecidableEq

inductive Dropped
  | notOwned
  | blocked
  | duplicate
  | reread
  deriving DecidableEq

/-- What is decided about one message. -/
inductive Admit
  | take (gap : Int)
  | drop (why : Dropped)
  | block (block : Block)
  deriving DecidableEq

/-- The partitions a member owns. -/
abbrev Partitions := List (Int × State)

namespace Partitions

def readyAt (parts : Partitions) (partition offset : Int) (reread : Option Reread) : Partitions :=
  Assoc.put partition (.ready offset offset reread) parts

def block (parts : Partitions) (partition : Int) (why : Block) : Partitions :=
  Assoc.put partition (.blocked why) parts

def owned (parts : Partitions) : List Int := parts.map Prod.fst

/-- The new state of a ready partition and the decision about the message at `mark.offset`. -/
def admitReady (nextExpected start : Int) (reread : Option Reread) (mark : MessageMark) :
    State × Admit :=
  match reread with
  | some expected =>
      if mark.offset = expected.offset then
        match expected with
        | .expect recorded =>
            if (recorded.timestampMs, recorded.valueLen) ≠ (mark.timestampMs, mark.valueLen) then
              (.ready nextExpected start reread, .block (.replaced recorded mark))
            else (.ready (mark.offset + 1) start none, .drop .reread)
        | .unverifiable _ => (.ready (mark.offset + 1) start none, .drop .reread)
      else if mark.offset < expected.offset then
        (.ready nextExpected start reread, .drop .duplicate)
      else
        -- the stored offset is not there to read again: nothing to compare it with
        (.ready (mark.offset + 1) start none, .take (mark.offset - (expected.offset + 1)))
  | none =>
      if mark.offset < nextExpected then (.ready nextExpected start none, .drop .duplicate)
      else (.ready (mark.offset + 1) start none, .take (mark.offset - nextExpected))

/-- Decide what to do with a message, and move the partition's expectations on. -/
def admitMessage (parts : Partitions) (partition : Int) (mark : MessageMark) : Partitions × Admit :=
  match parts.lookup partition with
  | none => (parts, .drop .notOwned)
  | some (.blocked _) => (parts, .drop .blocked)
  | some (.ready nextExpected start reread) =>
      let decided := admitReady nextExpected start reread mark
      (Assoc.put partition decided.1 parts, decided.2)

end Partitions

/-- What a batch being filled has read of each partition. -/
structure Buffer where
  ranges : List (Int × Int × Int) := []
  marks : List (Int × MessageMark) := []
  messages : Nat := 0
  deriving DecidableEq

namespace Buffer

def isEmpty (buf : Buffer) : Bool := buf.messages == 0

/-- Account for a message taken into the batch. -/
def take (buf : Buffer) (partition : Int) (mark : MessageMark) : Buffer where
  ranges := Assoc.put partition
    (match buf.ranges.lookup partition with
      | some range => (range.1, mark.offset)
      | none => (mark.offset, mark.offset)) buf.ranges
  marks := Assoc.put partition mark buf.marks
  messages := buf.messages + 1

end Buffer

end Ddi.Kafka
