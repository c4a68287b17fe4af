/-
Whether a target holds one row per key, found out without holding the target.

Every pass hashes the key column and keeps the hashes of one congruence class;
hashes that come twice are nominated, and a second scan resolves them against
the keys themselves. A class that holds too many distinct keys is split.
-/

import Ddi.Error
import Ddi.Lib.Repeats
import Mathlib.Data.Fin.Basic
import Mathlib.Data.List.Sort
import Mathlib.Data.String.Basic

namespace Ddi.GrainCheck

abbrev Hash := Fin (2 ^ 64)

/-! ### The ceiling -/

structure Ceiling where
  bytes : Nat

namespace Ceiling

def usableNum : Nat := 7

def usableDen : Nat := 8

/-- A guess, for a target whose log records no row counts. -/
def assumedBytesPerRow : Nat := 64

/-- How many eight-byte hashes one pass may hold; the product wraps. -/
def hashesPerPass (ceiling : Ceiling) : Nat := ceiling.bytes * usableNum % 2 ^ 64 / usableDen / 8

end Ceiling

/-- How many classes to start with. -/
def initialModulus (rows : Option Nat) (bytes : Nat) (ceiling : Ceiling) : Nat :=
  let cap := max ceiling.hashesPerPass 1
  let est := rows.getD (bytes / Ceiling.assumedBytesPerRow)
  let want := min (est * 101) (2 ^ 64 - 1) / 100
  max ((want + cap - 1) / cap) 1

/-! ### Classes -/

/-- The keys whose hash is congruent to the residue. -/
structure Class where
  modulus : Nat
  residue : Nat
  inside : residue < modulus

namespace Class

def holds (kind : Class) (hash : Hash) : Bool := decide (hash.val % kind.modulus = kind.residue)

/-- The two classes that make up this one; none where the modulus leaves the sixty-four bits. -/
def split (kind : Class) : Option (Class × Class) :=
  if kind.modulus * 2 < 2 ^ 64 then
    some
      ({ modulus := kind.modulus * 2
         residue := kind.residue
         inside := by have inside := kind.inside; omega },
        { modulus := kind.modulus * 2
          residue := kind.residue + kind.modulus
          inside := by have inside := kind.inside; omega })
  else none

/-- The classes a check starts with. -/
def first (modulus : Nat) : List Class :=
  (List.finRange modulus).map fun residue =>
    { modulus := modulus, residue := residue.val, inside := residue.isLt }

end Class

/-! ### One pass -/

/-- A key the target holds more than once, as it is shown, and how many times. -/
structure Duplicate where
  key : String
  rows : Nat
  deriving DecidableEq

def Duplicate.le (left right : Duplicate) : Prop :=
  left.key < right.key ∨ (left.key = right.key ∧ left.rows ≤ right.rows)

instance : DecidableRel Duplicate.le := fun left right =>
  inferInstanceAs
    (Decidable (left.key < right.key ∨ (left.key = right.key ∧ left.rows ≤ right.rows)))

/-- What a pass holds: hashes seen once since they were last compacted, and those seen twice. -/
structure Buffer where
  hashes : List Hash
  nominated : List Hash

/-- Moves every hash seen at least twice to the nominated ones. -/
def compact (buffer : Buffer) : Buffer :=
  let sorted := buffer.hashes.insertionSort (· ≤ ·)
  let nominated :=
    Repeats.dedup ((buffer.nominated ++ Repeats.repeated sorted).insertionSort (· ≤ ·))
  { hashes := (Repeats.dedup sorted).filter fun hash => decide (hash ∉ nominated)
    nominated }

/-- What a check reads: the log's row count and file sizes, and the encoded keys of each scan. -/
structure Target (K : Type) where
  keyColumn : String
  rows : Option Nat
  bytes : Nat
  /-- The encoded keys in the order that one scan comes to them. -/
  scan : Nat → Except Error (List K)
  /-- A key as text, `NULL` for a null. -/
  shown : K → String
  /-- A number of bytes as text. -/
  display : Nat → String

variable {K : Type}

/-- The hashes of a class as they come, compacted whenever the buffer is full; none when it stays
too full for that. -/
def scanKeys (cap : Nat) (kind : Class) (hash : K → Hash) : List K → Buffer → Option Buffer
  | [], buffer => some buffer
  | key :: rest, buffer =>
    if kind.holds (hash key) then
      let pushed := { buffer with hashes := buffer.hashes ++ [hash key] }
      if pushed.hashes.length + pushed.nominated.length < cap then
        scanKeys cap kind hash rest pushed
      else
        let compacted := compact pushed
        if cap - cap / 4 < compacted.hashes.length + compacted.nominated.length then none
        else scanKeys cap kind hash rest compacted
    else scanKeys cap kind hash rest buffer

inductive PassOutcome
  | overflowed
  | candidates (hashes : List Hash)

/-- One pass over the target, by the scan of a number. -/
def scanClass (target : Target K) (hash : K → Hash) (ceiling : Ceiling) (kind : Class)
    (at_ : Nat) : Except Error PassOutcome :=
  match target.scan at_ with
  | .error error => .error error
  | .ok keys =>
    match scanKeys (max ceiling.hashesPerPass 1) kind hash keys
        { hashes := [], nominated := [] } with
    | none => .ok .overflowed
    | some buffer => .ok (.candidates (compact buffer).nominated)

/-! ### Resolving what was nominated -/

variable [DecidableEq K]

def verifyChunk : Nat := 4096

def chunks {α : Type} (size : Nat) (items : List α) : List (List α) :=
  (List.range ((items.length + size - 1) / size)).map fun index =>
    (items.drop (index * size)).take size

/-- One row more of a key. -/
def countKey (key : K) : List (K × Nat) → List (K × Nat)
  | [] => [(key, 1)]
  | (known, count) :: rest =>
    if key = known then (known, count + 1) :: rest else (known, count) :: countKey key rest

/-- The keys of one scan whose hashes are in a chunk, with how many rows carry each. -/
def seenKeys (hash : K → Hash) (chunk : List Hash) (keys : List K) : List (K × Nat) :=
  (keys.filter fun key => decide (hash key ∈ chunk)).foldl (fun seen key => countKey key seen) []

def duplicatesIn (target : Target K) (seen : List (K × Nat)) : List Duplicate :=
  ((seen.filter fun entry => decide (1 < entry.2)).map fun entry =>
    { key := target.shown entry.1, rows := entry.2 }).insertionSort Duplicate.le

/-- The chunks one after another, until there are as many duplicates as wanted. -/
def verifyChunks (target : Target K) (hash : K → Hash) (wanted : Nat) :
    List (List Hash) → Nat → List Duplicate → Except Error (List Duplicate × Nat)
  | [], at_, out => .ok (out, at_)
  | chunk :: rest, at_, out =>
    match target.scan at_ with
    | .error error => .error error
    | .ok keys =>
      let out := out ++ duplicatesIn target (seenKeys hash chunk keys)
      if wanted ≤ out.length then .ok (out, at_ + 1)
      else verifyChunks target hash wanted rest (at_ + 1) out

/-- Nominated hashes resolved against the keys that have them. -/
def verify (target : Target K) (hash : K → Hash) (candidates : List Hash) (wanted at_ : Nat) :
    Except Error (List Duplicate × Nat) :=
  verifyChunks target hash wanted (chunks verifyChunk candidates) at_ []

/-! ### The check -/

def maxPasses : Nat := 256

def ceilingOnPasses : Nat := maxPasses * 4

inductive Grain
  | unique (rows : Option Nat) (passes : Nat)
  | duplicated (examples : List Duplicate) (passes : Nat)
  deriving DecidableEq

def tooManyPasses (target : Target K) (ceiling : Ceiling) (modulus : Nat) : Error :=
  .config (
    s!"the startup uniqueness check on {repr target.keyColumn} would need about {modulus} "
      ++ s!"passes over the target's key column at the current [runtime] max_grain_check_memory of "
      ++ s!"{target.display ceiling.bytes}, and the target holds "
      ++ (match target.rows with
        | some rows => toString rows
        | none => s!"an estimated {target.bytes / Ceiling.assumedBytesPerRow}")
      ++ " rows. That is a cost, not a failure — the check writes nothing to disk and cannot "
      ++ "exhaust anything — but it would take hours on every start, so it is refused rather than "
      ++ "run silently. Raise runtime.max_grain_check_memory (each doubling halves the passes; "
      ++ "\"4GB\" would make this about "
      ++ toString (initialModulus target.rows target.bytes { bytes := 4 * 1024 * 1024 * 1024 })
      ++ "), or set upsert_grain_check = \"off\" on this pipeline if you already know the target "
      ++ "holds one row per key. Nothing has been read and no other pipeline was touched.")

def stillSplitting (target : Target K) (passes : Nat) : Error :=
  .config (
    s!"the startup uniqueness check on {repr target.keyColumn} has read the target {passes} times "
      ++ "and is still splitting the key space, which means the hash is landing far more keys in "
      ++ "one class than in the others rather than that the target is large. Raise "
      ++ "runtime.max_grain_check_memory so a class fits, or set upsert_grain_check = \"off\" on "
      ++ "this pipeline. Nothing was written and no other pipeline was stopped.")

def cannotSplit (target : Target K) : Error :=
  .config (
    s!"the startup uniqueness check on {repr target.keyColumn} divided the key space as far as it "
      ++ "can and one class is still too large. That should not be reachable — a class is only "
      ++ "split for distinct keys, and splitting halves those — so this is a bug in ddi rather "
      ++ "than a fact about your target. Set upsert_grain_check = \"off\" on this pipeline to "
      ++ "start it while it is investigated. Nothing was written and no other pipeline was "
      ++ "stopped.")

/-- Pass after pass over the classes that wait, with so many passes left: the duplicates found and
the passes it took. -/
def passes (target : Target K) (hash : K → Hash) (ceiling : Ceiling) (examples : Nat) :
    Nat → List Class → List Duplicate → Nat → Except Error (List Duplicate × Nat)
  | left, [], found, _ => .ok (found, ceilingOnPasses - left)
  | 0, _ :: _, _, _ => .error (stillSplitting target ceilingOnPasses)
  | left + 1, kind :: queue, found, at_ =>
    match scanClass target hash ceiling kind at_ with
    | .error error => .error error
    | .ok .overflowed =>
      match kind.split with
      | none => .error (cannotSplit target)
      | some (low, high) =>
        passes target hash ceiling examples left (low :: high :: queue) found (at_ + 1)
    | .ok (.candidates candidates) =>
      if candidates.isEmpty then passes target hash ceiling examples left queue found (at_ + 1)
      else
        match verify target hash candidates (examples - found.length) (at_ + 1) with
        | .error error => .error error
        | .ok (resolved, at_) =>
          if examples ≤ (found ++ resolved).length then
            .ok (found ++ resolved, ceilingOnPasses - left)
          else passes target hash ceiling examples left queue (found ++ resolved) at_

/-- Does a target hold a key more than once? -/
def checkWith (target : Target K) (ceiling : Ceiling) (examples : Nat) (hash : K → Hash) :
    Except Error Grain :=
  let modulus := initialModulus target.rows target.bytes ceiling
  if maxPasses < modulus then .error (tooManyPasses target ceiling modulus)
  else
    match passes target hash ceiling examples ceilingOnPasses (Class.first modulus) [] 0 with
    | .error error => .error error
    | .ok (found, passes) =>
      if found.isEmpty then .ok (.unique target.rows passes)
      else .ok (.duplicated (found.take examples) passes)

end Ddi.GrainCheck
