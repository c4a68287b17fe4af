/-
The order in which a `java.util.HashMap` iterates its keys, found without one, and that map itself
to compare it with.
-/

import Ddi.Lib.Bins

namespace Ddi.Jsonval

/-! ### The order -/

/-- The UTF-16 code units of a character. -/
def encodeUtf16 (c : Char) : List UInt16 :=
  if c.toNat < 0x10000 then [UInt16.ofNat c.toNat]
  else
    let beyond := c.toNat - 0x10000
    [UInt16.ofNat (0xD800 + beyond / 0x400), UInt16.ofNat (0xDC00 + beyond % 0x400)]

/-- `String.hashCode()`, in 32 bits that wrap. -/
def javaStringHash (key : String) : Int32 :=
  (key.toList.flatMap encodeUtf16).foldl (fun hash unit => hash * 31 + Int32.ofNat unit.toNat) 0

/-- A key's hash with its upper half folded into the lower. -/
def spread (key : String) : UInt32 :=
  let hash := (javaStringHash key).toUInt32
  hash ^^^ (hash >>> 16)

def treeifyThreshold : Nat := 8

def minTreeifyCapacity : Nat := 64

/-- A table of chains of indexes. -/
structure Table where
  capacity : Nat
  slots : List (List Nat)

namespace Table

variable (spreads : List UInt32)

/-- The slot of an index in a table of so many. -/
def slotOf (capacity index : Nat) : Nat := (spreads.getD index 0).toNat &&& (capacity - 1)

def empty : Table := { capacity := 16, slots := List.replicate 16 [] }

/-- Twice the slots, every chain put into them anew. -/
def resize (table : Table) : Table :=
  let capacity := table.capacity * 2
  { capacity
    slots := table.slots.foldl (fun next chain => chain.foldl (fun next index =>
      next.modify (slotOf spreads capacity index) fun chain => chain ++ [index]) next)
      (List.replicate capacity []) }

def insert (table : Table) (index : Nat) : Table :=
  let slot := slotOf spreads table.capacity index
  let chainBefore := (table.slots.getD slot []).length
  let table := { table with slots := table.slots.modify slot fun chain => chain ++ [index] }
  let table :=
    if treeifyThreshold ≤ chainBefore && table.capacity < minTreeifyCapacity then
      resize spreads table
    else table
  if index + 1 > table.capacity * 3 / 4 then resize spreads table else table

end Table

/-- The order in which a map that the keys are put into iterates them, as indexes of the keys. -/
def javaHashmapOrder (keys : List String) : List Nat :=
  ((List.range keys.length).foldl (Table.insert (keys.map spread)) Table.empty).slots.flatten

end Ddi.Jsonval

/-! ### The map -/

namespace Ddi.Java

open Ddi.Jsonval (spread)

structure Node where
  hash : UInt32
  key : String
  value : Nat

/-- A map of bins of nodes, none of which has become a tree. -/
structure HashMap where
  table : List (List Node)
  size : Nat
  threshold : Nat

namespace HashMap

def new : HashMap := { table := List.replicate 16 [], size := 0, threshold := 12 }

/-- Twice the bins: each is split in two by the next bit of the hash, in order. -/
def resize (map : HashMap) : HashMap :=
  let capacity := map.table.length
  { map with
    table := map.table.map (List.filter fun node => node.hash.toNat &&& capacity = 0) ++
      map.table.map (List.filter fun node => node.hash.toNat &&& capacity ≠ 0)
    threshold := map.threshold * 2 }

/-- A key that is there gets the value; another is appended to its bin. A bin of eight that gets
one more is made a tree, unless the table is small, which is doubled instead. `none` where a tree
is made. -/
def put (map : HashMap) (key : String) (value : Nat) : Option HashMap :=
  let hash := spread key
  let slot := (map.table.length - 1) &&& hash.toNat
  let bin := map.table.getD slot []
  if bin.any fun node => node.hash == hash && node.key == key then
    some { map with
      table := map.table.modify slot fun bin => bin.map fun node =>
        if node.hash == hash && node.key == key then { node with value } else node }
  else
    let node : Node := { hash, key, value }
    let map := { map with table := map.table.modify slot fun bin => bin ++ [node] }
    let held :=
      if 8 ≤ bin.length then if map.table.length < 64 then some map.resize else none
      else some map
    held.map fun map =>
      let map := { map with size := map.size + 1 }
      if map.threshold < map.size then map.resize else map

/-- The map that keys are put into one after another, each with its place. -/
def ofKeys (keys : List String) : Option HashMap :=
  keys.zipIdx.foldlM (fun map entry => map.put entry.1 entry.2) new

/-- The values bin by bin, and along each bin. -/
def iterate (map : HashMap) : List Nat := map.table.flatten.map Node.value

end HashMap

/-! ### How large it grows -/

section Growth

variable (place : Nat → Nat)

/-- A ninth item in a bin of a small table doubles it. -/
def doubledByBin (index capacity : Nat) : Nat :=
  if 9 ≤ (Bins.bin place capacity (List.range (index + 1)) (place index % capacity)).length ∧
      capacity < 64 then 2 * capacity
  else capacity

/-- More than three quarters double it. -/
def doubledByLoad (count capacity : Nat) : Nat :=
  if capacity * 3 / 4 < count then 2 * capacity else capacity

/-- The bins of the table once so many items are in it. -/
def capacityAfter : Nat → Nat
  | 0 => 16
  | index + 1 => doubledByLoad (index + 1) (doubledByBin place index (capacityAfter index))

/-- How many bins the table has from when an item is in it until the next is put. -/
def capacities (index : Nat) : List Nat :=
  [capacityAfter place index, doubledByBin place index (capacityAfter place index),
    capacityAfter place (index + 1)]

/-- At some time a bin of a table of 64 or more holds nine items. -/
def Crowded (count : Nat) : Prop :=
  ∃ index, index < count ∧ ∃ capacity ∈ capacities place index, 64 ≤ capacity ∧
    ∃ slot, 9 ≤ (Bins.bin place capacity (List.range (index + 1)) slot).length

end Growth

/-- The hash of a key by its index. -/
def placeOf (keys : List String) (index : Nat) : Nat := (spread (keys.getD index "")).toNat

end Ddi.Java
