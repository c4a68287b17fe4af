/-
What a Kafka pipeline decides before it joins its group: whether it may start on this
target at all, and the commit that records where each partition starts.
-/

import Ddi.Cutoff
import Ddi.Kafka.Takeover
import Ddi.Lib.Ordered
import Mathlib.Algebra.Group.Int.Defs
import Mathlib.Algebra.Group.Nat.Defs
import Mathlib.Data.List.Sort

namespace Ddi.Kafka

/-- A partition's low and high watermarks: the offsets the topic holds, and the next one. -/
structure TopicRange where
  low : Int
  high : Int
  low_nonneg : 0 ≤ low
  low_le_high : low ≤ high

inductive NamedStart
  | earliest
  | latest
  deriving DecidableEq

def NamedStart.offset (range : TopicRange) : NamedStart → Int
  | earliest => range.low
  | latest => range.high

/-- The partitions a configuration lists, with the next offset to read of each. A negative one
is refused when the configuration is read. -/
structure StartEntries where
  entries : List (Int × Int)
  sorted : Ordered.Sorted entries
  nonneg : ∀ entry, entry ∈ entries → 0 ≤ entry.2

/-- Where a fresh application id starts. -/
inductive StartPolicy
  | earliest
  | latest
  | explicit (partitions : StartEntries) (rest : Option NamedStart)

/-- The entries of single partitions, which count as acknowledgments. -/
def StartPolicy.partitions : StartPolicy → List (Int × Int)
  | explicit partitions _ => partitions.entries
  | _ => []

/-- Where every partition of a fresh application id starts. -/
def freshStarts (topic : String) (policy : StartPolicy) (watermarks : List (Int × TopicRange)) :
    Except OpenRefusal (List (Int × Int)) :=
  match policy with
  | .earliest =>
      .ok (watermarks.map fun entry => (entry.1, NamedStart.earliest.offset entry.2))
  | .latest =>
      .ok (watermarks.map fun entry => (entry.1, NamedStart.latest.offset entry.2))
  | .explicit partitions rest =>
      let missing := (watermarks.map Prod.fst).filter fun partition =>
        (partitions.entries.lookup partition).isNone
      match rest with
      | none =>
          if !missing.isEmpty then .error (.kafkaStartingOffsetsIncomplete topic missing)
          else
            .ok (watermarks.filterMap fun entry =>
              (partitions.entries.lookup entry.1).map fun start => (entry.1, start))
      | some rest =>
          .ok (watermarks.map fun entry =>
            (entry.1, (partitions.entries.lookup entry.1).getD (rest.offset entry.2)))

/-- The offsets a fresh start commits. A partition that starts at 0 gets none. -/
def freshBaseline (starts : List (Int × Int)) : Option (List (Int × Int)) :=
  let assert := starts.filterMap fun entry =>
    if 0 < entry.2 then some (entry.1, entry.2 - 1) else none
  if assert.isEmpty then none else some assert

/-! ### The guard against a mistyped application id -/

def takeoverMarkerAppId (appId : String) : String := appId ++ ".ddi"

def isAsciiDigit (char : Char) : Bool := decide ('0' ≤ char ∧ char ≤ '9')

/-- The number decimal digits write. -/
def digitsValue (digits : List Char) : Nat :=
  digits.foldl (fun value digit => 10 * value + (digit.toNat - '0'.toNat)) 0

/-- The partition whose offset a transaction's application id names. -/
def partitionOf (appId txnAppId : String) : Option Int :=
  let lead := appId.toList ++ ['-']
  if lead.isPrefixOf txnAppId.toList then
    let digits := txnAppId.toList.drop lead.length
    if digits.isEmpty || !digits.all isAsciiDigit then none
    else if digitsValue digits < 2 ^ 31 then some (digitsValue digits)
    else none
  else none

/-- What stands before and after the last dash. -/
def splitLastDash : List Char → Option (List Char × List Char)
  | [] => none
  | first :: rest =>
      match splitLastDash rest with
      | some (before, after) => some (first :: before, after)
      | none => if first = '-' then some ([], rest) else none

/-- The application id a transaction's own is written for. -/
def seenAppId (txnAppId : String) : String :=
  match stripSuffix txnAppId ".ddi" with
  | some appId => appId
  | none =>
      match splitLastDash txnAppId.toList with
      | some (before, after) =>
          if !after.isEmpty && after.all isAsciiDigit then String.ofList before else txnAppId
      | none => txnAppId

/-- The next row of the table of distances, from the previous one. -/
def editRow (char : Char) (diagonal left : Nat) : List Char → List Nat → List Nat
  | other :: others, above :: row =>
      let here := min (min (diagonal + if char = other then 0 else 1) (above + 1)) (left + 1)
      here :: editRow char above here others row
  | _, _ => []

def editRows (text other : List Char) (row : List Nat) (index : Nat) : List Nat :=
  match text with
  | [] => row
  | char :: text =>
      let next := (index + 1) :: editRow char (row.headD 0) (index + 1) other row.tail
      editRows text other next (index + 1)

def editDistance (text other : String) : Nat :=
  (editRows text.toList other.toList (List.range (other.toList.length + 1)) 0).getLastD 0

/-- Closer to the application id, or as close and before it. -/
def closer (appId one other : String) : Bool :=
  decide (editDistance one appId < editDistance other appId) ||
    editDistance one appId == editDistance other appId && decide (one ≤ other)

def typoGuard (appId targetUri : String) (dataFiles : Nat) (explicit : Bool)
    (appIds neighbours : List String) : Except OpenRefusal Unit :=
  if dataFiles == 0 || explicit then .ok ()
  else if !appIds.isEmpty && appIds.all fun txn =>
      neighbours.any fun neighbour =>
        (partitionOf neighbour txn).isSome || txn == takeoverMarkerAppId neighbour then .ok ()
  else
    .error (.kafkaAppIdUnknown appId targetUri
      ((appIds.map seenAppId).dedup.insertionSort fun one other => closer appId one other = true))

/-! ### The plan of an open -/

/-- What the open has found out. -/
structure OpenFacts where
  appId : String
  topic : String
  targetUri : String
  /-- Every partition of the topic, with its offset in the target. -/
  stored : List (Int × Option Int)
  stored_sorted : Ordered.Sorted stored
  watermarks : List (Int × TopicRange)
  watermarks_sorted : Ordered.Sorted watermarks
  era : Era
  /-- The era is read from these offsets. -/
  fresh_unstored : era = .fresh → ∀ entry, entry ∈ stored → entry.2 = none
  dataFiles : Nat
  holdsRows : Bool
  policy : StartPolicy
  /-- The pipeline sets `starting_offsets` itself. -/
  explicit : Bool
  kdiCompat : Option Bool
  neighbours : List String
  appIds : List String

/-- What the open decided. -/
structure OpenPlan where
  /-- The offsets to commit, with the takeover marker, before joining the group. -/
  baseline : Option (List (Int × Int))
  kdiCompat : Bool

namespace OpenFacts

variable (facts : OpenFacts)

def highOf (partition : Int) : Int :=
  match facts.watermarks.lookup partition with
  | some range => range.high
  | none => 0

/-- The typo guard, of a fresh application id only. -/
def guardTypo : Except OpenRefusal Unit :=
  if facts.era = .fresh then
    typoGuard facts.appId facts.targetUri facts.dataFiles facts.explicit facts.appIds
      facts.neighbours
  else .ok ()

def checkTakeover : Except OpenRefusal Unit :=
  takeoverCheck facts.appId facts.era facts.holdsRows
    (facts.stored.map fun entry => (entry.1, entry.2, facts.highOf entry.1))
    (facts.policy.partitions.map Prod.fst)

/-- `kdi_compat` as it applies: the setting, or false where it may be left unset. -/
def resolveCompat : Except OpenRefusal Bool :=
  match facts.kdiCompat with
  | some set => .ok set
  | none =>
      if facts.era = .kdi ∨ facts.era = .fresh ∧ facts.holdsRows = true then
        .error (.kafkaCompatUnset facts.appId facts.targetUri (facts.era = .fresh))
      else .ok false

def planBaseline : Except OpenRefusal (Option (List (Int × Int))) :=
  match facts.era with
  | .fresh => do
      let starts ← freshStarts facts.topic facts.policy facts.watermarks
      return freshBaseline starts
  | .kdi => .ok (takeoverBaseline facts.era facts.stored facts.policy.partitions)
  | .ddi => .ok none

def planOpen : Except OpenRefusal OpenPlan := do
  facts.guardTypo
  facts.checkTakeover
  let kdiCompat ← facts.resolveCompat
  let baseline ← facts.planBaseline
  return { baseline, kdiCompat }

end OpenFacts

end Ddi.Kafka
