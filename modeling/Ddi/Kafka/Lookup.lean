/-
The newest transaction of each application id as of one version of a table: the head
commit, the commits down to a checkpoint, the checkpoint, and the marks below it.
-/

import Ddi.Delta.Log
import Ddi.Kafka.Open

namespace Ddi.Kafka.Lookup

open Ddi.Delta (Json)

/-! ### Commits -/

structure TxnAction where
  appId : String
  version : Int
  deriving DecidableEq

/-- The keys of a commit's info that are read here. -/
structure LineInfo where
  appId : Option Json := none
  marks : Option Json := none

/-- One line of a commit or of a checkpoint in JSON, reduced to the two actions read here. -/
structure LogLine where
  txn : Option TxnAction := none
  info : Option LineInfo := none

/-- What the store answers for a commit, whenever it answers. -/
inductive Served
  /-- The lines, unless they are not valid JSON. -/
  | file (lines : Option (List LogLine))
  | missing
  /-- An error that reading it again gives again. -/
  | refused

def asI64 : Json → Option Int
  | .num value => if -2 ^ 63 ≤ value ∧ value < 2 ^ 63 then some value else none
  | _ => none

def asU32 (value : Json) : Option Nat := value.asU64.filter fun value => decide (value < 2 ^ 32)

/-- The mark recorded for the partition a transaction names, when it describes the offset the
transaction holds. -/
def markFor (marks : Option Json) (appId : String) (txn : TxnAction) : Option MessageMark :=
  match partitionOf appId txn.appId with
  | none => none
  | some partition =>
      match (marks.bind fun marks => marks.get (toString partition)).bind Json.asArray with
      | some [offset, timestamp, length] =>
          match asI64 offset, asI64 timestamp, asU32 length with
          | some offset, some timestampMs, some valueLen =>
              if offset = txn.version then some { offset, timestampMs, valueLen } else none
          | _, _, _ => none
      | _ => none

/-- A commit's info: that of its last line with any. -/
def infoOf (lines : List LogLine) : Option LineInfo :=
  lines.foldl (fun info line => line.info.or info) none

/-- The mark a commit records for one of its transactions, when it is a commit of ours. -/
def recordedMark (lines : List LogLine) (txn : TxnAction) : Option MessageMark :=
  (((infoOf lines).bind (·.appId)).bind Json.asStr).bind fun appId =>
    markFor ((infoOf lines).bind (·.marks)) appId txn

/-- What a commit says of one of its transactions. -/
def stateOf (lines : List LogLine) (txn : TxnAction) : TxnState where
  version := some txn.version
  mark := recordedMark lines txn

abbrev Found := List (String × TxnState)

inductive LookupError
  | txnRetention
  | notJson (version : Nat)
  /-- A commit the walk needs is gone. -/
  | offsetLogTruncated (version : Nat)
  | store (why : String)
  deriving DecidableEq

/-- The wanted transactions a commit writes, unless a newer commit already did. -/
def recordCommit (version : Nat) (file : Option (List LogLine)) (wanted : List String)
    (found : Found) : Except LookupError Found :=
  match file with
  | none => .error (.notJson version)
  | some lines =>
      .ok (((lines.filterMap (·.txn)).filter fun txn =>
          wanted.contains txn.appId && (found.lookup txn.appId).isNone).foldl
        (fun found txn => Assoc.put txn.appId (stateOf lines txn) found) found)

/-- A transaction of this application id can have a mark beside it. -/
def mayCarryAMark (appId : String) : Bool :=
  match splitLastDash appId.toList with
  | some (before, digits) => (partitionOf (String.ofList before) appId).isSome && !digits.isEmpty
  | none => false

/-! ### Checkpoints -/

/-- A listed file: its path below the log's, and its size. -/
structure Listed where
  path : List String
  size : Nat
  deriving DecidableEq

/-- What a file's name says it is, for the checkpoints. -/
inductive CheckpointFile
  | single
  | uuid
  | part (part parts : Nat)
  deriving DecidableEq

/-- A complete checkpoint: every file that makes it up. -/
structure Checkpoint where
  version : Nat
  files : List Listed
  deriving DecidableEq

/-- The parts of a text between separators. -/
def splitAll (separator : Char) : List Char → List (List Char)
  | [] => [[]]
  | char :: rest =>
      if char = separator then [] :: splitAll separator rest
      else
        match splitAll separator rest with
        | head :: parts => (char :: head) :: parts
        | [] => [[char]]

/-- An unsigned number of so many bits, as text. -/
def parseUnsigned (bits : Nat) (text : List Char) : Option Nat :=
  let digits := match text with
    | '+' :: digits => digits
    | digits => digits
  if digits.isEmpty || !digits.all isAsciiDigit then none
  else if digitsValue digits < 2 ^ bits then some (digitsValue digits)
  else none

def textLength (text : List Char) : Nat := (String.ofList text).utf8ByteSize

def checkpointKind (parts : List String) : Option CheckpointFile :=
  match parts with
  | ["checkpoint", "parquet"] => some .single
  | ["checkpoint", uuid, ending] =>
      if uuid.utf8ByteSize = 36 ∧ (ending = "json" ∨ ending = "parquet") then some .uuid else none
  | ["checkpoint", part, parts, "parquet"] =>
      if part.utf8ByteSize = 10 ∧ parts.utf8ByteSize = 10 then
        match parseUnsigned 32 part.toList, parseUnsigned 32 parts.toList with
        | some part, some parts =>
            if part = 0 ∨ parts < part then none else some (.part part parts)
        | _, _ => none
      else none
  | _ => none

/-- A listed file as a checkpoint's, with the version it is of. -/
def checkpointFile (file : Listed) : Option (Nat × CheckpointFile) :=
  match file.path with
  | [name] =>
      match (splitAll '.' name.toList).map String.ofList with
      | version :: parts =>
          if version.utf8ByteSize ≠ 20 then none
          else
            match parseUnsigned 64 version.toList with
            | none => none
            | some version => (checkpointKind parts).map fun kind => (version, kind)
      | [] => none
  | _ => none

/-- Twenty digits. -/
def paddedVersion (version : Nat) : String :=
  let digits := Nat.toDigits 10 version
  String.ofList (List.replicate (20 - digits.length) '0' ++ digits)

/-- The files a listing from an offset gives, in whatever order. -/
def listWithOffset (offset : String) (listing : List Listed) : List Listed :=
  listing.filter fun file => decide (offset < String.intercalate "/" file.path)

/-- The checkpoint files of each version. -/
def byVersion (files : List (Nat × CheckpointFile × Listed)) :
    List (Nat × List (CheckpointFile × Listed)) :=
  files.foldl
    (fun known entry =>
      Ordered.insert entry.1 ((known.lookup entry.1).getD [] ++ [entry.2]) known) []

/-- The parts of the checkpoints in several files, by how many there should be. -/
def partSets (files : List (CheckpointFile × Listed)) : List (Nat × List (Nat × Listed)) :=
  files.foldl
    (fun sets entry =>
      match entry.1 with
      | .part part parts =>
          Ordered.insert parts (Ordered.insert part entry.2 ((sets.lookup parts).getD [])) sets
      | _ => sets) []

/-- A complete checkpoint among the files of one version. -/
def complete (version : Nat) (files : List (CheckpointFile × Listed)) : Option Checkpoint :=
  let single (want : CheckpointFile) : Option Checkpoint :=
    (files.find? fun entry => entry.1 == want).map fun entry => { version, files := [entry.2] }
  match (single .single).or (single .uuid) with
  | some found => some found
  | none =>
      ((partSets files).find? fun set => set.2.length == set.1).map fun set =>
        { version, files := set.2.map Prod.snd }

/-- The newest complete checkpoint with a version in a range. -/
def checkpointBetween (listing : List Listed) (low high : Nat) : Option Checkpoint :=
  let files := (listWithOffset (paddedVersion low) listing).filterMap fun file =>
    match checkpointFile file with
    | some (version, kind) =>
        if low ≤ version ∧ version ≤ high ∧ 0 < file.size then some (version, kind, file) else none
    | none => none
  (byVersion files).reverse.findSome? fun entry => complete entry.1 entry.2

/-- Listed from here without a hint. -/
def listingWindow : Nat := 1000

/-- Where to list from: the version the hint names, unless the handle has not reached it. -/
def listFrom (hint : Option Nat) (version : Nat) : Nat :=
  match hint with
  | some hint => if hint ≤ version then hint else version - (listingWindow - 1)
  | none => version - (listingWindow - 1)

/-- The newest complete checkpoint at or below a version. -/
def newestCheckpoint (hint : Option Nat) (listing : List Listed) (version : Nat) :
    Option Checkpoint :=
  match checkpointBetween listing (listFrom hint version) version with
  | some found => some found
  | none =>
      if listFrom hint version = 0 then none else checkpointBetween listing 0 version

/-! ### What one read sees of a table -/

/-- A row of a checkpoint's transaction column, absent for another kind of action. -/
abbrev TxnRow := Option (String × Option Int)

/-- A table as a read finds it, with everything the store and the kernel would answer. -/
structure View where
  /-- `delta.setTransactionRetentionDuration` is set. -/
  retention : Bool := false
  /-- The version `_last_checkpoint` names, if it is there and can be read. -/
  hint : Except String (Option Nat) := .ok none
  listing : Except String (List Listed) := .ok []
  served : Nat → Served
  /-- The commits whose read meets a store fault that may pass. -/
  outage : Nat → Bool := fun _ => false
  /-- A checkpoint file in JSON. -/
  json : Listed → Except String (List LogLine) := fun _ => .error "not found"
  /-- The transaction column of a checkpoint file in parquet. -/
  parquet : Listed → Except String (List TxnRow) := fun _ => .error "not found"
  /-- The version the kernel finds for an application id. -/
  kernel : String → Except String (Option Int) := fun _ => .error "no snapshot"

namespace View

variable (view : View)

def readCommit (version : Nat) : Except LookupError (Option (Option (List LogLine))) :=
  if view.outage version then .error (.store "outage")
  else
    match view.served version with
    | .file lines => .ok (some lines)
    | .missing => .ok none
    | .refused => .error (.store "refused")

def parquetTxns : List TxnRow → Except String (List (String × Int))
  | [] => .ok []
  | none :: rows => parquetTxns rows
  | some (appId, none) :: _ => .error s!"its txn for appId {appId} has no version"
  | some (appId, some version) :: rows => do
      let txns ← parquetTxns rows
      return (appId, version) :: txns

/-- Every transaction of one file of a checkpoint. -/
def fileTxns (file : Listed) : Except String (List (String × Int)) :=
  if ".json".toList.isSuffixOf (file.path.getLastD "").toList then do
    let lines ← view.json file
    return (lines.filterMap (·.txn)).map fun txn => (txn.appId, txn.version)
  else do
    let rows ← view.parquet file
    parquetTxns rows

/-- One file's transactions with the others': of one application id they may not differ. -/
def addTxns (wanted : List String) (txns : List (String × Int)) :
    List (String × Int) → Except String (List (String × Int))
  | [] => .ok txns
  | (id, version) :: rest =>
      if !wanted.contains id then addTxns wanted txns rest
      else
        match txns.lookup id with
        | some other =>
            if other ≠ version then
              .error s!"it holds two txns for appId {id}, versions {other} and {version}"
            else addTxns wanted (Assoc.put id version txns) rest
        | none => addTxns wanted (Assoc.put id version txns) rest

/-- The version each wanted application id has in a checkpoint. -/
def checkpointTxns (wanted : List String) (txns : List (String × Int)) :
    List Listed → Except String (List (String × Int))
  | [] => .ok txns
  | file :: files => do
      let inFile ← view.fileTxns file
      let txns ← addTxns wanted txns inFile
      checkpointTxns wanted txns files

def kernelLookups (found : Found) : List String → Except LookupError Found
  | [] => .ok found
  | id :: ids =>
      match view.kernel id with
      | .error why => .error (.store why)
      | .ok none => kernelLookups found ids
      | .ok (some version) =>
          kernelLookups (Assoc.put id { version := some version } found) ids

/-! ### The walk -/

def allFound (wanted : List String) (found : Found) : Bool := found.length == wanted.length

/-- What one commit of the walk adds. -/
def passCommit (wanted : List String) (checkpointed : Bool) (bottom version : Nat)
    (found : Found) : Except LookupError Found := do
  match ← view.readCommit version with
  | some file => recordCommit version file wanted found
  | none =>
      -- Whatever the commit at the checkpoint's version held, the checkpoint holds.
      if checkpointed ∧ version = bottom then .ok found
      else .error (.offsetLogTruncated version)

/-- The commits from `bottom + count - 1` down to `bottom`; whether they were enough. -/
def walkCommits (wanted : List String) (checkpointed : Bool) (bottom : Nat) :
    Nat → Found → Except LookupError (Found × Bool)
  | 0, found => .ok (found, false)
  | count + 1, found => do
      let found ← view.passCommit wanted checkpointed bottom (bottom + count) found
      if allFound wanted found then .ok (found, true)
      else walkCommits wanted checkpointed bottom count found

def locateCheckpoint (head : Nat) : Except LookupError (Option Checkpoint) :=
  match view.hint, view.listing with
  | .ok hint, .ok listing => .ok (newestCheckpoint hint listing head)
  | .error why, _ => .error (.store why)
  | _, .error why => .error (.store why)

/-- What the head's commit says, and whether it is there. -/
def walkHead (head : Nat) (wanted : List String) : Except LookupError (Found × Bool) := do
  match ← view.readCommit head with
  | some file =>
      let found ← recordCommit head file wanted []
      return (found, true)
  | none => return ([], false)

/-- The walk down to a checkpoint, which is given back when something is still to be found. -/
def walkDown (head : Nat) (wanted : List String) :
    Except LookupError (Found × Option Checkpoint) := do
  let (found, headRead) ← view.walkHead head wanted
  if headRead && allFound wanted found then .ok (found, none)
  else do
    let checkpoint ← view.locateCheckpoint head
    if !headRead && checkpoint.map (·.version) != some head then .error (.offsetLogTruncated head)
    else do
      let bottom := checkpoint.elim 0 (·.version)
      let (found, enough) ←
        view.walkCommits wanted checkpoint.isSome bottom (head - bottom) found
      .ok (found, if enough then none else checkpoint)

/-- What the checkpoint says of the application ids still missing, or the kernel. -/
def readCheckpoint (checkpoint : Checkpoint) (rest : List String) (found : Found) :
    Except LookupError Found :=
  match view.checkpointTxns rest [] checkpoint.files with
  | .ok txns =>
      .ok (txns.foldl
        (fun found txn => Assoc.put txn.1 { version := some txn.2 } found) found)
  | .error _ => view.kernelLookups found rest

/-! ### The marks below the checkpoint -/

/-- What the walk below one checkpoint found for each offset it went after. -/
structure Memo where
  checkpoint : Option Nat := none
  found : List (String × Int × Option MessageMark) := []
  deriving DecidableEq

/-- At most this many commits are read below a checkpoint. -/
def belowCheckpointReads : Nat := 256

/-- The mark already known for an answer, if it was for the version answered. -/
def remembered (memo : Memo) (id : String) (answer : TxnState) : Option (Option MessageMark) :=
  match memo.found.lookup id with
  | some (version, mark) => if answer.version = some version then some mark else none
  | none => none

/-- What is still to be looked for, with the marks already known in their places. -/
def recalled (memo : Memo) : List String → Found → List String × Found
  | [], found => ([], found)
  | id :: ids, found =>
      match found.lookup id with
      | none => recalled memo ids found
      | some answer =>
          match remembered memo id answer with
          | some mark => recalled memo ids (Assoc.put id { answer with mark } found)
          | none =>
              let (kept, found) := recalled memo ids found
              (id :: kept, found)

/-- The walk below a checkpoint: what it is still after, and what it has found. -/
structure Below where
  answered : List String
  found : Found
  memo : Memo

/-- One transaction met below the checkpoint, the newest there of its application id. -/
def Below.meet (below : Below) (id : String) (written : TxnState) : Below :=
  match below.found.lookup id with
  | some answer =>
      match answer.version with
      | some version =>
          -- Another version is of an older transaction than the one answered.
          let mark := if written.version = answer.version then written.mark else answer.mark
          { answered := below.answered.filter fun other => other ≠ id
            found := Assoc.put id { answer with mark } below.found
            memo := { below.memo with found := Assoc.put id (version, mark) below.memo.found } }
      | none => { below with answered := below.answered.filter fun other => other ≠ id }
  | none => { below with answered := below.answered.filter fun other => other ≠ id }

/-- The walk has ended: what was not met has no mark. -/
def Below.giveUp (below : Below) : Below :=
  { below with
    memo := { below.memo with
      found := below.answered.foldl
        (fun found id =>
          match (below.found.lookup id).bind (·.version) with
          | some version => Assoc.put id (version, none) found
          | none => found) below.memo.found } }

/-- The commits from `floor + count - 1` down to `floor`. -/
def walkBelow (floor : Nat) : Nat → Below → Except LookupError Unit × Below
  | 0, below => (.ok (), below.giveUp)
  | count + 1, below =>
      if view.outage (floor + count) then (.error (.store "outage"), below)
      else
        match view.served (floor + count) with
        | .file (some lines) =>
            match recordCommit (floor + count) (some lines) below.answered [] with
            | .error error => (.error error, below)
            | .ok met =>
                let below := met.foldl (fun below entry => below.meet entry.1 entry.2) below
                if below.answered.isEmpty then (.ok (), below)
                else walkBelow floor count below
        -- Below a gap, or a commit that cannot be used, a transaction is not known to be the
        -- newest.
        | _ => (.ok (), below.giveUp)

/-- The memo of a walk below one checkpoint; another checkpoint's is of no use. -/
def startMemo (bottom : Nat) (memo : Memo) : Memo :=
  if memo.checkpoint ≠ some bottom then { checkpoint := some bottom } else memo

def belowCheckpoint (bottom : Nat) (answered : List String) (found : Found) (memo : Memo) :
    Except LookupError Found × Memo :=
  let memo := startMemo bottom memo
  let known := recalled memo answered found
  if known.1.isEmpty then (.ok known.2, memo)
  else
    let walked := view.walkBelow (bottom - belowCheckpointReads)
      (bottom - (bottom - belowCheckpointReads)) { answered := known.1, found := known.2, memo }
    (walked.1.map fun _ => walked.2.found, walked.2.memo)

/-- The answers of a read. -/
def answers (wanted : List String) (found : Found) : List (String × TxnState) :=
  wanted.map fun id => (id, (found.lookup id).getD {})

/-- Every transaction wanted, from the commits and the checkpoint; and the checkpoint's version
with what may have a mark below it. -/
def walkVersions (head : Nat) (wanted : List String) :
    Except LookupError (Found × Option (Nat × List String)) := do
  let (found, checkpoint) ← view.walkDown head wanted
  match checkpoint with
  | none => .ok (found, none)
  | some checkpoint => do
      let rest := wanted.filter fun id => (found.lookup id).isNone
      let found ← view.readCheckpoint checkpoint rest found
      let answered := rest.filter fun id => (found.lookup id).isSome && mayCarryAMark id
      .ok (found, some (checkpoint.version, answered))

/-- Every transaction wanted, with the marks when the caller has a memo to keep them in. -/
def walk (head : Nat) (wanted : List String) (memo : Option Memo) :
    Except LookupError Found × Option Memo :=
  match view.walkVersions head wanted with
  | .error error => (.error error, memo)
  | .ok (found, none) => (.ok found, memo)
  | .ok (found, some (bottom, answered)) =>
      match memo with
      | none => (.ok found, none)
      | some held =>
          if answered.isEmpty then (.ok found, some held)
          else
            let below := view.belowCheckpoint bottom answered found held
            (below.1, some below.2)

/-- Every application id asked about, with its newest transaction at the head's version. -/
def read (head : Nat) (appIds : List String) (memo : Option Memo) :
    Except LookupError (List (String × TxnState)) × Option Memo :=
  let wanted := appIds.dedup
  if view.retention then (.error .txnRetention, memo)
  else if wanted.isEmpty then (.ok [], memo)
  else
    let walked := view.walk head wanted memo
    (walked.1.map (answers wanted), walked.2)

/-- A read that keeps nothing between calls. -/
def readTxns (head : Nat) (appIds : List String) :
    Except LookupError (List (String × TxnState)) :=
  (view.read head appIds (some {})).1

end View

end Ddi.Kafka.Lookup
