/-
The resumable log-diff reader: one call of `nextBatch` walks the source log from
the cursor, skipping what carries no new rows, until a limit, a held version, a
refused commit or the head ends the batch.
-/

import Ddi.Error
import Mathlib.Algebra.GroupWithZero.Nat

namespace Ddi.Source

open Ddi.Delta

variable {ρ : Type}

/-- How a commit that removes data is treated. -/
inductive ChangePolicy
  | fail
  | skipChangeCommits
  | ignoreChanges
  deriving DecidableEq

inductive CommitClass
  | data (adds : Nat)
  | compaction
  | change (adds : Nat)
  | noData
  deriving DecidableEq

/-- The `dataChange` adds of a commit, in log order. -/
def dataAdds (actions : List (Action ρ)) : List (AddFile ρ) :=
  actions.filterMap fun action =>
    match action with
    | .add file => if file.dataChange then some file else none
    | _ => none

def dataRemoves (actions : List (Action ρ)) : List RemoveFile :=
  actions.filterMap fun action =>
    match action with
    | .remove file => if file.dataChange then some file else none
    | _ => none

def touchesFiles (actions : List (Action ρ)) : Bool :=
  actions.any fun action =>
    match action with
    | .add _ => true
    | .remove _ => true
    | _ => false

def classify (actions : List (Action ρ)) : CommitClass :=
  let adds := (dataAdds actions).length
  if 0 < (dataRemoves actions).length then .change adds
  else if 0 < adds then .data adds
  else if touchesFiles actions then .compaction
  else .noData

/-- A bounded set of files, and the cursor to persist once they are durable. -/
structure LogBatch (ρ : Type) where
  start : StreamCursor
  end_ : StreamCursor
  files : List (AddFile ρ)
  /-- The source version that added each entry of `files`. -/
  fileVersions : List Nat
  schema : String
  throughVersion : Nat
  throughLogTimestamp : Option Nat

structure LogStreamBuilder where
  sourceUri : String
  cursor : StreamCursor
  maxFilesPerBatch : Nat
  maxBytesPerBatch : Nat
  policy : ChangePolicy
  allowCommitSplitting : Bool
  pinLookupSnapshots : Bool
  schemaCache : List (Nat × String)
  head : Option Nat
  /-- A version of the source log this stream has seen exist. -/
  versionFloor : Nat
  /-- The last version this stream may read until released. -/
  stopAfter : Option Nat
  /-- The newest version this stream has loaded, and the table id there. -/
  identity : Option (Nat × String)

namespace LogStreamBuilder

/-- A reader of the table as it stands, at its defaults. -/
def new (sourceUri : String) (log : DeltaLog ρ) : LogStreamBuilder where
  sourceUri := sourceUri
  cursor := StreamCursor.atVersion 0
  maxFilesPerBatch := 1000
  maxBytesPerBatch := 256 * 1024 * 1024
  policy := .fail
  allowCommitSplitting := false
  pinLookupSnapshots := false
  schemaCache := []
  head := none
  versionFloor := log.head
  stopAfter := none
  identity := (log.metadataAt log.head).bind fun metadata =>
    metadata.id.map fun id => (log.head, id)

def withStartingCursor (stream : LogStreamBuilder) (cursor : StreamCursor) : LogStreamBuilder :=
  { stream with cursor := cursor }

def withStartingVersion (stream : LogStreamBuilder) (version : Nat) : LogStreamBuilder :=
  { stream with cursor := StreamCursor.atVersion version }

def withMaxFilesPerBatch (stream : LogStreamBuilder) (count : Nat) : LogStreamBuilder :=
  { stream with maxFilesPerBatch := max count 1 }

def withMaxBytesPerBatch (stream : LogStreamBuilder) (count : Nat) : LogStreamBuilder :=
  { stream with maxBytesPerBatch := max count 1 }

def withChangePolicy (stream : LogStreamBuilder) (policy : ChangePolicy) : LogStreamBuilder :=
  { stream with policy := policy }

def withCommitSplitting (stream : LogStreamBuilder) (yes : Bool) : LogStreamBuilder :=
  { stream with allowCommitSplitting := yes }

def withPinnedLookupSnapshots (stream : LogStreamBuilder) (yes : Bool) : LogStreamBuilder :=
  { stream with pinLookupSnapshots := yes }

def withStopAfter (stream : LogStreamBuilder) (version : Option Nat) : LogStreamBuilder :=
  { stream with stopAfter := version }

def releaseStop (stream : LogStreamBuilder) : LogStreamBuilder :=
  { stream with stopAfter := none }

/-- The most bytes a batch already carrying something may reach, under the memory
budget's advice of the moment. -/
def combinedCeiling (stream : LogStreamBuilder) (budget : Option Nat) : Nat :=
  match budget with
  | some bytes => min stream.maxBytesPerBatch bytes
  | none => stream.maxBytesPerBatch

def replaced (stream : LogStreamBuilder) (detail : String) : Error :=
  .sourceReplaced stream.sourceUri detail

/-- Refuses a table just loaded that is not the one this stream has been reading, and
otherwise remembers it as the newest version known to be. -/
def checkIdentity (log : DeltaLog ρ) (stream : LogStreamBuilder) (version : Nat)
    (now : Option String) : Except Error LogStreamBuilder :=
  match now with
  | none => .ok stream
  | some now =>
    match stream.identity with
    | none => .ok stream
    | some (seenAt, was) =>
      if was = now then .ok { stream with identity := some (version, now) }
      else
        match log.logState (some seenAt) with
        | .error error => .error (.delta error)
        | .ok state =>
          if state.metadata.id = some was then
            .ok { stream with identity := some (version, now) }
          else .error (stream.replaced s!"its table id changed from {was} to {now}")

def latestVersion (log : DeltaLog ρ) (stream : LogStreamBuilder) :
    Except Error Nat × LogStreamBuilder :=
  match log.getLatestVersion stream.versionFloor with
  | .ok latest => (.ok latest, { stream with versionFloor := latest })
  | .error _ =>
    match log.logState none with
    | .error error => (.error (.delta error), stream)
    | .ok state =>
      if state.version < stream.versionFloor then
        (.error (stream.replaced s!"its head is now version {state.version}, below version {
          stream.versionFloor} which this stream had already seen"), stream)
      else
        match checkIdentity log stream state.version state.metadata.id with
        | .error error => (.error error, stream)
        | .ok stream =>
          let stream := { stream with versionFloor := state.version }
          match log.getLatestVersion state.version with
          | .ok latest => (.ok latest, stream)
          | .error error => (.error (.delta error), stream)

/-- The schema as of a version, cached; a version not yet cached is where a recreated
table is noticed. -/
def schemaAt (log : DeltaLog ρ) (stream : LogStreamBuilder) (version : Nat) :
    Except Error (String × LogStreamBuilder) :=
  match stream.schemaCache.lookup version with
  | some schema => .ok (schema, stream)
  | none =>
    match log.logState (some version) with
    | .error error => .error (.delta error)
    | .ok state =>
      match checkIdentity log stream state.version state.metadata.id with
      | .error error => .error error
      | .ok stream =>
        let kept := if 8 < stream.schemaCache.length then [] else stream.schemaCache
        .ok (state.metadata.schemaString,
          { stream with schemaCache := (version, state.metadata.schemaString) :: kept })

end LogStreamBuilder

/-- What a commit asks of a reader under a change policy. -/
inductive Emission (ρ : Type)
  | skip
  | refuse
  | emit (adds : List (AddFile ρ))

def emission (policy : ChangePolicy) (actions : List (Action ρ)) : Emission ρ :=
  match classify actions, policy with
  | .compaction, _ => .skip
  | .noData, _ => .skip
  | .change _, .fail => .refuse
  | .change _, .skipChangeCommits => .skip
  | .change _, .ignoreChanges => .emit (dataAdds actions)
  | .data _, _ => .emit (dataAdds actions)

/-- The size of a file as the batch limits count it. -/
def addBytes (file : AddFile ρ) : Nat := file.size.toNat

def totalBytes (files : List (AddFile ρ)) : Nat := (files.map addBytes).sum

/-- How many files of an oversized commit fit one batch, before the guaranteed first. -/
def takeFitting (maxFiles maxBytes : Nat) : List (AddFile ρ) → Nat → Nat → Nat
  | [], take, _ => take
  | file :: rest, take, takenBytes =>
    if maxFiles < take + 1 ∨ (maxBytes < takenBytes + addBytes file ∧ 0 < take) then take
    else takeFitting maxFiles maxBytes rest (take + 1) (takenBytes + addBytes file)

/-- What one call has gathered so far. -/
structure Gathered (ρ : Type) where
  files : List (Nat × AddFile ρ)
  bytes : Nat
  cursor : StreamCursor
  through : Option Nat
  throughLogTimestamp : Option Nat

inductive Visit (ρ : Type)
  | fail (error : Error)
  | stop (gathered : Gathered ρ)
  | next (gathered : Gathered ρ)

/-- One turn of the loop for a commit whose adds are emitted. -/
def admitCommit (log : DeltaLog ρ) (stream : LogStreamBuilder) (budget : Option Nat)
    (gathered : Gathered ρ) (adds : List (AddFile ρ)) : Visit ρ :=
  let version := gathered.cursor.version
  match adds.find? AddFile.deletionVector with
  | some file => .fail (.deletionVectorUnsupported version file.path)
  | none =>
    -- resume mid-commit: drop what a previous batch already consumed
    let already := min gathered.cursor.index adds.length
    let remaining := adds.drop already
    if remaining.isEmpty then .next { gathered with cursor := gathered.cursor.nextVersion }
    else
      let commitBytes := totalBytes remaining
      let ceiling :=
        if gathered.files.isEmpty then stream.maxBytesPerBatch else stream.combinedCeiling budget
      let timestamp :=
        if stream.pinLookupSnapshots then (log.readCommit version).map Commit.lastModified
        else gathered.throughLogTimestamp
      if gathered.files.length + remaining.length ≤ stream.maxFilesPerBatch ∧
          gathered.bytes + commitBytes ≤ ceiling then
        let gathered : Gathered ρ :=
          { files := gathered.files ++ remaining.map (Prod.mk version)
            bytes := gathered.bytes + commitBytes
            cursor := gathered.cursor.nextVersion
            through := some version
            throughLogTimestamp := timestamp }
        if stream.pinLookupSnapshots then .stop gathered else .next gathered
      else if !gathered.files.isEmpty then .stop gathered
      else if !stream.allowCommitSplitting then
        .fail (.commitTooLarge version remaining.length commitBytes
          stream.maxFilesPerBatch stream.maxBytesPerBatch)
      else
        let fitting := takeFitting stream.maxFilesPerBatch stream.maxBytesPerBatch remaining 0 0
        let take := min (max fitting 1) remaining.length
        .stop
          { files := gathered.files ++ (remaining.take take).map (Prod.mk version)
            bytes := gathered.bytes
            cursor := gathered.cursor.advancedBy take
            through := some version
            throughLogTimestamp := timestamp }

/-- One turn of the loop. -/
def visit (log : DeltaLog ρ) (stream : LogStreamBuilder) (budget : Option Nat)
    (gathered : Gathered ρ) : Visit ρ :=
  match log.readCommitEntry gathered.cursor.version with
  | none =>
    if gathered.files.isEmpty then
      .fail (.cursorUnavailable stream.sourceUri gathered.cursor)
    else .stop gathered
  | some actions =>
    match emission stream.policy actions with
    | .skip => .next { gathered with cursor := gathered.cursor.nextVersion }
    | .refuse => .fail (.changeCommit gathered.cursor.version)
    | .emit adds => admitCommit log stream budget gathered adds

/-- The loop, over the versions left to read: a turn either ends it or moves the cursor
to the next version. -/
def gather (log : DeltaLog ρ) (stream : LogStreamBuilder) (budget : Option Nat) :
    Nat → Gathered ρ → Except Error (Gathered ρ)
  | 0, gathered => .ok gathered
  | left + 1, gathered =>
    match visit log stream budget gathered with
    | .fail error => .error error
    | .stop gathered => .ok gathered
    | .next gathered => gather log stream budget left gathered

/-- Hands over what a call gathered; a call that gathered nothing only moves the cursor. -/
def deliver (log : DeltaLog ρ) (stream : LogStreamBuilder) (gathered : Gathered ρ) :
    Except Error (Option (LogBatch ρ)) × LogStreamBuilder :=
  if gathered.files.isEmpty then (.ok none, { stream with cursor := gathered.cursor })
  else
    let throughVersion := gathered.through.getD stream.cursor.version
    match stream.schemaAt log throughVersion with
    | .error error => (.error error, stream)
    | .ok (schema, loaded) =>
      (.ok (some
        { start := stream.cursor
          end_ := gathered.cursor
          files := gathered.files.map Prod.snd
          fileVersions := gathered.files.map Prod.fst
          schema := schema
          throughVersion := throughVersion
          throughLogTimestamp := gathered.throughLogTimestamp }),
        { loaded with cursor := gathered.cursor })

/-- The last version a call may read. -/
def readableThrough (stopAfter : Option Nat) (latest : Nat) : Nat :=
  match stopAfter with
  | some stop => min stop latest
  | none => latest

/-- A call once the head is known. -/
def pull (log : DeltaLog ρ) (budget : Option Nat) (latest : Nat) (stream : LogStreamBuilder) :
    Except Error (Option (LogBatch ρ)) × LogStreamBuilder :=
  let readable := readableThrough stream.stopAfter latest
  if readable < stream.cursor.version then (.ok none, stream)
  else
    let empty : Gathered ρ :=
      { files := [], bytes := 0, cursor := stream.cursor, through := none,
        throughLogTimestamp := none }
    match gather log stream budget (readable + 1 - stream.cursor.version) empty with
    | .error error => (.error error, stream)
    | .ok gathered => deliver log stream gathered

/-- Pulls the next bounded batch, `none` when caught up. -/
def nextBatch (log : DeltaLog ρ) (budget : Option Nat) (stream : LogStreamBuilder) :
    Except Error (Option (LogBatch ρ)) × LogStreamBuilder :=
  match stream.latestVersion log with
  | (.error error, stream) => (.error error, stream)
  | (.ok latest, stream) => pull log budget latest { stream with head := some latest }

end Ddi.Source
