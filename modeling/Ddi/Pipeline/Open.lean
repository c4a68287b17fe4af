/-
Opening a pipeline: what its own last commit says, where it resumes, whether the
source is still the table it was reading, and which coverage window it starts in.
-/

import Ddi.Offset
import Ddi.Pipeline.Config
import Ddi.Rescan
import Ddi.Target

namespace Ddi

open Ddi.Delta
open Ddi.Source (StreamCursor LogStreamBuilder classify)

variable {ρ τ T K P : Type} [LinearOrder T] [DecidableEq K] [DecidableEq P]

/-- Where a pipeline resumes, whether it has ever committed, and what a rebuild left behind. -/
structure Resume (T K P : Type) where
  cursor : StreamCursor
  /-- No `txn` of this pipeline in the target, and a cursor that is the configured one. -/
  bootstrapping : Bool
  /-- The cut-off the rescan after a rebuild was bounded by. -/
  rebuilt : Option (Dedup T K P)
  committed : Option Nat

def tableId (log : DeltaLog ρ) : Option String :=
  (log.metadataAt log.head).bind Metadata.id

/-- The earliest source version that can still hold a row a cut-off does not cover. -/
def rescanStart (engine : Engine ρ τ T K P) (columns : DedupColumns τ T K P)
    (source : DeltaLog ρ) (dedup : Dedup T K P) (fallback : Nat) : Nat :=
  if dedup.isPartitioned then
    boundedRescanStartPartitioned source engine.timestampBounds engine.sourceColumns columns dedup
      fallback defaultMaxScan
  else
    match dedup.watermark with
    | some mark =>
      boundedRescanStart source engine.timestampBounds columns.timestampColumn mark.newest fallback
        defaultMaxScan
    | none => fallback

/-- Where to resume, accounting for a target that another writer may have rebuilt. -/
def resumeCursor (config : ResolvedPipeline τ T K P) (engine : Engine ρ τ T K P)
    (source : DeltaLog ρ) (target : DeltaLog τ) : Except Error (Resume T K P) :=
  let offsets : OffsetStore := ⟨config.appId, config.startingVersion⟩
  match offsets.lastCommittedVersion target with
  | .error error => .error error
  | .ok stored =>
    let ordinary : Resume T K P :=
      { cursor := offsets.cursorAfter stored
        bootstrapping := stored.isNone
        rebuilt := none
        committed := stored }
    if config.watermarkUri.isNone && config.dedup.isNone then .ok ordinary
    else
      match targetState target config.appId defaultMaxScan with
      | .oursOrUntouched => .ok ordinary
      | .overwrittenAt version =>
        match config.dedup with
        | some columns =>
          match Dedup.readPartitioned columns (tableRows target) with
          | .error error => .error error
          | .ok dedup =>
            .ok
              { cursor := StreamCursor.atVersion
                  (rescanStart engine columns source dedup config.startingVersion)
                bootstrapping := false
                rebuilt := some dedup
                committed := stored }
        | none =>
          match engine.declaredWatermark with
          | .error error => .error error
          | .ok none =>
            .error (.config s!"pipeline {config.name}: the target was rewritten at version {version
              } by another writer, but the watermark table holds no source_version for {
              config.appId}")
          | .ok (some declared) =>
            .ok
              { cursor := StreamCursor.atVersion (declared + 1)
                bootstrapping := false
                rebuilt := none
                committed := stored }

/-- Whether a log still gives a version the id it had: whether it is the log that id was
read from, however often the table has been replaced in place since. -/
def keepsIdentity (source : DeltaLog ρ) (version : Nat) (id : String) : Bool :=
  if source.head < version then false
  else
    match source.logState (some version) with
    | .ok state => decide (state.metadata.id = some id)
    | .error _ => false

/-- Whether the source has another id than the one recorded, on a log that no longer gives
the recorded version that id. -/
def differentTable (source : DeltaLog ρ) (ours : OurLastCommit) (committed : Option Nat) : Bool :=
  match ours.sourceTableId, tableId source with
  | some recorded, some current =>
    if recorded = current then false
    else
      match ours.sourceTableIdVersion.or committed with
      | some seenAt => !keepsIdentity source seenAt recorded
      | none => true
  | _, _ => false

def logWentBackwards (source : DeltaLog ρ) (resume : Resume T K P) : Bool :=
  !resume.bootstrapping && decide (source.head + 1 < resume.cursor.version)

/-- The cursor to start over from, when the source is no longer the table that was read. -/
def adjustForReplacedSource (config : ResolvedPipeline τ T K P) (source : DeltaLog ρ)
    (ours : OurLastCommit) (resume : Resume T K P) : Except Error (Option StreamCursor) :=
  if !differentTable source ours resume.committed && !logWentBackwards source resume then .ok none
  else
    match config.dedup with
    | none =>
      .error (.config s!"pipeline {config.name}: source {config.sourceUri
        } appears to have been dropped and recreated")
    | some _ => .ok (some (StreamCursor.atVersion config.startingVersion))

/-- The oldest commit file a log still holds. -/
def earliestReadableCommit (source : DeltaLog ρ) : Option Nat :=
  (List.range source.commits.length).find? fun version => (source.readCommit version).isSome

def refuseAnUnreachableBootstrap (config : ResolvedPipeline τ T K P) (source : DeltaLog ρ)
    (cursor : StreamCursor) : Except Error Unit :=
  if (source.readCommitEntry cursor.version).isSome then .ok ()
  else if source.head < cursor.version then .ok ()
  else
    match earliestReadableCommit source with
    | none =>
      .error (.other s!"pipeline {config.name}: the commit log of {config.sourceUri
        } holds no commit files at all")
    | some oldest =>
      .error (.bootstrapUnreachable config.sourceUri cursor.version oldest source.head)

structure CoverageWindow where
  reason : CoverageReason
  through : Option Nat
  resumed : Bool
  deriving DecidableEq

structure Cutoff (T K P : Type) where
  dedup : Dedup T K P
  window : CoverageWindow
  skipped : Nat

/-- The window as the next commit inside it records it. -/
def Cutoff.recorded (cutoff : Cutoff T K P) : RecordedCutoff where
  reason := cutoff.window.reason
  sourceThrough := cutoff.window.through
  partitionColumns := cutoff.dedup.partitionColumns

def addsOrChangesData (actions : List (Action ρ)) : Bool :=
  match classify actions with
  | .data _ => true
  | .change _ => true
  | _ => false

/-- Whether any of the next `count` versions adds or changes data, a commit the log no longer
has counting as data. -/
def hasDataCommitFrom (source : DeltaLog ρ) (first : Nat) : Nat → Nat → Bool
  | _, 0 => false
  | version, count + 1 =>
    if defaultMaxScan ≤ version - first then true
    else
      match source.readCommitEntry version with
      | none => true
      | some actions =>
        if addsOrChangesData actions then true
        else hasDataCommitFrom source first (version + 1) count

def hasDataCommitBetween (source : DeltaLog ρ) (first through : Nat) : Bool :=
  hasDataCommitFrom source first first (through + 1 - first)

/-- The window to start in, before asking whether it has anything to hold back. -/
def inferCutoff (config : ResolvedPipeline τ T K P) (columns : DedupColumns τ T K P)
    (source : DeltaLog ρ) (target : DeltaLog τ) (ours : OurLastCommit) (resume : Resume T K P)
    (replaced : Bool) (cursor : StreamCursor) :
    Except Error (Option (CoverageReason × Option Nat × Bool × Dedup T K P)) :=
  let head := if isStageUri config.sourceUri then none else some source.head
  let readNow := Dedup.readPartitioned columns (tableRows target)
  if replaced then
    match resume.rebuilt with
    | some dedup => .ok (some (.sourceReplaced, none, false, dedup))
    | none => readNow.map fun dedup => some (.sourceReplaced, none, false, dedup)
  else
    match resume.rebuilt with
    | some dedup => .ok (some (.rebuilt, head, false, dedup))
    | none =>
      if resume.bootstrapping then
        readNow.map fun dedup => some (.bootstrap, head, false, dedup)
      else
        match ours.cutoff with
        | none => .ok none
        | some recorded =>
          let finished :=
            match recorded.sourceThrough with
            | some through => !hasDataCommitBetween source cursor.version through
            | none => false
          if finished then .ok none
          else if recorded.partitionColumns = columns.partitionColumns then
            readNow.map fun dedup =>
              some (recorded.reason, recorded.sourceThrough, true, dedup)
          else .ok none

/-- The coverage window this open starts in, if the target's coverage has to be inferred. -/
def coverageCutoff (config : ResolvedPipeline τ T K P) (source : DeltaLog ρ)
    (target : DeltaLog τ) (ours : OurLastCommit) (resume : Resume T K P) (replaced : Bool)
    (cursor : StreamCursor) : Except Error (Option (Cutoff T K P)) :=
  match config.dedup with
  | none => .ok none
  | some columns =>
    match inferCutoff config columns source target ours resume replaced cursor with
    | .error error => .error error
    | .ok none => .ok none
    | .ok (some (reason, through, resumed, dedup)) =>
      let outrun :=
        match through with
        | some head => !cutoffApplies head cursor
        | none => false
      if dedup.isInert || outrun then .ok none
      else
        .ok (some
          { dedup := dedup
            window := { reason := reason, through := through, resumed := resumed }
            skipped := 0 })

/-- A pipeline between two steps. -/
structure Pipeline (T K P : Type) where
  stream : LogStreamBuilder
  cutoff : Option (Cutoff T K P)

/-- The reader of a pipeline about to start at a cursor. -/
def openStream (config : ResolvedPipeline τ T K P) (source : DeltaLog ρ) (cursor : StreamCursor)
    (cutoff : Option (Cutoff T K P)) : LogStreamBuilder :=
  let reader := LogStreamBuilder.new config.sourceUri source
  let limited := ((reader.withStartingCursor cursor).withChangePolicy
    config.changePolicy).withMaxFilesPerBatch config.maxFilesPerBatch
  ((limited.withMaxBytesPerBatch config.maxBytesPerBatch).withPinnedLookupSnapshots
    config.hasLookups).withStopAfter (cutoff.bind fun cut => cut.window.through)

/-- A table at its head, or why a pipeline cannot use it. -/
def openTable {α : Type} (config : ResolvedPipeline τ T K P) (role : String) (log : DeltaLog α) :
    Except Error TableState :=
  match log.logState none with
  | .error (.invalidVersion version) =>
    .error (.config s!"pipeline {config.name}: {role}: invalid table version {version}")
  | .ok state => .ok state

/-- Resolves the resume point of a pipeline over two tables that could be opened. -/
def resolvePipeline (config : ResolvedPipeline τ T K P) (engine : Engine ρ τ T K P)
    (source : DeltaLog ρ) (target : DeltaLog τ) : Except Error (Pipeline T K P) :=
  let ours := ourLastCommit target config.appId defaultMaxScan
  match resumeCursor config engine source target with
  | .error error => .error error
  | .ok resume =>
    match adjustForReplacedSource config source ours resume with
    | .error error => .error error
    | .ok replaced =>
      let cursor := replaced.getD resume.cursor
      match (if resume.bootstrapping then refuseAnUnreachableBootstrap config source cursor
          else .ok ()) with
      | .error error => .error error
      | .ok () =>
        match coverageCutoff config source target ours resume replaced.isSome cursor with
        | .error error => .error error
        | .ok cutoff =>
          .ok { stream := openStream config source cursor cutoff, cutoff := cutoff }

/-- Opens both tables and resolves the resume point. -/
def openPipeline (config : ResolvedPipeline τ T K P) (engine : Engine ρ τ T K P)
    (source : DeltaLog ρ) (target : DeltaLog τ) : Except Error (Pipeline T K P) :=
  match openTable config "source" source, openTable config "target" target with
  | .error error, _ => .error error
  | .ok _, .error error => .error error
  | .ok _, .ok _ => resolvePipeline config engine source target

end Ddi
