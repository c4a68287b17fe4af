/-
One resolved pipeline over a Delta source, with what it calls and does not own:
the SQL engine, the values of the source's columns and their statistics, and
dbt's watermark table.
-/

import Ddi.Rescan

namespace Ddi

open Ddi.Delta
open Ddi.Source (ChangePolicy)

structure ResolvedPipeline (τ T K P : Type) where
  name : String
  appId : String
  sourceUri : String
  startingVersion : Nat
  changePolicy : ChangePolicy
  maxFilesPerBatch : Nat
  maxBytesPerBatch : Nat
  /-- Whether the transform reads pinned lookups, which takes one data commit a batch. -/
  hasLookups : Bool
  watermarkUri : Option String
  /-- `dedup_timestamp`, `dedup_key` and `dedup_partition`, when the first is set. -/
  dedup : Option (DedupColumns τ T K P)

/-- The code a pipeline calls. -/
structure Engine (ρ τ T K P : Type) [LT T] where
  /-- Transform, coercion and quarantine of the rows of a batch, under the log timestamp its
  lookups are pinned at. -/
  transform : Option Nat → List ρ → Except Error (List τ)
  timestampBounds : TimestampBounds T
  sourceColumns : SourceColumns ρ T K P
  /-- What dbt's watermark table declares for this pipeline. -/
  declaredWatermark : Except Error (Option Nat)

namespace ResolvedPipeline

def dedupPartition {τ T K P : Type} (config : ResolvedPipeline τ T K P) : List String :=
  match config.dedup with
  | some columns => columns.partitionColumns
  | none => []

end ResolvedPipeline

/-- The suffix of a stage table's uri. -/
def stageSuffix : String := "__ddi_stage"

def trimEndSlashes (uri : String) : List Char :=
  (uri.toList.reverse.dropWhile fun character => character == '/').reverse

def isStageUri (uri : String) : Bool := stageSuffix.toList.isSuffixOf (trimEndSlashes uri)

end Ddi
