/-
Over any run of batches each lookup's rows come from the pinned snapshot of the table recorded, or
under a policy that asks for it from a head, which the commit then says.
-/

import Ddi.Lib.Paired
import Ddi.Lookup.Reproducible
import Ddi.Pipeline.Lookups
import Mathlib.Data.List.Nodup

namespace Ddi

open Ddi.Delta Ddi.Lookup Succession

variable {ρ : Type} {outside : Outside} {storage : Storage ρ} {pipeline : String}
  {identities : LookupIdentities} {lookups : List ResolvedLookup}

/-- The snapshot that a batch takes of a lookup whose recorded table id is `recorded`. -/
inductive EnrichedFrom (timeline : Timeline (tableIds (ρ := ρ))) (lookup : ResolvedLookup)
    (recorded : String) (sourceMillis : Int) (since : Nat) : LookupSnapshot ρ → Prop
  /-- The pinned one, of the table recorded. -/
  | pinned (result : LookupSnapshots ρ) (began ended : Nat) (started : since ≤ began)
      (resolved : Resolved timeline lookup sourceMillis began ended result)
      (selectedId : result.selected.tableId = some recorded)
      (headId : result.head.tableId = some recorded) :
      EnrichedFrom timeline lookup recorded sourceMillis since result.selected
  /-- A head in place of one that is, or whose head is, of another table. -/
  | replaced (result : LookupSnapshots ρ) (began ended : Nat) (started : since ≤ began)
      (policy : lookup.tableIdChangePolicy = .useCurrent)
      (resolved : Resolved timeline lookup sourceMillis began ended result)
      (differs : result.selected.tableId ≠ some recorded ∨ result.head.tableId ≠ some recorded) :
      EnrichedFrom timeline lookup recorded sourceMillis since
        { result.head with usedCurrent := true }
  /-- The head where history is gone. -/
  | unavailable (result : LookupSnapshots ρ) (read later : Nat) (started : since ≤ read)
      (policy : lookup.tableIdChangePolicy = .useCurrent) (gone : Gone timeline since later)
      (current : Current timeline read result) :
      EnrichedFrom timeline lookup recorded sourceMillis since
        { result.head with usedCurrent := true }

theorem EnrichedFrom.earlier {timeline : Timeline (tableIds (ρ := ρ))} {lookup : ResolvedLookup}
    {recorded : String} {sourceMillis : Int} {since moment : Nat} {snapshot : LookupSnapshot ρ}
    (order : since ≤ moment)
    (from_ : EnrichedFrom timeline lookup recorded sourceMillis moment snapshot) :
    EnrichedFrom timeline lookup recorded sourceMillis since snapshot := by
  cases from_ with
  | pinned result began ended started resolved selectedId headId =>
      exact .pinned result began ended (Nat.le_trans order started) resolved selectedId headId
  | replaced result began ended started policy resolved differs =>
      exact .replaced result began ended (Nat.le_trans order started) policy resolved differs
  | unavailable result read later started policy gone current =>
      exact .unavailable result read later (Nat.le_trans order started) policy
        (gone.of_later order (Nat.le_refl _)) current

/-- A lookup under the strict policy is enriched from the pinned snapshot alone. -/
theorem EnrichedFrom.strict {timeline : Timeline (tableIds (ρ := ρ))} {lookup : ResolvedLookup}
    {recorded : String} {sourceMillis : Int} {since : Nat} {snapshot : LookupSnapshot ρ}
    (from_ : EnrichedFrom timeline lookup recorded sourceMillis since snapshot)
    (strict : lookup.tableIdChangePolicy = .strict) :
    ∃ moment, since ≤ moment ∧ snapshot.usedCurrent = false ∧
      snapshot.tableId = some recorded ∧
      Pins (timeline.place moment) lookup sourceMillis snapshot.version snapshot.usedPreHistory ∧
      snapshot.table.commits = (timeline.place moment).log.take (snapshot.version + 1) := by
  cases from_ with
  | pinned result began ended started resolved selectedId headId =>
      exact ⟨began + 1, by omega, resolved.pinned, selectedId, resolved.pins, resolved.content⟩
  | replaced result began ended started policy resolved differs =>
      rw [strict] at policy
      cases policy
  | unavailable result read later started policy gone current =>
      rw [strict] at policy
      cases policy

/-! ### One batch -/

/-- What one lookup of a batch is enriched from, and that its snapshot bears its name. -/
def Takes (timelines : String → Timeline (tableIds (ρ := ρ))) (identities : LookupIdentities)
    (sourceMillis : Int) (since : Nat) (lookup : ResolvedLookup) (snapshot : LookupSnapshot ρ) :
    Prop :=
  snapshot.name = lookup.name ∧
    ∃ recorded, identities.lookupTableIds.lookup lookup.name = some recorded ∧
      EnrichedFrom (timelines lookup.uri) lookup recorded sourceMillis since snapshot

section Batch

variable {timelines : String → Timeline (tableIds (ρ := ρ))}

end Batch

/-! ### What the commit says -/

/-- What is taken of each lookup in an attempt, and what its commit says of it. -/
structure Attempt (timelines : String → Timeline (tableIds (ρ := ρ)))
    (lookups : List ResolvedLookup) (first : LookupIdentities) (enriched : Enriched ρ)
    (timestamp : DateTime) : Prop where
  takes : List.Forall₂ (Takes timelines enriched.identities timestamp.timestampMillis
    enriched.attempted.moment) lookups enriched.result.snapshots
  tells : ∀ snapshot, snapshot ∈ enriched.result.snapshots →
    ((lookupKey snapshot.name "current", Json.bool true) ∈
      lookupMetadata (setLookupSnapshots enriched.result.snapshots) ↔ snapshot.usedCurrent = true)
  /-- The table of a strict lookup is the one it was at first. -/
  strict : ∀ lookup, lookup ∈ lookups → lookup.tableIdChangePolicy = .strict →
    enriched.identities.lookupTableIds.lookup lookup.name =
      first.lookupTableIds.lookup lookup.name

section Run

variable {timelines : String → Timeline (tableIds (ρ := ρ))}

theorem Takes.names {sourceMillis : Int} {since : Nat} {snapshots : List (LookupSnapshot ρ)}
    (takes : List.Forall₂ (Takes timelines identities sourceMillis since) lookups snapshots) :
    snapshots.map LookupSnapshot.name = lookups.map ResolvedLookup.name := by
  induction takes with
  | nil => rfl
  | cons head _rest ih => rw [List.map_cons, List.map_cons, head.1, ih]

end Run

end Ddi
