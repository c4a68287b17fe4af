/-
What a reader knows of its log's table, and on what evidence it learns more.

A table id seen at a version identifies the log it was seen in. A call replaces
what a reader remembers only when the log at hand gives the new version its id
and either that id is the one remembered or the log still gives the remembered
version the remembered id.
-/

import Ddi.Source.NextBatch

namespace Ddi.Source

open Ddi.Delta

variable {ρ : Type}

/-- Two readers configured alike. -/
structure SameSettings (before after : LogStreamBuilder) : Prop where
  sourceUri : after.sourceUri = before.sourceUri
  maxFiles : after.maxFilesPerBatch = before.maxFilesPerBatch
  maxBytes : after.maxBytesPerBatch = before.maxBytesPerBatch
  policy : after.policy = before.policy
  splitting : after.allowCommitSplitting = before.allowCommitSplitting
  pinning : after.pinLookupSnapshots = before.pinLookupSnapshots

/-- A reader that has only learnt something about its log. -/
structure Remembers (before after : LogStreamBuilder) : Prop
    extends SameSettings before after where
  cursor : after.cursor = before.cursor
  stopAfter : after.stopAfter = before.stopAfter

theorem SameSettings.refl (stream : LogStreamBuilder) : SameSettings stream stream :=
  ⟨rfl, rfl, rfl, rfl, rfl, rfl⟩

theorem SameSettings.trans {first second third : LogStreamBuilder}
    (left : SameSettings first second) (right : SameSettings second third) :
    SameSettings first third :=
  ⟨right.sourceUri.trans left.sourceUri, right.maxFiles.trans left.maxFiles,
    right.maxBytes.trans left.maxBytes, right.policy.trans left.policy,
    right.splitting.trans left.splitting, right.pinning.trans left.pinning⟩

theorem Remembers.refl (stream : LogStreamBuilder) : Remembers stream stream :=
  ⟨.refl stream, rfl, rfl⟩

theorem Remembers.trans {first second third : LogStreamBuilder}
    (left : Remembers first second) (right : Remembers second third) :
    Remembers first third :=
  ⟨left.toSameSettings.trans right.toSameSettings, right.cursor.trans left.cursor,
    right.stopAfter.trans left.stopAfter⟩

theorem SameSettings.refusal {before after : LogStreamBuilder}
    (same : SameSettings before after) (log : DeltaLog ρ) (cursor : StreamCursor) :
    refusal log after cursor = refusal log before cursor := by
  unfold Source.refusal LogStreamBuilder.fits
  rw [same.sourceUri, same.maxFiles, same.maxBytes, same.policy, same.splitting]

/-- The log gives a version a table id. -/
def IdentifiedAt (log : DeltaLog ρ) (version : Nat) (id : String) : Prop :=
  ∃ state, log.logState (some version) = .ok state ∧ state.metadata.id = some id

/-- What a reader remembers of the table is true of the log. -/
def IdentityKept (log : DeltaLog ρ) (identity : Option (Nat × String)) : Prop :=
  ∀ seenAt was, identity = some (seenAt, was) → IdentifiedAt log seenAt was

/-- How a call may change what a reader remembers of the table. -/
inductive Learns (log : DeltaLog ρ) : Option (Nat × String) → Option (Nat × String) → Prop
  | nothing (identity : Option (Nat × String)) : Learns log identity identity
  | newer (seenAt version : Nat) (was now : String)
      (identified : IdentifiedAt log version now)
      (recognized : ∃ anywhere, IdentifiedAt log anywhere was) :
      Learns log (some (seenAt, was)) (some (version, now))

theorem Learns.trans {log : DeltaLog ρ} {first second third : Option (Nat × String)}
    (left : Learns log first second) (right : Learns log second third) :
    Learns log first third := by
  cases left with
  | nothing => exact right
  | newer seenAt version was now identified recognized =>
      cases right with
      | nothing => exact .newer seenAt version was now identified recognized
      | newer _ later _ latest identifiedLater _recognized =>
          exact .newer seenAt later was latest identifiedLater recognized

theorem Learns.kept {log : DeltaLog ρ} {before after : Option (Nat × String)}
    (learns : Learns log before after) (kept : IdentityKept log before) :
    IdentityKept log after := by
  cases learns with
  | nothing => exact kept
  | newer seenAt version was now identified recognized =>
      intro newest id same
      cases same
      exact identified

theorem checkIdentity_learns {log : DeltaLog ρ} {stream after : LogStreamBuilder}
    {version : Nat} {state : TableState} (loaded : log.logState (some version) = .ok state)
    (ok : LogStreamBuilder.checkIdentity log stream state.version state.metadata.id =
      .ok after) :
    Learns log stream.identity after.identity ∧
      (state.metadata.id.isSome = true → ∀ seenAt was, stream.identity = some (seenAt, was) →
        ∃ anywhere, IdentifiedAt log anywhere was) ∧
      after = { stream with identity := after.identity } := by
  have here := DeltaLog.logState_version loaded
  unfold LogStreamBuilder.checkIdentity at ok
  cases known : state.metadata.id with
  | none =>
      rw [known] at ok
      cases ok
      exact ⟨.nothing _, nofun, rfl⟩
  | some now =>
      rw [known] at ok
      cases recorded : stream.identity with
      | none =>
          simp only [recorded] at ok
          cases ok
          rw [recorded]
          refine ⟨.nothing _, ?_, ?_⟩
          · intro _present seenAt was impossible
            cases impossible
          · rw [← recorded]
      | some seen =>
          obtain ⟨seenAt, was⟩ := seen
          simp only [recorded] at ok
          have identified : IdentifiedAt log state.version now :=
            ⟨state, by rw [here]; exact loaded, known⟩
          by_cases same : was = now
          · subst same
            rw [if_pos rfl] at ok
            cases ok
            refine ⟨.newer seenAt _ was was identified ⟨_, identified⟩, ?_, rfl⟩
            rintro _present _ _ ⟨⟩
            exact ⟨_, identified⟩
          · rw [if_neg same] at ok
            cases reloaded : log.logState (some seenAt) with
            | error error =>
                rw [reloaded] at ok
                cases ok
            | ok old =>
                rw [reloaded] at ok
                simp only at ok
                split at ok
                · rename_i kept
                  cases ok
                  have before : IdentifiedAt log seenAt was := ⟨old, reloaded, kept⟩
                  refine ⟨.newer seenAt _ was now identified ⟨_, before⟩, ?_, rfl⟩
                  rintro _present _ _ ⟨⟩
                  exact ⟨_, before⟩
                · cases ok

/-- A poll that answers gives the head. -/
theorem latestVersion_ok {log : DeltaLog ρ} {stream after : LogStreamBuilder} {latest : Nat}
    (ok : stream.latestVersion log = (.ok latest, after)) :
    latest = log.head ∧ Learns log stream.identity after.identity ∧
      after = { stream with identity := after.identity, versionFloor := log.head } := by
  have polled : ∀ {floor found : Nat}, log.getLatestVersion floor = .ok found →
      found = log.head := by
    intro floor found answered
    unfold DeltaLog.getLatestVersion at answered
    split at answered
    · cases answered
      rfl
    · cases answered
  unfold LogStreamBuilder.latestVersion at ok
  cases first : log.getLatestVersion stream.versionFloor with
  | ok found =>
      rw [first] at ok
      cases ok
      obtain rfl := polled first
      exact ⟨rfl, .nothing _, rfl⟩
  | error _ =>
      rw [first] at ok
      simp only [DeltaLog.logState_none] at ok
      cases loaded : log.logState (some log.head) with
      | error error =>
          rw [loaded] at ok
          cases ok
      | ok state =>
          rw [loaded] at ok
          simp only at ok
          split at ok
          · cases ok
          · cases checked : LogStreamBuilder.checkIdentity log stream state.version
                state.metadata.id with
            | error error =>
                rw [checked] at ok
                cases ok
            | ok known =>
                obtain ⟨learns, _recognized, shape⟩ := checkIdentity_learns loaded checked
                rw [checked] at ok
                simp only at ok
                cases second : log.getLatestVersion state.version with
                | error error =>
                    rw [second] at ok
                    cases ok
                | ok found =>
                    rw [second] at ok
                    cases ok
                    refine ⟨polled second, learns, ?_⟩
                    rw [shape, DeltaLog.logState_version loaded]

/-- A schema comes from the cache or from the log's own state at the version. -/
theorem schemaAt_ok {log : DeltaLog ρ} {stream after : LogStreamBuilder} {version : Nat}
    {schema : String} (ok : stream.schemaAt log version = .ok (schema, after)) :
    Learns log stream.identity after.identity ∧
      after = { stream with identity := after.identity, schemaCache := after.schemaCache } ∧
      (∀ entry, entry ∈ after.schemaCache → entry ∈ stream.schemaCache ∨ entry.1 = version) ∧
      ((stream.schemaCache.lookup version).isSome = true ∨
        ∃ state, log.logState (some version) = .ok state ∧
          (state.metadata.id.isSome = true → ∀ seenAt was,
            stream.identity = some (seenAt, was) → ∃ anywhere, IdentifiedAt log anywhere was)) := by
  unfold LogStreamBuilder.schemaAt at ok
  cases cached : stream.schemaCache.lookup version with
  | some found =>
      rw [cached] at ok
      cases ok
      exact ⟨.nothing _, rfl, fun entry member => Or.inl member, Or.inl rfl⟩
  | none =>
      rw [cached] at ok
      simp only at ok
      cases loaded : log.logState (some version) with
      | error error =>
          rw [loaded] at ok
          cases ok
      | ok state =>
          rw [loaded] at ok
          simp only at ok
          cases checked : LogStreamBuilder.checkIdentity log stream state.version
              state.metadata.id with
          | error error =>
              rw [checked] at ok
              cases ok
          | ok known =>
              obtain ⟨learns, recognized, shape⟩ := checkIdentity_learns loaded checked
              rw [checked] at ok
              cases ok
              refine ⟨learns, ?_, ?_, Or.inr ⟨state, rfl, recognized⟩⟩
              · rw [shape]
              · intro entry member
                rcases List.mem_cons.mp member with fresh | kept
                · exact Or.inr (by rw [fresh])
                · rw [shape] at kept
                  simp only at kept
                  split at kept
                  · cases kept
                  · exact Or.inl kept

end Ddi.Source
