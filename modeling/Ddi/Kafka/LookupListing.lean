/-
The checkpoint that a walk goes down to: it is complete, and not newer than asked for.
-/

import Ddi.Kafka.Lookup
import Mathlib.Data.List.Perm.Subperm

namespace Ddi.Kafka.Lookup

/-- A listed file that is a checkpoint's, and not an empty one. -/
def IsFile (listing : List Listed) (version : Nat) (kind : CheckpointFile) (file : Listed) :
    Prop :=
  file ∈ listing ∧ checkpointFile file = some (version, kind) ∧ 0 < file.size

/-- All files of one checkpoint. -/
inductive CompleteSet (listing : List Listed) (version : Nat) : List Listed → Prop
  | single {file : Listed} (listed : IsFile listing version .single file) :
      CompleteSet listing version [file]
  | uuid {file : Listed} (listed : IsFile listing version .uuid file) :
      CompleteSet listing version [file]
  | parts {parts : Nat} {files : List Listed} (some_part : 1 ≤ parts)
      (all : files.length = parts)
      (each : ∀ part, 1 ≤ part → part ≤ parts →
        ∃ file, file ∈ files ∧ IsFile listing version (.part part parts) file) :
      CompleteSet listing version files

theorem checkpointKind_part {names : List String} {part parts : Nat}
    (named : checkpointKind names = some (.part part parts)) : 1 ≤ part ∧ part ≤ parts := by
  unfold checkpointKind at named
  split at named
  · cases named
  · split at named
    · cases named
    · cases named
  · split at named
    · split at named
      · split at named
        · cases named
        · rename_i valid
          cases named
          omega
      · cases named
    · cases named
  · cases named

theorem checkpointFile_part {file : Listed} {version part parts : Nat}
    (named : checkpointFile file = some (version, .part part parts)) :
    1 ≤ part ∧ part ≤ parts := by
  unfold checkpointFile at named
  split at named
  · split at named
    · split at named
      · cases named
      · split at named
        · cases named
        · obtain ⟨kind, kind_of, same⟩ := Option.map_eq_some_iff.mp named
          cases same
          exact checkpointKind_part kind_of
    · cases named
  · cases named

theorem mem_byVersion {files : List (Nat × CheckpointFile × Listed)} {version : Nat}
    {held : List (CheckpointFile × Listed)} (known : (version, held) ∈ byVersion files)
    {entry : CheckpointFile × Listed} (member : entry ∈ held) : (version, entry) ∈ files := by
  induction files using List.reverseRecOn generalizing version held with
  | nil => cases known
  | append_singleton files last ih =>
      unfold byVersion at known
      rw [List.foldl_append] at known
      rcases Ordered.mem_insert known with new | before
      · cases new
        rcases List.mem_append.mp member with older | here
        · cases at_version : (byVersion files).lookup last.1 with
          | none =>
              unfold byVersion at at_version
              rw [at_version] at older
              cases older
          | some others =>
              have there := Ordered.mem_of_lookup at_version
              unfold byVersion at at_version
              rw [at_version] at older
              exact List.mem_append_left _ (ih there older)
        · rw [List.mem_singleton.mp here]
          exact List.mem_append_right _ (List.mem_singleton.mpr rfl)
      · exact List.mem_append_left _ (ih before member)

/-- The parts of one checkpoint in several files, as far as there are any. -/
structure PartsOf (files : List (CheckpointFile × Listed)) (parts : Nat)
    (set : List (Nat × Listed)) : Prop where
  sorted : Ordered.Sorted set
  among : ∀ part file, (part, file) ∈ set → (.part part parts, file) ∈ files

theorem PartsOf.more {files : List (CheckpointFile × Listed)} {parts : Nat}
    {set : List (Nat × Listed)} (own : PartsOf files parts set) (last : CheckpointFile × Listed) :
    PartsOf (files ++ [last]) parts set where
  sorted := own.sorted
  among := fun part file member => List.mem_append_left _ (own.among part file member)

theorem partSets_snoc (files : List (CheckpointFile × Listed)) (last : CheckpointFile × Listed) :
    partSets (files ++ [last]) =
      match last.1 with
      | .part part parts =>
          Ordered.insert parts
            (Ordered.insert part last.2 (((partSets files).lookup parts).getD [])) (partSets files)
      | _ => partSets files := by
  unfold partSets
  rw [List.foldl_append]
  rfl

theorem mem_partSets {files : List (CheckpointFile × Listed)} {parts : Nat}
    {set : List (Nat × Listed)} (known : (parts, set) ∈ partSets files) :
    PartsOf files parts set ∧ set ≠ [] := by
  induction files using List.reverseRecOn generalizing parts set with
  | nil => cases known
  | append_singleton files last ih =>
      rw [partSets_snoc] at known
      obtain ⟨kind, file⟩ := last
      cases kind with
      | single => exact (ih known).imp (PartsOf.more · _) id
      | uuid => exact (ih known).imp (PartsOf.more · _) id
      | part part total =>
          rcases Ordered.mem_insert known with new | before
          · cases new
            have old : PartsOf files parts (((partSets files).lookup parts).getD []) := by
              cases held : (partSets files).lookup parts with
              | none => exact ⟨List.Pairwise.nil, nofun⟩
              | some others => exact (ih (Ordered.mem_of_lookup held)).1
            constructor
            · refine ⟨old.sorted.insert part file, ?_⟩
              intro other other_file member
              rcases Ordered.mem_insert member with new | older
              · cases new
                exact List.mem_append_right _ (List.mem_singleton.mpr rfl)
              · exact List.mem_append_left _ (old.among other other_file older)
            · intro empty
              have there := Ordered.lookup_insert old.sorted part part file
              rw [empty, if_pos rfl] at there
              cases there
          · exact (ih before).imp (PartsOf.more · _) id

/-- As many parts as there should be are all of them. -/
theorem PartsOf.all {files : List (CheckpointFile × Listed)} {parts : Nat}
    {set : List (Nat × Listed)} (own : PartsOf files parts set)
    (valid : ∀ part file, (part, file) ∈ set → 1 ≤ part ∧ part ≤ parts)
    (many : set.length = parts) {part : Nat} (from_one : 1 ≤ part) (within : part ≤ parts) :
    ∃ file, (part, file) ∈ set := by
  have distinct : (set.map Prod.fst).Nodup := by
    apply List.pairwise_map.mpr
    exact own.sorted.imp fun less => Nat.ne_of_lt less
  have among : set.map Prod.fst ⊆ List.range' 1 parts := by
    intro other member
    obtain ⟨entry, held, rfl⟩ := List.mem_map.mp member
    have bounds := valid entry.1 entry.2 held
    rw [List.mem_range'_1]
    omega
  have enough : (List.range' 1 parts).length ≤ (set.map Prod.fst).length := by
    rw [List.length_range', List.length_map, many]
  have same := (List.subperm_of_subset distinct among).perm_of_length_le enough
  have there : part ∈ set.map Prod.fst := by
    rw [same.mem_iff, List.mem_range'_1]
    omega
  obtain ⟨entry, held, rfl⟩ := List.mem_map.mp there
  exact ⟨entry.2, held⟩

theorem complete_completeSet {listing : List Listed} {version : Nat}
    {files : List (CheckpointFile × Listed)} {checkpoint : Checkpoint}
    (listed : ∀ kind file, (kind, file) ∈ files → IsFile listing version kind file)
    (found : complete version files = some checkpoint) :
    checkpoint.version = version ∧ CompleteSet listing version checkpoint.files := by
  unfold complete at found
  have one : ∀ {want : CheckpointFile} {own : Checkpoint},
      ((files.find? fun entry => entry.1 == want).map fun entry =>
        ({ version, files := [entry.2] } : Checkpoint)) = some own →
      ∃ file, own = { version, files := [file] } ∧ IsFile listing version want file := by
    intro want own map
    obtain ⟨entry, first, rfl⟩ := Option.map_eq_some_iff.mp map
    have kind := List.find?_some first
    rw [beq_iff_eq] at kind
    refine ⟨entry.2, rfl, ?_⟩
    rw [← kind]
    exact listed entry.1 entry.2 (List.mem_of_find?_eq_some first)
  simp only at found
  split at found
  · rename_i own either
    cases found
    rcases Option.or_eq_some_iff.mp either with whole | ⟨_none, whole⟩
    · obtain ⟨file, rfl, own_file⟩ := one whole
      exact ⟨rfl, .single own_file⟩
    · obtain ⟨file, rfl, own_file⟩ := one whole
      exact ⟨rfl, .uuid own_file⟩
  · obtain ⟨⟨parts, set⟩, first, rfl⟩ := Option.map_eq_some_iff.mp found
    have many := List.find?_some first
    have counted : set.length = parts := eq_of_beq many
    obtain ⟨own, occupied⟩ := mem_partSets (List.mem_of_find?_eq_some first)
    have valid : ∀ part file, (part, file) ∈ set → 1 ≤ part ∧ part ≤ parts := fun part file member =>
      checkpointFile_part (listed _ file (own.among part file member)).2.1
    refine ⟨rfl, @CompleteSet.parts listing version parts _ ?_ (by rw [List.length_map, counted]) ?_⟩
    · have := List.length_pos_iff.mpr occupied
      omega
    · intro part from_one within
      obtain ⟨file, member⟩ := own.all valid counted from_one within
      exact ⟨file, List.mem_map_of_mem member, listed _ file (own.among part file member)⟩

theorem checkpointBetween_complete {listing : List Listed} {low high : Nat}
    {checkpoint : Checkpoint} (found : checkpointBetween listing low high = some checkpoint) :
    checkpoint.version ≤ high ∧ CompleteSet listing checkpoint.version checkpoint.files := by
  unfold checkpointBetween at found
  obtain ⟨⟨version, held⟩, known, whole⟩ := List.exists_of_findSome?_eq_some found
  have each : ∀ kind file, (kind, file) ∈ held →
      version ≤ high ∧ IsFile listing version kind file := by
    intro kind file member
    obtain ⟨other, listed, kept⟩ := List.mem_filterMap.mp
      (mem_byVersion (List.mem_reverse.mp known) member)
    have there : other ∈ listing := (List.mem_filter.mp listed).1
    split at kept
    · rename_i own own_kind named
      split at kept
      · rename_i bounds
        cases kept
        exact ⟨bounds.2.1, there, named, bounds.2.2⟩
      · cases kept
    · cases kept
  obtain ⟨rfl, set⟩ := complete_completeSet (fun kind file member => (each kind file member).2) whole
  refine ⟨?_, set⟩
  cases held with
  | nil => cases whole
  | cons entry held => exact (each entry.1 entry.2 List.mem_cons_self).1

/-- Whatever the hint is, a checkpoint that is chosen is complete and not newer than asked. -/
theorem newestCheckpoint_complete {hint : Option Nat} {listing : List Listed} {version : Nat}
    {checkpoint : Checkpoint} (found : newestCheckpoint hint listing version = some checkpoint) :
    checkpoint.version ≤ version ∧
      CompleteSet listing checkpoint.version checkpoint.files := by
  unfold newestCheckpoint at found
  split at found
  · rename_i own near
    cases found
    exact checkpointBetween_complete near
  · split at found
    · cases found
    · exact checkpointBetween_complete found

end Ddi.Kafka.Lookup
