/-
What a returned write of rejects says about the table, and which message each reject names. A range
of offsets holds more than the messages read: an offset within it may be none of theirs.
-/

import Ddi.DataQuality.WriteKafkaRuns

namespace Ddi.DqKafka

open Ddi.Delta Ddi.Kafka Succession

/-! ### The messages of a batch -/

/-- A message that the batch took. -/
structure TakenMessage where
  partition : Int
  mark : MessageMark
  isPartition : inI32 partition = true
  isOffset : 0 ≤ mark.offset ∧ mark.offset < 2 ^ 63

/-- The ranges of a batch that took these messages. -/
def rangesOf (taken : List TakenMessage) : List (Int × Int × Int) :=
  (taken.foldl (fun (buf : Buffer) message => buf.take message.partition message.mark) {}).ranges

/-- Both ends of every range are offsets that were taken. -/
def Ended (taken : List TakenMessage) (buf : Buffer) : Prop :=
  ∀ partition first last, buf.ranges.lookup partition = some (first, last) →
    (∃ message ∈ taken, message.partition = partition ∧ message.mark.offset = first) ∧
      ∃ message ∈ taken, message.partition = partition ∧ message.mark.offset = last

theorem Ended.take {taken : List TakenMessage} {buf : Buffer} (ended : Ended taken buf)
    {message : TakenMessage} (inside : message ∈ taken) :
    Ended taken (buf.take message.partition message.mark) := by
  intro partition first last found
  unfold Buffer.take at found
  dsimp only at found
  rw [Assoc.lookup_put] at found
  by_cases same : partition = message.partition
  · rw [if_pos same] at found
    cases before : buf.ranges.lookup message.partition with
    | none =>
        rw [before] at found
        cases found
        exact ⟨⟨message, inside, same.symm, rfl⟩, ⟨message, inside, same.symm, rfl⟩⟩
    | some range =>
        rw [before] at found
        cases found
        constructor
        · rw [same]
          exact (ended message.partition range.1 range.2 before).1
        · exact ⟨message, inside, same.symm, rfl⟩
  · rw [if_neg same] at found
    exact ended partition first last found

theorem rangesOf_ended (taken : List TakenMessage) {partition first last : Int}
    (found : (rangesOf taken).lookup partition = some (first, last)) :
    (∃ message ∈ taken, message.partition = partition ∧ message.mark.offset = first) ∧
      ∃ message ∈ taken, message.partition = partition ∧ message.mark.offset = last := by
  have run : ∀ (messages : List TakenMessage) (buf : Buffer),
      (∀ message ∈ messages, message ∈ taken) → Ended taken buf →
      Ended taken (messages.foldl (fun buf message => buf.take message.partition message.mark)
        buf) := by
    intro messages
    induction messages with
    | nil => exact fun buf _inside ended => ended
    | cons message messages ih =>
        intro buf inside ended
        apply ih
        · exact fun other later => inside other (List.mem_cons_of_mem _ later)
        · exact ended.take (inside message List.mem_cons_self)
  apply run taken {} (fun _message inside => inside)
  · intro other low high impossible
    cases impossible
  · unfold rangesOf at found
    exact found

/-! ### Coordinates -/

/-- A row's partition and offset columns are integers and set to these. -/
def Rejected.Names (rejected : Rejected) (dq : KafkaDq) (index : Nat) (partition offset : Int) :
    Prop :=
  (∃ column, rejected.rows.lookup (dq.kafkaPrefix ++ "partition") = some column ∧
      column.isInteger = true ∧ column.values[index]? = some (some partition)) ∧
    ∃ column, rejected.rows.lookup (dq.kafkaPrefix ++ "offset") = some column ∧
      column.isInteger = true ∧ column.values[index]? = some (some offset)

section Coordinates

variable {dq : KafkaDq} {rejected : Rejected} {ranges : List (Int × Int × Int)}

theorem columnOf_eq_some_iff (name : String) (index : Nat) (value : Int) :
    (∃ values, columnOf rejected name = some values ∧ values[index]?.join = some value) ↔
      ∃ column, rejected.rows.lookup name = some column ∧ column.isInteger = true ∧
        column.values[index]? = some (some value) ∧ inI64 value = true := by
  unfold columnOf
  cases rejected.rows.lookup name with
  | none => simp
  | some column =>
      obtain ⟨isInteger, held⟩ := column
      cases isInteger with
      | false => simp
      | true =>
          simp only [if_pos, Option.some.injEq, exists_eq_left', List.getElem?_map, true_and]
          cases held[index]? with
          | none => simp
          | some own =>
              cases own with
              | none => simp
              | some own =>
                  simp only [Option.map_some, Option.join_some, Option.filter_eq_some_iff,
                    Option.some.injEq]

theorem coordinates_length : (coordinates dq rejected ranges).length = rejected.len := by
  unfold coordinates
  split
  · rw [List.length_map, List.length_range]
  · exact List.length_replicate

/-- A row's columns, read as the code reads them. -/
def Rejected.Reads (rejected : Rejected) (dq : KafkaDq) (index : Nat) (partition offset : Int) :
    Prop :=
  (∃ values, columnOf rejected (dq.kafkaPrefix ++ "partition") = some values ∧
      values[index]?.join = some partition) ∧
    ∃ values, columnOf rejected (dq.kafkaPrefix ++ "offset") = some values ∧
      values[index]?.join = some offset

theorem reads_iff (index : Nat) (partition offset : Int) :
    rejected.Reads dq index partition offset ↔
      rejected.Names dq index partition offset ∧ inI64 partition = true ∧
        inI64 offset = true := by
  unfold Rejected.Reads Rejected.Names
  rw [columnOf_eq_some_iff, columnOf_eq_some_iff]
  constructor
  · rintro ⟨⟨column, found, integer, value, fits⟩, other, here, whole, set, small⟩
    exact ⟨⟨⟨column, found, integer, value⟩, other, here, whole, set⟩, fits, small⟩
  · rintro ⟨⟨⟨column, found, integer, value⟩, other, here, whole, set⟩, fits, small⟩
    exact ⟨⟨column, found, integer, value, fits⟩, other, here, whole, set, small⟩

/-- An offset between the ends of its partition's range. -/
def Within (ranges : List (Int × Int × Int)) (partition offset : Int) : Prop :=
  ∃ first last, ranges.lookup partition = some (first, last) ∧ first ≤ offset ∧ offset ≤ last

/-- The coordinates of a row are those its columns name, where they lie in the ranges. -/
theorem mem_coordinates_iff (partition offset : Int) :
    some (partition, offset) ∈ coordinates dq rejected ranges ↔
      ∃ index, index < rejected.len ∧ rejected.Reads dq index partition offset ∧
        inI32 partition = true ∧ Within ranges partition offset := by
  unfold coordinates Rejected.Reads
  cases columnOf rejected (dq.kafkaPrefix ++ "partition") with
  | none => simp
  | some partitions =>
      cases columnOf rejected (dq.kafkaPrefix ++ "offset") with
      | none => simp
      | some offsets =>
          dsimp only
          rw [List.mem_map]
          simp only [List.mem_range, Option.some.injEq, exists_eq_left']
          apply exists_congr
          intro index
          apply and_congr_right
          intro _within
          unfold Within
          cases partitions[index]?.join with
          | none => simp
          | some ownPartition =>
              cases offsets[index]?.join with
              | none => simp
              | some ownOffset =>
                  dsimp only
                  constructor
                  · intro made
                    by_cases fits : inI32 ownPartition = true
                    · rw [if_pos fits] at made
                      cases found : ranges.lookup ownPartition with
                      | none =>
                          rw [found] at made
                          cases made
                      | some range =>
                          rw [found] at made
                          dsimp only at made
                          by_cases between : range.1 ≤ ownOffset ∧ ownOffset ≤ range.2
                          · rw [if_pos between] at made
                            cases made
                            exact ⟨⟨rfl, rfl⟩, fits, range.1, range.2, found, between⟩
                          · rw [if_neg between] at made
                            cases made
                    · rw [if_neg fits] at made
                      cases made
                  · rintro ⟨⟨samePartition, sameOffset⟩, fits, first, last, found, between⟩
                    cases samePartition
                    cases sameOffset
                    rw [if_pos fits, found]
                    dsimp only
                    rw [if_pos between]

end Coordinates

/-! ### The batch -/

/-- What a batch of rejects holds: a row for each, with its reason, its column and an offset. -/
structure Holds (dq : KafkaDq) (rejected : List Rejected) (ranges : List (Int × Int × Int))
    (batch : List DqRow) : Prop where
  count : batch.length = (rejected.map Rejected.len).sum
  sourceVersions : batch.map DqRow.sourceVersion =
    rejected.flatMap fun own => sourceVersionsOf dq own ranges
  columns : (batch.map fun row => row.columnName) = rejected.flatMap Rejected.columns
  reasons : (batch.map fun row => row.reason) = rejected.flatMap Rejected.reasons

theorem assemble_ok {dq : KafkaDq} {versions : List Int} {columns payload : List (Option String)}
    {reasons : List String} {nowMicros : Int} (eachVersion : versions.length = reasons.length)
    (eachColumn : columns.length = reasons.length) (eachPayload : payload.length = reasons.length) :
    ∃ batch, assemble dq versions columns reasons payload nowMicros = .ok batch ∧
      batch.length = reasons.length ∧ batch.map DqRow.sourceVersion = versions ∧
      (batch.map fun row => row.columnName) = columns ∧
      (batch.map fun row => row.reason) = reasons := by
  unfold assemble
  rw [if_pos ⟨eachVersion, eachColumn, eachPayload⟩]
  have whys : (reasons.zip payload).length = reasons.length := by
    rw [List.length_zip, eachPayload, Nat.min_self]
  have named : (columns.zip (reasons.zip payload)).length = reasons.length := by
    rw [List.length_zip, whys, eachColumn, Nat.min_self]
  have later := List.map_snd_zip (Nat.le_of_eq (named.trans eachVersion.symm))
  have last := List.map_snd_zip (Nat.le_of_eq (whys.trans eachColumn.symm))
  refine ⟨_, rfl, ?_, ?_, ?_, ?_⟩
  · rw [List.length_map, List.length_zip, named, eachVersion, Nat.min_self]
  · rw [List.map_map]
    exact List.map_fst_zip (Nat.le_of_eq (eachVersion.trans named.symm))
  · have columnsOf := List.map_fst_zip (Nat.le_of_eq (eachColumn.trans whys.symm))
    rw [← later, List.map_map] at columnsOf
    rw [List.map_map]
    exact columnsOf
  · have reasonsOf := List.map_fst_zip (Nat.le_of_eq eachPayload.symm)
    rw [← last, ← later, List.map_map, List.map_map] at reasonsOf
    rw [List.map_map]
    exact reasonsOf

theorem length_flatMap_rejected {α : Type} (part : Rejected → List α) (rejected : List Rejected)
    (each : ∀ own, (part own).length = own.len) :
    (rejected.flatMap part).length = (rejected.map Rejected.len).sum := by
  rw [List.length_flatMap]
  exact congrArg List.sum (List.map_congr_left fun own _inside => each own)

theorem kafkaBatch_ok (payloadOf : Rejected → Nat → Option String) (dq : KafkaDq)
    (rejected : List Rejected) (ranges : List (Int × Int × Int)) (nowMicros : Int) :
    ∃ batch, kafkaBatch payloadOf dq rejected ranges nowMicros = .ok batch ∧
      Holds dq rejected ranges batch := by
  have reasons := length_flatMap_rejected Rejected.reasons rejected Rejected.eachReason
  have columns := length_flatMap_rejected Rejected.columns rejected Rejected.eachColumn
  have versions := length_flatMap_rejected (fun own => sourceVersionsOf dq own ranges) rejected
    (fun own => by rw [sourceVersionsOf, List.length_map, coordinates_length])
  have texts := length_flatMap_rejected (payloads payloadOf) rejected
    (fun own => by rw [payloads, List.length_map, List.length_range])
  obtain ⟨batch, made, count, sourceVersions, names, why⟩ :=
    @assemble_ok dq _ _ _ _ nowMicros (versions.trans reasons.symm) (columns.trans reasons.symm)
      (texts.trans reasons.symm)
  exact ⟨batch, made, count.trans reasons, sourceVersions, names, why⟩

theorem writeIdOf_kafkaCommit (dq : KafkaDq) (offsets : KafkaOffsets) (writeId : String)
    (rows : List DqRow) : writeIdOf (kafkaCommit dq offsets writeId rows) = some writeId := rfl

/-! ### A whole write -/

section Write

variable (payloadOf : Rejected → Nat → Option String) (writeId : String)
  (happens : Nat → Happening) (dq : KafkaDq) (rejected : List Rejected) (offsets : KafkaOffsets)
  (nowMicros : Int) (place : Place DqCommit)

/-- The log holds this commit, and no other of this write that had not left the log before. -/
def RecordedOnce (own : DqCommit) (later : Place DqCommit) : Prop :=
  ∃ (earlier : Place DqCommit) (version : Nat), place.Extends earlier ∧ earlier.Extends later ∧
    earlier.log.length ≤ version ∧ later.log[version]? = some own ∧
    ∀ other commit, Ours writeId later other commit →
      commit = own ∧ (other = version ∨ other < earlier.first)

/-- What the end of a write says about the table. -/
def Accounted : Except WriteError Nat × KafkaDq × Place DqCommit → Prop
  | (.ok written, _dq, later) =>
      written = (rejected.map Rejected.len).sum ∧
        (written = 0 ∧ later = place ∨
          ∃ batch, kafkaBatch payloadOf dq rejected offsets.ranges nowMicros = .ok batch ∧
            Holds dq rejected offsets.ranges batch ∧
            RecordedOnce writeId place (kafkaCommit dq offsets writeId batch) later)
  | (.error _cause, last, later) =>
      Gone writeId later ∨ ∃ more, more ≤ kafkaConflictRetries ∧
        last.conflictRetries = dq.conflictRetries + more ∧ Unread (happens more) later

variable {payloadOf writeId happens dq rejected offsets nowMicros place}

theorem writeKafka_accounted (fresh : ∀ commit ∈ place.log, writeIdOf commit ≠ some writeId)
    (foreign : ∀ attempt, (happens attempt).Foreign writeId)
    (loaded : ∀ version, dq.version = some version → version < place.log.length) :
    Accounted payloadOf writeId happens dq rejected offsets nowMicros place
      (writeKafka payloadOf writeId happens dq rejected offsets nowMicros place) := by
  have absent : ∀ version commit, ¬ Ours writeId place version commit := by
    intro version commit ours
    exact fresh commit (List.mem_of_getElem? ours.1) ours.2
  have within : sinceOf dq.version ≤ place.log.length := by
    cases known : dq.version with
    | none => exact Nat.zero_le _
    | some version => exact loaded version known
  unfold writeKafka
  dsimp only
  by_cases nothing : (rejected.map Rejected.len).sum = 0
  · rw [if_pos nothing]
    exact ⟨nothing.symm, Or.inl ⟨rfl, rfl⟩⟩
  · rw [if_neg nothing]
    obtain ⟨batch, made, holds⟩ := kafkaBatch_ok payloadOf dq rejected offsets.ranges nowMicros
    rw [made]
    have outcome := @writeAttempts_outcome writeId (kafkaCommit dq offsets writeId batch)
      (rejected.map Rejected.len).sum happens (writeIdOf_kafkaCommit dq offsets writeId batch)
      foreign kafkaConflictRetries 0 dq place (fun version commit ours =>
        absurd ours (absent version commit)) (fun version commit ours =>
        absurd ours (absent version commit)) within
    revert outcome
    dsimp only
    cases writeAttempts writeId (kafkaCommit dq offsets writeId batch)
        (rejected.map Rejected.len).sum happens kafkaConflictRetries 0 dq place with
    | mk ended rest =>
        cases ended with
        | ok written =>
            rintro ⟨same, mine, earlier, version, before, gone, adds⟩
            refine ⟨same, Or.inr ⟨batch, made, holds, earlier, version, before, adds.onward,
              adds.next, adds.here.1, ?_⟩⟩
            intro other commit ours
            constructor
            · exact mine other commit ours
            · by_cases newest : other = version
              · exact Or.inl newest
              · exact Or.inr (gone other commit (adds.old other commit ours newest))
        | error cause =>
            intro unsuccessful
            cases unsuccessful with
            | inl gone => exact Or.inl gone
            | inr unread =>
                obtain ⟨more, few, counted, why⟩ := unread
                rw [Nat.zero_add] at why
                exact Or.inr ⟨more, few, counted, why⟩

end Write

/-! ### The message a reject names -/

/-- Every row names an offset that the batch took, or none. -/
def NamesTaken (taken : List TakenMessage) (batch : List DqRow) : Prop :=
  ∀ row ∈ batch, row.sourceVersion = -1 ∨
    ∃ message ∈ taken, message.mark.offset = row.sourceVersion

/-- The columns of no reject name an offset that lies in a gap of what the batch took. -/
def NamesNoGap (dq : KafkaDq) (rejected : List Rejected) (taken : List TakenMessage) : Prop :=
  ∀ own ∈ rejected, ∀ index, index < own.len → ∀ partition offset,
    own.Names dq index partition offset → Within (rangesOf taken) partition offset →
    ∃ message ∈ taken, message.mark.offset = offset

section Named

variable {payloadOf : Rejected → Nat → Option String} {writeId : String}
  {happens : Nat → Happening} {dq : KafkaDq} {rejected : List Rejected} {offsets : KafkaOffsets}
  {nowMicros : Int} {place : Place DqCommit} {taken : List TakenMessage} {batch : List DqRow}

theorem inI64_of_inI32 {value : Int} (small : inI32 value = true) : inI64 value = true := by
  unfold inI32 at small
  unfold inI64
  rw [decide_eq_true_iff] at small ⊢
  omega

/-- What lies between offsets that were taken fits its column. -/
theorem Within.fits {partition offset : Int} (within : Within (rangesOf taken) partition offset) :
    inI32 partition = true ∧ 0 ≤ offset ∧ inI64 offset = true := by
  obtain ⟨first, last, found, above, below⟩ := within
  obtain ⟨⟨early, _inside, same, least⟩, late, _within, _partition, greatest⟩ :=
    rangesOf_ended taken found
  have low := early.isOffset.1
  have high := late.isOffset.2
  rw [least] at low
  rw [greatest] at high
  constructor
  · rw [← same]
    exact early.isPartition
  · constructor
    · exact Int.le_trans low above
    · unfold inI64
      rw [decide_eq_true_iff]
      omega

theorem namesTaken_iff (holds : Holds dq rejected (rangesOf taken) batch) :
    NamesTaken taken batch ↔ NamesNoGap dq rejected taken := by
  constructor
  · intro named own inside index below partition offset names within
    have fits := within.fits
    have reads := (reads_iff index partition offset).mpr
      ⟨names, inI64_of_inI32 fits.1, fits.2.2⟩
    have coordinate := (mem_coordinates_iff partition offset).mpr
      ⟨index, below, reads, fits.1, within⟩
    have version : offset ∈ rejected.flatMap fun own => sourceVersionsOf dq own (rangesOf taken) :=
      List.mem_flatMap.mpr ⟨own, inside, List.mem_map.mpr ⟨_, coordinate, rfl⟩⟩
    rw [← holds.sourceVersions, List.mem_map] at version
    obtain ⟨row, present, same⟩ := version
    rcases named row present with unset | message
    · -- no offset is negative
      have impossible := fits.2.1
      rw [← same, unset] at impossible
      cases impossible
    · rw [same] at message
      exact message
  · intro noGap row present
    have version : row.sourceVersion ∈ batch.map DqRow.sourceVersion :=
      List.mem_map.mpr ⟨row, present, rfl⟩
    rw [holds.sourceVersions, List.mem_flatMap] at version
    obtain ⟨own, inside, held⟩ := version
    obtain ⟨coordinate, made, same⟩ := List.mem_map.mp held
    cases coordinate with
    | none => exact Or.inl same.symm
    | some coordinate =>
        right
        obtain ⟨index, below, reads, _fits, within⟩ := (mem_coordinates_iff _ _).mp made
        have names := ((reads_iff _ _ _).mp reads).1
        rw [← same]
        exact noGap own inside index below _ _ names within

/-- A write records its rejects once, and each of them names a message of the batch or none, when
    no reject names an offset between those that the batch took, and only then. -/
theorem writeKafka_accounted_iff (read : offsets.ranges = rangesOf taken)
    (fresh : ∀ commit ∈ place.log, writeIdOf commit ≠ some writeId)
    (foreign : ∀ attempt, (happens attempt).Foreign writeId)
    (loaded : ∀ version, dq.version = some version → version < place.log.length) :
    (Accounted payloadOf writeId happens dq rejected offsets nowMicros place
        (writeKafka payloadOf writeId happens dq rejected offsets nowMicros place) ∧
      ∀ batch, kafkaBatch payloadOf dq rejected offsets.ranges nowMicros = .ok batch →
        NamesTaken taken batch) ↔
      NamesNoGap dq rejected taken := by
  obtain ⟨batch, made, holds⟩ := kafkaBatch_ok payloadOf dq rejected offsets.ranges nowMicros
  rw [read] at holds
  constructor
  · intro both
    exact (namesTaken_iff holds).mp (both.2 batch made)
  · intro noGap
    constructor
    · exact writeKafka_accounted fresh foreign loaded
    · intro other same
      rw [made] at same
      cases same
      exact (namesTaken_iff holds).mpr noGap

end Named

/-- Offsets 10 and 12 of a partition: a compacted topic has none between. -/
def compacted : List TakenMessage :=
  [⟨0, ⟨10, 0, 1⟩, by decide, by decide⟩, ⟨0, ⟨12, 0, 1⟩, by decide, by decide⟩]

def compactedOffsets : KafkaOffsets where
  ranges := rangesOf compacted
  assert := [(0, 12)]
  marks := [(0, ⟨12, 0, 1⟩)]
  takeoverMarker := false

/-- One reject, with the offset that its SQL left in the offset column. -/
def rejectAt (offset : Int) : Rejected where
  rows := [("kafka_partition", ⟨true, [some 0]⟩), ("kafka_offset", ⟨true, [some offset]⟩)]
  count := 1
  reasons := ["does not fit"]
  columns := [some "amount"]
  eachReason := rfl
  eachColumn := rfl

def compactedDq : KafkaDq where
  appId := "orders"
  pipeline := "orders"
  uri := "s3://silver/orders__ddi_dq"
  kafkaPrefix := "kafka_"
  version := some 0

def created : Place DqCommit where
  log := [{ lines := [] }]

/-- The commit lands, another writer's follows it, and a conflict is reported. -/
def lostAcknowledgement : Happening where
  before := []
  ending := .conflict true "metadata changed"
  after := [.commit { lines := [] }]
  reopening := []
  reopened := .ok ()
  reading _version := ([], .ok ())

/-- The write of that one reject. -/
def retriedWrite (offset : Int) : Except WriteError Nat × KafkaDq × Place DqCommit :=
  writeKafka (fun _rejected _row => none) "one" (fun _attempt => lostAcknowledgement) compactedDq
    [rejectAt offset] compactedOffsets 0 created

def gapRow : DqRow where
  columnName := some "amount"
  reason := "does not fit"
  payload := none
  appId := "orders"
  pipeline := "orders"
  sourceVersion := 11
  timestamp := 0

theorem retriedWrite_eleven :
    retriedWrite 11 = (.ok 1, { compactedDq with version := some 2 },
      { log := [{ lines := [] }, kafkaCommit compactedDq compactedOffsets "one" [gapRow],
          { lines := [] }] }) := by
  unfold retriedWrite writeKafka writeAttempts
  rfl

/-- An offset in the gap is recorded, though no message has it. -/
theorem writeKafka_names_gap :
    (retriedWrite 11).1 = .ok 1 ∧
      kafkaCommit compactedDq compactedOffsets "one" [gapRow] ∈ (retriedWrite 11).2.2.log ∧
      ¬ NamesTaken compacted [gapRow] := by
  rw [retriedWrite_eleven]
  constructor
  · rfl
  · constructor
    · exact List.mem_cons_of_mem _ List.mem_cons_self
    · intro named
      have taken : gapRow.sourceVersion = -1 ∨
          ∃ message ∈ compacted, message.mark.offset = gapRow.sourceVersion :=
        named gapRow List.mem_cons_self
      revert taken
      decide

theorem namesNoGap_rejectAt : NamesNoGap compactedDq [rejectAt 12] compacted := by
  intro own inside index below partition offset names _within
  rw [List.mem_singleton] at inside
  subst inside
  have first : index = 0 := Nat.lt_one_iff.mp below
  subst first
  obtain ⟨_partition, column, found, _integer, value⟩ := names
  cases found
  cases value
  decide

theorem writeKafka_accounted_iff_lost :
    Accounted (fun _rejected _row => none) "one" (fun _attempt => lostAcknowledgement) compactedDq
        [rejectAt 12] compactedOffsets 0 created (retriedWrite 12) ∧
      ∀ batch, kafkaBatch (fun _rejected _row => none) compactedDq [rejectAt 12]
        compactedOffsets.ranges 0 = .ok batch → NamesTaken compacted batch := by
  apply (writeKafka_accounted_iff rfl (by decide) _ _).mpr
  · exact namesNoGap_rejectAt
  · intro _attempt
    constructor
    · intro move none_before
      cases none_before
    · intro move follows
      rw [List.mem_singleton.mp follows]
      unfold Move.Foreign
      decide
    · intro move none_then
      cases none_then
    · intro version move none_read
      cases none_read
  · intro version loaded
    cases loaded
    decide

end Ddi.DqKafka
