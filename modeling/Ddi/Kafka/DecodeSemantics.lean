/-
What a chunk comes to: rows in the order of its messages, each the row its message decodes to
alone, and an entry for each message that has none.
-/

import Ddi.Kafka.Decode

namespace Ddi.Kafka.Decode

/-- A pipeline's decoding: what it is given, and what is documented of that. `holds` says which
messages' rows a decoder of a schema holds, `decodes` what one's row is, if it is taken. -/
structure Setting (D : Type) where
  factory : DecodeFactory D
  kernels : Kernels
  holds : D → Nat → String → List (List UInt8) → Prop
  fields : Nat → String → List Field
  decodes : Nat → String → List UInt8 → Option (List Value)
  /-- The registry's schemas: an id is given to one text for good. -/
  registered : Nat → String
  topic : String
  pre : String

namespace Setting

variable {D : Type} (setting : Setting D)

/-- A decoder takes a message or refuses it whatever it took before, and gives its messages' rows
in order or fails; what a refused message or a failed flush leaves of it is unknown. -/
structure Lawful : Prop where
  built : ∀ {id schema decoder}, setting.factory.build id schema = .ok decoder →
    setting.holds decoder id schema []
  accepted : ∀ {decoder id schema bodies body}, setting.holds decoder id schema bodies →
    (setting.decodes id schema body).isSome →
    ∃ next, setting.factory.decodeOne decoder body = (.ok (), next) ∧
      setting.holds next id schema (bodies ++ [body])
  refused : ∀ {decoder id schema bodies body}, setting.holds decoder id schema bodies →
    setting.decodes id schema body = none →
    ∃ reason next, setting.factory.decodeOne decoder body = (.error reason, next)
  flushed : ∀ {decoder id schema bodies}, setting.holds decoder id schema bodies → bodies ≠ [] →
    (∃ next, setting.factory.flush decoder = (.ok (some {
        fields := setting.fields id schema
        rows := bodies.map fun body => (setting.decodes id schema body).getD [] }), next) ∧
      setting.holds next id schema []) ∨
    ∃ error next, setting.factory.flush decoder = (.error error, next)

/-- A kernel of Arrow's refuses some batch. -/
def Refuses : Prop :=
  (∃ batch, setting.kernels.refusal batch ≠ none) ∨
    ∃ batches, setting.kernels.concatRefusal batches ≠ none

/-- The message names the writer schema, and its body is a record of it. -/
structure Fits (id : Nat) (message : KafkaMessage) : Prop where
  valued : message.value ≠ none
  framed : frame message.body = .ok id
  decodes : (setting.decodes id (setting.registered id) message.body).isSome

/-- The message can become a row: it fits a writer schema that can be decoded, and a decoder that
holds it alone can be flushed. -/
structure WellFormed (id : Nat) (message : KafkaMessage) : Prop where
  fits : setting.Fits id message
  usable : ∃ group,
    groupFor setting.factory setting.kernels setting.pre ⟨id, setting.registered id⟩ = .ready group
  flushes : ∀ decoder error next,
    setting.holds decoder id (setting.registered id) [message.body] →
    setting.factory.flush decoder ≠ (.error error, next)

/-- A message is left without a row only if it is not well-formed, or Arrow refuses a batch. -/
def Blamed (message : KafkaMessage) : Prop :=
  (∃ id, setting.WellFormed id message) → setting.Refuses

def uuids (id : Nat) : List Named :=
  fixedUuids (setting.kernels.parseJson (setting.registered id))

/-- The message's own columns, in the form the target reads. -/
def aloneRow (id : Nat) (message : KafkaMessage) : List Value :=
  normaliseRow (setting.uuids id) (setting.fields id (setting.registered id))
    ((setting.decodes id (setting.registered id) message.body).getD [])

/-- The row a message decodes to alone, with its own metadata. -/
def wholeRow (id : Nat) (message : KafkaMessage) : List Value :=
  setting.aloneRow id message ++ metadataRow setting.topic id message

end Setting

/-! ### What a step adds to a batch -/

def allRows (batches : List RecordBatch) : List (List Value) :=
  batches.flatMap (·.rows)

/-- The entry is about its message. -/
def Names (entry : KafkaMessage × Undecodable) : Prop :=
  entry.2.partition = entry.1.partition ∧ entry.2.offset = entry.1.offset

/-- Rows for the messages kept and entries for those dropped, and nothing else. -/
structure Adds (row : KafkaMessage → List Value) (before later : Out)
    (kept dropped : List KafkaMessage) : Prop where
  rows : allRows later.batches = allRows before.batches ++ kept.map row
  entries : ∃ entries, later.undecodable = before.undecodable ++ entries ∧
    entries.map Prod.fst = dropped ∧ ∀ entry, entry ∈ entries → Names entry
  tombstones : later.tombstones = before.tombstones

section Adding

variable {row : KafkaMessage → List Value} {before later out : Out}
  {kept dropped : List KafkaMessage}

theorem Adds.refl (row : KafkaMessage → List Value) (out : Out) : Adds row out out [] [] := by
  constructor
  · simp
  · exact ⟨[], by simp, rfl, by simp⟩
  · rfl

theorem Adds.trans {middle : Out} {keptNext droppedNext : List KafkaMessage}
    (first : Adds row before middle kept dropped)
    (second : Adds row middle later keptNext droppedNext) :
    Adds row before later (kept ++ keptNext) (dropped ++ droppedNext) := by
  constructor
  · rw [second.rows, first.rows, List.map_append, List.append_assoc]
  · obtain ⟨earlier, found, names, own⟩ := first.entries
    obtain ⟨more, foundNext, namesNext, ownNext⟩ := second.entries
    refine ⟨earlier ++ more, ?_, ?_, ?_⟩
    · rw [foundNext, found, List.append_assoc]
    · rw [List.map_append, names, namesNext]
    · intro entry member
      rcases List.mem_append.mp member with old | new
      · exact own entry old
      · exact ownNext entry new
  · exact second.tombstones.trans first.tombstones

/-- What is still inside decoders is not counted. -/
theorem Adds.pending (adds : Adds row before later kept dropped) (raw : Int) :
    Adds row { before with pendingRaw := raw } later kept dropped :=
  ⟨adds.rows, adds.entries, adds.tombstones⟩

theorem Adds.reject (row : KafkaMessage → List Value) (out : Out) (message : KafkaMessage)
    (schemaId : Option Nat) (reason : String) (deterministic : Bool) :
    Adds row out (out.reject message schemaId reason deterministic) [] [message] := by
  constructor
  · simp [Out.reject]
  · refine ⟨[(message, _)], rfl, rfl, ?_⟩
    intro entry member
    rw [List.mem_singleton.mp member]
    exact ⟨rfl, rfl⟩
  · rfl

theorem Adds.rejectAll (row : KafkaMessage → List Value) (out : Out)
    (messages : List KafkaMessage) (schemaId : Option Nat) (reason : String)
    (deterministic : Bool) :
    Adds row out (out.rejectAll messages schemaId reason deterministic) [] messages := by
  induction messages generalizing out with
  | nil => exact .refl row out
  | cons message messages ih =>
      have first := Adds.reject row out message schemaId reason deterministic
      exact first.trans (ih (out.reject message schemaId reason deterministic))

@[simp] theorem rejectAll_pendingRaw (out : Out) (messages : List KafkaMessage)
    (schemaId : Option Nat) (reason : String) (deterministic : Bool) :
    (out.rejectAll messages schemaId reason deterministic).pendingRaw = out.pendingRaw := by
  induction messages generalizing out with
  | nil => rfl
  | cons message messages ih => exact ih (out.reject message schemaId reason deterministic)

end Adding

variable {D : Type} {setting : Setting D} {id : Nat}

@[simp] theorem emit_pendingRaw (topic pre : String) (rows : RecordBatch)
    (chunk : List KafkaMessage) (raw : Int) (out : Out) :
    (emit setting.kernels topic pre id rows chunk raw out).pendingRaw = out.pendingRaw := by
  unfold emit
  simp only
  split
  · rfl
  · exact rejectAll_pendingRaw _ _ _ _ _

theorem flushOne_semantics (lawful : setting.Lawful) {decoder : D} {message : KafkaMessage}
    (clean : setting.holds decoder id (setting.registered id) [])
    (fits : setting.Fits id message) :
    let result := flushOne setting.factory setting.kernels (setting.uuids id) decoder message
    (result.2.1 = true → setting.holds result.2.2 id (setting.registered id) []) ∧
      match result.1 with
      | .ok batch => batch.rows = [setting.aloneRow id message]
      | .error _ => setting.Blamed message := by
  obtain ⟨taken, decoded, held⟩ := lawful.accepted clean fits.decodes
  unfold flushOne
  simp only [decoded]
  rcases lawful.flushed held (by simp) with ⟨next, flushed, empty⟩ | ⟨error, next, failed⟩
  · simp only [flushed, List.nil_append, List.map_cons, List.map_nil, List.length_singleton,
      if_true]
    constructor
    · intro _clean
      exact empty
    · unfold normalise
      cases refusal : setting.kernels.refusal _ with
      | none => rfl
      | some error =>
          intro _wellFormed
          exact Or.inl ⟨_, by rw [refusal]; simp⟩
  · simp only [failed]
    constructor
    · intro clean
      cases clean
    · rintro ⟨other, wellFormed⟩
      have same : other = id := by
        have framed := wellFormed.fits.framed.symm.trans fits.framed
        simpa using framed
      subst same
      exact absurd failed (wellFormed.flushes taken error next held)

/-- What `flush_one_by_one` keeps to while it goes through a chunk. -/
structure OneByOne.Keeps (setting : Setting D) (id : Nat) (out : Out) (seen : List KafkaMessage)
    (state : OneByOne D) (dropped : List KafkaMessage) : Prop where
  clean : state.clean = true → setting.holds state.decoder id (setting.registered id) []
  rows : state.rows.map (·.rows) = state.kept.map fun message => [setting.aloneRow id message]
  adds : Adds (setting.wholeRow id) out state.out [] dropped
  pending : state.out.pendingRaw = out.pendingRaw
  places : seen.Perm (state.kept ++ dropped)
  ordered : state.kept.Sublist seen
  blamed : ∀ message, message ∈ dropped → setting.Blamed message

theorem OneByOne.Keeps.next (lawful : setting.Lawful) {out : Out}
    {seen dropped : List KafkaMessage} {state : OneByOne D} {message : KafkaMessage}
    (keeps : state.Keeps setting id out seen dropped)
    (builds : ∃ decoder, setting.factory.build id (setting.registered id) = .ok decoder)
    (fits : setting.Fits id message) :
    ∃ more, (state.next setting.factory setting.kernels id (setting.registered id)
      (setting.uuids id) message).Keeps setting id out (seen ++ [message]) more := by
  have ready : ∃ decoder, (if state.clean then .ok state.decoder
      else setting.factory.build id (setting.registered id)) = .ok decoder ∧
        setting.holds decoder id (setting.registered id) [] := by
    by_cases clean : state.clean = true
    · exact ⟨state.decoder, if_pos clean, keeps.clean clean⟩
    · obtain ⟨decoder, built⟩ := builds
      exact ⟨decoder, by rw [if_neg clean, built], lawful.built built⟩
  obtain ⟨decoder, chosen, empty⟩ := ready
  have one := flushOne_semantics lawful empty fits
  unfold OneByOne.next
  rw [chosen]
  dsimp only
  generalize flushOne setting.factory setting.kernels (setting.uuids id) decoder message =
    result at one
  obtain ⟨error | batch, clean, left⟩ := result
  · obtain ⟨cleaned, blamed⟩ := one
    refine ⟨dropped ++ [message], cleaned, keeps.rows, ?_, keeps.pending, ?_, ?_, ?_⟩
    · exact keeps.adds.trans (.reject _ _ message _ _ _)
    · rw [← List.append_assoc]
      exact keeps.places.append_right [message]
    · exact keeps.ordered.trans (List.sublist_append_left seen [message])
    · intro other member
      rcases List.mem_append.mp member with old | new
      · exact keeps.blamed other old
      · rw [List.mem_singleton.mp new]
        exact blamed
  · obtain ⟨cleaned, row⟩ := one
    refine ⟨dropped, cleaned, ?_, keeps.adds, keeps.pending, ?_, ?_, keeps.blamed⟩
    · simp only [List.map_append, List.map_cons, List.map_nil, keeps.rows]
      rw [row]
    · apply (keeps.places.append_right [message]).trans
      rw [List.append_assoc, List.append_assoc]
      exact (List.perm_append_comm).append_left state.kept
    · exact keeps.ordered.append (List.Sublist.refl [message])

/-- A whole chunk gone through. -/
theorem OneByOne.Keeps.all (lawful : setting.Lawful) {out : Out}
    (builds : ∃ decoder, setting.factory.build id (setting.registered id) = .ok decoder)
    {messages seen dropped : List KafkaMessage} {state : OneByOne D}
    (keeps : state.Keeps setting id out seen dropped)
    (fits : ∀ message, message ∈ messages → setting.Fits id message) :
    ∃ more, (messages.foldl (OneByOne.next setting.factory setting.kernels id
      (setting.registered id) (setting.uuids id)) state).Keeps setting id out
        (seen ++ messages) more := by
  induction messages generalizing seen dropped state with
  | nil =>
      rw [List.append_nil]
      exact ⟨dropped, keeps⟩
  | cons message messages ih =>
      obtain ⟨more, next⟩ := keeps.next lawful builds (fits message List.mem_cons_self)
      obtain ⟨most, all⟩ := ih next fun other member => fits other (List.mem_cons_of_mem _ member)
      rw [List.append_assoc] at all
      exact ⟨most, all⟩

/-! ### A chunk flushed -/

/-- A group of a writer schema, apart from what its decoder holds. -/
structure Ready.Known (setting : Setting D) (id : Nat) (group : Ready D) : Prop where
  schema : group.schema = ⟨id, setting.registered id⟩
  uuids : group.fixedUuids = setting.uuids id
  builds : ∃ decoder, setting.factory.build id (setting.registered id) = .ok decoder
  fits : ∀ message, message ∈ group.chunk → setting.Fits id message

/-- A group whose decoder holds its chunk's rows. -/
structure Ready.Sound (setting : Setting D) (id : Nat) (group : Ready D) : Prop
    extends group.Known setting id where
  decoder : setting.holds group.decoder id (setting.registered id)
    (group.chunk.map KafkaMessage.body)

/-- What became of a chunk, all of it out of the decoder. -/
structure Flushes (setting : Setting D) (id : Nat) (chunk : List KafkaMessage) (out : Out)
    (later : Ready D × Out) (kept dropped : List KafkaMessage) : Prop where
  sound : later.1.Sound setting id
  empty : later.1.chunk = []
  adds : Adds (setting.wholeRow id) out later.2 kept dropped
  pending : later.2.pendingRaw = out.pendingRaw - rawSum chunk
  places : chunk.Perm (kept ++ dropped)
  ordered : kept.Sublist chunk
  blamed : ∀ message, message ∈ dropped → setting.Blamed message

/-- What became of a group's chunk and a message fed to it. -/
structure Moves (setting : Setting D) (id : Nat) (before : Ready D × Out) (message : KafkaMessage)
    (later : Ready D × Out) (kept dropped : List KafkaMessage) : Prop where
  sound : later.1.Sound setting id
  adds : Adds (setting.wholeRow id) before.2 later.2 kept dropped
  pending : later.2.pendingRaw - rawSum later.1.chunk =
    before.2.pendingRaw - rawSum before.1.chunk
  places : (before.1.chunk ++ [message]).Perm (kept ++ dropped ++ later.1.chunk)
  ordered : (kept ++ later.1.chunk).Sublist (before.1.chunk ++ [message])
  fits : ∀ message, message ∈ kept → setting.Fits id message
  blamed : ∀ message, message ∈ dropped → setting.Blamed message

@[simp] theorem rawSum_append (first second : List KafkaMessage) :
    rawSum (first ++ second) = rawSum first + rawSum second := by
  simp [rawSum]

@[simp] theorem rawSum_nil : rawSum [] = 0 := rfl

@[simp] theorem rawSum_singleton (message : KafkaMessage) : rawSum [message] = message.rawLen := by
  simp [rawSum]

/-- A flush is all that becomes of a chunk that has taken the message. -/
theorem Flushes.moves {group : Ready D} {out : Out} {message : KafkaMessage}
    {later : Ready D × Out} {kept dropped : List KafkaMessage}
    (flushes : Flushes setting id (group.chunk ++ [message])
      { out with pendingRaw := out.pendingRaw + message.rawLen } later kept dropped)
    (fits : ∀ other, other ∈ group.chunk ++ [message] → setting.Fits id other) :
    Moves setting id (group, out) message later kept dropped where
  sound := flushes.sound
  adds := flushes.adds.pending out.pendingRaw
  pending := by
    rw [flushes.pending, flushes.empty]
    simp only [rawSum_append, rawSum_singleton, rawSum_nil]
    omega
  places := by
    rw [flushes.empty, List.append_nil]
    exact flushes.places
  ordered := by
    rw [flushes.empty, List.append_nil]
    exact flushes.ordered
  fits := fun other member => fits other (flushes.ordered.subset member)
  blamed := flushes.blamed

end Ddi.Kafka.Decode
