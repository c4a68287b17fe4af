/-
Where the messages of a batch are: each in one row, one entry, the count of tombstones or a
decoder, through every feed, finish and discard.
-/

import Ddi.Kafka.DecodeSemantics
import Mathlib.Algebra.BigOperators.Group.List.Basic

namespace Ddi.Kafka.Decode

variable {D : Type} {setting : Setting D} {id : Nat}

/-! ### The chunks beside the decoders -/

def Group.chunk : Group D → List KafkaMessage
  | .ready group => group.chunk
  | _ => []

def chunks (groups : List (Nat × Group D)) : List KafkaMessage :=
  groups.flatMap fun entry => entry.2.chunk

def chunkOf (id : Nat) (groups : List (Nat × Group D)) : List KafkaMessage :=
  chunks (groups.filter fun entry => entry.1 == id)

/-- The messages of one writer schema among those that have a row. -/
def emittedOf (id : Nat) (emitted : List (Nat × KafkaMessage)) : List KafkaMessage :=
  (emitted.filter fun entry => entry.1 == id).map Prod.snd

theorem chunks_append (first second : List (Nat × Group D)) :
    chunks (first ++ second) = chunks first ++ chunks second := by
  simp [chunks]

theorem chunkOf_append (id : Nat) (first second : List (Nat × Group D)) :
    chunkOf id (first ++ second) = chunkOf id first ++ chunkOf id second := by
  simp [chunkOf, chunks]

theorem chunkOf_cons (other id : Nat) (group : Group D) (groups : List (Nat × Group D)) :
    chunkOf other ((id, group) :: groups) =
      (if other = id then group.chunk else []) ++ chunkOf other groups := by
  unfold chunkOf chunks
  by_cases same : other = id
  · simp [same]
  · simp [same, Ne.symm same]

theorem chunkOf_away {groups : List (Nat × Group D)}
    (away : ∀ entry, entry ∈ groups → entry.1 ≠ id) : chunkOf id groups = [] := by
  unfold chunkOf
  rw [List.filter_eq_nil_iff.mpr]
  · rfl
  · intro entry member
    simp [away entry member]

theorem chunkOf_sublist (id : Nat) (groups : List (Nat × Group D)) :
    (chunkOf id groups).Sublist (chunks groups) := by
  induction groups with
  | nil => exact List.Sublist.refl []
  | cons head groups ih =>
      unfold chunkOf chunks at *
      by_cases same : head.1 = id
      · rw [List.filter_cons_of_pos (by simpa using same), List.flatMap_cons, List.flatMap_cons]
        exact (List.Sublist.refl _).append ih
      · rw [List.filter_cons_of_neg (by simpa using same), List.flatMap_cons]
        exact ih.trans (List.sublist_append_right _ _)

theorem emittedOf_append (id : Nat) (first second : List (Nat × KafkaMessage)) :
    emittedOf id (first ++ second) = emittedOf id first ++ emittedOf id second := by
  simp [emittedOf]

theorem emittedOf_own (id other : Nat) (messages : List KafkaMessage) :
    emittedOf other (messages.map fun message => (id, message)) =
      if other = id then messages else [] := by
  unfold emittedOf
  by_cases same : other = id
  · subst same
    rw [if_pos rfl, List.filter_eq_self.mpr (by simp), List.map_map]
    exact List.map_id messages
  · rw [if_neg same, List.filter_eq_nil_iff.mpr]
    · rfl
    · intro entry member
      obtain ⟨message, _member, rfl⟩ := List.mem_map.mp member
      simpa using Ne.symm same

theorem rawSum_perm {first second : List KafkaMessage} (same : first.Perm second) :
    rawSum first = rawSum second :=
  (same.map _).sum_eq

theorem chunks_insert {groups : List (Nat × Group D)} (sorted : Ordered.Sorted groups) (id : Nat)
    (group : Group D) :
    ∃ others, (chunks groups).Perm (((groups.lookup id).map Group.chunk).getD [] ++ others) ∧
      (chunks (Ordered.insert id group groups)).Perm (group.chunk ++ others) := by
  obtain ⟨before, later, held, groups_eq, inserted, found, _below, _above⟩ :=
    Ordered.insert_split id group sorted
  have own : chunks held = ((groups.lookup id).map Group.chunk).getD [] := by
    rw [found]
    cases groups.lookup id with
    | none => rfl
    | some group => simp [chunks]
  refine ⟨chunks before ++ chunks later, ?_, ?_⟩
  · rw [← own]
    conv_lhs => rw [groups_eq, chunks_append, chunks_append, List.append_assoc]
    exact List.perm_append_comm_assoc (chunks before) (chunks held) (chunks later)
  · rw [inserted, chunks_append]
    exact List.perm_append_comm_assoc (chunks before) group.chunk (chunks later)

theorem chunkOf_insert {groups : List (Nat × Group D)} (sorted : Ordered.Sorted groups)
    (id other : Nat) (group : Group D) :
    chunkOf other (Ordered.insert id group groups) =
      if other = id then group.chunk else chunkOf other groups := by
  obtain ⟨before, later, held, groups_eq, inserted, found, below, above⟩ :=
    Ordered.insert_split id group sorted
  rw [inserted, chunkOf_append, chunkOf_cons]
  by_cases same : other = id
  · subst same
    rw [if_pos rfl, if_pos rfl, chunkOf_away fun entry member => (below entry member).ne,
      chunkOf_away fun entry member => (above entry member).ne', List.append_nil, List.nil_append]
  · rw [if_neg same, if_neg same, groups_eq, chunkOf_append, chunkOf_append]
    have away : chunkOf other held = [] := by
      apply chunkOf_away
      intro entry member
      rw [found] at member
      obtain ⟨_group, _found, rfl⟩ := List.mem_map.mp member
      exact Ne.symm same
    rw [away, List.append_nil, List.nil_append]

theorem chunkOf_lookup {groups : List (Nat × Group D)} (sorted : Ordered.Sorted groups)
    {group : Group D} (found : groups.lookup id = some group) :
    chunkOf id groups = group.chunk := by
  obtain ⟨before, later, held, groups_eq, _inserted, held_eq, below, above⟩ :=
    Ordered.insert_split id group sorted
  rw [groups_eq, chunkOf_append, chunkOf_append, held_eq, found,
    chunkOf_away fun entry member => (below entry member).ne,
    chunkOf_away fun entry member => (above entry member).ne']
  simp [chunkOf, chunks]

theorem mem_of_lookup {groups : List (Nat × Group D)} {group : Group D}
    (found : groups.lookup id = some group) : (id, group) ∈ groups := by
  obtain ⟨before, later, rfl, _absent⟩ := List.lookup_eq_some_iff.mp found
  simp

theorem mem_insert {groups : List (Nat × Group D)} {group : Group D} {entry : Nat × Group D}
    (sorted : Ordered.Sorted groups) (member : entry ∈ Ordered.insert id group groups) :
    entry = (id, group) ∨ entry ∈ groups := by
  obtain ⟨before, later, held, groups_eq, inserted, _found, _below, _above⟩ :=
    Ordered.insert_split id group sorted
  rw [inserted, List.mem_append, List.mem_cons] at member
  rw [groups_eq, List.mem_append, List.mem_append]
  rcases member with first | rfl | last
  · exact Or.inr (Or.inl (Or.inl first))
  · exact Or.inl rfl
  · exact Or.inr (Or.inr last)

/-! ### Where the messages of a batch are -/

/-- What is known of a group: one that is unusable is so for its schema, or by the registry. -/
def Group.Sound (setting : Setting D) (disowned : Nat → Prop) (id : Nat) : Group D → Prop
  | .ready group => group.Sound setting id
  | .unusable _ => disowned id ∨
      ∀ group, groupFor setting.factory setting.kernels setting.pre ⟨id, setting.registered id⟩ ≠
        .ready group
  | .collision _ => True

/-- Each message taken has a row, an entry, a place in the count or one in a chunk. -/
structure KafkaDecoder.Accounts (setting : Setting D) (disowned : Nat → Prop)
    (decoder : KafkaDecoder D) (taken : List KafkaMessage) (emitted : List (Nat × KafkaMessage))
    (rejected tombs : List KafkaMessage) : Prop where
  topic : decoder.topic = setting.topic
  pre : decoder.pre = setting.pre
  sorted : Ordered.Sorted decoder.groups
  groups : ∀ entry, entry ∈ decoder.groups → entry.2.Sound setting disowned entry.1
  rows : allRows decoder.out.batches = emitted.map fun entry => setting.wholeRow entry.1 entry.2
  fits : ∀ entry, entry ∈ emitted → setting.Fits entry.1 entry.2
  entries : decoder.out.undecodable.map Prod.fst = rejected
  named : ∀ entry, entry ∈ decoder.out.undecodable → Names entry
  tombstones : decoder.out.tombstones = tombs.length
  pending : decoder.out.pendingRaw = rawSum (chunks decoder.groups)
  places : taken.Perm (emitted.map Prod.snd ++ rejected ++ tombs ++ chunks decoder.groups)
  ordered : ∀ id, (emittedOf id emitted ++ chunkOf id decoder.groups).Sublist taken
  absent : ∀ message, message ∈ tombs → message.value = none
  valued : ∀ message, message ∈ rejected → message.value ≠ none
  blamed : ∀ message, message ∈ rejected → ∀ id, setting.WellFormed id message →
    setting.Refuses ∨ disowned id

namespace KafkaDecoder

variable {disowned : Nat → Prop} {decoder : KafkaDecoder D} {taken : List KafkaMessage}
  {emitted : List (Nat × KafkaMessage)} {rejected tombs : List KafkaMessage}
  {message : KafkaMessage}

theorem Accounts.new (setting : Setting D) (disowned : Nat → Prop) :
    (KafkaDecoder.new setting.topic setting.pre : KafkaDecoder D).Accounts setting disowned
      [] [] [] [] := by
  constructor
  · rfl
  · rfl
  · exact List.Pairwise.nil
  · intro entry member
    cases member
  · rfl
  · intro entry member
    cases member
  · rfl
  · intro entry member
    cases member
  · rfl
  · rfl
  · exact List.Perm.refl []
  · intro id
    exact List.Sublist.refl []
  · intro message member
    cases member
  · intro message member
    cases member
  · intro message member
    cases member

/-- A message without a value is counted. -/
theorem Accounts.tombstone (accounts : decoder.Accounts setting disowned taken emitted rejected tombs)
    (absent : message.value = none) :
    ({ decoder with out := { decoder.out with tombstones := decoder.out.tombstones + 1 } } :
        KafkaDecoder D).Accounts setting disowned (taken ++ [message]) emitted rejected
      (tombs ++ [message]) :=
  { accounts with
    tombstones := by rw [List.length_append]; exact congrArg (· + 1) accounts.tombstones
    places := by
      apply (accounts.places.append_right [message]).trans
      rw [List.append_assoc, List.append_assoc (emitted.map Prod.snd ++ rejected),
        List.append_assoc _ (tombs ++ [message]), List.append_assoc tombs]
      exact ((List.perm_append_comm).append_left tombs).append_left _
    ordered := fun id => (accounts.ordered id).trans (List.sublist_append_left taken [message])
    absent := by
      intro other member
      rcases List.mem_append.mp member with old | new
      · exact accounts.absent other old
      · rw [List.mem_singleton.mp new]
        exact absent }

/-- A message with a value is rejected, for a reason that is its own or the registry's. -/
theorem Accounts.reject (accounts : decoder.Accounts setting disowned taken emitted rejected tombs)
    (valued : message.value ≠ none)
    (blamed : ∀ id, setting.WellFormed id message → setting.Refuses ∨ disowned id)
    (schemaId : Option Nat) (reason : String) (deterministic : Bool) :
    ({ decoder with out := decoder.out.reject message schemaId reason deterministic } :
        KafkaDecoder D).Accounts setting disowned (taken ++ [message]) emitted
      (rejected ++ [message]) tombs := by
  refine { accounts with entries := ?_, named := ?_, places := ?_, ordered := ?_, valued := ?_, blamed := ?_ }
  · rw [← accounts.entries]
    simp [Out.reject]
  · intro entry member
    rcases List.mem_append.mp member with old | new
    · exact accounts.named entry old
    · rw [List.mem_singleton.mp new]
      exact ⟨rfl, rfl⟩
  · apply (accounts.places.append_right [message]).trans
    simp only [List.append_assoc]
    refine (List.Perm.append_left rejected ?_).append_left _
    rw [← List.append_assoc, ← List.append_assoc]
    exact List.perm_append_comm
  · exact fun id => (accounts.ordered id).trans (List.sublist_append_left taken [message])
  · intro other member
    rcases List.mem_append.mp member with old | new
    · exact accounts.valued other old
    · rw [List.mem_singleton.mp new]
      exact valued
  · intro other member
    rcases List.mem_append.mp member with old | new
    · exact accounts.blamed other old
    · rw [List.mem_singleton.mp new]
      exact blamed

/-- A writer schema met for the first time. -/
theorem Accounts.learns (accounts : decoder.Accounts setting disowned taken emitted rejected tombs)
    {group : Group D} (unknown : decoder.groups.lookup id = none)
    (sound : group.Sound setting disowned id) (empty : group.chunk = []) :
    ({ decoder with groups := Ordered.insert id group decoder.groups } :
        KafkaDecoder D).Accounts setting disowned taken emitted rejected tombs := by
  obtain ⟨others, before, later⟩ := chunks_insert accounts.sorted id group
  have same : (chunks (Ordered.insert id group decoder.groups)).Perm (chunks decoder.groups) := by
    rw [unknown] at before
    rw [empty] at later
    exact later.trans before.symm
  refine { accounts with
    sorted := accounts.sorted.insert id group, groups := ?_, pending := ?_, places := ?_, ordered := ?_ }
  · intro entry member
    rcases mem_insert accounts.sorted member with rfl | old
    · exact sound
    · exact accounts.groups entry old
  · exact accounts.pending.trans (rawSum_perm same).symm
  · exact accounts.places.trans (same.symm.append_left _)
  · intro other
    have apart : chunkOf other (Ordered.insert id group decoder.groups) =
        chunkOf other decoder.groups := by
      rw [chunkOf_insert accounts.sorted]
      by_cases own : other = id
      · subst own
        rw [if_pos rfl, empty]
        symm
        apply chunkOf_away
        intro entry member known
        have found := List.lookup_eq_none_iff.mp unknown entry member
        simp [known] at found
      · exact if_neg own
    rw [apart]
    exact accounts.ordered other

/-- A message fed to the group of its writer schema. -/
theorem Accounts.moved (accounts : decoder.Accounts setting disowned taken emitted rejected tombs)
    {group : Ready D} {later : Ready D × Out} {kept dropped : List KafkaMessage}
    (known : decoder.groups.lookup id = some (.ready group)) (valued : message.value ≠ none)
    (moves : Moves setting id (group, decoder.out) message later kept dropped) :
    ({ decoder with
        groups := Ordered.insert id (.ready later.1) decoder.groups
        out := later.2 } : KafkaDecoder D).Accounts setting disowned (taken ++ [message])
      (emitted ++ kept.map fun message => (id, message)) (rejected ++ dropped) tombs := by
  obtain ⟨others, before, now⟩ := chunks_insert accounts.sorted id (.ready later.1)
  rw [known, Option.map_some, Option.getD_some] at before
  obtain ⟨entries, found, names, own⟩ := moves.adds.entries
  have inside : ∀ other, other ∈ group.chunk ++ [message] → other.value ≠ none := by
    intro other member
    rcases List.mem_append.mp member with old | new
    · have sound : group.Sound setting id :=
        accounts.groups (id, .ready group) (mem_of_lookup known)
      exact (sound.fits other old).valued
    · rw [List.mem_singleton.mp new]
      exact valued
  constructor
  · exact accounts.topic
  · exact accounts.pre
  · exact accounts.sorted.insert id _
  · intro entry member
    rcases mem_insert accounts.sorted member with rfl | old
    · exact moves.sound
    · exact accounts.groups entry old
  · rw [moves.adds.rows, accounts.rows, List.map_append, List.map_map]
    rfl
  · intro entry member
    rcases List.mem_append.mp member with old | new
    · exact accounts.fits entry old
    · obtain ⟨other, keeps, rfl⟩ := List.mem_map.mp new
      exact moves.fits other keeps
  · rw [found, List.map_append, accounts.entries, names]
  · intro entry member
    rw [found] at member
    rcases List.mem_append.mp member with old | new
    · exact accounts.named entry old
    · exact own entry new
  · exact moves.adds.tombstones.trans accounts.tombstones
  · have pending := moves.pending
    simp only at pending
    rw [rawSum_perm now]
    have earlier := accounts.pending
    rw [rawSum_perm before] at earlier
    simp only [rawSum_append, Group.chunk] at earlier ⊢
    omega
  · -- The group's own chunk and the message come to what is kept, dropped and still in it.
    have arrived : (taken ++ [message]).Perm
        (emitted.map Prod.snd ++ rejected ++ tombs ++ others ++ (group.chunk ++ [message])) := by
      rw [← List.append_assoc]
      apply List.Perm.append_right
      rw [List.append_assoc _ others]
      exact accounts.places.trans ((before.trans List.perm_append_comm).append_left _)
    apply arrived.trans
    apply ((moves.places).append_left _).trans
    apply List.Perm.trans ?_ ((now.symm).append_left _)
    rw [List.map_append, List.map_map]
    have kept_eq : kept.map (Prod.snd ∘ fun message => (id, message)) = kept := List.map_id kept
    rw [kept_eq]
    simp only [Group.chunk]
    rw [List.perm_iff_count]
    intro other
    simp only [List.count_append]
    omega
  · intro other
    rw [emittedOf_append, emittedOf_own, chunkOf_insert accounts.sorted]
    by_cases same : other = id
    · subst same
      have earlier := accounts.ordered other
      rw [chunkOf_lookup accounts.sorted known] at earlier
      rw [if_pos rfl, if_pos rfl, List.append_assoc]
      apply ((moves.ordered).append_left _).trans
      rw [← List.append_assoc]
      exact earlier.append (List.Sublist.refl [message])
    · rw [if_neg same, if_neg same, List.append_nil]
      exact (accounts.ordered other).trans (List.sublist_append_left taken [message])
  · exact accounts.absent
  · intro other member
    rcases List.mem_append.mp member with old | new
    · exact accounts.valued other old
    · apply inside other
      rw [moves.places.mem_iff]
      exact List.mem_append_left _ (List.mem_append_right _ new)
  · intro other member names wellFormed
    rcases List.mem_append.mp member with old | new
    · exact accounts.blamed other old names wellFormed
    · exact Or.inl (moves.blamed other new ⟨names, wellFormed⟩)

/-- A batch is accounted for, wherever each of its messages is. -/
def Accounted (setting : Setting D) (disowned : Nat → Prop) (decoder : KafkaDecoder D)
    (taken : List KafkaMessage) : Prop :=
  ∃ emitted rejected tombs, decoder.Accounts setting disowned taken emitted rejected tombs

/-- What flushing every group comes to: nothing is left in a chunk. -/
structure Drained (setting : Setting D) (disowned : Nat → Prop) (groups : List (Nat × Group D))
    (out : Out) (later : List (Nat × Group D) × Out) (more : List (Nat × KafkaMessage))
    (dropped : List KafkaMessage) : Prop where
  keys : later.1.map Prod.fst = groups.map Prod.fst
  sound : ∀ entry, entry ∈ later.1 → entry.2.Sound setting disowned entry.1
  empty : ∀ entry, entry ∈ later.1 → entry.2.chunk = []
  rows : allRows later.2.batches =
    allRows out.batches ++ more.map fun entry => setting.wholeRow entry.1 entry.2
  entries : ∃ entries, later.2.undecodable = out.undecodable ++ entries ∧
    entries.map Prod.fst = dropped ∧ ∀ entry, entry ∈ entries → Names entry
  tombstones : later.2.tombstones = out.tombstones
  pending : later.2.pendingRaw = out.pendingRaw - rawSum (chunks groups)
  places : (chunks groups).Perm (more.map Prod.snd ++ dropped)
  ordered : ∀ id, (emittedOf id more).Sublist (chunkOf id groups)
  fits : ∀ entry, entry ∈ more → setting.Fits entry.1 entry.2
  valued : ∀ message, message ∈ dropped → message.value ≠ none
  blamed : ∀ message, message ∈ dropped → setting.Blamed message

/-- A group with no chunk is passed by. -/
theorem Drained.idle {groups : List (Nat × Group D)} {out : Out} {group : Group D}
    {later : List (Nat × Group D) × Out} {more : List (Nat × KafkaMessage)}
    {dropped : List KafkaMessage} (drained : Drained setting disowned groups out later more dropped)
    (own : group.Sound setting disowned id) (empty : group.chunk = []) :
    Drained setting disowned ((id, group) :: groups) out ((id, group) :: later.1, later.2) more
      dropped := by
  have chunks_eq : chunks ((id, group) :: groups) = chunks groups := by
    change group.chunk ++ chunks groups = chunks groups
    rw [empty, List.nil_append]
  refine { drained with
    keys := congrArg (id :: ·) drained.keys
    sound := ?_, empty := ?_, pending := ?_, places := ?_, ordered := ?_ }
  · intro entry member
    rcases List.mem_cons.mp member with rfl | behind
    · exact own
    · exact drained.sound entry behind
  · intro entry member
    rcases List.mem_cons.mp member with rfl | behind
    · exact empty
    · exact drained.empty entry behind
  · rw [chunks_eq]
    exact drained.pending
  · rw [chunks_eq]
    exact drained.places
  · intro other
    rw [chunkOf_cons, empty, ite_self, List.nil_append]
    exact drained.ordered other

/-- A decoder with nothing in any chunk and nothing produced. -/
theorem Accounts.emptied (accounts : decoder.Accounts setting disowned taken emitted rejected tombs)
    {groups : List (Nat × Group D)}
    (keys : groups.map Prod.fst = decoder.groups.map Prod.fst)
    (sound : ∀ entry, entry ∈ groups → entry.2.Sound setting disowned entry.1)
    (empty : ∀ entry, entry ∈ groups → entry.2.chunk = []) :
    ({ decoder with groups, out := {} } : KafkaDecoder D).Accounts setting disowned [] [] [] [] := by
  have nothing : chunks groups = [] := List.flatMap_eq_nil_iff.mpr empty
  constructor
  · exact accounts.topic
  · exact accounts.pre
  · have sorted : (decoder.groups.map Prod.fst).Pairwise fun first second => first < second :=
      List.pairwise_map.mpr accounts.sorted
    rw [← keys] at sorted
    exact List.pairwise_map.mp sorted
  · exact sound
  · rfl
  · intro entry member
    cases member
  · rfl
  · intro entry member
    cases member
  · rfl
  · simp [nothing, rawSum]
  · simp [nothing]
  · intro id
    have none_of : chunkOf id groups = [] := by
      have below := chunkOf_sublist id groups
      rw [nothing] at below
      exact List.sublist_nil.mp below
    simp [none_of, emittedOf]
  · intro message member
    cases member
  · intro message member
    cases member
  · intro message member
    cases member

/-- A closed batch: each message taken is in one row, one entry or the count of tombstones. -/
structure Delivered (setting : Setting D) (disowned : Nat → Prop) (taken : List KafkaMessage)
    (decoded : Decoded) (emitted : List (Nat × KafkaMessage))
    (rejected tombs : List KafkaMessage) : Prop where
  places : taken.Perm (emitted.map Prod.snd ++ rejected ++ tombs)
  /-- Each row is the one its message decodes to alone, with that message's metadata. -/
  rows : allRows decoded.batches = emitted.map fun entry => setting.wholeRow entry.1 entry.2
  fits : ∀ entry, entry ∈ emitted → setting.Fits entry.1 entry.2
  entries : decoded.undecodable.map (fun entry => (entry.partition, entry.offset)) =
    rejected.map fun message => (message.partition, message.offset)
  tombstones : decoded.tombstones = tombs.length
  absent : ∀ message, message ∈ tombs → message.value = none
  valued : ∀ message, message ∈ rejected → message.value ≠ none
  /-- The rows of one writer schema are in the order their messages arrived in. -/
  ordered : ∀ id, (emittedOf id emitted).Sublist taken
  /-- A well-formed message is rejected only where Arrow or the registry fails. -/
  spared : ∀ message, message ∈ rejected → ∀ id, setting.WellFormed id message →
    setting.Refuses ∨ disowned id

end KafkaDecoder

/-! ### Runs -/

inductive Event
  | feed (message : KafkaMessage) (answer : Except String Lookup)
  | finish
  | discard

/-- The decoder, and the messages it has taken into the batch. -/
def Event.step (factory : DecodeFactory D) (kernels : Kernels) :
    KafkaDecoder D × List KafkaMessage → Event → KafkaDecoder D × List KafkaMessage
  | (decoder, taken), .feed message answer =>
      let fed := decoder.feed factory kernels message answer
      (fed.2, if fed.1.toBool then taken ++ [message] else taken)
  | (decoder, _), .finish => ((decoder.finish factory kernels).2, [])
  | (decoder, _), .discard => (decoder.discard factory, [])

def run (factory : DecodeFactory D) (kernels : Kernels) (topic pre : String)
    (events : List Event) : KafkaDecoder D × List KafkaMessage :=
  events.foldl (Event.step factory kernels) (.new topic pre, [])

def sampleMessage (offset : Int) (value : Option (List UInt8)) : KafkaMessage :=
  ⟨0, offset, .createTime 1000, none, value, []⟩

end Ddi.Kafka.Decode
