/-
The rows of a group's commits over whole runs: a commit that moves a partition from one offset to
another holds exactly its rows between them.
-/

import Ddi.Kafka.AccountingSteps
import Ddi.Kafka.Handle

namespace Ddi.Kafka

open Registers (Writes read)

/-- What the members of a group meet of the brokers: a topic and its watermarks, and where each
member's consumer stands. -/
structure Cluster where
  topic : Topic
  explicit : Int → Option Int
  low : Int → Int
  high : Int → Int
  position : Nat → Int → Int

def Cluster.of (cluster : Cluster) (index : Nat) : Brokers where
  topic := cluster.topic
  explicit := cluster.explicit
  low := cluster.low
  high := cluster.high
  position := cluster.position index

/-- The rows of a partition past an offset of it, or from its start when it has none. -/
def Topic.rowsAfter (topic : Topic) (explicit : Int → Option Int) (partition : Int)
    (stored : Option Int) (last : Int) : List KafkaMessage :=
  (topic.between partition (accounted stored (explicit partition)) last).filter fun message =>
    message.payload == .row

def KafkaBatch.rowsOf (batch : KafkaBatch) (partition : Int) : List KafkaMessage :=
  batch.decoded.filter fun message => message.partition == partition

/-- A commit over a log holds, of each partition it moves, exactly the rows it moves it past, and
leaves every other one where it was. -/
structure Moves (topic : Topic) (explicit : Int → Option Int) (log : List (Writes TxnId Int))
    (txns : Writes TxnId Int) (batch : KafkaBatch) : Prop where
  rows : ∀ partition first last, batch.ranges.lookup partition = some (first, last) →
    read (log ++ [txns]) (.partition partition) = some last ∧
      batch.rowsOf partition =
        topic.rowsAfter explicit partition (read log (.partition partition)) last
  others : ∀ partition, batch.ranges.lookup partition = none →
    read (log ++ [txns]) (.partition partition) = read log (.partition partition) ∧
      batch.rowsOf partition = []

/-- A commit on its way asserts what its snapshot has, and its batch holds the rows from there. -/
structure Prepared (topic : Topic) (explicit : Int → Option Int) (log : List (Writes TxnId Int))
    (sent : Plan × KafkaBatch) : Prop where
  within : sent.1.snapshot ≤ log.length
  rows : ∀ partition first last, sent.2.ranges.lookup partition = some (first, last) →
    sent.1.offsets.assert.lookup partition = some last ∧
      sent.2.rowsOf partition = topic.rowsAfter explicit partition
        (read (log.take sent.1.snapshot) (.partition partition)) last
  others : ∀ partition, sent.2.ranges.lookup partition = none →
    sent.2.rowsOf partition = [] ∧
      ∀ version, sent.1.offsets.assert.lookup partition = some version →
        read (log.take sent.1.snapshot) (.partition partition) = some version

variable {topic : Topic} {explicit : Int → Option Int} {log : List (Writes TxnId Int)}
  {sent : Plan × KafkaBatch}

theorem Prepared.later (prepared : Prepared topic explicit log sent)
    (more : List (Writes TxnId Int)) : Prepared topic explicit (log ++ more) sent where
  within := by
    rw [List.length_append]
    exact Nat.le_add_right_of_le prepared.within
  rows := by
    rw [List.take_append_of_le_length prepared.within]
    exact prepared.rows
  others := by
    rw [List.take_append_of_le_length prepared.within]
    exact prepared.others

/-- What is let through finds what it asserts as its snapshot had it. -/
theorem letThrough_read {plan : Plan} (through : plan.letThrough log = true)
    {partition version : Int} (asserts : plan.offsets.assert.lookup partition = some version) :
    read log (.partition partition) = read (log.take plan.snapshot) (.partition partition) := by
  apply Registers.read_of_unwritten through
  exact (Assoc.mem_keys_iff _ _).mpr ⟨version, (txns_lookup _ _).trans asserts⟩

theorem Prepared.moves (prepared : Prepared topic explicit log sent)
    (through : sent.1.letThrough log = true) :
    Moves topic explicit log sent.1.offsets.txns sent.2 where
  rows := by
    intro partition first last inside
    obtain ⟨asserts, rows⟩ := prepared.rows partition first last inside
    constructor
    · apply Registers.read_snoc_of_write
      exact (txns_lookup _ _).trans asserts
    · rw [letThrough_read through asserts]
      exact rows
  others := by
    intro partition outside
    obtain ⟨bare, frame⟩ := prepared.others partition outside
    refine ⟨?_, bare⟩
    cases asserts : sent.1.offsets.assert.lookup partition with
    | none =>
        apply Registers.read_snoc_of_silent
        exact (txns_lookup _ _).trans asserts
    | some version =>
        rw [letThrough_read through asserts, frame version asserts]
        apply Registers.read_snoc_of_write
        exact (txns_lookup _ _).trans asserts

/-- What a member sends is prepared. -/
theorem Member.Accounts.prepared {brokers : Brokers} {member : Member}
    (accounts : member.Accounts brokers) (orderly : member.Orderly) (sees : member.Sees log)
    (sends : member.sent = some sent) : Prepared brokers.topic brokers.explicit log sent := by
  unfold Member.sent at sends
  cases working : member.work with
  | polling =>
      rw [working] at sends
      cases sends
  | retry batch leaving =>
      rw [working] at sends
      cases sends
  | failing batch error =>
      rw [working] at sends
      cases sends
  | committing batch offsets leaving =>
      rw [working] at sends
      cases sends
      have lives : member.alive = some batch := by
        unfold Member.alive
        rw [working]
      have planned := orderly.sends batch offsets leaving working
      have holds := accounts.holds batch lives
      have atBases := Member.atBases_of_unmoved planned.stays holds.exact
      have asserts : offsets.assert =
          (member.fence.assertMap batch.ranges batch.marks).1 := by
        rw [planned.offsets]
        rfl
      constructor
      · exact sees.within
      · intro partition first last inside
        have among : partition ∈ batch.ranges.map Prod.fst :=
          (Assoc.mem_keys_iff _ _).mpr ⟨_, inside⟩
        have stored : read (log.take member.handle) (.partition partition) =
            member.fence.baseOffset partition :=
          sees.current.known partition (planned.carried partition among)
        constructor
        · dsimp only
          rw [asserts, assertMap_lookup]
          unfold assertedAt
          rw [show batch.ranges.lookup partition = some (first, last) from inside]
          rfl
        · dsimp only
          rw [stored]
          rcases holds.exact partition with
            ⟨begun, until_, base, same, known, rows⟩ | ⟨outside, _rows⟩
          · rw [show batch.ranges.lookup partition = some (first, last) from inside] at same
            cases same
            rw [(atBases partition _ inside).2] at known
            cases known
            exact rows
          · rw [show batch.ranges.lookup partition = some (first, last) from inside] at outside
            cases outside
      · intro partition outside
        constructor
        · rcases holds.exact partition with
            ⟨begun, until_, base, same, _known, _rows⟩ | ⟨_out, rows⟩
          · rw [show batch.ranges.lookup partition = none from outside] at same
            cases same
          · exact rows
        · intro version asserted
          dsimp only at asserted ⊢
          rw [asserts] at asserted
          rcases assertMap_semantics asserted with ⟨first, within⟩ | ⟨_outside, carried, base⟩
          · rw [show batch.ranges.lookup partition = none from outside] at within
            cases within
          · rw [← base]
            exact sees.current.known partition carried

/-! ### Runs of a group over one topic -/

theorem Brokers.after_same (brokers : Brokers) (before after : Member) (event : Member.Event) :
    brokers.after before after event =
      { brokers with position := (brokers.after before after event).position } := by
  cases event <;> rfl

/-- Where the consumers stand once an event is behind them. -/
def Cluster.after (cluster : Cluster) (before after : Group) : Group.Event → Cluster
  | .ofMember index event =>
      match before.members[index]?, after.members[index]? with
      | some one, some other =>
          { cluster with
            position := fun own =>
              if own = index then ((cluster.of index).after one other event).position
              else cluster.position own }
      | _, _ => cluster
  | _ => cluster

namespace Group

/-- What a member's event brings is the brokers' own, and its refresh and the reset after it
succeed or fail together. -/
def Event.Possible (cluster : Cluster) (group : Group) : Event → Prop
  | .ofMember index event => ∀ member, group.members[index]? = some member →
      event.Possible (cluster.of index) member ∧
        ∀ refresh, event.refresh = some refresh → refresh.Whole
  | _ => True

def Event.KeepsPlace (group : Group) : Event → Prop
  | .ofMember index event => ∀ member, group.members[index]? = some member →
      event.KeepsPlace group.txns member
  | _ => True

/-- A run of a group, and what its members meet of the brokers; each event meets a condition where
it happens. -/
inductive Consumes (condition : Group → Event → Prop) (first : Group) (begin_ : Cluster) :
    Group → Cluster → Prop
  | refl : Consumes condition first begin_ first begin_
  /-- Messages are written, and retention removes some. -/
  | grows {group : Group} {cluster : Cluster} {low high : Int → Int}
      (earlier : Consumes condition first begin_ group cluster)
      (trims : ∀ partition, cluster.low partition ≤ low partition)
      (adds : ∀ partition, cluster.high partition ≤ high partition) :
      Consumes condition first begin_ group { cluster with low := low, high := high }
  | event {before after : Group} {cluster : Cluster} {event : Event}
      (earlier : Consumes condition first begin_ before cluster)
      (possible : event.Possible cluster before) (meets : condition before event)
      (happens : before.apply cluster.explicit event = some after) :
      Consumes condition first begin_ after (cluster.after before after event)

/-- What every event of such a run keeps. -/
structure Delivers (cluster : Cluster) (since : Nat) (group : Group) : Prop where
  members : ∀ (index : Nat) (member : Member), group.members[index]? = some member →
    member.Accounts (cluster.of index) ∧ member.Orderly
  sees : group.AllSee
  floating : ∀ sent, sent ∈ group.floating →
    Prepared cluster.topic cluster.explicit group.txns sent
  begun : since ≤ group.log.length
  log : ∀ index commit batch, since ≤ index → group.log[index]? = some commit →
    commit.batch = some batch →
      Moves cluster.topic cluster.explicit (group.txns.take index) commit.txns batch

variable {cluster : Cluster} {since : Nat} {group after : Group}

theorem Delivers.first (cluster : Cluster) (log : List TargetCommit) :
    Delivers cluster log.length { log := log, members := [] } where
  members := by
    intro index member found
    cases found
  sees := by
    intro member among
    cases among
  floating := by
    intro sent among
    cases among
  begun := Nat.le_refl _
  log := by
    intro index commit batch beyond found
    rw [List.getElem?_eq_none beyond] at found
    cases found

/-- What the log holds stays as a commit joins it that moves what it holds. -/
theorem Delivers.log_snoc (delivers : group.Delivers cluster since) {entry : TargetCommit}
    (moves : ∀ batch, entry.batch = some batch →
      Moves cluster.topic cluster.explicit group.txns entry.txns batch) :
    ∀ index commit batch, since ≤ index → (group.log ++ [entry])[index]? = some commit →
      commit.batch = some batch → Moves cluster.topic cluster.explicit
        (((group.log ++ [entry]).map TargetCommit.txns).take index) commit.txns batch := by
  intro index commit batch beyond found holds
  rw [List.map_append]
  rcases Nat.lt_or_ge index group.log.length with within | past
  · rw [List.getElem?_append_left within] at found
    rw [List.take_append_of_le_length (by rw [List.length_map]; omega)]
    exact delivers.log index commit batch beyond found holds
  · rw [List.getElem?_append_right past] at found
    have last : index = group.log.length := by
      have bound := (List.getElem?_eq_some_iff.mp found).1
      rw [List.length_singleton] at bound
      omega
    subst last
    rw [Nat.sub_self] at found
    cases found
    have whole : (group.log.map TargetCommit.txns ++ [entry].map TargetCommit.txns).take
        group.log.length = group.txns := by
      rw [List.take_append_of_le_length (Nat.le_of_eq (List.length_map _).symm)]
      exact List.take_of_length_le (Nat.le_of_eq (List.length_map _))
    rw [whole]
    exact moves batch holds

/-- A member of a group changes, and what is on its way or in the log stays. -/
theorem Delivers.set_members (delivers : group.Delivers cluster since) {index : Nat}
    {next : Member} {other : Cluster}
    (same : other = { cluster with position := other.position })
    (elsewhere : ∀ own, own ≠ index → other.position own = cluster.position own)
    (keeps : next.Accounts (other.of index) ∧ next.Orderly) :
    ∀ (own : Nat) (member : Member), (group.members.set index next)[own]? = some member →
      member.Accounts (other.of own) ∧ member.Orderly := by
  intro own member found
  rw [List.getElem?_set] at found
  by_cases here : index = own
  · rw [if_pos here] at found
    subst here
    by_cases within : index < group.members.length
    · rw [if_pos within] at found
      cases found
      exact keeps
    · rw [if_neg within] at found
      cases found
  · rw [if_neg here] at found
    have brokers : other.of own = cluster.of own := by
      rw [same]
      unfold Cluster.of
      rw [← elsewhere own fun equal => here equal.symm]
    rw [brokers]
    exact delivers.members own member found

theorem Delivers.prepared (delivers : group.Delivers cluster since) {index : Nat} {member : Member}
    (found : group.members[index]? = some member) {sent : Plan × KafkaBatch}
    (sends : member.sent = some sent) :
    Prepared cluster.topic cluster.explicit group.txns sent := by
  obtain ⟨accounts, orderly⟩ := delivers.members index member found
  exact accounts.prepared orderly (delivers.sees member (List.mem_of_getElem? found)) sends

/-- A commit that is let through joins the log. -/
theorem Delivers.appended (delivers : group.Delivers cluster since) {sent : Plan × KafkaBatch}
    (prepared : Prepared cluster.topic cluster.explicit group.txns sent)
    (through : sent.1.letThrough group.txns = true) :
    (group.append sent).Delivers cluster since where
  members := delivers.members
  sees := delivers.sees.append sent
  floating := by
    intro other among
    rw [txns_append]
    exact (delivers.floating other among).later _
  begun := by
    have length : (group.append sent).log.length = group.log.length + 1 := List.length_append
    rw [length]
    exact Nat.le_succ_of_le delivers.begun
  log := by
    apply delivers.log_snoc
    intro batch same
    cases same
    exact prepared.moves through

theorem Delivers.set (delivers : group.Delivers cluster since) {index : Nat} {next : Member}
    (keeps : next.Accounts (cluster.of index) ∧ next.Orderly) (sees : next.Sees group.txns) :
    (group.set index next).Delivers cluster since where
  members := delivers.set_members rfl (fun _own _away => rfl) keeps
  sees := AllSee.set delivers.sees sees
  floating := delivers.floating
  begun := delivers.begun
  log := delivers.log

/-- A commit on its way that nobody waits for any more. -/
theorem Delivers.floats (delivers : group.Delivers cluster since)
    {floating : List (Plan × KafkaBatch)}
    (prepared : ∀ sent, sent ∈ floating →
      Prepared cluster.topic cluster.explicit group.txns sent) :
    Delivers cluster since { group with floating := floating } where
  members := delivers.members
  sees := delivers.sees
  floating := prepared
  begun := delivers.begun
  log := delivers.log

theorem Delivers.heard (delivers : group.Delivers cluster since) {index : Nat} {member : Member}
    (found : group.members[index]? = some member) {sent : Plan × KafkaBatch}
    (sends : member.sent = some sent) (through : sent.1.letThrough group.txns = true)
    {next : Member} (keeps : next.Accounts (cluster.of index) ∧ next.Orderly)
    (sees : next.Sees (group.txns ++ [sent.1.offsets.txns])) :
    ((group.append sent).set index next).Delivers cluster since := by
  apply (delivers.appended (delivers.prepared found sends) through).set keeps
  rw [txns_append]
  exact sees

theorem harmless_of_possible {event : Event} (possible : event.Possible cluster group) :
    group.Harmless event := by
  cases event with
  | ofMember index event =>
      intro member found refresh same
      have whole := (possible member found).2 refresh same
      cases refresh with
      | unmoved error => trivial
      | moved version error => exact absurd whole (by intro impossible; exact impossible)
      | done version reading => trivial
  | _ => trivial

theorem Delivers.member_event (delivers : group.Delivers cluster since) {index : Nat}
    {event : Member.Event} (possible : (Event.ofMember index event).Possible cluster group)
    (keeps : (Event.ofMember index event).KeepsPlace group) {member next : Member}
    (found : group.members[index]? = some member)
    (reacts : member.react group.txns cluster.explicit event = some next) :
    (group.set index next).Delivers
      (cluster.after group (group.set index next) (.ofMember index event)) since := by
  obtain ⟨accounts, orderly⟩ := delivers.members index member found
  obtain ⟨accounted, ordered⟩ := Member.react_keeps accounts orderly (possible member found).1
    (keeps member found) reacts
  have within := (List.getElem?_eq_some_iff.mp found).1
  have reached : (group.set index next).members[index]? = some next :=
    List.getElem?_set_self within
  have placed : cluster.after group (group.set index next) (.ofMember index event) =
      { cluster with
        position := fun own =>
          if own = index then ((cluster.of index).after member next event).position
          else cluster.position own } := by
    unfold Cluster.after
    dsimp only
    rw [found, reached]
  rw [placed]
  have sees := (delivers.sees member (List.mem_of_getElem? found)).react
    (harmless_of_possible possible member found) reacts
  constructor
  · apply delivers.set_members rfl
    · intro own away
      exact if_neg away
    · refine ⟨?_, ordered⟩
      rw [Brokers.after_same] at accounted
      unfold Cluster.of
      dsimp only
      rw [if_pos rfl]
      exact accounted
  · exact AllSee.set delivers.sees sees
  · exact delivers.floating
  · exact delivers.begun
  · exact delivers.log

theorem Delivers.step {event : Event} (delivers : group.Delivers cluster since)
    (possible : event.Possible cluster group) (keeps : event.KeepsPlace group)
    (happens : group.apply cluster.explicit event = some after) :
    after.Delivers (cluster.after group after event) since := by
  cases event with
  | ofMember index event =>
      obtain ⟨member, found, reacts⟩ := Option.bind_eq_some_iff.mp happens
      obtain ⟨next, reacted, same⟩ := Option.bind_eq_some_iff.mp reacts
      cases same
      exact delivers.member_event possible keeps found reacted
  | landed index unwritable =>
      obtain ⟨member, found, lands⟩ := Option.bind_eq_some_iff.mp happens
      obtain ⟨sent, sends, lands⟩ := Option.bind_eq_some_iff.mp lands
      by_cases through : sent.1.letThrough group.txns
      · rw [if_pos through] at lands
        cases lands
        obtain ⟨accounts, orderly⟩ := delivers.members index member found
        exact delivers.heard found sends through (Member.heard_keeps accounts orderly unwritable)
          (Member.heard_sees unwritable sends)
      · rw [if_neg through] at lands
        cases lands
  | unheard index error =>
      obtain ⟨member, found, lands⟩ := Option.bind_eq_some_iff.mp happens
      obtain ⟨sent, sends, lands⟩ := Option.bind_eq_some_iff.mp lands
      by_cases through : sent.1.letThrough group.txns
      · rw [if_pos through] at lands
        cases lands
        obtain ⟨accounts, orderly⟩ := delivers.members index member found
        have sees := delivers.sees member (List.mem_of_getElem? found)
        exact delivers.heard found sends through (Member.refused_keeps accounts orderly error)
          ((sees.refused error).later _)
      · rw [if_neg through] at lands
        cases lands
  | refused index error =>
      obtain ⟨member, found, refuses⟩ := Option.bind_eq_some_iff.mp happens
      obtain ⟨_sent, _sends, same⟩ := Option.bind_eq_some_iff.mp refuses
      cases same
      obtain ⟨accounts, orderly⟩ := delivers.members index member found
      have sees := delivers.sees member (List.mem_of_getElem? found)
      exact delivers.set (Member.refused_keeps accounts orderly error) (sees.refused error)
  | timedOut index =>
      obtain ⟨member, found, leaves⟩ := Option.bind_eq_some_iff.mp happens
      obtain ⟨sent, sends, leaves⟩ := Option.bind_eq_some_iff.mp leaves
      by_cases leaving : member.leaves
      · rw [if_pos leaving] at leaves
        cases leaves
        have sees := delivers.sees member (List.mem_of_getElem? found)
        have prepared : ∀ other, other ∈ sent :: group.floating →
            Prepared cluster.topic cluster.explicit group.txns other := by
          intro other among
          rcases List.mem_cons.mp among with same | before
          · rw [same]
            exact delivers.prepared found sends
          · exact delivers.floating other before
        exact (delivers.floats prepared).set ⟨.unassign, .polls rfl⟩ sees.unassign
      · rw [if_neg leaving] at leaves
        cases leaves
  | restarted index handle =>
      obtain ⟨member, found, same⟩ := Option.bind_eq_some_iff.mp happens
      cases same
      have prepared : ∀ other, other ∈ member.sent.toList ++ group.floating →
          Prepared cluster.topic cluster.explicit group.txns other := by
        intro other among
        rcases List.mem_append.mp among with sends | before
        · exact delivers.prepared found (Option.mem_toList.mp sends)
        · exact delivers.floating other before
      exact (delivers.floats prepared).set ⟨.idle _ _, .polls rfl⟩ (fresh_sees group handle)
  | joined handle =>
      cases happens
      constructor
      · intro index member found
        rcases Nat.lt_or_ge index group.members.length with within | beyond
        · rw [List.getElem?_append_left within] at found
          exact delivers.members index member found
        · rw [List.getElem?_append_right beyond] at found
          rw [List.mem_singleton.mp (List.mem_of_getElem? found)]
          exact ⟨.idle _ _, .polls rfl⟩
      · intro member among
        rcases List.mem_append.mp among with old | new
        · exact delivers.sees member old
        · rw [List.mem_singleton.mp new]
          exact fresh_sees group handle
      · exact delivers.floating
      · exact delivers.begun
      · exact delivers.log
  | lands index =>
      obtain ⟨sent, found, lands⟩ := Option.bind_eq_some_iff.mp happens
      by_cases through : sent.1.letThrough group.txns
      · rw [if_pos through] at lands
        cases lands
        have floating := delivers.floating sent (List.mem_of_getElem? found)
        apply (delivers.appended floating through).floats
        intro other among
        rw [txns_append]
        exact (delivers.floating other (List.mem_of_mem_eraseIdx among)).later _
      · rw [if_neg through] at lands
        cases lands
  | foreign txns =>
      cases happens
      have grown : Group.txns { group with log := group.log ++ [{ txns := txns }] } =
          group.txns ++ [txns] := List.map_append
      constructor
      · exact delivers.members
      · intro member among
        rw [grown]
        exact (delivers.sees member among).later _
      · intro sent among
        rw [grown]
        exact (delivers.floating sent among).later _
      · dsimp only
        rw [List.length_append]
        exact Nat.le_add_right_of_le delivers.begun
      · apply delivers.log_snoc
        intro batch impossible
        cases impossible

theorem Delivers.grows (delivers : group.Delivers cluster since) {low high : Int → Int}
    (trims : ∀ partition, cluster.low partition ≤ low partition)
    (adds : ∀ partition, cluster.high partition ≤ high partition) :
    group.Delivers { cluster with low := low, high := high } since where
  members := by
    intro index member found
    obtain ⟨accounts, orderly⟩ := delivers.members index member found
    exact ⟨accounts.grows trims adds, orderly⟩
  sees := delivers.sees
  floating := delivers.floating
  begun := delivers.begun
  log := delivers.log

theorem Cluster.after_topic (cluster : Cluster) (before after : Group) (event : Event) :
    (cluster.after before after event).topic = cluster.topic ∧
      (cluster.after before after event).explicit = cluster.explicit := by
  unfold Kafka.Cluster.after
  cases event with
  | ofMember index event =>
      dsimp only
      cases before.members[index]? with
      | none => exact ⟨rfl, rfl⟩
      | some one =>
          cases after.members[index]? with
          | none => exact ⟨rfl, rfl⟩
          | some other => exact ⟨rfl, rfl⟩
  | _ => exact ⟨rfl, rfl⟩

theorem Consumes.delivers {first : List TargetCommit} {begun reached : Cluster} {last : Group}
    (runs : Consumes (fun group event => event.KeepsPlace group)
      { log := first, members := [] } begun last reached) :
    last.Delivers reached first.length ∧
      reached.topic = begun.topic ∧ reached.explicit = begun.explicit := by
  induction runs with
  | refl => exact ⟨.first begun first, rfl, rfl⟩
  | grows _earlier trims adds ih => exact ⟨ih.1.grows trims adds, ih.2⟩
  | event _earlier possible meets happens ih =>
      obtain ⟨topic, explicit⟩ := Cluster.after_topic _ _ _ _
      exact ⟨ih.1.step possible meets happens, topic.trans ih.2.1, explicit.trans ih.2.2⟩

/-- Three messages of partition 0. -/
def sampleTopic : Topic where
  messages := fun partition =>
    if partition = 0 then [sampleMessage 5, sampleMessage 6, sampleMessage 7] else []
  own := by
    intro partition message among
    by_cases same : partition = 0
    · rw [if_pos same] at among
      rcases List.mem_cons.mp among with rfl | later
      · exact same.symm
      · rcases List.mem_cons.mp later with rfl | last
        · exact same.symm
        · rw [List.mem_singleton.mp last]
          exact same.symm
    · rw [if_neg same] at among
      cases among
  ordered := by
    intro partition
    by_cases same : partition = 0
    · rw [if_pos same]
      decide
    · rw [if_neg same]
      exact List.Pairwise.nil

def sampleCluster : Cluster where
  topic := sampleTopic
  explicit := fun _ => none
  low := fun _ => 0
  high := fun _ => 100
  position := fun _ _ => 0

theorem Consumes.next {condition : Group → Event → Prop} {first before after : Group}
    {begun cluster : Cluster} (earlier : Consumes condition first begun before cluster)
    (event : Event) (possible : event.Possible cluster before) (meets : condition before event)
    (happens : before.apply cluster.explicit event = some after) :
    Consumes condition first begun after (cluster.after before after event) :=
  .event earlier possible meets happens

theorem delivers_sample {brokers : Brokers} (topic : brokers.topic = sampleTopic)
    (high : brokers.high 0 = 100) {offset : Int}
    (among : sampleMessage offset ∈ sampleTopic.messages 0)
    (position : brokers.position 0 = offset) : brokers.Delivers (sampleMessage offset) where
  held := by
    rw [topic]
    exact among
  first := by
    intro other _among reached
    rw [← position]
    exact reached
  below := by
    change offset < brokers.high 0
    rw [high]
    change sampleMessage offset ∈ [sampleMessage 5, sampleMessage 6, sampleMessage 7] at among
    simp only [List.mem_cons, List.not_mem_nil, or_false, sampleMessage, KafkaMessage.mk.injEq,
      MessageMark.mk.injEq] at among
    omega

theorem Consumes.weaken {condition : Group → Event → Prop} {first last : Group}
    {begun reached : Cluster} (runs : Consumes condition first begun last reached) :
    Consumes (fun _ _ => True) first begun last reached := by
  induction runs with
  | refl => exact .refl
  | grows _earlier trims adds ih => exact ih.grows trims adds
  | event _earlier possible _meets happens ih => exact ih.event possible trivial happens

theorem quiet_possible {cluster : Cluster} {group : Group} {index : Nat} {event : Member.Event}
    (quiet : ∀ brokers member, event.Possible brokers member)
    (whole : ∀ refresh, event.refresh = some refresh → refresh.Whole) :
    (Event.ofMember index event).Possible cluster group :=
  fun member _found => ⟨quiet (cluster.of index) member, whole⟩

/-- A member is given partition 0, stored at 5, and closes a batch of message 6. -/
theorem closes_sample :
    ∃ last reached, Consumes (fun group event => event.KeepsPlace group) (storedAt 5)
      sampleCluster last reached ∧ reached.explicit = sampleCluster.explicit ∧
        reached.topic = sampleTopic ∧ reached.high = sampleCluster.high ∧
          last = attempted (firstAttempt.take 5) := by
  have joined := @Consumes.next (fun group event => event.KeepsPlace group) (storedAt 5) _ _
    sampleCluster _ .refl (.joined 1) trivial trivial rfl
  have assigned := joined.next
    (.ofMember 0 (.assign [0] (.done 1 (.marks [])) (some [(0, 0, 100)])))
    (by
      intro member found
      cases found
      refine ⟨⟨?_, ?_⟩, ?_⟩
      · intro ranges same partition range held
        cases same
        simp only [List.lookup_cons, List.lookup_nil] at held
        by_cases own : partition = 0
        · subst own
          cases held
          rfl
        · rw [beq_eq_false_iff_ne.mpr own] at held
          cases held
      · intro ranges same partition among
        cases same
        rw [List.mem_singleton.mp among]
        rfl
      · intro refresh same
        cases same
        trivial) (fun _ _ => trivial) rfl
  have first := assigned.next (.ofMember 0 (.deliver (sampleMessage 5) .taken))
    (by
      intro member found
      cases found
      refine ⟨fun _ => ?_, fun _ same => by cases same⟩
      exact delivers_sample rfl rfl (by decide) rfl) (fun _ _ => trivial) rfl
  have second := first.next (.ofMember 0 (.deliver (sampleMessage 6) .taken))
    (by
      intro member found
      cases found
      refine ⟨fun _ => ?_, fun _ same => by cases same⟩
      exact delivers_sample rfl rfl (by decide) rfl) (fun _ _ => trivial) rfl
  have closed := second.next (.ofMember 0 .close)
    (quiet_possible (fun _ _ => trivial) fun _ same => by cases same) (fun _ _ => trivial) rfl
  exact ⟨_, _, closed, rfl, rfl, rfl, rfl⟩

/-- The batch of message 6 is kept although its partition was moved and moved back in between: the
message is read again, and the commit after it holds it a second time. -/
theorem movedBack_repeats : ∃ last reached,
    Consumes (fun _ _ => True) (storedAt 5) sampleCluster last reached ∧
      ∃ commit batch, last.log[4]? = some commit ∧ commit.batch = some batch ∧
        ¬ Moves sampleTopic (fun _ => none) (last.txns.take 4) commit.txns batch := by
  obtain ⟨last, reached, closed, explicit, topic, high, same⟩ := closes_sample
  subst same
  obtain ⟨topicOf, explicitOf, low, highOf, position⟩ := reached
  dsimp only at explicit topic high
  subst explicit topic high
  have still : ∀ {cluster : Cluster} {group : Group} {event : Member.Event},
      (∀ brokers member, event.Possible brokers member) →
      (∀ refresh, event.refresh = some refresh → refresh.Whole) →
        (Event.ofMember 0 event).Possible cluster group := quiet_possible
  have away := closed.weaken.next (.foreign [(.partition 0, 20)]) trivial trivial rfl
  have fenced := away.next (.ofMember 0 (.attempt { aging := some (.done 2 (.marks [])) }))
    (still (fun _ _ => trivial) fun _ same => by cases same; trivial) trivial rfl
  have back := fenced.next (.foreign [(.partition 0, 5)]) trivial trivial rfl
  have kept := back.next (.ofMember 0 (.settle (.done 3 (.marks []))))
    (still (fun _ _ => trivial) fun _ same => by cases same; trivial) trivial rfl
  have sent := kept.next (.ofMember 0 (.attempt {}))
    (still (fun _ _ => trivial) fun _ same => by cases same) trivial rfl
  have landed := sent.next (.landed 0 false) trivial trivial rfl
  have released := landed.next (.ofMember 0 (.release []))
    (still (fun _ _ => trivial) fun _ same => by cases same) trivial rfl
  have sixth := released.next (.ofMember 0 (.deliver (sampleMessage 6) .taken))
    (by
      intro member found
      cases found
      refine ⟨fun _ => ?_, fun _ same => by cases same⟩
      exact delivers_sample rfl rfl (by decide) rfl) trivial rfl
  have seventh := sixth.next (.ofMember 0 (.deliver (sampleMessage 7) .taken))
    (by
      intro member found
      cases found
      refine ⟨fun _ => ?_, fun _ same => by cases same⟩
      exact delivers_sample rfl rfl (by decide) rfl) trivial rfl
  have again := seventh.next (.ofMember 0 .close)
    (still (fun _ _ => trivial) fun _ same => by cases same) trivial rfl
  have resent := again.next (.ofMember 0 (.attempt {}))
    (still (fun _ _ => trivial) fun _ same => by cases same) trivial rfl
  have repeated := resent.next (.landed 0 false) trivial trivial rfl
  refine ⟨_, _, repeated, _, _, rfl, rfl, ?_⟩
  intro moves
  have rows := (moves.rows 0 6 7 rfl).2
  exact absurd rows (by decide)

/-! ### What is read is buffered or in the batch -/

end Group

end Ddi.Kafka
