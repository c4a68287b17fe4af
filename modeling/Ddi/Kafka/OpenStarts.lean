/-
Where partitions start after the commit an open makes: exactly where the entry, or the
start chosen for a fresh application id, would have started them, whatever the topic
has come to hold since.
-/

import Ddi.Kafka.FenceSemantics
import Ddi.Kafka.Open

namespace Ddi.Kafka

/-! ### The first message taken -/

/-- The first offset a partition takes, of the messages delivered to it. -/
def State.firstTaken : State → List MessageMark → Option Int
  | _, [] => none
  | .blocked _, _ :: _ => none
  | .ready nextExpected start reread, mark :: later =>
      match Partitions.admitReady nextExpected start reread mark with
      | (_, .take _) => some mark.offset
      | (_, .block _) => none
      | (state, .drop _) => state.firstTaken later

/-- What a start comes to on a topic's partition, which is delivered from the start's offset:
a block, or the first offset taken. -/
def Start.firstTaken (start : Start) (messages : List MessageMark) : Except Block (Option Int) :=
  match start with
  | .blocked block => .error block
  | .ready offset reread =>
      .ok ((State.ready offset offset reread).firstTaken
        (messages.filter fun mark => decide (offset ≤ mark.offset)))

/-- The first offset of the topic at or after the one wanted. -/
def firstFrom (wanted : Int) (messages : List MessageMark) : Option Int :=
  (messages.find? fun mark => decide (wanted ≤ mark.offset)).map (·.offset)

/-- What an entry comes to by itself. -/
def entryFirstTaken (low high wanted : Int) (messages : List MessageMark) :
    Except Block (Option Int) :=
  if wanted < low then .error (.unavailable wanted low)
  else if high < wanted then .error (.regressed (wanted - 1) high)
  else .ok (firstFrom wanted messages)

theorem firstFrom_cons (wanted : Int) (mark : MessageMark) (messages : List MessageMark) :
    firstFrom wanted (mark :: messages) =
      if wanted ≤ mark.offset then some mark.offset else firstFrom wanted messages := by
  unfold firstFrom
  rw [List.find?_cons]
  by_cases reached : wanted ≤ mark.offset
  · rw [if_pos reached, decide_eq_true reached]
    rfl
  · rw [if_neg reached, decide_eq_false reached]

theorem firstFrom_filter {start wanted : Int} (before : start ≤ wanted)
    (messages : List MessageMark) :
    firstFrom wanted (messages.filter fun mark => decide (start ≤ mark.offset)) =
      firstFrom wanted messages := by
  induction messages with
  | nil => rfl
  | cons mark messages ih =>
      rw [List.filter_cons, firstFrom_cons]
      by_cases reached : wanted ≤ mark.offset
      · rw [if_pos (decide_eq_true (before.trans reached)), firstFrom_cons, if_pos reached,
          if_pos reached]
      · rw [if_neg reached]
        by_cases delivered : start ≤ mark.offset
        · rw [if_pos (decide_eq_true delivered), firstFrom_cons, if_neg reached]
          exact ih
        · rw [if_neg (by simpa using delivered)]
          exact ih

theorem firstTaken_next (next start : Int) (messages : List MessageMark) :
    (State.ready next start none).firstTaken messages = firstFrom next messages := by
  induction messages with
  | nil => rfl
  | cons mark messages ih =>
      rw [firstFrom_cons]
      unfold State.firstTaken Partitions.admitReady
      by_cases before : mark.offset < next
      · simp only [if_pos before]
        rw [if_neg (Int.not_le.mpr before)]
        exact ih
      · simp only [if_neg before]
        rw [if_pos (Int.not_lt.mp before)]

/-- The message at the stored offset is dropped unchecked, and the next one is taken. -/
theorem firstTaken_unverifiable (next start stored : Int) (messages : List MessageMark) :
    (State.ready next start (some (.unverifiable stored))).firstTaken messages =
      firstFrom (stored + 1) messages := by
  induction messages with
  | nil => rfl
  | cons mark messages ih =>
      rw [firstFrom_cons]
      unfold State.firstTaken Partitions.admitReady Reread.offset
      rcases lt_trichotomy mark.offset stored with before | there | past
      · have apart : mark.offset ≠ stored := before.ne
        simp only [if_neg apart, if_pos before]
        rw [if_neg (by omega)]
        exact ih
      · simp only [if_pos there]
        rw [if_neg (by omega), firstTaken_next, there]
      · have apart : mark.offset ≠ stored := past.ne'
        simp only [if_neg apart, if_neg past.not_gt]
        rw [if_pos (by omega)]

theorem firstTaken_at (offset : Int) (messages : List MessageMark) :
    (Start.ready offset none).firstTaken messages = .ok (firstFrom offset messages) := by
  unfold Start.firstTaken
  simp only
  rw [firstTaken_next, firstFrom_filter le_rfl]

theorem firstTaken_after (stored : Int) (messages : List MessageMark) :
    (Start.ready stored (some (.unverifiable stored))).firstTaken messages =
      .ok (firstFrom (stored + 1) messages) := by
  unfold Start.firstTaken
  simp only
  rw [firstTaken_unverifiable, firstFrom_filter (by omega)]

/-! ### The two tables of starts agree -/

variable (range : TopicRange) (messages : List MessageMark)

theorem resolve_entry (wanted : Int) :
    (resolve none none range.low range.high (some wanted)).firstTaken messages =
      entryFirstTaken range.low range.high wanted messages := by
  unfold resolve startWithoutOffset entryFirstTaken
  simp only
  by_cases trimmed : wanted < range.low
  · rw [if_pos trimmed, if_pos trimmed]
    rfl
  · rw [if_neg trimmed, if_neg trimmed]
    by_cases past : range.high < wanted
    · rw [if_pos past, if_pos past]
      rfl
    · rw [if_neg past, if_neg past]
      exact firstTaken_at wanted messages

/-- An offset before the entry's starts where the entry does, wherever that lies between the
watermarks. -/
theorem resolve_recorded (wanted : Int) (explicit : Option Int) :
    (resolve (some (wanted - 1)) none range.low range.high explicit).firstTaken messages =
      entryFirstTaken range.low range.high wanted messages := by
  unfold resolve entryFirstTaken
  simp only [Int.sub_add_cancel]
  by_cases trimmed : wanted < range.low
  · rw [if_pos trimmed, if_pos trimmed]
    rfl
  · rw [if_neg trimmed, if_neg trimmed]
    by_cases first : wanted = range.low
    · have held := range.low_le_high
      rw [if_pos first, if_neg (by omega)]
      exact firstTaken_at wanted messages
    · rw [if_neg first]
      by_cases past : range.high < wanted
      · rw [if_pos (by omega), if_pos past]
        rfl
      · rw [if_neg (by omega), if_neg past]
        have read_again := firstTaken_after (wanted - 1) messages
        rw [Int.sub_add_cancel] at read_again
        exact read_again

/-- None at all starts where an entry of 0 does. -/
theorem resolve_zero :
    (resolve none none range.low range.high none).firstTaken messages =
      entryFirstTaken range.low range.high 0 messages := by
  have nonneg := range.low_nonneg
  have held := range.low_le_high
  unfold resolve startWithoutOffset entryFirstTaken
  simp only
  by_cases whole : range.low = 0
  · rw [if_pos whole, if_neg (by omega), if_neg (by omega)]
    exact firstTaken_at 0 messages
  · rw [if_neg whole, if_pos (by omega)]
    rfl

/-- The offset recorded for a start. -/
def recordedStart (start : Int) : Option Int := if 0 < start then some (start - 1) else none

theorem resolve_recordedStart {start : Int} (nonneg : 0 ≤ start) {explicit : Option Int}
    (same : explicit = some start ∨ explicit = none) :
    (resolve (recordedStart start) none range.low range.high explicit).firstTaken messages =
      entryFirstTaken range.low range.high start messages := by
  unfold recordedStart
  by_cases positive : 0 < start
  · rw [if_pos positive]
    exact resolve_recorded range messages start explicit
  · rw [if_neg positive]
    rcases same with rfl | rfl
    · exact resolve_entry range messages start
    · have zero : start = 0 := by omega
      subst zero
      exact resolve_zero range messages

/-! ### What the plan records -/

/-- Every partition of the topic is given a start, its entry where it has one. -/
theorem freshStarts_lookup {topic : String} {policy : StartPolicy}
    {watermarks : List (Int × TopicRange)} {starts : List (Int × Int)}
    (chosen : freshStarts topic policy watermarks = .ok starts) {partition : Int}
    {range : TopicRange} (among : watermarks.lookup partition = some range) :
    ∃ start, starts.lookup partition = some start ∧ 0 ≤ start ∧
      ∀ entry, policy.partitions.lookup partition = some entry → start = entry := by
  have low := range.low_nonneg
  have high := range.low_le_high
  cases policy with
  | earliest =>
      cases chosen
      refine ⟨range.low, ?_, low, nofun⟩
      rw [Assoc.lookup_map watermarks fun _ range => NamedStart.earliest.offset range, among]
      rfl
  | latest =>
      cases chosen
      refine ⟨range.high, ?_, low.trans high, nofun⟩
      rw [Assoc.lookup_map watermarks fun _ range => NamedStart.latest.offset range, among]
      rfl
  | explicit partitions rest =>
      have listed : ∀ entry, partitions.entries.lookup partition = some entry → 0 ≤ entry := by
        intro entry found
        exact partitions.nonneg _ (Assoc.mem_of_lookup found)
      cases rest with
      | none =>
          unfold freshStarts at chosen
          simp only at chosen
          by_cases missing : ((watermarks.map Prod.fst).filter fun partition =>
              (partitions.entries.lookup partition).isNone).isEmpty
          · simp only [missing, Bool.not_true, Bool.false_eq_true, if_false] at chosen
            cases chosen
            have all_listed := List.filter_eq_nil_iff.mp (List.isEmpty_iff.mp missing) partition
              ((Assoc.mem_keys_iff _ _).mpr ⟨range, among⟩)
            cases entry : partitions.entries.lookup partition with
            | none =>
                rw [entry] at all_listed
                exact absurd rfl all_listed
            | some wanted =>
                refine ⟨wanted, ?_, listed wanted entry, ?_⟩
                · have filtered := Assoc.lookup_filterMap (watermarks.map Prod.fst)
                    (fun own => partitions.entries.lookup own) partition
                  rw [List.filterMap_map, entry,
                    if_pos ((Assoc.mem_keys_iff _ _).mpr ⟨range, among⟩)] at filtered
                  exact filtered
                · intro other found
                  exact Option.some.inj (entry.symm.trans found)
          · simp only [missing, Bool.not_false, if_true] at chosen
            cases chosen
      | some rest =>
          cases chosen
          refine ⟨(partitions.entries.lookup partition).getD (rest.offset range), ?_, ?_, ?_⟩
          · rw [Assoc.lookup_map watermarks (fun own range =>
              (partitions.entries.lookup own).getD (rest.offset range)), among]
            rfl
          · cases entry : partitions.entries.lookup partition with
            | none =>
                cases rest with
                | earliest => exact low
                | latest => exact low.trans high
            | some wanted => exact listed wanted entry
          · intro wanted found
            rw [show partitions.entries.lookup partition = some wanted from found]
            rfl

theorem freshStarts_sorted {topic : String} {policy : StartPolicy}
    {watermarks : List (Int × TopicRange)} (sorted : Ordered.Sorted watermarks)
    {starts : List (Int × Int)} (chosen : freshStarts topic policy watermarks = .ok starts) :
    Ordered.Sorted starts := by
  cases policy with
  | earliest =>
      cases chosen
      exact sorted.map fun _ range => NamedStart.earliest.offset range
  | latest =>
      cases chosen
      exact sorted.map fun _ range => NamedStart.latest.offset range
  | explicit partitions rest =>
      cases rest with
      | none =>
          unfold freshStarts at chosen
          simp only at chosen
          by_cases missing : ((watermarks.map Prod.fst).filter fun partition =>
              (partitions.entries.lookup partition).isNone).isEmpty
          · simp only [missing, Bool.not_true, Bool.false_eq_true, if_false] at chosen
            cases chosen
            exact sorted.filterMap fun own _ => partitions.entries.lookup own
          · simp only [missing, Bool.not_false, if_true] at chosen
            cases chosen
      | some rest =>
          cases chosen
          exact sorted.map fun own range =>
            (partitions.entries.lookup own).getD (rest.offset range)

theorem freshBaseline_lookup {starts : List (Int × Int)} (sorted : Ordered.Sorted starts)
    (partition : Int) :
    ((freshBaseline starts).bind fun assert => assert.lookup partition) =
      (starts.lookup partition).bind recordedStart := by
  have found := Ordered.lookup_filterMap sorted (fun _ => recordedStart) partition
  have same : (fun entry : Int × Int => (recordedStart entry.2).map (Prod.mk entry.1)) =
      fun entry => if 0 < entry.2 then some (entry.1, entry.2 - 1) else none := by
    funext entry
    unfold recordedStart
    by_cases positive : 0 < entry.2
    · rw [if_pos positive, if_pos positive]
      rfl
    · rw [if_neg positive, if_neg positive]
      rfl
  rw [same] at found
  rw [← found]
  unfold freshBaseline
  simp only
  by_cases nothing : (starts.filterMap fun entry =>
      if 0 < entry.2 then some (entry.1, entry.2 - 1) else none).isEmpty
  · rw [if_pos nothing, List.isEmpty_iff.mp nothing]
    rfl
  · rw [if_neg nothing]
    rfl

theorem takeoverBaseline_lookup {stored : List (Int × Option Int)}
    (sorted : Ordered.Sorted stored) (explicit : List (Int × Int)) (partition : Int) :
    ((takeoverBaseline .kdi stored explicit).bind fun assert => assert.lookup partition) =
      (stored.lookup partition).bind fun held => takeoverOffset held (explicit.lookup partition) :=
  Ordered.lookup_filterMap sorted (fun own held => takeoverOffset held (explicit.lookup own))
    partition

/-- The offsets of the commit the plan makes: no rows, no marks, and the takeover marker. -/
def OpenPlan.offsets (plan : OpenPlan) : Option KafkaOffsets :=
  plan.baseline.map fun assert => { ranges := [], assert, marks := [], takeoverMarker := true }

namespace OpenFacts

variable (facts : OpenFacts)

/-- A partition's offset in the target once the plan's commit is made. -/
def storedAfter (plan : OpenPlan) (partition : Int) : Option Int :=
  let before := (facts.stored.lookup partition).join
  match plan.offsets with
  | none => before
  | some offsets => (offsets.txns.lookup (.partition partition)).or before

/-- All that an open that is not refused has passed. -/
theorem planOpen_cases {plan : OpenPlan} (planned : facts.planOpen = .ok plan) :
    facts.checkTakeover = .ok () ∧ facts.planBaseline = .ok plan.baseline := by
  unfold planOpen at planned
  cases typo : facts.guardTypo with
  | error refusal =>
      rw [typo] at planned
      cases planned
  | ok passed =>
      rw [typo] at planned
      cases taken : facts.checkTakeover with
      | error refusal =>
          rw [taken] at planned
          cases planned
      | ok passed =>
          rw [taken] at planned
          cases compat : facts.resolveCompat with
          | error refusal =>
              rw [compat] at planned
              cases planned
          | ok compat_set =>
              rw [compat] at planned
              cases baseline : facts.planBaseline with
              | error refusal =>
                  rw [baseline] at planned
                  cases planned
              | ok assert =>
                  rw [baseline] at planned
                  cases planned
                  exact ⟨rfl, rfl⟩

theorem storedAfter_eq (plan : OpenPlan) (partition : Int) :
    facts.storedAfter plan partition =
      (plan.baseline.bind fun assert => assert.lookup partition).or
        (facts.stored.lookup partition).join := by
  unfold storedAfter OpenPlan.offsets
  cases plan.baseline with
  | none => rfl
  | some assert =>
      simp only [Option.map_some, Option.bind_some]
      rw [txns_lookup]

/-- Where each partition starts after the commit an open plans. -/
structure KeepsStarts (plan : OpenPlan) : Prop where
  /-- A partition that may have rows in the table has an entry, and starts where the entry says,
  whether the configuration keeps it or not. -/
  acknowledged : MayHoldRows facts.era facts.holdsRows →
    ∀ partition, facts.stored.lookup partition = some none → 0 < facts.highOf partition →
      ∃ entry, facts.policy.partitions.lookup partition = some entry ∧
        ∀ explicit, explicit = some entry ∨ explicit = none →
          ∀ (range : TopicRange) (messages : List MessageMark),
            (resolve (facts.storedAfter plan partition) none range.low range.high
                explicit).firstTaken messages =
              (resolve none none range.low range.high (some entry)).firstTaken messages ∧
            (resolve none none range.low range.high (some entry)).firstTaken messages =
              entryFirstTaken range.low range.high entry messages
  reasserted : MayHoldRows facts.era facts.holdsRows →
    ∀ partition offset, facts.stored.lookup partition = some (some offset) →
      ∃ assert, plan.baseline = some assert ∧ assert.lookup partition = some offset
  /-- Where nothing was read before, every partition starts where the policy says. -/
  chosen : facts.era = .fresh →
    ∃ starts, freshStarts facts.topic facts.policy facts.watermarks = .ok starts ∧
      ∀ partition range, facts.watermarks.lookup partition = some range →
        ∃ start, starts.lookup partition = some start ∧
          ∀ explicit, explicit = facts.policy.partitions.lookup partition ∨ explicit = none →
            ∀ (range : TopicRange) (messages : List MessageMark),
              (resolve (facts.storedAfter plan partition) none range.low range.high
                  explicit).firstTaken messages =
                entryFirstTaken range.low range.high start messages

variable {facts}

theorem fresh_planned {plan : OpenPlan} (planned : facts.planOpen = .ok plan)
    (fresh : facts.era = .fresh) :
    ∃ starts, freshStarts facts.topic facts.policy facts.watermarks = .ok starts ∧
      ∀ partition, facts.storedAfter plan partition =
        (starts.lookup partition).bind recordedStart := by
  have baseline := (facts.planOpen_cases planned).2
  unfold planBaseline at baseline
  rw [fresh] at baseline
  simp only at baseline
  cases chosen : freshStarts facts.topic facts.policy facts.watermarks with
  | error refusal =>
      rw [chosen] at baseline
      cases baseline
  | ok starts =>
      rw [chosen] at baseline
      refine ⟨starts, rfl, ?_⟩
      intro partition
      have own : plan.baseline = freshBaseline starts := (Except.ok.inj baseline).symm
      have before : (facts.stored.lookup partition).join = none := by
        cases held : facts.stored.lookup partition with
        | none => rfl
        | some offset =>
            have unstored : offset = none :=
              facts.fresh_unstored fresh _ (Assoc.mem_of_lookup held)
            rw [unstored]
            rfl
      rw [storedAfter_eq, own, before, Option.or_none]
      exact freshBaseline_lookup (freshStarts_sorted facts.watermarks_sorted chosen) partition

theorem kdi_planned {plan : OpenPlan} (planned : facts.planOpen = .ok plan)
    (kdi : facts.era = .kdi) :
    plan.baseline = takeoverBaseline .kdi facts.stored facts.policy.partitions := by
  have baseline := (facts.planOpen_cases planned).2
  unfold planBaseline at baseline
  rw [kdi] at baseline
  exact (Except.ok.inj baseline).symm

/-- A partition nobody's offset accounts for has an entry. -/
theorem planned_acknowledged {plan : OpenPlan} (planned : facts.planOpen = .ok plan)
    (applies : MayHoldRows facts.era facts.holdsRows) {partition : Int}
    (unstored : facts.stored.lookup partition = some none) (held : 0 < facts.highOf partition) :
    ∃ entry, facts.policy.partitions.lookup partition = some entry := by
  have among : (partition, none, facts.highOf partition) ∈
      facts.stored.map fun entry => (entry.1, entry.2, facts.highOf entry.1) :=
    List.mem_map.mpr ⟨(partition, none), Assoc.mem_of_lookup unstored, rfl⟩
  have listed := takeoverCheck_ok (facts.planOpen_cases planned).1 applies among held
  exact (Assoc.mem_keys_iff _ _).mp listed

theorem entry_nonneg (policy : StartPolicy) {partition entry : Int}
    (listed : policy.partitions.lookup partition = some entry) : 0 ≤ entry := by
  cases policy with
  | earliest => cases listed
  | latest => cases listed
  | explicit partitions rest => exact partitions.nonneg _ (Assoc.mem_of_lookup listed)

/-- Either baseline records an acknowledged partition at its entry. -/
theorem acknowledged_recorded {plan : OpenPlan} (planned : facts.planOpen = .ok plan)
    (applies : MayHoldRows facts.era facts.holdsRows) {partition entry : Int}
    (unstored : facts.stored.lookup partition = some none) (held : 0 < facts.highOf partition)
    (listed : facts.policy.partitions.lookup partition = some entry) :
    facts.storedAfter plan partition = recordedStart entry := by
  rcases applies with kdi | ⟨fresh, _holds⟩
  · rw [storedAfter_eq, kdi_planned planned kdi, takeoverBaseline_lookup facts.stored_sorted,
      unstored, listed]
    exact Option.or_none
  · obtain ⟨starts, chosen, recorded⟩ := fresh_planned planned fresh
    rw [recorded]
    unfold highOf at held
    cases among : facts.watermarks.lookup partition with
    | none =>
        rw [among] at held
        exact absurd held (lt_irrefl 0)
    | some range =>
        obtain ⟨start, found, _nonneg, own⟩ := freshStarts_lookup chosen among
        rw [found, own entry listed]
        rfl

theorem planOpen_keepsStarts {plan : OpenPlan} (planned : facts.planOpen = .ok plan) :
    facts.KeepsStarts plan := by
  constructor
  case acknowledged =>
    intro applies partition unstored held
    obtain ⟨entry, listed⟩ := planned_acknowledged planned applies unstored held
    refine ⟨entry, listed, ?_⟩
    intro explicit same range messages
    rw [acknowledged_recorded planned applies unstored held listed, resolve_entry,
      resolve_recordedStart range messages (entry_nonneg _ listed) same]
    exact ⟨rfl, rfl⟩
  case reasserted =>
    intro applies partition offset stored
    rcases applies with kdi | ⟨fresh, _holds⟩
    · have found := takeoverBaseline_lookup facts.stored_sorted facts.policy.partitions partition
      rw [stored] at found
      refine ⟨_, kdi_planned planned kdi, ?_⟩
      exact found
    · have unstored := facts.fresh_unstored fresh _ (Assoc.mem_of_lookup stored)
      cases unstored
  case chosen =>
    intro fresh
    obtain ⟨starts, chosen, recorded⟩ := fresh_planned planned fresh
    refine ⟨starts, chosen, ?_⟩
    intro partition own_range among
    obtain ⟨start, found, nonneg, own⟩ := freshStarts_lookup chosen among
    refine ⟨start, found, ?_⟩
    intro explicit same range messages
    have at_start : explicit = some start ∨ explicit = none := by
      rcases same with entry | nothing
      · cases listed : facts.policy.partitions.lookup partition with
        | none => exact Or.inr (entry.trans listed)
        | some wanted =>
            rw [own wanted listed]
            exact Or.inl (entry.trans listed)
      · exact Or.inr nothing
    rw [recorded, found]
    exact resolve_recordedStart range messages nonneg at_start

/-- A topic of two partitions, one of which kafka-delta-ingest never wrote a row for. -/
def halfRead : OpenFacts where
  appId := "orders"
  topic := "orders"
  targetUri := "/lake/orders"
  stored := [(0, some 4), (1, none)]
  stored_sorted := by decide
  watermarks := [(0, ⟨0, 10, by decide, by decide⟩), (1, ⟨0, 7, by decide, by decide⟩)]
  watermarks_sorted := by decide
  era := .kdi
  fresh_unstored := nofun
  dataFiles := 2
  holdsRows := true
  policy := .explicit ⟨[(1, 3)], by decide, by decide⟩ none
  explicit := true
  kdiCompat := some true
  neighbours := []
  appIds := []

theorem halfRead_keepsStarts :
    halfRead.KeepsStarts { baseline := some [(0, 4), (1, 2)], kdiCompat := true } :=
  planOpen_keepsStarts rfl

/-- The commit that records the starts is the one that ends the era they were read in. -/
theorem baseline_ends_era {plan : OpenPlan} {offsets : KafkaOffsets}
    (planned : plan.offsets = some offsets) (partitions : List Int) {txns : TxnId → TxnState}
    (written : ∀ id offset, offsets.txns.lookup id = some offset → (txns id).version = some offset) :
    Kafka.era partitions txns = .ddi := by
  unfold OpenPlan.offsets at planned
  obtain ⟨assert, _baseline, rfl⟩ := Option.map_eq_some_iff.mp planned
  have marked : (txns .takeover).version = some takeoverMarkerVersion := by
    apply written
    unfold KafkaOffsets.txns
    rw [Assoc.lookup_append]
    have unasserted : (assert.map fun entry => (TxnId.partition entry.1, entry.2)).lookup
        TxnId.takeover = none := by
      rw [List.lookup_eq_none_iff]
      intro entry among
      obtain ⟨_own, _among, rfl⟩ := List.mem_map.mp among
      rfl
    rw [unasserted]
    rfl
  unfold Kafka.era
  rw [marked]
  rfl

end OpenFacts

end Ddi.Kafka
