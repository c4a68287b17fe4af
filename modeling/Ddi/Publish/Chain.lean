/-
The publication chain. Whatever was sent, lost or skipped, the predecessor a
message names is the last version of the batch before it in the same reader, and
nothing lies between that batch and this one: so a message that follows what a
client has taken holds everything delivered since, whichever process sent it.
-/

import Ddi.Pipeline.CoverageSteps
import Ddi.Pipeline.ExactlyOnce
import Ddi.Pipeline.RejectSteps
import Ddi.Publish.Broadcast

namespace Ddi.Publish

open Ddi.Delta
open Ddi.Source

set_option linter.unusedSectionVars false

variable {ρ τ μ T K P : Type} [LinearOrder T] [DecidableEq K] [DecidableEq P]

/-! ### The last version of a batch -/

section Through

variable {source : DeltaLog ρ} {budget retryBudget : Option Nat} {batch : LogBatch ρ}

theorem nextBatch_through {stream : LogStreamBuilder}
    (ok : (nextBatch source budget stream).1 = .ok (some batch)) :
    batch.entries.getLast?.map Prod.fst = some batch.throughVersion := by
  obtain ⟨spec, _effect, _floor⟩ := nextBatch_ok ok
  generalize (nextBatch source budget stream).2 = after at spec
  cases spec with
  | batch gathered batch within gathering ending carrying cursor start finish files versions
      through timestamp =>
      have entries : batch.entries = gathered.files := by
        rw [LogBatch.entries, files, versions, List.zip_map']
        exact List.map_id' _
      rw [entries, ← gathering.through]
      exact through

theorem pullBatch_through {before pulled : Pipeline T K P}
    (ok : pullBatch source budget retryBudget before = (.ok (some batch), pulled)) :
    batch.entries.getLast?.map Prod.fst = some batch.throughVersion := by
  unfold pullBatch pollBatch at ok
  simp only at ok
  split at ok
  · split at ok
    · exact nextBatch_through (congrArg Prod.fst ok)
    · cases ok
  · exact nextBatch_through (congrArg Prod.fst ok)

end Through

/-- A reader that has handed out everything through a version stands right after it: nothing lies
between. -/
structure Linked (source : DeltaLog ρ) (policy : ChangePolicy) (through : Nat)
    (cursor : StreamCursor) : Prop where
  behind : through < cursor.version
  within : cursor.version ≤ source.commits.length
  silent : emitted source policy (through + 1) cursor.version = []

section Linked

variable {source : DeltaLog ρ} {policy : ChangePolicy} {through : Nat}
  {before after : StreamCursor} {batch : LogBatch ρ}

theorem linked_batch
    (files : batch.entries = emitted source policy before.version after.version)
    (last : batch.entries.getLast?.map Prod.fst = some batch.throughVersion)
    (reached : ∀ version, before.version ≤ version → version < after.version →
      version < source.commits.length) :
    before.version ≤ batch.throughVersion ∧
      Linked source policy batch.throughVersion after ∧
      batch.entries = emitted source policy before.version (batch.throughVersion + 1) := by
  obtain ⟨entry, ends, same⟩ := Option.map_eq_some_iff.mp last
  have member : entry ∈ batch.entries := List.mem_of_getLast? ends
  rw [files] at member
  obtain ⟨low, high, _emitted⟩ := mem_emitted.mp member
  rw [same] at low high
  have split := emitted_append source policy (Nat.le_succ_of_le low) high
  have silent : emitted source policy (batch.throughVersion + 1) after.version = [] := by
    cases rest : emitted source policy (batch.throughVersion + 1) after.version with
    | nil => rfl
    | cons first more =>
        have ends' := ends
        rw [files, split, rest, List.getLast?_append_cons] at ends'
        have beyond : entry ∈ emitted source policy (batch.throughVersion + 1) after.version := by
          rw [rest]
          exact List.mem_of_getLast? ends'
        obtain ⟨above, _below, _emitted⟩ := mem_emitted.mp beyond
        omega
  refine ⟨low, ⟨high, ?_, silent⟩, ?_⟩
  · have inside := reached (after.version - 1) (by omega) (by omega)
    omega
  · rw [files, split, silent, List.append_nil]

theorem Linked.silence (linked : Linked source policy through before)
    (onward : before.version ≤ after.version)
    (quiet : emitted source policy before.version after.version = [])
    (reached : ∀ version, before.version ≤ version → version < after.version →
      version < source.commits.length) : Linked source policy through after where
  behind := Nat.lt_of_lt_of_le linked.behind onward
  within := by
    by_cases still : after.version ≤ before.version
    · exact Nat.le_trans still linked.within
    · have inside := reached (after.version - 1) (by omega) (by omega)
      omega
  silent := by
    rw [emitted_append source policy linked.behind onward, linked.silent, quiet]
    rfl

/-- The next batch holds everything since. -/
theorem Linked.next (linked : Linked source policy through before)
    (low : before.version ≤ batch.throughVersion)
    (entries : batch.entries = emitted source policy before.version (batch.throughVersion + 1)) :
    batch.entries = emitted source policy (through + 1) (batch.throughVersion + 1) := by
  rw [emitted_append source policy linked.behind (Nat.le_succ_of_le low), linked.silent,
    List.nil_append]
  exact entries

theorem Linked.grown {source' : DeltaLog ρ} (linked : Linked source policy through before)
    (longer : Extends source source') : Linked source' policy through before where
  behind := linked.behind
  within := Nat.le_trans linked.within longer.length_le
  silent := by
    have within := linked.within
    rw [emitted_extends longer policy (by omega)]
    exact linked.silent

end Linked

/-! ### What a message holds -/

/-- The rows a commit adds. -/
def addedRows (commit : Commit τ) : List τ :=
  (commit.actions.filterMap fun action =>
    match action with
    | .add file => some file
    | _ => none).flatMap AddFile.rows

/-- The rows delivered of a batch: of a post-commit message those that the commit it names put in
the target, which is the transform's output but for what a window drops; of a near-time message
all of them. -/
def Delivers (config : ResolvedPipeline τ T K P) (engine : Broadcasting ρ τ μ T K P)
    (target : DeltaLog τ) (publication : Publication ρ τ μ) : Prop :=
  match publication.message.targetVersion with
  | some version =>
    (∃ commit : Commit τ, target.commits[version]? = some commit ∧
      addedRows commit = publication.rows) ∧
    ∃ cutoff output filtered,
      engine.transform publication.batch.throughLogTimestamp (batchRows publication.batch) =
        .ok output ∧
      applyCutoff config cutoff output = .ok filtered ∧ filtered.kept = publication.rows
  | none => engine.nearTimeRows (batchRows publication.batch) = .rows publication.rows

/-- A whole message that follows a version holds everything delivered after it. -/
structure Follows (config : ResolvedPipeline τ T K P) (engine : Broadcasting ρ τ μ T K P)
    (source : DeltaLog ρ) (target : DeltaLog τ) (publication : Publication ρ τ μ)
    (applied : Nat) : Prop where
  batch : publication.batch.entries = emitted source config.changePolicy (applied + 1)
    (publication.message.sourceVersion + 1)
  files : publication.batch.files = publication.batch.entries.map Prod.snd
  delivered : Delivers config engine target publication
  rendered : engine.model.transform publication.rows = .ok publication.message.rows

/-- What holds of every message that left. -/
structure Placed (config : ResolvedPipeline τ T K P) (engine : Broadcasting ρ τ μ T K P)
    (source : DeltaLog ρ) (target : DeltaLog τ) (publication : Publication ρ τ μ) : Prop where
  own : publication.message.pipeline = engine.model.pipeline ∧
    publication.message.appId = engine.model.appId
  within : publication.message.sourceVersion < source.commits.length
  follows : ∀ applied, publication.message.prevSourceVersion = some applied →
    publication.batch.entries = emitted source config.changePolicy (applied + 1)
      (publication.message.sourceVersion + 1)
  files : publication.batch.files = publication.batch.entries.map Prod.snd
  delivered : Delivers config engine target publication
  rendered : publication.message.complete = true →
    engine.model.transform publication.rows = .ok publication.message.rows

/-- The chain of a running process, and everything that was published. -/
structure Chained (config : ResolvedPipeline τ T K P) (engine : Broadcasting ρ τ μ T K P)
    (broadcast : Broadcast ρ τ μ T K P) : Prop where
  published : ∀ publication, publication ∈ broadcast.published →
    Placed config engine broadcast.source broadcast.target publication
  streamer : ∀ streamer, broadcast.streamer = some streamer →
    Ready config streamer.pipeline ∧
      (streamer.publisher = none → streamer.prevPublishedThrough = none) ∧
      ∀ through, streamer.prevPublishedThrough = some through →
        Linked broadcast.source config.changePolicy through streamer.pipeline.stream.cursor
  reader : ∀ reader, broadcast.reader = some reader →
    Whole reader.stream ∧ reader.stream.policy = config.changePolicy ∧
      ∀ through, reader.prevPublishedThrough = some through →
        Linked broadcast.source config.changePolicy through reader.stream.cursor

section Placed

variable {config : ResolvedPipeline τ T K P} {engine : Broadcasting ρ τ μ T K P}
  {source source' : DeltaLog ρ} {target target' : DeltaLog τ} {publication : Publication ρ τ μ}

theorem getElem?_of_prefix {α : Type} {items longer : List α} (grows : items <+: longer)
    {index : Nat} {item : α} (found : items[index]? = some item) :
    longer[index]? = some item := by
  obtain ⟨more, same⟩ := grows
  have within := (List.getElem?_eq_some_iff.mp found).1
  rw [← same, List.getElem?_append_left within]
  exact found

theorem Placed.grown (placed : Placed config engine source target publication)
    (longer : Extends source source') (appended : target.commits <+: target'.commits) :
    Placed config engine source' target' publication where
  own := placed.own
  within := Nat.lt_of_lt_of_le placed.within longer.length_le
  follows := by
    intro applied names
    have within := placed.within
    rw [emitted_extends longer config.changePolicy (by omega)]
    exact placed.follows applied names
  files := placed.files
  delivered := by
    have delivered := placed.delivered
    unfold Delivers at delivered ⊢
    cases named : publication.message.targetVersion with
    | none =>
        rw [named] at delivered
        exact delivered
    | some version =>
        rw [named] at delivered
        obtain ⟨⟨commit, found, rows⟩, judged⟩ := delivered
        exact ⟨⟨commit, getElem?_of_prefix appended found, rows⟩, judged⟩
  rendered := placed.rendered

theorem announce_placed {breaker : Breaker} {moments : Moments} {reply : Reply}
    {prev : Option Nat} {batch : LogBatch ρ} {targetVersion : Option Nat} {rows : List τ}
    {before after : StreamCursor}
    (left : publication ∈ (announce engine breaker moments reply prev batch targetVersion rows).1)
    (linked : ∀ through, prev = some through →
      Linked source config.changePolicy through before)
    (files : batch.entries = emitted source config.changePolicy before.version after.version)
    (paired : batch.files = batch.entries.map Prod.snd)
    (last : batch.entries.getLast?.map Prod.fst = some batch.throughVersion)
    (reached : ∀ version, before.version ≤ version → version < after.version →
      version < source.commits.length)
    (delivered : ∀ message : Envelope μ, message.targetVersion = targetVersion →
      Delivers config engine target { message := message, batch := batch, rows := rows }) :
    Placed config engine source target publication := by
  unfold announce at left
  obtain ⟨message, sent, same⟩ := Option.map_eq_some_iff.mp (Option.mem_toList.mp left)
  subst same
  obtain ⟨⟨rendered, pending, complete, carried⟩, own, _version, names, through, names_target⟩ :=
    PublishModel.send_some sent
  obtain ⟨low, link, entries⟩ := linked_batch files last reached
  exact
    { own := own
      within := by
        have within := link.within
        have behind := link.behind
        change message.sourceVersion < _
        omega
      follows := by
        intro applied claimed
        change message.prevSourceVersion = some applied at claimed
        rw [names] at claimed
        change batch.entries = emitted source config.changePolicy (applied + 1)
          (message.sourceVersion + 1)
        rw [through]
        exact (linked applied claimed).next low entries
      files := paired
      delivered := delivered message names_target
      rendered := by
        intro whole
        change message.complete = true at whole
        change engine.model.transform rows = .ok message.rows
        rw [carried]
        unfold payload at pending
        split at pending
        · cases pending
        · exact PublishModel.render_some pending (complete ▸ whole) }

end Placed

section Moves

variable {config : ResolvedPipeline τ T K P} {engine : Broadcasting ρ τ μ T K P}
  {broadcast : Broadcast ρ τ μ T K P}

theorem turn_through {source : DeltaLog ρ} {quarantine : Quarantine ρ τ T K P}
    {budget retryBudget : Option Nat} {before : Pipeline T K P} {judged : JudgedBatch ρ τ T K P}
    (turned : turn config quarantine source budget retryBudget before = .judged judged) :
    judged.batch.entries.getLast?.map Prod.fst = some judged.batch.throughVersion := by
  unfold turn at turned
  rcases pull : pullBatch source budget retryBudget before with ⟨outcome, pulled⟩
  rw [pull] at turned
  cases outcome with
  | error error => cases turned
  | ok result =>
      cases result with
      | none => cases turned
      | some batch =>
          simp only at turned
          unfold judgeBatch at turned
          split at turned
          · cases turned
          · rename_i judges same
            cases turned
            split at same
            · cases same
            · split at same
              · cases same
              · simp only at same
                split at same
                · cases same
                · cases same
                  exact pullBatch_through pull

theorem commit_addedRows {judged : JudgedBatch ρ τ T K P} {path : String} {target : DeltaLog τ}
    {commit : Commit τ} (made : judged.commit config engine.appending path target = .ok commit) :
    addedRows commit = judged.rows := by
  unfold JudgedBatch.commit at made
  cases empty : judged.rows.isEmpty with
  | true =>
      simp only [empty, if_true] at made
      cases made
      rw [List.isEmpty_iff.mp empty]
      rfl
  | false =>
      simp only [empty, Bool.false_eq_true, if_false] at made
      cases made
      unfold addedRows
      simp only [List.cons_append, List.nil_append, List.filterMap_cons, List.filterMap_nil,
        List.flatMap_cons, List.flatMap_nil, List.append_nil]

/-- Fewer processes and a longer target take nothing from what was published. -/
theorem Chained.fewer (chained : Chained config engine broadcast) {after : Broadcast ρ τ μ T K P}
    (source : after.source = broadcast.source)
    (appended : broadcast.target.commits <+: after.target.commits)
    (published : after.published = broadcast.published)
    (streamer : after.streamer = none ∨ after.streamer = broadcast.streamer)
    (reader : after.reader = none ∨ after.reader = broadcast.reader) :
    Chained config engine after where
  published := by
    intro publication member
    rw [published] at member
    rw [source]
    exact (chained.published publication member).grown (Extends.refl _) appended
  streamer := by
    intro running runs
    rcases streamer with gone | same
    · rw [gone] at runs
      cases runs
    · rw [source]
      exact chained.streamer running (same ▸ runs)
  reader := by
    intro running runs
    rcases reader with gone | same
    · rw [gone] at runs
      cases runs
    · rw [source]
      exact chained.reader running (same ▸ runs)

/-- A commit that landed is announced, and the chain moves on to it. -/
theorem Chained.publishes (chained : Chained config engine broadcast) {streamer : Streamer T K P}
    {judged : JudgedBatch ρ τ T K P} {commit : Commit τ} {pulled : Pipeline T K P} {version : Nat}
    (moments : Moments) (reply : Reply) (runs : broadcast.streamer = some streamer)
    (judging : Judging config engine.appending broadcast.source streamer.pipeline judged pulled
      version)
    (last : judged.batch.entries.getLast?.map Prod.fst = some judged.batch.throughVersion)
    (rows : addedRows commit = judged.rows) :
    Chained config engine
      (({ broadcast with target := broadcast.target.append commit }).publishes engine streamer judged
        moments reply) := by
  obtain ⟨ready, silent, linked⟩ := chained.streamer streamer runs
  have appended : broadcast.target.commits <+: (broadcast.target.append commit).commits :=
    List.prefix_append _ _
  have files := judging.pull.files
  obtain ⟨low, link, entries⟩ := linked_batch files last judging.pull.reached
  rw [← judging.onward] at link
  have kept : Chained config engine { broadcast with target := broadcast.target.append commit } :=
    chained.fewer rfl appended rfl (Or.inr rfl) (Or.inr rfl)
  unfold Broadcast.publishes
  cases publisher : streamer.publisher with
  | none =>
      refine ⟨kept.published, ?_, kept.reader⟩
      intro running now_runs
      cases now_runs
      refine ⟨judging.ready, fun _none => silent publisher, ?_⟩
      intro through names
      change streamer.prevPublishedThrough = some through at names
      rw [silent publisher] at names
      cases names
  | some breaker =>
      refine ⟨?_, ?_, kept.reader⟩
      · intro publication member
        rcases List.mem_append.mp member with earlier | now_left
        · exact kept.published publication earlier
        · apply announce_placed now_left linked files (judging.pull.paired _ rfl) last
            judging.pull.reached
          intro message names
          unfold Delivers
          rw [names]
          have head : (broadcast.target.append commit).commits[
              (broadcast.target.append commit).head]? = some commit := by
            rw [head_append]
            exact List.getElem?_concat_length
          obtain ⟨output, filtered, transformed, cut, same⟩ := judging.kept
          exact ⟨⟨commit, head, rows⟩, _, output, filtered, transformed, cut, same.symm⟩
      · intro running now_runs
        cases now_runs
        refine ⟨judging.ready, nofun, ?_⟩
        intro through names
        cases names
        exact link

theorem Chained.steps (chained : Chained config engine broadcast)
    (budget retryBudget : Option Nat) (fate : Fate) (moments : Moments) (reply : Reply) :
    Chained config engine
      (broadcast.steps config engine budget retryBudget fate moments reply) := by
  have stopped : Chained config engine broadcast.stop :=
    chained.fewer rfl List.prefix_rfl rfl (Or.inl rfl) (Or.inr rfl)
  unfold Broadcast.steps
  cases runs : broadcast.streamer with
  | none => exact chained
  | some streamer =>
      obtain ⟨ready, silent, linked⟩ := chained.streamer streamer runs
      simp only
      cases turned : turn config engine.appending broadcast.source budget retryBudget
          streamer.pipeline with
      | failed error => exact stopped
      | caughtUp after =>
          have pulled := turn_caughtUp ready turned
          refine ⟨chained.published, ?_, chained.reader⟩
          intro running now_runs
          cases now_runs
          refine ⟨pulled.ready, silent, ?_⟩
          intro through names
          exact (linked through names).silence pulled.notBefore pulled.files.symm pulled.reached
      | judged judged =>
          obtain ⟨pulled, version, judging⟩ := turn_judged ready turned
          simp only
          cases made : judged.commit config engine.appending (nextPath broadcast.target)
              broadcast.target with
          | error error => exact stopped
          | ok commit =>
              cases fate with
              | seen =>
                  exact chained.publishes moments reply runs judging (turn_through turned)
                    (commit_addedRows made)
              | unseen =>
                  exact chained.fewer rfl (List.prefix_append _ _) rfl (Or.inl rfl) (Or.inr rfl)
              | lost => exact stopped

theorem opensReader_fresh {reader : NearTimeReader}
    (opened : broadcast.opensReader config engine = some reader) :
    Whole reader.stream ∧ reader.stream.policy = config.changePolicy ∧
      reader.prevPublishedThrough = none := by
  unfold Broadcast.opensReader at opened
  split at opened
  · split at opened
    · cases resumed : OffsetStore.resumeCursor ⟨config.appId, config.startingVersion⟩
          broadcast.target with
      | error error =>
          rw [resumed] at opened
          cases opened
      | ok cursor =>
          rw [resumed] at opened
          cases opened
          have boundary : cursor.index = 0 := by
            unfold OffsetStore.resumeCursor at resumed
            cases stored : OffsetStore.lastCommittedVersion
                ⟨config.appId, config.startingVersion⟩ broadcast.target with
            | error error =>
                rw [stored] at resumed
                cases resumed
            | ok committed =>
                rw [stored] at resumed
                cases resumed
                cases committed with
                | none => rfl
                | some version => rfl
          exact ⟨⟨boundary, rfl, nofun⟩, rfl, rfl⟩
    · cases opened
  · cases opened

theorem Chained.polls (chained : Chained config engine broadcast) (budget : Option Nat)
    (moments : Moments) (reply : Reply) :
    Chained config engine (broadcast.polls engine budget moments reply) := by
  have stopped : Chained config engine broadcast.stopReader :=
    chained.fewer rfl List.prefix_rfl rfl (Or.inr rfl) (Or.inl rfl)
  unfold Broadcast.polls
  cases runs : broadcast.reader with
  | none => exact chained
  | some reader =>
      obtain ⟨whole, policy, linked⟩ := chained.reader reader runs
      simp only
      rcases polled : nextBatch broadcast.source budget reader.stream with ⟨outcome, stream⟩
      have first : (nextBatch broadcast.source budget reader.stream).1 = outcome := by rw [polled]
      have second : (nextBatch broadcast.source budget reader.stream).2 = stream := by rw [polled]
      cases outcome with
      | error error => exact stopped
      | ok result =>
          have reads := nextBatch_reads whole first
          obtain ⟨_spec, effect, _floor⟩ := nextBatch_ok first
          rw [second] at reads
          have kept : stream.policy = config.changePolicy := by
            rw [← second]
            exact effect.policy.trans policy
          have files := reads.files
          rw [policy] at files
          cases result with
          | none =>
              refine ⟨chained.published, chained.streamer, ?_⟩
              intro running now_runs
              cases now_runs
              refine ⟨reads.whole, kept, ?_⟩
              intro through names
              exact (linked through names).silence reads.notBefore files.symm reads.reached
          | some batch =>
              have last := nextBatch_through first
              have link := (linked_batch files last reads.reached).2.1
              simp only
              cases judged : engine.nearTimeRows (batchRows batch) with
              | failed error => exact stopped
              | skipped =>
                  refine ⟨chained.published, chained.streamer, ?_⟩
                  intro running now_runs
                  cases now_runs
                  refine ⟨reads.whole, kept, ?_⟩
                  intro through names
                  cases names
                  exact link
              | rows rows =>
                  refine ⟨?_, chained.streamer, ?_⟩
                  · intro publication member
                    rcases List.mem_append.mp member with earlier | now_left
                    · exact chained.published publication earlier
                    · apply announce_placed now_left linked files (reads.paired _ rfl) last
                        reads.reached
                      intro message names
                      unfold Delivers
                      rw [names]
                      exact judged
                  · intro running now_runs
                    cases now_runs
                    refine ⟨reads.whole, kept, ?_⟩
                    intro through names
                    cases names
                    exact link

theorem Chained.moved (chained : Chained config engine broadcast) (move : BroadcastMove) :
    Chained config engine (broadcast.move config engine move) := by
  have stopped : Chained config engine broadcast.stop :=
    chained.fewer rfl List.prefix_rfl rfl (Or.inl rfl) (Or.inr rfl)
  cases move with
  | crash => exact stopped
  | crashReader => exact chained.fewer rfl List.prefix_rfl rfl (Or.inr rfl) (Or.inl rfl)
  | start =>
      unfold Broadcast.move
      cases resolved : openPipeline config engine.toEngine broadcast.source broadcast.target with
      | error error => exact stopped
      | ok pipeline =>
          refine ⟨chained.published, ?_, chained.reader⟩
          intro running now_runs
          cases now_runs
          obtain ⟨resume, replaced, opening⟩ := openPipeline_semantics resolved
          exact ⟨opening.ready, fun _none => rfl, nofun⟩
  | step budget retryBudget fate moments reply =>
      exact chained.steps budget retryBudget fate moments reply
  | startReader =>
      refine ⟨chained.published, chained.streamer, ?_⟩
      intro reader opened
      obtain ⟨whole, policy, nothing⟩ := opensReader_fresh opened
      refine ⟨whole, policy, ?_⟩
      intro through names
      rw [nothing] at names
      cases names
  | poll budget moments reply => exact chained.polls budget moments reply

theorem Chained.besides (chained : Chained config engine broadcast) {source : DeltaLog ρ}
    {target : DeltaLog τ} (longer : Extends broadcast.source source)
    (appended : broadcast.target.commits <+: target.commits) :
    Chained config engine { broadcast with source := source, target := target } where
  published := by
    intro publication member
    exact (chained.published publication member).grown longer appended
  streamer := by
    intro streamer runs
    obtain ⟨ready, silent, linked⟩ := chained.streamer streamer runs
    exact ⟨ready, silent, fun through names => (linked through names).grown longer⟩
  reader := by
    intro reader runs
    obtain ⟨whole, policy, linked⟩ := chained.reader reader runs
    exact ⟨whole, policy, fun through names => (linked through names).grown longer⟩

end Moves

/-- A publishing pipeline before its first process. -/
structure Unpublished (broadcast : Broadcast ρ τ μ T K P) : Prop where
  streamer : broadcast.streamer = none
  reader : broadcast.reader = none
  published : broadcast.published = []

theorem Unpublished.chained {config : ResolvedPipeline τ T K P}
    {engine : Broadcasting ρ τ μ T K P} {broadcast : Broadcast ρ τ μ T K P}
    (fresh : Unpublished broadcast) : Chained config engine broadcast where
  published := by
    intro publication member
    rw [fresh.published] at member
    cases member
  streamer := by
    intro streamer runs
    rw [fresh.streamer] at runs
    cases runs
  reader := by
    intro reader runs
    rw [fresh.reader] at runs
    cases runs

theorem Chained.run {config : ResolvedPipeline τ T K P} {engine : Broadcasting ρ τ μ T K P}
    {first last : Broadcast ρ τ μ T K P} (chained : Chained config engine first)
    (run : Broadcast.Runs config engine first last) : Chained config engine last := by
  induction run with
  | refl => exact chained
  | tail _before step ih =>
      cases step with
      | ours move => exact ih.moved move
      | besides source target longer appended => exact ih.besides longer appended

/-- Moves one after another. -/
def Broadcast.moves (config : ResolvedPipeline τ T K P) (engine : Broadcasting ρ τ μ T K P)
    (broadcast : Broadcast ρ τ μ T K P) (moves : List BroadcastMove) : Broadcast ρ τ μ T K P :=
  moves.foldl (fun broadcast move => broadcast.move config engine move) broadcast

theorem Broadcast.Runs.ofMoves (config : ResolvedPipeline τ T K P)
    (engine : Broadcasting ρ τ μ T K P) (broadcast : Broadcast ρ τ μ T K P)
    (moves : List BroadcastMove) :
    Broadcast.Runs config engine broadcast (broadcast.moves config engine moves) := by
  induction moves generalizing broadcast with
  | nil => exact Relation.ReflTransGen.refl
  | cons move moves ih => exact Relation.ReflTransGen.head (.ours move) (ih _)

end Ddi.Publish
