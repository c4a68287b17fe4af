/-
What a grain check answers is exact, whatever the hash: a key that comes twice is in one class
however the classes are split, its hash is nominated by the pass over it, and only keys are counted.
-/

import Ddi.Grain.Check

namespace Ddi.GrainCheck

variable {K : Type}

/-! ### Classes -/

namespace Class

theorem holds_split {kind low high : Class} (parts : kind.split = some (low, high)) (hash : Hash) :
    kind.holds hash = true ↔ low.holds hash = true ∨ high.holds hash = true := by
  unfold split at parts
  split at parts
  · obtain ⟨low_eq, high_eq⟩ := Prod.mk.inj (Option.some.inj parts)
    subst low_eq
    subst high_eq
    unfold holds
    simp only [decide_eq_true_iff]
    have inside := kind.inside
    have coarse : hash.val % (kind.modulus * 2) % kind.modulus = hash.val % kind.modulus :=
      Nat.mod_mul_right_mod _ _ _
    have fine : hash.val % (kind.modulus * 2) < kind.modulus * 2 := Nat.mod_lt _ (by omega)
    rcases Nat.lt_or_ge (hash.val % (kind.modulus * 2)) kind.modulus with lower | upper
    · rw [Nat.mod_eq_of_lt lower] at coarse
      omega
    · rw [Nat.mod_eq_sub_mod upper, Nat.mod_eq_of_lt (by omega)] at coarse
      omega
  · cases parts

theorem exists_first {modulus : Nat} (some_class : 0 < modulus) (hash : Hash) :
    ∃ kind, kind ∈ first modulus ∧ kind.holds hash = true := by
  have inside := Nat.mod_lt hash.val some_class
  refine ⟨⟨modulus, hash.val % modulus, inside⟩, ?_, decide_eq_true rfl⟩
  exact List.mem_map.mpr ⟨⟨hash.val % modulus, inside⟩, List.mem_finRange _, rfl⟩

end Class

/-! ### One pass -/

/-- A buffer tells of the hashes that went by which came twice. -/
structure Tells (buffer : Buffer) (passed : List Hash) : Prop where
  twice : ∀ hash, hash ∈ buffer.nominated → 2 ≤ passed.count hash
  others : ∀ hash, hash ∉ buffer.nominated → buffer.hashes.count hash = passed.count hash

theorem tells_empty : Tells { hashes := [], nominated := [] } [] where
  twice := nofun
  others _hash _absent := rfl

theorem Tells.push {buffer : Buffer} {passed : List Hash} (tells : Tells buffer passed)
    (hash : Hash) : Tells { buffer with hashes := buffer.hashes ++ [hash] } (passed ++ [hash]) where
  twice other nominated := by
    have before := tells.twice other nominated
    rw [List.count_append]
    omega
  others other absent := by
    rw [List.count_append, List.count_append, tells.others other absent]

theorem mem_nominated {buffer : Buffer} {hash : Hash} :
    hash ∈ (compact buffer).nominated ↔ hash ∈ buffer.nominated ∨ 2 ≤ buffer.hashes.count hash := by
  have sorted := List.pairwise_insertionSort (· ≤ ·) buffer.hashes
  have same := (List.perm_insertionSort (· ≤ ·) buffer.hashes).count_eq hash
  unfold compact
  simp only
  rw [Repeats.mem_dedup, List.mem_insertionSort, List.mem_append, Repeats.mem_repeated sorted, same]

theorem count_hashes {buffer : Buffer} {hash : Hash}
    (absent : hash ∉ (compact buffer).nominated) :
    (compact buffer).hashes.count hash = buffer.hashes.count hash := by
  have once : ¬ 2 ≤ buffer.hashes.count hash := fun twice =>
    absent (mem_nominated.mpr (Or.inr twice))
  have sorted := List.pairwise_insertionSort (· ≤ ·) buffer.hashes
  have kept : (compact buffer).hashes.count hash =
      (Repeats.dedup (buffer.hashes.insertionSort (· ≤ ·))).count hash := by
    unfold compact
    exact List.count_filter (decide_eq_true absent)
  rw [kept]
  by_cases present : hash ∈ buffer.hashes
  · have positive := List.count_pos_iff.mpr present
    have single : (Repeats.dedup (buffer.hashes.insertionSort (· ≤ ·))).count hash = 1 := by
      apply List.count_eq_one_of_mem (Repeats.dedup_nodup sorted)
      rw [Repeats.mem_dedup, List.mem_insertionSort]
      exact present
    omega
  · rw [List.count_eq_zero_of_not_mem present, List.count_eq_zero]
    rw [Repeats.mem_dedup, List.mem_insertionSort]
    exact present

theorem Tells.compact {buffer : Buffer} {passed : List Hash} (tells : Tells buffer passed) :
    Tells (compact buffer) passed where
  twice hash nominated := by
    rcases mem_nominated.mp nominated with before | now
    · exact tells.twice hash before
    · by_cases before : hash ∈ buffer.nominated
      · exact tells.twice hash before
      · rw [tells.others hash before] at now
        exact now
  others hash absent := by
    rw [count_hashes absent]
    exact tells.others hash fun before => absent (mem_nominated.mpr (Or.inl before))

theorem scanKeys_semantics {cap : Nat} {kind : Class} {hash : K → Hash} {keys : List K}
    {buffer after : Buffer} {passed : List Hash} (tells : Tells buffer passed)
    (scanned : scanKeys cap kind hash keys buffer = some after) :
    Tells after (passed ++ (keys.map hash).filter kind.holds) := by
  induction keys generalizing buffer passed with
  | nil =>
      cases scanned
      rw [List.map_nil, List.filter_nil, List.append_nil]
      exact tells
  | cons key rest ih =>
      unfold scanKeys at scanned
      rw [List.map_cons]
      split at scanned
      · rename_i inside
        rw [List.filter_cons_of_pos inside]
        have pushed := tells.push (hash key)
        have onward : ∀ {next : Buffer}, Tells next (passed ++ [hash key]) →
            scanKeys cap kind hash rest next = some after →
              Tells after (passed ++ hash key :: (rest.map hash).filter kind.holds) := by
          intro next here there
          have later := ih here there
          rw [List.append_assoc] at later
          exact later
        simp only at scanned
        split at scanned
        · exact onward pushed scanned
        · split at scanned
          · cases scanned
          · exact onward pushed.compact scanned
      · rename_i outside
        rw [List.filter_cons_of_neg outside]
        exact ih tells scanned

theorem scanClass_semantics {target : Target K} {hash : K → Hash} {ceiling : Ceiling} {kind : Class}
    {at_ : Nat} {hashes : List Hash}
    (scanned : scanClass target hash ceiling kind at_ = .ok (.candidates hashes)) :
    ∃ keys, target.scan at_ = .ok keys ∧
      ∀ one, one ∈ hashes ↔ kind.holds one = true ∧ 2 ≤ (keys.map hash).count one := by
  unfold scanClass at scanned
  cases read : target.scan at_ with
  | error error =>
      rw [read] at scanned
      cases scanned
  | ok keys =>
      rw [read] at scanned
      simp only at scanned
      split at scanned
      · cases scanned
      · rename_i buffer filled
        cases scanned
        refine ⟨keys, rfl, fun one => ?_⟩
        have tells := scanKeys_semantics tells_empty filled
        rw [List.nil_append] at tells
        have counted : one ∈ (compact buffer).nominated ↔
            2 ≤ ((keys.map hash).filter kind.holds).count one := by
          constructor
          · exact tells.compact.twice one
          · intro twice
            by_cases before : one ∈ buffer.nominated
            · exact mem_nominated.mpr (Or.inl before)
            · apply mem_nominated.mpr
              rw [tells.others one before]
              exact Or.inr twice
        rw [counted]
        by_cases inside : kind.holds one = true
        · rw [List.count_filter inside]
          exact (and_iff_right inside).symm
        · have none_ : ((keys.map hash).filter kind.holds).count one = 0 := by
            apply List.count_eq_zero_of_not_mem
            intro member
            exact inside (List.mem_filter.mp member).2
          rw [none_]
          constructor
          · intro impossible
            omega
          · intro both
            exact absurd both.1 inside

/-! ### Resolving what was nominated -/

theorem mem_chunks {α : Type} {size : Nat} (some_size : 0 < size) {items : List α} {item : α}
    (member : item ∈ items) : ∃ chunk, chunk ∈ chunks size items ∧ item ∈ chunk := by
  obtain ⟨index, within, found⟩ := List.getElem_of_mem member
  have low : index / size * size ≤ index := Nat.div_mul_le_self index size
  have high : index < index / size * size + size := Nat.lt_div_mul_add some_size
  refine ⟨(items.drop (index / size * size)).take size, ?_, ?_⟩
  · apply List.mem_map.mpr
    refine ⟨index / size, List.mem_range.mpr ?_, rfl⟩
    rw [Nat.lt_div_iff_mul_lt some_size]
    omega
  · apply List.mem_iff_getElem.mpr
    refine ⟨index - index / size * size, ?_, ?_⟩
    · rw [List.length_take, List.length_drop]
      omega
    · rw [List.getElem_take, List.getElem_drop, ← found]
      congr 1
      omega

variable [DecidableEq K]

/-- Each key that went by once, with how often it did. -/
structure Counts (seen : List (K × Nat)) (keys : List K) : Prop where
  distinct : (seen.map Prod.fst).Nodup
  exact_ : ∀ key count, (key, count) ∈ seen ↔ count = keys.count key ∧ 0 < count

private theorem mem_countKey_ne {key other : K} {count : Nat} {seen : List (K × Nat)}
    (apart : other ≠ key) : (other, count) ∈ countKey key seen ↔ (other, count) ∈ seen := by
  induction seen with
  | nil =>
      constructor
      · intro member
        cases List.mem_singleton.mp member
        exact absurd rfl apart
      · exact nofun
  | cons entry rest ih =>
      obtain ⟨known, before⟩ := entry
      unfold countKey
      split
      · rename_i same
        subst same
        simp [apart]
      · rw [List.mem_cons, List.mem_cons, ih]

private theorem fst_countKey {key : K} {seen : List (K × Nat)} :
    (countKey key seen).map Prod.fst =
      if key ∈ seen.map Prod.fst then seen.map Prod.fst else seen.map Prod.fst ++ [key] := by
  induction seen with
  | nil => rfl
  | cons entry rest ih =>
      obtain ⟨known, before⟩ := entry
      unfold countKey
      by_cases same : key = known
      · subst same
        rw [if_pos rfl]
        simp
      · rw [if_neg same, List.map_cons, ih]
        by_cases later : key ∈ rest.map Prod.fst
        · have present : key ∈ ((known, before) :: rest).map Prod.fst :=
            List.mem_cons_of_mem _ later
          rw [if_pos later, if_pos present, List.map_cons]
        · have absent : key ∉ ((known, before) :: rest).map Prod.fst := by
            rw [List.map_cons, List.mem_cons]
            rintro (here | there)
            · exact same here
            · exact later there
          rw [if_neg later, if_neg absent, List.map_cons, List.cons_append]

private theorem mem_countKey_self {key : K} {count : Nat} {seen : List (K × Nat)}
    (distinct : (seen.map Prod.fst).Nodup) :
    (key, count) ∈ countKey key seen ↔
      (∃ before, (key, before) ∈ seen ∧ count = before + 1) ∨
        (key ∉ seen.map Prod.fst ∧ count = 1) := by
  induction seen with
  | nil =>
      constructor
      · intro member
        cases List.mem_singleton.mp member
        exact Or.inr ⟨nofun, rfl⟩
      · rintro (⟨_before, impossible, _⟩ | ⟨_, rfl⟩)
        · cases impossible
        · exact List.mem_singleton.mpr rfl
  | cons entry rest ih =>
      obtain ⟨known, before⟩ := entry
      obtain ⟨absent, tail⟩ := List.nodup_cons.mp distinct
      unfold countKey
      by_cases same : key = known
      · subst same
        rw [if_pos rfl]
        have nowhere : ∀ other, (key, other) ∉ rest := fun other member =>
          absent (List.mem_map.mpr ⟨_, member, rfl⟩)
        simp [nowhere]
      · rw [if_neg same, List.mem_cons, ih tail]
        simp [same]

theorem Counts.step {seen : List (K × Nat)} {keys : List K} (counts : Counts seen keys) (key : K) :
    Counts (countKey key seen) (keys ++ [key]) where
  distinct := by
    rw [fst_countKey]
    split
    · exact counts.distinct
    · rename_i absent
      apply List.nodup_append.mpr
      refine ⟨counts.distinct, List.nodup_cons.mpr ⟨List.not_mem_nil, List.nodup_nil⟩, ?_⟩
      intro one member other single same
      rw [List.mem_singleton.mp single] at same
      rw [same] at member
      exact absent member
  exact_ other count := by
    by_cases same : other = key
    · subst same
      rw [mem_countKey_self counts.distinct, List.count_append, List.count_singleton_self]
      constructor
      · rintro (⟨before, held, rfl⟩ | ⟨absent, rfl⟩)
        · have known := (counts.exact_ other before).mp held
          omega
        · have none_ : keys.count other = 0 := by
            apply Nat.eq_zero_of_not_pos
            intro positive
            exact absent (List.mem_map.mpr
              ⟨_, (counts.exact_ other (keys.count other)).mpr ⟨rfl, positive⟩, rfl⟩)
          omega
      · rintro ⟨rfl, _positive⟩
        rcases Nat.eq_zero_or_pos (keys.count other) with none_ | positive
        · refine Or.inr ⟨?_, by omega⟩
          intro among
          obtain ⟨⟨name, before⟩, held, named⟩ := List.mem_map.mp among
          have same : name = other := named
          rw [same] at held
          have known := (counts.exact_ other before).mp held
          omega
        · exact Or.inl ⟨_, (counts.exact_ other (keys.count other)).mpr ⟨rfl, positive⟩, rfl⟩
    · have apart : keys.count other = (keys ++ [key]).count other := by
        rw [List.count_append, List.count_eq_zero_of_not_mem (l := [key])]
        · rfl
        · rw [List.mem_singleton]
          exact same
      rw [mem_countKey_ne same, counts.exact_, apart]

theorem counts_foldl {keys before : List K} {seen : List (K × Nat)} (counts : Counts seen before) :
    Counts (keys.foldl (fun seen key => countKey key seen) seen) (before ++ keys) := by
  induction keys generalizing before seen with
  | nil =>
      rw [List.append_nil]
      exact counts
  | cons key rest ih =>
      have later := ih (counts.step key)
      rw [List.append_assoc] at later
      exact later

theorem counts_seenKeys (hash : K → Hash) (chunk : List Hash) (keys : List K) :
    Counts (seenKeys hash chunk keys) (keys.filter fun key => decide (hash key ∈ chunk)) := by
  have start : Counts ([] : List (K × Nat)) [] := by
    refine ⟨List.nodup_nil, fun key count => ?_⟩
    rw [List.count_nil]
    constructor
    · exact nofun
    · intro both
      omega
  exact counts_foldl start

theorem mem_duplicatesIn {target : Target K} {hash : K → Hash} {chunk : List Hash} {keys : List K}
    {duplicate : Duplicate} :
    duplicate ∈ duplicatesIn target (seenKeys hash chunk keys) ↔
      ∃ key, hash key ∈ chunk ∧ target.shown key = duplicate.key ∧
        keys.count key = duplicate.rows ∧ 2 ≤ duplicate.rows := by
  have counts := counts_seenKeys hash chunk keys
  have counted : ∀ key, hash key ∈ chunk →
      (keys.filter fun key => decide (hash key ∈ chunk)).count key = keys.count key :=
    fun key among => List.count_filter (decide_eq_true among)
  unfold duplicatesIn
  rw [List.mem_insertionSort, List.mem_map]
  constructor
  · rintro ⟨⟨key, count⟩, held, rfl⟩
    obtain ⟨present, twice⟩ := List.mem_filter.mp held
    obtain ⟨count_eq, positive⟩ := (counts.exact_ key count).mp present
    have among : hash key ∈ chunk := by
      rw [count_eq] at positive
      exact of_decide_eq_true (List.mem_filter.mp (List.count_pos_iff.mp positive)).2
    rw [counted key among] at count_eq
    exact ⟨key, among, rfl, count_eq.symm, of_decide_eq_true twice⟩
  · rintro ⟨key, among, shown, count_eq, twice⟩
    refine ⟨(key, duplicate.rows), ?_, by simp only [shown]⟩
    apply List.mem_filter.mpr
    constructor
    · apply (counts.exact_ key duplicate.rows).mpr
      rw [counted key among, count_eq]
      exact ⟨rfl, by omega⟩
    · exact decide_eq_true twice

/-! ### The check -/

section Check

variable {target : Target K} {hash : K → Hash} {keys : List K}

/-- Every scan comes to the same keys, in an order of its own. -/
def Scans (target : Target K) (keys : List K) : Prop :=
  ∀ at_ read, target.scan at_ = .ok read → read.Perm keys

/-- A duplicate as it really occurs. -/
def Occurs (target : Target K) (keys : List K) (duplicate : Duplicate) : Prop :=
  ∃ key, target.shown key = duplicate.key ∧ keys.count key = duplicate.rows ∧ 2 ≤ duplicate.rows

theorem verifyChunks_semantics (scans : Scans target keys) {wanted : Nat}
    {waiting : List (List Hash)} {at_ after : Nat} {out resolved : List Duplicate}
    (verified : verifyChunks target hash wanted waiting at_ out = .ok (resolved, after)) :
    ((∀ duplicate, duplicate ∈ out → Occurs target keys duplicate) →
      ∀ duplicate, duplicate ∈ resolved → Occurs target keys duplicate) ∧
    (0 < wanted → resolved = [] → out = [] ∧
      ∀ chunk, chunk ∈ waiting → ∀ key, hash key ∈ chunk → keys.count key < 2) := by
  induction waiting generalizing at_ out with
  | nil =>
      cases verified
      exact ⟨fun sound => sound, fun _wanted none_ => ⟨none_, nofun⟩⟩
  | cons chunk rest ih =>
      unfold verifyChunks at verified
      cases read : target.scan at_ with
      | error error =>
          rw [read] at verified
          cases verified
      | ok scanned =>
          rw [read] at verified
          have same := scans at_ scanned read
          have here : ∀ duplicate, duplicate ∈ duplicatesIn target (seenKeys hash chunk scanned) →
              Occurs target keys duplicate := by
            intro duplicate member
            obtain ⟨key, _among, shown, count_eq, twice⟩ := mem_duplicatesIn.mp member
            rw [same.count_eq] at count_eq
            exact ⟨key, shown, count_eq, twice⟩
          have sound : (∀ duplicate, duplicate ∈ out → Occurs target keys duplicate) →
              ∀ duplicate, duplicate ∈ out ++ duplicatesIn target (seenKeys hash chunk scanned) →
                Occurs target keys duplicate := by
            intro before duplicate member
            rcases List.mem_append.mp member with old | new
            · exact before duplicate old
            · exact here duplicate new
          have silent : out ++ duplicatesIn target (seenKeys hash chunk scanned) = [] →
              out = [] ∧ ∀ key, hash key ∈ chunk → keys.count key < 2 := by
            intro nothing
            obtain ⟨before, new⟩ := List.append_eq_nil_iff.mp nothing
            refine ⟨before, fun key among => Nat.lt_of_not_le fun twice => ?_⟩
            have member : ({ key := target.shown key, rows := keys.count key } : Duplicate) ∈
                duplicatesIn target (seenKeys hash chunk scanned) :=
              mem_duplicatesIn.mpr ⟨key, among, rfl, same.count_eq key, twice⟩
            rw [new] at member
            cases member
          simp only at verified
          split at verified
          · rename_i enough
            cases verified
            refine ⟨sound, fun some_wanted nothing => ?_⟩
            rw [nothing, List.length_nil] at enough
            omega
          · obtain ⟨sound_later, silent_later⟩ := ih verified
            refine ⟨fun before => sound_later (sound before), fun some_wanted nothing => ?_⟩
            obtain ⟨now, later⟩ := silent_later some_wanted nothing
            obtain ⟨before, none_here⟩ := silent now
            refine ⟨before, fun one member => ?_⟩
            rcases List.mem_cons.mp member with rfl | behind
            · exact none_here
            · exact later one behind

/-- What is resolved occurs, and where one was wanted and none is, no nominated key comes twice. -/
theorem verify_semantics (scans : Scans target keys) {candidates : List Hash}
    {wanted at_ after : Nat} {resolved : List Duplicate}
    (verified : verify target hash candidates wanted at_ = .ok (resolved, after)) :
    (∀ duplicate, duplicate ∈ resolved → Occurs target keys duplicate) ∧
    (0 < wanted → resolved = [] → ∀ key, hash key ∈ candidates → keys.count key < 2) := by
  obtain ⟨sound, silent⟩ := verifyChunks_semantics scans verified
  constructor
  · exact sound nofun
  · intro some_wanted nothing key among
    obtain ⟨chunk, part, member⟩ := mem_chunks (by decide : 0 < verifyChunk) among
    exact (silent some_wanted nothing).2 chunk part key member

theorem mem_candidates (scans : Scans target keys) {ceiling : Ceiling} {kind : Class} {at_ : Nat}
    {hashes : List Hash}
    (scanned : scanClass target hash ceiling kind at_ = .ok (.candidates hashes)) {key : K}
    (inside : kind.holds (hash key) = true) (twice : 2 ≤ keys.count key) : hash key ∈ hashes := by
  obtain ⟨read, found, exactly_⟩ := scanClass_semantics scanned
  apply (exactly_ (hash key)).mpr
  refine ⟨inside, Nat.le_trans twice ?_⟩
  rw [← (scans at_ read found).count_eq]
  exact List.count_le_count_map

theorem passes_nil (ceiling : Ceiling) (examples left : Nat) (found : List Duplicate) (at_ : Nat) :
    passes target hash ceiling examples left [] found at_ = .ok (found, ceilingOnPasses - left) := by
  rw [passes]

theorem passes_cons {ceiling : Ceiling} {examples left at_ : Nat} {kind : Class}
    {queue : List Class} {found : List Duplicate} {answer : List Duplicate × Nat}
    (checked : passes target hash ceiling examples (left + 1) (kind :: queue) found at_ =
      .ok answer) :
    (∃ low high, kind.split = some (low, high) ∧
      passes target hash ceiling examples left (low :: high :: queue) found (at_ + 1) =
        .ok answer) ∨
    (scanClass target hash ceiling kind at_ = .ok (.candidates []) ∧
      passes target hash ceiling examples left queue found (at_ + 1) = .ok answer) ∨
    ∃ candidates resolved after,
      scanClass target hash ceiling kind at_ = .ok (.candidates candidates) ∧
      verify target hash candidates (examples - found.length) (at_ + 1) = .ok (resolved, after) ∧
      ((examples ≤ (found ++ resolved).length ∧ answer.1 = found ++ resolved) ∨
        ((found ++ resolved).length < examples ∧
          passes target hash ceiling examples left queue (found ++ resolved) after =
            .ok answer)) := by
  rw [passes] at checked
  split at checked
  · cases checked
  · split at checked
    · cases checked
    · rename_i low high parts
      exact Or.inl ⟨low, high, parts, checked⟩
  · rename_i candidates scanned
    split at checked
    · rename_i nothing
      rw [List.isEmpty_iff.mp nothing] at scanned
      exact Or.inr (Or.inl ⟨scanned, checked⟩)
    · split at checked
      · cases checked
      · rename_i resolved after verified
        refine Or.inr (Or.inr ⟨candidates, resolved, after, scanned, verified, ?_⟩)
        split at checked
        · rename_i enough
          refine Or.inl ⟨enough, ?_⟩
          rw [← Except.ok.inj checked]
        · rename_i short
          exact Or.inr ⟨Nat.lt_of_not_le short, checked⟩

theorem passes_semantics (scans : Scans target keys) {ceiling : Ceiling}
    {examples left at_ : Nat} {queue : List Class} {found : List Duplicate}
    {answer : List Duplicate × Nat}
    (checked : passes target hash ceiling examples left queue found at_ = .ok answer) :
    ((∀ duplicate, duplicate ∈ found → Occurs target keys duplicate) →
      ∀ duplicate, duplicate ∈ answer.1 → Occurs target keys duplicate) ∧
    (0 < examples → answer.1 = [] → found = [] ∧ ∀ kind, kind ∈ queue → ∀ key,
      kind.holds (hash key) = true → keys.count key < 2) := by
  induction left generalizing queue found at_ with
  | zero =>
      cases queue with
      | nil =>
          rw [passes_nil] at checked
          rw [← Except.ok.inj checked]
          exact ⟨fun sound => sound, fun _some none_ => ⟨none_, nofun⟩⟩
      | cons kind queue =>
          rw [passes] at checked
          cases checked
  | succ left ih =>
      cases queue with
      | nil =>
          rw [passes_nil] at checked
          rw [← Except.ok.inj checked]
          exact ⟨fun sound => sound, fun _some none_ => ⟨none_, nofun⟩⟩
      | cons kind queue =>
          rcases passes_cons checked with ⟨low, high, parts, onward⟩ | ⟨scanned, onward⟩ |
            ⟨candidates, resolved, after, scanned, verified, rest⟩
          · obtain ⟨sound, silent⟩ := ih onward
            constructor
            · exact sound
            · intro some_ none_
              obtain ⟨nothing, settled⟩ := silent some_ none_
              refine ⟨nothing, fun one member key inside => ?_⟩
              rcases List.mem_cons.mp member with rfl | later
              · -- A hash of the class is in one of its halves.
                rcases (Class.holds_split parts (hash key)).mp inside with lower | upper
                · exact settled low List.mem_cons_self key lower
                · exact settled high (List.mem_cons_of_mem _ List.mem_cons_self) key upper
              · exact settled one (List.mem_cons_of_mem _ (List.mem_cons_of_mem _ later)) key inside
          · obtain ⟨sound, silent⟩ := ih onward
            constructor
            · exact sound
            · intro some_ none_
              obtain ⟨nothing, settled⟩ := silent some_ none_
              refine ⟨nothing, fun one member key inside => ?_⟩
              rcases List.mem_cons.mp member with rfl | later
              · apply Nat.lt_of_not_le
                intro twice
                exact List.not_mem_nil (mem_candidates scans scanned inside twice)
              · exact settled one later key inside
          · obtain ⟨real, unnominated⟩ := verify_semantics scans verified
            have joined : (∀ duplicate, duplicate ∈ found → Occurs target keys duplicate) →
                ∀ duplicate, duplicate ∈ found ++ resolved → Occurs target keys duplicate := by
              intro before duplicate member
              rcases List.mem_append.mp member with old | new
              · exact before duplicate old
              · exact real duplicate new
            rcases rest with ⟨enough, answer_eq⟩ | ⟨_short, onward⟩
            · rw [answer_eq]
              refine ⟨joined, fun some_ none_ => ?_⟩
              rw [none_, List.length_nil] at enough
              omega
            · obtain ⟨sound, silent⟩ := ih onward
              refine ⟨fun before => sound (joined before), fun some_ none_ => ?_⟩
              obtain ⟨nothing, settled⟩ := silent some_ none_
              obtain ⟨before, unresolved⟩ := List.append_eq_nil_iff.mp nothing
              refine ⟨before, fun one member key inside => ?_⟩
              rcases List.mem_cons.mp member with rfl | later
              · have wanted : 0 < examples - found.length := by
                  rw [before, List.length_nil]
                  exact some_
                apply Nat.lt_of_not_le
                intro twice
                have once := unnominated wanted unresolved key
                  (mem_candidates scans scanned inside twice)
                omega
              · exact settled one later key inside

/-- A check that wants an example calls no target unique that holds a key twice, and every
example it gives is a key that occurs as often as it says. -/
theorem checkWith_exact (scans : Scans target keys) (ceiling : Ceiling) (examples : Nat)
    (hash : K → Hash) :
    (∀ rows count, checkWith target ceiling examples hash = .ok (.unique rows count) →
      0 < examples → keys.Nodup) ∧
    (∀ duplicates count,
      checkWith target ceiling examples hash = .ok (.duplicated duplicates count) →
        ∀ duplicate, duplicate ∈ duplicates → ∃ key, target.shown key = duplicate.key ∧
          keys.count key = duplicate.rows ∧ 2 ≤ duplicate.rows) := by
  have answer : ∀ grain, checkWith target ceiling examples hash = .ok grain →
      ∃ found count, passes target hash ceiling examples ceilingOnPasses
          (Class.first (initialModulus target.rows target.bytes ceiling)) [] 0 =
            .ok (found, count) ∧
        grain = if found.isEmpty then .unique target.rows count
          else .duplicated (found.take examples) count := by
    intro grain checked
    unfold checkWith at checked
    simp only at checked
    split at checked
    · cases checked
    · split at checked
      · cases checked
      · rename_i found count ran
        refine ⟨found, count, ran, ?_⟩
        split at checked
        · rename_i nothing
          rw [if_pos nothing]
          exact (Except.ok.inj checked).symm
        · rename_i something
          rw [if_neg something]
          exact (Except.ok.inj checked).symm
  constructor
  · intro rows count checked some_
    obtain ⟨found, taken, ran, grain_eq⟩ := answer _ checked
    split at grain_eq
    · rename_i nothing
      obtain ⟨_sound, silent⟩ := passes_semantics scans ran
      obtain ⟨_none, settled⟩ := silent some_ (List.isEmpty_iff.mp nothing)
      rw [List.nodup_iff_count_le_one]
      intro key
      have some_class : 0 < initialModulus target.rows target.bytes ceiling :=
        Nat.lt_of_lt_of_le Nat.zero_lt_one (Nat.le_max_right _ _)
      obtain ⟨kind, member, inside⟩ := Class.exists_first some_class (hash key)
      exact Nat.le_of_lt_succ (settled kind member key inside)
    · cases grain_eq
  · intro duplicates count checked duplicate member
    obtain ⟨found, taken, ran, grain_eq⟩ := answer _ checked
    split at grain_eq
    · cases grain_eq
    · obtain ⟨rfl, _count_eq⟩ := Grain.duplicated.inj grain_eq
      obtain ⟨sound, _silent⟩ := passes_semantics scans ran
      exact sound nofun duplicate (List.mem_of_mem_take member)

end Check

/-! ### Small targets -/

def targetOf (keys : List Nat) : Target Nat :=
  { keyColumn := "id"
    rows := some keys.length
    bytes := 64 * keys.length
    scan := fun _number => .ok keys
    shown := fun key => if key = 7 then "7" else "other"
    display := fun _bytes => "16 B" }

theorem targetOf_scans (keys : List Nat) : Scans (targetOf keys) keys := by
  rintro _number _read ⟨⟩
  exact List.Perm.refl keys

/-- Every key has one hash here; the key that comes twice is found all the same. -/
theorem exact_of_one_hash :
    ∃ key, (targetOf [7, 8, 7]).shown key = "7" ∧ [7, 8, 7].count key = 2 ∧ 2 ≤ 2 :=
  (checkWith_exact (targetOf_scans [7, 8, 7]) { bytes := 1024 } 3 fun _key => 0).2
    [{ key := "7", rows := 2 }] 1 rfl { key := "7", rows := 2 } (List.mem_singleton.mpr rfl)

/-- A check that wants no example stops at the first collision, and calls a target unique that holds
a key twice. -/
theorem not_exact_of_no_examples :
    Scans (targetOf [7, 8, 9, 9]) [7, 8, 9, 9] ∧
      checkWith (targetOf [7, 8, 9, 9]) { bytes := 16 } 0 (fun key => if key = 9 then 1 else 0) =
        .ok (.unique (some 4) 1) ∧
      ¬ [7, 8, 9, 9].Nodup :=
  ⟨targetOf_scans _, rfl, by decide⟩

end Ddi.GrainCheck
