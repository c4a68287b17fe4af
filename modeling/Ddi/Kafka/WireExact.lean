/-
What the walk accepts: exactly the encodings of a value of the schema, each to its end,
whatever follows it.
-/

import Ddi.Kafka.Wire
import Ddi.Lib.Walks
import Mathlib.Tactic.IntervalCases

namespace Ddi.Kafka.Decode

open Avro (Bytes Ty Groups Varint Long Short Items Blocks Entry EncodesAll EncodesNth)
open Walks (Reads Passes bind_ok_iff)

namespace Wire

/-! ### Bytes and numbers -/

theorem take_reads (count : Nat) :
    Reads (fun buf => take buf count) fun data bytes => data = bytes ∧ bytes.length = count := by
  intro body value rest
  unfold take
  simp only
  by_cases short : body.length < count
  · rw [if_pos short]
    constructor
    · intro same
      cases same
    · rintro ⟨bytes, ⟨_same, whole⟩, rfl⟩
      rw [List.length_append] at short
      omega
  · rw [if_neg short]
    constructor
    · intro same
      cases same
      refine ⟨body.take count, ⟨rfl, ?_⟩, (List.take_append_drop _ _).symm⟩
      rw [List.length_take]
      omega
    · rintro ⟨bytes, ⟨rfl, rfl⟩, rfl⟩
      rw [List.take_left, List.drop_left]

/-- A last byte in its place overflows in the tenth one alone. -/
private theorem last_fits {index : Nat} (byte : UInt8) (within : index < 10)
    (final : byte.toNat < 128) :
    byte.toNat * 2 ^ (7 * index) < 2 ^ 64 ↔ ¬(index = 9 ∧ 2 ≤ byte.toNat) := by
  interval_cases index <;> omega

/-- Lower groups never carry into the ones that follow. -/
private theorem more_fits {index : Nat} (byte : UInt8) (value : Nat) (within : index < 9)
    (continued : 128 ≤ byte.toNat) :
    (byte.toNat - 128 + 128 * value) * 2 ^ (7 * index) < 2 ^ 64 ↔
      value * 2 ^ (7 * (index + 1)) < 2 ^ 64 := by
  have byte_lt := byte.toNat_lt
  interval_cases index <;> omega

private theorem more_sum (index low value : Nat) :
    (low + 128 * value) * 2 ^ (7 * index) = low * 2 ^ (7 * index) + value * 2 ^ (7 * (index + 1)) := by
  have step : 2 ^ (7 * (index + 1)) = 128 * 2 ^ (7 * index) := by
    rw [Nat.mul_succ, Nat.pow_add, Nat.mul_comm]
  rw [step, Nat.add_mul, Nat.mul_comm 128 value, Nat.mul_assoc]

theorem varintFrom_iff {index before : Nat} {body rest : Bytes} {raw : Nat} :
    varintFrom index before body = .ok (raw, rest) ↔
      ∃ value bytes, Groups value bytes ∧ body = bytes ++ rest ∧ index + bytes.length ≤ 10 ∧
        value * 2 ^ (7 * index) < 2 ^ 64 ∧ raw = before + value * 2 ^ (7 * index) := by
  induction body generalizing index before with
  | nil =>
      constructor
      · intro same
        cases same
      · rintro ⟨value, bytes, groups, split, _short, _fits, _sum⟩
        have some := groups.length_pos
        rw [(List.append_eq_nil_iff.mp split.symm).1] at some
        exact absurd some (Nat.lt_irrefl 0)
  | cons byte body ih =>
      unfold varintFrom
      by_cases ended : 10 ≤ index
      · rw [if_pos ended]
        constructor
        · intro same
          cases same
        · rintro ⟨value, bytes, groups, _split, short, _fits, _sum⟩
          have some := groups.length_pos
          omega
      · rw [if_neg ended]
        have within := Nat.not_le.mp ended
        by_cases final : byte.toNat < 128
        · rw [if_pos final]
          constructor
          · intro read
            by_cases past : index = 9 ∧ 2 ≤ byte.toNat
            · rw [if_pos past] at read
              cases read
            · rw [if_neg past] at read
              cases read
              exact ⟨byte.toNat, [byte], .last final, rfl, within,
                (last_fits byte within final).mpr past, rfl⟩
          · rintro ⟨value, bytes, groups, split, _short, fits, sum⟩
            cases groups with
            | last _final =>
                cases split
                rw [if_neg ((last_fits byte within final).mp fits), sum]
                rfl
            | more continued _rest =>
                cases split
                omega
        · rw [if_neg final, ih]
          have continued := Nat.not_lt.mp final
          constructor
          · rintro ⟨value, bytes, groups, rfl, short, fits, sum⟩
            have some := groups.length_pos
            refine ⟨_, byte :: bytes, .more continued groups, rfl, ?_, ?_, ?_⟩
            · rw [List.length_cons]
              omega
            · exact (more_fits byte value (by omega) continued).mpr fits
            · rw [sum, more_sum, Nat.add_assoc]
          · rintro ⟨value, bytes, groups, split, short, fits, sum⟩
            cases groups with
            | last below =>
                cases split
                omega
            | more _continued others =>
                rename_i later_value later
                cases split
                have some := others.length_pos
                rw [List.length_cons] at short
                refine ⟨later_value, later, others, rfl, by omega, ?_, ?_⟩
                · exact (more_fits byte later_value (by omega) continued).mp fits
                · rw [sum, more_sum, Nat.add_assoc]

theorem varint_reads : Reads varint Varint := by
  intro body raw rest
  unfold varint
  rw [varintFrom_iff]
  constructor
  · rintro ⟨value, bytes, groups, split, short, fits, sum⟩
    have same : raw = value := by omega
    subst same
    exact ⟨bytes, ⟨groups, by omega, by omega⟩, split⟩
  · rintro ⟨bytes, word, split⟩
    have short := word.short
    have fits := word.fits
    exact ⟨raw, bytes, word.groups, split, by omega, by omega, by omega⟩

theorem long_reads : Reads long Long := by
  intro body value rest
  unfold long
  rw [bind_ok_iff]
  constructor
  · rintro ⟨⟨raw, left⟩, read, same⟩
    cases same
    obtain ⟨bytes, word, split⟩ := (varint_reads _ _ _).mp read
    exact ⟨bytes, ⟨raw, word, rfl⟩, split⟩
  · rintro ⟨bytes, ⟨raw, word, rfl⟩, rfl⟩
    exact ⟨(raw, rest), varint_reads.on_word word rest, rfl⟩

theorem walkShort_passes (what : String) : Passes (walkShort what) Short := by
  intro body rest
  unfold walkShort
  rw [bind_ok_iff]
  constructor
  · rintro ⟨⟨raw, left⟩, read, same⟩
    obtain ⟨bytes, word, split⟩ := (varint_reads _ _ _).mp read
    by_cases past : 2 ^ 32 ≤ raw
    · simp only [if_pos past] at same
      cases same
    · simp only [if_neg past] at same
      cases same
      exact ⟨_, bytes, ⟨raw, word, Nat.not_le.mp past, rfl⟩, split⟩
  · rintro ⟨value, bytes, ⟨raw, word, small, rfl⟩, rfl⟩
    refine ⟨(raw, rest), varint_reads.on_word word rest, ?_⟩
    simp only [if_neg (Nat.not_le.mpr small)]
    rfl

/-- A length, and that many bytes. -/
def Sized (data : Bytes) (bytes : Bytes) : Prop :=
  ∃ count, Long data.length count ∧ bytes = count ++ data

theorem walkBytes_passes : Passes walkBytes Sized := by
  intro body rest
  unfold walkBytes
  rw [bind_ok_iff]
  constructor
  · rintro ⟨⟨len, left⟩, read, same⟩
    obtain ⟨count, word, rfl⟩ := (long_reads _ _ _).mp read
    by_cases negative : len < 0
    · simp only [if_pos negative] at same
      cases same
    · simp only [if_neg negative] at same
      obtain ⟨⟨data, left'⟩, taken, same⟩ := bind_ok_iff.mp same
      cases same
      obtain ⟨bytes, ⟨rfl, whole⟩, rfl⟩ := (take_reads len.toNat _ _ _).mp taken
      refine ⟨data, count ++ data, ⟨count, ?_, rfl⟩, (List.append_assoc _ _ _).symm⟩
      rw [whole, Int.toNat_of_nonneg (Int.not_lt.mp negative)]
      exact word
  · rintro ⟨data, bytes, ⟨count, word, rfl⟩, rfl⟩
    rw [List.append_assoc]
    refine ⟨(data.length, data ++ rest), long_reads.on_word word _, ?_⟩
    have nonneg : ¬(data.length : Int) < 0 := by omega
    simp only [if_neg nonneg]
    exact bind_ok_iff.mpr ⟨(data, rest), (take_reads _).on_word ⟨rfl, rfl⟩ rest, rfl⟩

/-! ### Blocks -/

section Sequences

variable {α : Type} {item : Bytes → Except String Bytes} {Word : α → Bytes → Prop}

theorem times_passes (passes : Passes item Word) (count : Nat) :
    Passes (times item count) fun items bytes => items.length = count ∧ Items Word items bytes := by
  induction count with
  | zero =>
      intro body rest
      constructor
      · intro same
        cases same
        exact ⟨[], [], ⟨rfl, .nil⟩, rfl⟩
      · rintro ⟨items, bytes, ⟨nothing, word⟩, rfl⟩
        cases word with
        | nil => rfl
        | cons head tail => cases nothing
  | succ count ih =>
      intro body rest
      unfold times
      rw [bind_ok_iff]
      constructor
      · rintro ⟨left, walked, later⟩
        obtain ⟨value, first, word, rfl⟩ := (passes _ _).mp walked
        obtain ⟨items, bytes, ⟨counted, others⟩, rfl⟩ := (ih _ _).mp later
        exact ⟨value :: items, first ++ bytes, ⟨congrArg Nat.succ counted, .cons word others⟩,
          (List.append_assoc _ _ _).symm⟩
      · rintro ⟨items, bytes, ⟨counted, word⟩, rfl⟩
        cases word with
        | nil => cases counted
        | cons head tail =>
            rename_i first others
            rw [List.append_assoc]
            exact ⟨_, passes.on_word head _, ih.on_word ⟨Nat.succ.inj counted, tail⟩ rest⟩

/-- A long is of 64 bits. -/
theorem long_bounds {value : Int} {bytes : Bytes} (word : Long value bytes) :
    -2 ^ 63 ≤ value ∧ value < 2 ^ 63 := by
  obtain ⟨raw, varint, rfl⟩ := word
  have fits := varint.fits
  unfold Avro.zigzag
  by_cases even : raw % 2 = 0
  · rw [if_pos even]
    omega
  · rw [if_neg even]
    omega

theorem blockCount_positive {count : Int} (positive : 0 < count) (body : Bytes) :
    blockCount count body = .ok (count.toNat, body) := by
  unfold blockCount
  rw [if_neg (by omega)]
  rfl

theorem blockCount_negative {count : Int} (negative : count < 0) {body rest : Bytes} {items : Nat} :
    blockCount count body = .ok (items, rest) ↔
      count ≠ -2 ^ 63 ∧ items = (-count).toNat ∧
        ∃ size bytes, Long size bytes ∧ body = bytes ++ rest := by
  unfold blockCount
  rw [if_pos negative, bind_ok_iff]
  constructor
  · rintro ⟨⟨size, left⟩, read, same⟩
    obtain ⟨bytes, word, split⟩ := (long_reads _ _ _).mp read
    by_cases least : count = -2 ^ 63
    · simp only [if_pos least] at same
      cases same
    · simp only [if_neg least] at same
      cases same
      exact ⟨least, rfl, size, bytes, word, split⟩
  · rintro ⟨countable, rfl, size, bytes, word, rfl⟩
    refine ⟨(size, rest), long_reads.on_word word rest, ?_⟩
    simp only [if_neg countable]
    rfl

theorem blocks_of_words (passes : Passes item Word) {items : List α} {bytes : Bytes}
    (word : Blocks Word items bytes) (rest : Bytes) {more : Nat} (enough : bytes.length < more) :
    blocks item false more (bytes ++ rest) = .ok rest := by
  induction word generalizing more with
  | stop zero =>
      cases more with
      | zero => cases enough
      | succ more =>
          unfold blocks
          exact bind_ok_iff.mpr ⟨_, long_reads.on_word zero rest, rfl⟩
  | counted some counts held later ih =>
      rename_i items _more count body _rest
      cases more with
      | zero => cases enough
      | succ more =>
          have long := counts.length_pos
          have positive : 0 < items.length := List.length_pos_iff.mpr some
          simp only [List.length_append] at enough
          unfold blocks
          rw [List.append_assoc, List.append_assoc]
          refine bind_ok_iff.mpr ⟨_, long_reads.on_word counts _, ?_⟩
          have nonzero : ¬(items.length : Int) = 0 := by omega
          simp only [if_neg nonzero, Bool.false_eq_true, if_false]
          refine bind_ok_iff.mpr ⟨_, blockCount_positive (by omega) _, ?_⟩
          refine bind_ok_iff.mpr ⟨_, (times_passes passes _).on_word ⟨?_, held⟩ _, ih (by omega)⟩
          exact (Int.toNat_natCast _).symm
  | sized some counts countable sizes held later ih =>
      rename_i items _more count size body _rest bytes
      cases more with
      | zero => cases enough
      | succ more =>
          have long := counts.length_pos
          have positive : 0 < items.length := List.length_pos_iff.mpr some
          simp only [List.length_append] at enough
          unfold blocks
          rw [List.append_assoc, List.append_assoc, List.append_assoc]
          refine bind_ok_iff.mpr ⟨_, long_reads.on_word counts _, ?_⟩
          have nonzero : ¬-(items.length : Int) = 0 := by omega
          simp only [if_neg nonzero, Bool.false_eq_true, if_false]
          have count_read : blockCount (-(items.length : Int)) (size ++ (body ++ (_rest ++ rest))) =
              .ok (items.length, body ++ (_rest ++ rest)) :=
            (blockCount_negative (by omega)).mpr ⟨by omega, by omega, bytes, size, sizes, rfl⟩
          refine bind_ok_iff.mpr ⟨_, count_read, ?_⟩
          exact bind_ok_iff.mpr
            ⟨_, (times_passes passes _).on_word ⟨rfl, held⟩ _, ih (by omega)⟩

theorem words_of_blocks (passes : Passes item Word) {more : Nat} {body rest : Bytes}
    (walked : blocks item false more body = .ok rest) :
    ∃ items bytes, Blocks Word items bytes ∧ body = bytes ++ rest := by
  induction more generalizing body with
  | zero => cases walked
  | succ more ih =>
      unfold blocks at walked
      obtain ⟨⟨count, left⟩, read, block⟩ := bind_ok_iff.mp walked
      clear walked
      obtain ⟨head, word, rfl⟩ := (long_reads _ _ _).mp read
      by_cases zero : count = 0
      · simp only [if_pos zero] at block
        cases block
        subst zero
        exact ⟨[], head, .stop word, rfl⟩
      · simp only [if_neg zero, Bool.false_eq_true, if_false] at block
        obtain ⟨⟨wanted, start⟩, counted, block_items⟩ := bind_ok_iff.mp block
        obtain ⟨after, walked, later_blocks⟩ := bind_ok_iff.mp block_items
        clear block block_items read
        obtain ⟨others, bytes, later, rfl⟩ := ih later_blocks
        obtain ⟨items, body, ⟨whole, held⟩, rfl⟩ := (times_passes passes _ _ _).mp walked
        subst whole
        by_cases negative : count < 0
        · obtain ⟨countable, same, size, sized, sizes, rfl⟩ :=
            (blockCount_negative negative).mp counted
          have bounds := long_bounds word
          have counts : count = -(items.length : Int) := by omega
          rw [counts] at word
          have some : items ≠ [] := by
            rintro rfl
            simp only [List.length_nil] at same
            omega
          refine ⟨items ++ others, head ++ (sized ++ (body ++ bytes)),
            .sized some word (by omega) sizes held later, ?_⟩
          simp only [List.append_assoc]
        · rw [blockCount_positive (by omega)] at counted
          obtain ⟨same, rfl⟩ := Prod.mk.inj (Except.ok.inj counted)
          have counts : count = (items.length : Int) := by omega
          rw [counts] at word
          have some : items ≠ [] := by
            rintro rfl
            simp only [List.length_nil] at *
            omega
          refine ⟨items ++ others, head ++ (body ++ bytes), .counted some word held later, ?_⟩
          simp only [List.append_assoc]

/-- Enough rounds for the bytes there are. -/
theorem blocks_passes (passes : Passes item Word) :
    Passes (fun body => blocks item false (body.length + 1) body) (Blocks Word) := by
  intro body rest
  constructor
  · exact words_of_blocks passes
  · rintro ⟨items, bytes, word, rfl⟩
    apply blocks_of_words passes word rest
    rw [List.length_append]
    omega

/-- Items that take no bytes need not be walked. -/
theorem blocks_skipped (nothing : ∀ buf, item buf = .ok buf) (more : Nat) (buf : Bytes) :
    blocks item true more buf = blocks item false more buf := by
  have skipped : ∀ count buf, times item count buf = .ok buf := by
    intro count
    induction count with
    | zero => exact fun _ => rfl
    | succ count ih =>
        intro buf
        unfold times
        rw [nothing buf]
        exact ih buf
  induction more generalizing buf with
  | zero => rfl
  | succ more ih =>
      unfold blocks
      cases read : long buf with
      | error error => rfl
      | ok head =>
          simp only [bind, Except.bind]
          by_cases zero : head.1 = 0
          · rw [if_pos zero, if_pos zero]
          · rw [if_neg zero, if_neg zero]
            cases counted : blockCount head.1 head.2 with
            | error error => rfl
            | ok block =>
                simp only [if_true, Bool.false_eq_true, if_false]
                rw [skipped, ih]

end Sequences

end Wire

end Ddi.Kafka.Decode
