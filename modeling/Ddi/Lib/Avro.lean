/-
The Avro binary encoding: the values a type has, and the byte strings that encode
them. A value has many encodings, as a number may be written in more groups than it
needs and the items of an array in any division into blocks; `encode` is the one
written by default.
-/

import Mathlib.Algebra.Group.Int.Defs
import Mathlib.Algebra.Group.Nat.Defs
import Mathlib.Data.List.Basic

namespace Avro

abbrev Bytes := List UInt8

/-- A type, with the definition of a named type in place of its name. -/
inductive Ty
  | null
  | boolean
  | int
  | long
  | float
  | double
  /-- Bytes and strings, which are written alike. -/
  | bytes
  | fixed (size : Nat)
  | enum
  | array (item : Ty)
  | map (value : Ty)
  | union (branches : List Ty)
  | record (fields : List Ty)

inductive Value
  | null
  | boolean (value : Bool)
  | int (value : Int)
  | long (value : Int)
  | float (bits : Bytes)
  | double (bits : Bytes)
  | bytes (data : Bytes)
  | fixed (data : Bytes)
  | enum (index : Int)
  | array (items : List Value)
  | map (entries : List (Bytes × Value))
  | union (branch : Nat) (value : Value)
  | record (values : List Value)

/-! ### Numbers -/

/-- A number in groups of seven bits, the lowest first, with the high bit set in every byte but
the last. -/
inductive Groups : Nat → Bytes → Prop
  | last {byte : UInt8} (final : byte.toNat < 128) : Groups byte.toNat [byte]
  | more {byte : UInt8} {value : Nat} {bytes : Bytes} (continued : 128 ≤ byte.toNat)
      (rest : Groups value bytes) : Groups (byte.toNat - 128 + 128 * value) (byte :: bytes)

/-- A number of 64 bits in at most ten groups, so that the tenth byte is below 2. -/
structure Varint (value : Nat) (bytes : Bytes) : Prop where
  groups : Groups value bytes
  short : bytes.length ≤ 10
  fits : value < 2 ^ 64

/-- The integer a number stands for, the sign in its lowest bit. -/
def zigzag (raw : Nat) : Int := if raw % 2 = 0 then raw / 2 else -(raw / 2) - 1

/-- The number that stands for an integer. -/
def unzigzag (value : Int) : Nat :=
  if 0 ≤ value then 2 * value.toNat else 2 * (-value - 1).toNat + 1

def Long (value : Int) (bytes : Bytes) : Prop := ∃ raw, Varint raw bytes ∧ zigzag raw = value

/-- An integer of 32 bits. -/
def Short (value : Int) (bytes : Bytes) : Prop :=
  ∃ raw, Varint raw bytes ∧ raw < 2 ^ 32 ∧ zigzag raw = value

theorem zigzag_unzigzag (value : Int) : zigzag (unzigzag value) = value := by
  unfold zigzag unzigzag
  by_cases sign : 0 ≤ value
  · rw [if_pos sign]
    rw [if_pos (by omega)]
    omega
  · rw [if_neg sign]
    rw [if_neg (by omega)]
    omega

theorem zigzag_zero {raw : Nat} (zero : zigzag raw = 0) : raw = 0 := by
  unfold zigzag at zero
  by_cases even : raw % 2 = 0
  · rw [if_pos even] at zero
    omega
  · rw [if_neg even] at zero
    omega

theorem Groups.length_pos {value : Nat} {bytes : Bytes} (groups : Groups value bytes) :
    0 < bytes.length := by
  cases groups <;> exact Nat.succ_pos _

theorem Long.length_pos {value : Int} {bytes : Bytes} (long : Long value bytes) :
    0 < bytes.length := by
  obtain ⟨raw, varint, _same⟩ := long
  exact varint.groups.length_pos

/-! ### Sequences of items -/

section Sequences

variable {α : Type} (Encodes : α → Bytes → Prop)

/-- The encodings of several items, one after the other. -/
inductive Items : List α → Bytes → Prop
  | nil : Items [] []
  | cons {item : α} {items : List α} {first rest : Bytes} (head : Encodes item first)
      (tail : Items items rest) : Items (item :: items) (first ++ rest)

/-- Items in blocks, each headed by how many there are, up to a block of none. A count below
zero is followed by the block's size in bytes. A count has to be a long with either sign. -/
inductive Blocks : List α → Bytes → Prop
  | stop {count : Bytes} (zero : Long 0 count) : Blocks [] count
  | counted {items more : List α} {count body rest : Bytes} (some : items ≠ [])
      (counts : Long items.length count) (held : Items Encodes items body)
      (later : Blocks more rest) : Blocks (items ++ more) (count ++ (body ++ rest))
  | sized {items more : List α} {count size body rest : Bytes} {bytes : Int} (some : items ≠ [])
      (counts : Long (-items.length) count) (countable : items.length < 2 ^ 63)
      (sizes : Long bytes size) (held : Items Encodes items body) (later : Blocks more rest) :
      Blocks (items ++ more) (count ++ (size ++ (body ++ rest)))

/-- A map's key, and the value under it. -/
def Entry (entry : Bytes × α) (bytes : Bytes) : Prop :=
  ∃ count body, Long entry.1.length count ∧ Encodes entry.2 body ∧
    bytes = count ++ (entry.1 ++ body)

end Sequences

/-! ### Values -/

mutual

/-- A byte string encodes a value of the type. -/
def Ty.Encodes : Ty → Value → Bytes → Prop
  | .null, value, bytes => value = .null ∧ bytes = []
  | .boolean, value, bytes => ∃ truth, value = .boolean truth ∧ bytes = [if truth then 1 else 0]
  | .int, value, bytes => ∃ number, value = .int number ∧ Short number bytes
  | .long, value, bytes => ∃ number, value = .long number ∧ Long number bytes
  | .float, value, bytes => value = .float bytes ∧ bytes.length = 4
  | .double, value, bytes => value = .double bytes ∧ bytes.length = 8
  | .bytes, value, bytes =>
      ∃ data count, value = .bytes data ∧ Long data.length count ∧ bytes = count ++ data
  | .fixed size, value, bytes => value = .fixed bytes ∧ bytes.length = size
  | .enum, value, bytes => ∃ index, value = .enum index ∧ Short index bytes
  | .array item, value, bytes => ∃ items, value = .array items ∧ Blocks item.Encodes items bytes
  | .map held, value, bytes =>
      ∃ entries, value = .map entries ∧ Blocks (Entry held.Encodes) entries bytes
  | .union branches, value, bytes =>
      ∃ branch held index body, value = .union branch held ∧ Long branch index ∧
        EncodesNth branches branch held body ∧ bytes = index ++ body
  | .record fields, value, bytes => ∃ values, value = .record values ∧ EncodesAll fields values bytes

/-- A value of the branch at this index. -/
def EncodesNth : List Ty → Nat → Value → Bytes → Prop
  | [], _, _, _ => False
  | branch :: _, 0, value, bytes => branch.Encodes value bytes
  | _ :: branches, index + 1, value, bytes => EncodesNth branches index value bytes

/-- A value of each field, in order. -/
def EncodesAll : List Ty → List Value → Bytes → Prop
  | [], values, bytes => values = [] ∧ bytes = []
  | field :: fields, values, bytes =>
      ∃ value others first rest, values = value :: others ∧ field.Encodes value first ∧
        EncodesAll fields others rest ∧ bytes = first ++ rest

end

theorem encodesNth_iff (branches : List Ty) (index : Nat) (value : Value) (bytes : Bytes) :
    EncodesNth branches index value bytes ↔
      ∃ branch, branches[index]? = some branch ∧ branch.Encodes value bytes := by
  induction branches generalizing index with
  | nil => simp [EncodesNth]
  | cons head branches ih =>
      cases index with
      | zero => simp [EncodesNth]
      | succ index =>
          rw [List.getElem?_cons_succ, ← ih]
          rfl

/-! ### The encoding written by default -/

/-- The groups of a number, at most `more` of them besides the last. -/
def groupsOf : Nat → Nat → Bytes
  | 0, value => [UInt8.ofNat value]
  | more + 1, value =>
      if value < 128 then [UInt8.ofNat value]
      else UInt8.ofNat (value % 128 + 128) :: groupsOf more (value / 128)

def encodeLong (value : Int) : Bytes := groupsOf 9 (unzigzag value)

/-- The integer's number has at most this many bits. -/
def fitsIn (bits : Nat) (value : Int) : Bool := decide (unzigzag value < 2 ^ bits)

/-- Items in a single block. -/
def encodeBlocks (items : List Bytes) : Bytes :=
  if items.isEmpty then encodeLong 0
  else encodeLong items.length ++ (items.flatten ++ encodeLong 0)

def encodeBytes (data : Bytes) : Option Bytes :=
  if fitsIn 64 data.length then some (encodeLong data.length ++ data) else none

/-- A key, and the encoding of the value under it. -/
def encodeEntry (encode : Value → Option Bytes) (entry : Bytes × Value) : Option Bytes :=
  match encodeBytes entry.1, encode entry.2 with
  | some key, some body => some (key ++ body)
  | _, _ => none

mutual

/-- The encoding of a value, when it is one of the type's. -/
def Ty.encode : Ty → Value → Option Bytes
  | .null, .null => some []
  | .boolean, .boolean truth => some [if truth then 1 else 0]
  | .int, .int number => if fitsIn 32 number then some (encodeLong number) else none
  | .long, .long number => if fitsIn 64 number then some (encodeLong number) else none
  | .float, .float bits => if bits.length = 4 then some bits else none
  | .double, .double bits => if bits.length = 8 then some bits else none
  | .bytes, .bytes data => encodeBytes data
  | .fixed size, .fixed data => if data.length = size then some data else none
  | .enum, .enum index => if fitsIn 32 index then some (encodeLong index) else none
  | .array item, .array items =>
      if fitsIn 64 items.length then
        match items.mapM item.encode with
        | some encoded => some (encodeBlocks encoded)
        | none => none
      else none
  | .map value, .map entries =>
      if fitsIn 64 entries.length then
        match entries.mapM (encodeEntry value.encode) with
        | some encoded => some (encodeBlocks encoded)
        | none => none
      else none
  | .union branches, .union branch held =>
      if fitsIn 64 branch then
        match encodeNth branches branch held with
        | some body => some (encodeLong branch ++ body)
        | none => none
      else none
  | .record fields, .record values => encodeAll fields values
  | _, _ => none
  termination_by structural ty => ty

def encodeNth : List Ty → Nat → Value → Option Bytes
  | [], _, _ => none
  | branch :: _, 0, value => branch.encode value
  | _ :: branches, index + 1, value => encodeNth branches index value
  termination_by structural branches => branches

def encodeAll : List Ty → List Value → Option Bytes
  | [], [] => some []
  | field :: fields, value :: values =>
      match field.encode value, encodeAll fields values with
      | some first, some rest => some (first ++ rest)
      | _, _ => none
  | _, _ => none
  termination_by structural fields => fields

end

theorem groupsOf_groups {more value : Nat} (small : value < 128 ^ (more + 1)) :
    Groups value (groupsOf more value) ∧ (groupsOf more value).length ≤ more + 1 := by
  induction more generalizing value with
  | zero =>
      have byte : (UInt8.ofNat value).toNat = value := by
        rw [UInt8.toNat_ofNat']
        omega
      have groups : Groups (UInt8.ofNat value).toNat [UInt8.ofNat value] := .last (by omega)
      rw [byte] at groups
      exact ⟨groups, Nat.le_refl _⟩
  | succ more ih =>
      unfold groupsOf
      by_cases final : value < 128
      · rw [if_pos final]
        have byte : (UInt8.ofNat value).toNat = value := by
          rw [UInt8.toNat_ofNat']
          omega
        have groups : Groups (UInt8.ofNat value).toNat [UInt8.ofNat value] := .last (by omega)
        rw [byte] at groups
        exact ⟨groups, Nat.succ_le_succ (Nat.zero_le _)⟩
      · rw [if_neg final]
        have byte : (UInt8.ofNat (value % 128 + 128)).toNat = value % 128 + 128 := by
          rw [UInt8.toNat_ofNat']
          omega
        have fewer : value / 128 < 128 ^ (more + 1) := by
          rw [Nat.div_lt_iff_lt_mul (by omega)]
          exact small
        obtain ⟨rest, short⟩ := ih fewer
        have continued : 128 ≤ (UInt8.ofNat (value % 128 + 128)).toNat := by omega
        have groups := Groups.more continued rest
        have whole : value % 128 + 128 - 128 + 128 * (value / 128) = value := by omega
        rw [byte, whole] at groups
        exact ⟨groups, Nat.succ_le_succ short⟩

theorem encodeLong_varint {value : Int} {bits : Nat} (fits : fitsIn bits value = true)
    (word : bits ≤ 64) :
    Varint (unzigzag value) (encodeLong value) ∧ unzigzag value < 2 ^ bits := by
  have small := of_decide_eq_true fits
  have below : unzigzag value < 2 ^ 64 :=
    Nat.lt_of_lt_of_le small (Nat.pow_le_pow_right (by omega) word)
  have ten_groups : unzigzag value < 128 ^ (9 + 1) := by omega
  obtain ⟨groups, short⟩ := groupsOf_groups ten_groups
  exact ⟨⟨groups, short, below⟩, small⟩

theorem encodeLong_long {value : Int} (fits : fitsIn 64 value = true) :
    Long value (encodeLong value) :=
  ⟨_, (encodeLong_varint fits (Nat.le_refl 64)).1, zigzag_unzigzag value⟩

theorem encodeLong_short {value : Int} (fits : fitsIn 32 value = true) :
    Short value (encodeLong value) := by
  obtain ⟨varint, small⟩ := encodeLong_varint fits (by omega)
  exact ⟨_, varint, small, zigzag_unzigzag value⟩

section Sequences

variable {α : Type} {Encodes : α → Bytes → Prop} {encode : α → Option Bytes}

theorem mapM_items (right : ∀ item bytes, encode item = some bytes → Encodes item bytes)
    {items : List α} {encoded : List Bytes} (done : items.mapM encode = some encoded) :
    Items Encodes items encoded.flatten ∧ encoded.length = items.length := by
  induction items generalizing encoded with
  | nil =>
      cases done
      exact ⟨.nil, rfl⟩
  | cons item items ih =>
      rw [List.mapM_cons] at done
      cases first : encode item with
      | none =>
          rw [first] at done
          cases done
      | some head =>
          rw [first] at done
          cases others : items.mapM encode with
          | none =>
              rw [others] at done
              cases done
          | some tail =>
              rw [others] at done
              cases done
              obtain ⟨held, counted⟩ := ih others
              exact ⟨.cons (right item head first) held, congrArg Nat.succ counted⟩

theorem encodeBlocks_blocks (right : ∀ item bytes, encode item = some bytes → Encodes item bytes)
    {items : List α} {encoded : List Bytes} (done : items.mapM encode = some encoded)
    (fits : fitsIn 64 items.length = true) : Blocks Encodes items (encodeBlocks encoded) := by
  obtain ⟨held, counted⟩ := mapM_items right done
  have stop : Blocks Encodes ([] : List α) (encodeLong 0) :=
    .stop (encodeLong_long (by decide))
  unfold encodeBlocks
  cases items with
  | nil =>
      have nothing : encoded = [] := List.length_eq_zero_iff.mp counted
      rw [nothing]
      exact stop
  | cons item items =>
      have some : encoded.isEmpty = false := by
        cases encoded with
        | nil => cases counted
        | cons head tail => rfl
      rw [some, counted]
      have whole := Blocks.counted (List.cons_ne_nil item items) (encodeLong_long fits) held stop
      rw [List.append_nil] at whole
      exact whole

theorem encodeBytes_long {data bytes : Bytes} (done : encodeBytes data = some bytes) :
    ∃ count, Long data.length count ∧ bytes = count ++ data := by
  unfold encodeBytes at done
  by_cases fits : fitsIn 64 data.length
  · rw [if_pos fits] at done
    cases done
    exact ⟨_, encodeLong_long fits, rfl⟩
  · rw [if_neg fits] at done
    cases done

theorem encodeEntry_entry {held : Value → Option Bytes} {Held : Value → Bytes → Prop}
    (right : ∀ value bytes, held value = some bytes → Held value bytes)
    (entry : Bytes × Value) (bytes : Bytes) (done : encodeEntry held entry = some bytes) :
    Entry Held entry bytes := by
  unfold encodeEntry at done
  cases key : encodeBytes entry.1 with
  | none =>
      rw [key] at done
      cases done
  | some first =>
      cases value : held entry.2 with
      | none =>
          rw [key, value] at done
          cases done
      | some body =>
          rw [key, value] at done
          cases done
          obtain ⟨count, counts, rfl⟩ := encodeBytes_long key
          refine ⟨count, body, counts, right _ _ value, ?_⟩
          exact List.append_assoc _ _ _

end Sequences

/-- A condition under which an encoding is given. -/
private theorem of_guard {fits : Bool} {given : Bytes} {bytes : Bytes}
    (done : (if fits then some given else none) = some bytes) : fits = true ∧ given = bytes := by
  by_cases holds : fits
  · rw [if_pos holds] at done
    exact ⟨holds, Option.some.inj done⟩
  · rw [if_neg holds] at done
    cases done

mutual

/-- What is written by default is an encoding. -/
theorem Ty.encode_encodes (ty : Ty) (value : Value) (bytes : Bytes)
    (done : ty.encode value = some bytes) : ty.Encodes value bytes := by
  cases ty with
  | null =>
      cases value <;> cases done
      exact ⟨rfl, rfl⟩
  | boolean =>
      cases value <;> cases done
      exact ⟨_, rfl, rfl⟩
  | int =>
      cases value <;> first | cases done | skip
      obtain ⟨fits, rfl⟩ := of_guard done
      exact ⟨_, rfl, encodeLong_short fits⟩
  | long =>
      cases value <;> first | cases done | skip
      obtain ⟨fits, rfl⟩ := of_guard done
      exact ⟨_, rfl, encodeLong_long fits⟩
  | float =>
      cases value <;> first | cases done | skip
      rename_i bits
      by_cases whole : bits.length = 4
      · simp only [Ty.encode, if_pos whole] at done
        cases done
        exact ⟨rfl, whole⟩
      · simp only [Ty.encode, if_neg whole] at done
        cases done
  | double =>
      cases value <;> first | cases done | skip
      rename_i bits
      by_cases whole : bits.length = 8
      · simp only [Ty.encode, if_pos whole] at done
        cases done
        exact ⟨rfl, whole⟩
      · simp only [Ty.encode, if_neg whole] at done
        cases done
  | bytes =>
      cases value <;> first | cases done | skip
      obtain ⟨count, counts, rfl⟩ := encodeBytes_long done
      exact ⟨_, count, rfl, counts, rfl⟩
  | fixed size =>
      cases value <;> first | cases done | skip
      rename_i data
      by_cases whole : data.length = size
      · simp only [Ty.encode, if_pos whole] at done
        cases done
        exact ⟨rfl, whole⟩
      · simp only [Ty.encode, if_neg whole] at done
        cases done
  | enum =>
      cases value <;> first | cases done | skip
      obtain ⟨fits, rfl⟩ := of_guard done
      exact ⟨_, rfl, encodeLong_short fits⟩
  | array item =>
      cases value <;> first | cases done | skip
      rename_i items
      unfold Ty.encode at done
      by_cases fits : fitsIn 64 items.length
      · rw [if_pos fits] at done
        cases each : items.mapM item.encode with
        | none =>
            rw [each] at done
            cases done
        | some encoded =>
            rw [each] at done
            cases done
            exact ⟨items, rfl, encodeBlocks_blocks item.encode_encodes each fits⟩
      · rw [if_neg fits] at done
        cases done
  | map held =>
      cases value <;> first | cases done | skip
      rename_i entries
      unfold Ty.encode at done
      by_cases fits : fitsIn 64 entries.length
      · rw [if_pos fits] at done
        cases each : entries.mapM (encodeEntry held.encode) with
        | none =>
            rw [each] at done
            cases done
        | some encoded =>
            rw [each] at done
            cases done
            exact ⟨entries, rfl,
              encodeBlocks_blocks (encodeEntry_entry held.encode_encodes) each fits⟩
      · rw [if_neg fits] at done
        cases done
  | union branches =>
      cases value <;> first | cases done | skip
      rename_i branch held
      unfold Ty.encode at done
      by_cases fits : fitsIn 64 branch
      · rw [if_pos fits] at done
        cases body : encodeNth branches branch held with
        | none =>
            rw [body] at done
            cases done
        | some bytes =>
            rw [body] at done
            cases done
            exact ⟨branch, held, _, bytes, rfl, encodeLong_long fits,
              encodeNth_encodes branches branch held bytes body, rfl⟩
      · rw [if_neg fits] at done
        cases done
  | record fields =>
      cases value <;> first | cases done | skip
      exact ⟨_, rfl, encodeAll_encodes fields _ bytes done⟩
  termination_by structural ty

theorem encodeNth_encodes (branches : List Ty) (index : Nat) (value : Value) (bytes : Bytes)
    (done : encodeNth branches index value = some bytes) :
    EncodesNth branches index value bytes := by
  cases branches with
  | nil => cases done
  | cons branch branches =>
      cases index with
      | zero => exact branch.encode_encodes value bytes done
      | succ index => exact encodeNth_encodes branches index value bytes done
  termination_by structural branches

theorem encodeAll_encodes (fields : List Ty) (values : List Value) (bytes : Bytes)
    (done : encodeAll fields values = some bytes) : EncodesAll fields values bytes := by
  cases fields with
  | nil =>
      cases values <;> cases done
      exact ⟨rfl, rfl⟩
  | cons field fields =>
      cases values with
      | nil => cases done
      | cons value values =>
          unfold encodeAll at done
          cases head : field.encode value with
          | none =>
              rw [head] at done
              cases done
          | some first =>
              cases tail : encodeAll fields values with
              | none =>
                  rw [head, tail] at done
                  cases done
              | some rest =>
                  rw [head, tail] at done
                  cases done
                  exact ⟨value, values, first, rest, rfl, field.encode_encodes value first head,
                    encodeAll_encodes fields values rest tail, rfl⟩
  termination_by structural fields

end

end Avro
