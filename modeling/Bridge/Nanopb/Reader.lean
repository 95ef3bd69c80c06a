import Bridge.Nanopb.Stream
import Mathlib.Data.Nat.Bitwise

namespace Nanopb

open Protobuf (varint varintWithin)

/-- The bytes that are left of the buffer of a `pb_istream_t`. -/
abbrev Istream := List UInt8

def read (stream : Istream) (count : Nat) : Except String (List UInt8 × Istream) :=
  if count = 0 then .ok ([], stream)
  else if stream.length < count then .error "end-of-stream"
  else .ok (stream.take count, stream.drop count)

def decodeVarintAt : Istream → Nat → Nat → Except String (Nat × Istream)
  | [], bitpos, _ => if 64 ≤ bitpos then .error "varint overflow" else .error "end-of-stream"
  | byte :: rest, bitpos, result =>
    if 64 ≤ bitpos then .error "varint overflow"
    else
      let result := (result ||| ((byte.toNat &&& 0x7F) <<< bitpos)) % 2 ^ 64
      if byte.toNat &&& 0x80 = 0 then .ok (result, rest) else decodeVarintAt rest (bitpos + 7) result

def decodeVarint (stream : Istream) : Except String (Nat × Istream) := decodeVarintAt stream 0 0

/-- The loop of `pb_decode_varint32_eof`. The position is a number of 8 bits. -/
def decodeVarint32At : Istream → Nat → Nat → Except String (Nat × Istream)
  | [], _, _ => .error "end-of-stream"
  | byte :: rest, bitpos, result =>
    let signExtension := if bitpos < 63 then 0xFF else 0x01
    if 32 ≤ bitpos ∧ byte.toNat &&& 0x7F ≠ 0 ∧ (result >>> 31 = 0 ∨ byte.toNat ≠ signExtension) then .error "varint overflow"
    else
      let result := if 32 ≤ bitpos then result else (result ||| ((byte.toNat &&& 0x7F) <<< bitpos)) % 2 ^ 32
      let bitpos := (bitpos + 7) % 256
      if byte.toNat &&& 0x80 ≠ 0 then decodeVarint32At rest bitpos result
      else if bitpos = 35 ∧ byte.toNat &&& 0x70 ≠ 0 then .error "varint overflow"
      else .ok (result, rest)

def decodeVarint32 : Istream → Except String (Nat × Istream)
  | [] => .error "end-of-stream"
  | byte :: rest =>
    if byte.toNat &&& 0x80 = 0 then .ok (byte.toNat, rest) else decodeVarint32At rest 7 (byte.toNat &&& 0x7F)

def skipVarint : Istream → Except String Istream
  | [] => .error "end-of-stream"
  | byte :: rest => if byte.toNat &&& 0x80 = 0 then .ok rest else skipVarint rest

def skipString (stream : Istream) : Except String Istream := do
  let size ← decodeVarint32 stream
  return (← read size.2 size.1).2

def skipField (stream : Istream) (wireType : Nat) : Except String Istream :=
  match wireType with
  | 0 => skipVarint stream
  | 1 => return (← read stream 8).2
  | 2 => skipString stream
  | 5 => return (← read stream 4).2
  | _ => .error "invalid wire_type"

/-- `pb_make_string_substream`: the substream, and what is left of the stream when it is closed. -/
def makeSubstream (stream : Istream) : Except String (Istream × Istream) := do
  let size ← decodeVarint32 stream
  if size.2.length < size.1 then .error "parent stream too short"
  else return (size.2.take size.1, size.2.drop size.1)

theorem bind_done {α β : Type} {x : Except String α} {f : α → Except String β} {b : β} (done : (x >>= f) = .ok b) :
    ∃ a, x = .ok a ∧ f a = .ok b := by
  cases x with
  | error e => cases done
  | ok a => exact ⟨a, rfl, done⟩

theorem map_done {α β : Type} {x : Except String α} {f : α → β} {b : β} (done : x.map f = .ok b) :
    ∃ a, x = .ok a ∧ f a = b := by
  cases x with
  | error e => cases done
  | ok a => exact ⟨a, rfl, Except.ok.inj done⟩

section Varint

theorem or_shift {low bits : Nat} (high : Nat) (small : low < 2 ^ bits) : low ||| (high <<< bits) = low + 2 ^ bits * high := by
  rw [Nat.or_comm, ← Nat.shiftLeft_add_eq_or_of_lt small, Nat.shiftLeft_eq, Nat.mul_comm, Nat.add_comm]

theorem top_bit {n : Nat} (narrow : n < 256) : n &&& 0x80 = 0 ↔ n < 128 := by
  have bit : n &&& 0x80 = (n.testBit 7).toNat * 2 ^ 7 := Nat.and_two_pow n 7
  rw [bit, Nat.testBit_eq_decide_div_mod_eq]
  by_cases high : n / 2 ^ 7 % 2 = 1
  · rw [decide_eq_true high, Bool.toNat_true]
    omega
  · rw [decide_eq_false high, Bool.toNat_false]
    omega

theorem byte_toNat {n : Nat} (narrow : n < 256) : (UInt8.ofNat n).toNat = n := UInt8.toNat_ofNat_of_lt' narrow

theorem decodeVarintAt_last {bitpos result n : Nat} (rest : List UInt8) (start : bitpos < 64) (last : n < 128)
    (small : result < 2 ^ bitpos) (fits : 2 ^ bitpos * n + result < 2 ^ 64) :
    decodeVarintAt (UInt8.ofNat n :: rest) bitpos result = .ok (result + 2 ^ bitpos * n, rest) := by
  have stop := (top_bit (by omega : n < 256)).mpr last
  rw [decodeVarintAt, if_neg (by omega), byte_toNat (by omega), low_seven, Nat.mod_eq_of_lt last, or_shift n small,
    Nat.mod_eq_of_lt (by omega), if_pos stop]

theorem decodeVarintAt_more {bitpos result n : Nat} (rest : List UInt8) (start : bitpos < 64) (digit : n < 128)
    (small : result < 2 ^ bitpos) (fits : 2 ^ bitpos * n + result < 2 ^ 64) :
    decodeVarintAt (UInt8.ofNat (n + 128) :: rest) bitpos result = decodeVarintAt rest (bitpos + 7) (result + 2 ^ bitpos * n) := by
  have goes := mt (top_bit (by omega : n + 128 < 256)).mp (by omega)
  have low : (n + 128) % 128 = n := by omega
  rw [decodeVarintAt, if_neg (by omega), byte_toNat (by omega), low_seven, low, or_shift n small, Nat.mod_eq_of_lt (by omega),
    if_neg goes]

theorem decodeVarintAt_varint {more bitpos result n : Nat} (rest : List UInt8) (turns : bitpos + 7 * more = 63)
    (small : result < 2 ^ bitpos) (fits : 2 ^ bitpos * n + result < 2 ^ 64) :
    decodeVarintAt (varintWithin more n ++ rest) bitpos result = .ok (result + 2 ^ bitpos * n, rest) := by
  induction more generalizing bitpos result n with
  | zero =>
    obtain rfl : bitpos = 63 := by omega
    exact decodeVarintAt_last rest (by decide) (by omega) small fits
  | succ more ih =>
    by_cases last : n < 128
    · rw [varintWithin, if_pos last]
      exact decodeVarintAt_last rest (by omega) last small fits
    · have split : 2 ^ bitpos * n = 2 ^ bitpos * (n % 128) + 2 ^ (bitpos + 7) * (n / 128) := by
        rw [Nat.pow_add, Nat.mul_assoc, ← Nat.mul_add, Nat.mod_add_div]
      have digit : 2 ^ bitpos * (n % 128) ≤ 2 ^ bitpos * 127 := Nat.mul_le_mul_left _ (by omega)
      have next : 2 ^ (bitpos + 7) = 2 ^ bitpos * 128 := Nat.pow_add 2 bitpos 7
      rw [varintWithin_step last, List.cons_append, decodeVarintAt_more _ (by omega) (Nat.mod_lt _ (by decide)) small
        (by omega), ih (by omega) (by omega) (by omega), split, Nat.add_assoc]

theorem decodeVarint_varint {n : Nat} (fits : n < 2 ^ 64) (rest : List UInt8) :
    decodeVarint (varint n ++ rest) = .ok (n, rest) := by
  rw [decodeVarint, varint, decodeVarintAt_varint rest (by decide) (by decide) (by omega)]
  simp

theorem decodeVarint32At_last {bitpos result n : Nat} (rest : List UInt8) (start : bitpos < 32) (last : n < 128)
    (small : result < 2 ^ bitpos) (fits : 2 ^ bitpos * n + result < 2 ^ 32) :
    decodeVarint32At (UInt8.ofNat n :: rest) bitpos result = .ok (result + 2 ^ bitpos * n, rest) := by
  have stop := (top_bit (by omega : n < 256)).mpr last
  have whole : ¬ ((bitpos + 7) % 256 = 35 ∧ n &&& 0x70 ≠ 0) := by
    rintro ⟨position, bits⟩
    obtain rfl : bitpos = 28 := by omega
    have four : ∀ m < 16, m &&& 0x70 = 0 := by decide
    exact bits (four n (by omega))
  rw [decodeVarint32At]
  dsimp only
  rw [byte_toNat (by omega : n < 256), low_seven, Nat.mod_eq_of_lt last, if_neg (by omega),
    if_neg (not_not.mpr stop), if_neg whole, if_neg (by omega : ¬ 32 ≤ bitpos), or_shift n small,
    Nat.mod_eq_of_lt (by omega : result + 2 ^ bitpos * n < 2 ^ 32)]

theorem decodeVarint32At_more {bitpos result n : Nat} (rest : List UInt8) (start : bitpos < 32) (digit : n < 128)
    (small : result < 2 ^ bitpos) (fits : 2 ^ bitpos * n + result < 2 ^ 32) :
    decodeVarint32At (UInt8.ofNat (n + 128) :: rest) bitpos result =
      decodeVarint32At rest (bitpos + 7) (result + 2 ^ bitpos * n) := by
  have goes := mt (top_bit (by omega : n + 128 < 256)).mp (by omega)
  have low : (n + 128) % 128 = n := by omega
  rw [decodeVarint32At]
  dsimp only
  rw [byte_toNat (by omega : n + 128 < 256), low_seven, low, if_neg (by omega), if_pos goes,
    if_neg (by omega : ¬ 32 ≤ bitpos), or_shift n small, Nat.mod_eq_of_lt (by omega : result + 2 ^ bitpos * n < 2 ^ 32),
    Nat.mod_eq_of_lt (by omega : bitpos + 7 < 256)]

theorem decodeVarint32At_varint {more bitpos result n : Nat} (rest : List UInt8) (turns : bitpos + 7 * more = 63)
    (start : bitpos < 32) (small : result < 2 ^ bitpos) (fits : 2 ^ bitpos * n + result < 2 ^ 32) :
    decodeVarint32At (varintWithin more n ++ rest) bitpos result = .ok (result + 2 ^ bitpos * n, rest) := by
  induction more generalizing bitpos result n with
  | zero => omega
  | succ more ih =>
    by_cases last : n < 128
    · rw [varintWithin, if_pos last]
      exact decodeVarint32At_last rest start last small fits
    · have split : 2 ^ bitpos * n = 2 ^ bitpos * (n % 128) + 2 ^ (bitpos + 7) * (n / 128) := by
        rw [Nat.pow_add, Nat.mul_assoc, ← Nat.mul_add, Nat.mod_add_div]
      have digit : 2 ^ bitpos * (n % 128) ≤ 2 ^ bitpos * 127 := Nat.mul_le_mul_left _ (by omega)
      have next : 2 ^ (bitpos + 7) = 2 ^ bitpos * 128 := Nat.pow_add 2 bitpos 7
      have some : 2 ^ (bitpos + 7) * 1 ≤ 2 ^ (bitpos + 7) * (n / 128) := Nat.mul_le_mul_left _ (by omega)
      have start' : bitpos + 7 < 32 := (Nat.pow_lt_pow_iff_right (by decide : 1 < 2)).mp (by omega)
      rw [varintWithin_step last, List.cons_append, decodeVarint32At_more _ start (Nat.mod_lt _ (by decide)) small
        (by omega), ih (by omega) start' (by omega) (by omega), split, Nat.add_assoc]

theorem decodeVarint32_varint {n : Nat} (fits : n < 2 ^ 32) (rest : List UInt8) :
    decodeVarint32 (varint n ++ rest) = .ok (n, rest) := by
  rw [varint]
  by_cases last : n < 128
  · have stop := (top_bit (by omega : n < 256)).mpr last
    rw [varintWithin, if_pos last, List.singleton_append, decodeVarint32, byte_toNat (by omega), if_pos stop]
  · have goes := mt (top_bit (by omega : n % 128 + 128 < 256)).mp (by omega)
    have low : (n % 128 + 128) % 128 = n % 128 := by omega
    rw [varintWithin_step last, List.cons_append, decodeVarint32, byte_toNat (by omega), if_neg goes, low_seven, low,
      decodeVarint32At_varint rest (by decide) (by decide) (by omega) (by omega)]
    simp only [Except.ok.injEq, Prod.mk.injEq, and_true]
    omega

end Varint

section Consumed

variable {stream : Istream}

theorem decodeVarintAt_consumes {bitpos result : Nat} {value : Nat × Istream}
    (done : decodeVarintAt stream bitpos result = .ok value) : value.2.length < stream.length := by
  induction stream generalizing bitpos result with
  | nil => rw [decodeVarintAt] at done; split at done <;> cases done
  | cons byte rest ih =>
    rw [decodeVarintAt] at done
    dsimp only at done
    split at done
    · cases done
    · split at done
      · cases done
        exact Nat.lt_succ_self _
      · exact Nat.lt_succ_of_lt (ih done)

theorem decodeVarint32At_consumes {bitpos result : Nat} {value : Nat × Istream}
    (done : decodeVarint32At stream bitpos result = .ok value) : value.2.length < stream.length := by
  induction stream generalizing bitpos result with
  | nil => cases done
  | cons byte rest ih =>
    rw [decodeVarint32At] at done
    dsimp only at done
    generalize (if bitpos < 63 then 0xFF else 0x01) = signExtension at done
    split at done
    · cases done
    · split at done
      · exact Nat.lt_succ_of_lt (ih done)
      · split at done
        · cases done
        · cases done
          exact Nat.lt_succ_self _

theorem decodeVarint32_consumes {value : Nat × Istream} (done : decodeVarint32 stream = .ok value) :
    value.2.length < stream.length := by
  cases stream with
  | nil => cases done
  | cons byte rest =>
    rw [decodeVarint32] at done
    split at done
    · cases done
      exact Nat.lt_succ_self _
    · exact Nat.lt_succ_of_lt (decodeVarint32At_consumes done)

theorem skipVarint_consumes {rest : Istream} (done : skipVarint stream = .ok rest) : rest.length ≤ stream.length := by
  induction stream with
  | nil => cases done
  | cons byte stream ih =>
    rw [skipVarint] at done
    split at done
    · cases done
      exact Nat.le_succ _
    · exact Nat.le_succ_of_le (ih done)

theorem read_consumes {count : Nat} {result : List UInt8 × Istream} (done : read stream count = .ok result) :
    result.1.length = count ∧ result.2.length ≤ stream.length := by
  rw [read] at done
  split at done
  · rename_i none
    cases done
    exact ⟨none.symm, Nat.le_refl _⟩
  · split at done
    · cases done
    · cases done
      rw [List.length_take, List.length_drop]
      omega

theorem skipField_consumes {wireType : Nat} {rest : Istream} (done : skipField stream wireType = .ok rest) :
    rest.length ≤ stream.length := by
  unfold skipField at done
  split at done
  · exact skipVarint_consumes done
  · obtain ⟨result, taken, done⟩ := bind_done done
    cases done
    exact (read_consumes taken).2
  · obtain ⟨size, read, done⟩ := bind_done done
    obtain ⟨result, taken, done⟩ := bind_done done
    cases done
    exact Nat.le_trans (read_consumes taken).2 (Nat.le_of_lt (decodeVarint32_consumes read))
  · obtain ⟨result, taken, done⟩ := bind_done done
    cases done
    exact (read_consumes taken).2
  · cases done

theorem makeSubstream_consumes {streams : Istream × Istream} (done : makeSubstream stream = .ok streams) :
    streams.1.length ≤ stream.length ∧ streams.2.length ≤ stream.length := by
  obtain ⟨size, read, done⟩ := bind_done done
  have less := decodeVarint32_consumes read
  split at done
  · cases done
  · cases done
    rw [List.length_take, List.length_drop]
    omega

end Consumed

end Nanopb
