import Bridge.Library.CString
import Bridge.Library.Protobuf
import Mathlib.Tactic.Ring

namespace Nanopb

open Protobuf (Field Value varint varintWithin)

structure Ostream where
  written : Option (List UInt8)
  maxSize : Nat
  bytesWritten : Nat
deriving DecidableEq, Repr

def ostreamSizing : Ostream := ⟨none, 0, 0⟩

def ostreamFromBuffer (bufsize : Nat) : Ostream := ⟨some [], bufsize, 0⟩

def write (stream : Ostream) (buf : List UInt8) (count : Nat) : Except String Ostream :=
  match stream.written with
  | none => .ok { stream with bytesWritten := stream.bytesWritten + count }
  | some written =>
    if 0 < count ∧ stream.maxSize < stream.bytesWritten + count then .error "stream full"
    else .ok { stream with written := some (written ++ buf.take count), bytesWritten := stream.bytesWritten + count }

def varintHigh (byte high : Nat) : List UInt8 :=
  if high = 0 then [UInt8.ofNat byte] else UInt8.ofNat (byte ||| 0x80) :: varintHigh (high &&& 0x7F) (high >>> 7)
termination_by high
decreasing_by
  rw [Nat.shiftRight_eq_div_pow]
  omega

def varintJoin (byte high : Nat) : List UInt8 :=
  if high = 0 then [UInt8.ofNat byte] else varintHigh (byte ||| ((high &&& 0x07) <<< 4)) (high >>> 3)

def varintLow (high : Nat) : Nat → Nat → Nat → List UInt8
  | 0, byte, _ => varintJoin byte high
  | more + 1, byte, low =>
    if low ≠ 0 ∨ high ≠ 0 then UInt8.ofNat (byte ||| 0x80) :: varintLow high more (low &&& 0x7F) (low >>> 7)
    else varintJoin byte high

def encodeVarint32 (stream : Ostream) (low high : Nat) : Except String Ostream :=
  let buffer := varintLow high 4 (low &&& 0x7F) (low >>> 7)
  write stream buffer buffer.length

def encodeVarint (stream : Ostream) (value : Nat) : Except String Ostream :=
  if value ≤ 0x7F then write stream [UInt8.ofNat value] 1
  else encodeVarint32 stream (value % 2 ^ 32) ((value >>> 32) % 2 ^ 32)

def wtVarint : Nat := 0

def wtString : Nat := 2

def encodeTag (stream : Ostream) (wiretype : Nat) (fieldNumber : UInt32) : Except String Ostream :=
  encodeVarint stream ((fieldNumber.toNat <<< 3) ||| wiretype)

def encodeString (stream : Ostream) (buffer : List UInt8) (size : Nat) : Except String Ostream := do
  write (← encodeVarint stream size) buffer size

/-- The loop of `pb_enc_string` and the look at the byte that it stops at. -/
def stringSize : Nat → List UInt8 → Option Nat
  | 0, p => if p.head? = some 0 then some 0 else none
  | _ + 1, [] => none
  | more + 1, byte :: p => if byte = 0 then some 0 else (stringSize more p).map (· + 1)

def encString (stream : Ostream) (array : List UInt8) : Except String Ostream :=
  if array.length = 0 then .error "zero-length string"
  else match stringSize (array.length - 1) array with
    | none => .error "unterminated string"
    | some size => encodeString stream array size

def encBytes (stream : Ostream) (size : Nat) (bytes : List UInt8) : Except String Ostream :=
  if bytes.length < size then .error "bytes size exceeded" else encodeString stream bytes size

/-- `pb_encode_submessage`: the message is encoded twice, first to count its bytes. -/
def encodeSubmessage (encode : Ostream → Except String Ostream) (stream : Ostream) : Except String Ostream := do
  let size := (← encode ostreamSizing).bytesWritten
  let stream ← encodeVarint stream size
  if stream.written.isNone then write stream [] size
  else if stream.maxSize < stream.bytesWritten + size then .error "stream full"
  else
    let substream ← encode { stream with maxSize := size, bytesWritten := 0 }
    if substream.bytesWritten ≠ size then .error "submsg size changed"
    else .ok { stream with written := substream.written, bytesWritten := stream.bytesWritten + substream.bytesWritten }

section Varint

theorem or_top {byte : Nat} (small : byte < 128) : byte ||| 0x80 = byte + 128 := by
  have parts := Nat.two_pow_add_eq_or_of_lt (i := 7) small 1
  rw [Nat.or_comm, ← parts, Nat.add_comm]

theorem low_seven (n : Nat) : n &&& 0x7F = n % 128 := Nat.and_two_pow_sub_one_eq_mod n 7

theorem shift_seven (n : Nat) : n >>> 7 = n / 128 := Nat.shiftRight_eq_div_pow n 7

theorem varintWithin_step {more n : Nat} (large : ¬ n < 128) :
    varintWithin (more + 1) n = UInt8.ofNat (n % 128 + 128) :: varintWithin more (n / 128) := by
  rw [varintWithin, if_neg large]

theorem varintHigh_eq {more byte high : Nat} (small : byte < 128) (fits : high < 128 ^ more) :
    varintHigh byte high = varintWithin more (byte + 128 * high) := by
  induction more generalizing byte high with
  | zero =>
    have none : high = 0 := by omega
    rw [varintHigh, if_pos none, varintWithin, none, Nat.mul_zero, Nat.add_zero]
  | succ more ih =>
    rw [varintHigh]
    by_cases none : high = 0
    · have value : byte + 128 * high = byte := by omega
      rw [if_pos none, value, varintWithin, if_pos small]
    · have rest : (byte + 128 * high) / 128 = high % 128 + 128 * (high / 128) := by omega
      have first : (byte + 128 * high) % 128 = byte := by omega
      have less : high / 128 < 128 ^ more := by
        rw [Nat.div_lt_iff_lt_mul (by decide), ← Nat.pow_succ]
        exact fits
      rw [if_neg none, varintWithin_step (by omega), or_top small, low_seven, shift_seven,
        ih (Nat.mod_lt _ (by decide)) less, first, rest]

theorem varintJoin_eq {byte high : Nat} (small : byte < 16) (fits : high < 2 ^ 32) :
    varintJoin byte high = varintWithin 5 (byte + 16 * high) := by
  rw [varintJoin]
  by_cases none : high = 0
  · have value : byte + 16 * high = byte := by omega
    rw [if_pos none, value, varintWithin, if_pos (by omega)]
  · have three : high &&& 0x07 = high % 8 := Nat.and_two_pow_sub_one_eq_mod high 3
    have joined : byte ||| ((high % 8) <<< 4) = byte + 16 * (high % 8) := by
      rw [Nat.or_comm, ← Nat.shiftLeft_add_eq_or_of_lt (i := 4) small, Nat.shiftLeft_eq]
      omega
    have eight : high >>> 3 = high / 8 := Nat.shiftRight_eq_div_pow high 3
    have value : byte + 16 * (high % 8) + 128 * (high / 8) = byte + 16 * high := by omega
    rw [if_neg none, three, joined, eight, @varintHigh_eq 5 _ _ (by omega) (by omega), value]

theorem varintLow_eq {more byte low high : Nat} (small : byte < 128) (fits : byte + 128 * low < 16 * 128 ^ more)
    (highFits : high < 2 ^ 32) :
    varintLow high more byte low = varintWithin (more + 5) (byte + 128 * low + 16 * 128 ^ more * high) := by
  induction more generalizing byte low with
  | zero =>
    have none : low = 0 := by omega
    rw [varintLow, varintJoin_eq (by omega) highFits, none]
    rfl
  | succ more ih =>
    have unit : 16 * 128 ^ (more + 1) * high = 128 * (16 * 128 ^ more * high) := by ring
    rw [varintLow, unit]
    rw [Nat.pow_succ] at fits
    have positive : 0 < 128 ^ more := Nat.pow_pos (by decide)
    split
    · rename_i some
      have large : ¬ byte + 128 * low + 128 * (16 * 128 ^ more * high) < 128 := by
        rcases some with some | some
        · omega
        · have : 0 < 16 * 128 ^ more * high := Nat.mul_pos (Nat.mul_pos (by decide) positive) (Nat.pos_of_ne_zero some)
          omega
      have first : (byte + 128 * low + 128 * (16 * 128 ^ more * high)) % 128 = byte := by omega
      have rest : (byte + 128 * low + 128 * (16 * 128 ^ more * high)) / 128 =
          low % 128 + 128 * (low / 128) + 16 * 128 ^ more * high := by omega
      rw [or_top small, low_seven, shift_seven, ih (Nat.mod_lt _ (by decide)) (by omega), Nat.add_right_comm more 1 5,
        varintWithin_step large, first, rest]
    · rename_i none
      rw [not_or, not_not, not_not] at none
      rw [varintJoin, if_pos none.2, none.1, none.2, Nat.add_right_comm more 1 5, varintWithin]
      simp [small]

theorem encodeVarint_eq (stream : Ostream) {value : Nat} (fits : value < 2 ^ 64) :
    encodeVarint stream value = write stream (varint value) (varint value).length := by
  rw [encodeVarint]
  split
  · rename_i short
    rw [varint, varintWithin, if_pos (by omega)]
    rfl
  · have high : value >>> 32 = value / 2 ^ 32 := Nat.shiftRight_eq_div_pow value 32
    have whole : value % 2 ^ 32 % 128 + 128 * (value % 2 ^ 32 / 128) + 16 * 128 ^ 4 * (value / 2 ^ 32 % 2 ^ 32) = value := by
      omega
    have buffer := @varintLow_eq 4 (value % 2 ^ 32 % 128) (value % 2 ^ 32 / 128) (value / 2 ^ 32 % 2 ^ 32)
      (Nat.mod_lt _ (by decide)) (by omega) (Nat.mod_lt _ (by decide))
    rw [whole] at buffer
    simp only [encodeVarint32, low_seven, shift_seven, high, buffer, varint]

end Varint

section Write

theorem ok_bind {α β : Type} (a : α) (f : α → Except String β) : ((Except.ok a : Except String α) >>= f) = f a := rfl

theorem pure_ok {α : Type} (a : α) : (pure a : Except String α) = .ok a := rfl

theorem error_bind {α β : Type} (e : String) (f : α → Except String β) :
    ((Except.error e : Except String α) >>= f) = .error e := rfl

theorem write_room (written : List UInt8) (maxSize bytesWritten : Nat) (bytes : List UInt8) :
    write ⟨some written, maxSize, bytesWritten⟩ bytes bytes.length =
      if 0 < bytes.length ∧ maxSize < bytesWritten + bytes.length then .error "stream full"
      else .ok ⟨some (written ++ bytes), maxSize, bytesWritten + bytes.length⟩ := by
  simp only [write, List.take_length]

theorem write_write (stream : Ostream) (first second : List UInt8) :
    (write stream first first.length >>= fun stream => write stream second second.length) =
      write stream (first ++ second) (first ++ second).length := by
  rcases stream with ⟨written, maxSize, bytesWritten⟩
  cases written with
  | none => simp only [write, ok_bind, List.length_append, Nat.add_assoc]
  | some written =>
    rw [write_room, write_room, List.length_append]
    by_cases full : 0 < first.length ∧ maxSize < bytesWritten + first.length
    · rw [if_pos full, if_pos (by omega), error_bind]
    · rw [if_neg full, ok_bind, write_room]
      by_cases full' : 0 < second.length ∧ maxSize < bytesWritten + first.length + second.length
      · rw [if_pos full', if_pos (by omega)]
      · rw [if_neg full', if_neg (by omega), List.append_assoc, Nat.add_assoc]

theorem encodeTag_eq (stream : Ostream) {wiretype : Nat} (small : wiretype < 8) (tag : UInt32) :
    encodeTag stream wiretype tag =
      write stream (varint (8 * tag.toNat + wiretype)) (varint (8 * tag.toNat + wiretype)).length := by
  have key : (tag.toNat <<< 3) ||| wiretype = 8 * tag.toNat + wiretype := by
    rw [← Nat.shiftLeft_add_eq_or_of_lt (i := 3) small, Nat.shiftLeft_eq, Nat.mul_comm]
  have narrow := tag.toNat_lt
  rw [encodeTag, key, encodeVarint_eq stream (by omega)]

theorem encodeString_eq (stream : Ostream) (bytes : List UInt8) {size : Nat} (room : size ≤ bytes.length)
    (fits : size < 2 ^ 64) : encodeString stream bytes size =
      write stream (varint size ++ bytes.take size) (varint size ++ bytes.take size).length := by
  have taken : (bytes.take size).length = size := by rw [List.length_take, Nat.min_eq_left room]
  have same : ∀ stream, write stream bytes size = write stream (bytes.take size) (bytes.take size).length := by
    intro stream
    rw [taken, write, write, List.take_take, Nat.min_self]
  rw [encodeString, encodeVarint_eq stream fits, ← write_write]
  simp only [same]

theorem stringSize_eq {more : Nat} {array : List UInt8} (whole : array.length = more + 1) :
    stringSize more array = (CString.chars array).map List.length := by
  induction more generalizing array with
  | zero =>
    rcases List.length_eq_one_iff.mp whole with ⟨byte, rfl⟩
    by_cases zero : byte = 0 <;> simp [stringSize, CString.chars, zero]
  | succ more ih =>
    cases array with
    | nil => cases whole
    | cons byte rest =>
      by_cases zero : byte = 0
      · simp [stringSize, CString.chars, zero]
      · rw [stringSize, CString.chars, if_neg zero, if_neg zero, ih (Nat.succ.inj whole), Option.map_map, Option.map_map]
        rfl

end Write

section Encoders

theorem write_nil (stream : Ostream) : write stream [] 0 = .ok stream := by
  rcases stream with ⟨written, maxSize, bytesWritten⟩
  cases written with
  | none => rfl
  | some written => simp [write]

/-- An encoder that puts these bytes into any stream, or counts them. -/
def Puts (encode : Ostream → Except String Ostream) (bytes : List UInt8) : Prop :=
  ∀ stream, encode stream = write stream bytes bytes.length

theorem Puts.andThen {first second : Ostream → Except String Ostream} {bytes bytes' : List UInt8} (puts : Puts first bytes)
    (puts' : Puts second bytes') : Puts (fun stream => first stream >>= second) (bytes ++ bytes') := by
  intro stream
  have later : second = fun stream => write stream bytes' bytes'.length := funext puts'
  change first stream >>= second = _
  rw [puts stream, later, write_write]

theorem submessage_puts {encode : Ostream → Except String Ostream} {bytes : List UInt8} (puts : Puts encode bytes)
    (fits : bytes.length < 2 ^ 64) : Puts (encodeSubmessage encode) (varint bytes.length ++ bytes) := by
  intro stream
  have sizing : encode ostreamSizing = .ok ⟨none, 0, bytes.length⟩ := by
    rw [puts, write, ostreamSizing]
    simp only [Nat.zero_add]
  rw [encodeSubmessage, sizing, ok_bind]
  dsimp only
  rw [encodeVarint_eq stream fits, ← write_write]
  rcases stream with ⟨written, maxSize, bytesWritten⟩
  cases written with
  | none => rfl
  | some written =>
    rw [write_room]
    split
    · rfl
    · rename_i room
      have some : 0 < (varint bytes.length).length := by
        rcases Protobuf.varint_cons bytes.length with ⟨byte, rest, same⟩
        rw [same]
        exact Nat.zero_lt_succ _
      have whole := puts ⟨Option.some (written ++ varint bytes.length), bytes.length, 0⟩
      rw [write_room, if_neg (by omega), Nat.zero_add] at whole
      simp only [ok_bind, Option.isNone_some, Bool.false_eq_true, if_false, write_room, whole, ne_eq, not_true_eq_false]
      by_cases full : maxSize < bytesWritten + (varint bytes.length).length + bytes.length
      · rw [if_pos full, if_pos (by omega)]
      · rw [if_neg full, if_neg (by omega)]

theorem encodeTag_puts {wiretype : Nat} (small : wiretype < 8) (tag : UInt32) :
    Puts (fun stream => encodeTag stream wiretype tag) (varint (8 * tag.toNat + wiretype)) :=
  fun stream => encodeTag_eq stream small tag

theorem encBytes_puts {size : Nat} {array : List UInt8} (room : size ≤ array.length) (fits : size < 2 ^ 64) :
    Puts (fun stream => encBytes stream size array) (varint (array.take size).length ++ array.take size) := by
  intro stream
  have taken : (array.take size).length = size := by rw [List.length_take, Nat.min_eq_left room]
  change encBytes stream size array = _
  rw [encBytes, if_neg (Nat.not_lt.mpr room), encodeString_eq stream array room fits, taken]

theorem encString_eq (stream : Ostream) (array : List UInt8) : ∃ error, encString stream array =
    match CString.chars array with
    | some string => encodeString stream array string.length
    | none => .error error := by
  cases array with
  | nil => exact ⟨_, rfl⟩
  | cons byte rest =>
    refine ⟨"unterminated string", ?_⟩
    rw [encString, if_neg (by simp), stringSize_eq (by simp)]
    cases CString.chars (byte :: rest) <;> rfl

theorem encString_puts {array string : List UInt8} (read : CString.chars array = some string)
    (fits : string.length < 2 ^ 64) : Puts (fun stream => encString stream array) (varint string.length ++ string) := by
  intro stream
  obtain ⟨rest, rfl⟩ := CString.chars_some read
  obtain ⟨_, whole⟩ := encString_eq stream (string ++ 0 :: rest)
  rw [read] at whole
  change encString stream (string ++ 0 :: rest) = _
  rw [whole]
  change encodeString stream (string ++ 0 :: rest) string.length = _
  rw [encodeString_eq stream _ (by simp) fits, List.take_left' rfl]

def Fails (encode : Ostream → Except String Ostream) : Prop := ∀ stream, ∃ error, encode stream = .error error

theorem Fails.andThen {first second : Ostream → Except String Ostream} (fails : Fails second) :
    Fails fun stream => first stream >>= second := by
  intro stream
  change ∃ error, first stream >>= second = .error error
  cases first stream with
  | error error => exact ⟨error, rfl⟩
  | ok stream => exact fails stream

theorem Fails.before {first second : Ostream → Except String Ostream} (fails : Fails first) :
    Fails fun stream => first stream >>= second := by
  intro stream
  obtain ⟨error, failed⟩ := fails stream
  change ∃ error, first stream >>= second = .error error
  rw [failed]
  exact ⟨error, rfl⟩

theorem submessage_fails {encode : Ostream → Except String Ostream} (fails : Fails encode) : Fails (encodeSubmessage encode) := by
  intro stream
  obtain ⟨error, failed⟩ := fails ostreamSizing
  rw [encodeSubmessage, failed]
  exact ⟨error, rfl⟩

end Encoders

end Nanopb
