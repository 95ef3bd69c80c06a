import Bridge.Library.Cbor
import Mathlib.Tactic.IntervalCases

namespace Bridge

open Ccm Cbor

/-- What has been written, and how much of the buffer is left. An operation that does not fit gives
    `none`: every caller returns at once. -/
structure CborEncoder where
  data : List UInt8
  room : Nat
deriving DecidableEq, Repr

def cborEncoderInit (size : Nat) : CborEncoder := ⟨[], size⟩

def appendToBuffer (encoder : CborEncoder) (data : List UInt8) : Option CborEncoder :=
  if encoder.room < data.length then none
  else some ⟨encoder.data ++ data, encoder.room - data.length⟩

def numberBytes (ui majorType : Nat) : List UInt8 :=
  if ui < 24 then [initial majorType ui]
  else
    let more := (if ui > 0xff then 1 else 0) + (if ui > 0xffff then 1 else 0) + (if ui > 0xffffffff then 1 else 0)
    initial majorType (24 + more) :: bigEndian (2 ^ more) ui

def encodeNumber (encoder : CborEncoder) (ui majorType : Nat) : Option CborEncoder :=
  appendToBuffer encoder (numberBytes (ui % 2 ^ 64) majorType)

def cborEncodeUint (encoder : CborEncoder) (value : Nat) : Option CborEncoder := encodeNumber encoder value 0

def cborEncodeInt (encoder : CborEncoder) (value : Int) : Option CborEncoder :=
  if value < 0 then encodeNumber encoder (-1 - value).toNat 1 else encodeNumber encoder value.toNat 0

def cborEncodeBoolean (encoder : CborEncoder) (value : Bool) : Option CborEncoder :=
  encodeNumber encoder (20 + value.toNat) 7

def cborEncodeByteString (encoder : CborEncoder) (string : List UInt8) : Option CborEncoder :=
  (encodeNumber encoder string.length 2).bind fun encoder => appendToBuffer encoder string

def cborEncoderCreateMap (encoder : CborEncoder) (length : Nat) : Option CborEncoder :=
  encodeNumber encoder length 5

theorem appendToBuffer_fits {encoder : CborEncoder} {data : List UInt8} (fits : data.length ≤ encoder.room) :
    appendToBuffer encoder data = some ⟨encoder.data ++ data, encoder.room - data.length⟩ := by
  rw [appendToBuffer, if_neg (by omega)]

theorem appendToBuffer_append (encoder : CborEncoder) (data more : List UInt8) :
    ((appendToBuffer encoder data).bind fun encoder => appendToBuffer encoder more) =
      appendToBuffer encoder (data ++ more) := by
  by_cases first : data.length ≤ encoder.room
  · by_cases second : more.length ≤ encoder.room - data.length
    · rw [appendToBuffer_fits first, Option.bind_some, appendToBuffer_fits second,
        appendToBuffer_fits (by rw [List.length_append]; omega), List.append_assoc, List.length_append,
        Nat.sub_sub]
    · rw [appendToBuffer_fits first, Option.bind_some, appendToBuffer, appendToBuffer, if_pos (by simpa using second),
        if_pos (by rw [List.length_append]; omega)]
  · rw [appendToBuffer, if_pos (by omega), appendToBuffer, if_pos (by rw [List.length_append]; omega)]
    rfl

theorem numberBytes_head {ui majorType : Nat} (fits : ui < 2 ^ 64) : Head majorType ui (numberBytes ui majorType) := by
  unfold numberBytes
  split
  · rename_i small
    exact .direct small
  · rcases Nat.lt_or_ge ui (2 ^ 8) with byte | byte
    · simp only [show ¬ui > 0xff by omega, show ¬ui > 0xffff by omega, show ¬ui > 0xffffffff by omega, if_false]
      exact .wide 0 (by decide) (by omega)
    · rcases Nat.lt_or_ge ui (2 ^ 16) with half | half
      · simp only [show ui > 0xff by omega, show ¬ui > 0xffff by omega, show ¬ui > 0xffffffff by omega, if_false, if_true]
        exact .wide 1 (by decide) (by omega)
      · rcases Nat.lt_or_ge ui (2 ^ 32) with word | word
        · simp only [show ui > 0xff by omega, show ui > 0xffff by omega, show ¬ui > 0xffffffff by omega, if_false, if_true]
          exact .wide 2 (by decide) (by omega)
        · simp only [show ui > 0xff by omega, show ui > 0xffff by omega, show ui > 0xffffffff by omega, if_true]
          exact .wide 3 (by decide) (by omega)

theorem numberBytes_length_le {ui k : Nat} (majorType : Nat) (width : k < 4) (fits : ui < 256 ^ 2 ^ k) :
    (numberBytes ui majorType).length ≤ 1 + 2 ^ k := by
  have bound : ∀ more, more ≤ k → 1 + 2 ^ more ≤ 1 + 2 ^ k :=
    fun more le => Nat.add_le_add_left (Nat.pow_le_pow_right (by decide) le) 1
  unfold numberBytes
  split
  · exact Nat.le_add_right 1 (2 ^ k)
  · rw [List.length_cons, bigEndian_length, Nat.add_comm]
    apply bound
    interval_cases k
    all_goals
      simp only [Nat.reducePow] at fits
      repeat' split
      all_goals omega

theorem numberBytes_small {ui : Nat} (majorType : Nat) (small : ui < 24) : (numberBytes ui majorType).length = 1 := by
  rw [numberBytes, if_pos small]
  rfl

end Bridge
