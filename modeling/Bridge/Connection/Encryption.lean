import Bridge.Library.Aead
import Bridge.Library.Counter

namespace Bridge

def kNonceLength : Nat := 12
def kCcmTagLength : Nat := 8
def kConnectionKeyLength : Nat := 16

abbrev Nonce := Vector UInt8 12
abbrev Key := Vector UInt8 16

/-- `cf_ccm_encrypt` and `cf_ccm_decrypt` with the lengths that `encryption.c` passes. -/
abbrev Ccm := Aead.Cipher Key Nonce 8

def incrementNonce (nonce : Nonce) : Nonce := ByteCounter.ripple nonce

def encryptDataSize (dataLen : Nat) : Nat := (dataLen + kCcmTagLength) % 2 ^ 32

-- The subtraction is on uint32_t and wraps for fewer than eight bytes.
def decryptDataSize (dataLen : Nat) : Nat := (dataLen + (2 ^ 32 - kCcmTagLength)) % 2 ^ 32

/-- The bytes left in `dataOut`, or `none` where the C function returns -1. -/
def encryptData (ccm : Ccm) (dataIn : List UInt8) (dataOutLen : Nat) (key : Key) (keyLen : Nat)
    (nonce : Nonce) (nonceLen : Nat) : Option (List UInt8) :=
  if 4096 < dataIn.length then none
  else if dataOutLen < encryptDataSize dataIn.length then none
  else if keyLen ≠ 16 ∧ keyLen ≠ 24 ∧ keyLen ≠ 32 then none
  else if nonceLen ≠ kNonceLength then none
  else some (ccm.seal key nonce dataIn)

/-- What `decryptData` does with a message: a message shorter than its tag makes the ciphertext
    length wrap, and the tag is then read far outside the message. -/
inductive Decryption
  | wraps
  | refused
  | plain (bytes : List UInt8)
deriving DecidableEq, Repr

def decryptData (ccm : Ccm) (dataIn : List UInt8) (dataOutLen : Nat) (key : Key) (keyLen : Nat)
    (nonce : Nonce) (nonceLen : Nat) : Decryption :=
  if 4096 < dataIn.length then .refused
  else if dataOutLen < decryptDataSize dataIn.length then .refused
  else if keyLen ≠ 16 ∧ keyLen ≠ 24 ∧ keyLen ≠ 32 then .refused
  else if nonceLen ≠ kNonceLength then .refused
  else if dataIn.length < kCcmTagLength then .wraps
  else match ccm.unseal key nonce dataIn with
    | none => .refused
    | some bytes => .plain bytes

/-- `decryptData` as all its callers use it: an output buffer of `decryptDataSize` bytes. -/
def decryptMessage (ccm : Ccm) (message : List UInt8) (key : Key) (nonce : Nonce) : Decryption :=
  decryptData ccm message (decryptDataSize message.length) key kConnectionKeyLength nonce kNonceLength

def encryptMessage (ccm : Ccm) (plain : List UInt8) (key : Key) (nonce : Nonce) :
    Option (List UInt8) :=
  encryptData ccm plain (encryptDataSize plain.length) key kConnectionKeyLength nonce kNonceLength

theorem encryptDataSize_of_short {n : Nat} (short : n ≤ 4096) : encryptDataSize n = n + 8 := by
  unfold encryptDataSize kCcmTagLength
  omega

theorem decryptDataSize_of_tagged {n : Nat} (tagged : 8 ≤ n) (short : n ≤ 4096) :
    decryptDataSize n = n - 8 := by
  unfold decryptDataSize kCcmTagLength
  omega

theorem encryptMessage_eq (ccm : Ccm) (plain : List UInt8) (key : Key) (nonce : Nonce) :
    encryptMessage ccm plain key nonce =
      if plain.length ≤ 4096 then some (ccm.seal key nonce plain) else none := by
  by_cases short : plain.length ≤ 4096
  · simp [encryptMessage, encryptData, kConnectionKeyLength, short, Nat.not_lt.mpr short]
  · simp [encryptMessage, encryptData, short, Nat.lt_of_not_le short]

theorem decryptMessage_of_tagged (ccm : Ccm) {message : List UInt8} (tagged : 8 ≤ message.length)
    (short : message.length ≤ 4096) (key : Key) (nonce : Nonce) :
    decryptMessage ccm message key nonce =
      match ccm.unseal key nonce message with
      | none => .refused
      | some bytes => .plain bytes := by
  simp [decryptMessage, decryptData, kConnectionKeyLength, kCcmTagLength, Nat.not_lt.mpr short,
    Nat.not_lt.mpr tagged]

theorem decryptMessage_of_long (ccm : Ccm) {message : List UInt8} (long : 4096 < message.length)
    (key : Key) (nonce : Nonce) : decryptMessage ccm message key nonce = .refused := by
  simp [decryptMessage, decryptData, long]

theorem decryptMessage_of_untagged (ccm : Ccm) {message : List UInt8} (untagged : message.length < 8)
    (key : Key) (nonce : Nonce) : decryptMessage ccm message key nonce = .wraps := by
  have short : ¬4096 < message.length := by omega
  simp [decryptMessage, decryptData, kConnectionKeyLength, kCcmTagLength, short, untagged]

theorem decryptMessage_wraps_iff (ccm : Ccm) (message : List UInt8) (key : Key) (nonce : Nonce) :
    decryptMessage ccm message key nonce = .wraps ↔ message.length < 8 := by
  by_cases short : message.length < 8
  · exact iff_of_true (decryptMessage_of_untagged ccm short key nonce) short
  · apply iff_of_false _ short
    by_cases long : 4096 < message.length
    · rw [decryptMessage_of_long ccm long]
      simp
    · rw [decryptMessage_of_tagged ccm (by omega) (by omega)]
      split <;> simp

theorem decryptMessage_plain {ccm : Ccm} {message bytes : List UInt8} {key : Key} {nonce : Nonce}
    (opened : decryptMessage ccm message key nonce = .plain bytes) :
    8 ≤ message.length ∧ message.length ≤ 4096 ∧ ccm.unseal key nonce message = some bytes := by
  by_cases long : 4096 < message.length
  · rw [decryptMessage_of_long ccm long] at opened
    cases opened
  · by_cases untagged : message.length < 8
    · rw [decryptMessage_of_untagged ccm untagged] at opened
      cases opened
    · rw [decryptMessage_of_tagged ccm (by omega) (by omega)] at opened
      cases unsealed : ccm.unseal key nonce message with
      | none => simp [unsealed] at opened
      | some plain =>
        simp only [unsealed, Decryption.plain.injEq] at opened
        exact ⟨by omega, by omega, by rw [opened]⟩

theorem decryptMessage_length {ccm : Ccm} {message bytes : List UInt8} {key : Key} {nonce : Nonce}
    (opened : decryptMessage ccm message key nonce = .plain bytes) :
    bytes.length = decryptDataSize message.length := by
  obtain ⟨tagged, short, unsealed⟩ := decryptMessage_plain opened
  rw [decryptDataSize_of_tagged tagged short]
  exact ccm.unseal_length unsealed

theorem value_incrementNonce (nonce : Nonce) :
    ByteCounter.value (incrementNonce nonce) = (ByteCounter.value nonce + 1) % 2 ^ 96 := by
  simpa [incrementNonce] using ByteCounter.value_ripple nonce

theorem incrementNonce_ne (nonce : Nonce) : incrementNonce nonce ≠ nonce :=
  ByteCounter.ripple_ne nonce (by decide)

end Bridge
