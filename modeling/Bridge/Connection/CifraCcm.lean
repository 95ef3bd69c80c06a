import Bridge.Cifra.Ccm
import Bridge.Connection.Encryption

namespace Bridge

open Cifra

/-- `cf_ccm_encrypt` under `cf_aes`, with the lengths that `encryption.c` passes; `none` where an
    assertion aborts the program. -/
def aesCcmEncrypt (key : Key) (nonce : Nonce) (plain : List UInt8) : Option (List UInt8 × List UInt8) :=
  ccmEncrypt (Prp.ofCipher aesEncrypt key) plain 3 [] nonce.toList 8

def aesCcmDecrypt (key : Key) (nonce : Nonce) (ciphertext tag : List UInt8) : Option (Nat × List UInt8) :=
  ccmDecrypt (Prp.ofCipher aesEncrypt key) ciphertext 3 [] nonce.toList tag 8

-- The key is the connection's, of 16 bytes: every caller passes `kConnectionKeyLength`, which the check
-- of the key length accepts.

/-- `encryptData` with the library's own code in it: `none` where it aborts, `some none` where it
    returns -1. -/
def encryptDataCifra (dataIn : List UInt8) (dataOutLen : Nat) (key : Key) (nonce : Nonce) (nonceLen : Nat) :
    Option (Option (List UInt8)) :=
  if 4096 < dataIn.length then some none
  else if dataOutLen < encryptDataSize dataIn.length then some none
  else if kConnectionKeyLength ≠ 16 ∧ kConnectionKeyLength ≠ 24 ∧ kConnectionKeyLength ≠ 32 then some none
  else if nonceLen ≠ kNonceLength then some none
  else (aesCcmEncrypt key nonce dataIn).map fun out => some (out.1 ++ out.2)

/-- What `decryptData` returns and what it leaves in `dataOut`; `none` where it aborts, and where it reads
    the tag of a shorter message far behind it. -/
def decryptDataCifra (dataIn : List UInt8) (dataOutLen : Nat) (key : Key) (nonce : Nonce) (nonceLen : Nat) :
    Option (Option (List UInt8) × Option (List UInt8)) :=
  if 4096 < dataIn.length then some (none, none)
  else if dataOutLen < decryptDataSize dataIn.length then some (none, none)
  else if kConnectionKeyLength ≠ 16 ∧ kConnectionKeyLength ≠ 24 ∧ kConnectionKeyLength ≠ 32 then some (none, none)
  else if nonceLen ≠ kNonceLength then some (none, none)
  else if dataIn.length < kCcmTagLength then none
  else
    let ciphertextLen := decryptDataSize dataIn.length
    (aesCcmDecrypt key nonce (dataIn.take ciphertextLen) (dataIn.drop ciphertextLen)).map fun out =>
      if out.1 ≠ 0 then (none, some out.2) else (some out.2, some out.2)

theorem aesCcm_accepts (nonce : Nonce) {n : Nat} (short : n ≤ 4096) : CcmAccepts 3 nonce.toList.length 8 0 n := by
  rw [Vector.length_toList, CcmAccepts]
  omega

theorem aesCcmEncrypt_eq (key : Key) (nonce : Nonce) {plain : List UInt8} (short : plain.length ≤ 4096) :
    aesCcmEncrypt key nonce plain = some (aesCcm.encrypt key nonce plain) := by
  rw [aesCcmEncrypt, ccmEncrypt_eq, List.length_nil, if_pos (aesCcm_accepts nonce short), Ccm.encryptWith_nil]
  rfl

theorem aesCcmDecrypt_eq (key : Key) (nonce : Nonce) {ciphertext tag : List UInt8} (short : ciphertext.length ≤ 4096)
    (tagged : tag.length = 8) : aesCcmDecrypt key nonce ciphertext tag =
      match aesCcm.decrypt key nonce ciphertext tag with
      | some plain => some (0, plain)
      | none => some (1, List.replicate ciphertext.length 0) := by
  rw [aesCcmDecrypt, ccmDecrypt_eq aesEncrypt key ciphertext 3 [] nonce.toList tag 8 tagged, List.length_nil,
    if_pos (aesCcm_accepts nonce short), Ccm.decryptWith_nil]
  rfl

/-- The encryption of the connection with the cipher's code in it: no input makes it abort, and what
    it computes is what the abstract cipher `aesCcm` gives. -/
theorem encryptDataCifra_eq (dataIn : List UInt8) (dataOutLen : Nat) (key : Key) (nonce : Nonce) (nonceLen : Nat) :
    encryptDataCifra dataIn dataOutLen key nonce nonceLen =
      some (encryptData aesCcm dataIn dataOutLen key kConnectionKeyLength nonce nonceLen) := by
  rw [encryptDataCifra, encryptData]
  split
  · rfl
  · rename_i short
    rw [aesCcmEncrypt_eq key nonce (Nat.le_of_not_lt short)]
    split
    · rfl
    · split
      · rfl
      · split
        · rfl
        · rfl

/-- What `decryptData` leaves in `dataOut` when it returns -1: nothing of it is written where the lengths
    were refused, and zeros are written where the tag was. -/
def refusedOut (dataIn : List UInt8) (dataOutLen nonceLen : Nat) : Option (List UInt8) :=
  if dataIn.length ≤ 4096 ∧ decryptDataSize dataIn.length ≤ dataOutLen ∧ nonceLen = kNonceLength then
    some (List.replicate (decryptDataSize dataIn.length) 0)
  else none

theorem connectionKey_known :
    ¬(kConnectionKeyLength ≠ 16 ∧ kConnectionKeyLength ≠ 24 ∧ kConnectionKeyLength ≠ 32) := by
  decide

theorem decryptDataCifra_eq (dataIn : List UInt8) (dataOutLen : Nat) (key : Key) (nonce : Nonce) (nonceLen : Nat) :
    decryptDataCifra dataIn dataOutLen key nonce nonceLen =
      match decryptData aesCcm dataIn dataOutLen key kConnectionKeyLength nonce nonceLen with
      | .wraps => none
      | .refused => some (none, refusedOut dataIn dataOutLen nonceLen)
      | .plain bytes => some (some bytes, some bytes) := by
  rw [decryptDataCifra, decryptData]
  by_cases admitted : dataIn.length ≤ 4096 ∧ decryptDataSize dataIn.length ≤ dataOutLen ∧ nonceLen = kNonceLength
  · obtain ⟨short, wide, nonces⟩ := admitted
    rw [if_neg (Nat.not_lt.mpr short), if_neg (Nat.not_lt.mpr wide), if_neg connectionKey_known,
      if_neg (not_not_intro nonces), if_neg (Nat.not_lt.mpr short), if_neg (Nat.not_lt.mpr wide),
      if_neg connectionKey_known, if_neg (not_not_intro nonces)]
    by_cases untagged : dataIn.length < kCcmTagLength
    · rw [if_pos untagged, if_pos untagged]
    · have size := decryptDataSize_of_tagged (Nat.le_of_not_lt untagged) short
      have tagged : 8 ≤ dataIn.length := Nat.le_of_not_lt untagged
      have cut : (dataIn.take (dataIn.length - 8)).length = dataIn.length - 8 := List.length_take_of_le (by omega)
      have tag : (dataIn.drop (dataIn.length - 8)).length = 8 := by
        rw [List.length_drop]
        omega
      have call := aesCcmDecrypt_eq key nonce (show (dataIn.take (dataIn.length - 8)).length ≤ 4096 by omega) tag
      rw [if_neg untagged, if_neg untagged, size]
      dsimp only
      rw [call, Aead.Cipher.unseal, refusedOut, if_pos ⟨short, wide, nonces⟩, size, cut]
      cases aesCcm.decrypt key nonce (dataIn.take (dataIn.length - 8)) (dataIn.drop (dataIn.length - 8)) with
      | none => rfl
      | some plain => rfl
  · rw [refusedOut, if_neg admitted]
    split
    · rfl
    · split
      · rfl
      · split
        · rfl
        · split
          · rfl
          · omega

/-- The two functions of the connection with the cipher's own code in them: no assertion of the cipher
    fails for a message that has a tag, both give what the abstract cipher gives, and a message that is
    refused leaves nothing of its text behind. -/
theorem cifra_connection (dataOutLen : Nat) (key : Key) (nonce : Nonce) (nonceLen : Nat) :
    (∀ plain, encryptDataCifra plain dataOutLen key nonce nonceLen =
      some (encryptData aesCcm plain dataOutLen key kConnectionKeyLength nonce nonceLen)) ∧
    ∀ message, decryptDataCifra message dataOutLen key nonce nonceLen =
      match decryptData aesCcm message dataOutLen key kConnectionKeyLength nonce nonceLen with
      | .wraps => none
      | .refused => some (none, refusedOut message dataOutLen nonceLen)
      | .plain bytes => some (some bytes, some bytes) :=
  ⟨fun plain => encryptDataCifra_eq plain dataOutLen key nonce nonceLen,
    fun message => decryptDataCifra_eq message dataOutLen key nonce nonceLen⟩

end Bridge
