import Mathlib.Data.List.Basic

namespace Aead

/-- A cipher that authenticates what it encrypts: the ciphertext is as long as the plaintext and
    is accompanied by `tagLength` bytes of tag. -/
structure Cipher (Key Nonce : Type) (tagLength : Nat) where
  encrypt : Key → Nonce → List UInt8 → List UInt8 × List UInt8
  decrypt : Key → Nonce → List UInt8 → List UInt8 → Option (List UInt8)
  cipher_length : ∀ key nonce plain, (encrypt key nonce plain).1.length = plain.length
  tag_length : ∀ key nonce plain, (encrypt key nonce plain).2.length = tagLength
  plain_length : ∀ key nonce cipher tag plain,
    decrypt key nonce cipher tag = some plain → plain.length = cipher.length

variable {Key Nonce : Type} {tagLength : Nat}

def Cipher.Inverts (cipher : Cipher Key Nonce tagLength) : Prop :=
  ∀ key nonce plain,
    cipher.decrypt key nonce (cipher.encrypt key nonce plain).1 (cipher.encrypt key nonce plain).2 =
      some plain

def Cipher.seal (cipher : Cipher Key Nonce tagLength) (key : Key) (nonce : Nonce)
    (plain : List UInt8) : List UInt8 :=
  (cipher.encrypt key nonce plain).1 ++ (cipher.encrypt key nonce plain).2

def Cipher.unseal (cipher : Cipher Key Nonce tagLength) (key : Key) (nonce : Nonce)
    (message : List UInt8) : Option (List UInt8) :=
  cipher.decrypt key nonce (message.take (message.length - tagLength))
    (message.drop (message.length - tagLength))

@[simp] theorem Cipher.seal_length (cipher : Cipher Key Nonce tagLength) (key : Key) (nonce : Nonce)
    (plain : List UInt8) : (cipher.seal key nonce plain).length = plain.length + tagLength := by
  simp [Cipher.seal, cipher.cipher_length, cipher.tag_length]

theorem Cipher.unseal_seal (cipher : Cipher Key Nonce tagLength) (inverts : cipher.Inverts)
    (key : Key) (nonce : Nonce) (plain : List UInt8) :
    cipher.unseal key nonce (cipher.seal key nonce plain) = some plain := by
  have split : (cipher.seal key nonce plain).length - tagLength =
      (cipher.encrypt key nonce plain).1.length := by
    rw [cipher.seal_length, cipher.cipher_length, Nat.add_sub_cancel]
  unfold Cipher.unseal
  rw [split, Cipher.seal, List.take_left, List.drop_left]
  exact inverts key nonce plain

theorem Cipher.unseal_length (cipher : Cipher Key Nonce tagLength) {key : Key} {nonce : Nonce}
    {message plain : List UInt8} (opened : cipher.unseal key nonce message = some plain) :
    plain.length = message.length - tagLength := by
  rw [cipher.plain_length _ _ _ _ _ opened, List.length_take]
  omega

end Aead
