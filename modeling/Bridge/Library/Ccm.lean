import Bridge.Library.Aead
import Bridge.Library.Counter

namespace Ccm

abbrev BlockCipher (Key : Type) := Key → Vector UInt8 16 → Vector UInt8 16

def toBlock (bytes : List UInt8) : Vector UInt8 16 := Vector.ofFn fun i => bytes.getD i 0

def blocks (bytes : List UInt8) : List (Vector UInt8 16) :=
  (List.range ((bytes.length + 15) / 16)).map fun k => toBlock (bytes.drop (16 * k))

def xorBytes (left right : List UInt8) : List UInt8 := List.zipWith (· ^^^ ·) left right

def xorBlock (left right : Vector UInt8 16) : Vector UInt8 16 := Vector.zipWith (· ^^^ ·) left right

def bigEndian : Nat → Nat → List UInt8
  | 0, _ => []
  | width + 1, value => bigEndian width (value / 256) ++ [UInt8.ofNat (value % 256)]

section Mode

variable {Key : Type} (cipher : BlockCipher Key)

def cbcMac (key : Key) (input : List (Vector UInt8 16)) : Vector UInt8 16 :=
  input.foldl (fun state block => cipher key (xorBlock state block)) (Vector.replicate 16 0)

variable (L tagLength : Nat)

def block0 (nonce : List UInt8) (length : Nat) : Vector UInt8 16 :=
  toBlock (UInt8.ofNat ((tagLength - 2) / 2 * 8 + (L - 1)) :: nonce ++ bigEndian L length)

def counterBlock (nonce : List UInt8) (k : Nat) : Vector UInt8 16 :=
  toBlock (UInt8.ofNat (L - 1) :: nonce ++ (ByteCounter.ripple^[k] (Vector.replicate L 0)).toList)

/-- The key stream for `length` bytes of message; block 0 is kept for the tag. -/
def keyStream (key : Key) (nonce : List UInt8) (length : Nat) : List UInt8 :=
  (List.range ((length + 15) / 16)).flatMap fun k =>
    (cipher key (counterBlock L nonce (k + 1))).toList

def mac (key : Key) (nonce plain : List UInt8) : Vector UInt8 16 :=
  cbcMac cipher key (block0 L tagLength nonce plain.length :: blocks plain)

def maskTag (key : Key) (nonce tag : List UInt8) : List UInt8 :=
  xorBytes tag (cipher key (counterBlock L nonce 0)).toList

def encrypt (key : Key) (nonce plain : List UInt8) : List UInt8 × List UInt8 :=
  (xorBytes plain (keyStream cipher L key nonce plain.length),
    (maskTag cipher L key nonce (mac cipher L tagLength key nonce plain).toList).take tagLength)

def decrypt (key : Key) (nonce ciphertext tag : List UInt8) : Option (List UInt8) :=
  let plain := xorBytes ciphertext (keyStream cipher L key nonce ciphertext.length)
  if (mac cipher L tagLength key nonce plain).toList.take tagLength =
      (maskTag cipher L key nonce tag).take tagLength then some plain else none

theorem xorBytes_twice (left mask : List UInt8) (covered : left.length ≤ mask.length) :
    xorBytes (xorBytes left mask) mask = left := by
  induction left generalizing mask with
  | nil => rfl
  | cons head tail ih =>
    cases mask with
    | nil => simp at covered
    | cons first rest =>
      simp only [List.length_cons, Nat.add_le_add_iff_right] at covered
      have step := ih rest covered
      simp only [xorBytes] at step
      simp only [xorBytes, List.zipWith_cons_cons, step, UInt8.xor_assoc, UInt8.xor_self,
        UInt8.xor_zero]

theorem xorBytes_length (left mask : List UInt8) (covered : left.length ≤ mask.length) :
    (xorBytes left mask).length = left.length := by
  simp only [xorBytes, List.length_zipWith]
  omega

theorem keyStream_length (key : Key) (nonce : List UInt8) (length : Nat) :
    length ≤ (keyStream cipher L key nonce length).length := by
  simp only [keyStream, List.length_flatMap, Vector.length_toList, List.map_const',
    List.length_range, List.sum_replicate_nat]
  omega

theorem encrypt_cipher_length (key : Key) (nonce plain : List UInt8) :
    (encrypt cipher L tagLength key nonce plain).1.length = plain.length :=
  xorBytes_length _ _ (keyStream_length cipher L key nonce plain.length)

theorem encrypt_tag_length (short : tagLength ≤ 16) (key : Key) (nonce plain : List UInt8) :
    (encrypt cipher L tagLength key nonce plain).2.length = tagLength := by
  simp [encrypt, maskTag, xorBytes, short]

theorem decrypt_plain_length (key : Key) (nonce ciphertext tag plain : List UInt8)
    (opened : decrypt cipher L tagLength key nonce ciphertext tag = some plain) :
    plain.length = ciphertext.length := by
  simp only [decrypt, Option.ite_none_right_eq_some, Option.some.injEq] at opened
  rw [← opened.2]
  exact xorBytes_length _ _ (keyStream_length cipher L key nonce ciphertext.length)

theorem maskTag_take (key : Key) (nonce tag : List UInt8) (n : Nat) :
    (maskTag cipher L key nonce (tag.take n)).take n = (maskTag cipher L key nonce tag).take n := by
  simp [maskTag, xorBytes, List.take_zipWith, List.take_take]

/-- Decryption inverts encryption for every block function: the key stream cancels, and the tag
    is recomputed from the plaintext it was made from. -/
theorem decrypt_encrypt (key : Key) (nonce plain : List UInt8) :
    decrypt cipher L tagLength key nonce (encrypt cipher L tagLength key nonce plain).1
      (encrypt cipher L tagLength key nonce plain).2 = some plain := by
  have stream := keyStream_length cipher L key nonce plain.length
  have opened : xorBytes (encrypt cipher L tagLength key nonce plain).1
      (keyStream cipher L key nonce (encrypt cipher L tagLength key nonce plain).1.length) = plain := by
    rw [encrypt_cipher_length]
    exact xorBytes_twice _ _ stream
  have tagged : (maskTag cipher L key nonce (encrypt cipher L tagLength key nonce plain).2).take
      tagLength = (mac cipher L tagLength key nonce plain).toList.take tagLength := by
    simp only [encrypt]
    rw [maskTag_take]
    simp only [maskTag]
    rw [xorBytes_twice _ _ (by simp)]
  simp only [decrypt, opened, tagged, if_true]

def cipherMode (nonceLength : Nat) (short : tagLength ≤ 16) :
    Aead.Cipher Key (Vector UInt8 nonceLength) tagLength where
  encrypt key nonce := encrypt cipher L tagLength key nonce.toList
  decrypt key nonce := decrypt cipher L tagLength key nonce.toList
  cipher_length key nonce := encrypt_cipher_length cipher L tagLength key nonce.toList
  tag_length key nonce := encrypt_tag_length cipher L tagLength short key nonce.toList
  plain_length key nonce := decrypt_plain_length cipher L tagLength key nonce.toList

theorem cipherMode_inverts (nonceLength : Nat) (short : tagLength ≤ 16) :
    (cipherMode cipher L tagLength nonceLength short).Inverts :=
  fun key nonce plain => decrypt_encrypt cipher L tagLength key nonce.toList plain

end Mode

end Ccm
