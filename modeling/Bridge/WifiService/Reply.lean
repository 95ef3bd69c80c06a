import Bridge.WifiService.Recovery

namespace Bridge

/-- A step 1 with a public key that the curve can use with any key of the server. -/
structure Step1WellFormed (lib : PairingLib) (step1 publicKey : List UInt8) : Prop where
  decoded : lib.step1.decode step1 = (false, ⟨some publicKey⟩)
  size : publicKey.length = igKeyExchangePublicLength
  point : ∀ own privateKey, KeyPair lib own privateKey → ∃ secret, lib.sharedSecret publicKey privateKey = some secret

variable (lib : ServerLib)

/-- The handler succeeds, its reply is the frame of a step 2 with this key and the nonce drawn, and the
    buffer waits for the next frame. -/
def RepliesStep2 (write : ClientWrite) (data : ServerData) (publicKey : List UInt8) : Prop := ∃ data' step2,
  handleReplyStep2 lib write data = some (data', 0) ∧
    lib.pairing.step2.encode ⟨some publicKey, some (generateRandomNonce lib.pairing.libc write.time kNonceLength).toList⟩
      (igPairingStep2Size lib.pairing) = some step2 ∧
    buildMsgPayload write.heap step2 = some data'.chr.value ∧
    data'.chr.recvPairingData = resetRecvData data.chr.recvPairingData

/-- The second flag of `IgPairingStep2` follows a flag, a pointer and a size. -/
def Step2Layout : Prop := lib.hasNonceOffset = 24 ∨ lib.hasNonceOffset = 12

/-- The byte of the public key that lies where the struct has its second flag. -/
def keyFlag (publicKey : List UInt8) : UInt8 := publicKey.getD (lib.hasNonceOffset - 6) 0

def step2Wire (publicKey : List UInt8) (nonce : Nonce) : List UInt8 :=
  [0xa3, 0x00, 0x02, 0x0b, 0x58, 0x40] ++ publicKey ++ ([0x0c, 0x4c] ++ nonce.toList)

theorem step2_wire {pairing : PairingLib} (generated : pairing.Generated) {publicKey : List UInt8}
    (size : publicKey.length = igKeyExchangePublicLength) {nonce : Nonce} {length : Nat} {step2 : List UInt8}
    (encoded : pairing.step2.encode ⟨some publicKey, some nonce.toList⟩ length = some step2) :
    step2 = step2Wire publicKey nonce := by
  obtain ⟨garbage, real⟩ := generated.step2
  rw [real] at encoded
  change PairingStep2.format.encode ⟨some publicKey, some nonce.toList⟩ (length % 2 ^ 32) = some step2 at encoded
  rw [encode_eq PairingStep2.format_lawful] at encoded
  split at encoded
  · have wire : PairingStep2.format.wire ⟨some publicKey, some nonce.toList⟩ =
        [0xa3, 0x00, 0x02, 0x0b] ++ (numberBytes (publicKey.length % 2 ^ 64) 2 ++ publicKey ++
          (0x0c :: (numberBytes (nonce.toList.length % 2 ^ 64) 2 ++ nonce.toList ++ []))) := rfl
    have keyHeader : numberBytes (igKeyExchangePublicLength % 2 ^ 64) 2 = [0x58, 0x40] := rfl
    have nonceHeader : numberBytes (12 % 2 ^ 64) 2 = [0x4c] := rfl
    rw [← Option.some.inj encoded, wire, List.append_nil, size, nonce.length_toList, keyHeader, nonceHeader]
    simp [step2Wire]
  · cases encoded

variable {lib} {write : ClientWrite} {data : ServerData} {publicKey : List UInt8}

theorem step2Valid_iff_keyFlag (layout : Step2Layout lib) (size : publicKey.length = igKeyExchangePublicLength)
    (nonce : Nonce) : step2BytesValid lib (step2Wire publicKey nonce) = true ↔ keyFlag lib publicKey ≠ 0 := by
  have inKey : ∀ offset, 6 ≤ offset → offset < 70 →
      (step2Wire publicKey nonce).getD offset 0 = publicKey.getD (offset - 6) 0 := by
    intro offset low high
    have inside : offset - 6 < publicKey.length := by
      rw [size, igKeyExchangePublicLength]
      omega
    simp only [step2Wire, List.getD_eq_getElem?_getD]
    rw [List.append_assoc, List.getElem?_append_right (by simpa using low), List.getElem?_append_left (by simpa using inside)]
    rfl
  have flag : (step2Wire publicKey nonce).getD lib.hasNonceOffset 0 = keyFlag lib publicKey := by
    apply inKey
    · rcases layout with offset | offset <;> omega
    · rcases layout with offset | offset <;> omega
  have first : (step2Wire publicKey nonce).getD 0 0 = 0xa3 := rfl
  rw [step2BytesValid, flag, first]
  simp

theorem wellFormed_answered (generated : lib.pairing.Generated) (sized : lib.pairing.Sized) {step1 clientKey privateKey : List UInt8}
    (wellFormed : Step1WellFormed lib.pairing step1 clientKey)
    (made : lib.pairing.makeKey write.entropy = some (publicKey, privateKey)) : ∃ pairing step2,
    igPairingStep2Size lib.pairing = 103 ∧
      serverGenPairingStep2 lib.pairing write.time write.entropy data.pairing step1 103 = (pairing, .ok step2) ∧
      lib.pairing.step2.encode ⟨some publicKey, some (generateRandomNonce lib.pairing.libc write.time kNonceLength).toList⟩ 103 =
        some step2 ∧
      step2 = step2Wire publicKey (generateRandomNonce lib.pairing.libc write.time kNonceLength) := by
  have filled : publicKey ≠ [] := List.ne_nil_of_length_eq_add_one (sized.publicKey _ _ _ made)
  obtain ⟨secret, shared⟩ := wellFormed.point publicKey privateKey ⟨_, made⟩
  obtain ⟨pairing, step2, replied⟩ := serverGenPairingStep2_succeeds generated sized write.time data.pairing
    wellFormed.decoded wellFormed.size made shared (Nat.le_refl 103) (by decide)
  obtain ⟨publicKey', privateKey', _, made', encoded, _, rfl⟩ := serverGenPairingStep2_ok replied
  obtain ⟨rfl, rfl⟩ := Prod.mk.inj (Option.some.inj (made.symm.trans made'))
  rw [setBytes_some filled, setBytes_some (nonce_filled _)] at encoded
  refine ⟨_, step2, ?_, replied, encoded, step2_wire generated (sized.publicKey _ _ _ made) encoded⟩
  have zeros : (List.replicate igKeyExchangePublicLength (0 : UInt8)).length = igKeyExchangePublicLength :=
    List.length_replicate
  exact (step2_encodes generated zeros #v[0, 0, 0, 0, 0, 0, 0, 0, 0, 0, 0, 1] (Nat.le_refl 103) (by decide)).1

/-- The server sends its step 2 for exactly the key pairs that have a byte other than zero where the
    cast of the encoded bytes finds the second flag. -/
theorem step2_sent_iff_keyFlag (lib : ServerLib) (generated : lib.pairing.Generated) (sized : lib.pairing.Sized)
    (layout : Step2Layout lib) (write : ClientWrite) (data : ServerData) (step1 clientKey publicKey privateKey : List UInt8)
    (received : getPkgFromRecvData data.chr.recvPairingData = some step1)
    (wellFormed : Step1WellFormed lib.pairing step1 clientKey)
    (made : lib.pairing.makeKey write.entropy = some (publicKey, privateKey)) :
    RepliesStep2 lib write data publicKey ↔ keyFlag lib publicKey ≠ 0 := by
  obtain ⟨pairing, step2, size, replied, encoded, wire⟩ := @wellFormed_answered lib write data _ generated sized _ _ _ wellFormed made
  have valid := step2Valid_iff_keyFlag layout (sized.publicKey _ _ _ made)
    (generateRandomNonce lib.pairing.libc write.time kNonceLength)
  rw [← wire] at valid
  constructor
  · rintro ⟨data', _, handled, _, _, _⟩
    apply valid.mp
    by_contra invalid
    rw [handleReplyStep2_invalid received size (by decide) replied (Bool.eq_false_iff.mpr invalid)] at handled
    cases handled
  · intro set
    obtain ⟨payload, built, handled⟩ := handleReplyStep2_valid received size (by decide) replied (valid.mpr set)
    refine ⟨_, step2, handled, ?_, built, rfl⟩
    rw [size]
    exact encoded

def flaglessPrivateKey : List UInt8 := [0xe2, 0x01] ++ List.replicate 30 0

def flaglessKey : List UInt8 :=
  [0x49, 0x3a, 0xe3, 0xf0, 0x5a, 0x60, 0x0f, 0x82, 0x04, 0x12, 0x45, 0x9d, 0x04, 0x1d, 0xf2, 0x7a,
    0xe6, 0x4f, 0x00, 0x02, 0x2b, 0x72, 0xd9, 0x0c, 0x5f, 0xc3, 0xe1, 0xa2, 0x05, 0x8b, 0xd6, 0x5f,
    0xc9, 0xad, 0x76, 0x3a, 0x6c, 0x7d, 0x7a, 0x06, 0x84, 0xc9, 0x22, 0xd4, 0x2e, 0x12, 0x7e, 0x60,
    0xec, 0x4a, 0xa2, 0xe2, 0x60, 0x8f, 0xfe, 0xaf, 0xaa, 0x6b, 0x98, 0x9d, 0xcf, 0x31, 0xb7, 0x0e]

/-- The first coordinate of 482 times 111 times the base point. -/
def flaglessSecret : List UInt8 :=
  [0x71, 0x8e, 0x7d, 0xeb, 0xe4, 0x3b, 0x83, 0xfe, 0x14, 0xf2, 0xdd, 0x1a, 0xc3, 0x82, 0xb2, 0xfb,
    0x1d, 0x9d, 0xf8, 0x87, 0xa5, 0x2d, 0x2b, 0x7b, 0x04, 0x9a, 0x0d, 0x83, 0xd5, 0xc7, 0xab, 0x4c]

/-- A server that has made this key, on a machine with pointers of eight bytes. -/
def sampleFlaglessLib : ServerLib :=
  { sampleServerLib with
    pairing := { samplePairing with
      makeKey := fun _ => some (flaglessKey, flaglessPrivateKey)
      sharedSecret := fun publicKey privateKey =>
        if publicKey = samplePublicKey ∧ privateKey = flaglessPrivateKey then some flaglessSecret else none } }

def sampleStep1Data : ServerData where
  chr := ⟨[], recvData RecvData.zero sampleStep1.value [], 0⟩
  pairing := .zero
  trace := []

theorem sampleStep1_wellFormed (lib : PairingLib) (step1 : lib.step1 = PairingStep1.format.codec emptyCursor)
    (point : ∀ own privateKey, KeyPair lib own privateKey → ∃ secret, lib.sharedSecret samplePublicKey privateKey = some secret) :
    Step1WellFormed lib ([0xa2, 0x00, 0x01, 0x0b, 0x58, 0x40] ++ samplePublicKey) samplePublicKey := by
  refine ⟨?_, rfl, point⟩
  rw [step1]
  decide +kernel

theorem step2_sent_iff_keyFlag_sample : RepliesStep2 sampleServerLib sampleStep1 sampleStep1Data samplePublicKey ↔
    keyFlag sampleServerLib samplePublicKey ≠ 0 := by
  have wellFormed := sampleStep1_wellFormed samplePairing rfl
    (samplePairing_total samplePublicKey samplePrivateKey · · ⟨0, rfl⟩)
  exact step2_sent_iff_keyFlag sampleServerLib samplePairing_generated samplePairing_sized (.inl rfl) sampleStep1
    sampleStep1Data _ samplePublicKey samplePublicKey samplePrivateKey (by decide) wellFormed rfl

/-- With this key the server refuses its own reply to a well-formed step 1. -/
theorem flaglessKey_refused :
    getPkgFromRecvData sampleStep1Data.chr.recvPairingData = some ([0xa2, 0x00, 0x01, 0x0b, 0x58, 0x40] ++ samplePublicKey) ∧
      Step1WellFormed sampleFlaglessLib.pairing ([0xa2, 0x00, 0x01, 0x0b, 0x58, 0x40] ++ samplePublicKey) samplePublicKey ∧
      KeyPair sampleFlaglessLib.pairing flaglessKey flaglessPrivateKey ∧
      ¬RepliesStep2 sampleFlaglessLib sampleStep1 sampleStep1Data flaglessKey := by
  have wellFormed : Step1WellFormed sampleFlaglessLib.pairing ([0xa2, 0x00, 0x01, 0x0b, 0x58, 0x40] ++ samplePublicKey)
      samplePublicKey :=
    sampleStep1_wellFormed _ rfl fun own privateKey pair => by
      obtain ⟨entropy, ⟨⟩⟩ := pair
      exact ⟨flaglessSecret, rfl⟩
  refine ⟨by decide, wellFormed, ⟨0, rfl⟩, ?_⟩
  rintro ⟨data', _, handled, _⟩
  have refused : (handleReplyStep2 sampleFlaglessLib sampleStep1 sampleStep1Data).map Prod.snd = some 1 := by decide +kernel
  rw [handled] at refused
  cases refused

end Bridge
