import Bridge.Messages.RoundTrip
import Bridge.WifiService.Handshake

namespace Bridge

open Cbor

section Codecs

variable {Obj : Type} {format : Format Obj}

/-- A format whose declared size is always enough and whose decoder takes its own id. -/
structure Format.Compact (format : Format Obj) : Prop where
  lawful : format.Lawful
  same : format.msgId = format.acceptedId
  short : format.fields.length < 23
  enough : format.overhead ≤ format.base

structure Format.Complete (format : Format Obj) (obj : Obj) : Prop extends Format.Proper format obj where
  required : ∀ field ∈ format.fields, field.required = true → (field.get obj).isSome = true

theorem codec_returns (compact : format.Compact) {obj : Obj} (complete : format.Complete obj) {garbage : CborValue}
    {length : Nat} {bytes : List UInt8} (encoded : (format.codec garbage).encode obj length = some bytes) :
    (format.codec garbage).decode bytes = (false, obj) ∧ bytes.length ≤ format.overhead + format.stringBytes obj ∧
      bytes ≠ [] := by
  change format.encode obj (length % 2 ^ 32) = some bytes at encoded
  rw [encode_eq compact.lawful] at encoded
  split at encoded
  · cases encoded
    have sized : format.Sized (2 ^ 64) obj := by
      intro field member item held content is
      have bound := complete.sized field member item held content is
      omega
    have decoded := decode_wire compact.lawful complete.typed sized complete.required compact.same garbage
    have upper := wire_length_le compact.lawful complete.required complete.typed complete.sized compact.short
    have lower := stringBytes_lt compact.lawful complete.required
    refine ⟨?_, upper, List.ne_nil_of_length_pos (by omega)⟩
    simp only [Format.codec, decoded]
    rfl
  · cases encoded

theorem codec_encodes (lawful : format.Lawful) (short : format.fields.length < 23) {obj : Obj}
    (complete : format.Complete obj) (garbage : CborValue) {length : Nat}
    (room : format.overhead + format.stringBytes obj ≤ length) (narrow : length < 2 ^ 32) :
    ∃ bytes, (format.codec garbage).encode obj length = some bytes := by
  have upper := wire_length_le lawful complete.required complete.typed complete.sized short
  refine ⟨format.wire obj, ?_⟩
  change format.encode obj (length % 2 ^ 32) = _
  rw [encode_eq lawful, Nat.mod_eq_of_lt narrow, if_pos ⟨complete.valid, by omega⟩]

theorem payload_size {obj : Obj} (garbage : CborValue) (small : format.base + format.stringBytes obj < 2 ^ 32) :
    (format.codec garbage).getMaxPayloadInBytes obj = format.base + format.stringBytes obj := Nat.mod_eq_of_lt small

end Codecs

theorem PairingStep1.format_compact : PairingStep1.format.Compact := ⟨format_lawful, rfl, by decide, by decide⟩

theorem PairingStep2.format_compact : PairingStep2.format.Compact := ⟨format_lawful, rfl, by decide, by decide⟩

theorem PairingStep3.format_compact : PairingStep3.format.Compact := ⟨format_lawful, rfl, by decide, by decide⟩

theorem PairingStep4.format_compact : PairingStep4.format.Compact := ⟨format_lawful, rfl, by decide, by decide⟩

theorem PairingCommit.format_compact : PairingCommit.format.Compact := ⟨format_lawful, rfl, by decide, by decide⟩

theorem setBytes_some {bytes : List UInt8} (filled : bytes ≠ []) : setBytes bytes = some bytes := if_neg filled

theorem nonce_filled (nonce : Nonce) : nonce.toList ≠ [] := by
  intro empty
  have size := congrArg List.length empty
  simp at size

theorem copyNonce_toList (nonce : Nonce) : copyNonce nonce.toList = nonce := by
  apply Vector.ext
  intro i bound
  simp [copyNonce]

/-- What `ig_pairing_step4` keeps of a pairing: nothing is empty, and the zone is that of a client
    that has named none. -/
structure PairingServer.Settled (server : PairingServer) : Prop where
  pinKey : server.pairingPinKey.length = igPinKeyLength
  password : server.pairingPassword.length = igPasswordLength
  positive : 0 < server.pairingMasterPinLength
  most : server.pairingMasterPinLength ≤ igMasterPinMaxLength
  held : server.pairingMasterPinLength ≤ server.pairingMasterPin.length
  gmtOffset : server.pairingGmtOffset = 0

theorem PairingServer.Settled.masterPin_length {server : PairingServer} (settled : server.Settled) :
    (server.pairingMasterPin.take server.pairingMasterPinLength).length = server.pairingMasterPinLength := by
  rw [List.length_take, Nat.min_eq_left settled.held]

theorem PairingServer.Settled.masterPin_filled {server : PairingServer} (settled : server.Settled) :
    server.pairingMasterPin.take server.pairingMasterPinLength ≠ [] := by
  intro empty
  have size := settled.masterPin_length
  rw [empty] at size
  exact absurd size (Nat.ne_of_lt settled.positive)

theorem PairingServer.Settled.step4_eq {server : PairingServer} (settled : server.Settled) :
    setIgStep4 server = {
      success := some true
      pinKey := some server.pairingPinKey
      password := some server.pairingPassword
      masterPin := some (server.pairingMasterPin.take server.pairingMasterPinLength)
      gmtOffset := some 0 } := by
  have pinKey : server.pairingPinKey ≠ [] := List.ne_nil_of_length_eq_add_one settled.pinKey
  have password : server.pairingPassword ≠ [] := List.ne_nil_of_length_eq_add_one settled.password
  rw [setIgStep4, setBytes_some pinKey, setBytes_some password, setBytes_some settled.masterPin_filled, settled.gmtOffset]

section Messages

theorem step1_complete {publicKey : List UInt8} (size : publicKey.length = igKeyExchangePublicLength) :
    PairingStep1.format.Complete ⟨some publicKey⟩ ∧ PairingStep1.format.stringBytes ⟨some publicKey⟩ = 64 := by
  have filled : publicKey ≠ [] := List.ne_nil_of_length_eq_add_one size
  simp only [igKeyExchangePublicLength] at size
  refine ⟨⟨⟨rfl, ?_, ?_⟩, ?_⟩, ?_⟩
  · simpa [Format.WellTyped, PairingStep1.format, bytesField, FieldType.admits] using filled
  · simp [Format.Sized, itemSized, PairingStep1.format, bytesField, size]
  · simp [PairingStep1.format, bytesField]
  · simp [Format.stringBytes, PairingStep1.format, bytesField, itemBytes, bytesSize, size]

theorem step2_complete {publicKey : List UInt8} (size : publicKey.length = igKeyExchangePublicLength) (nonce : Nonce) :
    PairingStep2.format.Complete ⟨some publicKey, some nonce.toList⟩ ∧
      PairingStep2.format.stringBytes ⟨some publicKey, some nonce.toList⟩ = 76 := by
  have filled : publicKey ≠ [] := List.ne_nil_of_length_eq_add_one size
  simp only [igKeyExchangePublicLength] at size
  refine ⟨⟨⟨rfl, ?_, ?_⟩, ?_⟩, ?_⟩
  · simpa [Format.WellTyped, PairingStep2.format, bytesField, FieldType.admits] using filled
  · simp [Format.Sized, itemSized, PairingStep2.format, bytesField, size]
  · simp [PairingStep2.format, bytesField]
  · simp [Format.stringBytes, PairingStep2.format, bytesField, itemBytes, bytesSize, size]

theorem step3_complete (nonce : Nonce) :
    PairingStep3.format.Complete { nonce := some nonce.toList } ∧
      PairingStep3.format.stringBytes { nonce := some nonce.toList } = 12 := by
  refine ⟨⟨⟨rfl, ?_, ?_⟩, ?_⟩, ?_⟩
  · simp [Format.WellTyped, PairingStep3.format, bytesField, int32Field, FieldType.admits]
  · simp [Format.Sized, itemSized, PairingStep3.format, bytesField, int32Field]
  · simp [PairingStep3.format, bytesField, int32Field]
  · simp [Format.stringBytes, PairingStep3.format, bytesField, int32Field, itemBytes, bytesSize]

theorem step4_complete {pinKey password masterPin : List UInt8} (pinKeySize : pinKey.length = igPinKeyLength)
    (passwordSize : password.length = igPasswordLength) (positive : masterPin ≠ [])
    (most : masterPin.length ≤ igMasterPinMaxLength) {zone : Int} (narrow : -2 ^ 31 ≤ zone ∧ zone < 2 ^ 31) :
    PairingStep4.format.Complete ⟨some true, some masterPin, some pinKey, some zone, some password⟩ ∧
      PairingStep4.format.stringBytes ⟨some true, some masterPin, some pinKey, some zone, some password⟩ =
        24 + masterPin.length := by
  have filled : pinKey ≠ [] := List.ne_nil_of_length_eq_add_one pinKeySize
  have filled' : password ≠ [] := List.ne_nil_of_length_eq_add_one passwordSize
  simp only [igPinKeyLength, igPasswordLength, igMasterPinMaxLength] at pinKeySize passwordSize most
  refine ⟨⟨⟨rfl, ?_, ?_⟩, ?_⟩, ?_⟩
  · simpa [Format.WellTyped, PairingStep4.format, booleanField, bytesField, int32Field, FieldType.admits]
      using ⟨positive, filled, narrow, filled'⟩
  · simp [Format.Sized, itemSized, PairingStep4.format, booleanField, bytesField, int32Field]
    omega
  · simp [PairingStep4.format, booleanField, bytesField, int32Field]
  · simp [Format.stringBytes, PairingStep4.format, booleanField, bytesField, int32Field, itemBytes, bytesSize, pinKeySize,
      passwordSize]
    omega

theorem commit_complete (currentTime : Int) :
    PairingCommit.format.Complete ⟨some (currentTime % 2 ^ 32).toNat⟩ ∧
      PairingCommit.format.stringBytes ⟨some (currentTime % 2 ^ 32).toNat⟩ = 0 := by
  have bound : (currentTime % 2 ^ 32).toNat < 2 ^ 32 := by omega
  refine ⟨⟨⟨rfl, ?_, ?_⟩, ?_⟩, ?_⟩
  · simp only [Format.WellTyped, PairingCommit.format, uintField, List.forall_mem_cons, FieldType.admits]
    refine ⟨?_, by simp⟩
    rintro item ⟨⟩
    exact ⟨_, rfl, bound⟩
  · simp [Format.Sized, itemSized, PairingCommit.format, uintField]
  · simp [PairingCommit.format, uintField]
  · simp [Format.stringBytes, PairingCommit.format, uintField, itemBytes, bytesSize]

variable {lib : PairingLib} (generated : lib.Generated) {length : Nat} {bytes : List UInt8}
include generated

theorem step1_returns {publicKey : List UInt8} (size : publicKey.length = igKeyExchangePublicLength)
    (encoded : lib.step1.encode ⟨some publicKey⟩ length = some bytes) :
    lib.step1.decode bytes = (false, ⟨some publicKey⟩) := by
  obtain ⟨garbage, real⟩ := generated.step1
  rw [real] at encoded ⊢
  exact (codec_returns PairingStep1.format_compact (step1_complete size).1 encoded).1

theorem step1_length {publicKey : List UInt8} (size : publicKey.length = igKeyExchangePublicLength)
    (encoded : lib.step1.encode ⟨some publicKey⟩ length = some bytes) : bytes.length = 70 := by
  obtain ⟨garbage, real⟩ := generated.step1
  rw [real] at encoded
  change PairingStep1.format.encode ⟨some publicKey⟩ (length % 2 ^ 32) = some bytes at encoded
  rw [encode_eq PairingStep1.format_lawful] at encoded
  split at encoded
  · have wire : PairingStep1.format.wire ⟨some publicKey⟩ =
        [0xa2, 0x00, 0x01, 0x0b] ++ (numberBytes (publicKey.length % 2 ^ 64) 2 ++ publicKey ++ []) := rfl
    have header : (numberBytes (igKeyExchangePublicLength % 2 ^ 64) 2).length = 2 := rfl
    rw [← Option.some.inj encoded, wire, List.append_nil, List.length_append, List.length_append, size, header]
    rfl
  · cases encoded

theorem step2_returns {publicKey : List UInt8} (size : publicKey.length = igKeyExchangePublicLength) {nonce : Nonce}
    (encoded : lib.step2.encode ⟨some publicKey, some nonce.toList⟩ length = some bytes) :
    lib.step2.decode bytes = (false, ⟨some publicKey, some nonce.toList⟩) ∧ bytes ≠ [] := by
  obtain ⟨garbage, real⟩ := generated.step2
  rw [real] at encoded ⊢
  obtain ⟨decoded, _, filled⟩ := codec_returns PairingStep2.format_compact (step2_complete size nonce).1 encoded
  exact ⟨decoded, filled⟩

theorem step3_returns {nonce : Nonce} (encoded : lib.step3.encode { nonce := some nonce.toList } length = some bytes) :
    lib.step3.decode bytes = (false, { nonce := some nonce.toList }) ∧ bytes.length ≤ 246 := by
  obtain ⟨garbage, real⟩ := generated.step3
  rw [real] at encoded ⊢
  obtain ⟨complete, size⟩ := step3_complete nonce
  obtain ⟨decoded, short, _⟩ := codec_returns PairingStep3.format_compact complete encoded
  have overhead : PairingStep3.format.overhead = 39 := rfl
  exact ⟨decoded, by omega⟩

theorem step4_returns {pinKey password masterPin : List UInt8} (pinKeySize : pinKey.length = igPinKeyLength)
    (passwordSize : password.length = igPasswordLength) (positive : masterPin ≠ [])
    (most : masterPin.length ≤ igMasterPinMaxLength) {zone : Int} (narrow : -2 ^ 31 ≤ zone ∧ zone < 2 ^ 31)
    (encoded : lib.step4.encode ⟨some true, some masterPin, some pinKey, some zone, some password⟩ length = some bytes) :
    lib.step4.decode bytes = (false, ⟨some true, some masterPin, some pinKey, some zone, some password⟩) ∧
      bytes.length ≤ 53 + masterPin.length := by
  obtain ⟨garbage, real⟩ := generated.step4
  rw [real] at encoded ⊢
  obtain ⟨complete, size⟩ := step4_complete pinKeySize passwordSize positive most narrow
  obtain ⟨decoded, short, _⟩ := codec_returns PairingStep4.format_compact complete encoded
  have overhead : PairingStep4.format.overhead = 29 := rfl
  exact ⟨decoded, by omega⟩

theorem commit_returns {currentTime : Int}
    (encoded : lib.commit.encode ⟨some (currentTime % 2 ^ 32).toNat⟩ length = some bytes) :
    lib.commit.decode bytes = (false, ⟨some (currentTime % 2 ^ 32).toNat⟩) ∧ bytes.length ≤ 246 := by
  obtain ⟨garbage, real⟩ := generated.commit
  rw [real] at encoded ⊢
  obtain ⟨complete, size⟩ := commit_complete currentTime
  obtain ⟨decoded, short, _⟩ := codec_returns PairingCommit.format_compact complete encoded
  have overhead : PairingCommit.format.overhead = 9 := rfl
  exact ⟨decoded, by omega⟩

theorem step1_encodes {publicKey : List UInt8} (size : publicKey.length = igKeyExchangePublicLength) :
    ∃ bytes, lib.step1.encode ⟨some publicKey⟩ (lib.step1.getMaxPayloadInBytes ⟨some publicKey⟩) = some bytes := by
  obtain ⟨garbage, real⟩ := generated.step1
  obtain ⟨complete, strings⟩ := step1_complete size
  have base : PairingStep1.format.base = 20 := rfl
  have overhead : PairingStep1.format.overhead ≤ 20 := by decide
  rw [real, payload_size garbage (by omega)]
  exact codec_encodes PairingStep1.format_lawful (by decide) complete garbage (by omega) (by omega)

theorem step2_encodes {publicKey : List UInt8} (size : publicKey.length = igKeyExchangePublicLength) (nonce : Nonce)
    (room : 103 ≤ length) (narrow : length < 2 ^ 32) :
    lib.step2.getMaxPayloadInBytes ⟨some publicKey, some nonce.toList⟩ = 103 ∧
      ∃ bytes, lib.step2.encode ⟨some publicKey, some nonce.toList⟩ length = some bytes := by
  obtain ⟨garbage, real⟩ := generated.step2
  obtain ⟨complete, strings⟩ := step2_complete size nonce
  have base : PairingStep2.format.base = 27 := rfl
  have overhead : PairingStep2.format.overhead ≤ 27 := by decide
  rw [real, payload_size garbage (by omega)]
  exact ⟨by omega, codec_encodes PairingStep2.format_lawful (by decide) complete garbage (by omega) narrow⟩

theorem step3_encodes (nonce : Nonce) : ∃ bytes, lib.step3.encode { nonce := some nonce.toList }
    (lib.step3.getMaxPayloadInBytes { nonce := some nonce.toList }) = some bytes := by
  obtain ⟨garbage, real⟩ := generated.step3
  obtain ⟨complete, strings⟩ := step3_complete nonce
  have base : PairingStep3.format.base = 54 := rfl
  have overhead : PairingStep3.format.overhead ≤ 54 := by decide
  rw [real, payload_size garbage (by omega)]
  exact codec_encodes PairingStep3.format_lawful (by decide) complete garbage (by omega) (by omega)

theorem step4_encodes {pinKey password masterPin : List UInt8} (pinKeySize : pinKey.length = igPinKeyLength)
    (passwordSize : password.length = igPasswordLength) (positive : masterPin ≠ [])
    (most : masterPin.length ≤ igMasterPinMaxLength) {zone : Int} (narrow : -2 ^ 31 ≤ zone ∧ zone < 2 ^ 31) :
    lib.step4.getMaxPayloadInBytes ⟨some true, some masterPin, some pinKey, some zone, some password⟩ =
      66 + masterPin.length ∧
    ∃ bytes, lib.step4.encode ⟨some true, some masterPin, some pinKey, some zone, some password⟩
      (lib.step4.getMaxPayloadInBytes ⟨some true, some masterPin, some pinKey, some zone, some password⟩) =
        some bytes := by
  obtain ⟨garbage, real⟩ := generated.step4
  obtain ⟨complete, strings⟩ := step4_complete pinKeySize passwordSize positive most narrow
  have base : PairingStep4.format.base = 42 := rfl
  have overhead : PairingStep4.format.overhead ≤ 42 := by decide
  have limit : igMasterPinMaxLength = 10 := rfl
  rw [real, payload_size garbage (by omega)]
  exact ⟨by omega, codec_encodes PairingStep4.format_lawful (by decide) complete garbage (by omega) (by omega)⟩

theorem commit_encodes (currentTime : Int) : ∃ bytes, lib.commit.encode ⟨some (currentTime % 2 ^ 32).toNat⟩
    (lib.commit.getMaxPayloadInBytes ⟨some (currentTime % 2 ^ 32).toNat⟩) = some bytes := by
  obtain ⟨garbage, real⟩ := generated.commit
  obtain ⟨complete, strings⟩ := commit_complete currentTime
  have base : PairingCommit.format.base = 19 := rfl
  have overhead : PairingCommit.format.overhead ≤ 19 := by decide
  rw [real, payload_size garbage (by omega)]
  exact codec_encodes PairingCommit.format_lawful (by decide) complete garbage (by omega) (by omega)

end Messages

section Calls

variable {lib : PairingLib}

theorem encryptData_some {ccm : Ccm} {plain bytes : List UInt8} {length keyLen nonceLen : Nat} {key : Key} {nonce : Nonce}
    (sealed : encryptData ccm plain length key keyLen nonce nonceLen = some bytes) : bytes = ccm.seal key nonce plain := by
  unfold encryptData at sealed
  repeat' split at sealed
  all_goals cases sealed
  rfl

theorem seal_some {client client' : PairingClient} {plaintext : Option (List UInt8)} {bytes : List UInt8}
    (sealed : client.seal lib plaintext = (client', some bytes)) :
    ∃ plain, plaintext = some plain ∧ bytes = lib.ccm.seal client.sharedKey_ client.txNonce_ plain ∧
      client' = { client with txNonce_ := incrementNonce client.txNonce_ } := by
  cases plaintext with
  | none => cases sealed
  | some plain =>
    obtain ⟨rfl, encrypted⟩ := Prod.mk.inj sealed
    exact ⟨plain, rfl, encryptData_some encrypted, rfl⟩

theorem serverGenPairingStep2_ok {time : Int} {entropy step2Len : Nat} {server server' : PairingServer}
    {step1Bytes step2Bytes : List UInt8}
    (done : serverGenPairingStep2 lib time entropy server step1Bytes step2Len = (server', .ok step2Bytes)) :
    ∃ publicKey privateKey secret, lib.makeKey entropy = some (publicKey, privateKey) ∧
      lib.step2.encode ⟨setBytes publicKey, setBytes server'.serverNonce.toList⟩ step2Len = some step2Bytes ∧
      lib.sharedSecret ((lib.step1.decode step1Bytes).2.publicKey.getD []) privateKey = some secret ∧
      server' = { server with
        clientPairingPublicKey := (lib.step1.decode step1Bytes).2.publicKey.getD []
        serverNonce := generateRandomNonce lib.libc time kNonceLength
        serverPairingPublicKey := publicKey
        serverPairingPrivateKey := privateKey
        serverPairingAdminKey := copyKey secret } := by
  unfold serverGenPairingStep2 at done
  simp only at done
  split at done
  · cases done
  · split at done
    · cases done
    · split at done
      · cases done
      · rename_i publicKey privateKey made
        split at done
        · cases done
        · split at done
          · cases done
          · rename_i encoded
            split at done
            · cases done
            · rename_i secret shared
              cases done
              exact ⟨publicKey, privateKey, secret, made, encoded, shared, rfl⟩

theorem acceptStep2_ok {client client' : PairingClient} {bytes : List UInt8}
    (done : client.acceptStep2 lib bytes = (client', true)) : ∃ secret,
    lib.sharedSecret ((lib.step2.decode bytes).2.publicKey.getD []) client.privateKey_ = some secret ∧
    client' = { client with
      txNonce_ := copyNonce ((lib.step2.decode bytes).2.nonce.getD [])
      otherPublicKey_ := (lib.step2.decode bytes).2.publicKey.getD []
      sharedKey_ := copyKey secret } := by
  unfold PairingClient.acceptStep2 at done
  simp only at done
  split at done
  · cases done
  · split at done
    · cases done
    · split at done
      · cases done
      · rename_i secret shared
        cases done
        exact ⟨secret, shared, rfl⟩

theorem genPairingStep3_ok {client client' : PairingClient} {bytes step3Bytes : List UInt8}
    (done : genPairingStep3Native lib client bytes = (client', some step3Bytes)) : ∃ accepted plain,
    client.acceptStep2 lib bytes = (accepted, true) ∧
    lib.step3.encode { nonce := setBytes accepted.rxNonce_.toList }
      (lib.step3.getMaxPayloadInBytes { nonce := setBytes accepted.rxNonce_.toList }) = some plain ∧
    step3Bytes = lib.ccm.seal accepted.sharedKey_ accepted.txNonce_ plain ∧
    client' = { accepted with txNonce_ := incrementNonce accepted.txNonce_ } := by
  cases step2 : client.acceptStep2 lib bytes with
  | mk accepted fine =>
    cases fine with
    | false =>
      simp only [genPairingStep3Native, step2, Bool.not_false, if_true] at done
      cases done
    | true =>
      simp only [genPairingStep3Native, step2, Bool.not_true, Bool.false_eq_true, if_false] at done
      obtain ⟨plain, encoded, rfl, rfl⟩ := seal_some done
      exact ⟨accepted, plain, rfl, encoded, rfl, rfl⟩

/-- What a step 3 with a nonce and nothing else makes of the server. -/
def PairingServer.settle (lib : PairingLib) (times : SetterTimes) (nonce : List UInt8) (server : PairingServer) : PairingServer :=
  { server with
    pairingPinKey := genRandomVector lib times.pinKey igPinKeyLength
    pairingPassword := genRandomVector lib times.password igPasswordLength
    pairingMasterPinLength := igMasterPinDefaultLength
    pairingMasterPin := overwrite server.pairingMasterPin 0
      ((genRandomVector lib times.masterPin igMasterPinDefaultLength).map fun byte => byte % 10 + 0x30)
    clientNonce := copyNonce nonce
    pairingGmtOffset := 0
    pairingDstLen := 0 }

theorem settle_settled (sized : lib.Sized) (times : SetterTimes) (nonce : List UInt8) (server : PairingServer) :
    (server.settle lib times nonce).Settled := by
  have drawn : ∀ time size, (genRandomVector lib time size).length = size := fun _ size => sized.hmacDrbg _ _ _ size
  have positive : 0 < igMasterPinDefaultLength := by decide
  have most : igMasterPinDefaultLength ≤ igMasterPinMaxLength := by decide
  refine ⟨drawn _ _, drawn _ _, positive, most, ?_, rfl⟩
  simp [PairingServer.settle, overwrite, drawn]

theorem igPairingStep4_plain {times : SetterTimes} {server : PairingServer} {frame plain nonce : List UInt8} {len : Nat}
    (opened : decryptClientData lib server frame = .plain plain)
    (decoded : (lib.step3.decode plain).2 = { nonce := some nonce }) (size : nonce.length = kNonceLength) :
    igPairingStep4 lib times server frame len =
      let server := (incrementServerNonce server).settle lib times nonce
      if len < lib.step4.getMaxPayloadInBytes (setIgStep4 server) then some (server, .dataTooShort, none)
      else match lib.step4.encode (setIgStep4 server) (lib.step4.getMaxPayloadInBytes (setIgStep4 server)) with
      | none => some (server, .genericFail, none)
      | some step4 => some (server, .none, some (encryptData lib.ccm step4 len server.serverPairingAdminKey
          kConnectionKeyLength server.clientNonce kNonceLength)) := by
  have taken : step3Refused { nonce := some nonce } = false := by
    simp [step3Refused, PairingStep3.isValid, bytesSize, size]
  simp only [igPairingStep4, opened, decoded, taken, Bool.false_eq_true, if_false]
  rfl

theorem igPairingStep4_ok {times : SetterTimes} {server server' : PairingServer} {frame plain nonce step4Bytes : List UInt8}
    {len : Nat} {err : IgErrorCode} (opened : decryptClientData lib server frame = .plain plain)
    (decoded : (lib.step3.decode plain).2 = { nonce := some nonce }) (size : nonce.length = kNonceLength)
    (done : igPairingStep4 lib times server frame len = some (server', err, some (some step4Bytes))) :
    server' = (incrementServerNonce server).settle lib times nonce ∧ ∃ step4,
      lib.step4.encode (setIgStep4 server') (lib.step4.getMaxPayloadInBytes (setIgStep4 server')) = some step4 ∧
      step4Bytes = lib.ccm.seal server'.serverPairingAdminKey server'.clientNonce step4 := by
  rw [igPairingStep4_plain opened decoded size] at done
  simp only at done
  split at done
  · cases done
  · split at done
    · cases done
    · rename_i step4 encoded
      simp only [Option.some.injEq, Prod.mk.injEq] at done
      obtain ⟨rfl, _, sealed⟩ := done
      exact ⟨rfl, step4, encoded, encryptData_some sealed⟩

theorem igCommitPairing_ok {server server' : PairingServer} {frame : List UInt8} {result : IgPairingResult}
    (done : igCommitPairing lib server frame = some (server', .ok result)) : ∃ plain currentTime,
    decryptClientData lib server frame = .plain plain ∧
    (lib.commit.decode plain).2.currentTime = some currentTime ∧
    server' = { server with serverNonce := incrementNonce server.serverNonce } ∧
    result = {
      adminKey := server.serverPairingAdminKey
      pinKey := server.pairingPinKey
      password := server.pairingPassword
      masterPinLength := server.pairingMasterPinLength
      masterPin := server.pairingMasterPin.take server.pairingMasterPinLength
      currentTime := currentTime
      gmtOffset := server.pairingGmtOffset
      dstLength := server.pairingDstLen
      dst := server.pairingDst } := by
  unfold igCommitPairing at done
  split at done
  · cases done
  · cases done
  · rename_i plain opened
    simp only at done
    split at done
    · cases done
    · rename_i currentTime decoded
      cases done
      exact ⟨plain, currentTime, opened, decoded, rfl, rfl⟩

end Calls

/-- A message that one side has made under this key and nonce, of bytes that the other can read. With its
    tag it fits a frame with a header of one byte. -/
def Carries {Message : Type} (ccm : Ccm) (codec : Codec Message) (key : Key) (nonce : Nonce) (bytes : List UInt8)
    (message : Message) : Prop :=
  ∃ plain, bytes = ccm.seal key nonce plain ∧ plain.length ≤ 246 ∧ codec.decode plain = (false, message)

theorem carried {Message : Type} {ccm : Ccm} (inverts : ccm.Inverts) {codec : Codec Message} {key : Key} {nonce : Nonce}
    {bytes : List UInt8} {message : Message} (carries : Carries ccm codec key nonce bytes message) :
    ∃ plain, decryptMessage ccm bytes key nonce = .plain plain ∧ codec.decode plain = (false, message) := by
  obtain ⟨plain, rfl, short, decoded⟩ := carries
  refine ⟨plain, ?_, decoded⟩
  have size := ccm.seal_length key nonce plain
  rw [decryptMessage_of_tagged ccm (by omega) (by omega), ccm.unseal_seal inverts]

theorem Carries.framed {Message : Type} {ccm : Ccm} {codec : Codec Message} {key : Key} {nonce : Nonce}
    {bytes : List UInt8} {message : Message} (carries : Carries ccm codec key nonce bytes message) :
    bytes.length ≤ 254 := by
  obtain ⟨plain, rfl, short, _⟩ := carries
  rw [ccm.seal_length]
  omega

section Succeeds

variable {lib : PairingLib} (generated : lib.Generated)
include generated

theorem genPairingStep1_succeeds {client : PairingClient}
    (size : client.publicKey_.length = igKeyExchangePublicLength) : ∃ bytes,
    genPairingStep1Native lib client = some bytes ∧ lib.step1.decode bytes = (false, ⟨some client.publicKey_⟩) := by
  have filled : client.publicKey_ ≠ [] := List.ne_nil_of_length_eq_add_one size
  obtain ⟨bytes, encoded⟩ := step1_encodes generated size
  refine ⟨bytes, ?_, step1_returns generated size encoded⟩
  simp only [genPairingStep1Native, setBytes_some filled, encoded]

theorem serverGenPairingStep2_succeeds (sized : lib.Sized) (time : Int) {entropy step2Len : Nat} (server : PairingServer)
    {step1Bytes publicKey publicKey' privateKey' secret : List UInt8}
    (decoded : lib.step1.decode step1Bytes = (false, ⟨some publicKey⟩))
    (size : publicKey.length = igKeyExchangePublicLength) (made : lib.makeKey entropy = some (publicKey', privateKey'))
    (shared : lib.sharedSecret publicKey privateKey' = some secret) (room : 103 ≤ step2Len)
    (narrow : step2Len < 2 ^ 32) : ∃ server' step2Bytes,
    serverGenPairingStep2 lib time entropy server step1Bytes step2Len = (server', .ok step2Bytes) := by
  have size' := sized.publicKey _ _ _ made
  have filled : publicKey' ≠ [] := List.ne_nil_of_length_eq_add_one size'
  -- the nonce is drawn at the length kNonceLength, which has to be seen as 12
  let nonce : Nonce := generateRandomNonce lib.libc time kNonceLength
  have drawn : setBytes nonce.toList = some nonce.toList := setBytes_some (nonce_filled nonce)
  obtain ⟨payload, encoded⟩ : lib.step2.getMaxPayloadInBytes ⟨some publicKey', some nonce.toList⟩ = 103 ∧
      ∃ bytes, lib.step2.encode ⟨some publicKey', some nonce.toList⟩ step2Len = some bytes :=
    step2_encodes generated size' nonce room narrow
  obtain ⟨step2Bytes, encoded⟩ := encoded
  have fits : ¬step2Len < 103 := by omega
  simp only [serverGenPairingStep2, decoded, PairingStep1.isValid, Option.isSome_some, Bool.not_true, Bool.or_self,
    Bool.false_eq_true, if_false, bytesSize, Option.getD_some, size, ne_eq, not_true_eq_false, made, setBytes_some filled,
    drawn, payload, fits, encoded, shared, nonce]
  exact ⟨_, _, rfl⟩

theorem genPairingStep3_succeeds {client : PairingClient} {bytes publicKey secret : List UInt8} {nonce : Nonce}
    (filled : bytes ≠ []) (decoded : lib.step2.decode bytes = (false, ⟨some publicKey, some nonce.toList⟩))
    (size : publicKey.length = igKeyExchangePublicLength)
    (shared : lib.sharedSecret publicKey client.privateKey_ = some secret) :
    ∃ client' step3, genPairingStep3Native lib client bytes = (client', some step3) := by
  have taken : step2Refused false ⟨some publicKey, some nonce.toList⟩ = false := by
    simp [step2Refused, PairingStep2.isValid, bytesSize, size, kNonceLength]
  have accepted : ∃ client', client.acceptStep2 lib bytes = (client', true) ∧ client'.rxNonce_ = client.rxNonce_ := by
    simp only [PairingClient.acceptStep2, if_neg filled, decoded, taken, Bool.false_eq_true, if_false, Option.getD_some,
      shared]
    exact ⟨_, rfl, rfl⟩
  obtain ⟨client', accepted, rx⟩ := accepted
  obtain ⟨plain, encoded⟩ := step3_encodes generated client'.rxNonce_
  have short := (step3_returns generated encoded).2
  simp only [genPairingStep3Native, accepted, Bool.not_true, Bool.false_eq_true, if_false,
    setBytes_some (nonce_filled _), encoded, PairingClient.seal, encryptMessage_eq, if_pos (by omega : plain.length ≤ 4096)]
  exact ⟨_, _, rfl⟩

theorem igPairingStep4_succeeds (sized : lib.Sized) (times : SetterTimes) {server : PairingServer} {frame plain : List UInt8}
    {nonce : Nonce} {len : Nat} (opened : decryptClientData lib server frame = .plain plain)
    (decoded : (lib.step3.decode plain).2 = { nonce := some nonce.toList }) (room : 74 ≤ len) : ∃ server' step4,
    igPairingStep4 lib times server frame len = some (server', .none, some (some step4)) := by
  have settled := settle_settled sized times nonce.toList (incrementServerNonce server)
  have masterPin : ((incrementServerNonce server).settle lib times nonce.toList).pairingMasterPinLength = 8 := rfl
  have length := settled.masterPin_length
  rw [masterPin] at length
  have limit : igMasterPinMaxLength = 10 := rfl
  have zone : -2 ^ 31 ≤ (0 : Int) ∧ (0 : Int) < 2 ^ 31 := by decide
  obtain ⟨payload, step4, encoded⟩ := step4_encodes generated settled.pinKey settled.password settled.masterPin_filled
    (by rw [masterPin]; omega) zone
  have short := (step4_returns generated settled.pinKey settled.password settled.masterPin_filled
    (by rw [masterPin]; omega) zone encoded).2
  rw [masterPin] at payload short
  have size : encryptDataSize step4.length = step4.length + 8 := encryptDataSize_of_short (by omega)
  rw [← settled.step4_eq] at encoded
  have fits : ¬len < lib.step4.getMaxPayloadInBytes
      (setIgStep4 ((incrementServerNonce server).settle lib times nonce.toList)) := by
    rw [settled.step4_eq, masterPin, payload]
    omega
  have brief : ¬4096 < step4.length := by omega
  have held : ¬len < encryptDataSize step4.length := by omega
  rw [igPairingStep4_plain opened decoded nonce.length_toList]
  simp only [if_neg fits, encoded, encryptData, if_neg brief, if_neg held, kConnectionKeyLength]
  exact ⟨_, _, rfl⟩

theorem genPairingCommit_succeeds (currentTime : Int) (client : PairingClient) :
    ∃ client' bytes, genPairingCommitNative lib currentTime client = (client', some bytes) := by
  obtain ⟨plain, encoded⟩ := commit_encodes generated currentTime
  have short := (commit_returns generated encoded).2
  simp only [genPairingCommitNative, encoded, PairingClient.seal, encryptMessage_eq,
    if_pos (by omega : plain.length ≤ 4096)]
  exact ⟨_, _, rfl⟩

end Succeeds

end Bridge
