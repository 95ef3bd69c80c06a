import Bridge.Messages.Typed
import Bridge.Connection.Limits
import Bridge.WifiService.Agreement

namespace Bridge

def PairingServer.keep (lib : PairingLib) (times : SetterTimes) (step3 : PairingStep3) (server : PairingServer) :
    PairingServer :=
  let server := setPairingPinKey lib times.pinKey step3 server
  let server := setPairingPassword lib times.password step3 server
  let server := setMasterPin lib times.masterPin step3 server
  let server := setClientNonce step3 server
  let server := setGmtOffset step3 server
  (setDstTimes step3 server).getD server

/-- The static arrays have the sizes that they are declared with. -/
structure PairingServer.Arrays (server : PairingServer) : Prop where
  pinKey : server.pairingPinKey.length = igPinKeyLength
  password : server.pairingPassword.length = igPasswordLength
  masterPin : server.pairingMasterPin.length = igMasterPinMaxLength
  dst : server.pairingDst.length = kDstArrayLen

theorem PairingServer.Arrays.moved {server : PairingServer} (arrays : server.Arrays) : (incrementServerNonce server).Arrays :=
  ⟨arrays.pinKey, arrays.password, arrays.masterPin, arrays.dst⟩

theorem PairingServer.zero_arrays : PairingServer.zero.Arrays :=
  ⟨List.length_replicate, List.length_replicate, List.length_replicate, List.length_replicate⟩

structure PairingSecrets where
  pinKey : List UInt8
  password : List UInt8
  masterPinLength : Nat
  masterPin : List UInt8
  gmtOffset : Int
  dstLength : Nat
  dst : List UInt8
deriving DecidableEq, Repr

def PairingServer.secrets (server : PairingServer) : PairingSecrets where
  pinKey := server.pairingPinKey
  password := server.pairingPassword
  masterPinLength := server.pairingMasterPinLength
  masterPin := server.pairingMasterPin.take server.pairingMasterPinLength
  gmtOffset := server.pairingGmtOffset
  dstLength := server.pairingDstLen
  dst := server.pairingDst.take server.pairingDstLen

def defaultMasterPin (lib : PairingLib) (time : Int) : List UInt8 :=
  (genRandomVector lib time igMasterPinDefaultLength).map fun byte => byte % 10 + 0x30

def PairingStep3.secrets (lib : PairingLib) (times : SetterTimes) (step3 : PairingStep3) : PairingSecrets where
  pinKey := step3.pinKey.getD (genRandomVector lib times.pinKey igPinKeyLength)
  password := step3.password.getD (genRandomVector lib times.password igPasswordLength)
  masterPinLength := (step3.masterPin.getD (defaultMasterPin lib times.masterPin)).length
  masterPin := step3.masterPin.getD (defaultMasterPin lib times.masterPin)
  gmtOffset := step3.gmtOffset.getD 0
  dstLength := (step3.dstTimes.getD []).length
  dst := step3.dstTimes.getD []

/-- The checks of `ig_pairing_step4` on a step 3 that it goes on with. -/
structure PairingStep3.Passes (step3 : PairingStep3) : Prop where
  nonce : ∃ nonce, step3.nonce = some nonce ∧ nonce.length = kNonceLength
  pinKey : ∀ pinKey, step3.pinKey = some pinKey → pinKey.length = igPinKeyLength
  password : ∀ password, step3.password = some password → password.length = igPasswordLength
  masterPin : ∀ masterPin, step3.masterPin = some masterPin →
    igMasterPinMinLength ≤ masterPin.length ∧ masterPin.length ≤ igMasterPinMaxLength

theorem step3Refused_iff (step3 : PairingStep3) : step3Refused step3 = false ↔ step3.Passes := by
  rcases step3 with ⟨nonce, masterPin, pinKey, gmtOffset, dstTimes, password⟩
  constructor
  · intro passed
    simp only [step3Refused, PairingStep3.isValid, Bool.or_eq_false_iff, Bool.and_eq_false_iff, bytesSize] at passed
    rcases passed with ⟨⟨⟨⟨⟨valid, nonceSize⟩, pinKeySize⟩, passwordSize⟩, most⟩, least⟩
    constructor
    · cases nonce with
      | none => simp at valid
      | some nonce => exact ⟨nonce, rfl, by simpa using nonceSize⟩
    · rintro pinKey ⟨⟩
      simpa using pinKeySize
    · rintro password ⟨⟩
      simpa using passwordSize
    · rintro masterPin ⟨⟩
      rcases least with absent | least
      · cases absent
      · exact ⟨Nat.le_of_not_lt (of_decide_eq_false least), by simpa using most⟩
  · rintro ⟨⟨nonce, rfl, nonceSize⟩, pinKeySize, passwordSize, masterPinSize⟩
    have pins : (masterPin.isSome && decide (bytesSize masterPin > igMasterPinMaxLength)) = false ∧
        (masterPin.isSome && decide (bytesSize masterPin < igMasterPinMinLength)) = false := by
      cases masterPin with
      | none => exact ⟨rfl, rfl⟩
      | some masterPin =>
        have bounds := masterPinSize masterPin rfl
        exact ⟨decide_eq_false (Nat.not_lt.mpr bounds.2), decide_eq_false (Nat.not_lt.mpr bounds.1)⟩
    simp only [step3Refused, pins.1, pins.2, Bool.or_false]
    cases pinKey <;> cases password <;> simp_all [PairingStep3.isValid, bytesSize]

theorem overwrite_length {block bytes : List UInt8} (fits : bytes.length ≤ block.length) :
    (overwrite block 0 bytes).length = block.length := by
  simp [overwrite]
  omega

theorem overwrite_take {block bytes : List UInt8} : (overwrite block 0 bytes).take bytes.length = bytes := by
  simp [overwrite]

theorem overwrite_whole {block bytes : List UInt8} (whole : block.length = bytes.length) : overwrite block 0 bytes = bytes := by
  rw [overwrite_tail block 0 bytes (by omega)]
  rfl

section Kept

variable {lib : PairingLib} (times : SetterTimes)

theorem defaultMasterPin_length (time : Int) (sized : lib.Sized) : (defaultMasterPin lib time).length = igMasterPinDefaultLength := by
  rw [defaultMasterPin, List.length_map]
  exact sized.hmacDrbg _ _ _ _

theorem pinKey_kept {step3 : PairingStep3} (passes : step3.Passes) {server : PairingServer} (arrays : server.Arrays) :
    setPairingPinKey lib times.pinKey step3 server = { server with pairingPinKey := (step3.secrets lib times).pinKey } := by
  unfold setPairingPinKey PairingStep3.secrets
  cases held : step3.pinKey with
  | none => rfl
  | some pinKey =>
    have whole : server.pairingPinKey.length = pinKey.length := arrays.pinKey.trans (passes.pinKey pinKey held).symm
    simp only [overwrite_whole whole, Option.getD_some]

theorem password_kept {step3 : PairingStep3} (passes : step3.Passes) {server : PairingServer} (arrays : server.Arrays) :
    setPairingPassword lib times.password step3 server = { server with pairingPassword := (step3.secrets lib times).password } := by
  unfold setPairingPassword PairingStep3.secrets
  cases held : step3.password with
  | none => rfl
  | some password =>
    have whole : server.pairingPassword.length = password.length :=
      arrays.password.trans (passes.password password held).symm
    simp only [overwrite_whole whole, Option.getD_some]

theorem masterPin_sized (sized : lib.Sized) {step3 : PairingStep3} (passes : step3.Passes) :
    igMasterPinMinLength ≤ (step3.secrets lib times).masterPinLength ∧
      (step3.secrets lib times).masterPinLength ≤ igMasterPinMaxLength := by
  unfold PairingStep3.secrets
  cases held : step3.masterPin with
  | none =>
    have size := defaultMasterPin_length times.masterPin sized
    simp only [Option.getD_none, size]
    decide
  | some masterPin => exact passes.masterPin masterPin held

theorem masterPin_kept (sized : lib.Sized) {step3 : PairingStep3} (passes : step3.Passes) (server : PairingServer) :
    setMasterPin lib times.masterPin step3 server = { server with
      pairingMasterPinLength := (step3.secrets lib times).masterPinLength
      pairingMasterPin := overwrite server.pairingMasterPin 0 (step3.secrets lib times).masterPin } := by
  unfold setMasterPin PairingStep3.secrets
  cases held : step3.masterPin with
  | none =>
    have size := defaultMasterPin_length times.masterPin sized
    simp only [Option.isSome_none, Bool.false_eq_true, false_and, if_false, Option.getD_none, size]
    rfl
  | some masterPin =>
    have bounds := passes.masterPin masterPin held
    simp [bytesSize, bounds]

end Kept

theorem dst_kept {step3 : PairingStep3} (storable : (step3.dstTimes.getD []).length ≤ kDstArrayLen) (server : PairingServer) :
    (setDstTimes step3 server).getD server = { server with
      pairingDstLen := (step3.dstTimes.getD []).length
      pairingDst := overwrite server.pairingDst 0 (step3.dstTimes.getD []) } := by
  unfold setDstTimes
  cases held : step3.dstTimes with
  | none => simp [overwrite]
  | some dstTimes =>
    rw [held] at storable
    simp only [Option.getD_some] at storable ⊢
    rw [if_pos storable, Option.getD_some]

theorem dst_refused {step3 : PairingStep3} (long : ¬(step3.dstTimes.getD []).length ≤ kDstArrayLen) (server : PairingServer) :
    (setDstTimes step3 server).getD server = server := by
  unfold setDstTimes
  cases held : step3.dstTimes with
  | none =>
    rw [held] at long
    exact absurd (Nat.zero_le _) long
  | some dstTimes =>
    rw [held] at long
    simp only [Option.getD_some] at long ⊢
    rw [if_neg long, Option.getD_none]

def PairingServer.holding (secrets : PairingSecrets) (nonce : Nonce) (server : PairingServer) : PairingServer :=
  { server with
    pairingPinKey := secrets.pinKey
    pairingPassword := secrets.password
    pairingMasterPinLength := secrets.masterPinLength
    pairingMasterPin := overwrite server.pairingMasterPin 0 secrets.masterPin
    clientNonce := nonce
    pairingGmtOffset := secrets.gmtOffset }

section Step4

variable {lib : PairingLib} (sized : lib.Sized) (times : SetterTimes) {step3 : PairingStep3} (passes : step3.Passes)
  {server : PairingServer} (arrays : server.Arrays)

section Secrets

include sized passes

theorem secrets_pinKey : (step3.secrets lib times).pinKey.length = igPinKeyLength := by
  unfold PairingStep3.secrets
  cases held : step3.pinKey with
  | none => exact sized.hmacDrbg _ _ _ _
  | some pinKey => exact passes.pinKey pinKey held

theorem secrets_password : (step3.secrets lib times).password.length = igPasswordLength := by
  unfold PairingStep3.secrets
  cases held : step3.password with
  | none => exact sized.hmacDrbg _ _ _ _
  | some password => exact passes.password password held

include arrays

theorem keep_holding : server.keep lib times step3 =
    (setDstTimes step3 (server.holding (step3.secrets lib times) (copyNonce (step3.nonce.getD [])))).getD
      (server.holding (step3.secrets lib times) (copyNonce (step3.nonce.getD []))) := by
  have pinKey : setPairingPinKey lib times.pinKey step3 server = _ := pinKey_kept times passes arrays
  have rest : ({ server with pairingPinKey := (step3.secrets lib times).pinKey } : PairingServer).Arrays :=
    ⟨secrets_pinKey sized times passes, arrays.password, arrays.masterPin, arrays.dst⟩
  have password : setPairingPassword lib times.password step3 _ = _ := password_kept times passes rest
  simp only [PairingServer.keep, pinKey, password, masterPin_kept times sized passes]
  rfl

theorem keep_storable (storable : (step3.dstTimes.getD []).length ≤ kDstArrayLen) : server.keep lib times step3 =
    { server.holding (step3.secrets lib times) (copyNonce (step3.nonce.getD [])) with
      pairingDstLen := (step3.dstTimes.getD []).length
      pairingDst := overwrite server.pairingDst 0 (step3.dstTimes.getD []) } := by
  rw [keep_holding sized times passes arrays, dst_kept storable]
  rfl

theorem keep_secrets : (server.keep lib times step3).secrets = { step3.secrets lib times with
    dstLength := (server.keep lib times step3).pairingDstLen
    dst := (server.keep lib times step3).pairingDst.take (server.keep lib times step3).pairingDstLen } := by
  by_cases storable : (step3.dstTimes.getD []).length ≤ kDstArrayLen
  · rw [keep_storable sized times passes arrays storable]
    simp only [PairingServer.secrets, PairingServer.holding, PairingSecrets.mk.injEq, and_true, true_and]
    exact overwrite_take
  · rw [keep_holding sized times passes arrays, dst_refused storable]
    simp only [PairingServer.secrets, PairingServer.holding, PairingSecrets.mk.injEq, and_true, true_and]
    exact overwrite_take

theorem keep_nonce : (server.keep lib times step3).clientNonce = copyNonce (step3.nonce.getD []) := by
  rw [keep_holding sized times passes arrays]
  unfold setDstTimes
  repeat' split
  all_goals rfl

theorem keep_step4 : setIgStep4 (server.keep lib times step3) = {
    success := some true
    pinKey := some (step3.secrets lib times).pinKey
    password := some (step3.secrets lib times).password
    masterPin := some (step3.secrets lib times).masterPin
    gmtOffset := some (step3.secrets lib times).gmtOffset } := by
  have same : setIgStep4 (server.keep lib times step3) =
      setIgStep4 (server.holding (step3.secrets lib times) (copyNonce (step3.nonce.getD []))) := by
    rw [keep_holding sized times passes arrays]
    unfold setDstTimes
    repeat' split
    all_goals rfl
  have pinKey : (step3.secrets lib times).pinKey ≠ [] :=
    List.ne_nil_of_length_eq_add_one (secrets_pinKey sized times passes)
  have password : (step3.secrets lib times).password ≠ [] :=
    List.ne_nil_of_length_eq_add_one (secrets_password sized times passes)
  have masterPin : (step3.secrets lib times).masterPin ≠ [] := by
    have least := (masterPin_sized times sized passes).1
    exact List.ne_nil_of_length_pos (Nat.lt_of_lt_of_le (by decide) least)
  rw [same, setIgStep4]
  show PairingStep4.mk _ (setBytes ((overwrite _ 0 _).take (step3.secrets lib times).masterPin.length)) _ _ _ = _
  rw [overwrite_take, setBytes_some masterPin]
  simp only [PairingServer.holding, setBytes_some pinKey, setBytes_some password]

end Secrets

theorem secrets_zone (typed : PairingStep3.format.WellTyped step3) :
    -2 ^ 31 ≤ (step3.secrets lib times).gmtOffset ∧ (step3.secrets lib times).gmtOffset < 2 ^ 31 := by
  unfold PairingStep3.secrets
  cases held : step3.gmtOffset with
  | none => simp
  | some zone =>
    have admits := typed (int32Field 15 (·.gmtOffset) fun value obj => { obj with gmtOffset := value })
      (by simp [PairingStep3.format]) (.int zone) (by simp [int32Field, held])
    rcases admits with ⟨n, ⟨⟩, bounds⟩
    exact bounds

end Step4

theorem toList_copyNonce {bytes : List UInt8} (sized : bytes.length = kNonceLength) : (copyNonce bytes).toList = bytes := by
  apply List.ext_getElem
  · rw [Vector.length_toList, sized]
    rfl
  · intro i left right
    simp [copyNonce, right]

theorem igPairingStep4_opened {lib : PairingLib} {server : PairingServer} {frame plain : List UInt8}
    (opened : decryptClientData lib server frame = .plain plain) (times : SetterTimes) (len : Nat) :
    igPairingStep4 lib times server frame len =
      if step3Refused (lib.step3.decode plain).2 then some (incrementServerNonce server, .invalidMessage, none)
      else
        let kept := (incrementServerNonce server).keep lib times (lib.step3.decode plain).2
        if len < lib.step4.getMaxPayloadInBytes (setIgStep4 kept) then some (kept, .dataTooShort, none)
        else match lib.step4.encode (setIgStep4 kept) (lib.step4.getMaxPayloadInBytes (setIgStep4 kept)) with
        | none => some (kept, .genericFail, none)
        | some step4 => some (kept, .none, some (encryptData lib.ccm step4 len kept.serverPairingAdminKey
            kConnectionKeyLength kept.clientNonce kNonceLength)) := by
  simp only [igPairingStep4, opened]
  rfl

theorem keep_key (lib : PairingLib) (times : SetterTimes) (step3 : PairingStep3) (server : PairingServer) :
    (server.keep lib times step3).serverPairingAdminKey = server.serverPairingAdminKey :=
  (setDstTimes_key step3 _).trans (stored_key lib times step3 server)

section Reply

variable {lib : PairingLib} (generated : lib.Generated)
include generated

theorem step3_typed (bytes : List UInt8) : PairingStep3.format.WellTyped (lib.step3.decode bytes).2 := by
  rcases generated.step3 with ⟨garbage, real⟩
  rw [real]
  exact codec_typed PairingStep3.format_lawful garbage bytes

theorem igPairingStep4Size_eq {server : PairingServer} (arrays : server.Arrays) : igPairingStep4Size lib server = 76 := by
  have pinKey : server.pairingPinKey ≠ [] := List.ne_nil_of_length_eq_add_one arrays.pinKey
  have password : server.pairingPassword ≠ [] := List.ne_nil_of_length_eq_add_one arrays.password
  have masterPin : server.pairingMasterPin ≠ [] := List.ne_nil_of_length_eq_add_one arrays.masterPin
  rcases generated.step4 with ⟨garbage, real⟩
  rw [igPairingStep4Size, real, setBytes_some pinKey, setBytes_some password, setBytes_some masterPin]
  simp [Format.codec, Format.getMaxPayloadInBytes, PairingStep4.format, booleanField, bytesField, int32Field, itemBytes,
    bytesSize, arrays.pinKey, arrays.password, arrays.masterPin, igPinKeyLength, igPasswordLength, igMasterPinMaxLength]

variable (sized : lib.Sized) (times : SetterTimes) {server : PairingServer} (arrays : server.Arrays) {frame plain : List UInt8}
  (passes : (lib.step3.decode plain).2.Passes)
include sized arrays passes

theorem keep_encodes :
    lib.step4.getMaxPayloadInBytes (setIgStep4 ((incrementServerNonce server).keep lib times (lib.step3.decode plain).2)) =
        66 + ((lib.step3.decode plain).2.secrets lib times).masterPinLength ∧
      ∃ step4, lib.step4.encode (setIgStep4 ((incrementServerNonce server).keep lib times (lib.step3.decode plain).2))
          (66 + ((lib.step3.decode plain).2.secrets lib times).masterPinLength) = some step4 ∧
        lib.step4.decode step4 =
          (false, setIgStep4 ((incrementServerNonce server).keep lib times (lib.step3.decode plain).2)) ∧
        step4.length ≤ 53 + ((lib.step3.decode plain).2.secrets lib times).masterPinLength := by
  have bounds := masterPin_sized times sized passes
  have pinKey := secrets_pinKey sized times passes
  have password := secrets_password sized times passes
  have zone : -2 ^ 31 ≤ ((lib.step3.decode plain).2.secrets lib times).gmtOffset ∧
      ((lib.step3.decode plain).2.secrets lib times).gmtOffset < 2 ^ 31 := secrets_zone times (step3_typed generated plain)
  have masterPin : ((lib.step3.decode plain).2.secrets lib times).masterPin ≠ [] :=
    List.ne_nil_of_length_pos (Nat.lt_of_lt_of_le (by decide) bounds.1)
  rw [keep_step4 sized times passes arrays.moved]
  rcases step4_encodes generated pinKey password masterPin bounds.2 zone with ⟨payload, step4, encoded⟩
  have returned := step4_returns generated pinKey password masterPin bounds.2 zone encoded
  rw [payload] at encoded
  exact ⟨payload, step4, encoded, returned⟩

variable (opened : decryptClientData lib server frame = .plain plain)
include opened

theorem igPairingStep4_short {len : Nat} (short : len < 66 + ((lib.step3.decode plain).2.secrets lib times).masterPinLength) :
    igPairingStep4 lib times server frame len =
      some ((incrementServerNonce server).keep lib times (lib.step3.decode plain).2, .dataTooShort, none) := by
  rcases keep_encodes generated sized times arrays passes with ⟨payload, _⟩
  rw [igPairingStep4_opened opened times len, (step3Refused_iff _).mpr passes, if_neg Bool.false_ne_true]
  simp only [payload, if_pos short]

theorem igPairingStep4_room {len : Nat} (room : 66 + ((lib.step3.decode plain).2.secrets lib times).masterPinLength ≤ len) :
    ∃ step4 size, igPairingStep4 lib times server frame len =
        some ((incrementServerNonce server).keep lib times (lib.step3.decode plain).2, .none,
          some (some (lib.ccm.seal server.serverPairingAdminKey
            ((incrementServerNonce server).keep lib times (lib.step3.decode plain).2).clientNonce step4))) ∧
      lib.step4.encode (setIgStep4 ((incrementServerNonce server).keep lib times (lib.step3.decode plain).2)) size =
        some step4 ∧
      lib.step4.decode step4 =
        (false, setIgStep4 ((incrementServerNonce server).keep lib times (lib.step3.decode plain).2)) ∧
      step4.length + 8 ≤ len := by
  rcases keep_encodes generated sized times arrays passes with ⟨payload, step4, encoded, decoded, brief⟩
  have most := (masterPin_sized times sized passes).2
  have limit : igMasterPinMaxLength = 10 := rfl
  have size : encryptDataSize step4.length = step4.length + 8 := encryptDataSize_of_short (by omega)
  have few : ¬4096 < step4.length := by omega
  have held : ¬len < encryptDataSize step4.length := by omega
  refine ⟨step4, _, ?_, encoded, decoded, by omega⟩
  rw [igPairingStep4_opened opened times len, (step3Refused_iff _).mpr passes, if_neg Bool.false_ne_true]
  simp only [payload, if_neg (Nat.not_lt.mpr room), encoded, encryptData, if_neg few, if_neg held, keep_key,
    kConnectionKeyLength, ne_eq, not_true_eq_false, false_and, if_false]
  rfl

end Reply

/-- How a call of step 4 can end. -/
inductive Step4Call (lib : PairingLib) (times : SetterTimes) (server : PairingServer) (frame : List UInt8) (len : Nat) :
    Option (PairingServer × IgErrorCode × BytesWritten) → Prop
  | wraps (untagged : decryptClientData lib server frame = .wraps) : Step4Call lib times server frame len none
  | unopened (refused : decryptClientData lib server frame = .refused) :
      Step4Call lib times server frame len (some (server, .genericFail, none))
  | invalid (plain : List UInt8) (opened : decryptClientData lib server frame = .plain plain)
      (invalid : ¬(lib.step3.decode plain).2.Passes) :
      Step4Call lib times server frame len (some (incrementServerNonce server, .invalidMessage, none))
  | short (plain : List UInt8) (opened : decryptClientData lib server frame = .plain plain)
      (passes : (lib.step3.decode plain).2.Passes)
      (short : len < 66 + ((lib.step3.decode plain).2.secrets lib times).masterPinLength) :
      Step4Call lib times server frame len
        (some ((incrementServerNonce server).keep lib times (lib.step3.decode plain).2, .dataTooShort, none))
  | replied (plain step4 : List UInt8) (size : Nat) (opened : decryptClientData lib server frame = .plain plain)
      (passes : (lib.step3.decode plain).2.Passes)
      (room : 66 + ((lib.step3.decode plain).2.secrets lib times).masterPinLength ≤ len)
      (encoded : lib.step4.encode (setIgStep4 ((incrementServerNonce server).keep lib times (lib.step3.decode plain).2)) size =
        some step4)
      (decoded : lib.step4.decode step4 =
        (false, setIgStep4 ((incrementServerNonce server).keep lib times (lib.step3.decode plain).2)))
      (fits : step4.length + 8 ≤ len) :
      Step4Call lib times server frame len
        (some ((incrementServerNonce server).keep lib times (lib.step3.decode plain).2, .none,
          some (some (lib.ccm.seal server.serverPairingAdminKey
            ((incrementServerNonce server).keep lib times (lib.step3.decode plain).2).clientNonce step4))))

theorem igPairingStep4_call {lib : PairingLib} (generated : lib.Generated) (sized : lib.Sized) {server : PairingServer}
    (arrays : server.Arrays) (times : SetterTimes) (frame : List UInt8) (len : Nat) :
    Step4Call lib times server frame len (igPairingStep4 lib times server frame len) := by
  cases opened : decryptClientData lib server frame with
  | wraps =>
    have done : igPairingStep4 lib times server frame len = none := by simp only [igPairingStep4, opened]
    rw [done]
    exact .wraps opened
  | refused =>
    have done : igPairingStep4 lib times server frame len = some (server, .genericFail, none) := by
      simp only [igPairingStep4, opened]
    rw [done]
    exact .unopened opened
  | plain plain =>
    by_cases passes : (lib.step3.decode plain).2.Passes
    · by_cases room : 66 + ((lib.step3.decode plain).2.secrets lib times).masterPinLength ≤ len
      · rcases igPairingStep4_room generated sized times arrays passes opened room with
          ⟨step4, size, done, encoded, decoded, fits⟩
        rw [done]
        exact .replied plain step4 size opened passes room encoded decoded fits
      · have short := Nat.lt_of_not_le room
        rw [igPairingStep4_short generated sized times arrays passes opened short]
        exact .short plain opened passes short
    · have refused : step3Refused (lib.step3.decode plain).2 = true := by
        rw [← Bool.not_eq_false, step3Refused_iff]
        exact passes
      rw [igPairingStep4_opened opened times len, refused, if_pos rfl]
      exact .invalid plain opened passes

/-- What a step 4 that succeeds leaves: the reply is a ciphertext under the key of the session and the nonce
    of the message, of what the server has stored. -/
structure UsableReply (lib : PairingLib) (server after : PairingServer) (frame : List UInt8) (len : Nat)
    (written : BytesWritten) : Prop where
  message : ∃ plain, decryptClientData lib server frame = .plain plain ∧
    (lib.step3.decode plain).2.nonce = some after.clientNonce.toList
  reply : ∃ plain size, written = some (some (lib.ccm.seal server.serverPairingAdminKey after.clientNonce plain)) ∧
    (lib.ccm.seal server.serverPairingAdminKey after.clientNonce plain).length ≤ len ∧
    lib.step4.encode (setIgStep4 after) size = some plain ∧ lib.step4.decode plain = (false, setIgStep4 after)
  fields : setIgStep4 after = {
    success := some true
    pinKey := some after.secrets.pinKey
    password := some after.secrets.password
    masterPin := some after.secrets.masterPin
    gmtOffset := some after.secrets.gmtOffset }
  masterPin : igMasterPinMinLength ≤ after.secrets.masterPin.length ∧
    after.secrets.masterPin.length ≤ igMasterPinMaxLength

/-- A tagged step-3 message is answered, a step 4 that succeeds leaves a reply that fits its buffer, and a
    buffer of the size that the server asks for is never too short. -/
theorem step4_reply_usable (lib : PairingLib) (generated : lib.Generated) (sized : lib.Sized) (server : PairingServer)
    (arrays : server.Arrays) (times : SetterTimes) (frame : List UInt8) (tagged : 8 ≤ frame.length) (len : Nat) :
    ∃ after err written, igPairingStep4 lib times server frame len = some (after, err, written) ∧
      (err = .none → UsableReply lib server after frame len written) ∧
      (igPairingStep4Size lib server ≤ len → err ≠ .dataTooShort) := by
  have call := igPairingStep4_call generated sized arrays times frame len
  generalize igPairingStep4 lib times server frame len = outcome at call ⊢
  cases call with
  | wraps untagged =>
    rw [decryptClientData_eq, decryptMessage_wraps_iff] at untagged
    omega
  | unopened refused => exact ⟨_, _, _, rfl, (nomatch ·), fun _ => (nomatch ·)⟩
  | invalid plain opened invalid => exact ⟨_, _, _, rfl, (nomatch ·), fun _ => (nomatch ·)⟩
  | short plain opened passes short =>
    have most := (masterPin_sized times sized passes).2
    have limit : igMasterPinMaxLength = 10 := rfl
    refine ⟨_, _, _, rfl, (nomatch ·), ?_⟩
    intro asked
    rw [igPairingStep4Size_eq generated arrays] at asked
    omega
  | replied plain step4 size opened passes room encoded decoded fits =>
    refine ⟨_, _, _, rfl, ?_, fun _ => (nomatch ·)⟩
    intro _
    have kept := keep_secrets sized times passes arrays.moved
    have bounds := masterPin_sized times sized passes
    apply UsableReply.mk
    · rcases passes.nonce with ⟨nonce, brought, whole⟩
      refine ⟨plain, opened, ?_⟩
      rw [keep_nonce sized times passes arrays.moved, brought, Option.getD_some, toList_copyNonce whole]
    · refine ⟨step4, size, rfl, ?_, encoded, decoded⟩
      rw [lib.ccm.seal_length]
      exact fits
    · rw [kept]
      exact keep_step4 sized times passes arrays.moved
    · rw [kept]
      exact bounds

theorem step3_sent {lib : PairingLib} (generated : lib.Generated) (inverts : lib.ccm.Inverts) (server : PairingServer)
    {step3 : PairingStep3} (complete : PairingStep3.format.Complete step3)
    (short : PairingStep3.format.stringBytes step3 ≤ 4000) : ∃ frame plain,
    decryptClientData lib server frame = .plain plain ∧ lib.step3.decode plain = (false, step3) ∧ 8 ≤ frame.length := by
  rcases generated.step3 with ⟨garbage, real⟩
  have overhead : PairingStep3.format.overhead = 39 := rfl
  have room : PairingStep3.format.overhead + PairingStep3.format.stringBytes step3 ≤ 4039 := by omega
  rcases codec_encodes PairingStep3.format_lawful (by decide) complete garbage room (by decide) with ⟨plain, encoded⟩
  rcases codec_returns PairingStep3.format_compact complete encoded with ⟨decoded, brief, _⟩
  have size := lib.ccm.seal_length server.serverPairingAdminKey server.serverNonce plain
  refine ⟨lib.ccm.seal server.serverPairingAdminKey server.serverNonce plain, plain, ?_, ?_, by omega⟩
  · rw [decryptClientData_eq, decryptMessage_of_tagged lib.ccm (by omega) (by omega), lib.ccm.unseal_seal inverts]
  · rw [real]
    exact decoded

theorem sample_step4_usable : ∃ frame after written,
    igPairingStep4 samplePairing ⟨0, 0, 0⟩ .zero frame 76 = some (after, .none, written) ∧
      UsableReply samplePairing .zero after frame 76 written := by
  have complete := step3_complete zeroNonce
  rcases step3_sent samplePairing_generated Cifra.aesCcm_inverts .zero complete.1 (by omega) with
    ⟨frame, plain, opened, decoded, tagged⟩
  have brought := congrArg Prod.snd decoded
  have passes : (samplePairing.step3.decode plain).2.Passes := by
    rw [brought]
    exact ⟨⟨_, rfl, rfl⟩, nofun, nofun, nofun⟩
  have arrays := PairingServer.zero_arrays
  have most := (masterPin_sized ⟨0, 0, 0⟩ samplePairing_sized passes).2
  have limit : igMasterPinMaxLength = 10 := rfl
  have room : 66 + ((samplePairing.step3.decode plain).2.secrets samplePairing ⟨0, 0, 0⟩).masterPinLength ≤ 76 := by omega
  rcases step4_reply_usable samplePairing samplePairing_generated samplePairing_sized .zero arrays ⟨0, 0, 0⟩ frame
    tagged 76 with ⟨after, err, written, done, usable, _⟩
  rcases igPairingStep4_room samplePairing_generated samplePairing_sized ⟨0, 0, 0⟩ arrays passes opened room with
    ⟨step4, size, done', _⟩
  have reached := Option.some.inj (done.symm.trans done')
  cases reached
  exact ⟨frame, _, _, done, usable rfl⟩

end Bridge
