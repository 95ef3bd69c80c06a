import Bridge.Ble.Framing
import Bridge.Connection.Table
import Bridge.Messages.Handshake

namespace Bridge

def igKeyExchangePublicLength : Nat := 64
def igPinKeyLength : Nat := 16
def igPasswordLength : Nat := 8
def igMasterPinMinLength : Nat := 4
def igMasterPinDefaultLength : Nat := 8
def igMasterPinMaxLength : Nat := 10
def kDstArrayLen : Nat := 256

inductive IgErrorCode
  | none
  | genericFail
  | invalidConnId
  | dataTooShort
  | invalidMessage
  | invalidParams
  | internalError
deriving DecidableEq, Repr

structure PairingServer where
  serverPairingAdminKey : Key
  serverPairingPrivateKey : List UInt8
  serverPairingPublicKey : List UInt8
  serverNonce : Nonce
  clientNonce : Nonce
  clientPairingPublicKey : List UInt8
  pairingPinKey : List UInt8
  pairingPassword : List UInt8
  pairingMasterPinLength : Nat
  pairingMasterPin : List UInt8
  pairingGmtOffset : Int
  pairingDstLen : Nat
  pairingDst : List UInt8
deriving DecidableEq, Repr

def PairingServer.zero : PairingServer where
  serverPairingAdminKey := Vector.replicate 16 0
  serverPairingPrivateKey := List.replicate 32 0
  serverPairingPublicKey := List.replicate 64 0
  serverNonce := zeroNonce
  clientNonce := zeroNonce
  clientPairingPublicKey := List.replicate 64 0
  pairingPinKey := List.replicate 16 0
  pairingPassword := List.replicate 8 0
  pairingMasterPinLength := 0
  pairingMasterPin := List.replicate 10 0
  pairingGmtOffset := 0
  pairingDstLen := 0
  pairingDst := List.replicate 256 0

/-- What `pairing.c` takes from elsewhere: the cipher, the curve, the generators and the message
    codecs. `makeKey` gives a public and a private key, `none` where `uECC_make_key` returns 0. -/
structure PairingLib where
  ccm : Ccm
  libc : Libc
  hmacDrbg : List UInt8 → List UInt8 → List UInt8 → Nat → List UInt8
  makeKey : Nat → Option (List UInt8 × List UInt8)
  sharedSecret : List UInt8 → List UInt8 → Option (List UInt8)
  step1 : Codec PairingStep1
  step2 : Codec PairingStep2
  step3 : Codec PairingStep3
  step4 : Codec PairingStep4
  commit : Codec PairingCommit

variable (lib : PairingLib)

def copyNonce (bytes : List UInt8) : Nonce := Vector.ofFn fun i => bytes.getD i.val 0

def incrementServerNonce (server : PairingServer) : PairingServer :=
  { server with serverNonce := ByteCounter.ripple server.serverNonce }

def igDecryptDataSize (dataLen : Nat) : Nat := (dataLen + (2 ^ 32 - kCcmTagLength)) % 2 ^ 32

def decryptClientData (server : PairingServer) (dataIn : List UInt8) : Decryption :=
  decryptData lib.ccm dataIn (igDecryptDataSize dataIn.length) server.serverPairingAdminKey
    kConnectionKeyLength server.serverNonce kNonceLength

/-- `entropy` reaches the generator of `uECC_make_key`. The bytes are what is left in
    `step2Bytes` on success. -/
def serverGenPairingStep2 (time : Int) (entropy : Nat) (server : PairingServer)
    (step1Bytes : List UInt8) (step2Len : Nat) : PairingServer × Except IgErrorCode (List UInt8) :=
  let (step1Err, step1) := lib.step1.decode step1Bytes
  if step1Err || !step1.isValid then (server, .error .invalidMessage)
  else if bytesSize step1.publicKey ≠ igKeyExchangePublicLength then (server, .error .invalidMessage)
  else
    let server := { server with
      clientPairingPublicKey := step1.publicKey.getD []
      serverNonce := generateRandomNonce lib.libc time kNonceLength }
    match lib.makeKey entropy with
    | none => (server, .error .genericFail)
    | some (publicKey, privateKey) =>
      let server := { server with
        serverPairingPublicKey := publicKey, serverPairingPrivateKey := privateKey }
      let step2 : PairingStep2 := ⟨setBytes publicKey, setBytes server.serverNonce.toList⟩
      if step2Len < lib.step2.getMaxPayloadInBytes step2 then (server, .error .dataTooShort)
      else match lib.step2.encode step2 step2Len with
      | none => (server, .error .genericFail)
      | some step2Bytes =>
        match lib.sharedSecret server.clientPairingPublicKey privateKey with
        | none => (server, .error .genericFail)
        | some secret => ({ server with serverPairingAdminKey := copyKey secret }, .ok step2Bytes)

def genRandomVector (time : Int) (vectorLen : Nat) : List UInt8 :=
  let draw := fun k => UInt8.ofNat (lib.libc.rand (time % 2 ^ 32).toNat k % 256)
  lib.hmacDrbg ((List.range 16).map draw) ((List.range 8).map fun k => draw (16 + k))
    ((List.range 16).map fun k => draw (24 + k)) vectorLen

def setPairingPinKey (time : Int) (step3 : PairingStep3) (server : PairingServer) : PairingServer :=
  match step3.pinKey with
  | some pinKey => { server with pairingPinKey := overwrite server.pairingPinKey 0 pinKey }
  | none => { server with pairingPinKey := genRandomVector lib time igPinKeyLength }

def setPairingPassword (time : Int) (step3 : PairingStep3) (server : PairingServer) : PairingServer :=
  match step3.password with
  | some password => { server with pairingPassword := overwrite server.pairingPassword 0 password }
  | none => { server with pairingPassword := genRandomVector lib time igPasswordLength }

def setMasterPin (time : Int) (step3 : PairingStep3) (server : PairingServer) : PairingServer :=
  if step3.masterPin.isSome ∧ bytesSize step3.masterPin ≥ igMasterPinMinLength ∧
      bytesSize step3.masterPin ≤ igMasterPinMaxLength then
    { server with
      pairingMasterPinLength := bytesSize step3.masterPin
      pairingMasterPin := overwrite server.pairingMasterPin 0 (step3.masterPin.getD []) }
  else
    let digits := (genRandomVector lib time igMasterPinDefaultLength).map fun byte => byte % 10 + 0x30
    { server with
      pairingMasterPinLength := igMasterPinDefaultLength
      pairingMasterPin := overwrite server.pairingMasterPin 0 digits }

def setClientNonce (step3 : PairingStep3) (server : PairingServer) : PairingServer :=
  { server with clientNonce := copyNonce (step3.nonce.getD []) }

def setGmtOffset (step3 : PairingStep3) (server : PairingServer) : PairingServer :=
  { server with pairingGmtOffset := step3.gmtOffset.getD 0 }

def setDstTimes (step3 : PairingStep3) (server : PairingServer) : Option PairingServer :=
  match step3.dstTimes with
  | some dstTimes =>
    if dstTimes.length ≤ kDstArrayLen then
      some { server with
        pairingDstLen := dstTimes.length, pairingDst := overwrite server.pairingDst 0 dstTimes }
    else none
  | none => some { server with pairingDstLen := 0 }

def setIgStep4 (server : PairingServer) : PairingStep4 where
  success := some true
  pinKey := setBytes server.pairingPinKey
  password := setBytes server.pairingPassword
  masterPin := setBytes (server.pairingMasterPin.take server.pairingMasterPinLength)
  gmtOffset := some server.pairingGmtOffset

def igPairingStep2Size : Nat :=
  lib.step2.getMaxPayloadInBytes
    ⟨setBytes (List.replicate igKeyExchangePublicLength 0), setBytes (List.replicate 11 0 ++ [1])⟩

def igPairingStep4Size (server : PairingServer) : Nat :=
  lib.step4.getMaxPayloadInBytes {
    success := some true
    pinKey := setBytes server.pairingPinKey
    password := setBytes server.pairingPassword
    masterPin := setBytes server.pairingMasterPin
    gmtOffset := none }

def step3Refused (step3 : PairingStep3) : Bool :=
  !step3.isValid ||
  (step3.nonce.isSome && bytesSize step3.nonce != kNonceLength) ||
  (step3.pinKey.isSome && bytesSize step3.pinKey != igPinKeyLength) ||
  (step3.password.isSome && bytesSize step3.password != igPasswordLength) ||
  (step3.masterPin.isSome && decide (bytesSize step3.masterPin > igMasterPinMaxLength)) ||
  (step3.masterPin.isSome && decide (bytesSize step3.masterPin < igMasterPinMinLength))

/-- What `time(0)` gives in the three setters of `ig_pairing_step4` that may have to draw a secret. -/
structure SetterTimes where
  pinKey : Int
  password : Int
  masterPin : Int
deriving DecidableEq, Repr

/-- What `ig_pairing_step4` leaves in `*bytes_written`: nothing, or the result of `encryptData`,
    whose -1 becomes UINT32_MAX (`some none`). -/
abbrev BytesWritten := Option (Option (List UInt8))

/-- The outer `none` is a message shorter than its tag, on which the computed length wraps. -/
def igPairingStep4 (times : SetterTimes) (server : PairingServer) (encryptStep3Bytes : List UInt8)
    (encryptStep4BytesLen : Nat) : Option (PairingServer × IgErrorCode × BytesWritten) :=
  match decryptClientData lib server encryptStep3Bytes with
  | .wraps => none
  | .refused => some (server, .genericFail, none)
  | .plain decryptedDataIn =>
    let server := incrementServerNonce server
    let step3 := (lib.step3.decode decryptedDataIn).2
    if step3Refused step3 then some (server, .invalidMessage, none)
    else
      let server := setPairingPinKey lib times.pinKey step3 server
      let server := setPairingPassword lib times.password step3 server
      let server := setMasterPin lib times.masterPin step3 server
      let server := setClientNonce step3 server
      let server := setGmtOffset step3 server
      let server := (setDstTimes step3 server).getD server
      let step4 := setIgStep4 server
      let step4Size := lib.step4.getMaxPayloadInBytes step4
      if encryptStep4BytesLen < step4Size then some (server, .dataTooShort, none)
      else match lib.step4.encode step4 step4Size with
      | none => some (server, .genericFail, none)
      | some step4Serialized =>
        some (server, .none, some (encryptData lib.ccm step4Serialized encryptStep4BytesLen
          server.serverPairingAdminKey kConnectionKeyLength server.clientNonce kNonceLength))

structure IgPairingResult where
  adminKey : Key
  pinKey : List UInt8
  password : List UInt8
  masterPinLength : Nat
  masterPin : List UInt8
  currentTime : Nat
  gmtOffset : Int
  dstLength : Nat
  dst : List UInt8
deriving DecidableEq, Repr

def igCommitPairing (server : PairingServer) (encryptCommitBytes : List UInt8) :
    Option (PairingServer × Except IgErrorCode IgPairingResult) :=
  match decryptClientData lib server encryptCommitBytes with
  | .wraps => none
  | .refused => some (server, .error .genericFail)
  | .plain decryptedDataIn =>
    let server := { server with serverNonce := incrementNonce server.serverNonce }
    match (lib.commit.decode decryptedDataIn).2.currentTime with
    | none => some (server, .error .invalidMessage)
    | some currentTime =>
      some (server, .ok {
        adminKey := server.serverPairingAdminKey
        pinKey := server.pairingPinKey
        password := server.pairingPassword
        masterPinLength := server.pairingMasterPinLength
        masterPin := server.pairingMasterPin.take server.pairingMasterPinLength
        currentTime := currentTime
        gmtOffset := server.pairingGmtOffset
        dstLength := server.pairingDstLen
        dst := server.pairingDst })

structure Crypt where
  serverPairingAdminKey : List UInt8
  serverNonce : List UInt8
  clientNonce : List UInt8
deriving DecidableEq, Repr, Inhabited

/-- `makeCrypt` into a null pointer, which is how its caller uses it. -/
def makeCrypt (server : PairingServer) : Crypt :=
  ⟨server.serverPairingAdminKey.toList, server.serverNonce.toList, server.clientNonce.toList⟩

theorem decryptClientData_eq (server : PairingServer) (dataIn : List UInt8) :
    decryptClientData lib server dataIn =
      decryptMessage lib.ccm dataIn server.serverPairingAdminKey server.serverNonce := rfl

theorem setDstTimes_key (step3 : PairingStep3) (server : PairingServer) :
    ((setDstTimes step3 server).getD server).serverPairingAdminKey = server.serverPairingAdminKey := by
  unfold setDstTimes
  repeat' split
  all_goals rfl

theorem stored_key (times : SetterTimes) (step3 : PairingStep3) (server : PairingServer) :
    (setGmtOffset step3 (setClientNonce step3 (setMasterPin lib times.masterPin step3
      (setPairingPassword lib times.password step3 (setPairingPinKey lib times.pinKey step3
        server))))).serverPairingAdminKey = server.serverPairingAdminKey := by
  simp only [setGmtOffset, setClientNonce, setMasterPin, setPairingPassword, setPairingPinKey]
  repeat' split
  all_goals rfl

theorem igPairingStep4_spec {times : SetterTimes} {server after : PairingServer} {frame : List UInt8} {len : Nat}
    {err : IgErrorCode} {written : BytesWritten}
    (done : igPairingStep4 lib times server frame len = some (after, err, written)) :
    after.serverPairingAdminKey = server.serverPairingAdminKey ∧
      (written ≠ none → ∃ bytes, decryptClientData lib server frame = .plain bytes) := by
  unfold igPairingStep4 at done
  split at done
  · cases done
  · cases done
    exact ⟨rfl, fun reported => absurd rfl reported⟩
  · rename_i bytes opened
    refine ⟨?_, fun _ => ⟨bytes, opened⟩⟩
    have kept := fun step3 => (setDstTimes_key step3 _).trans
      (stored_key lib times step3 (incrementServerNonce server))
    simp only at done
    split at done
    · cases done
      rfl
    · split at done
      · cases done
        exact kept _
      · split at done
        · cases done
          exact kept _
        · cases done
          exact kept _

end Bridge
