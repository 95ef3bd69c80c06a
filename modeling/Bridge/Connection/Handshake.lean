import Bridge.Connection.Table
import Bridge.Messages.Handshake

namespace Bridge

structure ConnectionLib where
  ccm : Ccm
  guestStep1 : Codec GuestConnectionStep1
  guestStep2 : Codec GuestConnectionStep2
  guestStep3 : Codec GuestConnectionStep3
  guestStep4 : Codec GuestConnectionStep4
  adminStep3 : Codec AdminConnectionStep3

variable (lib : ConnectionLib)

-- A byte pointer that may be NULL is an `Option`; a result of 0 bytes is `none`.

def genConnStep1Native (connectionId : Int) (guestToken : Option (List UInt8)) : Option (List UInt8) :=
  match getConnection connectionId, guestToken with
  | some _, some guestToken =>
    let step1 : GuestConnectionStep1 := ⟨setBytes guestToken⟩
    lib.guestStep1.encode step1 (lib.guestStep1.getMaxPayloadInBytes step1)
  | _, _ => none

def genConnStep3Native (m : Connections) (connectionId : Int) (step2Bytes : Option (List UInt8)) :
    Connections × Option (List UInt8) :=
  match getConnection connectionId, step2Bytes with
  | some i, some step2Bytes =>
    let (step2Err, step2) := lib.guestStep2.decode step2Bytes
    if step2Err || !step2.isValid || bytesSize step2.nonce != kNonceLength then (m, none)
    else
      let txNonce : Nonce := Vector.ofFn fun k => (step2.nonce.getD []).getD k.val 0
      let m := m.put i { m.at i with txNonce := txNonce }
      let step3 : GuestConnectionStep3 := ⟨setBytes (m.at i).rxNonce.toList⟩
      match lib.guestStep3.encode step3 (lib.guestStep3.getMaxPayloadInBytes step3) with
      | none => (m, none)
      | some plaintextBytes =>
        let retval := encryptMessage lib.ccm plaintextBytes (m.at i).key (m.at i).txNonce
        (m.put i { m.at i with txNonce := incrementNonce (m.at i).txNonce }, retval)
  | _, _ => (m, none)

/-- The last step of a handshake: the message is decrypted, the receive nonce moves whatever came
    of that, and the plaintext has to say success. -/
def receiveSuccess (ccm : Ccm) (success : List UInt8 → Bool) (m : Connections) (connectionId : Int)
    (messageBytes : Option (List UInt8)) : Option (Connections × Bool) :=
  match getConnection connectionId, messageBytes with
  | some i, some messageBytes =>
    let moved := m.put i { m.at i with rxNonce := incrementNonce (m.at i).rxNonce }
    match decryptMessage ccm messageBytes (m.at i).key (m.at i).rxNonce with
    | .wraps => none
    | .refused => some (moved, false)
    | .plain bytes => some (moved, success bytes)
  | _, _ => some (m, false)

def guestStep4Success (bytes : List UInt8) : Bool :=
  let step4 := (lib.guestStep4.decode bytes).2
  step4.isValid && step4.success.getD false

def adminStep3Success (bytes : List UInt8) : Bool :=
  let step3 := (lib.adminStep3.decode bytes).2
  step3.isValid && step3.success.getD false

def recConnStep4Native (m : Connections) (connectionId : Int) (messageBytes : Option (List UInt8)) :
    Option (Connections × Bool) :=
  receiveSuccess lib.ccm (guestStep4Success lib) m connectionId messageBytes

def recConnStep3Native (m : Connections) (connectionId : Int) (jConnectionStep3 : Option (List UInt8)) :
    Option (Connections × Bool) :=
  receiveSuccess lib.ccm (adminStep3Success lib) m connectionId jConnectionStep3

theorem receiveSuccess_refused (ccm : Ccm) (success : List UInt8 → Bool) (m : Connections) {i : Nat}
    (inside : i ≤ 32) {message : List UInt8}
    (refused : decryptMessage ccm message (m.at i).key (m.at i).rxNonce = .refused) :
    receiveSuccess ccm success m i (some message) =
      some (m.put i { m.at i with rxNonce := incrementNonce (m.at i).rxNonce }, false) := by
  simp only [receiveSuccess, getConnection_of_range inside, refused]

end Bridge
