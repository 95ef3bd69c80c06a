import Bridge.Connection.PairingClient
import Bridge.WifiService.Pairing

namespace Bridge

variable (lib : PairingLib)

def PairingClient.beginConnection (time : Int) (entropy : Nat) (client : PairingClient) : PairingClient × Bool :=
  match lib.makeKey entropy with
  | none => (client, false)
  | some (publicKey, privateKey) =>
    ({ client with
        publicKey_ := publicKey, privateKey_ := privateKey
        rxNonce_ := generateRandomNonce lib.libc time kNonceLength }, true)

def genPairingStep1Native (client : PairingClient) : Option (List UInt8) :=
  let step1 : PairingStep1 := ⟨setBytes client.publicKey_⟩
  lib.step1.encode step1 (lib.step1.getMaxPayloadInBytes step1)

def step2Refused (step2Err : Bool) (step2 : PairingStep2) : Bool :=
  step2Err || !step2.isValid || bytesSize step2.nonce != kNonceLength ||
  !step2.publicKey.isSome || bytesSize step2.publicKey != igKeyExchangePublicLength

/-- The first half of `genPairingStep3Native`: the nonce and the key that step 2 makes. -/
def PairingClient.acceptStep2 (client : PairingClient) (jPairingStep2 : List UInt8) : PairingClient × Bool :=
  if jPairingStep2 = [] then (client, false)
  else
    let (step2Err, step2) := lib.step2.decode jPairingStep2
    if step2Refused step2Err step2 then (client, false)
    else
      let client := { client with
        txNonce_ := copyNonce (step2.nonce.getD []), otherPublicKey_ := step2.publicKey.getD [] }
      match lib.sharedSecret client.otherPublicKey_ client.privateKey_ with
      | none => (client, false)
      | some sharedSecret => ({ client with sharedKey_ := copyKey sharedSecret }, true)

/-- A message of the client: whatever comes of the encryption, the nonce moves. -/
def PairingClient.seal (client : PairingClient) (plaintext : Option (List UInt8)) : PairingClient × Option (List UInt8) :=
  match plaintext with
  | none => (client, none)
  | some plaintextBytes =>
    ({ client with txNonce_ := incrementNonce client.txNonce_ },
      encryptMessage lib.ccm plaintextBytes client.sharedKey_ client.txNonce_)

def genPairingStep3Native (client : PairingClient) (jPairingStep2 : List UInt8) :
    PairingClient × Option (List UInt8) :=
  let (client, accepted) := client.acceptStep2 lib jPairingStep2
  if !accepted then (client, none)
  else
    let step3 : PairingStep3 := { nonce := setBytes client.rxNonce_.toList }
    client.seal lib (lib.step3.encode step3 (lib.step3.getMaxPayloadInBytes step3))

def genPairingCommitNative (currentTime : Int) (client : PairingClient) : PairingClient × Option (List UInt8) :=
  let pairingCommit : PairingCommit := ⟨some (currentTime % 2 ^ 32).toNat⟩
  client.seal lib (lib.commit.encode pairingCommit (lib.commit.getMaxPayloadInBytes pairingCommit))

def getAdminKeyNative (client : PairingClient) : List UInt8 := client.sharedKey_.toList

end Bridge
