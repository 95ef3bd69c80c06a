import Bridge.Connection.Encryption
import Bridge.Messages.Handshake

namespace Bridge

structure PairingClient where
  privateKey_ : List UInt8
  publicKey_ : List UInt8
  otherPublicKey_ : List UInt8
  txNonce_ : Nonce
  rxNonce_ : Nonce
  sharedKey_ : Key
deriving DecidableEq, Repr

/-- The outer `none` is a message shorter than its tag. -/
def recPairingStep4Native (ccm : Ccm) (step4Codec : Codec PairingStep4) (client : PairingClient)
    (jPairingStep4 : List UInt8) : Option (PairingClient × Option PairingStep4) :=
  let moved := { client with rxNonce_ := incrementNonce client.rxNonce_ }
  match decryptMessage ccm jPairingStep4 client.sharedKey_ client.rxNonce_ with
  | .wraps => none
  | .refused => some (moved, none)
  | .plain step4Bytes =>
    let step4 := (step4Codec.decode step4Bytes).2
    if !step4.isValid || step4.success != some true then some (moved, none) else some (moved, some step4)

theorem recPairingStep4_refused (ccm : Ccm) (step4Codec : Codec PairingStep4) (client : PairingClient)
    {message : List UInt8}
    (refused : decryptMessage ccm message client.sharedKey_ client.rxNonce_ = .refused) :
    recPairingStep4Native ccm step4Codec client message =
      some ({ client with rxNonce_ := incrementNonce client.rxNonce_ }, none) := by
  simp only [recPairingStep4Native, refused]

end Bridge
