namespace Bridge

/-- The generated functions of one message type. `decode` gives the error flag and the object it
    leaves behind: several callers look only at the object. -/
structure Codec (Message : Type) where
  encode : Message → Nat → Option (List UInt8)
  decode : List UInt8 → Bool × Message
  getMaxPayloadInBytes : Message → Nat

def Codec.unused (Message : Type) [Inhabited Message] : Codec Message where
  encode := fun _ _ => none
  decode := fun _ => (true, default)
  getMaxPayloadInBytes := fun _ => 0

-- A byte-string field is `none` where its `has_` flag is false; the setters clear the flag for an
-- empty string.

def setBytes (bytes : List UInt8) : Option (List UInt8) := if bytes = [] then none else some bytes

def bytesSize (field : Option (List UInt8)) : Nat := (field.getD []).length

structure PairingStep1 where
  publicKey : Option (List UInt8)
deriving DecidableEq, Repr, Inhabited

def PairingStep1.isValid (step1 : PairingStep1) : Bool := step1.publicKey.isSome

structure PairingStep2 where
  publicKey : Option (List UInt8)
  nonce : Option (List UInt8)
deriving DecidableEq, Repr, Inhabited

def PairingStep2.isValid (step2 : PairingStep2) : Bool := step2.publicKey.isSome && step2.nonce.isSome

structure PairingStep3 where
  nonce : Option (List UInt8)
  masterPin : Option (List UInt8) := none
  pinKey : Option (List UInt8) := none
  gmtOffset : Option Int := none
  dstTimes : Option (List UInt8) := none
  password : Option (List UInt8) := none
deriving DecidableEq, Repr, Inhabited

def PairingStep3.isValid (step3 : PairingStep3) : Bool := step3.nonce.isSome

structure PairingStep4 where
  success : Option Bool
  masterPin : Option (List UInt8)
  pinKey : Option (List UInt8)
  gmtOffset : Option Int
  password : Option (List UInt8)
deriving DecidableEq, Repr, Inhabited

def PairingStep4.isValid (step4 : PairingStep4) : Bool := step4.success.isSome

structure PairingCommit where
  currentTime : Option Nat
deriving DecidableEq, Repr, Inhabited

def PairingCommit.isValid (commit : PairingCommit) : Bool := commit.currentTime.isSome

structure GuestConnectionStep1 where
  token : Option (List UInt8)
deriving DecidableEq, Repr, Inhabited

structure GuestConnectionStep2 where
  nonce : Option (List UInt8)
deriving DecidableEq, Repr, Inhabited

def GuestConnectionStep2.isValid (step2 : GuestConnectionStep2) : Bool := step2.nonce.isSome

structure GuestConnectionStep3 where
  nonce : Option (List UInt8)
deriving DecidableEq, Repr, Inhabited

structure GuestConnectionStep4 where
  success : Option Bool
deriving DecidableEq, Repr, Inhabited

def GuestConnectionStep4.isValid (step4 : GuestConnectionStep4) : Bool := step4.success.isSome

structure AdminConnectionStep3 where
  success : Option Bool
deriving DecidableEq, Repr, Inhabited

def AdminConnectionStep3.isValid (step3 : AdminConnectionStep3) : Bool := step3.success.isSome

end Bridge
