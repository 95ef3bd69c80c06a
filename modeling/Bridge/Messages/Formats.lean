import Bridge.Messages.Commands
import Bridge.Messages.Format

namespace Bridge

structure GuestToken where
  keyId : Option Nat
  startDate : Option Nat := none
  endDate : Option Nat := none
  aesKey : Option (List UInt8) := none
  accessRights : Option (List UInt8) := none
deriving DecidableEq, Repr, Inhabited

structure LogEntry where
  entryDate : Option Nat
  logType : Option Nat
  keyId : Option Nat := none
  pin : Option (List UInt8) := none
  newPin : Option (List UInt8) := none
  time1 : Option Nat := none
  time2 : Option Nat := none
  pinType : Option Nat := none
  value1 : Option Nat := none
  value2 : Option Nat := none
  value3 : Option Nat := none
  value4 : Option Nat := none
  value5 : Option (List UInt8) := none
  operationId : Option Nat := none
deriving DecidableEq, Repr, Inhabited

structure CryptObject where
  serverPairingAdminKey : Option (List UInt8)
  serverNonce : Option (List UInt8)
  clientNonce : Option (List UInt8)
deriving DecidableEq, Repr, Inhabited

structure SetWIFIInfoRequest where
  ssid : Option (List UInt8)
  password : Option (List UInt8)
  token : Option (List UInt8)
deriving DecidableEq, Repr, Inhabited

def CreatePinRequest.format : Format CreatePinRequest where
  init := ⟨none, none, none, none, none, none⟩
  msgId := 43
  acceptedId := 43
  fields :=
    [bytesField 11 true (·.password) fun value obj => { obj with password := value },
      bytesField 12 true (·.newPin) fun value obj => { obj with newPin := value },
      uintField 32 13 false (·.startDate) fun value obj => { obj with startDate := value },
      uintField 32 14 false (·.endDate) fun value obj => { obj with endDate := value },
      uintField 8 15 false (·.pinType) fun value obj => { obj with pinType := value },
      uintField 32 100 false (·.operationId) fun value obj => { obj with operationId := value }]
  isValid := CreatePinRequest.isValid
  base := 48
  breaksAtEnd := false

def DeletePinRequest.format : Format DeletePinRequest where
  init := ⟨none, none, none⟩
  msgId := 47
  acceptedId := 47
  fields :=
    [bytesField 11 true (·.password) fun value obj => { obj with password := value },
      bytesField 12 true (·.oldPin) fun value obj => { obj with oldPin := value },
      uintField 32 100 false (·.operationId) fun value obj => { obj with operationId := value }]
  isValid := DeletePinRequest.isValid
  base := 33
  breaksAtEnd := false

def GuestToken.format : Format GuestToken where
  init := ⟨none, none, none, none, none⟩
  msgId := 202
  acceptedId := 202
  fields :=
    [uintField 32 11 true (·.keyId) fun value obj => { obj with keyId := value },
      uintField 32 12 false (·.startDate) fun value obj => { obj with startDate := value },
      uintField 32 13 false (·.endDate) fun value obj => { obj with endDate := value },
      bytesField 14 false (·.aesKey) fun value obj => { obj with aesKey := value },
      bytesField 15 false (·.accessRights) fun value obj => { obj with accessRights := value }]
  isValid obj := obj.keyId.isSome
  base := 45
  breaksAtEnd := false

def LogEntry.format : Format LogEntry where
  init := ⟨none, none, none, none, none, none, none, none, none, none, none, none, none, none⟩
  msgId := 203
  acceptedId := 203
  fields :=
    [uintField 32 11 true (·.entryDate) fun value obj => { obj with entryDate := value },
      uintField 32 12 true (·.logType) fun value obj => { obj with logType := value },
      uintField 32 13 false (·.keyId) fun value obj => { obj with keyId := value },
      bytesField 14 false (·.pin) fun value obj => { obj with pin := value },
      bytesField 15 false (·.newPin) fun value obj => { obj with newPin := value },
      uintField 32 16 false (·.time1) fun value obj => { obj with time1 := value },
      uintField 32 17 false (·.time2) fun value obj => { obj with time2 := value },
      uintField 32 18 false (·.pinType) fun value obj => { obj with pinType := value },
      uintField 32 19 false (·.value1) fun value obj => { obj with value1 := value },
      uintField 32 20 false (·.value2) fun value obj => { obj with value2 := value },
      uintField 32 21 false (·.value3) fun value obj => { obj with value3 := value },
      uintField 32 22 false (·.value4) fun value obj => { obj with value4 := value },
      bytesField 23 false (·.value5) fun value obj => { obj with value5 := value },
      uintField 32 100 false (·.operationId) fun value obj => { obj with operationId := value }]
  isValid obj := obj.entryDate.isSome && obj.logType.isSome
  base := 100
  breaksAtEnd := false

def PairingStep1.format : Format PairingStep1 where
  init := ⟨none⟩
  msgId := 1
  acceptedId := 1
  fields := [bytesField 11 true (·.publicKey) fun value obj => { obj with publicKey := value }]
  isValid := PairingStep1.isValid
  base := 20
  breaksAtEnd := false

def PairingStep2.format : Format PairingStep2 where
  init := ⟨none, none⟩
  msgId := 2
  acceptedId := 2
  fields :=
    [bytesField 11 true (·.publicKey) fun value obj => { obj with publicKey := value },
      bytesField 12 true (·.nonce) fun value obj => { obj with nonce := value }]
  isValid := PairingStep2.isValid
  base := 27
  breaksAtEnd := false

def PairingStep3.format : Format PairingStep3 where
  init := ⟨none, none, none, none, none, none⟩
  msgId := 3
  acceptedId := 3
  fields :=
    [bytesField 11 true (·.nonce) fun value obj => { obj with nonce := value },
      bytesField 13 false (·.masterPin) fun value obj => { obj with masterPin := value },
      bytesField 14 false (·.pinKey) fun value obj => { obj with pinKey := value },
      int32Field 15 (·.gmtOffset) fun value obj => { obj with gmtOffset := value },
      bytesField 16 false (·.dstTimes) fun value obj => { obj with dstTimes := value },
      bytesField 17 false (·.password) fun value obj => { obj with password := value }]
  isValid := PairingStep3.isValid
  base := 54
  breaksAtEnd := false

def PairingStep4.format : Format PairingStep4 where
  init := ⟨none, none, none, none, none⟩
  msgId := 4
  acceptedId := 4
  fields :=
    [booleanField 11 (·.success) fun value obj => { obj with success := value },
      bytesField 13 false (·.masterPin) fun value obj => { obj with masterPin := value },
      bytesField 14 false (·.pinKey) fun value obj => { obj with pinKey := value },
      int32Field 15 (·.gmtOffset) fun value obj => { obj with gmtOffset := value },
      bytesField 17 false (·.password) fun value obj => { obj with password := value }]
  isValid := PairingStep4.isValid
  base := 42
  breaksAtEnd := false

def PairingCommit.format : Format PairingCommit where
  init := ⟨none⟩
  msgId := 5
  acceptedId := 5
  fields := [uintField 32 11 true (·.currentTime) fun value obj => { obj with currentTime := value }]
  isValid := PairingCommit.isValid
  base := 19
  breaksAtEnd := false

def GuestConnectionStep4.format : Format GuestConnectionStep4 where
  init := ⟨none⟩
  msgId := 12
  acceptedId := 12
  fields := [booleanField 11 (·.success) fun value obj => { obj with success := value }]
  isValid := GuestConnectionStep4.isValid
  base := 15
  breaksAtEnd := false

/-- `encodeCrypt` and `decodeCrypt`. -/
def CryptObject.format : Format CryptObject where
  init := ⟨none, none, none⟩
  msgId := 51
  acceptedId := 51
  fields :=
    [rawBytesField 11 (·.serverPairingAdminKey) fun value obj => { obj with serverPairingAdminKey := value },
      rawBytesField 12 (·.serverNonce) fun value obj => { obj with serverNonce := value },
      rawBytesField 13 (·.clientNonce) fun value obj => { obj with clientNonce := value }]
  isValid obj := obj.clientNonce.isSome && obj.serverNonce.isSome && obj.serverPairingAdminKey.isSome
  base := 0
  breaksAtEnd := true

/-- `encodeWifiInfoRequest` and `decodeWifiInfoRequest`: the id written is decimal, the one demanded
    hexadecimal. -/
def SetWIFIInfoRequest.format : Format SetWIFIInfoRequest where
  init := ⟨none, none, none⟩
  msgId := 51
  acceptedId := 0x51
  fields :=
    [rawBytesField 11 (·.ssid) fun value obj => { obj with ssid := value },
      rawBytesField 12 (·.password) fun value obj => { obj with password := value },
      rawBytesField 13 (·.token) fun value obj => { obj with token := value }]
  isValid obj := obj.password.isSome || obj.ssid.isSome
  base := 0
  breaksAtEnd := false

end Bridge
