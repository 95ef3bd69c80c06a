import Bridge.Messages.Handshake

namespace Bridge

-- Numbers are kept as the values of their fields; `none` stands for a false `has_` flag.

structure LockRequest where
  password : Option (List UInt8)
  timestamp : Option Nat := none
  operationId : Option Nat := none
deriving DecidableEq, Repr, Inhabited

structure UnlockRequest where
  password : Option (List UInt8)
  timestamp : Option Nat := none
  operationId : Option Nat := none
deriving DecidableEq, Repr, Inhabited

structure GetLockStatusRequest where
  password : Option (List UInt8)
  operationId : Option Nat := none
deriving DecidableEq, Repr, Inhabited

structure GetBatteryLevelRequest where
  password : Option (List UInt8)
  operationId : Option Nat := none
deriving DecidableEq, Repr, Inhabited

def GetBatteryLevelRequest.isValid (request : GetBatteryLevelRequest) : Bool := request.password.isSome

structure GetLogsRequest where
  password : Option (List UInt8)
  timestamp : Option Nat := none
  operationId : Option Nat := none
deriving DecidableEq, Repr, Inhabited

structure CreatePinRequest where
  password : Option (List UInt8)
  newPin : Option (List UInt8)
  startDate : Option Nat := none
  endDate : Option Nat := none
  pinType : Option Nat := none
  operationId : Option Nat := none
deriving DecidableEq, Repr, Inhabited

def CreatePinRequest.isValid (request : CreatePinRequest) : Bool :=
  request.password.isSome && request.newPin.isSome

structure DeletePinRequest where
  password : Option (List UInt8)
  oldPin : Option (List UInt8)
  operationId : Option Nat := none
deriving DecidableEq, Repr, Inhabited

def DeletePinRequest.isValid (request : DeletePinRequest) : Bool :=
  request.password.isSome && request.oldPin.isSome

structure LockResponse where
  result : Option UInt8
  operationId : Option Nat := none
deriving DecidableEq, Repr, Inhabited

structure UnlockResponse where
  result : Option UInt8
  operationId : Option Nat := none
deriving DecidableEq, Repr, Inhabited

structure GetLockStatusResponse where
  result : Option UInt8
  lockOpen : Option Bool := none
  cellNetworkStatus : Option UInt8 := none
  doorOpen : Option UInt8 := none
  operationId : Option Nat := none
deriving DecidableEq, Repr, Inhabited

structure GetBatteryLevelResponse where
  result : Option UInt8
  batteryLevel : Option Nat := none
  operationId : Option Nat := none
deriving DecidableEq, Repr, Inhabited

structure GetLogsResponse where
  result : Option UInt8
  data : Option (List UInt8) := none
  hasMore : Option UInt8 := none
  operationId : Option Nat := none
deriving DecidableEq, Repr, Inhabited

structure CreatePinResponse where
  result : Option UInt8
  operationId : Option Nat := none
deriving DecidableEq, Repr, Inhabited

structure DeletePinResponse where
  result : Option UInt8
  operationId : Option Nat := none
deriving DecidableEq, Repr, Inhabited

structure CommandLib where
  lockRequest : Codec LockRequest
  unlockRequest : Codec UnlockRequest
  getLockStatusRequest : Codec GetLockStatusRequest
  getBatteryLevelRequest : Codec GetBatteryLevelRequest
  getLogsRequest : Codec GetLogsRequest
  createPinRequest : Codec CreatePinRequest
  deletePinRequest : Codec DeletePinRequest
  lockResponse : Codec LockResponse
  unlockResponse : Codec UnlockResponse
  getLockStatusResponse : Codec GetLockStatusResponse
  getBatteryLevelResponse : Codec GetBatteryLevelResponse
  getLogsResponse : Codec GetLogsResponse
  createPinResponse : Codec CreatePinResponse
  deletePinResponse : Codec DeletePinResponse

end Bridge
