import Bridge.Library.CString
import Bridge.Library.Runs
import Bridge.Messages.Commands

namespace Bridge

open CString (Buffer)

-- The message as nanopb leaves it: a byte array keeps all of its capacity, with whatever is behind the
-- size, and a string is an array with its NUL.

structure PbBytes (capacity : Nat) where
  size : Nat
  bytes : Vector UInt8 capacity
  within : size ≤ capacity

def PbBytes.content {capacity : Nat} (field : PbBytes capacity) : List UInt8 := field.bytes.toList.take field.size

structure Ekey where
  guestAesKey : PbBytes 500
  guestToken : PbBytes 500
  password : PbBytes 500

structure LockEntry where
  btId : Buffer 100
  ekey : Ekey

inductive DemoLockCommand
  | unspecifiedDlc
  | unlock
  | lock
  | createPin
  | deletePin
  | getBattery
  | getLockStatus
  | getLogs
deriving DecidableEq, Repr

structure DemoLockJob where
  btId : Buffer 100
  opCmd : DemoLockCommand
  pin : PbBytes 100

structure ServerEventData where
  lockEntries : List LockEntry
  demoJob : DemoLockJob
  few : lockEntries.length ≤ 5

inductive EventType
  | heartbeat
  | updateUserInfo
  | newJobNotify
  | other
deriving DecidableEq, Repr

structure MsgInfo where
  eventType : EventType
  hasServerData : Bool
  serverData : ServerEventData

structure LockInfo where
  lockAddrSize : UInt8
  lockAddr : Vector UInt8 32
  lockEkeySize : UInt8
  lockEkey : Vector UInt8 32
  lockTokenSize : UInt8
  lockToken : Vector UInt8 128
  lockPasswdSize : UInt8
  lockPasswd : Vector UInt8 32
  lockIdSize : UInt8
  lockId : Vector UInt8 32
deriving DecidableEq

structure BleAddr where
  name : Buffer 32
  addr : Buffer 32

structure SysInfo where
  lockinfo : List LockInfo
  bleList : List BleAddr

def maxLockCount : Nat := 5
def maxDeviceName : Nat := 13
def maxDeviceAddr : Nat := 18

structure IgmLock where
  addr : Vector UInt8 maxDeviceAddr
  addrLen : Nat
  name : Vector UInt8 maxDeviceName
  nameLen : Nat
  key : List UInt8
  keyLen : Nat
  token : List UInt8
  tokenLen : Nat
  password : List UInt8
  passwordSize : Nat
deriving DecidableEq

inductive PinRequest
  | create (request : CreatePinRequest)
  | delete (request : DeletePinRequest)
deriving DecidableEq, Repr

/-- The arguments of `HandleLockCMD`. -/
structure LockCommand where
  lock : IgmLock
  opCmd : DemoLockCommand
  request : Option PinRequest
deriving DecidableEq

-- In all of these `none` is an access outside of an array.

def getAddrBle (lockId : List UInt8) : List BleAddr → Option (Option (Buffer 32))
  | [] => some none
  | ble :: rest => (CString.equal lockId ble.name.array.toList).bind fun same =>
    if same then some (some ble.addr) else getAddrBle lockId rest

def initLockinfo (si : SysInfo) : SysInfo := { si with lockinfo := [] }

def addLockinfo (si : SysInfo) (li : LockInfo) : Option (SysInfo × Int) :=
  if si.lockinfo.length < maxLockCount - 1 then
    (getAddrBle li.lockId.toList si.bleList).bind fun
    | none => some (si, 0)
    | some lockAddr => (CString.strlen lockAddr.array.toList).bind fun size =>
      let p : LockInfo := { li with lockAddrSize := UInt8.ofNat size }
      (if p.lockAddrSize < (32 : UInt8) then CString.copy p.lockAddr lockAddr.array.toList p.lockAddrSize.toNat
        else some p.lockAddr).map fun lockAddr =>
          ({ si with lockinfo := si.lockinfo ++ [{ p with lockAddr }] }, 0)
  else some (si, -1)

def searchLockInfo (lockId : List UInt8) : List LockInfo → Option (Option LockInfo)
  | [] => some none
  | pi :: rest => (CString.equal pi.lockId.toList lockId).bind fun same =>
    if same then some (some pi) else searchLockInfo lockId rest

def hexDigit (nibble : UInt8) : UInt8 := if nibble + 0x30 > 0x39 then nibble + 0x30 + 0x07 else nibble + 0x30

/-- What is written to the start of `dest`, an array of `room` bytes. -/
def byteToHexStr (source : List UInt8) (room sourceLen : Nat) : Option (List UInt8) :=
  if sourceLen ≤ source.length ∧ 2 * sourceLen ≤ room then
    some ((source.take sourceLen).flatMap fun (byte : UInt8) => [hexDigit (byte >>> 4), hexDigit (byte &&& 0x0f)])
  else none

def lockInfoOf (entry : LockEntry) : Option LockInfo := do
  let idSize ← CString.strlen entry.btId.array.toList
  let lockEkey ← CString.copy (Vector.replicate 32 0) entry.ekey.guestAesKey.bytes.toList 32
  let lockToken ← CString.copy (Vector.replicate 128 0) entry.ekey.guestToken.bytes.toList 128
  let lockPasswd ← CString.copy (Vector.replicate 32 0) entry.ekey.password.bytes.toList 32
  let lockId ← CString.copy (Vector.replicate 32 0) entry.btId.array.toList 32
  return {
    lockAddrSize := 0, lockAddr := Vector.replicate 32 0
    lockEkeySize := UInt8.ofNat entry.ekey.guestAesKey.size, lockEkey
    lockTokenSize := UInt8.ofNat entry.ekey.guestToken.size, lockToken
    lockPasswdSize := UInt8.ofNat entry.ekey.password.size, lockPasswd
    lockIdSize := UInt8.ofNat idSize, lockId }

/-- One round of the loop of `UPDATE_USER_INFO`, with the three strings for its log. -/
def storeEntry (si : SysInfo) (entry : LockEntry) : Option SysInfo := do
  let li ← lockInfoOf entry
  let (si, _) ← addLockinfo si li
  let _ ← byteToHexStr entry.ekey.guestAesKey.bytes.toList 256 entry.ekey.guestAesKey.size
  let _ ← byteToHexStr entry.ekey.guestToken.bytes.toList 256 entry.ekey.guestToken.size
  let _ ← byteToHexStr entry.ekey.password.bytes.toList 256 entry.ekey.password.size
  return si

def setLockString (room : Nat) (array : List UInt8) : Option (Vector UInt8 room × Nat) := do
  let len ← CString.strlen array
  let copied ← CString.copy (Vector.replicate room 0) array len
  return (copied, len)

def lockOf (pli : LockInfo) : Option IgmLock := do
  let (name, nameLen) ← setLockString maxDeviceName pli.lockId.toList
  let (addr, addrLen) ← setLockString maxDeviceAddr pli.lockAddr.toList
  let key ← CString.clone pli.lockEkey.toList pli.lockEkeySize.toNat
  let password ← CString.clone pli.lockPasswd.toList pli.lockPasswdSize.toNat
  let token ← CString.clone pli.lockToken.toList pli.lockTokenSize.toNat
  return {
    addr, addrLen, name, nameLen
    key, keyLen := pli.lockEkeySize.toNat
    token, tokenLen := pli.lockTokenSize.toNat
    password, passwordSize := pli.lockPasswdSize.toNat }

/-- `time` is what the calls of `time(0)` give, for the start and the end. -/
def pinRequestOf (time : Int × Int) (pli : LockInfo) (job : DemoLockJob) : Option (Option PinRequest) :=
  match job.opCmd with
  | .createPin => do
    let password ← CString.clone pli.lockPasswd.toList pli.lockPasswdSize.toNat
    let pin ← CString.clone job.pin.bytes.toList job.pin.size
    return some (.create {
      password := setBytes password, newPin := setBytes pin
      startDate := some (time.1 % 2 ^ 32).toNat, endDate := some ((time.2 + 10000) % 2 ^ 32).toNat
      pinType := some 2, operationId := some 1 })
  | .deletePin => do
    let password ← CString.clone pli.lockPasswd.toList pli.lockPasswdSize.toNat
    let pin ← CString.clone job.pin.bytes.toList job.pin.size
    return some (.delete { password := setBytes password, oldPin := setBytes pin, operationId := some 2 })
  | _ => some none

def newJob (time : Int × Int) (si : SysInfo) (job : DemoLockJob) : Option (Int × Option LockCommand) := do
  match ← searchLockInfo job.btId.array.toList si.lockinfo with
  | none => return (-1, none)
  | some pli =>
    let lock ← lockOf pli
    let request ← pinRequestOf time pli job
    let _ ← byteToHexStr pli.lockPasswd.toList 256 pli.lockPasswdSize.toNat
    let _ ← byteToHexStr pli.lockEkey.toList 256 pli.lockEkeySize.toNat
    let _ ← byteToHexStr pli.lockToken.toList 256 pli.lockTokenSize.toNat
    return (0, some ⟨lock, job.opCmd, request⟩)

/-- The new state, the result, and the call of `HandleLockCMD`. -/
def dealCMD (time : Int × Int) (si : SysInfo) (imsg : MsgInfo) : Option (SysInfo × Int × Option LockCommand) :=
  match imsg.eventType with
  | .heartbeat => some (si, 0, none)
  | .updateUserInfo =>
    (if imsg.hasServerData then imsg.serverData.lockEntries.foldlM storeEntry (initLockinfo si)
      else some (initLockinfo si)).map fun si => (si, 0, none)
  | .newJobNotify => (newJob time si imsg.serverData.demoJob).map fun (ret, command) => (si, ret, command)
  | .other => some (si, -1, none)

end Bridge
