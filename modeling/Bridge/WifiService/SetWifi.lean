import Bridge.Library.Shell
import Bridge.Messages.Kinds
import Bridge.WifiService.Server

namespace Bridge

open Cbor

def ascii (text : String) : List UInt8 := text.toList.map fun char => UInt8.ofNat char.toNat

inductive SetWifiEvent
  | sRecvPairingCrypt
  | cWriteWifiRequest
  | sReplyWifiResponse
deriving DecidableEq, Repr

def SetWifiEvent.code : SetWifiEvent → UInt8
  | .sRecvPairingCrypt => 7
  | .cWriteWifiRequest => 8
  | .sReplyWifiResponse => 9

inductive SetWifiAction
  | handleSetWifiRequest
  | handleReplyWifiResponse
deriving DecidableEq, Repr

/-- `exited` is the `exit(0)` behind a request, `faulted` a failed assertion, a store outside of an array or a read
    through a pointer that nothing has set. -/
inductive ProcessStatus
  | running
  | exited
  | faulted
deriving DecidableEq, Repr

/-- The characteristic and the process around it. `handled` has the payload of every call of
    `handleSetWifiRequest`, `commands` the argument of every call of `system`. -/
structure SetWifiData where
  recvPairingData : RecvData
  event : UInt8
  handled : List (List UInt8)
  commands : List (List UInt8)
  status : ProcessStatus
deriving DecidableEq, Repr

structure SetWifiServer extends SetWifiData where
  fsm : FSM SetWifiAction
deriving DecidableEq, Repr

/-- What a call finds in its uninitialised variables, and in the heap behind the two strings. -/
structure RequestStack where
  content : CborValue
  request : SetWIFIInfoRequest
  behindSsid : List UInt8
  behindPassword : List UInt8

structure WifiWrite where
  value : List UInt8
  stray : List UInt8
  stack : RequestStack

def ledsOff : List (List UInt8) :=
  [ascii "echo none > /sys/class/leds/r/trigger", ascii "echo none > /sys/class/leds/g/trigger",
    ascii "echo none > /sys/class/leds/b/trigger"]

def ledBlinks : List (List UInt8) := ledsOff ++ [ascii "echo timer > /sys/class/leds/g/trigger"]

def ledOn : List (List UInt8) := ledsOff ++ [ascii "echo default-on > /sys/class/leds/g/trigger"]

/-- `snprintf` of a string of `len` bytes, which has no NUL of its own, with the size `len + 1`. -/
def printString (room : Nat) (content behind : List UInt8) : Option (List UInt8) :=
  let written := ((content ++ behind).takeWhile (· != 0)).take content.length
  if written.length < room then some written else none

def printField (field : Option (List UInt8)) (behind : List UInt8) : Option (List UInt8) :=
  match field with
  | none => some []
  | some content => printString 256 content behind

def connectLine (ssid passwd : List UInt8) : List UInt8 :=
  (ascii "nmcli dev wifi connect \"" ++ ssid ++ ascii "\" password \"" ++ passwd ++ ascii "\" ifname wlan0").take 1023

def handleSetWifiRequest (stack : RequestStack) (data : SetWifiData) : SetWifiData × Int :=
  match getPkgFromRecvData data.recvPairingData with
  | none => (data, 1)
  | some decrypted =>
    let data := { data with handled := data.handled ++ [decrypted] }
    if 70000 < decrypted.length then ({ data with status := .faulted }, 1)
    else
      let data := { data with commands := data.commands ++ ledBlinks }
      match SetWIFIInfoRequest.format.decode stack.content decrypted stack.request with
      | none => ({ data with status := .faulted }, 1)
      | some (err, request) =>
        if err ≠ .noError then (data, 1)
        -- the log prints all three strings, sent or not, and nothing has initialised the variable
        else if request.ssid.isNone || request.password.isNone || request.token.isNone then
          ({ data with status := .faulted }, 1)
        else match printField request.ssid stack.behindSsid, printField request.password stack.behindPassword with
        | some ssid, some passwd =>
          ({ data with commands := data.commands ++ connectLine ssid passwd :: ledOn, status := .exited }, 0)
        | _, _ => ({ data with status := .faulted }, 1)

/-- `handleReplyWifiResponse` only logs. -/
def setWifiAct (stack : RequestStack) (action : SetWifiAction) (data : SetWifiData) : Option (SetWifiData × Int) :=
  match action with
  | .handleSetWifiRequest => some (handleSetWifiRequest stack data)
  | .handleReplyWifiResponse => some (data, 0)

def setWifiTransItems : List (FSMTransform SetWifiAction) :=
  [fillTransItem SetWifiEvent.cWriteWifiRequest.code SetWifiStatus.begin.code .handleSetWifiRequest SetWifiStatus.request.code,
    fillTransItem SetWifiEvent.sReplyWifiResponse.code SetWifiStatus.request.code .handleReplyWifiResponse
      SetWifiStatus.complete.code]

def initWifiRequestFsm (leftover : Nat → UInt8 × UInt8 × UInt8) : FSM SetWifiAction :=
  (setWifiTransItems.foldl fillFSMTransItem (getFSMTransTable leftover 10)).transState SetWifiStatus.begin.code

def initSetWifi (leftover : Nat → UInt8 × UInt8 × UInt8) : SetWifiServer where
  recvPairingData := RecvData.zero
  event := 0
  handled := []
  commands := []
  status := .running
  fsm := initWifiRequestFsm leftover

def SetWifiServer.receive (s : SetWifiServer) (write : WifiWrite) : SetWifiServer :=
  { s with recvPairingData := recvData s.recvPairingData write.value write.stray }

def SetWifiServer.decideEvent (s : SetWifiServer) : SetWifiServer :=
  if s.fsm.curState = SetWifiStatus.begin.code then { s with event := SetWifiEvent.cWriteWifiRequest.code } else s

def SetWifiServer.handleClientEvent (s : SetWifiServer) (stack : RequestStack) : Option SetWifiServer :=
  if s.event = SetWifiEvent.cWriteWifiRequest.code then
    (handleEvent (setWifiAct stack) s.fsm s.event s.toSetWifiData).map fun (fsm, data, _) => ⟨data, fsm⟩
  else some s

/-- A process that has ended takes no more writes. -/
def SetWifiServer.chrWriteValue (s : SetWifiServer) (write : WifiWrite) : Option SetWifiServer :=
  if s.status ≠ .running then some s
  else if write.value = [] then some s
  else if isRecvFullPkg (s.receive write).recvPairingData then (s.receive write).decideEvent.handleClientEvent write.stack
  else some (s.receive write)

end Bridge
