import Bridge.WifiService.Fsm
import Bridge.WifiService.Pairing
import Bridge.WifiService.RecvData

namespace Bridge

inductive PairingEvent
  | cSubscribe
  | cWriteStep1
  | sReplyStep2
  | cWriteStep3
  | sReplyStep4
  | cWriteCommit
  | sPairingComplete
  | errEvent
deriving DecidableEq, Repr

def PairingEvent.code : PairingEvent → UInt8
  | .cSubscribe => 0
  | .cWriteStep1 => 1
  | .sReplyStep2 => 2
  | .cWriteStep3 => 3
  | .sReplyStep4 => 4
  | .cWriteCommit => 5
  | .sPairingComplete => 6
  | .errEvent => 7

inductive PairingStatus
  | begin
  | step1
  | step2
  | step3
  | step4
  | commit
  | complete
deriving DecidableEq, Repr

def PairingStatus.code : PairingStatus → UInt8
  | .begin => 0
  | .step1 => 1
  | .step2 => 2
  | .step3 => 3
  | .step4 => 4
  | .commit => 5
  | .complete => 6

inductive SetWifiStatus
  | notPair
  | begin
  | request
  | complete
deriving DecidableEq, Repr

def SetWifiStatus.code : SetWifiStatus → UInt8
  | .notPair => 7
  | .begin => 8
  | .request => 9
  | .complete => 10

structure Characteristic where
  value : List UInt8
  recvPairingData : RecvData
  event : UInt8
deriving DecidableEq, Repr

inductive PairingAction
  | handleWriteStep1
  | handleReplyStep2
  | handleWriteStep3
  | handleReplyStep4
  | handleWriteCommit
  | handlePairingComplete
deriving DecidableEq, Repr

/-- What happened in a pairing: the key agreed in step 2, the step-3 and commit frames with the
    variables they came upon, and the record that went to the bridge. -/
inductive PairingCall
  | agreed (adminKey : Key)
  | step3 (frame : List UInt8) (server : PairingServer)
  | commit (frame : List UInt8) (server : PairingServer)
  | handedOver (crypt : Crypt)
deriving DecidableEq, Repr

structure ServerData where
  chr : Characteristic
  pairing : PairingServer
  trace : List PairingCall
deriving DecidableEq, Repr

structure WifiServer extends ServerData where
  fsm : FSM PairingAction
deriving DecidableEq, Repr

/-- `hasNonceOffset` is where the compiler puts the second flag of `IgPairingStep2`. -/
structure ServerLib where
  pairing : PairingLib
  crypt : Codec Crypt
  hasNonceOffset : Nat

/-- One write to the characteristic, and what the server takes from outside while it handles it. -/
structure ClientWrite where
  value : List UInt8
  stray : List UInt8
  time : Int
  times : SetterTimes
  entropy : Nat
  heap : Nat → UInt8
  connect : Bool
  write : Bool

variable (lib : ServerLib) (write : ClientWrite)

def ServerData.log (data : ServerData) (call : PairingCall) : ServerData :=
  { data with trace := data.trace ++ [call] }

def ServerData.withPairing (data : ServerData) (pairing : PairingServer) : ServerData :=
  { data with pairing := pairing }

def ServerData.reset (data : ServerData) : ServerData :=
  { data with chr := { data.chr with recvPairingData := resetRecvData data.chr.recvPairingData } }

def chrWrite (data : ServerData) (value : List UInt8) : ServerData :=
  { data with chr := { data.chr with value := value } }

/-- `ig_PairingStep2_is_valid` on the encoded bytes: two of them are read as the flags of a struct. -/
def step2BytesValid (step2Bytes : List UInt8) : Bool :=
  step2Bytes.getD 0 0 != 0 && step2Bytes.getD lib.hasNonceOffset 0 != 0

def handleReplyStep2 (data : ServerData) : Option (ServerData × Int) :=
  match getPkgFromRecvData data.chr.recvPairingData with
  | none => some (data, 1)
  | some step1Payload =>
    let step2Size := igPairingStep2Size lib.pairing
    if step2Size = 0 then some (data, 1)
    else
      let (pairing, step2) :=
        serverGenPairingStep2 lib.pairing write.time write.entropy data.pairing step1Payload step2Size
      let data := data.withPairing pairing
      match step2 with
      | .error _ => some (data, 1)
      | .ok step2Bytes =>
        if !step2BytesValid lib step2Bytes then some (data, 1)
        else match buildMsgPayload write.heap step2Bytes with
        | none => some (data, 1)
        | some payload =>
          some (((chrWrite data payload).reset).log (.agreed data.pairing.serverPairingAdminKey), 0)

-- The result of ig_pairing_step4 is dropped. The length it leaves is 0 unless it got as far as
-- encrypting, and only the UINT32_MAX of a failed encryption is an error here.
def handleReplyStep4 (data : ServerData) : Option (ServerData × Int) :=
  match getPkgFromRecvData data.chr.recvPairingData with
  | none => some (data, 1)
  | some step3Payload =>
    (igPairingStep4 lib.pairing write.times data.pairing step3Payload
      (igPairingStep4Size lib.pairing data.pairing)).map fun (pairing, _, written) =>
        let data := data.withPairing pairing
        match written with
        | some none => (data, 1)
        | none | some (some _) =>
          match buildMsgPayload write.heap ((written.bind id).getD []) with
          | none => (data, 1)
          | some payload => ((chrWrite data payload).reset, 0)

def handlePairingComplete (data : ServerData) : ServerData × Int :=
  let crypt := makeCrypt data.pairing
  match lib.crypt.encode crypt 1024 with
  | none => (data, 1)
  | some _ =>
    if !write.connect then (data, 1)
    else if !write.write then (data, 1)
    else (data.log (.handedOver crypt), 0)

/-- `handleWriteStep1`, `handleWriteStep3` and `handleWriteCommit` only log. -/
def pairingAct (action : PairingAction) (data : ServerData) : Option (ServerData × Int) :=
  match action with
  | .handleWriteStep1 | .handleWriteStep3 | .handleWriteCommit => some (data, 0)
  | .handleReplyStep2 => handleReplyStep2 lib write data
  | .handleReplyStep4 => handleReplyStep4 lib write data
  | .handlePairingComplete => some (handlePairingComplete lib write data)

def pairingTransItems : List (FSMTransform PairingAction) :=
  [fillTransItem PairingEvent.cWriteStep1.code PairingStatus.begin.code .handleWriteStep1
      PairingStatus.step1.code,
    fillTransItem PairingEvent.sReplyStep2.code PairingStatus.step1.code .handleReplyStep2
      PairingStatus.step2.code,
    fillTransItem PairingEvent.cWriteStep3.code PairingStatus.step2.code .handleWriteStep3
      PairingStatus.step3.code,
    fillTransItem PairingEvent.sReplyStep4.code PairingStatus.step3.code .handleReplyStep4
      PairingStatus.step4.code,
    fillTransItem PairingEvent.cWriteCommit.code PairingStatus.step4.code .handleWriteCommit
      PairingStatus.complete.code,
    fillTransItem PairingEvent.sPairingComplete.code PairingStatus.complete.code .handlePairingComplete
      PairingStatus.begin.code,
    fillTransItem PairingEvent.sPairingComplete.code PairingStatus.complete.code .handlePairingComplete
      SetWifiStatus.begin.code]

/-- `leftover` is what `malloc` leaves in the table; entry 0 keeps it. -/
def initPairingFsm (leftover : Nat → UInt8 × UInt8 × UInt8) : FSM PairingAction :=
  (pairingTransItems.foldl fillFSMTransItem (getFSMTransTable leftover 7)).transState
    PairingStatus.begin.code

def initServer (leftover : Nat → UInt8 × UInt8 × UInt8) (pairing : PairingServer) : WifiServer where
  chr := ⟨[], RecvData.zero, 0⟩
  pairing := pairing
  trace := []
  fsm := initPairingFsm leftover

def WifiServer.withEvent (s : WifiServer) (event : PairingEvent) : WifiServer :=
  { s with chr := { s.chr with event := event.code } }

def WifiServer.receive (s : WifiServer) : WifiServer :=
  { s with chr := { s.chr with
      recvPairingData := recvData s.chr.recvPairingData write.value write.stray } }

def WifiServer.frame (s : WifiServer) : List UInt8 := (getPkgFromRecvData s.chr.recvPairingData).getD []

def WifiServer.handle (s : WifiServer) (event : PairingEvent) : Option (WifiServer × Int) :=
  (handleEvent (pairingAct lib write) s.fsm event.code s.toServerData).map
    fun (fsm, data, ret) => (⟨data, fsm⟩, ret)

def decideEvent (s : WifiServer) : WifiServer :=
  if s.fsm.curState = PairingStatus.begin.code then s.withEvent .cWriteStep1
  else if s.fsm.curState = PairingStatus.step2.code then s.withEvent .cWriteStep3
  else if s.fsm.curState = PairingStatus.step4.code then s.withEvent .cWriteCommit
  else s

/-- A branch of `handleClientEvent`: the event of the client, then the one that answers it. The
    results of both are only logged. -/
def clientEvent (s : WifiServer) (event reply : PairingEvent) : Option WifiServer :=
  (s.handle lib write event).bind fun (s, _) => ((s.withEvent reply).handle lib write reply).map Prod.fst

def handleClientEvent (s : WifiServer) : Option WifiServer :=
  if s.chr.event = PairingEvent.cWriteStep1.code then clientEvent lib write s .cWriteStep1 .sReplyStep2
  else if s.chr.event = PairingEvent.cWriteStep3.code then
    clientEvent lib write ⟨s.log (.step3 s.frame s.pairing), s.fsm⟩ .cWriteStep3 .sReplyStep4
  else if s.chr.event = PairingEvent.cWriteCommit.code then
    clientEvent lib write ⟨s.log (.commit s.frame s.pairing), s.fsm⟩ .cWriteCommit .sPairingComplete
  else some s

def chrWriteValue (s : WifiServer) (write : ClientWrite) : Option WifiServer :=
  if write.value = [] then some s
  else if isRecvFullPkg (s.receive write).chr.recvPairingData then
    handleClientEvent lib write (decideEvent (s.receive write))
  else some (s.receive write)

end Bridge
