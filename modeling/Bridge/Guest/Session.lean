import Bridge.Ble.Framing
import Bridge.Connection.Handshake
import Bridge.Messages.Commands

namespace Bridge

structure Lock where
  key : List UInt8
  token : Option (List UInt8)
  password : List UInt8
  connectionID : Int
deriving DecidableEq, Repr

inductive TaskType
  | lock
  | unlock
  | getLockStatus
  | getBatteryLevel
  | getLogs
  | createPin (cmdReq : CreatePinRequest)
  | delPin (cmdReq : DeletePinRequest)
  | other
deriving DecidableEq, Repr

inductive GuestStep
  | begin
  | step2
  | step3
  | step4
  | done
  | cmdResult
deriving DecidableEq, Repr

inductive CmdResponse
  | lock (response : LockResponse)
  | unlock (response : UnlockResponse)
  | getBatteryLevel (response : GetBatteryLevelResponse)
  | getLogs (response : GetLogsResponse)
  | createPin (response : CreatePinResponse)
  | deletePin (response : DeletePinResponse)
deriving DecidableEq, Repr

structure GuestResult where
  result : Int
  cmdResponse : Option CmdResponse
  lockStatus : Int
  batteryLevel : Int
deriving DecidableEq, Repr

structure GuestConnection where
  lock : Lock
  guestStep : GuestStep
  buffer : StepBuffer
  waitingErr : Bool
  receiveErr : Bool
deriving DecidableEq, Repr

/-- What a run does to the outside: its connection-crypto calls and the frames that it writes. A
    call that reads the table keeps the table that it was made on. -/
inductive GuestCall
  | beginConnection (connectionID : Int)
  | writeStep1 (frame : List UInt8) (ret : Int)
  | genConnStep3Native (connectionId : Int) (accepted : Bool)
  | writeStep3 (frame : List UInt8) (ret : Int)
  | recConnStep4Native (connectionId : Int) (table : Connections) (message : Option (List UInt8))
      (passed : Bool)
  | encryptNative (connectionId : Int) (plain : List UInt8)
  | writeRequest (frame : List UInt8) (ret : Int)
  | decryptNative (connectionId : Int) (message : List UInt8)
  | endConnection (connectionId : Int)
deriving DecidableEq, Repr

structure GuestRun where
  table : Connections
  guest : GuestConnection
  result : GuestResult
  quit : Bool
  trace : List GuestCall
deriving DecidableEq, Repr

/-- What the run takes from outside at one moment: the clock, what `malloc` leaves in a block, and
    the results of `gattlib_write_char_by_uuid` on the pieces of the frame written then. -/
structure Moment where
  now : Int
  heap : Nat → UInt8
  gattWrite : Nat → Int

structure GuestLib where
  connection : ConnectionLib
  command : CommandLib
  libc : Libc

def errConnection : Int := -999
def errWaiting : Int := -998
def errSend : Int := -997
def errGatt : Int := -996
def errGlibLoop : Int := -995
def errStep1 : Int := -994
def errCmd : Int := -992

def gattlibSuccess : Int := 0

def writeCharByUuidMultiAtts (moment : Moment) (frame : List UInt8) : Int :=
  (((List.range (attPieces frame).length).map moment.gattWrite).find? (· ≠ gattlibSuccess)).getD
    gattlibSuccess

def StepBuffer.release (buffer : StepBuffer) : StepBuffer :=
  if buffer.stepMaxSize ≠ 0 ∧ buffer.stepData.isSome then .cleared else buffer

def StepBuffer.pointer (buffer : StepBuffer) : Option (List UInt8) :=
  buffer.stepData.map fun _ => buffer.message

def GuestRun.log (run : GuestRun) (call : GuestCall) : GuestRun :=
  { run with trace := run.trace ++ [call] }

def GuestRun.setResult (run : GuestRun) (err : Int) : GuestRun :=
  { run with result := { run.result with result := err } }

def GuestRun.setStep (run : GuestRun) (step : GuestStep) : GuestRun :=
  { run with guest := { run.guest with guestStep := step } }

def GuestRun.setReceiveErr (run : GuestRun) : GuestRun :=
  { run with guest := { run.guest with receiveErr := true } }

def GuestRun.save (run : GuestRun) (data : List UInt8) : GuestRun :=
  { run with guest := { run.guest with buffer := (saveMessageData run.guest.buffer data).1 } }

def GuestRun.release (run : GuestRun) : GuestRun :=
  { run with guest := { run.guest with buffer := run.guest.buffer.release } }

def GuestRun.withTable (run : GuestRun) (table : Connections) : GuestRun := { run with table := table }

def GuestRun.mainLoopQuit (run : GuestRun) : GuestRun := { run with quit := true }

variable (lib : GuestLib) (task : TaskType)

def sendFrame (moment : Moment) (bytes : List UInt8) : Option (List UInt8 × Int) :=
  (buildMsgPayload moment.heap bytes).map fun frame => (frame, writeCharByUuidMultiAtts moment frame)

def writeGuestStep1 (moment : Moment) (run : GuestRun) : GuestRun × Int :=
  let lock := run.guest.lock
  let (table, connectionID) := beginConnection lib.libc moment.now run.table .guest lock.key lock.key.length
  let run := (run.withTable table).log (.beginConnection connectionID)
  if connectionID = errorConnectionId then (run, errConnection)
  else
    let run := { run with guest := { run.guest with lock := { lock with connectionID := connectionID } } }
    match genConnStep1Native lib.connection connectionID lock.token with
    | none => (run, errConnection)
    | some step1Bytes =>
      match sendFrame moment step1Bytes with
      | none => (run, errConnection)
      | some (frame, ret) =>
        let run := run.log (.writeStep1 frame ret)
        if ret ≠ gattlibSuccess then (run, errSend) else (run, 0)

-- The connection id here is a local variable that is never assigned.
def writeGuestStep3 (moment : Moment) (run : GuestRun) : GuestRun × Int :=
  let connectionID : Int := 0
  let (table, step3) :=
    genConnStep3Native lib.connection run.table connectionID run.guest.buffer.pointer
  let run := (run.withTable table).log (.genConnStep3Native connectionID step3.isSome)
  match step3 with
  | none => (run, errConnection)
  | some step3Bytes =>
    match sendFrame moment step3Bytes with
    | none => (run, errConnection)
    | some (frame, ret) =>
      let run := run.log (.writeStep3 frame ret)
      if ret ≠ gattlibSuccess then (run, errConnection) else ((run.setStep .step4).release, 0)

def handleStep2Message (moment : Moment) (run : GuestRun) (data : List UInt8) : GuestRun :=
  let run := run.save data
  if run.guest.buffer.complete then
    let (run, ret) := writeGuestStep3 lib moment (run.setStep .step3)
    if ret ≠ 0 then run.setReceiveErr.mainLoopQuit else run
  else run

def bufSize : Nat := 128

/-- The request that `write_cmd_request` encodes into its buffer, `none` where it stops before the
    encryption. -/
def encodeRequest (now : Int) (lock : Lock) : TaskType → Option (List UInt8) :=
  let requestID := lib.libc.rand (now % 2 ^ 32).toNat 0 % 2147483647
  let password := setBytes lock.password
  fun
  | .lock => lib.command.lockRequest.encode { password := password, operationId := some requestID } bufSize
  | .unlock =>
    lib.command.unlockRequest.encode { password := password, operationId := some requestID } bufSize
  | .getLockStatus =>
    lib.command.getLockStatusRequest.encode { password := password, operationId := some requestID } bufSize
  | .getBatteryLevel =>
    let request : GetBatteryLevelRequest := { password := password, operationId := some requestID }
    if !request.isValid then none else lib.command.getBatteryLevelRequest.encode request bufSize
  | .getLogs =>
    lib.command.getLogsRequest.encode {
      password := password, operationId := some requestID, timestamp := some (now % 2 ^ 32).toNat } bufSize
  | .createPin cmdReq =>
    if !cmdReq.isValid then none
    else lib.command.createPinRequest.encode {
      password := password, newPin := cmdReq.newPin, startDate := cmdReq.startDate,
      endDate := cmdReq.endDate, pinType := cmdReq.pinType,
      operationId := some (cmdReq.operationId.getD requestID) } bufSize
  | .delPin cmdReq =>
    if !cmdReq.isValid then none
    else lib.command.deletePinRequest.encode {
      password := password, oldPin := cmdReq.oldPin,
      operationId := some (cmdReq.operationId.getD requestID) } bufSize
  | .other => none

/-- The caller drops the code that `write_cmd_request` returns, so only the state is kept. -/
def writeCmdRequest (moment : Moment) (run : GuestRun) : GuestRun :=
  match encodeRequest lib moment.now run.guest.lock task with
  | none => run.setResult errCmd
  | some buf =>
    let connectionID := run.guest.lock.connectionID
    let (table, message) := encryptNative lib.connection.ccm run.table connectionID buf
    let run := ((run.setStep .cmdResult).withTable table).log (.encryptNative connectionID buf)
    match message.bind (sendFrame moment) with
    | none => run.setResult errCmd
    | some (frame, ret) =>
      (run.log (.writeRequest frame ret)).setResult (if ret ≠ gattlibSuccess then errCmd else 0)

/-- `none` when the message is shorter than its tag. -/
def handleStep4Message (moment : Moment) (run : GuestRun) (data : List UInt8) : Option GuestRun :=
  let run := run.save data
  if run.guest.buffer.complete then
    let connectionID := run.guest.lock.connectionID
    (recConnStep4Native lib.connection run.table connectionID run.guest.buffer.pointer).map
      fun (table, recRet) =>
        let run := ((run.setStep .step4).withTable table).log
          (.recConnStep4Native connectionID run.table run.guest.buffer.pointer recRet)
        if !recRet then run.setReceiveErr.setResult errConnection
        else (writeCmdRequest lib task moment (run.setResult 0)).release.setResult 0
  else some (run.setResult 0)

inductive Answer
  | undecodable
  | unknownTask
  | decoded (result : Option UInt8) (store : GuestResult → GuestResult)

def GuestResult.store (response : CmdResponse) (result : GuestResult) : GuestResult :=
  { result with cmdResponse := some response }

def decodedAs {Response : Type} (codec : Codec Response) (responceBytes : List UInt8)
    (read : Response → Option UInt8 × (GuestResult → GuestResult)) : Answer :=
  let (err, response) := codec.decode responceBytes
  if err then .undecodable else .decoded (read response).1 (read response).2

def decodeResponce (responceBytes : List UInt8) : TaskType → Answer
  | .lock => decodedAs lib.command.lockResponse responceBytes fun response =>
    (response.result, GuestResult.store (.lock response))
  | .unlock => decodedAs lib.command.unlockResponse responceBytes fun response =>
    (response.result, GuestResult.store (.unlock response))
  | .getLockStatus => decodedAs lib.command.getLockStatusResponse responceBytes fun response =>
    (response.result, fun result =>
      match response.lockOpen with
      | some lockOpen => { result with lockStatus := if lockOpen then 1 else 0 }
      | none => result)
  | .getBatteryLevel => decodedAs lib.command.getBatteryLevelResponse responceBytes fun response =>
    (response.result, fun result =>
      let result := match response.batteryLevel with
        | some batteryLevel => { result with batteryLevel := (batteryLevel : Int).bmod (2 ^ 32) }
        | none => result
      -- the copy has the size of another response, which ends before the operation id
      result.store (.getBatteryLevel { response with operationId := none }))
  | .getLogs => decodedAs lib.command.getLogsResponse responceBytes fun response =>
    (response.result, GuestResult.store (.getLogs response))
  | .createPin _ => decodedAs lib.command.createPinResponse responceBytes fun response =>
    (response.result, GuestResult.store (.createPin response))
  | .delPin _ => decodedAs lib.command.deletePinResponse responceBytes fun response =>
    (response.result, GuestResult.store (.deletePin response))
  | .other => .unknownTask

/-- The result code of the answer goes to the result first; the code that `LOCK_RESPONCE_EXIT`
    stores after it is the outer `err`, which a failed decoding does not touch. -/
def handleAnswer (run : GuestRun) : Answer → GuestRun
  | .undecodable => run.setReceiveErr.setResult 0
  | .unknownTask => run.setResult errCmd
  | .decoded result store =>
    let run := match result with
      | some result => run.setResult result.toNat
      | none => run
    let run := { run with result := store run.result }
    let connectionID := run.guest.lock.connectionID
    ((run.withTable (endConnection run.table connectionID)).log (.endConnection connectionID)).setResult 0

/-- `none` when the message is shorter than its tag. -/
def handleCmdResponce (run : GuestRun) (data : List UInt8) : Option GuestRun :=
  let run := run.save data
  if run.guest.buffer.complete then
    let connectionID := run.guest.lock.connectionID
    let message := run.guest.buffer.message
    (decryptNative lib.connection.ccm run.table connectionID message).map fun (table, responce) =>
      let run := (run.withTable table).log (.decryptNative connectionID message)
      match responce with
      | none => (run.setReceiveErr.setResult errCmd).mainLoopQuit
      | some responceBytes => (handleAnswer run (decodeResponce lib responceBytes task)).mainLoopQuit
  else some run

end Bridge
