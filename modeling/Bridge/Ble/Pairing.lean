import Bridge.Connection.PairingConnection
import Bridge.Guest.Session
import Bridge.Library.Runs

namespace Bridge.BlePairing

inductive State
  | begin
  | step1
  | step2
  | step3
  | step4
  | commit
  | done
deriving DecidableEq, Repr

def maxDeviceAddr : Nat := 18

-- A key or a password is `none` where its `has_` flag is 0.
structure Result where
  addr : List UInt8
  pairingSuccessed : Bool
  adminKey : Option (List UInt8)
  password : Option (List UInt8)
deriving DecidableEq, Repr

def bleInitPairingResult : Result := ⟨List.replicate maxDeviceAddr 0, false, none, none⟩

def bleSetPairingResultAddr (result : Result) (addr : List UInt8) : Result :=
  { result with addr := overwrite (List.replicate maxDeviceAddr 0) 0 (addr.take maxDeviceAddr) }

def bleSetPairingSuccess (result : Result) (s : Bool) : Result := { result with pairingSuccessed := s }

def bleSetPairingResultAdminKey (result : Result) (hasAdminKey : Bool) (adminKey : List UInt8) : Result :=
  { result with adminKey := if hasAdminKey then some adminKey else none }

def bleSetPairingResultPassword (result : Result) (hasPassword : Bool) (password : List UInt8) : Result :=
  { result with password := if hasPassword then some password else none }

def blePairingResultErr (result : Result) : Result :=
  bleSetPairingResultAdminKey (bleSetPairingResultPassword (bleSetPairingSuccess result false) false []) false []

structure Connection where
  pairingStep : State
  buffer : StepBuffer
  pairingResult : Result
deriving DecidableEq, Repr

/-- The client's `save_message_data`. A chunk that does not fit makes the declared size grow. -/
def saveMessageData (buffer : StepBuffer) (data : List UInt8) : StepBuffer × Int :=
  let dataLength := (data.length : Int).bmod (2 ^ 32)
  if buffer.stepMaxSize = 0 ∧ dataLength < 3 then (buffer, 1)
  else
    let buffer := if buffer.stepMaxSize = 0 then StepBuffer.open data else buffer
    let sizeLeft := ((buffer.stepMaxSize : Int) - buffer.stepCurSize).bmod (2 ^ 32)
    let buffer := if sizeLeft < dataLength then { buffer with stepMaxSize := buffer.stepMaxSize + 85 } else buffer
    -- the function ends here without a value, and no caller looks at one
    (buffer.store (data.take dataLength.toNat), 0)

/-- What a run takes from outside while one function of the table runs. `unreturned` is what the caller
    finds where `write_pairing_step1` ends without a `return`. -/
structure PairingMoment extends Moment where
  entropy : Nat
  gattlibConnect : Bool
  gattlibNotificationStart : Int
  unreturned : Int

/-- What a run does to the outside: its cryptographic calls, with the client that they start from, and
    the frames that it hands to `gattlib_write_char_by_uuid`, with what comes of the pieces. -/
inductive Call
  | genPairingStep3Native (client : PairingClient) (step2 : List UInt8)
  | recPairingStep4Native (client : PairingClient) (message : List UInt8)
  | genPairingCommitNative (client : PairingClient) (currentTime : Int)
  | write (moment : Moment) (frame : List UInt8)

/-- Where `FSMHandle` stands: before a row of the table, in the main loop of one, or at its `return -1`. -/
inductive Stage
  | handling
  | looping (quit : Bool)
  | failed
deriving DecidableEq, Repr

/-- `returned` says that the caller has been given the pointer to the result. -/
structure Run where
  curState : State
  stage : Stage
  connection : Connection
  client : PairingClient
  returned : Bool
  trace : List Call

def Run.log (run : Run) (call : Call) : Run := { run with trace := run.trace ++ [call] }

def Run.setStep (run : Run) (pairingStep : State) : Run :=
  { run with connection := { run.connection with pairingStep := pairingStep } }

def Run.setBuffer (run : Run) (buffer : StepBuffer) : Run :=
  { run with connection := { run.connection with buffer := buffer } }

def Run.setResult (run : Run) (pairingResult : Result) : Run :=
  { run with connection := { run.connection with pairingResult := pairingResult } }

def Run.setClient (run : Run) (client : PairingClient) : Run := { run with client := client }

/-- `pairing_err_result_return`, which the successful end calls too. -/
def Run.resultReturn (run : Run) : Run := { run with returned := true }

def Run.errorExit (run : Run) : Run :=
  (run.setResult (blePairingResultErr run.connection.pairingResult)).resultReturn

def handleStepMessage (reached : State) (run : Run) (data : List UInt8) : Run :=
  let run := run.setBuffer (saveMessageData run.connection.buffer data).1
  if run.connection.buffer.complete then { run.setStep reached with stage := .looping true } else run

def handleStep2Message : Run → List UInt8 → Run := handleStepMessage .step2

def handleStep4Message : Run → List UInt8 → Run := handleStepMessage .step4

def messageHandler (run : Run) (data : List UInt8) : Run :=
  match run.connection.pairingStep with
  | .step1 => handleStep2Message run data
  | .step3 => handleStep4Message run data
  | .begin | .step2 | .step4 | .commit | .done => run

variable (lib : PairingLib) (addr : List UInt8) (moment : PairingMoment)

def registerPairingNotfication (run : Run) : Run × Int :=
  let run := { run with
    connection := ⟨.begin, .cleared, bleSetPairingResultAddr bleInitPairingResult addr⟩ }
  if !moment.gattlibConnect then (run.errorExit, 1)
  else if moment.gattlibNotificationStart ≠ 0 then (run.errorExit, 1)
  else (run.setStep .step1, 0)

def writePairingStep1 (run : Run) : Run × Int :=
  let (client, ret) := run.client.beginConnection lib moment.now moment.entropy
  let run := run.setClient client
  if !ret then (run, 1)
  else match genPairingStep1Native lib run.client with
  | none => (run, 1)
  | some step1Bytes =>
    match sendFrame moment.toMoment step1Bytes with
    | none => (run.errorExit, moment.unreturned)
    | some (payloadBytes, ret) =>
      let run := run.log (.write moment.toMoment payloadBytes)
      if ret ≠ gattlibSuccess then (run.errorExit, moment.unreturned) else (run.setStep .step1, 0)

def writePairingStep3 (run : Run) : Run × Int :=
  let step2Bytes := run.connection.buffer.message
  let (client, step3) := genPairingStep3Native lib run.client step2Bytes
  let run := (run.log (.genPairingStep3Native run.client step2Bytes)).setClient client
  let step3Bytes := step3.getD []
  if step3Bytes.length = 0 then (run.errorExit, 1)
  else match sendFrame moment.toMoment step3Bytes with
  | none => (run.errorExit, 1)
  | some (payloadBytes, ret) =>
    let run := run.log (.write moment.toMoment payloadBytes)
    if ret ≠ gattlibSuccess then (run.errorExit, 1)
    else
      let buffer := if run.connection.buffer.stepData.isSome then .cleared else run.connection.buffer
      ((run.setBuffer buffer).setStep .step3, 0)

def commitPairing (run : Run) : Run × Int :=
  let (client, commit) := genPairingCommitNative lib moment.now run.client
  let run := (run.log (.genPairingCommitNative run.client moment.now)).setClient client
  let commitBytes := commit.getD []
  if commitBytes.length = 0 then (run.errorExit, 1)
  else match sendFrame moment.toMoment commitBytes with
  | none => (run.errorExit, 1)
  | some (payloadBytes, ret) =>
    let run := run.log (.write moment.toMoment payloadBytes)
    if ret ≠ gattlibSuccess then (run.errorExit, 1)
    else
      let run := run.setStep .done
      let adminKey := getAdminKeyNative run.client
      let run :=
        if adminKey.length ≠ 0 then run.setResult (bleSetPairingResultAdminKey run.connection.pairingResult true adminKey)
        else run
      ((run.setResult (bleSetPairingSuccess run.connection.pairingResult true)).resultReturn, 0)

/-- `none` when step 4 is shorter than its tag. -/
def writePairingCommit (run : Run) : Option (Run × Int) :=
  match run.connection.buffer.pointer with
  | none => some (run.errorExit, 1)
  | some message =>
    (recPairingStep4Native lib.ccm lib.step4 run.client message).map fun (client, step4) =>
      let run := (run.log (.recPairingStep4Native run.client message)).setClient client
      match step4 with
      | none => (run.errorExit, 1)
      | some step4 =>
        let result := run.connection.pairingResult
        commitPairing lib moment (if step4.success = some true then
          run.setResult (bleSetPairingResultPassword result true (step4.password.getD [])) else run)

def nextState : State → Option State
  | .begin => some .step1
  | .step1 => some .step2
  | .step2 => some .step3
  | .step3 => some .step4
  | .step4 => some .commit
  | .commit => some .done
  | .done => none

/-- `waiting_pairing_step2` and `waiting_pairing_step4`, which only run a main loop. -/
def waiting : State → Bool
  | .step2 | .step4 => true
  | .begin | .step1 | .step3 | .commit | .done => false

/-- The function of a row that runs to its end without a main loop. -/
def eventActFun (run : Run) : Option (Run × Int) :=
  match run.curState with
  | .begin => some (registerPairingNotfication addr moment run)
  | .step1 => some (writePairingStep1 lib moment run)
  | .step3 => some (writePairingStep3 lib moment run)
  | .commit => writePairingCommit lib moment run
  | .step2 | .step4 | .done => none

/-- `FSMHandle` calls the function of its row, a notification comes, a main loop returns. -/
inductive Event
  | eventActFun (moment : PairingMoment)
  | notify (data : List UInt8)
  | loopExit

/-- One step of a run. `none` is a step that the run cannot take where it stands. -/
def next (run : Run) : Event → Option Run
  | .eventActFun moment =>
    if run.stage ≠ .handling then none
    else if waiting run.curState then some { run with stage := .looping false }
    else (eventActFun lib addr moment run).bind fun (acted, eventResult) =>
      if eventResult ≠ 0 then some { acted with stage := .failed }
      else (nextState run.curState).map fun curState => { acted with curState := curState }
  | .notify data =>
    match run.stage with
    | .looping _ => some (messageHandler run data)
    | .handling | .failed => none
  | .loopExit =>
    if run.stage ≠ .looping true then none
    else (nextState run.curState).map fun curState => { run with stage := .handling, curState := curState }

/-- A task before its first row, with whatever the static variables of the client hold. -/
def Run.start (client : PairingClient) : Run :=
  ⟨.begin, .handling, ⟨.begin, .cleared, bleInitPairingResult⟩, client, false, []⟩

end Bridge.BlePairing
