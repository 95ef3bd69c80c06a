import Bridge.Cifra.Aes
import Bridge.Library.Runs
import Bridge.Guest.Session

namespace Bridge

inductive GuestEvent
  | notify (moment : Moment) (data : List UInt8)
  | timeout

structure GattSetup where
  gattlibConnect : Bool
  gattlibStringToUuid : Bool
  gattlibNotificationStart : Bool
  gMainLoopNew : Bool

def GattSetup.ready (setup : GattSetup) : Bool :=
  setup.gattlibConnect && setup.gattlibStringToUuid && setup.gattlibNotificationStart && setup.gMainLoopNew

variable (lib : GuestLib) (task : TaskType)

def messageHandler (moment : Moment) (run : GuestRun) (data : List UInt8) : Option GuestRun :=
  match run.guest.guestStep with
  | .begin => some (handleStep2Message lib moment run data)
  | .step4 => handleStep4Message lib task moment run data
  | .cmdResult => handleCmdResponce lib task run data
  | .step2 | .step3 | .done => some run

def stopMainLoopFunc (run : GuestRun) : GuestRun :=
  { run with guest := { run.guest with waitingErr := true } }.mainLoopQuit

/-- One event of the main loop: after it has quit nothing is delivered any more. -/
def dispatch (run : GuestRun) (event : GuestEvent) : Option GuestRun :=
  if run.quit then some run
  else match event with
  | .notify moment data => messageHandler lib task moment run data
  | .timeout => some (stopMainLoopFunc run)

def initGuestResult : GuestResult := ⟨0, none, 0, 0⟩

def initGuestRun (table : Connections) (lock : Lock) : GuestRun where
  table := table
  guest := ⟨lock, .begin, .cleared, false, false⟩
  result := initGuestResult
  quit := false
  trace := []

/-- Everything before `g_main_loop_run`: the state, and the error that ends the run there. -/
def startGuestRun (setup : GattSetup) (moment : Moment) (table : Connections) (lock : Lock) :
    GuestRun × Int :=
  let run := initGuestRun table lock
  if !setup.gattlibConnect then (run, errGatt)
  else if !setup.gattlibStringToUuid then (run, errGatt)
  else if !setup.gattlibNotificationStart then (run, errGatt)
  else if !setup.gMainLoopNew then (run, errGlibLoop)
  else
    let (run, ret) := writeGuestStep1 lib moment run
    if ret ≠ 0 then (run, errStep1) else (run, 0)

/-- `GUEST_ERROR_EXIT`: the connection of the lock is ended, whether it was begun or not. -/
def closeGuestRun (run : GuestRun) (err : Int) : GuestRun :=
  let run := run.setResult err
  let connectionID := run.guest.lock.connectionID
  ((run.withTable (endConnection run.table connectionID)).log (.endConnection connectionID)).release

def mainLoop (run : GuestRun) (events : List GuestEvent) : Option GuestRun :=
  Runs.run (dispatch lib task) run events

def leaveMainLoop (run : GuestRun) : GuestRun × Option Int :=
  if !run.quit then (run, none)
  else if run.guest.waitingErr || run.guest.receiveErr then
    (closeGuestRun run errWaiting, some errWaiting)
  else (closeGuestRun run 0, some 0)

def guestConnectionAndDoCmd (setup : GattSetup) (moment : Moment) (table : Connections) (lock : Lock)
    (events : List GuestEvent) : Option (GuestRun × Option Int) :=
  let (run, err) := startGuestRun lib setup moment table lock
  if err ≠ 0 then some (closeGuestRun run err, some err)
  else (mainLoop lib task run events).map leaveMainLoop

inductive Publication
  | status (lockStatus : Int)
  | battery (batteryLevel : Int)
  | activities (logs : List UInt8)
deriving DecidableEq, Repr

def saveTaskData (result : GuestResult) : TaskType → Option Publication
  | .getLockStatus => if result.result ≠ 0 then none else some (.status result.lockStatus)
  | .getBatteryLevel => if result.result ≠ 0 then none else some (.battery result.batteryLevel)
  | .getLogs =>
    if result.result ≠ 0 then none
    else match result.cmdResponse with
      | some (.getLogs response) => some (.activities (response.data.getD []))
      | _ => none
  | _ => none

def handleLockCMD (result : GuestResult) (ret : Int) : Option Publication :=
  if ret ≠ 0 then none else saveTaskData result task

-- A run for a battery level. The codecs write and read what the generated ones do for its messages.

def sampleConnection : ConnectionLib where
  ccm := Cifra.aesCcm
  guestStep1 := { Codec.unused GuestConnectionStep1 with
    encode := fun step1 _ => step1.token.map fun token =>
      [0xa2, 0x00, 0x09, 0x0b, 0x40 + UInt8.ofNat token.length] ++ token }
  guestStep2 := { Codec.unused GuestConnectionStep2 with
    decode := fun bytes => (bytes.take 5 != [0xa2, 0x00, 0x0a, 0x0b, 0x4c], ⟨some (bytes.drop 5)⟩) }
  guestStep3 := { Codec.unused GuestConnectionStep3 with
    encode := fun step3 _ => step3.nonce.map fun nonce => [0xa2, 0x00, 0x0b, 0x0b, 0x4c] ++ nonce }
  guestStep4 := { Codec.unused GuestConnectionStep4 with
    decode := fun bytes => (false, ⟨some (bytes == [0xa2, 0x00, 0x0c, 0x0b, 0xf5])⟩) }
  adminStep3 := .unused _

def sampleCommand : CommandLib where
  lockRequest := .unused _
  unlockRequest := .unused _
  getLockStatusRequest := .unused _
  getBatteryLevelRequest := { Codec.unused GetBatteryLevelRequest with
    encode := fun request _ => request.password.map fun password =>
      [0xa3, 0x00, 0x18, 0x1d, 0x0b, 0x40 + UInt8.ofNat password.length] ++ password ++ [0x18, 0x64, 0x05] }
  getLogsRequest := .unused _
  createPinRequest := .unused _
  deletePinRequest := .unused _
  lockResponse := .unused _
  unlockResponse := .unused _
  getLockStatusResponse := .unused _
  getBatteryLevelResponse := { Codec.unused GetBatteryLevelResponse with
    decode := fun bytes =>
      (bytes.take 5 != [0xa2, 0x00, 0x18, 0x1e, 0x0b], ⟨some (bytes.getD 5 0), none, none⟩) }
  getLogsResponse := .unused _
  createPinResponse := .unused _
  deletePinResponse := .unused _

def sampleLib : GuestLib := ⟨sampleConnection, sampleCommand, ⟨fun _ _ => 5⟩⟩

def sampleSetup : GattSetup := ⟨true, true, true, true⟩

def sampleMoment : Moment := ⟨0, fun _ => 0, fun _ => gattlibSuccess⟩

def sampleLock : Lock := ⟨List.replicate 16 9, some [1, 2, 3], [7, 8], 0⟩

-- The lock answers step 3 with success, then the request with a result of 0 or 1. Both messages are
-- sealed under its key and the receive nonce that the sample begins with, twelve bytes of 5.

def sampleStep2 : List UInt8 := [17, 0xa2, 0x00, 0x0a, 0x0b, 0x4c] ++ List.replicate 12 6

def sampleHandshake : List GuestEvent :=
  [.notify sampleMoment sampleStep2,
    .notify sampleMoment [13, 174, 14, 225, 29, 242, 86, 153, 153, 220, 206, 162, 22, 175]]

def sampleSuccess : List UInt8 := [14, 84, 5, 158, 177, 167, 73, 84, 225, 117, 41, 72, 52, 108, 71]

def sampleFailure : List UInt8 := [14, 84, 5, 158, 177, 167, 72, 13, 25, 101, 46, 152, 197, 117, 34]

def sampleRun (events : List GuestEvent) : Option (GuestRun × Option Int) :=
  guestConnectionAndDoCmd sampleLib .getBatteryLevel sampleSetup sampleMoment .zero sampleLock events

end Bridge
