import Bridge.Guest.Steps

namespace Bridge

variable (lib : GuestLib) (task : TaskType)

/-- What a complete response frame holds: nothing that decrypts and decodes, a result code, or a
    response without one. -/
inductive ResponseOutcome
  | failed
  | reported (result : UInt8)
  | silent
deriving DecidableEq, Repr

def responseOutcome (run : GuestRun) (data : List UInt8) : ResponseOutcome :=
  let message := (run.save data).guest.buffer.message
  match decryptNative lib.connection.ccm run.table run.guest.lock.connectionID message with
  | none => .silent
  | some (_, none) => .failed
  | some (_, some responceBytes) =>
    match decodeResponce lib responceBytes task with
    | .undecodable => .failed
    | .unknownTask => .silent
    | .decoded none _ => .silent
    | .decoded (some result) _ => .reported result

/-- The stored code is the one that the lock sent, and no value is published unless it is 0; a
    response that fails never leaves the success code. -/
def Truthful (outcome : ResponseOutcome) (result : GuestResult) (ret : Int) : Prop :=
  match outcome with
  | .failed => result.result ≠ 0
  | .reported code => result.result = code.toNat ∧ (handleLockCMD task result ret ≠ none → code = 0)
  | .silent => True

theorem writeGuestStep3_waiting (moment : Moment) (run : GuestRun) :
    (writeGuestStep3 lib moment run).1.guest.waitingErr = run.guest.waitingErr := by
  simp only [writeGuestStep3]
  repeat' split
  all_goals rfl

theorem writeCmdRequest_waiting (moment : Moment) (run : GuestRun) :
    (writeCmdRequest lib task moment run).guest.waitingErr = run.guest.waitingErr := by
  simp only [writeCmdRequest]
  repeat' split
  all_goals rfl

theorem handleAnswer_waiting (run : GuestRun) (answer : Answer) :
    (handleAnswer run answer).guest.waitingErr = run.guest.waitingErr := by
  cases answer with
  | undecodable | unknownTask => rfl
  | decoded result store => cases result <;> rfl

theorem messageHandler_waiting {moment : Moment} {run run' : GuestRun} {data : List UInt8}
    (done : messageHandler lib task moment run data = some run') :
    run'.guest.waitingErr = run.guest.waitingErr := by
  unfold messageHandler at done
  split at done
  · cases done
    simp only [handleStep2Message]
    split
    · split
      · exact writeGuestStep3_waiting lib moment _
      · exact writeGuestStep3_waiting lib moment _
    · rfl
  · simp only [handleStep4Message] at done
    split at done
    · simp only [Option.map_eq_some_iff] at done
      obtain ⟨⟨table, recRet⟩, _, rfl⟩ := done
      split
      · rfl
      · exact writeCmdRequest_waiting lib task moment _
    · cases done
      rfl
  · simp only [handleCmdResponce] at done
    split at done
    · simp only [Option.map_eq_some_iff] at done
      obtain ⟨⟨table, responce⟩, _, rfl⟩ := done
      cases responce with
      | none => rfl
      | some responceBytes => exact handleAnswer_waiting _ _
    · cases done
      rfl
  all_goals
    cases done
    rfl

theorem dispatch_waiting {run run' : GuestRun} {event : GuestEvent}
    (timely : run.guest.waitingErr = true → run.quit = true)
    (done : dispatch lib task run event = some run') :
    run'.guest.waitingErr = true → run'.quit = true := by
  unfold dispatch at done
  split at done
  · cases done
    exact timely
  · rename_i running
    cases event with
    | timeout =>
      cases done
      intro _
      rfl
    | notify moment data =>
      have same := messageHandler_waiting lib task done
      intro late
      rw [same] at late
      exact absurd (timely late) running

theorem handleCmdResponce_complete {run run' : GuestRun} {data : List UInt8}
    (whole : (run.save data).guest.buffer.complete = true)
    (done : handleCmdResponce lib task run data = some run') :
    run'.quit = true ∧
      (responseOutcome lib task run data = .failed → run'.guest.receiveErr = true) ∧
      (∀ code, responseOutcome lib task run data = .reported code →
        run'.guest.receiveErr = run.guest.receiveErr) := by
  simp only [handleCmdResponce, whole, if_true, Option.map_eq_some_iff] at done
  obtain ⟨⟨table, responce⟩, decrypted, rfl⟩ := done
  change decryptNative lib.connection.ccm run.table run.guest.lock.connectionID
    (run.save data).guest.buffer.message = some (table, responce) at decrypted
  cases responce with
  | none =>
    refine ⟨rfl, fun _ => rfl, ?_⟩
    intro code outcome
    simp [responseOutcome, decrypted] at outcome
  | some responceBytes =>
    cases answer : decodeResponce lib responceBytes task with
    | undecodable =>
      simp only [answer]
      refine ⟨rfl, fun _ => rfl, ?_⟩
      intro code outcome
      simp [responseOutcome, decrypted, answer] at outcome
    | unknownTask =>
      refine ⟨rfl, ?_, ?_⟩
      · intro outcome
        simp [responseOutcome, decrypted, answer] at outcome
      · intro code outcome
        simp [responseOutcome, decrypted, answer] at outcome
    | decoded result store =>
      refine ⟨rfl, ?_, ?_⟩
      · intro outcome
        cases result <;> simp [responseOutcome, decrypted, answer] at outcome
      · intro code _
        simp only [answer]
        cases result <;> rfl

theorem closed_result (run : GuestRun) (err : Int) : (closeGuestRun run err).result.result = err := rfl

theorem truthful_exit {outcome : ResponseOutcome} {result : GuestResult} {receiveErr before : Bool}
    {ret : Int} (stored : result.result = if receiveErr then errWaiting else 0)
    (fails : outcome = .failed → receiveErr = true)
    (reports : ∀ code, outcome = .reported code → receiveErr = before) :
    Truthful task outcome result ret ↔
      ∀ code, outcome = .reported code → code = 0 ∧ before = false := by
  cases outcome with
  | failed =>
    have nonzero : result.result ≠ 0 := by
      rw [stored, fails rfl]
      decide
    exact iff_of_true nonzero (by intro code same; cases same)
  | silent => exact iff_of_true trivial (by intro code same; cases same)
  | reported code =>
    rw [reports code rfl] at stored
    cases before with
    | true =>
      apply iff_of_false
      · intro truthful
        have negative : errWaiting = code.toNat := stored.symm.trans truthful.1
        unfold errWaiting at negative
        omega
      · intro met
        exact absurd (met code rfl).2 (by decide)
    | false =>
      simp only [Bool.false_eq_true, if_false] at stored
      constructor
      · intro truthful other same
        cases same
        have zero : (0 : Int) = code.toNat := stored.symm.trans truthful.1
        refine ⟨?_, rfl⟩
        rw [← UInt8.toNat_inj]
        exact Int.ofNat_inj.mp zero.symm
      · intro met
        obtain ⟨rfl, _⟩ := met code rfl
        exact ⟨stored, fun _ => rfl⟩

theorem writeGuestStep1_waiting (moment : Moment) (run : GuestRun) :
    (writeGuestStep1 lib moment run).1.guest.waitingErr = run.guest.waitingErr := by
  simp only [writeGuestStep1]
  repeat' split
  all_goals rfl

theorem startGuestRun_waiting (setup : GattSetup) (moment : Moment) (table : Connections) (lock : Lock) :
    (startGuestRun lib setup moment table lock).1.guest.waitingErr = false := by
  have step1 := writeGuestStep1_waiting lib moment (initGuestRun table lock)
  simp only [startGuestRun]
  repeat' split
  all_goals first | rfl | exact step1

theorem looping_iff {setup : GattSetup} {moment : Moment} {table : Connections} {lock : Lock}
    {events : List GuestEvent} {waiting : GuestRun} :
    guestConnectionAndDoCmd lib task setup moment table lock events = some (waiting, none) ↔
      (startGuestRun lib setup moment table lock).2 = 0 ∧ waiting.quit = false ∧
        mainLoop lib task (startGuestRun lib setup moment table lock).1 events = some waiting := by
  have stays : ∀ run, leaveMainLoop run = (waiting, none) ↔ run = waiting ∧ run.quit = false := by
    intro run
    unfold leaveMainLoop
    cases run.quit with
    | false => simp
    | true => cases (run.guest.waitingErr || run.guest.receiveErr) <;> simp
  unfold guestConnectionAndDoCmd
  rcases startGuestRun lib setup moment table lock with ⟨begun, err⟩
  by_cases failed : err ≠ 0
  · simp [failed]
  · obtain rfl : err = 0 := not_not.mp failed
    simp only [ne_eq, not_true_eq_false, if_false, Option.map_eq_some_iff, stays, true_and]
    constructor
    · intro reached
      obtain ⟨run, done, rfl, running⟩ := reached
      exact ⟨running, done⟩
    · intro reached
      exact ⟨waiting, reached.2, rfl, reached.1⟩

theorem looping_in_time {setup : GattSetup} {moment : Moment} {table : Connections} {lock : Lock}
    {events : List GuestEvent} {waiting : GuestRun}
    (looping : guestConnectionAndDoCmd lib task setup moment table lock events = some (waiting, none)) :
    waiting.guest.waitingErr = false := by
  obtain ⟨_, running, done⟩ := (looping_iff lib task).mp looping
  have start := startGuestRun_waiting lib setup moment table lock
  have timely : waiting.guest.waitingErr = true → waiting.quit = true :=
    Runs.run_preserves (dispatch lib task)
      (fun s event s' kept moved => dispatch_waiting lib task kept moved)
      (fun late => absurd (start.symm.trans late) Bool.false_ne_true) done
  cases late : waiting.guest.waitingErr with
  | false => rfl
  | true => exact absurd (running.symm.trans (timely late)) Bool.false_ne_true

theorem looping_goes_on {setup : GattSetup} {moment : Moment} {table : Connections} {lock : Lock}
    {events : List GuestEvent} {waiting : GuestRun}
    (looping : guestConnectionAndDoCmd lib task setup moment table lock events = some (waiting, none))
    (more : List GuestEvent) :
    guestConnectionAndDoCmd lib task setup moment table lock (events ++ more) =
      (mainLoop lib task waiting more).map leaveMainLoop := by
  obtain ⟨started, _, done⟩ := (looping_iff lib task).mp looping
  unfold guestConnectionAndDoCmd
  generalize startGuestRun lib setup moment table lock = start at started done
  obtain ⟨begun, err⟩ := start
  have joined : mainLoop lib task begun (events ++ more) = mainLoop lib task waiting more := by
    unfold mainLoop at done ⊢
    rw [Runs.run_append, done]
    rfl
  obtain rfl : err = 0 := started
  change (mainLoop lib task begun (events ++ more)).map leaveMainLoop = _
  rw [joined]

/-- The result that a run leaves tells the truth about the response exactly when the response
    reports success and no step-4 frame was refused before it, or fails. -/
theorem command_result_truthful (setup : GattSetup) (moment : Moment) (table : Connections)
    (lock : Lock) (events more : List GuestEvent) (arrival : Moment) (data : List UInt8)
    (waiting run : GuestRun) (ret : Int)
    (looping : guestConnectionAndDoCmd lib task setup moment table lock events = some (waiting, none))
    (expects : waiting.guest.guestStep = .cmdResult)
    (whole : (waiting.save data).guest.buffer.complete = true)
    (returned : guestConnectionAndDoCmd lib task setup moment table lock
      (events ++ .notify arrival data :: more) = some (run, some ret)) :
    Truthful task (responseOutcome lib task waiting data) run.result ret ↔
      ∀ code, responseOutcome lib task waiting data = .reported code →
        code = 0 ∧ waiting.guest.receiveErr = false := by
  obtain ⟨_, running, _⟩ := (looping_iff lib task).mp looping
  have inTime := looping_in_time lib task looping
  rw [looping_goes_on lib task looping] at returned
  obtain ⟨last, done, exits⟩ := Option.map_eq_some_iff.mp returned
  obtain ⟨after, answered, done⟩ := Runs.run_cons _ done
  simp only [dispatch, running, Bool.false_eq_true, if_false] at answered
  have late := (messageHandler_waiting lib task answered).trans inTime
  simp only [messageHandler, expects] at answered
  obtain ⟨stopped, fails, reports⟩ := handleCmdResponce_complete lib task whole answered
  have same : last = after := by
    have idle := mainLoop_quit lib task stopped more
    exact Option.some.inj (done.symm.trans idle)
  subst same
  refine truthful_exit task ?_ fails reports
  simp only [leaveMainLoop, stopped, late, Bool.not_true, Bool.false_or, Bool.false_eq_true,
    if_false] at exits
  cases failed : last.guest.receiveErr with
  | true =>
    rw [failed] at exits
    cases exits
    exact closed_result last errWaiting
  | false =>
    rw [failed] at exits
    cases exits
    exact closed_result last 0

set_option synthInstance.maxSize 1024 in
theorem sampleHandshake_waits : (sampleRun sampleHandshake).map (fun reached =>
    ((reached.1.guest.guestStep, (reached.1.save sampleSuccess).guest.buffer.complete, reached.2),
      responseOutcome sampleLib .getBatteryLevel reached.1 sampleFailure,
      ((mainLoop sampleLib .getBatteryLevel reached.1 [.notify sampleMoment sampleSuccess]).map leaveMainLoop).map Prod.snd,
      ((mainLoop sampleLib .getBatteryLevel reached.1 [.notify sampleMoment sampleFailure]).map leaveMainLoop).map
        fun left => (handleLockCMD .getBatteryLevel left.1.result 0, left.2))) =
    some ((.cmdResult, true, none), .reported 1, some (some 0), some (some (.battery 0), some 0)) := by
  decide +kernel

theorem command_result_truthful_sample : ∃ waiting run,
    sampleRun sampleHandshake = some (waiting, none) ∧
      sampleRun (sampleHandshake ++ [.notify sampleMoment sampleSuccess]) = some (run, some 0) ∧
      (Truthful .getBatteryLevel (responseOutcome sampleLib .getBatteryLevel waiting sampleSuccess)
          run.result 0 ↔
        ∀ code, responseOutcome sampleLib .getBatteryLevel waiting sampleSuccess = .reported code →
          code = 0 ∧ waiting.guest.receiveErr = false) := by
  rcases Option.map_eq_some_iff.mp sampleHandshake_waits with ⟨⟨waiting, _⟩, looping, facts⟩
  simp only [Prod.mk.injEq] at facts
  rcases facts with ⟨⟨expects, whole, rfl⟩, _, returns, _⟩
  rcases Option.map_eq_some_iff.mp returns with ⟨⟨run, _⟩, returned, rfl⟩
  rw [← looping_goes_on sampleLib .getBatteryLevel looping] at returned
  exact ⟨waiting, run, looping, returned, command_result_truthful sampleLib .getBatteryLevel sampleSetup
    sampleMoment .zero sampleLock sampleHandshake [] sampleMoment sampleSuccess waiting run 0 looping
    expects whole returned⟩

/-- The lock reports failure, the run leaves success, and a battery level is published. -/
theorem failed_response_published : ∃ waiting run,
    sampleRun sampleHandshake = some (waiting, none) ∧
      sampleRun (sampleHandshake ++ [.notify sampleMoment sampleFailure]) = some (run, some 0) ∧
      responseOutcome sampleLib .getBatteryLevel waiting sampleFailure = .reported 1 ∧
      handleLockCMD .getBatteryLevel run.result 0 = some (.battery 0) ∧
      ¬Truthful .getBatteryLevel (responseOutcome sampleLib .getBatteryLevel waiting sampleFailure)
        run.result 0 := by
  rcases Option.map_eq_some_iff.mp sampleHandshake_waits with ⟨⟨waiting, _⟩, looping, facts⟩
  simp only [Prod.mk.injEq] at facts
  rcases facts with ⟨⟨_, _, rfl⟩, reported, _, returns⟩
  rcases Option.map_eq_some_iff.mp returns with ⟨⟨run, _⟩, returned, left⟩
  rcases Prod.mk.inj left with ⟨published, rfl⟩
  rw [← looping_goes_on sampleLib .getBatteryLevel looping] at returned
  refine ⟨waiting, run, looping, returned, reported, published, ?_⟩
  rw [reported]
  intro truthful
  have success := truthful.2 (by rw [published]; exact Option.some_ne_none _)
  exact absurd success (by decide)

end Bridge
