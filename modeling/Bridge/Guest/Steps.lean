import Bridge.Guest.Run

namespace Bridge

variable (lib : GuestLib) (task : TaskType)

/-- What one event can do to the table, the trace, the lock and the step of a run. -/
inductive GuestMove : GuestRun → GuestRun → Prop
  | quiet {run run' : GuestRun} (table : run'.table = run.table) (trace : run'.trace = run.trace)
      (lock : run'.guest.lock = run.guest.lock) (step : run'.guest.guestStep = run.guest.guestStep) :
      GuestMove run run'
  | step3Failed {run run' : GuestRun} (pointer : Option (List UInt8)) (accepted : Bool)
      (sent : List GuestCall) (old : run.guest.guestStep = .begin)
      (table : run'.table = (genConnStep3Native lib.connection run.table 0 pointer).1)
      (trace : run'.trace = run.trace ++ .genConnStep3Native 0 accepted :: sent)
      (nothing : ∀ call ∈ sent, ∃ frame ret, call = .writeStep3 frame ret)
      (lock : run'.guest.lock = run.guest.lock) (step : run'.guest.guestStep = .step3) :
      GuestMove run run'
  | step3Sent {run run' : GuestRun} (pointer : Option (List UInt8)) (frame : List UInt8)
      (old : run.guest.guestStep = .begin)
      (table : run'.table = (genConnStep3Native lib.connection run.table 0 pointer).1)
      (trace : run'.trace = run.trace ++ [.genConnStep3Native 0 true, .writeStep3 frame 0])
      (lock : run'.guest.lock = run.guest.lock) (step : run'.guest.guestStep = .step4) :
      GuestMove run run'
  | step4Stays {run run' : GuestRun} (message : Option (List UInt8)) (passed : Bool)
      (old : run.guest.guestStep = .step4)
      (table : recConnStep4Native lib.connection run.table run.guest.lock.connectionID message =
        some (run'.table, passed))
      (trace : run'.trace = run.trace ++
        [.recConnStep4Native run.guest.lock.connectionID run.table message passed])
      (lock : run'.guest.lock = run.guest.lock) (step : run'.guest.guestStep = .step4) :
      GuestMove run run'
  | requested {run run' : GuestRun} (message : Option (List UInt8)) (table : Connections)
      (plain : List UInt8) (sent : List GuestCall) (old : run.guest.guestStep = .step4)
      (received : recConnStep4Native lib.connection run.table run.guest.lock.connectionID message =
        some (table, true))
      (encrypted : run'.table =
        (encryptNative lib.connection.ccm table run.guest.lock.connectionID plain).1)
      (trace : run'.trace = run.trace ++
        .recConnStep4Native run.guest.lock.connectionID run.table message true ::
          .encryptNative run.guest.lock.connectionID plain :: sent)
      (once : sent = [] ∨ ∃ frame ret, sent = [.writeRequest frame ret])
      (lock : run'.guest.lock = run.guest.lock) (step : run'.guest.guestStep = .cmdResult) :
      GuestMove run run'
  | answered {run run' : GuestRun} (message : List UInt8) (table : Connections)
      (responce : Option (List UInt8)) (ended : List GuestCall) (old : run.guest.guestStep = .cmdResult)
      (decrypted : decryptNative lib.connection.ccm run.table run.guest.lock.connectionID message =
        some (table, responce))
      (trace : run'.trace = run.trace ++ .decryptNative run.guest.lock.connectionID message :: ended)
      (closed : (ended = [] ∧ run'.table = table) ∨
        (ended = [.endConnection run.guest.lock.connectionID] ∧
          run'.table = endConnection table run.guest.lock.connectionID))
      (lock : run'.guest.lock = run.guest.lock) (step : run'.guest.guestStep = .cmdResult) :
      GuestMove run run'

def Step1Sent (moment : Moment) (connectionID : Int) (token : Option (List UInt8)) : Prop :=
  ∃ step1Bytes frame, genConnStep1Native lib.connection connectionID token = some step1Bytes ∧
    sendFrame moment step1Bytes = some (frame, gattlibSuccess)

theorem writeGuestStep1_spec {moment : Moment} {run after : GuestRun} {ret : Int}
    {begun : Connections × Int}
    (begins : beginConnection lib.libc moment.now run.table .guest run.guest.lock.key
      run.guest.lock.key.length = begun)
    (done : writeGuestStep1 lib moment run = (after, ret)) :
    (after.table = begun.1 ∧ after.guest.guestStep = run.guest.guestStep ∧
        after.guest.buffer = run.guest.buffer ∧ after.quit = run.quit) ∧
      ((begun.2 = errorConnectionId ∧ ret ≠ 0 ∧ after.guest.lock = run.guest.lock ∧
          after.trace = run.trace ++ [.beginConnection errorConnectionId]) ∨
        (begun.2 ≠ errorConnectionId ∧
          after.guest.lock = { run.guest.lock with connectionID := begun.2 } ∧
          ((ret = 0 ∧ Step1Sent lib moment begun.2 run.guest.lock.token ∧ ∃ frame, after.trace =
              run.trace ++ [.beginConnection begun.2, .writeStep1 frame gattlibSuccess]) ∨
            (ret ≠ 0 ∧ ¬Step1Sent lib moment begun.2 run.guest.lock.token ∧ ∃ sent,
              after.trace = run.trace ++ .beginConnection begun.2 :: sent ∧
              ∀ call ∈ sent, ∃ frame code, call = .writeStep1 frame code)))) := by
  have failed : errConnection ≠ 0 := by decide
  simp only [writeGuestStep1, begins] at done
  by_cases refused : begun.2 = errorConnectionId
  · simp only [refused, if_true] at done
    cases done
    exact ⟨⟨rfl, rfl, rfl, rfl⟩, Or.inl ⟨refused, failed, rfl, rfl⟩⟩
  · simp only [refused, if_false] at done
    cases step1 : genConnStep1Native lib.connection begun.2 run.guest.lock.token with
    | none =>
      simp only [step1] at done
      cases done
      refine ⟨⟨rfl, rfl, rfl, rfl⟩, Or.inr ⟨refused, rfl, Or.inr ⟨failed, ?_, [], rfl, by simp⟩⟩⟩
      intro sent
      obtain ⟨step1Bytes, frame, built, _⟩ := sent
      rw [step1] at built
      cases built
    | some step1Bytes =>
      cases written : sendFrame moment step1Bytes with
      | none =>
        simp only [step1, written] at done
        cases done
        refine ⟨⟨rfl, rfl, rfl, rfl⟩, Or.inr ⟨refused, rfl, Or.inr ⟨failed, ?_, [], rfl, by simp⟩⟩⟩
        intro sent
        obtain ⟨_, frame, built, out⟩ := sent
        rw [step1] at built
        cases built
        rw [written] at out
        cases out
      | some outcome =>
        obtain ⟨frame, code⟩ := outcome
        simp only [step1, written] at done
        by_cases success : code = gattlibSuccess
        · subst success
          simp only [ne_eq, not_true_eq_false, if_false] at done
          cases done
          refine ⟨⟨rfl, rfl, rfl, rfl⟩, Or.inr ⟨refused, rfl,
            Or.inl ⟨rfl, ⟨step1Bytes, frame, step1, written⟩, frame, ?_⟩⟩⟩
          simp [GuestRun.log, GuestRun.withTable]
        · simp only [ne_eq, success, not_false_eq_true, if_true] at done
          cases done
          refine ⟨⟨rfl, rfl, rfl, rfl⟩, Or.inr ⟨refused, rfl,
            Or.inr ⟨by decide, ?_, [.writeStep1 frame code], ?_, ?_⟩⟩⟩
          · intro sent
            obtain ⟨_, other, built, out⟩ := sent
            rw [step1] at built
            cases built
            rw [written] at out
            cases out
            exact success rfl
          · simp [GuestRun.log, GuestRun.withTable]
          · intro call member
            exact ⟨frame, code, List.mem_singleton.mp member⟩

theorem startGuestRun_spec {setup : GattSetup} {moment : Moment} {table : Connections} {lock : Lock}
    {run : GuestRun} {err : Int} (started : startGuestRun lib setup moment table lock = (run, err)) :
    (setup.ready = false ∧ err ≠ 0 ∧ run = initGuestRun table lock) ∨
      (setup.ready = true ∧ ∃ ret,
        writeGuestStep1 lib moment (initGuestRun table lock) = (run, ret) ∧ (err = 0 ↔ ret = 0)) := by
  have failed : errGatt ≠ 0 ∧ errGlibLoop ≠ 0 ∧ errStep1 ≠ 0 := by decide
  rcases setup with ⟨connect, uuid, notification, loop⟩
  cases connect
  · cases started
    exact Or.inl ⟨rfl, failed.1, rfl⟩
  cases uuid
  · cases started
    exact Or.inl ⟨rfl, failed.1, rfl⟩
  cases notification
  · cases started
    exact Or.inl ⟨rfl, failed.1, rfl⟩
  cases loop
  · cases started
    exact Or.inl ⟨rfl, failed.2.1, rfl⟩
  right
  rcases step1 : writeGuestStep1 lib moment (initGuestRun table lock) with ⟨after, ret⟩
  simp only [startGuestRun, step1, Bool.not_true, Bool.false_eq_true, if_false] at started
  by_cases success : ret = 0
  · simp only [success, ne_eq, not_true_eq_false, if_false] at started
    cases started
    exact ⟨rfl, ret, rfl, iff_of_true rfl success⟩
  · simp only [ne_eq, success, not_false_eq_true, if_true] at started
    cases started
    exact ⟨rfl, ret, rfl, iff_of_false failed.2.2 success⟩

theorem writeGuestStep3_spec {moment : Moment} {run after : GuestRun} {ret : Int}
    (done : writeGuestStep3 lib moment run = (after, ret)) :
    after.table = (genConnStep3Native lib.connection run.table 0 run.guest.buffer.pointer).1 ∧
      after.guest.lock = run.guest.lock ∧
      ((ret = 0 ∧ (∃ frame, after.trace =
            run.trace ++ [.genConnStep3Native 0 true, .writeStep3 frame 0]) ∧
          after.guest.guestStep = .step4) ∨
        (ret ≠ 0 ∧ (∃ accepted sent, after.trace = run.trace ++ .genConnStep3Native 0 accepted :: sent ∧
            ∀ call ∈ sent, ∃ frame ret, call = .writeStep3 frame ret) ∧
          after.guest.guestStep = run.guest.guestStep)) := by
  have failed : errConnection ≠ 0 := by decide
  simp only [writeGuestStep3] at done
  cases step3 : (genConnStep3Native lib.connection run.table 0 run.guest.buffer.pointer).2 with
  | none =>
    simp only [step3] at done
    cases done
    exact ⟨rfl, rfl, Or.inr ⟨failed, ⟨false, [], rfl, by simp⟩, rfl⟩⟩
  | some step3Bytes =>
    simp only [step3] at done
    cases sent : sendFrame moment step3Bytes with
    | none =>
      simp only [sent] at done
      cases done
      exact ⟨rfl, rfl, Or.inr ⟨failed, ⟨true, [], rfl, by simp⟩, rfl⟩⟩
    | some written =>
      obtain ⟨frame, code⟩ := written
      by_cases success : code = gattlibSuccess
      · subst success
        simp only [sent, ne_eq, not_true_eq_false, if_false] at done
        cases done
        refine ⟨rfl, rfl, Or.inl ⟨rfl, ⟨frame, ?_⟩, rfl⟩⟩
        simp [GuestRun.log, GuestRun.withTable, GuestRun.setStep, GuestRun.release, gattlibSuccess]
      · simp only [sent, ne_eq, success, not_false_eq_true, if_true] at done
        cases done
        refine ⟨rfl, rfl, Or.inr ⟨failed, ⟨true, [.writeStep3 frame code], ?_, ?_⟩, rfl⟩⟩
        · simp [GuestRun.log, GuestRun.withTable]
        · intro call member
          exact ⟨frame, code, List.mem_singleton.mp member⟩

theorem handleStep2_moves (moment : Moment) (run : GuestRun) (data : List UInt8)
    (old : run.guest.guestStep = .begin) :
    GuestMove lib run (handleStep2Message lib moment run data) := by
  by_cases whole : (run.save data).guest.buffer.complete = true
  · rcases sent : writeGuestStep3 lib moment ((run.save data).setStep .step3) with ⟨after, ret⟩
    obtain ⟨table, lock, outcome⟩ := writeGuestStep3_spec lib sent
    simp only [handleStep2Message, whole, if_true, sent]
    rcases outcome with ⟨success, ⟨frame, trace⟩, step⟩ | ⟨failed, ⟨accepted, calls, trace, nothing⟩, step⟩
    · simp only [success, ne_eq, not_true_eq_false, if_false]
      exact .step3Sent _ frame old table trace lock step
    · simp only [ne_eq, failed, not_false_eq_true, if_true]
      exact .step3Failed _ accepted calls old table trace nothing lock step
  · simp only [handleStep2Message, whole]
    exact .quiet rfl rfl rfl rfl

theorem writeCmdRequest_spec (moment : Moment) (run : GuestRun) {after : GuestRun}
    (done : writeCmdRequest lib task moment run = after) :
    after.guest.lock = run.guest.lock ∧
      ((after.table = run.table ∧ after.trace = run.trace ∧
          after.guest.guestStep = run.guest.guestStep) ∨
        ∃ plain sent, after.table =
            (encryptNative lib.connection.ccm run.table run.guest.lock.connectionID plain).1 ∧
          after.trace = run.trace ++ .encryptNative run.guest.lock.connectionID plain :: sent ∧
          (sent = [] ∨ ∃ frame ret, sent = [.writeRequest frame ret]) ∧
          after.guest.guestStep = .cmdResult) := by
  simp only [writeCmdRequest] at done
  cases encoded : encodeRequest lib moment.now run.guest.lock task with
  | none =>
    simp only [encoded] at done
    cases done
    exact ⟨rfl, Or.inl ⟨rfl, rfl, rfl⟩⟩
  | some buf =>
    simp only [encoded] at done
    cases sent : (encryptNative lib.connection.ccm run.table run.guest.lock.connectionID buf).2.bind
        (sendFrame moment) with
    | none =>
      simp only [sent] at done
      cases done
      exact ⟨rfl, Or.inr ⟨buf, [], rfl, rfl, Or.inl rfl, rfl⟩⟩
    | some written =>
      simp only [sent] at done
      cases done
      refine ⟨rfl, Or.inr ⟨buf, [.writeRequest written.1 written.2], rfl, ?_, Or.inr ⟨_, _, rfl⟩, rfl⟩⟩
      simp [GuestRun.log, GuestRun.withTable, GuestRun.setStep, GuestRun.setResult]

theorem handleStep4_moves (moment : Moment) (run run' : GuestRun) (data : List UInt8)
    (old : run.guest.guestStep = .step4)
    (done : handleStep4Message lib task moment run data = some run') : GuestMove lib run run' := by
  unfold handleStep4Message at done
  by_cases whole : (run.save data).guest.buffer.complete = true
  · simp only [whole, if_true, Option.map_eq_some_iff] at done
    obtain ⟨⟨table, recRet⟩, received, rfl⟩ := done
    cases recRet with
    | false =>
      simp only [Bool.not_false, if_true]
      exact .step4Stays _ false old received rfl rfl rfl
    | true =>
      simp only [Bool.not_true]
      obtain ⟨lock, outcome⟩ := writeCmdRequest_spec lib task moment
        (((((run.save data).setStep .step4).withTable table).log (.recConnStep4Native
          run.guest.lock.connectionID run.table (run.save data).guest.buffer.pointer true)).setResult 0) rfl
      rcases outcome with ⟨sameTable, sameTrace, step⟩ | ⟨plain, sent, encrypted, trace, once, step⟩
      · refine .step4Stays (run.save data).guest.buffer.pointer true old ?_ sameTrace lock step
        exact received.trans (congrArg (fun reached => some (reached, true)) sameTable.symm)
      · refine .requested _ table plain sent old received encrypted ?_ once lock step
        exact trace.trans (by simp [GuestRun.log, GuestRun.withTable, GuestRun.setStep, GuestRun.setResult,
          GuestRun.save])
  · simp only [whole] at done
    cases done
    exact .quiet rfl rfl rfl rfl

theorem handleCmdResponce_moves (run run' : GuestRun) (data : List UInt8)
    (old : run.guest.guestStep = .cmdResult)
    (done : handleCmdResponce lib task run data = some run') : GuestMove lib run run' := by
  unfold handleCmdResponce at done
  by_cases whole : (run.save data).guest.buffer.complete = true
  · simp only [whole, if_true, Option.map_eq_some_iff] at done
    obtain ⟨⟨table, responce⟩, decrypted, rfl⟩ := done
    cases responce with
    | none => exact .answered _ table none [] old decrypted rfl (Or.inl ⟨rfl, rfl⟩) rfl old
    | some responceBytes =>
      cases answer : decodeResponce lib responceBytes task with
      | undecodable | unknownTask =>
        simp only [answer]
        exact .answered _ table _ [] old decrypted rfl (Or.inl ⟨rfl, rfl⟩) rfl old
      | decoded result store =>
        simp only [answer]
        cases result with
        | none =>
          refine .answered _ table _ [.endConnection run.guest.lock.connectionID] old decrypted ?_
            (Or.inr ⟨rfl, rfl⟩) rfl old
          simp [handleAnswer, GuestRun.log, GuestRun.withTable, GuestRun.setResult, GuestRun.save,
            GuestRun.mainLoopQuit]
        | some result =>
          refine .answered _ table _ [.endConnection run.guest.lock.connectionID] old decrypted ?_
            (Or.inr ⟨rfl, rfl⟩) rfl old
          simp [handleAnswer, GuestRun.log, GuestRun.withTable, GuestRun.setResult, GuestRun.save,
            GuestRun.mainLoopQuit]
  · simp only [whole] at done
    cases done
    exact .quiet rfl rfl rfl rfl

theorem dispatch_moves (run run' : GuestRun) (event : GuestEvent)
    (done : dispatch lib task run event = some run') : GuestMove lib run run' := by
  unfold dispatch at done
  by_cases stopped : run.quit = true
  · simp only [stopped, if_true] at done
    cases done
    exact .quiet rfl rfl rfl rfl
  · simp only [stopped] at done
    cases event with
    | timeout =>
      cases done
      exact .quiet rfl rfl rfl rfl
    | notify moment data =>
      change messageHandler lib task moment run data = some run' at done
      unfold messageHandler at done
      cases step : run.guest.guestStep with
      | begin =>
        simp only [step] at done
        cases done
        exact handleStep2_moves lib moment run data step
      | step4 =>
        simp only [step] at done
        exact handleStep4_moves lib task moment run run' data step done
      | cmdResult =>
        simp only [step] at done
        exact handleCmdResponce_moves lib task run run' data step done
      | step2 | step3 | done =>
        simp only [step] at done
        cases done
        exact .quiet rfl rfl rfl rfl

theorem mainLoop_quit {run : GuestRun} (stopped : run.quit = true) (events : List GuestEvent) :
    mainLoop lib task run events = some run := by
  induction events with
  | nil => rfl
  | cons event rest ih =>
    have idle : dispatch lib task run event = some run := by
      simp only [dispatch, stopped, if_true]
    simp only [mainLoop, Runs.run, idle]
    exact ih

theorem closeGuestRun_trace (run : GuestRun) (err : Int) :
    (closeGuestRun run err).trace = run.trace ++ [.endConnection run.guest.lock.connectionID] := rfl

theorem closeGuestRun_table (run : GuestRun) (err : Int) :
    (closeGuestRun run err).table = endConnection run.table run.guest.lock.connectionID := rfl

end Bridge
