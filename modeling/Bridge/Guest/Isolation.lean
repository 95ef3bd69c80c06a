import Bridge.Connection.Frame
import Bridge.Connection.Release
import Bridge.Guest.Steps

namespace Bridge

variable (lib : GuestLib) (task : TaskType)

def GuestCall.cryptoId : GuestCall → Option Int
  | .genConnStep3Native connectionId _ => some connectionId
  | .recConnStep4Native connectionId _ _ _ => some connectionId
  | .encryptNative connectionId _ => some connectionId
  | .decryptNative connectionId _ => some connectionId
  | .endConnection connectionId => some connectionId
  | .beginConnection _ | .writeStep1 _ _ | .writeStep3 _ _ | .writeRequest _ _ => none

/-- Crypto calls are made with a slot that the run itself has begun, and no other slot changes. -/
structure Isolated (before : Connections) (run : GuestRun) : Prop where
  calls : ∀ call ∈ run.trace, ∀ id, call.cryptoId = some id →
    ∃ i : Fin 32, id = i.val ∧ GuestCall.beginConnection i.val ∈ run.trace
  others : ∀ j : Fin 32, GuestCall.beginConnection j.val ∉ run.trace →
    run.table.at j.val = before.at j.val

def step2Completes (buffer : StepBuffer) : List GuestEvent → Bool
  | [] => false
  | .timeout :: _ => false
  | .notify _ data :: rest =>
    let buffer := (saveMessageData buffer data).1
    buffer.complete || step2Completes buffer rest

theorem GuestMove.sameLock {run run' : GuestRun} (moved : GuestMove lib run run') :
    run'.guest.lock = run.guest.lock := by
  cases moved <;> assumption

theorem GuestMove.calls {run run' : GuestRun} (moved : GuestMove lib run run') :
    ∃ more, run'.trace = run.trace ++ more ∧ ∀ call ∈ more,
      (∀ id, call ≠ .beginConnection id) ∧
      (∀ id, call.cryptoId = some id → id = 0 ∨ id = run.guest.lock.connectionID) := by
  cases moved with
  | quiet table trace lock step =>
    refine ⟨[], by simpa using trace, ?_⟩
    intro call member
    cases member
  | step3Failed pointer accepted sent old table trace nothing lock step =>
    refine ⟨_, trace, ?_⟩
    intro call member
    rcases List.mem_cons.mp member with rfl | late
    · simp [GuestCall.cryptoId]
    · obtain ⟨frame, ret, rfl⟩ := nothing call late
      simp [GuestCall.cryptoId]
  | step3Sent pointer frame old table trace lock step =>
    refine ⟨_, trace, ?_⟩
    intro call member
    simp only [List.mem_cons, List.not_mem_nil, or_false] at member
    rcases member with rfl | rfl <;> simp [GuestCall.cryptoId]
  | step4Stays message passed old table trace lock step =>
    refine ⟨_, trace, ?_⟩
    intro call member
    rw [List.mem_singleton.mp member]
    simp [GuestCall.cryptoId]
  | requested message table plain sent old received encrypted trace once lock step =>
    refine ⟨_, trace, ?_⟩
    intro call member
    simp only [List.mem_cons] at member
    rcases member with rfl | rfl | late
    · simp [GuestCall.cryptoId]
    · simp [GuestCall.cryptoId]
    · rcases once with rfl | ⟨frame, ret, rfl⟩
      · cases late
      · rw [List.mem_singleton.mp late]
        simp [GuestCall.cryptoId]
  | answered message table responce ended old decrypted trace closed lock step =>
    refine ⟨_, trace, ?_⟩
    intro call member
    rcases List.mem_cons.mp member with rfl | late
    · simp [GuestCall.cryptoId]
    · rcases closed with ⟨rfl, _⟩ | ⟨rfl, _⟩
      · cases late
      · rw [List.mem_singleton.mp late]
        simp [GuestCall.cryptoId]

theorem GuestMove.others {run run' : GuestRun} (moved : GuestMove lib run run') {i : Fin 32}
    (own : run.guest.lock.connectionID = i.val) {j : Fin 32} (other : j ≠ i) (later : j ≠ 0) :
    run'.table.at j.val = run.table.at j.val := by
  have inside : i.val ≤ 32 := by omega
  have bound : j.val ≤ 32 := by omega
  have apart : j.val ≠ i.val := fun same => other (Fin.ext same)
  have second : j.val ≠ 0 := fun same => later (Fin.ext same)
  cases moved with
  | quiet table trace lock step => rw [table]
  | step3Failed pointer accepted sent old table trace nothing lock step =>
    rw [table, (genConnStep3Native_zero_touches lib.connection run.table pointer).others _ bound second]
  | step3Sent pointer frame old table trace lock step =>
    rw [table, (genConnStep3Native_zero_touches lib.connection run.table pointer).others _ bound second]
  | step4Stays message passed old table trace lock step =>
    rw [own] at table
    exact (receiveSuccess_touches lib.connection.ccm _ inside table).others _ bound apart
  | requested message table plain sent old received encrypted trace once lock step =>
    rw [own] at received encrypted
    rw [encrypted, (encryptNative_touches lib.connection.ccm table inside plain).others _ bound apart]
    exact (receiveSuccess_touches lib.connection.ccm _ inside received).others _ bound apart
  | answered message table responce ended old decrypted trace closed lock step =>
    rw [own] at decrypted closed
    have received := (decryptNative_touches lib.connection.ccm inside decrypted).others _ bound apart
    rcases closed with ⟨_, same⟩ | ⟨_, ends⟩
    · rw [same, received]
    · rw [ends, end_other table i other later, received]

structure OwnSession (i : Fin 32) (before : Connections) (run : GuestRun) : Prop where
  own : run.guest.lock.connectionID = i.val
  begun : GuestCall.beginConnection i.val ∈ run.trace
  single : ∀ id, GuestCall.beginConnection id ∈ run.trace → id = i.val
  ids : ∀ call ∈ run.trace, ∀ id, call.cryptoId = some id → id = 0 ∨ id = i.val
  others : ∀ j : Fin 32, j ≠ i → j ≠ 0 → run.table.at j.val = before.at j.val

theorem OwnSession.move {i : Fin 32} {before : Connections} {run run' : GuestRun}
    (session : OwnSession i before run) (moved : GuestMove lib run run') : OwnSession i before run' := by
  obtain ⟨more, trace, added⟩ := moved.calls lib
  refine ⟨(congrArg Lock.connectionID (moved.sameLock lib)).trans session.own, ?_, ?_, ?_, ?_⟩
  · rw [trace]
    exact List.mem_append_left _ session.begun
  · intro id member
    rw [trace] at member
    rcases List.mem_append.mp member with early | late
    · exact session.single id early
    · exact absurd rfl ((added _ late).1 id)
  · intro call member id used
    rw [trace] at member
    rcases List.mem_append.mp member with early | late
    · exact session.ids call early id used
    · have slot := (added call late).2 id used
      rwa [session.own] at slot
  · intro j other later
    rw [moved.others lib session.own other later, session.others j other later]

theorem OwnSession.first {before : Connections} {run : GuestRun} (session : OwnSession 0 before run)
    (err : Int) : Isolated before (closeGuestRun run err) := by
  have begun : GuestCall.beginConnection (0 : Fin 32).val ∈ (closeGuestRun run err).trace :=
    List.mem_append_left _ session.begun
  constructor
  · intro call member id used
    refine ⟨0, ?_, begun⟩
    rcases List.mem_append.mp member with early | late
    · rcases session.ids call early id used with zero | zero <;> exact zero
    · rw [List.mem_singleton.mp late] at used
      cases used
      exact session.own
  · intro j unbegun
    have later : j ≠ 0 := by
      intro first
      exact unbegun (first ▸ begun)
    rw [closeGuestRun_table, session.own, end_other run.table 0 later later, session.others j later later]

def Crossed (run : GuestRun) : Prop := ∃ accepted, GuestCall.genConnStep3Native 0 accepted ∈ run.trace

theorem Crossed.run {run run' : GuestRun} (crossed : Crossed run) {events : List GuestEvent}
    (done : mainLoop lib task run events = some run') : Crossed run' := by
  refine Runs.run_preserves (dispatch lib task) ?_ crossed done
  intro s event s' before stepped
  obtain ⟨accepted, member⟩ := before
  obtain ⟨more, trace, _⟩ := (dispatch_moves lib task s s' event stepped).calls lib
  exact ⟨accepted, trace ▸ List.mem_append_left _ member⟩

theorem handleStep2_crosses (moment : Moment) (run : GuestRun) (data : List UInt8)
    (whole : (run.save data).guest.buffer.complete = true) :
    Crossed (handleStep2Message lib moment run data) := by
  rcases sent : writeGuestStep3 lib moment ((run.save data).setStep .step3) with ⟨after, ret⟩
  obtain ⟨_, _, outcome⟩ := writeGuestStep3_spec lib sent
  have crossed : Crossed after := by
    rcases outcome with ⟨_, ⟨frame, trace⟩, _⟩ | ⟨_, ⟨accepted, calls, trace, _⟩, _⟩
    · exact ⟨true, by rw [trace]; simp⟩
    · exact ⟨accepted, by rw [trace]; simp⟩
  simp only [handleStep2Message, whole, if_true, sent]
  split
  · exact crossed
  · exact crossed

theorem mainLoop_step2 {run run' : GuestRun} {events : List GuestEvent}
    (waits : run.guest.guestStep = .begin) (running : run.quit = false)
    (done : mainLoop lib task run events = some run') :
    if step2Completes run.guest.buffer events then Crossed run'
    else run'.table = run.table ∧ run'.trace = run.trace ∧ run'.guest.lock = run.guest.lock := by
  induction events generalizing run with
  | nil =>
    cases done
    exact ⟨rfl, rfl, rfl⟩
  | cons event rest ih =>
    obtain ⟨middle, stepped, done⟩ := Runs.run_cons _ done
    cases event with
    | timeout =>
      simp only [dispatch, running, Bool.false_eq_true, if_false] at stepped
      cases stepped
      have stopped : (stopMainLoopFunc run).quit = true := rfl
      have same := mainLoop_quit lib task stopped rest
      cases done.symm.trans same
      exact ⟨rfl, rfl, rfl⟩
    | notify moment data =>
      simp only [dispatch, running, Bool.false_eq_true, if_false, messageHandler, waits] at stepped
      cases stepped
      by_cases whole : (run.save data).guest.buffer.complete = true
      · have completes : step2Completes run.guest.buffer (.notify moment data :: rest) = true := by
          simp only [step2Completes, Bool.or_eq_true]
          exact Or.inl whole
        rw [if_pos completes]
        exact (handleStep2_crosses lib moment run data whole).run lib task done
      · have saved : handleStep2Message lib moment run data = run.save data := by
          simp only [handleStep2Message, whole, Bool.false_eq_true, if_false]
        rw [saved] at done
        have still : (run.save data).guest.guestStep = .begin := waits
        have later := ih still running done
        have same : step2Completes run.guest.buffer (.notify moment data :: rest) =
            step2Completes (run.save data).guest.buffer rest := by
          have partly := Bool.not_eq_true _ ▸ whole
          simp only [step2Completes]
          exact (congrArg (· || _) partly).trans (Bool.false_or _)
        rw [same]
        exact later

structure FreshSession (i : Fin 32) (before : Connections) (run : GuestRun) : Prop where
  session : OwnSession i before run
  silent : ∀ call ∈ run.trace, call.cryptoId = none
  others : ∀ j : Fin 32, j ≠ i → run.table.at j.val = before.at j.val
  waits : run.guest.guestStep = .begin
  empty : run.guest.buffer = .cleared
  running : run.quit = false

theorem FreshSession.start {i : Fin 32} {before : Connections} {run : GuestRun} {connection : Connection}
    {sent : List GuestCall} (own : run.guest.lock.connectionID = i.val)
    (table : run.table = before.put i.val connection) (trace : run.trace = .beginConnection i.val :: sent)
    (written : ∀ call ∈ sent, ∃ frame ret, call = .writeStep1 frame ret)
    (waits : run.guest.guestStep = .begin) (empty : run.guest.buffer = .cleared) (running : run.quit = false) :
    FreshSession i before run := by
  have silent : ∀ call ∈ run.trace, call.cryptoId = none := by
    intro call member
    rw [trace] at member
    rcases List.mem_cons.mp member with rfl | late
    · rfl
    · obtain ⟨frame, ret, rfl⟩ := written call late
      rfl
  have others : ∀ j : Fin 32, j ≠ i → run.table.at j.val = before.at j.val := by
    intro j other
    have apart : j.val ≠ i.val := fun same => other (Fin.ext same)
    rw [table, Connections.at_put_ne _ _ apart (by omega)]
  refine ⟨⟨own, ?_, ?_, ?_, ?_⟩, silent, others, waits, empty, running⟩
  · rw [trace]
    exact List.mem_cons_self
  · intro id member
    rw [trace] at member
    rcases List.mem_cons.mp member with same | late
    · cases same
      rfl
    · obtain ⟨frame, ret, written⟩ := written _ late
      cases written
  · intro call member id used
    rw [silent call member] at used
    cases used
  · intro j other _
    exact others j other

theorem start_session {setup : GattSetup} {moment : Moment} {table : Connections} {lock : Lock}
    {run : GuestRun} {err : Int} (started : startGuestRun lib setup moment table lock = (run, err)) :
    (∃ i, (setup.ready = true ∧ lock.key.length = 16 ∧ table.firstFree = some i) ∧
        FreshSession i table run ∧ (err = 0 ↔ Step1Sent lib moment i.val lock.token)) ∨
      (¬(setup.ready = true ∧ lock.key.length = 16 ∧ ∃ i, table.firstFree = some i) ∧ err ≠ 0 ∧
        ∀ i : Fin 32, GuestCall.beginConnection i.val ∉ run.trace) := by
  rcases startGuestRun_spec lib started with ⟨unready, failed, rfl⟩ | ⟨ready, ret, step1, same⟩
  · refine Or.inr ⟨?_, failed, by intro i member; cases member⟩
    intro met
    exact absurd (unready.symm.trans met.1) Bool.false_ne_true
  · rcases begins : beginConnection lib.libc moment.now table .guest lock.key lock.key.length with
      ⟨begunTable, id⟩
    obtain ⟨⟨begun, step, buffer, quit⟩, outcome⟩ := writeGuestStep1_spec lib begins step1
    rcases outcome with ⟨refused, failed, _, trace⟩ | ⟨opened, sameLock, sent⟩
    · refine Or.inr ⟨?_, fun success => failed (same.mp success), ?_⟩
      · intro facts
        obtain ⟨_, proper, i, found⟩ := facts
        rw [proper, show ((16 : Nat) : Int) = kConnectionKeyLength from rfl,
          begin_free lib.libc moment.now .guest lock.key found] at begins
        have slot : (i.val : Int) = errorConnectionId := (congrArg Prod.snd begins).trans refused
        unfold errorConnectionId at slot
        omega
      · intro i member
        rw [trace] at member
        cases List.mem_singleton.mp member
    · obtain ⟨proper, i, found⟩ := begin_succeeds lib.libc moment.now .guest lock.key
        (begins ▸ opened : (beginConnection lib.libc moment.now table .guest lock.key
          lock.key.length).2 ≠ errorConnectionId)
      rw [proper, begin_free lib.libc moment.now .guest lock.key found] at begins
      cases begins
      have own : run.guest.lock.connectionID = i.val := by rw [sameLock]
      have length : lock.key.length = 16 := Int.ofNat_inj.mp proper
      refine Or.inl ⟨i, ⟨ready, length, found⟩, ?_⟩
      rcases sent with ⟨success, out, frame, trace⟩ | ⟨failed, lost, calls, trace, written⟩
      · refine ⟨.start own begun trace ?_ step buffer quit, iff_of_true (same.mpr success) out⟩
        intro call member
        exact ⟨frame, gattlibSuccess, List.mem_singleton.mp member⟩
      · exact ⟨.start own begun trace written step buffer quit,
          iff_of_false (fun success => failed (same.mp success)) lost⟩

theorem unbegun_not_isolated {before : Connections} {run : GuestRun}
    (unbegun : ∀ i : Fin 32, GuestCall.beginConnection i.val ∉ run.trace) (err : Int) :
    ¬Isolated before (closeGuestRun run err) := by
  intro isolated
  obtain ⟨i, _, member⟩ := isolated.calls (.endConnection run.guest.lock.connectionID)
    (List.mem_append_right _ (List.mem_singleton.mpr rfl)) _ rfl
  rcases List.mem_append.mp member with early | late
  · exact unbegun i early
  · cases List.mem_singleton.mp late

theorem crossed_not_isolated {i : Fin 32} {before : Connections} {run : GuestRun}
    (session : OwnSession i before run) (later : i ≠ 0) (crossed : Crossed run) (err : Int) :
    ¬Isolated before (closeGuestRun run err) := by
  intro isolated
  obtain ⟨accepted, member⟩ := crossed
  obtain ⟨first, zero, begun⟩ := isolated.calls _ (List.mem_append_left _ member) 0 rfl
  rcases List.mem_append.mp begun with early | late
  · have same := zero.trans (session.single first.val early)
    exact later (Fin.ext (by simpa using same.symm))
  · cases List.mem_singleton.mp late

theorem FreshSession.closed {i : Fin 32} {before : Connections} {run : GuestRun}
    (fresh : FreshSession i before run) (later : i ≠ 0) (err : Int) :
    Isolated before (closeGuestRun run err) ↔ (before.at 0).rxNonce = zeroNonce := by
  have begun : GuestCall.beginConnection i.val ∈ (closeGuestRun run err).trace :=
    List.mem_append_left _ fresh.session.begun
  have ended : (closeGuestRun run err).table = endConnection run.table i.val := by
    rw [closeGuestRun_table, fresh.session.own]
  have zeroth : (closeGuestRun run err).table.at 0 = { before.at 0 with rxNonce := zeroNonce } := by
    rw [ended, end_zeroth run.table later]
    exact congrArg (fun slot : Connection => { slot with rxNonce := zeroNonce })
      (fresh.others 0 (Ne.symm later))
  constructor
  · intro isolated
    have unbegun : GuestCall.beginConnection (0 : Fin 32).val ∉ (closeGuestRun run err).trace := by
      intro member
      rcases List.mem_append.mp member with early | late
      · have same := fresh.session.single _ early
        exact later (Fin.ext (by simpa using same.symm))
      · cases List.mem_singleton.mp late
    have same := zeroth.symm.trans (isolated.others 0 unbegun)
    exact (congrArg Connection.rxNonce same).symm
  · intro cleared
    constructor
    · intro call member id used
      rcases List.mem_append.mp member with early | late
      · rw [fresh.silent call early] at used
        cases used
      · rw [List.mem_singleton.mp late] at used
        cases used
        exact ⟨i, fresh.session.own, begun⟩
    · intro j unbegun
      by_cases first : j = 0
      · subst first
        exact zeroth.trans (by rw [← cleared]; rfl)
      · have other : j ≠ i := fun same => unbegun (same ▸ begun)
        rw [ended, end_other run.table i other first, fresh.others j other]

theorem closed_congr {before : Connections} {run run' : GuestRun} {err : Int} (table : run'.table = run.table)
    (trace : run'.trace = run.trace) (lock : run'.guest.lock = run.guest.lock) :
    Isolated before (closeGuestRun run' err) ↔ Isolated before (closeGuestRun run err) := by
  have sameTable : (closeGuestRun run' err).table = (closeGuestRun run err).table := by
    rw [closeGuestRun_table, closeGuestRun_table, table, lock]
  have sameTrace : (closeGuestRun run' err).trace = (closeGuestRun run err).trace := by
    rw [closeGuestRun_trace, closeGuestRun_trace, trace, lock]
  constructor
  · intro isolated
    exact ⟨sameTrace ▸ isolated.calls, sameTrace ▸ sameTable ▸ isolated.others⟩
  · intro isolated
    exact ⟨sameTrace ▸ isolated.calls, sameTrace ▸ sameTable ▸ isolated.others⟩

theorem leaveMainLoop_closes {run after : GuestRun} {ret : Int}
    (left : leaveMainLoop run = (after, some ret)) : after = closeGuestRun run ret := by
  unfold leaveMainLoop at left
  split at left
  · cases left
  · split at left
    · cases left
      rfl
    · cases left
      rfl

/-- A run keeps to itself exactly when it begins slot 0; in any other slot only as long as no step 2
    completes, because step 3 always uses slot 0, and if slot 0 has no receive nonce to lose. -/
theorem guest_run_isolated (setup : GattSetup) (moment : Moment) (table : Connections) (lock : Lock)
    (events : List GuestEvent) (run : GuestRun) (ret : Int)
    (returned : guestConnectionAndDoCmd lib task setup moment table lock events = some (run, some ret)) :
    Isolated table run ↔
      setup.ready = true ∧ lock.key.length = 16 ∧ ∃ i, table.firstFree = some i ∧
        (i = 0 ∨ ((table.at 0).rxNonce = zeroNonce ∧
          (Step1Sent lib moment i.val lock.token → step2Completes .cleared events = false))) := by
  unfold guestConnectionAndDoCmd at returned
  rcases started : startGuestRun lib setup moment table lock with ⟨begun, err⟩
  simp only [started] at returned
  rcases start_session lib started with ⟨i, ⟨ready, length, found⟩, fresh, sent⟩ | ⟨unmet, failed, unbegun⟩
  · have condition : (setup.ready = true ∧ lock.key.length = 16 ∧ ∃ k, table.firstFree = some k ∧
        (k = 0 ∨ ((table.at 0).rxNonce = zeroNonce ∧
          (Step1Sent lib moment k.val lock.token → step2Completes .cleared events = false)))) ↔
        (i = 0 ∨ ((table.at 0).rxNonce = zeroNonce ∧
          (err = 0 → step2Completes .cleared events = false))) := by
      simp only [ready, length, found, Option.some.injEq, true_and, exists_eq_left', sent]
    rw [condition]
    by_cases failed : err ≠ 0
    · rw [if_pos failed] at returned
      cases returned
      by_cases first : i = 0
      · subst first
        exact iff_of_true (fresh.session.first ret) (Or.inl rfl)
      · rw [fresh.closed first]
        simp [first, failed]
    · obtain rfl : err = 0 := not_not.mp failed
      rw [if_neg failed, Option.map_eq_some_iff] at returned
      obtain ⟨looped, done, exits⟩ := returned
      cases leaveMainLoop_closes exits
      have session : OwnSession i table looped :=
        Runs.run_preserves (dispatch lib task)
          (fun s event s' session moved => session.move lib (dispatch_moves lib task s s' event moved))
          fresh.session done
      by_cases first : i = 0
      · subst first
        exact iff_of_true (session.first ret) (Or.inl rfl)
      · have step2 := mainLoop_step2 lib task fresh.waits fresh.running done
        rw [fresh.empty] at step2
        cases completes : step2Completes .cleared events with
        | true =>
          rw [if_pos completes] at step2
          apply iff_of_false (crossed_not_isolated session first step2 ret)
          simp [first]
        | false =>
          rw [if_neg (Bool.not_eq_true _ ▸ completes)] at step2
          obtain ⟨sameTable, sameTrace, sameLock⟩ := step2
          rw [closed_congr sameTable sameTrace sameLock, fresh.closed first]
          simp [first]
  · rw [if_pos failed] at returned
    cases returned
    apply iff_of_false (unbegun_not_isolated unbegun ret)
    intro met
    obtain ⟨ready, length, i, found, _⟩ := met
    exact unmet ⟨ready, length, i, found⟩

theorem guest_run_isolated_timeout : ∃ run,
    sampleRun [.timeout] = some (run, some errWaiting) ∧
      (Isolated .zero run ↔
        sampleSetup.ready = true ∧ sampleLock.key.length = 16 ∧ ∃ i, Connections.zero.firstFree = some i ∧
          (i = 0 ∨ ((Connections.zero.at 0).rxNonce = zeroNonce ∧
            (Step1Sent sampleLib sampleMoment i.val sampleLock.token →
              step2Completes .cleared [.timeout] = false)))) := by
  have returns : (sampleRun [.timeout]).map Prod.snd = some (some errWaiting) := by decide +kernel
  obtain ⟨⟨run, _⟩, returned, same⟩ := Option.map_eq_some_iff.mp returns
  cases same
  exact ⟨run, returned, guest_run_isolated sampleLib .getBatteryLevel sampleSetup sampleMoment .zero
    sampleLock [.timeout] run errWaiting returned⟩

/-- Another lock's session runs in slot 0. A run in slot 1 receives a step-2 message, and writes its
    nonce into the session of slot 0. -/
theorem other_session_overwritten : ∃ run,
    guestConnectionAndDoCmd sampleLib .getBatteryLevel sampleSetup sampleMoment secondSession sampleLock
        [.notify sampleMoment sampleStep2, .timeout] = some (run, some errWaiting) ∧
      (secondSession.at 0).active = true ∧ (secondSession.at 0).txNonce ≠ (run.table.at 0).txNonce ∧
      ¬Isolated secondSession run := by
  have returns : (guestConnectionAndDoCmd sampleLib .getBatteryLevel sampleSetup sampleMoment secondSession
      sampleLock [.notify sampleMoment sampleStep2, .timeout]).map (fun reached =>
        (decide (GuestCall.beginConnection 0 ∈ reached.1.trace),
          decide ((secondSession.at 0).txNonce = (reached.1.table.at 0).txNonce), reached.2)) =
      some (false, false, some errWaiting) := by decide +kernel
  obtain ⟨⟨run, _⟩, returned, facts⟩ := Option.map_eq_some_iff.mp returns
  obtain ⟨unbegun, facts⟩ := Prod.mk.inj facts
  obtain ⟨overwritten, rfl⟩ := Prod.mk.inj facts
  refine ⟨run, returned, by decide +kernel, of_decide_eq_false overwritten, ?_⟩
  intro isolated
  have same := isolated.others 0 (of_decide_eq_false unbegun)
  exact of_decide_eq_false overwritten (congrArg Connection.txNonce same.symm)

end Bridge
