import Bridge.Connection.Frame
import Bridge.Guest.Steps

namespace Bridge

variable (lib : GuestLib) (task : TaskType)

def GuestCall.isEncrypt : GuestCall → Bool
  | .encryptNative _ _ => true
  | _ => false

def GuestCall.isRequestWrite : GuestCall → Bool
  | .writeRequest _ _ => true
  | _ => false

def GuestCall.isRequest (call : GuestCall) : Bool := call.isEncrypt || call.isRequestWrite

/-- In this order: a connection was begun, its step 1 written, a step-2 message accepted, and on
    that connection a step-4 message decrypted under the session key and found to say success. -/
def Authenticated (lock : Lock) (before : List GuestCall) : Prop :=
  ∃ (i : Fin 32) (frame : List UInt8) (step2Id : Int) (table : Connections) (message plain : List UInt8),
    [GuestCall.beginConnection i.val, .writeStep1 frame gattlibSuccess, .genConnStep3Native step2Id true,
      .recConnStep4Native i.val table (some message) true].Sublist before ∧
    (table.at i.val).key = copyKey lock.key ∧
    decryptMessage lib.connection.ccm message (table.at i.val).key (table.at i.val).rxNonce = .plain plain ∧
    guestStep4Success lib.connection plain = true

structure RequestsInOrder (lock : Lock) (trace : List GuestCall) : Prop where
  encrypted : trace.countP GuestCall.isEncrypt ≤ 1
  written : trace.countP GuestCall.isRequestWrite ≤ 1
  authenticated : ∀ before call, before ++ [call] <+: trace → call.isRequest = true →
    Authenticated lib lock before

def Silent (trace : List GuestCall) : Prop := ∀ call ∈ trace, call.isRequest = false

theorem Silent.append {trace more : List GuestCall} (silent : Silent trace) (later : Silent more) :
    Silent (trace ++ more) := by
  intro call member
  rcases List.mem_append.mp member with early | late
  · exact silent call early
  · exact later call late

theorem Silent.counts {trace : List GuestCall} (silent : Silent trace) :
    trace.countP GuestCall.isEncrypt = 0 ∧ trace.countP GuestCall.isRequestWrite = 0 := by
  refine ⟨List.countP_eq_zero.mpr ?_, List.countP_eq_zero.mpr ?_⟩
  · intro call member encrypts
    have quiet := silent call member
    simp [GuestCall.isRequest, encrypts] at quiet
  · intro call member writes
    have quiet := silent call member
    simp [GuestCall.isRequest, writes] at quiet

theorem Authenticated.later {lock : Lock} {before more : List GuestCall}
    (authenticated : Authenticated lib lock before) : Authenticated lib lock (before ++ more) := by
  obtain ⟨i, frame, step2Id, table, message, plain, order, facts⟩ := authenticated
  exact ⟨i, frame, step2Id, table, message, plain, order.trans (List.sublist_append_left _ _), facts⟩

theorem authenticated_snoc {lock : Lock} {trace : List GuestCall} {last : GuestCall}
    (ordered : ∀ before call, before ++ [call] <+: trace → call.isRequest = true →
      Authenticated lib lock before)
    (request : last.isRequest = true → Authenticated lib lock trace) :
    ∀ before call, before ++ [call] <+: trace ++ [last] → call.isRequest = true →
      Authenticated lib lock before := by
  intro before call shown requests
  rcases List.prefix_concat_iff.mp shown with whole | early
  · obtain ⟨rfl, same⟩ := List.append_inj' whole rfl
    cases same
    exact request requests
  · exact ordered before call early requests

theorem authenticated_append {lock : Lock} {trace more : List GuestCall}
    (ordered : ∀ before call, before ++ [call] <+: trace → call.isRequest = true →
      Authenticated lib lock before)
    (request : Silent more ∨ Authenticated lib lock trace) :
    ∀ before call, before ++ [call] <+: trace ++ more → call.isRequest = true →
      Authenticated lib lock before := by
  induction more generalizing trace with
  | nil =>
    rw [List.append_nil]
    exact ordered
  | cons last rest ih =>
    have step : ∀ before call, before ++ [call] <+: trace ++ [last] → call.isRequest = true →
        Authenticated lib lock before := by
      apply authenticated_snoc lib ordered
      intro requests
      rcases request with silent | authenticated
      · rw [silent last (by simp)] at requests
        cases requests
      · exact authenticated
    have whole := ih step (by
      rcases request with silent | authenticated
      · exact Or.inl fun call member => silent call (List.mem_cons_of_mem _ member)
      · exact Or.inr (authenticated.later lib))
    rwa [List.append_assoc] at whole

theorem silent_ordered {lock : Lock} {trace : List GuestCall} (silent : Silent trace) :
    ∀ before call, before ++ [call] <+: trace → call.isRequest = true →
      Authenticated lib lock before := by
  intro before call shown requests
  have member : call ∈ trace := shown.subset (by simp)
  rw [silent call member] at requests
  cases requests

theorem RequestsInOrder.of_silent {lock : Lock} {trace : List GuestCall} (silent : Silent trace) :
    RequestsInOrder lib lock trace where
  encrypted := by rw [silent.counts.1]; omega
  written := by rw [silent.counts.2]; omega
  authenticated := silent_ordered lib silent

theorem RequestsInOrder.silent {lock : Lock} {trace more : List GuestCall}
    (inOrder : RequestsInOrder lib lock trace) (silent : Silent more) :
    RequestsInOrder lib lock (trace ++ more) where
  encrypted := by
    rw [List.countP_append, silent.counts.1]
    exact inOrder.encrypted
  written := by
    rw [List.countP_append, silent.counts.2]
    exact inOrder.written
  authenticated := authenticated_append lib inOrder.authenticated (Or.inl silent)

theorem RequestsInOrder.request {lock : Lock} {trace sent : List GuestCall} (silent : Silent trace)
    (authenticated : Authenticated lib lock trace) (connectionId : Int) (plain : List UInt8)
    (once : sent = [] ∨ ∃ frame ret, sent = [.writeRequest frame ret]) :
    RequestsInOrder lib lock (trace ++ .encryptNative connectionId plain :: sent) := by
  have single : sent.countP GuestCall.isEncrypt = 0 ∧ sent.countP GuestCall.isRequestWrite ≤ 1 := by
    rcases once with rfl | ⟨frame, ret, rfl⟩
    · exact ⟨rfl, Nat.zero_le _⟩
    · exact ⟨rfl, Nat.le_refl _⟩
  refine ⟨?_, ?_, authenticated_append lib (silent_ordered lib silent) (Or.inr authenticated)⟩
  · rw [List.countP_append, silent.counts.1, List.countP_cons, single.1]
    simp [GuestCall.isEncrypt]
  · rw [List.countP_append, silent.counts.2, List.countP_cons]
    simpa [GuestCall.isRequestWrite] using single.2

/-- What the step of a run tells about the calls made so far. -/
def Phase (i : Fin 32) (lock : Lock) (trace : List GuestCall) : GuestStep → Prop
  | .begin => Silent trace ∧ ∃ frame,
      [GuestCall.beginConnection i.val, .writeStep1 frame gattlibSuccess].Sublist trace
  | .step4 => Silent trace ∧ ∃ frame step2Id,
      [GuestCall.beginConnection i.val, .writeStep1 frame gattlibSuccess,
        .genConnStep3Native step2Id true].Sublist trace
  | .cmdResult => RequestsInOrder lib lock trace
  | .step2 | .step3 | .done => Silent trace

structure InOrder (i : Fin 32) (lock : Lock) (run : GuestRun) : Prop where
  own : run.guest.lock.connectionID = i.val
  key : (run.table.at i.val).key = copyKey lock.key
  phase : Phase lib i lock run.trace run.guest.guestStep

theorem InOrder.move {i : Fin 32} {lock : Lock} {run run' : GuestRun} (inOrder : InOrder lib i lock run)
    (moved : GuestMove lib run run') : InOrder lib i lock run' := by
  have inside : i.val ≤ 32 := by omega
  have phase := inOrder.phase
  have silentRec : ∀ connectionId table message passed,
      Silent [GuestCall.recConnStep4Native connectionId table message passed] := by
    intro connectionId table message passed call member
    rw [List.mem_singleton.mp member]
    rfl
  cases moved with
  | quiet table trace sameLock step =>
    exact ⟨by rw [sameLock, inOrder.own], by rw [table, inOrder.key], by rw [trace, step]; exact phase⟩
  | step3Failed pointer accepted sent old table trace nothing sameLock step =>
    rw [old] at phase
    refine ⟨by rw [sameLock, inOrder.own], ?_, ?_⟩
    · rw [table, (genConnStep3Native_zero_touches lib.connection run.table pointer).key_at inside]
      exact inOrder.key
    · rw [step, trace]
      apply phase.1.append
      intro call member
      rcases List.mem_cons.mp member with rfl | late
      · rfl
      · obtain ⟨frame, ret, rfl⟩ := nothing call late
        rfl
  | step3Sent pointer frame old table trace sameLock step =>
    rw [old] at phase
    obtain ⟨silent, step1Frame, order⟩ := phase
    refine ⟨by rw [sameLock, inOrder.own], ?_, ?_⟩
    · rw [table, (genConnStep3Native_zero_touches lib.connection run.table pointer).key_at inside]
      exact inOrder.key
    · rw [step, trace]
      refine ⟨silent.append ?_, step1Frame, 0, ?_⟩
      · intro call member
        rcases List.mem_cons.mp member with rfl | late
        · rfl
        · rw [List.mem_singleton.mp late]
          rfl
      · have accepted : [GuestCall.genConnStep3Native 0 true].Sublist
            [.genConnStep3Native 0 true, .writeStep3 frame 0] := by
          simp
        exact order.append accepted
  | step4Stays message passed old table trace sameLock step =>
    rw [old] at phase
    obtain ⟨silent, frame, step2Id, order⟩ := phase
    rw [inOrder.own] at table
    refine ⟨by rw [sameLock, inOrder.own], ?_, ?_⟩
    · rw [(receiveSuccess_touches lib.connection.ccm _ inside table).key, inOrder.key]
    · rw [step, trace]
      exact ⟨silent.append (silentRec _ _ _ _), frame, step2Id,
        order.trans (List.sublist_append_left _ _)⟩
  | requested message table plain sent old received encrypted trace once sameLock step =>
    rw [old] at phase
    obtain ⟨silent, frame, step2Id, order⟩ := phase
    rw [inOrder.own] at received encrypted trace
    obtain ⟨bytes, opened, rfl, decrypted, success⟩ :=
      receiveSuccess_passed lib.connection.ccm _ inside received
    refine ⟨by rw [sameLock, inOrder.own], ?_, ?_⟩
    · rw [encrypted, (encryptNative_touches lib.connection.ccm table inside plain).key,
        (receiveSuccess_touches lib.connection.ccm _ inside received).key, inOrder.key]
    · have authenticated : Authenticated lib lock
          (run.trace ++ [.recConnStep4Native i.val run.table (some bytes) true]) :=
        ⟨i, frame, step2Id, run.table, bytes, opened, order.append (List.Sublist.refl _), inOrder.key,
          decrypted, success⟩
      have whole := RequestsInOrder.request lib (silent.append (silentRec _ _ _ _)) authenticated
        i.val plain once
      rw [step, trace]
      rwa [List.append_assoc] at whole
  | answered message table responce ended old decrypted trace closed sameLock step =>
    rw [old] at phase
    rw [inOrder.own] at decrypted closed
    have received := (decryptNative_touches lib.connection.ccm inside decrypted).key.trans inOrder.key
    refine ⟨by rw [sameLock, inOrder.own], ?_, ?_⟩
    · rcases closed with ⟨_, same⟩ | ⟨_, ends⟩
      · rw [same, received]
      · rw [ends, endConnection_key _ _ inside, received]
    · rw [step, trace]
      apply phase.silent lib
      intro call member
      rcases List.mem_cons.mp member with rfl | late
      · rfl
      · rcases closed with ⟨rfl, _⟩ | ⟨rfl, _⟩
        · cases late
        · rw [List.mem_singleton.mp late]
          rfl

theorem start_silent {setup : GattSetup} {moment : Moment} {table : Connections} {lock : Lock}
    {run : GuestRun} {err : Int} (started : startGuestRun lib setup moment table lock = (run, err)) :
    Silent run.trace := by
  rcases startGuestRun_spec lib started with ⟨_, _, rfl⟩ | ⟨_, ret, step1, _⟩
  · intro call member
    cases member
  · obtain ⟨_, refused | ⟨_, _, outcome⟩⟩ := writeGuestStep1_spec lib rfl step1
    · rw [refused.2.2.2]
      intro call member
      rw [List.mem_singleton.mp member]
      rfl
    · rcases outcome with ⟨_, _, frame, trace⟩ | ⟨_, _, sent, trace, written⟩
      · rw [trace]
        intro call member
        rcases List.mem_cons.mp member with rfl | late
        · rfl
        · rw [List.mem_singleton.mp late]
          rfl
      · rw [trace]
        intro call member
        rcases List.mem_cons.mp member with rfl | late
        · rfl
        · obtain ⟨frame, code, rfl⟩ := written call late
          rfl

theorem start_in_order {setup : GattSetup} {moment : Moment} {table : Connections} {lock : Lock}
    {run : GuestRun} (started : startGuestRun lib setup moment table lock = (run, 0)) :
    ∃ i, InOrder lib i lock run := by
  have silent := start_silent lib started
  rcases startGuestRun_spec lib started with ⟨_, failed, _⟩ | ⟨_, ret, step1, same⟩
  · exact absurd rfl failed
  · obtain ⟨⟨begun, step, _, _⟩, outcome⟩ := writeGuestStep1_spec lib rfl step1
    have success : ret = 0 := same.mp rfl
    rcases outcome with ⟨_, failed, _⟩ | ⟨opened, sameLock, ⟨_, _, frame, trace⟩ | ⟨failed, _⟩⟩
    · exact absurd success failed
    · obtain ⟨proper, i, found⟩ := begin_succeeds lib.libc moment.now .guest lock.key opened
      change run.table = (beginConnection lib.libc moment.now table .guest lock.key lock.key.length).1 at begun
      change run.guest.lock = { lock with connectionID :=
        (beginConnection lib.libc moment.now table .guest lock.key lock.key.length).2 } at sameLock
      change run.trace = [.beginConnection
        (beginConnection lib.libc moment.now table .guest lock.key lock.key.length).2,
        .writeStep1 frame gattlibSuccess] at trace
      change run.guest.guestStep = .begin at step
      change (lock.key.length : Int) = kConnectionKeyLength at proper
      change table.firstFree = some i at found
      rw [proper, begin_free lib.libc moment.now .guest lock.key found] at begun sameLock trace
      refine ⟨i, ?_, ?_, ?_⟩
      · rw [sameLock]
      · rw [begun, Connections.at_put_self]
      · rw [step]
        exact ⟨silent, frame, by rw [trace]⟩
    · exact absurd success failed

theorem InOrder.requests {i : Fin 32} {lock : Lock} {run : GuestRun} (inOrder : InOrder lib i lock run) :
    RequestsInOrder lib lock run.trace := by
  have phase := inOrder.phase
  cases step : run.guest.guestStep with
  | begin | step4 =>
    rw [step] at phase
    exact .of_silent lib phase.1
  | cmdResult =>
    rw [step] at phase
    exact phase
  | step2 | step3 | done =>
    rw [step] at phase
    exact .of_silent lib phase

theorem RequestsInOrder.close {lock : Lock} {run : GuestRun}
    (inOrder : RequestsInOrder lib lock run.trace) (err : Int) :
    RequestsInOrder lib lock (closeGuestRun run err).trace := by
  rw [closeGuestRun_trace]
  apply inOrder.silent lib
  intro call member
  rw [List.mem_singleton.mp member]
  rfl

/-- Whatever a run is notified of, it encrypts and writes at most one command request, and only
    after the whole handshake. -/
theorem command_request_authenticated (setup : GattSetup) (moment : Moment) (table : Connections)
    (lock : Lock) (events : List GuestEvent) (run : GuestRun) (ret : Option Int)
    (reached : guestConnectionAndDoCmd lib task setup moment table lock events = some (run, ret)) :
    RequestsInOrder lib lock run.trace := by
  unfold guestConnectionAndDoCmd at reached
  rcases started : startGuestRun lib setup moment table lock with ⟨begun, err⟩
  simp only [started] at reached
  by_cases failed : err ≠ 0
  · rw [if_pos failed] at reached
    cases reached
    exact (RequestsInOrder.of_silent lib (start_silent lib started)).close lib err
  · rw [if_neg failed, Option.map_eq_some_iff] at reached
    obtain ⟨looped, done, exits⟩ := reached
    obtain ⟨i, inOrder⟩ := start_in_order lib (started.trans (by rw [not_not.mp failed]))
    have kept : InOrder lib i lock looped :=
      Runs.run_preserves (dispatch lib task)
        (fun s event s' inOrder moved => inOrder.move lib (dispatch_moves lib task s s' event moved))
        inOrder done
    have requests := kept.requests lib
    unfold leaveMainLoop at exits
    split at exits
    · cases exits
      exact requests
    · split at exits
      · cases exits
        exact requests.close lib errWaiting
      · cases exits
        exact requests.close lib 0

theorem command_request_authenticated_sample : ∃ run,
    sampleRun sampleHandshake = some (run, none) ∧ run.trace.countP GuestCall.isEncrypt = 1 ∧
      RequestsInOrder sampleLib sampleLock run.trace := by
  have waits : (sampleRun sampleHandshake).map (fun reached =>
      (reached.1.trace.countP GuestCall.isEncrypt, reached.2)) = some (1, none) := by decide +kernel
  obtain ⟨⟨run, _⟩, reached, facts⟩ := Option.map_eq_some_iff.mp waits
  obtain ⟨once, rfl⟩ := Prod.mk.inj facts
  exact ⟨run, reached, once, command_request_authenticated sampleLib .getBatteryLevel sampleSetup
    sampleMoment .zero sampleLock sampleHandshake run none reached⟩

end Bridge
