import Bridge.Ble.Pairing
import Bridge.WifiService.Agreement

namespace Bridge.BlePairing

def Result.Cleared (result : Result) : Prop :=
  result.pairingSuccessed = false ∧ result.adminKey = none ∧ result.password = none

variable (lib : PairingLib)

/-- In this run the client has taken a step 2, and the key is the one that it made from it. -/
def SessionKey (trace : List Call) (key : Key) : Prop := ∃ client step2 session,
  .genPairingStep3Native client step2 ∈ trace ∧ client.acceptStep2 lib step2 = (session, true) ∧
    session.sharedKey_ = key

/-- A message of the run opens under the key to a step 4 that reports success. -/
def OpenedStep4 (trace : List Call) (key : Key) (step4 : PairingStep4) : Prop := ∃ client message plain,
  .recPairingStep4Native client message ∈ trace ∧ client.sharedKey_ = key ∧
    decryptMessage lib.ccm message key client.rxNonce_ = .plain plain ∧ (lib.step4.decode plain).2 = step4 ∧
    step4.success = some true

def WrittenCommit (trace : List Call) (key : Key) : Prop := ∃ client currentTime commitBytes frame, ∃ moment : Moment,
  .genPairingCommitNative client currentTime ∈ trace ∧ client.sharedKey_ = key ∧
    (genPairingCommitNative lib currentTime client).2 = some commitBytes ∧
    buildMsgPayload moment.heap commitBytes = some frame ∧ .write moment frame ∈ trace ∧
    ∀ i < (attPieces frame).length, moment.gattWrite i = gattlibSuccess

def Run.Justified (run : Run) : Prop := ∃ key step4,
  SessionKey lib run.trace key ∧ OpenedStep4 lib run.trace key step4 ∧ WrittenCommit lib run.trace key ∧
    run.connection.pairingResult.password = step4.password ∧
    run.connection.pairingResult.adminKey = some key.toList

/-- What a run may report. Only the commit leads to `BLE_PAIRING_DONE`, so every error exit of a function
    of the table is covered by `unfinished`. -/
structure Run.Truthful (run : Run) : Prop where
  success : run.connection.pairingResult.pairingSuccessed = true → run.Justified lib
  unfinished : run.curState ≠ .done → run.connection.pairingResult.Cleared
  failed : run.stage = .failed → run.connection.pairingResult.Cleared

/-- The commit of this client can be made at this moment, and is written to its end. -/
def Sends (moment : PairingMoment) (client : PairingClient) (commitBytes frame : List UInt8) : Prop :=
  (genPairingCommitNative lib moment.now client).2 = some commitBytes ∧ commitBytes ≠ [] ∧
    sendFrame moment.toMoment commitBytes = some (frame, gattlibSuccess)

/-- The step 4 that the commit takes brings a password, or the commit does not come to its end. -/
def BringsPassword (run : Run) : Event → Prop
  | .eventActFun moment => run.stage = .handling → run.curState = .commit →
    ∀ message client step4 commitBytes frame, run.connection.buffer.pointer = some message →
      recPairingStep4Native lib.ccm lib.step4 run.client message = some (client, some step4) →
      Sends lib moment client commitBytes frame → step4.password ≠ none
  | .notify _ | .loopExit => True

variable {lib}

theorem errorExit_cleared (run : Run) : run.errorExit.connection.pairingResult.Cleared := ⟨rfl, rfl, rfl⟩

theorem written_iff (moment : Moment) (frame : List UInt8) :
    writeCharByUuidMultiAtts moment frame = gattlibSuccess ↔
      ∀ i < (attPieces frame).length, moment.gattWrite i = gattlibSuccess := by
  unfold writeCharByUuidMultiAtts
  cases found : ((List.range (attPieces frame).length).map moment.gattWrite).find? (· ≠ gattlibSuccess) with
  | none =>
    rw [List.find?_eq_none] at found
    simpa using found
  | some ret =>
    have bad := List.find?_some found
    obtain ⟨i, small, rfl⟩ := List.mem_map.mp (List.mem_of_find?_eq_some found)
    simp only [decide_eq_true_eq] at bad
    simp only [Option.getD_some, bad, false_iff, not_forall]
    exact ⟨i, List.mem_range.mp small, bad⟩

theorem sendFrame_some {moment : Moment} {bytes frame : List UInt8} {ret : Int}
    (sent : sendFrame moment bytes = some (frame, ret)) :
    buildMsgPayload moment.heap bytes = some frame ∧ writeCharByUuidMultiAtts moment frame = ret := by
  obtain ⟨built, made, same⟩ := Option.map_eq_some_iff.mp sent
  cases same
  exact ⟨made, rfl⟩

structure Waits (run run' : Run) : Prop where
  curState : run'.curState = run.curState
  client : run'.client = run.client
  trace : run'.trace = run.trace
  result : run'.connection.pairingResult = run.connection.pairingResult
  stage : run'.stage = run.stage ∨ run'.stage = .looping true

theorem handleStepMessage_waits (reached : State) (run : Run) (data : List UInt8) :
    Waits run (handleStepMessage reached run data) := by
  unfold handleStepMessage
  simp only
  split
  · exact ⟨rfl, rfl, rfl, rfl, .inr rfl⟩
  · exact ⟨rfl, rfl, rfl, rfl, .inl rfl⟩

theorem messageHandler_waits (run : Run) (data : List UInt8) : Waits run (messageHandler run data) := by
  unfold messageHandler
  split
  · exact handleStepMessage_waits .step2 run data
  · exact handleStepMessage_waits .step4 run data
  all_goals exact ⟨rfl, rfl, rfl, rfl, .inl rfl⟩

def Unopened (trace : List Call) : Prop := ∀ client message, .recPairingStep4Native client message ∉ trace

theorem Unopened.append {trace : List Call} (unopened : Unopened trace) {call : Call}
    (other : ∀ client message, call ≠ .recPairingStep4Native client message) : Unopened (trace ++ [call]) := by
  intro client message member
  rcases List.mem_append.mp member with before | last
  · exact unopened client message before
  · exact other client message (List.mem_singleton.mp last).symm

theorem SessionKey.append {trace more : List Call} {key : Key} (session : SessionKey lib trace key) :
    SessionKey lib (trace ++ more) key := by
  obtain ⟨client, step2, after, member, rest⟩ := session
  exact ⟨client, step2, after, List.mem_append_left more member, rest⟩

/-- What every function of the table but the commit does with the result and the record. -/
structure Acts (run acted : Run) : Prop where
  curState : acted.curState = run.curState
  stage : acted.stage = run.stage
  cleared : run.connection.pairingResult.Cleared → acted.connection.pairingResult.Cleared
  unopened : Unopened run.trace → Unopened acted.trace

theorem register_acts (addr : List UInt8) (moment : PairingMoment) (run : Run) :
    Acts run (registerPairingNotfication addr moment run).1 := by
  unfold registerPairingNotfication
  simp only
  split
  · exact ⟨rfl, rfl, fun _ => errorExit_cleared _, id⟩
  · split
    · exact ⟨rfl, rfl, fun _ => errorExit_cleared _, id⟩
    · exact ⟨rfl, rfl, fun _ => ⟨rfl, rfl, rfl⟩, id⟩

theorem step1_acts (moment : PairingMoment) (run : Run) : Acts run (writePairingStep1 lib moment run).1 := by
  have wrote : ∀ {frame : List UInt8}, Unopened run.trace → Unopened (run.trace ++ [.write moment.toMoment frame]) :=
    fun unopened => unopened.append fun client message => by simp
  unfold writePairingStep1
  simp only
  split
  · exact ⟨rfl, rfl, id, id⟩
  · split
    · exact ⟨rfl, rfl, id, id⟩
    · split
      · exact ⟨rfl, rfl, fun _ => errorExit_cleared _, id⟩
      · split
        · exact ⟨rfl, rfl, fun _ => errorExit_cleared _, wrote⟩
        · exact ⟨rfl, rfl, id, wrote⟩

theorem step3_acts (moment : PairingMoment) (run : Run) : Acts run (writePairingStep3 lib moment run).1 := by
  have called : Unopened run.trace →
      Unopened (run.trace ++ [.genPairingStep3Native run.client run.connection.buffer.message]) :=
    fun unopened => unopened.append fun client message => by simp
  unfold writePairingStep3
  simp only
  split
  · exact ⟨rfl, rfl, fun _ => errorExit_cleared _, called⟩
  · split
    · exact ⟨rfl, rfl, fun _ => errorExit_cleared _, called⟩
    · split
      · exact ⟨rfl, rfl, fun _ => errorExit_cleared _, fun unopened => (called unopened).append (by simp)⟩
      · exact ⟨rfl, rfl, id, fun unopened => (called unopened).append (by simp)⟩

theorem step3_session {moment : PairingMoment} {run : Run} (done : (writePairingStep3 lib moment run).2 = 0) :
    SessionKey lib (writePairingStep3 lib moment run).1.trace (writePairingStep3 lib moment run).1.client.sharedKey_ := by
  cases made : genPairingStep3Native lib run.client run.connection.buffer.message with
  | mk client step3 =>
    cases step3 with
    | none => simp [writePairingStep3, made] at done
    | some step3Bytes =>
      obtain ⟨accepted, _, step2, _, _, same⟩ := genPairingStep3_ok made
      have session : SessionKey lib
          (run.trace ++ [.genPairingStep3Native run.client run.connection.buffer.message]) client.sharedKey_ :=
        ⟨run.client, run.connection.buffer.message, accepted, List.mem_append_right _ (List.mem_singleton_self _), step2,
          by rw [same]⟩
      unfold writePairingStep3 at done ⊢
      simp only [made] at done ⊢
      split
      · exact session
      · split
        · exact session
        · split
          · exact session.append
          · exact session.append

theorem recPairingStep4_accepted {client client' : PairingClient} {message : List UInt8} {step4 : PairingStep4}
    (done : recPairingStep4Native lib.ccm lib.step4 client message = some (client', some step4)) :
    client'.sharedKey_ = client.sharedKey_ ∧ ∃ plain,
      decryptMessage lib.ccm message client.sharedKey_ client.rxNonce_ = .plain plain ∧
        (lib.step4.decode plain).2 = step4 ∧ step4.success = some true := by
  unfold recPairingStep4Native at done
  cases opened : decryptMessage lib.ccm message client.sharedKey_ client.rxNonce_ with
  | wraps | refused =>
    rw [opened] at done
    cases done
  | plain plain =>
    rw [opened] at done
    simp only at done
    split at done
    · cases done
    · rename_i passed
      cases done
      simp only [Bool.or_eq_true, Bool.not_eq_true', bne_iff_ne, ne_eq, not_or, not_not] at passed
      exact ⟨rfl, plain, rfl, rfl, passed.2⟩

theorem seal_key (client : PairingClient) (plaintext : Option (List UInt8)) :
    (client.seal lib plaintext).1.sharedKey_ = client.sharedKey_ := by
  cases plaintext <;> rfl

theorem commitPairing_sends {moment : PairingMoment} {run : Run} {commitBytes frame : List UInt8}
    (sends : Sends lib moment run.client commitBytes frame) : ∃ acted, commitPairing lib moment run = (acted, 0) ∧
      acted.trace = run.trace ++ [.genPairingCommitNative run.client moment.now, .write moment.toMoment frame] ∧
      acted.connection.pairingResult =
        ⟨run.connection.pairingResult.addr, true, some run.client.sharedKey_.toList, run.connection.pairingResult.password⟩ ∧
      acted.stage = run.stage := by
  obtain ⟨made, whole, sent⟩ := sends
  have key : (genPairingCommitNative lib moment.now run.client).1.sharedKey_ = run.client.sharedKey_ :=
    seal_key run.client _
  have length : commitBytes.length ≠ 0 := fun empty => whole (List.length_eq_zero_iff.mp empty)
  have adminKey : (getAdminKeyNative (genPairingCommitNative lib moment.now run.client).1).length ≠ 0 := by
    simp [getAdminKeyNative]
  simp only [commitPairing, made, Option.getD_some, length, if_false, sent, ne_eq, not_true_eq_false]
  simp only [Run.setStep, Run.setClient, Run.log, adminKey, not_false_eq_true, if_true]
  refine ⟨_, rfl, ?_, ?_, rfl⟩
  · exact List.append_assoc run.trace _ _
  · rw [← key]
    rfl

theorem commitPairing_stops {moment : PairingMoment} {run : Run}
    (stops : ∀ commitBytes frame, ¬Sends lib moment run.client commitBytes frame) :
    ∃ acted, commitPairing lib moment run = (acted, 1) ∧ acted.connection.pairingResult.Cleared ∧
      acted.curState = run.curState := by
  unfold commitPairing
  simp only
  split
  · exact ⟨_, rfl, errorExit_cleared _, rfl⟩
  · rename_i whole
    split
    · exact ⟨_, rfl, errorExit_cleared _, rfl⟩
    · rename_i frame ret sent
      split
      · exact ⟨_, rfl, errorExit_cleared _, rfl⟩
      · rename_i fine
        cases made : (genPairingCommitNative lib moment.now run.client).2 with
        | none =>
          rw [made] at whole
          exact absurd rfl whole
        | some commitBytes =>
          rw [made] at whole sent
          rw [not_not.mp fine] at sent
          have sends : Sends lib moment run.client commitBytes frame :=
            ⟨made, fun empty => whole (congrArg List.length empty), sent⟩
          exact absurd sends (stops commitBytes frame)

/-- The step 4 that the commit opens, and the commit that it sends after it. -/
structure Commits (lib : PairingLib) (moment : PairingMoment) (run : Run) (step4 : PairingStep4) (acted : Run) : Prop where
  accepted : ∃ message client commitBytes frame, run.connection.buffer.pointer = some message ∧
    recPairingStep4Native lib.ccm lib.step4 run.client message = some (client, some step4) ∧
    Sends lib moment client commitBytes frame ∧
    acted.trace = run.trace ++ [.recPairingStep4Native run.client message, .genPairingCommitNative client moment.now,
      .write moment.toMoment frame]
  result : acted.connection.pairingResult =
    ⟨run.connection.pairingResult.addr, true, some run.client.sharedKey_.toList, some (step4.password.getD [])⟩
  stage : acted.stage = run.stage

theorem writePairingCommit_sends {moment : PairingMoment} {run : Run} {message commitBytes frame : List UInt8}
    {client : PairingClient} {step4 : PairingStep4} (pointer : run.connection.buffer.pointer = some message)
    (accepted : recPairingStep4Native lib.ccm lib.step4 run.client message = some (client, some step4))
    (sends : Sends lib moment client commitBytes frame) : ∃ acted,
    writePairingCommit lib moment run = some (acted, 0) ∧ Commits lib moment run step4 acted := by
  obtain ⟨key, _, _, _, success⟩ := recPairingStep4_accepted accepted
  simp only [writePairingCommit, pointer, accepted, Option.map_some, success, if_true]
  obtain ⟨acted, done, trace, result, stage⟩ := @commitPairing_sends lib moment
    (((run.log (.recPairingStep4Native run.client message)).setClient client).setResult
      (bleSetPairingResultPassword run.connection.pairingResult true (step4.password.getD []))) commitBytes frame sends
  refine ⟨acted, congrArg some done, ⟨message, client, commitBytes, frame, pointer, accepted, sends, ?_⟩, ?_, stage⟩
  · rw [trace]
    exact List.append_assoc run.trace _ _
  · rw [result, ← key]
    rfl

theorem writePairingCommit_cases {moment : PairingMoment} {run acted : Run} {ret : Int}
    (done : writePairingCommit lib moment run = some (acted, ret)) :
    (ret ≠ 0 ∧ acted.connection.pairingResult.Cleared ∧ acted.curState = run.curState) ∨
      (ret = 0 ∧ ∃ step4, Commits lib moment run step4 acted) := by
  cases pointer : run.connection.buffer.pointer with
  | none =>
    simp only [writePairingCommit, pointer] at done
    cases done
    exact .inl ⟨by decide, errorExit_cleared _, rfl⟩
  | some message =>
    cases received : recPairingStep4Native lib.ccm lib.step4 run.client message with
    | none =>
      simp only [writePairingCommit, pointer, received] at done
      cases done
    | some answer =>
      obtain ⟨client, taken⟩ := answer
      cases taken with
      | none =>
        simp only [writePairingCommit, pointer, received] at done
        cases done
        exact .inl ⟨by decide, errorExit_cleared _, rfl⟩
      | some step4 =>
        by_cases sends : ∃ commitBytes frame, Sends lib moment client commitBytes frame
        · obtain ⟨commitBytes, frame, sends⟩ := sends
          obtain ⟨acted', done', commits⟩ := writePairingCommit_sends pointer received sends
          rw [done'] at done
          cases done
          exact .inr ⟨rfl, step4, commits⟩
        · obtain ⟨_, _, _, _, success⟩ := recPairingStep4_accepted received
          simp only [writePairingCommit, pointer, received, Option.map_some, success, if_true] at done
          obtain ⟨acted', done', cleared, same⟩ := @commitPairing_stops lib moment
            (((run.log (.recPairingStep4Native run.client message)).setClient client).setResult
              (bleSetPairingResultPassword run.connection.pairingResult true (step4.password.getD [])))
            (fun commitBytes frame sent => sends ⟨commitBytes, frame, sent⟩)
          cases done'.symm.trans (Option.some.inj done)
          exact .inl ⟨by decide, cleared, same⟩

theorem Commits.justified {moment : PairingMoment} {run acted : Run} {step4 : PairingStep4}
    (commits : Commits lib moment run step4 acted) (session : SessionKey lib run.trace run.client.sharedKey_)
    (password : step4.password ≠ none) : acted.Justified lib := by
  obtain ⟨⟨message, client, commitBytes, frame, _, accepted, ⟨made, _, sent⟩, trace⟩, result, _⟩ := commits
  obtain ⟨key, plain, opened, decoded, success⟩ := recPairingStep4_accepted accepted
  obtain ⟨built, written⟩ := sendFrame_some sent
  obtain ⟨bytes, brought⟩ := Option.ne_none_iff_exists'.mp password
  refine ⟨run.client.sharedKey_, step4, ?_, ?_, ?_, ?_, ?_⟩
  · rw [trace]
    exact session.append
  · refine ⟨run.client, message, plain, ?_, rfl, opened, decoded, success⟩
    simp [trace]
  · refine ⟨client, moment.now, commitBytes, frame, moment.toMoment, ?_, key, made, built, ?_,
      (written_iff moment.toMoment frame).mp written⟩
    · simp [trace]
    · simp [trace]
  · rw [result, brought]
    rfl
  · rw [result]

theorem Commits.unjustified {moment : PairingMoment} {run acted : Run} {step4 : PairingStep4}
    (commits : Commits lib moment run step4 acted) (unopened : Unopened run.trace)
    (password : step4.password = none) : ¬acted.Justified lib := by
  obtain ⟨⟨message, client, commitBytes, frame, _, accepted, _, trace⟩, result, _⟩ := commits
  obtain ⟨_, plain, opened, decoded, _⟩ := recPairingStep4_accepted accepted
  rintro ⟨key, step4', _, ⟨client', message', plain', member, rfl, opened', decoded', _⟩, _, reported, _⟩
  have only : client' = run.client ∧ message' = message := by
    rw [trace] at member
    rcases List.mem_append.mp member with before | now
    · exact absurd before (unopened client' message')
    · simpa using now
  obtain ⟨rfl, rfl⟩ := only
  cases opened.symm.trans opened'
  cases decoded.symm.trans decoded'
  rw [result, password] at reported
  cases reported

structure Sound (lib : PairingLib) (run : Run) : Prop where
  cleared : run.curState ≠ .done → run.connection.pairingResult.Cleared
  justified : run.curState = .done → run.Justified lib
  failed : run.stage = .failed → run.curState ≠ .done
  looping : ∀ quit, run.stage = .looping quit → waiting run.curState = true
  session : run.stage ≠ .failed → run.curState = .step4 ∨ run.curState = .commit →
    SessionKey lib run.trace run.client.sharedKey_
  unopened : run.stage ≠ .failed → run.curState ≠ .done → Unopened run.trace

theorem start_sound (lib : PairingLib) (client : PairingClient) : Sound lib (Run.start client) where
  cleared := fun _ => ⟨rfl, rfl, rfl⟩
  justified := fun done => by cases done
  failed := fun failed => by cases failed
  looping := fun quit looping => by cases looping
  session := by rintro _ (now | now) <;> cases now
  unopened := fun _ _ client message member => by cases member

theorem Sound.truthful {run : Run} (sound : Sound lib run) : run.Truthful lib where
  success := by
    intro success
    by_cases done : run.curState = .done
    · exact sound.justified done
    · rw [(sound.cleared done).1] at success
      cases success
  unfinished := sound.cleared
  failed := fun failed => sound.cleared (sound.failed failed)

theorem Sound.notify {run : Run} (sound : Sound lib run) {quit : Bool} (looping : run.stage = .looping quit)
    (data : List UInt8) : Sound lib (messageHandler run data) := by
  obtain ⟨curState, client, trace, result, stage⟩ := messageHandler_waits run data
  have waits := sound.looping quit looping
  have running : run.stage ≠ .failed := by
    rw [looping]
    exact Stage.noConfusion
  have unfinished : run.curState ≠ .done := by
    intro done
    rw [done] at waits
    cases waits
  constructor
  · rw [curState, result]
    exact sound.cleared
  · rw [curState]
    exact fun done => absurd done unfinished
  · rw [curState]
    exact fun _ => unfinished
  · rw [curState]
    exact fun _ _ => waits
  · rw [curState, client, trace]
    exact fun _ => sound.session running
  · rw [curState, trace]
    exact fun _ => sound.unopened running

theorem Sound.wait {run : Run} (sound : Sound lib run) (running : run.stage ≠ .failed)
    (waits : waiting run.curState = true) {stage : Stage} {curState : State}
    (moved : stage = .looping false ∧ curState = run.curState ∨ stage = .handling ∧ nextState run.curState = some curState) :
    Sound lib { run with stage := stage, curState := curState } := by
  have unfinished : run.curState ≠ .done := by
    intro done
    rw [done] at waits
    cases waits
  have later : curState ≠ .done := by
    rcases moved with ⟨_, rfl⟩ | ⟨_, next⟩
    · exact unfinished
    · rintro rfl
      cases now : run.curState <;> simp [now, waiting, nextState] at waits next
  have session : curState = .step4 ∨ curState = .commit → run.curState = .step4 := by
    rcases moved with ⟨_, rfl⟩ | ⟨_, next⟩
    · rintro (now | now)
      · exact now
      · rw [now] at waits
        cases waits
    · rintro (rfl | rfl) <;> cases now : run.curState <;> simp [now, waiting, nextState] at waits next ⊢
  refine ⟨fun _ => sound.cleared unfinished, fun done => absurd done later, fun _ => later, ?_, ?_, ?_⟩
  · intro quit looping
    rcases moved with ⟨_, rfl⟩ | ⟨rfl, _⟩
    · exact waits
    · cases looping
  · exact fun _ now => sound.session running (.inl (session now))
  · exact fun _ _ => sound.unopened running unfinished

theorem Sound.fail {run acted : Run} (unfinished : run.curState ≠ .done) (same : acted.curState = run.curState)
    (cleared : acted.connection.pairingResult.Cleared) : Sound lib { acted with stage := .failed } where
  cleared := fun _ => cleared
  justified := fun done => absurd (same.symm.trans done) unfinished
  failed := fun _ done => unfinished (same.symm.trans done)
  looping := fun quit looping => by cases looping
  session := fun running => absurd rfl running
  unopened := fun running => absurd rfl running

theorem Sound.act {run acted run' : Run} {ret : Int} {later : State} (sound : Sound lib run)
    (handling : run.stage = .handling) (acts : Acts run acted)
    (early : run.curState ≠ .done) (before : later ≠ .done ∧ later ≠ .commit)
    (session : ret = 0 → later = .step4 → SessionKey lib acted.trace acted.client.sharedKey_)
    (done : (if ret ≠ 0 then some { acted with stage := .failed } else some { acted with curState := later }) =
      some run') : Sound lib run' := by
  have cleared := acts.cleared (sound.cleared early)
  split at done
  · cases done
    exact Sound.fail early acts.curState cleared
  · rename_i fine
    cases done
    have stage : acted.stage = .handling := acts.stage.trans handling
    refine ⟨fun _ => cleared, fun now => absurd now before.1, fun _ => before.1, ?_, ?_, ?_⟩
    · intro quit looping
      cases stage.symm.trans looping
    · rintro _ (now | now)
      · exact session (not_not.mp fine) now
      · exact absurd now before.2
    · intro _ _
      exact acts.unopened (sound.unopened (by rw [handling]; decide) early)

variable {addr : List UInt8}

theorem next_sound {run run' : Run} {event : Event} (sound : Sound lib run)
    (brings : BringsPassword lib run event) (done : next lib addr run event = some run') : Sound lib run' := by
  cases event with
  | notify data =>
    cases stage : run.stage with
    | handling | failed =>
      simp only [next, stage] at done
      cases done
    | looping quit =>
      simp only [next, stage] at done
      cases done
      exact sound.notify stage data
  | loopExit =>
    simp only [next] at done
    split at done
    · cases done
    · rename_i looping
      have looping := not_not.mp looping
      have running : run.stage ≠ .failed := by
        rw [looping]
        exact Stage.noConfusion
      obtain ⟨curState, later, rfl⟩ := Option.map_eq_some_iff.mp done
      exact sound.wait running (sound.looping true looping) (.inr ⟨rfl, later⟩)
  | eventActFun moment =>
    simp only [next] at done
    split at done
    · cases done
    · rename_i handling
      have handling := not_not.mp handling
      have running : run.stage ≠ .failed := by
        rw [handling]
        decide
      cases now : run.curState with
      | step2 | step4 =>
        simp only [now, waiting, if_true] at done
        cases done
        exact sound.wait running (by rw [now]; rfl) (.inl ⟨rfl, now.symm⟩)
      | begin =>
        simp only [now, waiting, eventActFun, nextState, Bool.false_eq_true, if_false, Option.bind_some, Option.map_some] at done
        exact sound.act handling (register_acts addr moment run) (by rw [now]; decide) (by decide) (fun _ later => by cases later) done
      | step1 =>
        simp only [now, waiting, eventActFun, nextState, Bool.false_eq_true, if_false, Option.bind_some, Option.map_some] at done
        exact sound.act handling (step1_acts moment run) (by rw [now]; decide) (by decide) (fun _ later => by cases later) done
      | step3 =>
        simp only [now, waiting, eventActFun, nextState, Bool.false_eq_true, if_false, Option.bind_some, Option.map_some] at done
        exact sound.act handling (step3_acts moment run) (by rw [now]; decide) (by decide) (fun fine _ => step3_session fine) done
      | commit =>
        simp only [now, waiting, eventActFun, nextState, Bool.false_eq_true, if_false, Option.map_some] at done
        obtain ⟨⟨acted, ret⟩, written, done⟩ := Option.bind_eq_some_iff.mp done
        rcases writePairingCommit_cases written with ⟨bad, cleared, same⟩ | ⟨rfl, step4, commits⟩
        · simp only [bad, ne_eq, not_false_eq_true, if_true] at done
          cases done
          exact Sound.fail (by rw [now]; decide) same cleared
        · cases done
          have session := sound.session running (.inr now)
          obtain ⟨message, client, commitBytes, frame, pointer, accepted, sends, _⟩ := commits.accepted
          have password := brings handling now message client step4 commitBytes frame pointer accepted sends
          have stage : acted.stage = .handling := commits.stage.trans handling
          refine ⟨fun unfinished => absurd rfl unfinished, fun _ => commits.justified session password, ?_, ?_, ?_, ?_⟩
          · intro failed
            cases stage.symm.trans failed
          · intro quit looping
            cases stage.symm.trans looping
          · rintro _ (later | later) <;> cases later
          · exact fun _ unfinished => absurd rfl unfinished
      | done =>
        simp only [now, waiting, eventActFun, Bool.false_eq_true, if_false] at done
        cases done

theorem next_breaks {run : Run} {event : Event} (sound : Sound lib run)
    (lacks : ¬BringsPassword lib run event) : ∃ run', next lib addr run event = some run' ∧ ¬run'.Truthful lib := by
  cases event with
  | notify | loopExit => exact absurd trivial lacks
  | eventActFun moment =>
    simp only [BringsPassword, not_forall, exists_prop, not_not] at lacks
    obtain ⟨handling, now, message, client, step4, commitBytes, frame, pointer, accepted, sends, password⟩ := lacks
    obtain ⟨acted, written, commits⟩ := writePairingCommit_sends pointer accepted sends
    have unopened := sound.unopened (by rw [handling]; decide) (by rw [now]; decide)
    refine ⟨{ acted with curState := .done }, ?_, ?_⟩
    · simp [next, handling, now, waiting, eventActFun, written, nextState]
    · intro truthful
      have success : acted.connection.pairingResult.pairingSuccessed = true := by rw [commits.result]
      exact commits.unjustified unopened password (truthful.success success)

/-- The result of a run tells the truth in every state, unless a commit is sent after a step 4 without
    a password. -/
theorem pairing_result_truthful (lib : PairingLib) (addr : List UInt8) (client : PairingClient) (events : List Event) :
    Runs.Always (next lib addr) (Run.Truthful lib) (Run.start client) events ↔
      Runs.Along (next lib addr) (BringsPassword lib) (Run.start client) events :=
  Runs.always_iff_along_any (next lib addr) (fun _ _ _ sound brings done => next_sound sound brings done)
    (fun _ sound => sound.truthful) (fun _ _ sound lacks => next_breaks sound lacks) (start_sound lib client) events

-- A whole run at time 0, over private keys 111. The lock sends its step 4 under the key of the session and
-- the client's nonce: `{0: 4, 11: true}`, without a password.

def sampleMoment : PairingMoment :=
  { now := 0, heap := fun _ => 0, gattWrite := fun _ => gattlibSuccess, entropy := 0, gattlibConnect := true
    gattlibNotificationStart := 0, unreturned := 0 }

def sampleStep2 : List UInt8 :=
  [84, 0xa3, 0x00, 0x02, 0x0b, 0x58, 0x40] ++ samplePublicKey ++
    [0x0c, 0x4c, 0, 45, 207, 70, 41, 4, 180, 120, 216, 104, 167, 255]

def sampleStep4 : List UInt8 := [13, 224, 65, 90, 113, 217, 95, 225, 41, 101, 78, 68, 171, 113]

def sampleEvents : List Event :=
  [.eventActFun sampleMoment, .eventActFun sampleMoment, .eventActFun sampleMoment, .notify sampleStep2, .loopExit,
    .eventActFun sampleMoment, .eventActFun sampleMoment, .notify sampleStep4, .loopExit, .eventActFun sampleMoment]

theorem password_invented : ∃ run,
    Runs.run (next samplePairing []) (Run.start sampleClient) sampleEvents = some run ∧
      run.connection.pairingResult.pairingSuccessed = true ∧ run.connection.pairingResult.password = some [] ∧
      ¬Runs.Always (next samplePairing []) (Run.Truthful samplePairing) (Run.start sampleClient) sampleEvents := by
  have ends : (Runs.run (next samplePairing []) (Run.start sampleClient) sampleEvents).map (fun run =>
      (run.connection.pairingResult.pairingSuccessed, run.connection.pairingResult.password,
        run.trace.all fun
          | .recPairingStep4Native client message =>
            match decryptMessage Cifra.aesCcm message client.sharedKey_ client.rxNonce_ with
            | .plain plain => (samplePairing.step4.decode plain).2.password == none
            | .wraps | .refused => true
          | _ => true)) = some (true, some [], true) := by decide +kernel
  obtain ⟨run, reached, facts⟩ := Option.map_eq_some_iff.mp ends
  obtain ⟨success, facts⟩ := Prod.mk.inj facts
  obtain ⟨password, without⟩ := Prod.mk.inj facts
  refine ⟨run, reached, success, password, ?_⟩
  intro always
  obtain ⟨key, step4, _, ⟨client, message, plain, member, rfl, opened, rfl, _⟩, _, same, _⟩ :=
    (always.last _ reached).success success
  have none := List.all_eq_true.mp without _ member
  change decryptMessage Cifra.aesCcm message client.sharedKey_ client.rxNonce_ = .plain plain at opened
  simp only [opened, beq_iff_eq] at none
  rw [password, none] at same
  cases same

end Bridge.BlePairing
