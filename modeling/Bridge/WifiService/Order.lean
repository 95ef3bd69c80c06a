import Bridge.WifiService.Authentic
import Bridge.WifiService.Framing
import Mathlib.Data.List.GetD
import Mathlib.Data.List.Sublists

namespace Bridge

structure Reply where
  event : PairingEvent
  payload : List UInt8
  written : List (List UInt8)
deriving DecidableEq, Repr

structure PairingLog where
  server : WifiServer
  states : List UInt8
  replies : List Reply
  written : List (List UInt8)

def PairingEvent.isReply : PairingEvent → Bool
  | .sReplyStep2 | .sReplyStep4 => true
  | .cSubscribe | .cWriteStep1 | .cWriteStep3 | .cWriteCommit | .sPairingComplete | .errEvent => false

variable (lib : ServerLib) (write : ClientWrite)

def PairingLog.withServer (log : PairingLog) (server : WifiServer) : PairingLog := { log with server := server }

def PairingLog.move (log : PairingLog) : PairingLog := { log with states := log.states ++ [log.server.fsm.curState] }

def PairingLog.reply (log : PairingLog) (event : PairingEvent) (payload : List UInt8) : PairingLog :=
  if event.isReply then { log with replies := log.replies ++ [⟨event, payload, log.written⟩], written := [] }
  else log

-- The steps of the server over its record. An event that returns 0 has moved the machine, and has sent
-- its reply if it has one.

def PairingLog.handle (log : PairingLog) (event : PairingEvent) : Option (PairingLog × Int) :=
  (log.server.handle lib write event).map fun (server, ret) =>
    (if ret = 0 then (log.withServer server).move.reply event log.server.frame else log.withServer server, ret)

def recordEvent (log : PairingLog) (event reply : PairingEvent) : Option PairingLog :=
  (log.handle lib write event).bind fun (log, _) =>
    ((log.withServer (log.server.withEvent reply)).handle lib write reply).map Prod.fst

def recordClientEvent (log : PairingLog) : Option PairingLog :=
  let s := log.server
  if s.chr.event = PairingEvent.cWriteStep1.code then recordEvent lib write log .cWriteStep1 .sReplyStep2
  else if s.chr.event = PairingEvent.cWriteStep3.code then
    recordEvent lib write (log.withServer ⟨s.log (.step3 s.frame s.pairing), s.fsm⟩) .cWriteStep3 .sReplyStep4
  else if s.chr.event = PairingEvent.cWriteCommit.code then
    recordEvent lib write (log.withServer ⟨s.log (.commit s.frame s.pairing), s.fsm⟩) .cWriteCommit .sPairingComplete
  else some log

def PairingLog.receive (log : PairingLog) (write : ClientWrite) : PairingLog :=
  { log with server := log.server.receive write, written := log.written ++ [write.value] }

def recordWrite (log : PairingLog) (write : ClientWrite) : Option PairingLog :=
  if write.value = [] then some log
  else
    let log := log.receive write
    if isRecvFullPkg log.server.chr.recvPairingData then
      recordClientEvent lib write (log.withServer (decideEvent log.server))
    else some log

def PairingLog.start (server : WifiServer) : PairingLog := ⟨server, [server.fsm.curState], [], []⟩

def pairingOrder : List UInt8 :=
  [PairingStatus.begin.code, PairingStatus.step1.code, PairingStatus.step2.code, PairingStatus.step3.code,
    PairingStatus.step4.code, PairingStatus.complete.code, SetWifiStatus.begin.code]

def framePayload (frame : List UInt8) : List UInt8 :=
  (frame.drop (getDataLength frame []).2.1).take (getDataLength frame []).2.2

/-- The payload is that of one frame, which is as long as its header says and was put together from
    writes since the reply before. -/
def Reply.Framed (reply : Reply) : Prop := ∃ chunks : List (List UInt8), chunks.Sublist reply.written ∧
  (getDataLength (chunks.map kept).flatten []).1 = (chunks.map kept).flatten.length ∧
  reply.payload = framePayload (chunks.map kept).flatten

structure PairingLog.InOrder (log : PairingLog) : Prop where
  states : log.states <+: pairingOrder
  last : log.states.getLast? = some log.server.fsm.curState
  replies : log.replies.map Reply.event <+: [.sReplyStep2, .sReplyStep4]

def HasHeader (bytes : List UInt8) : Prop := 0 < bytes.length ∧ (bytes.getD 0 0 = 0xff → 3 ≤ bytes.length)

def BringsHeader (s : WifiServer) (write : ClientWrite) : Prop :=
  write.value ≠ [] → s.chr.recvPairingData.recvStatus = .none → s.chr.recvPairingData.data = none →
    HasHeader (kept write.value)

theorem reply_server (log : PairingLog) (event : PairingEvent) (payload : List UInt8) :
    (log.reply event payload).server = log.server := by
  unfold PairingLog.reply
  split
  · rfl
  · rfl

theorem handle_server (log : PairingLog) (event : PairingEvent) :
    (log.handle lib write event).map (fun done => (done.1.server, done.2)) = log.server.handle lib write event := by
  unfold PairingLog.handle
  cases log.server.handle lib write event with
  | none => rfl
  | some done =>
    obtain ⟨server, ret⟩ := done
    simp only [Option.map_some, Option.some.injEq, Prod.mk.injEq, and_true]
    split
    · exact reply_server _ event _
    · rfl

theorem recordEvent_server (log : PairingLog) (event reply : PairingEvent) :
    (recordEvent lib write log event reply).map PairingLog.server = clientEvent lib write log.server event reply := by
  unfold recordEvent clientEvent
  rw [← handle_server lib write log event]
  cases log.handle lib write event with
  | none => rfl
  | some done =>
    obtain ⟨between, ret⟩ := done
    have second := handle_server lib write (between.withServer (between.server.withEvent reply)) reply
    change _ = (between.server.withEvent reply).handle lib write reply at second
    simp only [Option.map_some, Option.bind_some, ← second, Option.map_map]
    rfl

theorem recordClientEvent_server (log : PairingLog) :
    (recordClientEvent lib write log).map PairingLog.server = handleClientEvent lib write log.server := by
  unfold recordClientEvent handleClientEvent
  simp only
  split
  · exact recordEvent_server lib write log _ _
  · split
    · exact recordEvent_server lib write _ _ _
    · split
      · exact recordEvent_server lib write _ _ _
      · rfl

theorem recordWrite_server (log : PairingLog) (write : ClientWrite) :
    (recordWrite lib log write).map PairingLog.server = chrWriteValue lib log.server write := by
  unfold recordWrite chrWriteValue
  split
  · rfl
  · simp only
    by_cases full : isRecvFullPkg (log.receive write).server.chr.recvPairingData = true
    · rw [if_pos full]
      exact (recordClientEvent_server lib write _).trans (if_pos full).symm
    · rw [if_neg full]
      exact (if_neg full).symm

section Steps

variable {lib write} {leftover : Nat → UInt8 × UInt8 × UInt8} {log log' : PairingLog}

/-- What an event that came to `ret` adds to the record. -/
structure Recorded (event : PairingEvent) (later : UInt8) (ret : Int) (log log' : PairingLog) : Prop where
  states : log'.states = log.states ++ (if ret = 0 then [later] else [])
  replies : log'.replies = log.replies ++
    (if ret = 0 ∧ event.isReply = true then [⟨event, log.server.frame, log.written⟩] else [])
  written : log'.written = if ret = 0 ∧ event.isReply = true then [] else log.written

theorem handle_records {event : PairingEvent} {state later : UInt8} {action : PairingAction} {ret : Int}
    (table : log.server.fsm.fsmTransTable = (initPairingFsm leftover).fsmTransTable)
    (now : log.server.fsm.curState = state)
    (filled : fillTransItem event.code state action later ∈ pairingTransItems.eraseIdx 5)
    (done : log.handle lib write event = some (log', ret)) :
    pairingAct lib write action log.server.toServerData = some (log'.server.toServerData, ret) ∧
      log'.server.fsm.fsmTransTable = (initPairingFsm leftover).fsmTransTable ∧
      log'.server.fsm.curState = (if ret = 0 then later else state) ∧ Recorded event later ret log log' := by
  obtain ⟨⟨server, code⟩, handled, same⟩ := Option.map_eq_some_iff.mp done
  obtain ⟨acted, kept, moved⟩ := handle_filled lib write table now filled handled
  cases same
  by_cases fine : ret = 0
  · subst fine
    rw [if_pos rfl] at moved
    rw [if_pos rfl, reply_server]
    refine ⟨acted, kept, moved, ?_⟩
    by_cases replies : event.isReply = true
    · constructor
      · simp [PairingLog.reply, replies, PairingLog.move, PairingLog.withServer, moved]
      · simp [PairingLog.reply, replies, PairingLog.move, PairingLog.withServer]
      · simp [PairingLog.reply, replies]
    · constructor
      · simp [PairingLog.reply, replies, PairingLog.move, PairingLog.withServer, moved]
      · simp [PairingLog.reply, replies, PairingLog.move, PairingLog.withServer]
      · simp [PairingLog.reply, replies, PairingLog.move, PairingLog.withServer]
  · rw [if_neg fine]
    refine ⟨acted, kept, moved, ?_, ?_, ?_⟩
    · simp [fine, PairingLog.withServer]
    · simp [fine, PairingLog.withServer]
    · simp [fine, PairingLog.withServer]

theorem recordEvent_spec {event reply : PairingEvent} {state middle later : UInt8} {logs action : PairingAction}
    (done : recordEvent lib write log event reply = some log')
    (table : log.server.fsm.fsmTransTable = (initPairingFsm leftover).fsmTransTable)
    (now : log.server.fsm.curState = state)
    (first : fillTransItem event.code state logs middle ∈ pairingTransItems.eraseIdx 5)
    (only : pairingAct lib write logs = fun data => some (data, 0)) (silent : event.isReply = false)
    (second : fillTransItem reply.code middle action later ∈ pairingTransItems.eraseIdx 5) :
    ∃ ret, pairingAct lib write action (log.server.withEvent reply).toServerData =
        some (log'.server.toServerData, ret) ∧
      log'.server.fsm.fsmTransTable = (initPairingFsm leftover).fsmTransTable ∧
      log'.server.fsm.curState = (if ret = 0 then later else middle) ∧
      Recorded reply later ret { log with states := log.states ++ [middle] } log' := by
  obtain ⟨⟨between, code⟩, handled, done⟩ := Option.bind_eq_some_iff.mp done
  obtain ⟨⟨after, ret⟩, answered, same⟩ := Option.map_eq_some_iff.mp done
  cases same
  obtain ⟨logged, kept, moved, states, replies, written⟩ := handle_records table now first handled
  rw [only] at logged
  obtain ⟨same, rfl⟩ := Prod.mk.inj (Option.some.inj logged)
  simp only [silent, Bool.false_eq_true, and_false, if_false, List.append_nil] at replies written
  have data : (between.server.withEvent reply).toServerData = (log.server.withEvent reply).toServerData := by
    unfold WifiServer.withEvent
    rw [← same]
  obtain ⟨acted, keptOn, movedOn, record⟩ :=
    @handle_records lib write leftover (between.withServer (between.server.withEvent reply)) after reply middle later
      action ret kept moved second answered
  refine ⟨ret, data ▸ acted, keptOn, movedOn, ?_, ?_, ?_⟩
  · rw [record.states]
    change between.states ++ _ = _
    rw [states, if_pos rfl]
  · have frame : (between.server.withEvent reply).frame = log.server.frame := by
      unfold WifiServer.frame
      rw [data]
      rfl
    rw [record.replies]
    change between.replies ++ (if _ then [⟨reply, (between.server.withEvent reply).frame, between.written⟩] else []) = _
    rw [frame, replies, written]
  · rw [record.written]
    change (if _ then [] else between.written) = _
    rw [written]

/-- What a complete frame leads to in a state that waits for one. -/
structure Answered (leftover : Nat → UInt8 × UInt8 × UInt8) (reply : PairingEvent) (middle later : UInt8)
    (log log' : PairingLog) : Prop where
  table : log'.server.fsm.fsmTransTable = (initPairingFsm leftover).fsmTransTable
  event : log'.server.chr.event = reply.code
  outcome : ∃ ret : Int, log'.server.fsm.curState = (if ret = 0 then later else middle) ∧
    Recorded reply later ret { log with states := log.states ++ [middle] } log' ∧
    log'.server.chr.recvPairingData = if ret = 0 ∧ reply.isReply = true then
      resetRecvData log.server.chr.recvPairingData else log.server.chr.recvPairingData

theorem begin_event (now : log.server.fsm.curState = PairingStatus.begin.code) :
    recordClientEvent lib write (log.withServer (decideEvent log.server)) =
      recordEvent lib write (log.withServer (log.server.withEvent .cWriteStep1)) .cWriteStep1 .sReplyStep2 := by
  unfold decideEvent
  rw [if_pos now]
  rfl

theorem step2_event (now : log.server.fsm.curState = PairingStatus.step2.code) :
    recordClientEvent lib write (log.withServer (decideEvent log.server)) =
      recordEvent lib write (log.withServer ⟨(log.server.withEvent .cWriteStep3).log
        (.step3 log.server.frame log.server.pairing), log.server.fsm⟩) .cWriteStep3 .sReplyStep4 := by
  have other : PairingStatus.step2.code ≠ PairingStatus.begin.code := by decide
  unfold decideEvent
  rw [now, if_neg other, if_pos rfl]
  rfl

theorem step4_event (now : log.server.fsm.curState = PairingStatus.step4.code) :
    recordClientEvent lib write (log.withServer (decideEvent log.server)) =
      recordEvent lib write (log.withServer ⟨(log.server.withEvent .cWriteCommit).log
        (.commit log.server.frame log.server.pairing), log.server.fsm⟩) .cWriteCommit .sPairingComplete := by
  have other : PairingStatus.step4.code ≠ PairingStatus.begin.code := by decide
  have another : PairingStatus.step4.code ≠ PairingStatus.step2.code := by decide
  unfold decideEvent
  rw [now, if_neg other, if_neg another, if_pos rfl]
  rfl

theorem first_row : fillTransItem PairingEvent.cWriteStep1.code PairingStatus.begin.code
    PairingAction.handleWriteStep1 PairingStatus.step1.code ∈ pairingTransItems.eraseIdx 5 := by decide

theorem second_row : fillTransItem PairingEvent.sReplyStep2.code PairingStatus.step1.code
    PairingAction.handleReplyStep2 PairingStatus.step2.code ∈ pairingTransItems.eraseIdx 5 := by decide

theorem third_row : fillTransItem PairingEvent.cWriteStep3.code PairingStatus.step2.code
    PairingAction.handleWriteStep3 PairingStatus.step3.code ∈ pairingTransItems.eraseIdx 5 := by decide

theorem fourth_row : fillTransItem PairingEvent.sReplyStep4.code PairingStatus.step3.code
    PairingAction.handleReplyStep4 PairingStatus.step4.code ∈ pairingTransItems.eraseIdx 5 := by decide

theorem fifth_row : fillTransItem PairingEvent.cWriteCommit.code PairingStatus.step4.code
    PairingAction.handleWriteCommit PairingStatus.complete.code ∈ pairingTransItems.eraseIdx 5 := by decide

theorem last_row : fillTransItem PairingEvent.sPairingComplete.code PairingStatus.complete.code
    PairingAction.handlePairingComplete SetWifiStatus.begin.code ∈ pairingTransItems.eraseIdx 5 := by decide

theorem step1_answered (table : log.server.fsm.fsmTransTable = (initPairingFsm leftover).fsmTransTable)
    (now : log.server.fsm.curState = PairingStatus.begin.code)
    (done : recordClientEvent lib write (log.withServer (decideEvent log.server)) = some log') :
    Answered leftover .sReplyStep2 PairingStatus.step1.code PairingStatus.step2.code log log' := by
  rw [begin_event now] at done
  obtain ⟨ret, acted, kept, moved, record⟩ := recordEvent_spec done table now first_row rfl rfl second_row
  obtain ⟨event, outcome⟩ := handleReplyStep2_spec lib write acted
  refine ⟨kept, event, ret, moved, ⟨record.states, record.replies, record.written⟩, ?_⟩
  rcases outcome with ⟨failed, _, recv⟩ | ⟨rfl, _, recv⟩
  · rw [recv, if_neg (fun both => failed both.1)]
    rfl
  · rw [recv, if_pos ⟨rfl, rfl⟩]
    rfl

theorem step3_answered (table : log.server.fsm.fsmTransTable = (initPairingFsm leftover).fsmTransTable)
    (now : log.server.fsm.curState = PairingStatus.step2.code)
    (whole : getPkgFromRecvData log.server.chr.recvPairingData = some log.server.frame)
    (done : recordClientEvent lib write (log.withServer (decideEvent log.server)) = some log') :
    Answered leftover .sReplyStep4 PairingStatus.step3.code PairingStatus.step4.code log log' := by
  rw [step2_event now] at done
  obtain ⟨ret, acted, kept, moved, record⟩ := recordEvent_spec done table now third_row rfl rfl fourth_row
  obtain ⟨event, _, _, outcome⟩ := handleReplyStep4_spec lib write acted whole
  refine ⟨kept, event, ret, moved, ⟨record.states, record.replies, record.written⟩, ?_⟩
  rcases outcome with ⟨failed, _, recv⟩ | ⟨rfl, recv⟩
  · rw [recv, if_neg (fun both => failed both.1)]
    rfl
  · rw [recv, if_pos ⟨rfl, rfl⟩]
    rfl

theorem commit_answered (table : log.server.fsm.fsmTransTable = (initPairingFsm leftover).fsmTransTable)
    (now : log.server.fsm.curState = PairingStatus.step4.code)
    (done : recordClientEvent lib write (log.withServer (decideEvent log.server)) = some log') :
    Answered leftover .sPairingComplete PairingStatus.complete.code SetWifiStatus.begin.code log log' := by
  rw [step4_event now] at done
  obtain ⟨ret, acted, kept, moved, record⟩ := recordEvent_spec done table now fifth_row rfl rfl last_row
  have silent : ¬(ret = 0 ∧ PairingEvent.sPairingComplete.isReply = true) := fun both => by cases both.2
  rcases handlePairingComplete_spec lib write (Option.some.inj acted) with ⟨_, data⟩ | ⟨_, data⟩
  · refine ⟨kept, by rw [data]; rfl, ret, moved, ⟨record.states, record.replies, record.written⟩, ?_⟩
    rw [if_neg silent, data]
    rfl
  · refine ⟨kept, by rw [data]; rfl, ret, moved, ⟨record.states, record.replies, record.written⟩, ?_⟩
    rw [if_neg silent, data]
    rfl

/-- How far the machine has come, by the states that it has been in and the replies that it has sent. -/
inductive PairingPhase : UInt8 → List UInt8 → List PairingEvent → Prop
  | begin : PairingPhase PairingStatus.begin.code (pairingOrder.take 1) []
  | step1 : PairingPhase PairingStatus.step1.code (pairingOrder.take 2) []
  | step2 : PairingPhase PairingStatus.step2.code (pairingOrder.take 3) [.sReplyStep2]
  | step3 : PairingPhase PairingStatus.step3.code (pairingOrder.take 4) [.sReplyStep2]
  | step4 : PairingPhase PairingStatus.step4.code (pairingOrder.take 5) [.sReplyStep2, .sReplyStep4]
  | complete : PairingPhase PairingStatus.complete.code (pairingOrder.take 6) [.sReplyStep2, .sReplyStep4]
  | setWifi : PairingPhase SetWifiStatus.begin.code (pairingOrder.take 7) [.sReplyStep2, .sReplyStep4]

structure OrderInv (leftover : Nat → UInt8 × UInt8 × UInt8) (log : PairingLog) : Prop where
  table : log.server.fsm.fsmTransTable = (initPairingFsm leftover).fsmTransTable
  phase : PairingPhase log.server.fsm.curState log.states (log.replies.map Reply.event)
  backed : log.server.chr.recvPairingData.Backed
  idle : ¬Awaits log.server.fsm.curState → ¬IsClientEvent log.server.chr.event

theorem OrderInv.inOrder (inv : OrderInv leftover log) : log.InOrder := by
  have phase := inv.phase
  generalize now : log.server.fsm.curState = state at phase
  generalize been : log.states = states at phase
  generalize sent : log.replies.map Reply.event = events at phase
  refine ⟨?_, ?_, ?_⟩
  · rw [been]
    cases phase <;> exact List.take_prefix _ _
  · rw [been, now]
    cases phase <;> rfl
  · rw [sent]
    cases phase <;> decide

theorem Recorded.events {reply : PairingEvent} {later : UInt8} {ret : Int} (record : Recorded reply later ret log log') :
    log'.replies.map Reply.event = log.replies.map Reply.event ++ if ret = 0 ∧ reply.isReply = true then [reply] else [] := by
  rw [record.replies, List.map_append]
  split
  · rfl
  · rfl

theorem Answered.order {reply : PairingEvent} {middle later : UInt8} {events : List PairingEvent}
    (answered : Answered leftover reply middle later log log') (backed : log.server.chr.recvPairingData.Backed)
    (sent : log.replies.map Reply.event = events)
    (stays : PairingPhase middle (log.states ++ [middle]) events)
    (moves : PairingPhase later (log.states ++ [middle] ++ [later]) (events ++ if reply.isReply = true then [reply] else []))
    (idle : ¬IsClientEvent reply.code) : OrderInv leftover log' := by
  obtain ⟨table, event, ret, curState, record, buffer⟩ := answered
  have quiet : ¬IsClientEvent log'.server.chr.event := by rwa [event]
  refine ⟨table, ?_, ?_, fun _ => quiet⟩
  · rw [curState, record.states, record.events]
    by_cases fine : ret = 0
    · simpa [fine, sent] using moves
    · simpa [fine, sent] using stays
  · rw [buffer]
    split
    · exact resetRecvData_backed _
    · exact backed

/-- The write is received and nothing else happens: no frame is complete, or none is waited for. -/
structure Passed (log : PairingLog) (write : ClientWrite) (log' : PairingLog) : Prop where
  received : log' = log.receive write
  waits : isRecvFullPkg (log.receive write).server.chr.recvPairingData = true → ¬Awaits log.server.fsm.curState

theorem recordWrite_cases (inv : OrderInv leftover log) (done : recordWrite lib log write = some log') :
    OrderInv leftover log' ∧ (write.value = [] ∧ log' = log ∨ write.value ≠ [] ∧ (Passed log write log' ∨
      isRecvFullPkg (log.receive write).server.chr.recvPairingData = true ∧ Awaits log.server.fsm.curState ∧
        ∃ reply middle later, Answered leftover reply middle later (log.receive write) log')) := by
  unfold recordWrite at done
  split at done
  · rename_i empty
    cases done
    exact ⟨inv, .inl ⟨empty, rfl⟩⟩
  · rename_i nonempty
    have backed : (recvData log.server.chr.recvPairingData write.value write.stray).Backed :=
      fun _ => recvData_data inv.backed write.value write.stray
    have received : OrderInv leftover (log.receive write) := ⟨inv.table, inv.phase, backed, inv.idle⟩
    simp only at done
    split at done
    · rename_i full
      have answered : ∀ {reply middle later events}, Answered leftover reply middle later (log.receive write) log' →
          (log.receive write).replies.map Reply.event = events →
          PairingPhase middle ((log.receive write).states ++ [middle]) events →
          PairingPhase later ((log.receive write).states ++ [middle] ++ [later])
            (events ++ if reply.isReply = true then [reply] else []) →
          ¬IsClientEvent reply.code → Awaits log.server.fsm.curState → OrderInv leftover log' ∧
            (write.value = [] ∧ log' = log ∨ write.value ≠ [] ∧ (Passed log write log' ∨
              isRecvFullPkg (log.receive write).server.chr.recvPairingData = true ∧ Awaits log.server.fsm.curState ∧
                ∃ reply middle later, Answered leftover reply middle later (log.receive write) log')) := by
        intro reply middle later events answered sent stays moves idle awaits
        exact ⟨answered.order backed sent stays moves idle, .inr ⟨nonempty, .inr ⟨full, awaits, _, _, _, answered⟩⟩⟩
      have phase := received.phase
      generalize now : (log.receive write).server.fsm.curState = state at phase
      generalize been : (log.receive write).states = states at phase answered
      generalize sent : (log.receive write).replies.map Reply.event = events at phase answered
      cases phase with
      | begin =>
        exact answered (step1_answered received.table now done) rfl .step1 .step2 (by unfold IsClientEvent; decide)
          (.inl now)
      | step2 =>
        exact answered (step3_answered received.table now (receive_pkg write inv.backed) done) rfl .step3 .step4
          (by unfold IsClientEvent; decide) (.inr (.inl now))
      | step4 =>
        exact answered (commit_answered received.table now done) rfl .complete .setWifi
          (by unfold IsClientEvent; decide) (.inr (.inr now))
      | step1 | step3 | complete | setWifi =>
        have waits : ¬Awaits (log.receive write).server.fsm.curState := by
          rw [now]
          unfold Awaits
          decide
        have event := received.idle waits
        have passes := waits
        simp only [Awaits, not_or] at waits
        simp only [IsClientEvent, not_or] at event
        unfold decideEvent at done
        simp only [waits.1, waits.2.1, waits.2.2, if_false] at done
        unfold recordClientEvent at done
        simp only [PairingLog.withServer, event.1, event.2.1, event.2.2, if_false] at done
        cases done
        exact ⟨received, .inr ⟨nonempty, .inl ⟨rfl, fun _ => passes⟩⟩⟩
    · rename_i partly
      cases done
      exact ⟨received, .inr ⟨nonempty, .inl ⟨rfl, fun full => absurd full partly⟩⟩⟩

theorem HasHeader.stable {bytes : List UInt8} (header : HasHeader bytes) (more stray : List UInt8) :
    getDataLength (bytes ++ more) stray = getDataLength bytes [] := by
  have same : ∀ i < bytes.length, (bytes ++ more ++ stray).getD i 0 = (bytes ++ []).getD i 0 := by
    intro i inside
    rw [List.append_assoc, List.getD_append _ _ _ _ inside, List.getD_append _ _ _ _ inside]
  obtain ⟨filled, long⟩ := header
  simp only [getDataLength, same 0 filled]
  by_cases marked : bytes.getD 0 0 = 0xff
  · have three := long marked
    rw [same 1 (by omega), same 2 (by omega)]
  · have plain : ((bytes ++ []).getD 0 0).toNat ≠ 0xff := by
      intro same
      apply marked
      rw [List.append_nil] at same
      exact UInt8.toNat_inj.mp same
    rw [if_neg plain, if_neg plain]

theorem HasHeader.append {bytes : List UInt8} (header : HasHeader bytes) (more : List UInt8) :
    HasHeader (bytes ++ more) := by
  refine ⟨?_, ?_⟩
  · rw [List.length_append]
    exact Nat.add_pos_left header.1 _
  · intro marked
    rw [List.getD_append _ _ _ _ header.1] at marked
    have three := header.2 marked
    rw [List.length_append]
    omega

def Buffered (written : List (List UInt8)) (recv : RecvData) : Prop := recv.Shaped fun declared stored =>
  ∃ chunks : List (List UInt8), chunks.Sublist written ∧ stored = (chunks.map kept).flatten ∧ HasHeader stored ∧
    declared = getDataLength stored []

theorem recvData_buffered {written : List (List UInt8)} {recv : RecvData} (buffered : Buffered written recv)
    (write : ClientWrite) (brings : recv.recvStatus = .none → recv.data = none → HasHeader (kept write.value)) :
    Buffered (written ++ [write.value]) (recvData recv write.value write.stray) := by
  apply recvData_shaped buffered
  · intro status free
    have header := brings status free
    have split : write.value = kept write.value ++ write.value.drop (write.value.length % 2 ^ 16) :=
      (List.take_append_drop _ _).symm
    refine ⟨[write.value], List.sublist_append_right _ _, by simp, header, ?_⟩
    rw [← header.stable _ write.stray, ← split]
  · rintro declared stored ⟨chunks, inside, rest⟩
    exact ⟨chunks, inside.trans (List.sublist_append_left _ _), rest⟩
  · rintro declared stored ⟨chunks, inside, rfl, header, rfl⟩
    refine ⟨chunks ++ [write.value], inside.append (List.Sublist.refl _), by simp, header.append _, ?_⟩
    exact (header.stable _ []).symm

theorem Buffered.full {written : List (List UInt8)} {recv : RecvData} (buffered : Buffered written recv)
    (held : recv.data.isSome = true) (full : isRecvFullPkg recv = true) : ∃ chunks : List (List UInt8),
    chunks.Sublist written ∧
      (getDataLength (chunks.map kept).flatten []).1 = (chunks.map kept).flatten.length ∧
      getPkgFromRecvData recv = some (framePayload (chunks.map kept).flatten) := by
  cases buffered with
  | empty _ free =>
    rw [free] at held
    cases held
  | blocked _ _ short =>
    have same : recv.recvLen = recv.dataLen := beq_iff_eq.mp full
    omega
  | part declared stored holds _ same =>
    obtain ⟨chunks, inside, rfl, _, rfl⟩ := holds
    subst same
    exact ⟨chunks, inside, (beq_iff_eq.mp full).symm, rfl⟩

structure FrameInv (log : PairingLog) : Prop where
  buffered : Buffered log.written log.server.chr.recvPairingData
  framed : ∀ reply ∈ log.replies, reply.Framed

theorem recordWrite_framed (order : OrderInv leftover log) (inv : FrameInv log) (brings : BringsHeader log.server write)
    (done : recordWrite lib log write = some log') : FrameInv log' := by
  obtain ⟨_, cases⟩ := recordWrite_cases order done
  rcases cases with ⟨_, rfl⟩ | ⟨nonempty, cases⟩
  · exact inv
  · have buffered : Buffered (log.receive write).written (log.receive write).server.chr.recvPairingData :=
      recvData_buffered inv.buffered write (brings nonempty)
    rcases cases with ⟨rfl, _⟩ | ⟨full, _, reply, middle, later, _, _, ret, _, record, buffer⟩
    · exact ⟨buffered, inv.framed⟩
    · have held := recvData_data order.backed write.value write.stray
      obtain ⟨chunks, inside, complete, payload⟩ := buffered.full held full
      by_cases sent : ret = 0 ∧ reply.isReply = true
      · rw [if_pos sent] at buffer
        have replies := record.replies
        have written := record.written
        rw [if_pos sent] at replies written
        constructor
        · rw [buffer]
          exact .empty (resetRecvData_shape _).2 (resetRecvData_shape _).1
        · intro other member
          rw [replies] at member
          rcases List.mem_append.mp member with before | now
          · exact inv.framed other before
          · rw [List.mem_singleton.mp now]
            refine ⟨chunks, inside, complete, ?_⟩
            show (log.receive write).server.frame = _
            rw [WifiServer.frame, payload]
            rfl
      · rw [if_neg sent] at buffer
        have replies := record.replies
        have written := record.written
        rw [if_neg sent] at replies written
        constructor
        · rw [buffer, written]
          exact buffered
        · rw [replies, List.append_nil]
          exact inv.framed

theorem start_order (leftover : Nat → UInt8 × UInt8 × UInt8) (pairing : PairingServer) :
    OrderInv leftover (.start (initServer leftover pairing)) where
  table := rfl
  phase := .begin
  backed := fun status => absurd rfl status
  idle := fun idle => absurd (Or.inl rfl) idle

end Steps

/-- Whatever a client writes, the machine goes through its states one after the other and each reply is
    sent once, step 4 after step 2. Where the writes that begin a frame bring its header, each reply is
    computed from one whole frame that was written after the reply before. -/
theorem pairing_server_order (lib : ServerLib) (leftover : Nat → UInt8 × UInt8 × UInt8) (pairing : PairingServer)
    (writes : List ClientWrite) (s : WifiServer)
    (reached : Runs.run (chrWriteValue lib) (initServer leftover pairing) writes = some s) : ∃ log,
    Runs.run (recordWrite lib) (.start (initServer leftover pairing)) writes = some log ∧ log.server = s ∧
      log.InOrder ∧
      (Runs.Along (chrWriteValue lib) BringsHeader (initServer leftover pairing) writes →
        ∀ reply ∈ log.replies, reply.Framed) := by
  have recorded := Runs.run_project (chrWriteValue lib) PairingLog.server (recordWrite_server lib)
    (.start (initServer leftover pairing)) writes
  change _ = Runs.run (chrWriteValue lib) (initServer leftover pairing) writes at recorded
  rw [reached] at recorded
  obtain ⟨log, done, same⟩ := Option.map_eq_some_iff.mp recorded
  have start := start_order leftover pairing
  have order : OrderInv leftover log := Runs.run_preserves (recordWrite lib)
    (fun log write log' inv stepped => (recordWrite_cases inv stepped).1) start done
  refine ⟨log, done, same, order.inOrder, ?_⟩
  intro along
  have along : Runs.Along (recordWrite lib) (fun log write => BringsHeader log.server write)
      (.start (initServer leftover pairing)) writes :=
    Runs.along_project (chrWriteValue lib) PairingLog.server (recordWrite_server lib) along
  have step : ∀ log write log', OrderInv leftover log ∧ FrameInv log → BringsHeader log.server write →
      recordWrite lib log write = some log' → OrderInv leftover log' ∧ FrameInv log' :=
    fun log write log' inv brings stepped =>
      ⟨(recordWrite_cases inv.1 stepped).1, recordWrite_framed inv.1 inv.2 brings stepped⟩
  have unwritten : FrameInv (.start (initServer leftover pairing)) := ⟨.empty rfl rfl, List.forall_mem_nil _⟩
  exact (Runs.run_invariant (recordWrite lib) step ⟨start, unwritten⟩ along done).2.framed

theorem pairing_server_order_sample : ∃ log,
    Runs.run (recordWrite sampleServerLib) (.start (initServer (fun _ => (0, 0, 0)) .zero)) [sampleStep1, sampleStep3] =
        some log ∧
      log.server.fsm.curState = PairingStatus.step4.code ∧ log.InOrder ∧ ∀ reply ∈ log.replies, reply.Framed := by
  have replies : (samplePaired [sampleStep1, sampleStep3]).map (fun s => s.fsm.curState) =
      some PairingStatus.step4.code := by decide +kernel
  obtain ⟨s, reached, state⟩ := Option.map_eq_some_iff.mp replies
  obtain ⟨log, done, rfl, order, framed⟩ := pairing_server_order sampleServerLib (fun _ => (0, 0, 0)) .zero
    [sampleStep1, sampleStep3] s reached
  have headers : ∀ write ∈ [sampleStep1, sampleStep3], HasHeader (kept write.value) := by
    unfold HasHeader
    decide
  exact ⟨log, done, state, order, framed (Runs.along_of_forall _ _ _ fun write member s _ _ _ => headers write member)⟩

-- Behind step 1, a client begins a frame with the first two bytes of a long header: behind them the server
-- reads the padding of the message that brought them, and takes a frame of 259 bytes whose header says 303.

def sampleCutHeader : List ClientWrite :=
  [{ sampleStep1 with value := [0xff, 0x01], stray := [0, 0] },
    { sampleStep1 with value := 0x2c :: List.replicate 256 0, stray := [0, 0, 0] }]

theorem reply_to_part_of_frame : ∃ log,
    Runs.run (recordWrite sampleServerLib) (.start (initServer (fun _ => (0, 0, 0)) .zero))
        (sampleStep1 :: sampleCutHeader) = some log ∧
      ∃ reply ∈ log.replies, ¬reply.Framed := by
  have answered : (Runs.run (recordWrite sampleServerLib) (.start (initServer (fun _ => (0, 0, 0)) .zero))
      (sampleStep1 :: sampleCutHeader)).map (fun log => log.replies.map Reply.written) =
        some [[sampleStep1.value], sampleCutHeader.map ClientWrite.value] := by
    decide +kernel
  obtain ⟨log, done, replies⟩ := Option.map_eq_some_iff.mp answered
  have second : sampleCutHeader.map ClientWrite.value ∈ log.replies.map Reply.written := by
    rw [replies]
    exact List.mem_cons_of_mem _ (List.mem_singleton_self _)
  obtain ⟨reply, member, written⟩ := List.mem_map.mp second
  refine ⟨log, done, reply, member, ?_⟩
  rintro ⟨chunks, inside, complete, _⟩
  rw [written] at inside
  have none : ∀ chunks ∈ (sampleCutHeader.map ClientWrite.value).sublists,
      (getDataLength (chunks.map kept).flatten []).1 ≠ (chunks.map kept).flatten.length := by decide +kernel
  exact none chunks (List.mem_sublists.mpr inside) complete

end Bridge
