import Bridge.WifiService.Order

namespace Bridge

structure Delivers (message : List UInt8) (writes : List ClientWrite) : Prop where
  framed : ∃ heap, buildMsgPayload heap message = some (writes.map ClientWrite.value).flatten
  filled : ∀ write ∈ writes, write.value ≠ []

/-- The buffer that a frame of one header byte and `length` bytes fills with its own message: an empty one,
    or one that lacks the last byte of a header of that length. -/
def RecvData.Expects (length : Nat) (recv : RecvData) : Prop :=
  (recv.recvStatus = .none ∧ recv.data = none) ∨
    ∃ stored n, recv = .holding (n + length, n, length) stored ∧ stored.length + 1 = n

def PairingLog.buffer (log : PairingLog) (recv : RecvData) (written : List (List UInt8)) : PairingLog :=
  { log with
    server := { log.server with chr := { log.server.chr with recvPairingData := recv } }, written := written }

variable {lib : ServerLib} {log log' : PairingLog}

theorem receive_buffer (log : PairingLog) (write : ClientWrite) : log.receive write =
    log.buffer (recvData log.server.chr.recvPairingData write.value write.stray) (log.written ++ [write.value]) := rfl

theorem recordWrite_part {write : ClientWrite} (filled : write.value ≠ [])
    (part : isRecvFullPkg (log.receive write).server.chr.recvPairingData = false) :
    recordWrite lib log write = some (log.receive write) := by
  simp only [recordWrite, if_neg filled, part, Bool.false_eq_true, if_false]

theorem recordWrite_full {write : ClientWrite} (filled : write.value ≠ [])
    (full : isRecvFullPkg (log.receive write).server.chr.recvPairingData = true) :
    recordWrite lib log write = recordClientEvent lib write
      ((log.receive write).withServer (decideEvent (log.receive write).server)) := by
  simp only [recordWrite, if_neg filled, full, if_true]

theorem run_holding {declared : Nat × Nat × Nat} {stored : List UInt8} {writes : List ClientWrite} {last : ClientWrite}
    (recv : log.server.chr.recvPairingData = .holding declared stored) (filled : ∀ write ∈ writes, write.value ≠ [])
    (ends : writes.getLast? = some last)
    (exact' : stored.length + (writes.map ClientWrite.value).flatten.length = declared.1)
    (small : (writes.map ClientWrite.value).flatten.length < 2 ^ 16) :
    ∃ written before, before = log.buffer (.holding declared (stored ++ (writes.map ClientWrite.value).flatten)) written ∧
      Runs.run (recordWrite lib) log writes =
        recordClientEvent lib last (before.withServer (decideEvent before.server)) := by
  induction writes generalizing log stored with
  | nil => cases ends
  | cons write rest ih =>
    have positive : 0 < write.value.length := List.length_pos_iff.mpr (filled write List.mem_cons_self)
    rw [List.map_cons, List.flatten_cons, List.length_append] at exact' small
    have whole : kept write.value = write.value := kept_of_short (by omega)
    have next : recvData (.holding declared stored) write.value write.stray = .holding declared (stored ++ write.value) := by
      rw [recvData_next (by omega) write.stray (by rw [whole]; omega), whole]
    have received : (log.receive write).server.chr.recvPairingData = .holding declared (stored ++ write.value) := by
      rw [← next, ← recv]
      rfl
    rw [List.map_cons, List.flatten_cons, ← List.append_assoc]
    cases rest with
    | nil =>
      cases ends
      rw [List.map_nil, List.flatten_nil] at exact'
      have full : isRecvFullPkg (log.receive write).server.chr.recvPairingData = true := by
        rw [received]
        simpa [isRecvFullPkg, RecvData.holding] using exact'
      refine ⟨log.written ++ [write.value], log.receive write, ?_, ?_⟩
      · rw [receive_buffer, recv, next, List.map_nil, List.flatten_nil, List.append_nil]
      · simp only [Runs.run, recordWrite_full (filled write List.mem_cons_self) full]
        exact Option.bind_fun_some _
    | cons other others =>
      have more : 0 < other.value.length :=
        List.length_pos_iff.mpr (filled other (List.mem_cons_of_mem _ List.mem_cons_self))
      rw [List.map_cons, List.flatten_cons, List.length_append] at exact' small
      have part : isRecvFullPkg (log.receive write).server.chr.recvPairingData = false := by
        rw [received]
        simp only [isRecvFullPkg, RecvData.holding, List.length_append, beq_eq_false_iff_ne]
        omega
      obtain ⟨written, before, same, ran⟩ := ih received
        (fun write inside => filled write (List.mem_cons_of_mem _ inside)) ends
        (by rw [List.map_cons, List.flatten_cons, List.length_append, List.length_append]; omega)
        (by rw [List.map_cons, List.flatten_cons, List.length_append]; omega)
      refine ⟨written, before, same, ?_⟩
      rw [← ran]
      simp only [Runs.run, recordWrite_part (filled write List.mem_cons_self) part, Option.bind_some]

theorem Delivers.frame {message : List UInt8} {writes : List ClientWrite} (delivers : Delivers message writes)
    (short : message.length ≤ 254) : (writes.map ClientWrite.value).flatten = UInt8.ofNat message.length :: message := by
  obtain ⟨heap, framed⟩ := delivers.framed
  rw [build_short heap message short] at framed
  exact (Option.some.inj framed).symm

theorem delivers_single {message : List UInt8} (short : message.length ≤ 254) (write : ClientWrite)
    (value : write.value = UInt8.ofNat message.length :: message) : Delivers message [write] where
  framed := ⟨fun _ => 0, by rw [build_short _ message short, List.map_singleton, List.flatten_singleton, value]⟩
  filled := by simp [value]

theorem Delivers.last {message : List UInt8} {writes : List ClientWrite} (delivers : Delivers message writes)
    (short : message.length ≤ 254) : ∃ last ∈ writes, writes.getLast? = some last := by
  have frame := delivers.frame short
  cases ends : writes.getLast? with
  | none =>
    rw [List.getLast?_eq_none_iff.mp ends] at frame
    cases frame
  | some last => exact ⟨last, List.mem_of_getLast? ends, rfl⟩

theorem recvData_begins {recv : RecvData} (status : recv.recvStatus = .none) (free : recv.data = none)
    {length : Nat} (small : length ≤ 254) {value rest : List UInt8} (stray : List UInt8)
    (fits : value.length ≤ length + 1) (starts : value = UInt8.ofNat length :: rest) :
    recvData recv value stray = recvData (.holding (length + 1, 1, length) []) value stray := by
  have size : (UInt8.ofNat length).toNat = length := by
    rw [UInt8.toNat_ofNat']
    omega
  have header : getDataLength value stray = (length + 1, 1, length) := by
    have plain : length ≠ 255 := by omega
    simp [getDataLength, starts, size, plain]
  have whole : kept value = value := kept_of_short (by omega)
  have room : (kept value).length ≤ (getDataLength value stray).1 := by
    rw [whole, header]
    exact fits
  have sized : ([] : List UInt8).length + (kept value).length ≤ length + 1 := by
    rw [whole, List.length_nil]
    omega
  rw [recvData_first free status room, recvData_next (by simp) stray sized, header, List.nil_append]

/-- A whole frame comes, and its last write is the one that the server answers. -/
theorem run_delivers {message : List UInt8} {writes : List ClientWrite} {last : ClientWrite}
    (expects : log.server.chr.recvPairingData.Expects message.length) (short : message.length ≤ 254)
    (delivers : Delivers message writes) (ends : writes.getLast? = some last) :
    ∃ recv written before, getPkgFromRecvData recv = some message ∧ before = log.buffer recv written ∧
      Runs.run (recordWrite lib) log writes =
        recordClientEvent lib last (before.withServer (decideEvent before.server)) := by
  have frame := delivers.frame short
  have sized : (writes.map ClientWrite.value).flatten.length = message.length + 1 := by rw [frame]; rfl
  rcases expects with ⟨status, free⟩ | ⟨stored, n, recv, lacks⟩
  · obtain ⟨written, before, same, ran⟩ := @run_holding lib
      (log.buffer (.holding (message.length + 1, 1, message.length) []) log.written) _ _ writes last rfl delivers.filled
      ends (by rw [sized, List.length_nil, Nat.zero_add]) (by rw [sized]; omega)
    refine ⟨_, written, before, ?_, same, ?_⟩
    · rw [frame]
      simp [getPkgFromRecvData, RecvData.holding]
    · rw [← ran]
      cases writes with
      | nil => cases ends
      | cons write rest =>
        obtain ⟨byte, bytes, value⟩ : ∃ byte bytes, write.value = byte :: bytes :=
          List.exists_cons_of_ne_nil (delivers.filled write List.mem_cons_self)
        rw [List.map_cons, List.flatten_cons] at frame sized
        have starts : write.value = UInt8.ofNat message.length :: bytes := by
          rw [value, List.cons_append] at frame
          rw [value, (List.cons.inj frame).1]
        rw [List.length_append] at sized
        have begins := recvData_begins status free short write.stray (by omega) starts
        have same : recordWrite lib log write = recordWrite lib
            (log.buffer (.holding (message.length + 1, 1, message.length) []) log.written) write := by
          have received : log.receive write =
              (log.buffer (.holding (message.length + 1, 1, message.length) []) log.written).receive write := by
            rw [receive_buffer, begins]
            rfl
          simp only [recordWrite, if_neg (delivers.filled write List.mem_cons_self), received]
        simp only [Runs.run, same]
  · obtain ⟨written, before, same, ran⟩ := @run_holding lib log _ _ writes last recv delivers.filled ends
      (by rw [sized]; simp only; omega) (by rw [sized]; omega)
    refine ⟨_, written, before, ?_, same, ran⟩
    have split : stored ++ UInt8.ofNat message.length :: message = (stored ++ [UInt8.ofNat message.length]) ++ message := by
      simp
    rw [frame, split]
    simp only [getPkgFromRecvData, RecvData.holding, Option.map_some, Option.some.injEq]
    rw [List.drop_left' (by simpa using lacks), List.take_length]

/-- The entry of the table that is never filled is found for this event in this state. -/
def SlotMatches (leftover : Nat → UInt8 × UInt8 × UInt8) (event state : UInt8) : Prop :=
  event = (leftover 0).1 ∧ state = (leftover 0).2.1

def SlotUnmatched (leftover : Nat → UInt8 × UInt8 × UInt8) : Prop :=
  ∀ item ∈ pairingTransItems.eraseIdx 5, ¬SlotMatches leftover item.event item.curState

section Events

variable {leftover : Nat → UInt8 × UInt8 × UInt8} {write : ClientWrite}

theorem find_unmatched (unmatched : SlotUnmatched leftover) {fsm : FSM PairingAction} {event : PairingEvent}
    {state later : UInt8} {action : PairingAction}
    (table : fsm.fsmTransTable = (initPairingFsm leftover).fsmTransTable) (now : fsm.curState = state)
    (filled : fillTransItem event.code state action later ∈ pairingTransItems.eraseIdx 5) :
    fsm.find event.code = some (fillTransItem event.code state action later) := by
  have known : ∀ entry ∈ pairingTransItems.eraseIdx 5, (pairingTransItems.eraseIdx 5).find?
      (fun other => entry.event == other.event && entry.curState == other.curState) = some entry := by
    decide
  have other : (event.code == (leftover 0).1 && state == (leftover 0).2.1) = false := by
    apply Bool.eq_false_iff.mpr
    intro same
    rw [Bool.and_eq_true, beq_iff_eq, beq_iff_eq] at same
    exact unmatched _ filled same
  unfold FSM.find
  rw [table, initPairingFsm_table, List.find?_cons, now, other]
  exact known _ filled

theorem handle_returns (unmatched : SlotUnmatched leftover) {event : PairingEvent} {state later : UInt8}
    {action : PairingAction} {data : ServerData} {ret : Int}
    (table : log.server.fsm.fsmTransTable = (initPairingFsm leftover).fsmTransTable)
    (now : log.server.fsm.curState = state)
    (filled : fillTransItem event.code state action later ∈ pairingTransItems.eraseIdx 5)
    (acts : pairingAct lib write action log.server.toServerData = some (data, ret)) :
    ∃ log', log.handle lib write event = some (log', ret) := by
  have found := find_unmatched unmatched table now filled
  have proper : event.code ≠ errorEvent := filled_proper filled
  simp only [PairingLog.handle, WifiServer.handle, handleEvent, if_neg proper, found, fillTransItem, Option.bind_some,
    acts, Option.map_some]
  exact ⟨_, rfl⟩

theorem recordEvent_returns (unmatched : SlotUnmatched leftover) {event reply : PairingEvent}
    {state middle later : UInt8} {logs action : PairingAction} {data : ServerData} {ret : Int}
    (table : log.server.fsm.fsmTransTable = (initPairingFsm leftover).fsmTransTable)
    (now : log.server.fsm.curState = state)
    (first : fillTransItem event.code state logs middle ∈ pairingTransItems.eraseIdx 5)
    (only : pairingAct lib write logs = fun data => some (data, 0)) (silent : event.isReply = false)
    (second : fillTransItem reply.code middle action later ∈ pairingTransItems.eraseIdx 5)
    (acts : pairingAct lib write action (log.server.withEvent reply).toServerData = some (data, ret)) :
    ∃ log', recordEvent lib write log event reply = some log' ∧ log'.server.toServerData = data ∧
      log'.server.fsm.fsmTransTable = (initPairingFsm leftover).fsmTransTable ∧
      log'.server.fsm.curState = (if ret = 0 then later else middle) ∧
      Recorded reply later ret { log with states := log.states ++ [middle] } log' := by
  have logged : pairingAct lib write logs log.server.toServerData = some (log.server.toServerData, 0) := by rw [only]
  obtain ⟨between, handled⟩ := handle_returns unmatched table now first logged
  obtain ⟨same, kept, moved, _⟩ := handle_records table now first handled
  rw [logged] at same
  obtain ⟨same, _⟩ := Prod.mk.inj (Option.some.inj same)
  have data' : (between.server.withEvent reply).toServerData = (log.server.withEvent reply).toServerData := by
    unfold WifiServer.withEvent
    rw [← same]
  obtain ⟨after, answered⟩ := @handle_returns lib (between.withServer (between.server.withEvent reply)) leftover write
    unmatched reply middle later action data ret kept moved second (data' ▸ acts)
  have done : recordEvent lib write log event reply = some after := by
    simp only [recordEvent, handled, Option.bind_some, answered, Option.map_some]
  obtain ⟨ret', acted, table', moved', record⟩ := recordEvent_spec done table now first only silent second
  obtain ⟨rfl, rfl⟩ := Prod.mk.inj (Option.some.inj (acts.symm.trans acted))
  exact ⟨after, done, rfl, table', moved', record⟩

theorem handle_unmatched {event : PairingEvent} {state later : UInt8} {action : PairingAction} {ret : Int}
    (table : log.server.fsm.fsmTransTable = (initPairingFsm leftover).fsmTransTable)
    (now : log.server.fsm.curState = state)
    (filled : fillTransItem event.code state action later ∈ pairingTransItems.eraseIdx 5)
    (done : log.handle lib write event = some (log', ret)) : ¬SlotMatches leftover event.code state := by
  rintro ⟨code, place⟩
  have found : log.server.fsm.find event.code = some ⟨(leftover 0).1, (leftover 0).2.1, none, (leftover 0).2.2⟩ := by
    unfold FSM.find
    rw [table, initPairingFsm_table, List.find?_cons, now, code, place]
    simp
  obtain ⟨⟨server, code⟩, handled, _⟩ := Option.map_eq_some_iff.mp done
  obtain ⟨⟨fsm, data, value⟩, handled, _⟩ := Option.map_eq_some_iff.mp handled
  obtain ⟨action, held, _⟩ := handleEvent_found (filled_proper filled) found handled
  cases held

theorem recordEvent_unmatched {event reply : PairingEvent} {state middle later : UInt8} {logs action : PairingAction}
    (done : recordEvent lib write log event reply = some log')
    (table : log.server.fsm.fsmTransTable = (initPairingFsm leftover).fsmTransTable)
    (now : log.server.fsm.curState = state)
    (first : fillTransItem event.code state logs middle ∈ pairingTransItems.eraseIdx 5)
    (only : pairingAct lib write logs = fun data => some (data, 0))
    (second : fillTransItem reply.code middle action later ∈ pairingTransItems.eraseIdx 5) :
    ¬SlotMatches leftover event.code state ∧ ¬SlotMatches leftover reply.code middle := by
  obtain ⟨⟨between, code⟩, handled, done⟩ := Option.bind_eq_some_iff.mp done
  obtain ⟨⟨after, ret⟩, answered, _⟩ := Option.map_eq_some_iff.mp done
  obtain ⟨logged, kept, moved, _⟩ := handle_records table now first handled
  rw [only] at logged
  obtain ⟨_, rfl⟩ := Prod.mk.inj (Option.some.inj logged)
  constructor
  · exact handle_unmatched table now first handled
  · exact @handle_unmatched lib (between.withServer (between.server.withEvent reply)) after leftover write reply middle
      later action ret kept moved second answered

end Events

end Bridge
