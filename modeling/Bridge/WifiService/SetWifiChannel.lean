import Bridge.Library.Runs
import Bridge.WifiService.Framing
import Bridge.WifiService.SetWifi

namespace Bridge

inductive IsFrame (payload : List UInt8) : List UInt8 → Prop
  | short (size : UInt8) (counts : size.toNat = payload.length) (plain : size ≠ 0xff) : IsFrame payload (size :: payload)
  | long (high low : UInt8) (counts : high.toNat * 256 + low.toNat = payload.length) :
      IsFrame payload (0xff :: high :: low :: payload)

/-- A frame as a client writes it, in any number of writes. -/
structure Writes (payload : List UInt8) (writes : List WifiWrite) : Prop where
  frame : IsFrame payload (writes.map WifiWrite.value).flatten
  filled : ∀ write ∈ writes, write.value ≠ []

/-- A point of a run at which no request has been applied and no frame is half received. -/
structure FrameBegins (leftover : Nat → UInt8 × UInt8 × UInt8) (before : List WifiWrite) (s : SetWifiServer) : Prop where
  ran : Runs.run SetWifiServer.chrWriteValue (initSetWifi leftover) before = some s
  running : s.status = .running
  boundary : s.recvPairingData.recvStatus ≠ .gotPrevData

/-- The buffer is empty before the frame's first byte, and while its writes come the handler is called once, with
    the frame's own payload. -/
def Passes (s : SetWifiServer) (payload : List UInt8) (writes : List WifiWrite) : Prop :=
  (s.recvPairingData.recvStatus = .none ∧ s.recvPairingData.data = none) ∧
    ∃ s', Runs.run SetWifiServer.chrWriteValue s writes = some s' ∧ s'.handled = s.handled ++ [payload]

/-- No write is longer than its `uint16_t` length, and the first one gives the length of the payload: it holds the
    header, or the memory behind it happens to. -/
def HeaderRead (payload : List UInt8) (writes : List WifiWrite) : Prop :=
  (∀ write ∈ writes, write.value.length < 2 ^ 16) ∧
    ∀ first, writes.head? = some first → (getDataLength first.value first.stray).2.2 = payload.length

/-- No entry of the table that was never filled is found for a request. -/
def RequestUnmatched (leftover : Nat → UInt8 × UInt8 × UInt8) : Prop :=
  ∀ k < 8, ¬(SetWifiEvent.cWriteWifiRequest.code = (leftover k).1 ∧ SetWifiStatus.begin.code = (leftover k).2.1)

section Steps

variable {leftover : Nat → UInt8 × UInt8 × UInt8} {s s' : SetWifiServer} {write : WifiWrite}

theorem setWifiTable (leftover : Nat → UInt8 × UInt8 × UInt8) : (initWifiRequestFsm leftover).fsmTransTable =
    ((List.range 8).map fun k => ⟨(leftover k).1, (leftover k).2.1, none, (leftover k).2.2⟩) ++ setWifiTransItems := rfl

def requestRow : FSMTransform SetWifiAction :=
  fillTransItem SetWifiEvent.cWriteWifiRequest.code SetWifiStatus.begin.code .handleSetWifiRequest SetWifiStatus.request.code

theorem find_request (unmatched : RequestUnmatched leftover) :
    (initWifiRequestFsm leftover).find SetWifiEvent.cWriteWifiRequest.code = some requestRow := by
  unfold FSM.find
  rw [setWifiTable, List.find?_append, Option.or_eq_right_of_none]
  · rfl
  · rw [List.find?_eq_none]
    intro item inside
    obtain ⟨k, small, rfl⟩ := List.mem_map.mp inside
    intro matches'
    rw [Bool.and_eq_true, beq_iff_eq, beq_iff_eq] at matches'
    exact unmatched k (List.mem_range.mp small) matches'

theorem find_unfilled (matched : ¬RequestUnmatched leftover) :
    ∃ item, (initWifiRequestFsm leftover).find SetWifiEvent.cWriteWifiRequest.code = some item ∧ item.eventActFunc = none := by
  simp only [RequestUnmatched, not_forall, not_not] at matched
  obtain ⟨k, small, event, state⟩ := matched
  unfold FSM.find
  rw [setWifiTable, List.find?_append]
  cases found : ((List.range 8).map fun k => (⟨(leftover k).1, (leftover k).2.1, none, (leftover k).2.2⟩ :
      FSMTransform SetWifiAction)).find? fun item => SetWifiEvent.cWriteWifiRequest.code == item.event &&
        (initWifiRequestFsm leftover).curState == item.curState with
  | none =>
    rw [List.find?_eq_none] at found
    refine absurd ?_ (found _ (List.mem_map.mpr ⟨k, List.mem_range.mpr small, rfl⟩))
    rw [Bool.and_eq_true, beq_iff_eq, beq_iff_eq]
    exact ⟨event, state⟩
  | some item =>
    obtain ⟨_, _, rfl⟩ := List.mem_map.mp (List.mem_of_find?_eq_some found)
    exact ⟨_, rfl, rfl⟩

theorem handleSetWifiRequest_recv (stack : RequestStack) (data : SetWifiData) :
    (handleSetWifiRequest stack data).1.recvPairingData = data.recvPairingData := by
  unfold handleSetWifiRequest
  split
  · rfl
  · simp only
    repeat' split
    all_goals rfl

theorem handleSetWifiRequest_exited (stack : RequestStack) (data : SetWifiData) :
    (handleSetWifiRequest stack data).2 = 0 → (handleSetWifiRequest stack data).1.status = .exited := by
  unfold handleSetWifiRequest
  split
  · intro done
    exact absurd done (by decide : (1 : Int) ≠ 0)
  · simp only
    repeat' split
    all_goals
      intro done
      first | rfl | exact absurd done (by decide : (1 : Int) ≠ 0)

theorem handleSetWifiRequest_handled (stack : RequestStack) {data : SetWifiData} {payload : List UInt8}
    (held : getPkgFromRecvData data.recvPairingData = some payload) :
    (handleSetWifiRequest stack data).1.handled = data.handled ++ [payload] := by
  simp only [handleSetWifiRequest, held]
  repeat' split
  all_goals rfl

def SetWifiServer.requested (s : SetWifiServer) (stack : RequestStack) : SetWifiServer where
  toSetWifiData := (handleSetWifiRequest stack { s.toSetWifiData with event := SetWifiEvent.cWriteWifiRequest.code }).1
  fsm := if (handleSetWifiRequest stack { s.toSetWifiData with event := SetWifiEvent.cWriteWifiRequest.code }).2 = 0 then
    s.fsm.transState SetWifiStatus.request.code else s.fsm

theorem chrWriteValue_part (running : s.status = .running) (filled : write.value ≠ [])
    (part : isRecvFullPkg (s.receive write).recvPairingData = false) : s.chrWriteValue write = some (s.receive write) := by
  simp only [SetWifiServer.chrWriteValue, running, ne_eq, not_true_eq_false, if_false, if_neg filled, part, Bool.false_eq_true]

theorem chrWriteValue_full (running : s.status = .running) (fsm : s.fsm = initWifiRequestFsm leftover)
    (filled : write.value ≠ []) (full : isRecvFullPkg (s.receive write).recvPairingData = true) :
    (RequestUnmatched leftover → s.chrWriteValue write = some ((s.receive write).requested write.stack)) ∧
      (¬RequestUnmatched leftover → s.chrWriteValue write = none) := by
  have waits : s.fsm.curState = SetWifiStatus.begin.code := by rw [fsm]; rfl
  have proper : SetWifiEvent.cWriteWifiRequest.code ≠ errorEvent := by decide
  have decided : s.chrWriteValue write = (handleEvent (setWifiAct write.stack) s.fsm SetWifiEvent.cWriteWifiRequest.code
      { (s.receive write).toSetWifiData with event := SetWifiEvent.cWriteWifiRequest.code }).map
        fun result => ⟨result.2.1, result.1⟩ := by
    have here : (s.receive write).fsm.curState = SetWifiStatus.begin.code := waits
    simp only [SetWifiServer.chrWriteValue, running, ne_eq, not_true_eq_false, if_false, if_neg filled, full, if_true,
      SetWifiServer.decideEvent, here, SetWifiServer.handleClientEvent]
    rfl
  rw [decided]
  constructor
  · intro unmatched
    have kept : (s.receive write).fsm = initWifiRequestFsm leftover := fsm
    simp only [handleEvent, if_neg proper, fsm, find_request unmatched, requestRow, fillTransItem, Option.bind_some, setWifiAct,
      Option.map_some, SetWifiServer.requested, kept]
  · intro matched
    obtain ⟨item, found, unfilled⟩ := find_unfilled matched
    simp only [handleEvent, if_neg proper, fsm, found, unfilled, Option.bind_none, Option.map_none]

structure Receives (leftover : Nat → UInt8 × UInt8 × UInt8) (declared : Nat × Nat × Nat) (total : Nat) (s : SetWifiServer) :
    Prop where
  fsm : s.status = .running → s.fsm = initWifiRequestFsm leftover
  shaped : s.recvPairingData.Shaped fun header stored => header = declared ∧ stored.length ≤ total
  begun : s.recvPairingData.data.isSome = true
  handled : s.handled ≠ [] →
    RequestUnmatched leftover ∧ declared.1 ≤ total ∧ ∀ payload ∈ s.handled, payload.length = declared.2.2

variable {declared : Nat × Nat × Nat} {total more : Nat}

theorem Receives.mono (receives : Receives leftover declared total s) : Receives leftover declared (total + more) s where
  fsm := receives.fsm
  shaped := by
    cases receives.shaped with
    | empty status free => exact .empty status free
    | blocked status taken short => exact .blocked status taken short
    | part header stored holds fits same => exact .part header stored ⟨holds.1, by omega⟩ fits same
  begun := receives.begun
  handled := by
    intro some
    obtain ⟨unmatched, enough, sizes⟩ := receives.handled some
    exact ⟨unmatched, by omega, sizes⟩

theorem full_payload {recv : RecvData} (shaped : recv.Shaped fun header stored => header = declared ∧ stored.length ≤ total)
    (begun : recv.data.isSome = true) (sum : declared.1 = declared.2.1 + declared.2.2) (full : isRecvFullPkg recv = true) :
    ∃ payload, getPkgFromRecvData recv = some payload ∧ payload.length = declared.2.2 ∧ declared.1 ≤ total := by
  rw [isRecvFullPkg, beq_iff_eq] at full
  cases shaped with
  | empty status free =>
    rw [free] at begun
    cases begun
  | blocked status taken short => omega
  | part header stored holds fits same =>
    obtain ⟨rfl, few⟩ := holds
    subst same
    have complete : stored.length = header.1 := full
    refine ⟨_, rfl, ?_, by omega⟩
    rw [List.length_take, List.length_drop]
    simp only [RecvData.holding]
    omega

theorem write_receives (running : s.status = .running) (fsm : s.fsm = initWifiRequestFsm leftover) (filled : write.value ≠ [])
    (shaped : (s.receive write).recvPairingData.Shaped fun header stored => header = declared ∧ stored.length ≤ total)
    (begun : (s.receive write).recvPairingData.data.isSome = true) (sum : declared.1 = declared.2.1 + declared.2.2)
    (handled : s.handled ≠ [] →
      RequestUnmatched leftover ∧ declared.1 ≤ total ∧ ∀ payload ∈ s.handled, payload.length = declared.2.2)
    (done : s.chrWriteValue write = some s') : Receives leftover declared total s' := by
  cases full : isRecvFullPkg (s.receive write).recvPairingData with
  | false =>
    cases (chrWriteValue_part running filled full).symm.trans done
    exact ⟨fun _ => fsm, shaped, begun, handled⟩
  | true =>
    obtain ⟨filledRow, unfilledRow⟩ := chrWriteValue_full running fsm filled full
    by_cases unmatched : RequestUnmatched leftover
    · cases (filledRow unmatched).symm.trans done
      obtain ⟨payload, held, size, enough⟩ := full_payload shaped begun sum full
      have kept := handleSetWifiRequest_recv write.stack
        { (s.receive write).toSetWifiData with event := SetWifiEvent.cWriteWifiRequest.code }
      constructor
      case fsm =>
        intro running'
        refine (if_neg ?_).trans fsm
        intro exited
        have ended := handleSetWifiRequest_exited write.stack _ exited
        cases running'.symm.trans ended
      case shaped => exact kept ▸ shaped
      case begun => exact kept ▸ begun
      case handled =>
        intro _
        have calls : ((s.receive write).requested write.stack).handled = s.handled ++ [payload] :=
          handleSetWifiRequest_handled write.stack held
        refine ⟨unmatched, enough, ?_⟩
        intro other inside
        rw [calls, List.mem_append, List.mem_singleton] at inside
        rcases inside with earlier | rfl
        · exact (handled (List.ne_nil_of_mem earlier)).2.2 other earlier
        · exact size
    · cases (unfilledRow unmatched).symm.trans done

theorem Receives.next (receives : Receives leftover declared total s) (sum : declared.1 = declared.2.1 + declared.2.2)
    (done : s.chrWriteValue write = some s') : Receives leftover declared (total + (kept write.value).length) s' := by
  by_cases running : s.status = .running
  · by_cases filled : write.value = []
    · simp only [SetWifiServer.chrWriteValue, running, ne_eq, not_true_eq_false, if_false, filled, if_true] at done
      cases done
      exact receives.mono
    · refine write_receives running (receives.fsm running) filled ?_ ?_ sum receives.mono.handled done
      · apply recvData_shaped receives.shaped
        · intro _ free
          have begun := receives.begun
          rw [free] at begun
          cases begun
        · exact fun _ stored holds => ⟨holds.1, by omega⟩
        · intro _ stored holds
          rw [List.length_append]
          exact ⟨holds.1, by omega⟩
      · exact recvData_data (fun _ => receives.begun) _ _
  · simp only [SetWifiServer.chrWriteValue, ne_eq, running, not_false_eq_true, if_true] at done
    cases done
    exact receives.mono

end Steps

section Runs

variable {leftover : Nat → UInt8 × UInt8 × UInt8} {s s' : SetWifiServer} {first : WifiWrite} {before writes rest : List WifiWrite}
  {payload : List UInt8} {declared : Nat × Nat × Nat} {total : Nat}

def keptBytes (writes : List WifiWrite) : Nat := (writes.map fun write => (kept write.value).length).sum

theorem Receives.run (receives : Receives leftover declared total s) (sum : declared.1 = declared.2.1 + declared.2.2)
    (done : Runs.run SetWifiServer.chrWriteValue s writes = some s') :
    Receives leftover declared (total + keptBytes writes) s' := by
  induction writes generalizing s total with
  | nil =>
    cases done
    exact receives
  | cons write rest ih =>
    obtain ⟨middle, stepped, done⟩ := Runs.run_cons _ done
    have later := ih (receives.next sum stepped) done
    rw [Nat.add_assoc] at later
    exact later

theorem init_receives (filled : first.value ≠ []) (done : (initSetWifi leftover).chrWriteValue first = some s) :
    Receives leftover (getDataLength first.value first.stray) (kept first.value).length s := by
  refine write_receives rfl rfl filled ?_ ?_ (getDataLength_sum _ _) (fun none => absurd rfl none) done
  · have empty : (initSetWifi leftover).recvPairingData.Shaped fun _ _ => False := .empty rfl rfl
    apply recvData_shaped empty
    · exact fun _ _ => ⟨rfl, Nat.le_refl _⟩
    · exact fun _ _ never => never.elim
    · exact fun _ _ never => never.elim
  · exact recvData_data (fun started => absurd rfl started) _ _

theorem run_blank (none : ∀ write ∈ writes, write.value = []) (s : SetWifiServer) :
    Runs.run SetWifiServer.chrWriteValue s writes = some s := by
  induction writes with
  | nil => rfl
  | cons write rest ih =>
    rw [List.forall_mem_cons] at none
    have same : s.chrWriteValue write = some s := by
      simp only [SetWifiServer.chrWriteValue, none.1, if_true]
      split
      · rfl
      · rfl
    rw [Runs.run, same, Option.bind_some, ih none.2]

theorem run_begun (written : ∃ write ∈ writes, write.value ≠ [])
    (done : Runs.run SetWifiServer.chrWriteValue (initSetWifi leftover) writes = some s) :
    s.recvPairingData.data.isSome = true := by
  induction writes with
  | nil => simp at written
  | cons write rest ih =>
    by_cases filled : write.value = []
    · have same : (initSetWifi leftover).chrWriteValue write = some (initSetWifi leftover) := by
        simp only [SetWifiServer.chrWriteValue, filled, if_true]
        rfl
      rw [Runs.run, same, Option.bind_some] at done
      apply ih _ done
      obtain ⟨other, inside, value⟩ := written
      rcases List.mem_cons.mp inside with rfl | inside
      · exact absurd filled value
      · exact ⟨other, inside, value⟩
    · obtain ⟨middle, stepped, done⟩ := Runs.run_cons _ done
      exact ((init_receives filled stepped).run (getDataLength_sum _ _) done).begun

theorem kept_length (value : List UInt8) : (kept value).length = value.length % 2 ^ 16 := by
  rw [kept, List.length_take]
  exact Nat.min_eq_left (Nat.mod_le _ _)

theorem keptBytes_le (writes : List WifiWrite) : keptBytes writes ≤ (writes.map WifiWrite.value).flatten.length := by
  induction writes with
  | nil => exact Nat.le_refl 0
  | cons write rest ih =>
    have cut := kept_length write.value
    have less := Nat.mod_le write.value.length (2 ^ 16)
    rw [List.map_cons, List.flatten_cons, List.length_append]
    simp only [keptBytes, List.map_cons, List.sum_cons] at ih ⊢
    omega

theorem short_of_kept (all : (writes.map WifiWrite.value).flatten.length ≤ keptBytes writes) :
    ∀ write ∈ writes, write.value.length < 2 ^ 16 := by
  induction writes with
  | nil => exact List.forall_mem_nil _
  | cons write rest ih =>
    have cut := kept_length write.value
    have others := keptBytes_le rest
    rw [List.map_cons, List.flatten_cons, List.length_append] at all
    simp only [keptBytes, List.map_cons, List.sum_cons] at all others ih
    have bound := Nat.mod_lt write.value.length (by decide : 0 < 2 ^ 16)
    have less := Nat.mod_le write.value.length (2 ^ 16)
    rw [List.forall_mem_cons]
    exact ⟨by omega, ih (by omega)⟩

theorem getDataLength_size (byte : UInt8) (bytes stray : List UInt8) :
    (getDataLength (byte :: bytes) stray).2.1 = if byte = 0xff then 3 else 1 := by
  have same : byte.toNat = 0xff ↔ byte = 0xff := by rw [← UInt8.toNat_inj]; rfl
  simp only [getDataLength, List.cons_append, List.getD_cons_zero, same]
  split
  · rfl
  · rfl

theorem IsFrame.length {byte : UInt8} {bytes : List UInt8} (isFrame : IsFrame payload (byte :: bytes)) :
    (byte :: bytes).length = (if byte = 0xff then 3 else 1) + payload.length := by
  cases isFrame with
  | short _ _ plain => rw [if_neg plain, List.length_cons, Nat.add_comm]
  | long _ _ _ =>
    rw [if_pos rfl]
    simp only [List.length_cons]
    omega

theorem Writes.starts (writing : Writes payload writes) : ∃ first rest byte bytes, writes = first :: rest ∧
    first.value = byte :: bytes ∧ (writes.map WifiWrite.value).flatten.length = (if byte = 0xff then 3 else 1) + payload.length := by
  obtain ⟨frame, filled⟩ := writing
  cases writes with
  | nil => cases frame
  | cons first rest =>
    obtain ⟨byte, bytes, value⟩ := List.exists_cons_of_ne_nil (filled first List.mem_cons_self)
    rw [List.map_cons, List.flatten_cons, value, List.cons_append] at frame
    refine ⟨first, rest, byte, bytes, rfl, value, ?_⟩
    rw [List.map_cons, List.flatten_cons, value, List.cons_append]
    exact frame.length

theorem headerRead_of_handled (writing : Writes payload writes)
    (ran : Runs.run SetWifiServer.chrWriteValue (initSetWifi leftover) writes = some s) (handled : s.handled = [payload]) :
    RequestUnmatched leftover ∧ HeaderRead payload writes := by
  obtain ⟨first, rest, byte, bytes, rfl, value, length⟩ := writing.starts
  obtain ⟨middle, stepped, done⟩ := Runs.run_cons _ ran
  have receives := (init_receives (writing.filled first List.mem_cons_self) stepped).run (getDataLength_sum _ _) done
  obtain ⟨unmatched, enough, sizes⟩ := receives.handled (by rw [handled]; exact List.cons_ne_nil _ _)
  have size := sizes payload (by rw [handled]; exact List.mem_singleton_self _)
  have header := getDataLength_size byte bytes first.stray
  have sum := getDataLength_sum first.value first.stray
  rw [← value] at header
  refine ⟨unmatched, ?_, ?_⟩
  · apply short_of_kept
    rw [length]
    change _ ≤ (kept first.value).length + keptBytes rest
    omega
  · rintro _ ⟨⟩
    exact size.symm

theorem receive_holding_next {write : WifiWrite} {stored : List UInt8}
    (recv : s.recvPairingData = .holding declared stored) (filled : write.value ≠ []) (short : write.value.length < 2 ^ 16)
    (fits : stored.length + write.value.length ≤ declared.1) :
    (s.receive write).recvPairingData = .holding declared (stored ++ write.value) := by
  have some := List.length_pos_iff.mpr filled
  have whole := kept_of_short short
  rw [SetWifiServer.receive]
  simp only [recv]
  rw [recvData_next (by omega) write.stray (by rw [whole]; omega), whole]

theorem run_completes {stored : List UInt8} (running : s.status = .running) (fsm : s.fsm = initWifiRequestFsm leftover)
    (unmatched : RequestUnmatched leftover) (recv : s.recvPairingData = .holding declared stored)
    (filled : ∀ write ∈ writes, write.value ≠ []) (short : ∀ write ∈ writes, write.value.length < 2 ^ 16)
    (missing : stored.length < declared.1)
    (rest : stored.length + (writes.map WifiWrite.value).flatten.length = declared.1)
    (held : ((stored ++ (writes.map WifiWrite.value).flatten).drop declared.2.1).take declared.2.2 = payload) :
    ∃ s', Runs.run SetWifiServer.chrWriteValue s writes = some s' ∧ s'.handled = s.handled ++ [payload] := by
  induction writes generalizing s stored with
  | nil =>
    rw [List.map_nil, List.flatten_nil, List.length_nil] at rest
    omega
  | cons write others ih =>
    rw [List.forall_mem_cons] at filled short
    rw [List.map_cons, List.flatten_cons] at rest held
    rw [List.length_append] at rest
    have received := receive_holding_next recv filled.1 short.1 (by omega)
    by_cases last : (others.map WifiWrite.value).flatten.length = 0
    · have full : isRecvFullPkg (s.receive write).recvPairingData = true := by
        rw [received, isRecvFullPkg, beq_iff_eq]
        simp only [RecvData.holding, List.length_append]
        omega
      have stepped := (chrWriteValue_full running fsm filled.1 full).1 unmatched
      have none : others = [] := by
        cases others with
        | nil => rfl
        | cons other _ =>
          rw [List.map_cons, List.flatten_cons, List.length_append] at last
          have some := List.length_pos_iff.mpr (filled.2 other List.mem_cons_self)
          omega
      subst none
      refine ⟨_, by rw [Runs.run, stepped, Option.bind_some, Runs.run], ?_⟩
      apply handleSetWifiRequest_handled
      rw [List.map_nil, List.flatten_nil, List.append_nil] at held
      simp only [received, getPkgFromRecvData, RecvData.holding, Option.map_some, held]
    · have part : isRecvFullPkg (s.receive write).recvPairingData = false := by
        rw [received, isRecvFullPkg, beq_eq_false_iff_ne]
        simp only [RecvData.holding, List.length_append]
        omega
      have stepped := chrWriteValue_part running filled.1 part
      rw [← List.append_assoc] at held
      obtain ⟨s', done, handled⟩ := ih (s := s.receive write) running fsm received filled.2 short.2
        (by rw [List.length_append]; omega) (by rw [List.length_append]; omega) held
      exact ⟨s', by rw [Runs.run, stepped, Option.bind_some, done], handled⟩

theorem chrWriteValue_begins (filled : first.value ≠ []) (fits : first.value.length ≤ (getDataLength first.value first.stray).1)
    (short : first.value.length < 2 ^ 16) : (initSetWifi leftover).chrWriteValue first =
      { initSetWifi leftover with
        recvPairingData := .holding (getDataLength first.value first.stray) [] }.chrWriteValue first := by
  have whole := kept_of_short short
  have positive := getDataLength_positive first.value first.stray
  have begins : recvData RecvData.zero first.value first.stray =
      recvData (.holding (getDataLength first.value first.stray) []) first.value first.stray := by
    rw [recvData_first rfl rfl (by rw [whole]; exact fits), recvData_next (by rw [List.length_nil]; omega) first.stray
      (by rw [whole, List.length_nil]; omega), List.nil_append]
  have received : (initSetWifi leftover).receive first =
      { initSetWifi leftover with
        recvPairingData := .holding (getDataLength first.value first.stray) [] : SetWifiServer }.receive first := by
    simp only [SetWifiServer.receive, initSetWifi, begins]
  have running : (initSetWifi leftover).status = .running := rfl
  simp only [SetWifiServer.chrWriteValue, running, received, if_neg filled, ne_eq, not_true_eq_false, if_false]

theorem IsFrame.behind {byte : UInt8} {bytes : List UInt8} (isFrame : IsFrame payload (byte :: bytes)) :
    ((byte :: bytes).drop (if byte = 0xff then 3 else 1)) = payload := by
  cases isFrame with
  | short _ _ plain => rw [if_neg plain]; rfl
  | long _ _ _ => rw [if_pos rfl]; rfl

theorem init_passes (writing : Writes payload writes) (unmatched : RequestUnmatched leftover) (header : HeaderRead payload writes) :
    ∃ s', Runs.run SetWifiServer.chrWriteValue (initSetWifi leftover) writes = some s' ∧ s'.handled = [payload] := by
  obtain ⟨first, rest, byte, bytes, rfl, value, length⟩ := writing.starts
  obtain ⟨short, counted⟩ := header
  have filled := writing.filled
  have pkgLen := counted first rfl
  have size := getDataLength_size byte bytes first.stray
  have sum := getDataLength_sum first.value first.stray
  rw [← value] at size
  have total : ((first :: rest).map WifiWrite.value).flatten.length = (getDataLength first.value first.stray).1 := by omega
  have fits : first.value.length ≤ (getDataLength first.value first.stray).1 := by
    rw [← total, List.map_cons, List.flatten_cons, List.length_append]
    exact Nat.le_add_right _ _
  have begins := @chrWriteValue_begins leftover first (filled first List.mem_cons_self) fits (short first List.mem_cons_self)
  have payloadIs : (((first :: rest).map WifiWrite.value).flatten.drop (getDataLength first.value first.stray).2.1).take
      (getDataLength first.value first.stray).2.2 = payload := by
    have frame := writing.frame
    rw [List.map_cons, List.flatten_cons, value, List.cons_append] at frame
    rw [List.map_cons, List.flatten_cons, size, pkgLen, value, List.cons_append, frame.behind, List.take_length]
  obtain ⟨s', done, handled⟩ := @run_completes leftover
    { initSetWifi leftover with recvPairingData := .holding (getDataLength first.value first.stray) [] }
    (first :: rest) payload _ [] rfl rfl unmatched rfl filled short (by rw [List.length_nil]; exact getDataLength_positive _ _) (by rw [total, List.length_nil, Nat.zero_add]) payloadIs
  refine ⟨s', ?_, handled⟩
  rw [← done, Runs.run, Runs.run, begins]

end Runs

/-- Where a frame may begin, it is handled once and as it is, exactly if nothing was written before it and its
    header is read as it stands. -/
theorem request_handled_iff_first {leftover : Nat → UInt8 × UInt8 × UInt8} {before writes : List WifiWrite} {s : SetWifiServer}
    {payload : List UInt8} (begins : FrameBegins leftover before s) (writing : Writes payload writes) :
    Passes s payload writes ↔
      RequestUnmatched leftover ∧ (∀ write ∈ before, write.value = []) ∧ HeaderRead payload writes := by
  constructor
  · rintro ⟨⟨_, free⟩, s', ran, handled⟩
    have unwritten : ∀ write ∈ before, write.value = [] := by
      by_contra written
      have begun := run_begun (by simpa using written) begins.ran
      rw [free] at begun
      cases begun
    cases (run_blank unwritten _).symm.trans begins.ran
    obtain ⟨unmatched, header⟩ := headerRead_of_handled writing ran handled
    exact ⟨unmatched, unwritten, header⟩
  · rintro ⟨unmatched, unwritten, header⟩
    cases (run_blank unwritten _).symm.trans begins.ran
    exact ⟨⟨rfl, rfl⟩, init_passes writing unmatched header⟩

def sampleTable (_ : Nat) : UInt8 × UInt8 × UInt8 := (0, 0, 0)

def sampleWifiWrite (value : List UInt8) : WifiWrite :=
  ⟨value, [], ⟨[], 0, 0, .invalid, false, false, false⟩, initWifiInfoRequest, [], []⟩

def sampleRequest : List UInt8 := [0xa3, 0x00, 0x18, 0x51, 0x0b, 0x41, 0x61, 0x0c, 0x41, 0x62]

theorem first_request_handled :
    Passes (initSetWifi sampleTable) sampleRequest [sampleWifiWrite (0x0a :: sampleRequest.take 3), sampleWifiWrite (sampleRequest.drop 3)] := by
  have begins : FrameBegins sampleTable [sampleWifiWrite []] (initSetWifi sampleTable) := ⟨by decide, rfl, by decide⟩
  apply (request_handled_iff_first begins ⟨.short 0x0a rfl (by decide), by decide⟩).mpr
  refine ⟨fun k _ matched => absurd matched.1 (by decide : (8 : UInt8) ≠ 0), by decide, by decide, ?_⟩
  rintro _ ⟨⟩
  rfl

def refusedServer : SetWifiServer := ((initSetWifi sampleTable).receive (sampleWifiWrite [0x00])).requested (sampleWifiWrite [0x00]).stack

/-- The next frame has the refused one handled again, and is lost itself. -/
theorem refused_request_again : FrameBegins sampleTable [sampleWifiWrite [0x00]] refusedServer ∧
    Writes sampleRequest [sampleWifiWrite (0x0a :: sampleRequest)] ∧
    (Runs.run SetWifiServer.chrWriteValue refusedServer [sampleWifiWrite (0x0a :: sampleRequest)]).map (fun s => s.handled) =
      some [[], []] ∧ ¬Passes refusedServer sampleRequest [sampleWifiWrite (0x0a :: sampleRequest)] := by
  refine ⟨⟨by decide +kernel, by decide +kernel, by decide +kernel⟩, ⟨.short 0x0a rfl (by decide), by decide⟩,
    by decide +kernel, ?_⟩
  rintro ⟨⟨status, _⟩, _⟩
  exact absurd status (by decide +kernel)

end Bridge
