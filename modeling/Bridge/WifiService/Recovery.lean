import Bridge.WifiService.Serving

namespace Bridge

/-- What came before has left a server that still waits for its first step 1 one byte short of a header of
    three bytes, which reads as that of a message of 70. -/
def WifiServer.LacksHeaderByte (s : WifiServer) : Prop := s.fsm.curState = PairingStatus.begin.code ∧
  ∃ stored n, s.chr.recvPairingData = .holding (n + 70, n, 70) stored ∧ stored.length + 1 = n

/-- The machine waits for a step 1, and the buffer takes the frame of one as it is. -/
def WifiServer.Ready (s : WifiServer) : Prop :=
  s.fsm.curState = PairingStatus.begin.code ∧ s.chr.recvPairingData.Expects 70

variable {lib : ServerLib} {leftover : Nat → UInt8 × UInt8 × UInt8} {pairing : PairingServer} {log log' : PairingLog}
  {write : ClientWrite}

structure Waiting (pairing : PairingServer) (log : PairingLog) : Prop where
  pairing : log.server.pairing = pairing
  shaped : log.server.chr.recvPairingData.Shaped fun declared _ => declared.1 = declared.2.1 + declared.2.2
  unfinished : log.server.chr.recvPairingData.recvStatus ≠ .finishedSuccess

theorem shaped_finished {part : Nat × Nat × Nat → List UInt8 → Prop} {recv : RecvData} (shaped : recv.Shaped part)
    (finished : recv.recvStatus = .finishedSuccess) : isRecvFullPkg recv = true := by
  cases shaped with
  | empty status | blocked status =>
    rw [status] at finished
    cases finished
  | part declared stored _ _ same =>
    subst same
    by_cases complete : stored.length = declared.1
    · exact beq_iff_eq.mpr complete
    · simp [RecvData.holding, complete] at finished

theorem Answered.left {reply : PairingEvent} {middle later : UInt8} (answered : Answered leftover reply middle later log log')
    (order : OrderInv leftover log') (been : log.states ≠ []) :
    log'.server.fsm.curState ≠ PairingStatus.begin.code := by
  obtain ⟨_, _, ret, _, record, _⟩ := answered
  have length : 2 ≤ log'.states.length := by
    have some := List.length_pos_iff.mpr been
    rw [record.states]
    simp only [List.length_append, List.length_singleton]
    omega
  have phase := order.phase
  intro now
  rw [now] at phase
  generalize states : log'.states = been at phase length
  generalize log'.replies.map Reply.event = events at phase
  cases phase
  exact absurd length (by decide)

theorem OrderInv.been (order : OrderInv leftover log) : log.states ≠ [] := by
  intro none
  have last := order.inOrder.last
  rw [none] at last
  cases last

theorem recordWrite_waiting (order : OrderInv leftover log)
    (inv : log.server.fsm.curState = PairingStatus.begin.code → Waiting pairing log)
    (done : recordWrite lib log write = some log') :
    log'.server.fsm.curState = PairingStatus.begin.code → Waiting pairing log' := by
  obtain ⟨order', cases⟩ := recordWrite_cases order done
  rcases cases with ⟨_, rfl⟩ | ⟨_, ⟨rfl, waits⟩ | ⟨_, _, reply, middle, later, answered⟩⟩
  · exact inv
  · intro now
    obtain ⟨pairing, shaped, _⟩ := inv now
    have shaped' := @recvData_shaped _ (fun declared _ => declared.1 = declared.2.1 + declared.2.2) _ shaped write.value
      write.stray (fun _ _ => getDataLength_sum _ _) (fun _ _ holds => holds) (fun _ _ holds => holds)
    refine ⟨pairing, shaped', ?_⟩
    intro finished
    exact waits (shaped_finished shaped' finished) (.inl now)
  · intro now
    exact absurd now (answered.left order' order.been)

theorem recordWrite_taken (order : OrderInv leftover log) (done : recordWrite lib log write = some log')
    (taken : write.value = [] →
      log.server.fsm.curState = PairingStatus.begin.code → log.server.chr.recvPairingData.data.isSome = true)
    (now : log'.server.fsm.curState = PairingStatus.begin.code) : log'.server.chr.recvPairingData.data.isSome = true := by
  obtain ⟨order', cases⟩ := recordWrite_cases order done
  rcases cases with ⟨empty, rfl⟩ | ⟨_, ⟨rfl, _⟩ | ⟨_, _, reply, middle, later, answered⟩⟩
  · exact taken empty now
  · exact recvData_data order.backed write.value write.stray
  · exact absurd now (answered.left order' order.been)

theorem untouched {writes : List ClientWrite} (order : OrderInv leftover log)
    (done : Runs.run (recordWrite lib) log writes = some log') (now : log'.server.fsm.curState = PairingStatus.begin.code)
    (free : log'.server.chr.recvPairingData.data = none) : ∀ write ∈ writes, write.value = [] := by
  induction writes generalizing log with
  | nil => exact List.forall_mem_nil _
  | cons write rest ih =>
    obtain ⟨middle, stepped, done⟩ := Runs.run_cons (recordWrite lib) done
    have order' := (recordWrite_cases order stepped).1
    rw [List.forall_mem_cons]
    refine ⟨?_, ih order' done⟩
    by_contra filled
    have taken := recordWrite_taken order stepped fun empty => absurd empty filled
    have still := (Runs.run_preserves (recordWrite lib)
      (fun log write log' (inv : OrderInv leftover log ∧ (log.server.fsm.curState = PairingStatus.begin.code →
          log.server.chr.recvPairingData.data.isSome = true)) stepped =>
        ⟨(recordWrite_cases inv.1 stepped).1, recordWrite_taken inv.1 stepped fun _ => inv.2⟩)
      ⟨order', taken⟩ done).2 now
    rw [free] at still
    cases still

theorem run_empty {writes : List ClientWrite} (empty : ∀ write ∈ writes, write.value = []) :
    Runs.run (recordWrite lib) log writes = some log := by
  induction writes with
  | nil => rfl
  | cons write rest ih =>
    rw [List.forall_mem_cons] at empty
    simp only [Runs.run, recordWrite, if_pos empty.1, Option.bind_some, ih empty.2]

theorem run_single (log : PairingLog) (write : ClientWrite) :
    Runs.run (recordWrite lib) log [write] = recordWrite lib log write := Option.bind_fun_some _

theorem reply_begins (order : OrderInv leftover log) (done : recordWrite lib log write = some log')
    {payload : List UInt8} {written : List (List UInt8)}
    (sent : log'.replies = log.replies ++ [⟨.sReplyStep2, payload, written⟩]) :
    log.server.fsm.curState = PairingStatus.begin.code ∧
      isRecvFullPkg (log.receive write).server.chr.recvPairingData = true ∧ (log.receive write).server.frame = payload := by
  obtain ⟨order', cases⟩ := recordWrite_cases order done
  have more : log'.replies ≠ log.replies := by
    rw [sent]
    simp
  rcases cases with ⟨_, rfl⟩ | ⟨_, ⟨rfl, _⟩ | ⟨full, awaits, reply, middle, later, answered⟩⟩
  · exact absurd rfl more
  · exact absurd rfl more
  · obtain ⟨_, _, ret, _, record, _⟩ := answered
    have replies := record.replies
    change log'.replies = log.replies ++ _ at replies
    rw [sent, List.append_right_inj] at replies
    have before : log.replies = [] := by
      have ordered := order'.inOrder.replies
      rw [sent, List.map_append] at ordered
      obtain ⟨rest, whole⟩ := ordered
      cases earlier : log.replies with
      | nil => rfl
      | cons first others =>
        rw [earlier] at whole
        cases others with
        | nil => simp at whole
        | cons second others => simp at whole
    refine ⟨?_, full, ?_⟩
    · have phase := order.phase
      rw [before, List.map_nil] at phase
      generalize now : log.server.fsm.curState = state at phase awaits
      generalize been : log.states = states at phase
      cases phase with
      | begin => rfl
      | step1 =>
        unfold Awaits at awaits
        exact absurd awaits (by decide)
    · split at replies
      · exact (congrArg Reply.payload (List.singleton_inj.mp replies)).symm
      · cases replies

theorem served_ready (order : OrderInv leftover log)
    (waiting : log.server.fsm.curState = PairingStatus.begin.code → Waiting pairing log) {step1 : List UInt8}
    (length : step1.length = 70) (value : write.value = UInt8.ofNat step1.length :: step1)
    (done : recordWrite lib log write = some log') {written : List (List UInt8)}
    (sent : log'.replies = log.replies ++ [⟨.sReplyStep2, step1, written⟩]) : log.server.Ready := by
  obtain ⟨now, full, frame⟩ := reply_begins order done sent
  obtain ⟨_, shaped, unfinished⟩ := waiting now
  have size : write.value.length = 71 := by rw [value, List.length_cons, length]
  have whole : kept write.value = write.value := kept_of_short (by omega)
  have received : (log.receive write).server.chr.recvPairingData =
      recvData log.server.chr.recvPairingData write.value write.stray := rfl
  rw [WifiServer.frame] at frame
  rw [received] at full frame
  cases shaped with
  | empty status free => exact ⟨now, .inl ⟨status, free⟩⟩
  | blocked status taken short =>
    simp only [recvData, status, allocRecvData, taken, if_true, isRecvFullPkg, beq_iff_eq] at full
    omega
  | part declared stored sum fits same =>
    rw [same] at full frame unfinished
    have pending : stored.length ≠ declared.1 := by
      intro complete
      simp [RecvData.holding, complete] at unfinished
    by_cases room : stored.length + (kept write.value).length ≤ declared.1
    · rw [recvData_next pending write.stray room, whole] at full frame
      rw [whole] at room
      have total : stored.length + 71 = declared.1 := by
        simpa [isRecvFullPkg, RecvData.holding, size] using full
      have taken := congrArg List.length frame
      simp only [getPkgFromRecvData, RecvData.holding, Option.map_some, Option.getD_some, List.length_take,
        List.length_drop, List.length_append, size, length] at taken
      refine ⟨now, .inr ⟨stored, declared.2.1, ?_, by omega⟩⟩
      rw [same]
      congr 1
      obtain ⟨first, second, third⟩ := declared
      simp only [Prod.mk.injEq, true_and] at sum taken ⊢
      omega
    · rw [recvData_exceeds pending write.stray room] at full
      exact absurd (beq_iff_eq.mp full) pending

theorem ready_serves (works : lib.Works) (unmatched : SlotUnmatched leftover)
    (table : log.server.fsm.fsmTransTable = (initPairingFsm leftover).fsmTransTable) (ready : log.server.Ready)
    (room : 74 ≤ igPairingStep4Size lib.pairing log.server.pairing) (opening : Opening lib) :
    ServesPairing lib log opening ↔ FlagsRead lib opening.last := by
  obtain ⟨log', ran, silent, answers⟩ := step1_served works unmatched table ready.1 ready.2 opening
  constructor
  · rintro ⟨after, step2, client, step3, done, ⟨⟨written, sent⟩, _⟩, _⟩
    obtain rfl := Option.some.inj (ran.symm.trans done)
    by_contra unset
    rw [silent unset] at sent
    simp at sent
  · intro flags
    obtain ⟨step2, sends, meets, same⟩ := answers flags
    rw [← same] at room
    obtain ⟨client, step3, made, serves⟩ := step3_served works unmatched meets room
    exact ⟨log', step2, client, step3, ran, sends, made, serves⟩

theorem Answered.sent {reply : PairingEvent} {middle later : UInt8} {payload : List UInt8} {written : List (List UInt8)}
    (answered : Answered leftover reply middle later log log')
    (sent : log'.replies = log.replies ++ [⟨reply, payload, written⟩]) :
    log'.server.fsm.fsmTransTable = (initPairingFsm leftover).fsmTransTable ∧ log'.server.fsm.curState = later ∧
      log'.server.chr.recvPairingData.recvStatus = .none ∧ log'.server.chr.recvPairingData.data = none := by
  obtain ⟨table, _, ret, moved, record, buffer⟩ := answered
  by_cases replied : ret = 0 ∧ reply.isReply = true
  · rw [if_pos replied.1] at moved
    rw [if_pos replied] at buffer
    rw [buffer]
    exact ⟨table, moved, (resetRecvData_shape _).symm⟩
  · have replies := record.replies
    rw [if_neg replied, List.append_nil, sent] at replies
    simp at replies

theorem genPairingStep3_framed (works : lib.Works) {client client' : PairingClient} {step2 step3 : List UInt8}
    (made : genPairingStep3Native lib.pairing client step2 = (client', some step3)) : step3.length ≤ 254 := by
  obtain ⟨accepted, plain, _, encoded, rfl, _⟩ := genPairingStep3_ok made
  rw [setBytes_some (nonce_filled _)] at encoded
  have short := (step3_returns works.generated encoded).2
  rw [lib.pairing.ccm.seal_length]
  omega

theorem genPairingCommit_framed (works : lib.Works) {client client' : PairingClient} {currentTime : Int}
    {commit : List UInt8} (made : genPairingCommitNative lib.pairing currentTime client = (client', some commit)) :
    commit.length ≤ 254 := by
  obtain ⟨plain, encoded, rfl, _⟩ := seal_some made
  have short := (commit_returns works.generated encoded).2
  rw [lib.pairing.ccm.seal_length]
  omega

def ClientWrite.framing (write : ClientWrite) (message : List UInt8) : ClientWrite :=
  { write with value := UInt8.ofNat message.length :: message, connect := true, write := true }

theorem ClientWrite.framing_delivers (write : ClientWrite) {message : List UInt8} (short : message.length ≤ 254) :
    Delivers message [write.framing message] := delivers_single short _ rfl

section Walk

variable (works : lib.Works) (table : log.server.fsm.fsmTransTable = (initPairingFsm leftover).fsmTransTable)
include works table

-- A handshake that is served has come upon each entry of the table that is filled.

theorem commit_unmatched (now : log.server.fsm.curState = PairingStatus.step4.code)
    (empty : log.server.chr.recvPairingData.recvStatus = .none ∧ log.server.chr.recvPairingData.data = none)
    {client : PairingClient} (serves : ServesCommit lib log client) (write : ClientWrite) :
    ¬SlotMatches leftover PairingEvent.cWriteCommit.code PairingStatus.step4.code ∧
      ¬SlotMatches leftover PairingEvent.sPairingComplete.code PairingStatus.complete.code := by
  obtain ⟨_, commit, made, completes⟩ := serves 0
  have short := genPairingCommit_framed works made
  have delivers := write.framing_delivers short
  obtain ⟨log', ran, _⟩ := completes _ delivers (by simp [ClientWrite.framing])
  obtain ⟨recv, written, _, _, rfl, run⟩ := @run_delivers lib log _ _ _ (.inl empty) short delivers rfl
  have now : (log.buffer recv written).server.fsm.curState = PairingStatus.step4.code := now
  rw [step4_event now, ran] at run
  exact recordEvent_unmatched run.symm table now fifth_row rfl last_row

theorem step3_unmatched (now : log.server.fsm.curState = PairingStatus.step2.code)
    (empty : log.server.chr.recvPairingData.recvStatus = .none ∧ log.server.chr.recvPairingData.data = none)
    {client : PairingClient} {step3 : List UInt8} (short : step3.length ≤ 254) (serves : ServesStep3 lib log client step3)
    (write : ClientWrite) :
    (¬SlotMatches leftover PairingEvent.cWriteStep3.code PairingStatus.step2.code ∧
      ¬SlotMatches leftover PairingEvent.sReplyStep4.code PairingStatus.step3.code) ∧
    ¬SlotMatches leftover PairingEvent.cWriteCommit.code PairingStatus.step4.code ∧
      ¬SlotMatches leftover PairingEvent.sPairingComplete.code PairingStatus.complete.code := by
  have delivers := write.framing_delivers short
  obtain ⟨log', step4, client', taken, ran, ⟨⟨_, sent⟩, _⟩, _, completes⟩ := serves _ delivers
  obtain ⟨recv, written, _, whole, rfl, run⟩ := @run_delivers lib log _ _ _ (.inl empty) short delivers rfl
  have now : (log.buffer recv written).server.fsm.curState = PairingStatus.step2.code := now
  have table : (log.buffer recv written).server.fsm.fsmTransTable = (initPairingFsm leftover).fsmTransTable := table
  rw [ran] at run
  have framed : getPkgFromRecvData (log.buffer recv written).server.chr.recvPairingData =
      some (log.buffer recv written).server.frame := by
    show getPkgFromRecvData recv = some ((getPkgFromRecvData recv).getD [])
    rw [whole, Option.getD_some]
  have answered := step3_answered table now framed run.symm
  obtain ⟨table', now', empty'⟩ := answered.sent sent
  rw [step2_event now] at run
  exact ⟨recordEvent_unmatched run.symm table now third_row rfl fourth_row,
    commit_unmatched works table' now' empty' completes write⟩

theorem served_unmatched (ready : log.server.Ready) {opening : Opening lib} (served : ServesPairing lib log opening) :
    SlotUnmatched leftover := by
  obtain ⟨log', step2, client, step3, ran, ⟨⟨_, sent⟩, _⟩, made, serves⟩ := served
  obtain ⟨now, expects⟩ := ready
  have length := (step1_made works opening.key opening.made).1
  rw [← length] at expects
  obtain ⟨recv, written, _, _, rfl, run⟩ := @run_delivers lib log _ _ _ expects (by omega) opening.delivers opening.ends
  have now : (log.buffer recv written).server.fsm.curState = PairingStatus.begin.code := now
  have table : (log.buffer recv written).server.fsm.fsmTransTable = (initPairingFsm leftover).fsmTransTable := table
  rw [ran] at run
  have answered := step1_answered table now run.symm
  obtain ⟨table', now', empty'⟩ := answered.sent sent
  rw [begin_event now] at run
  obtain ⟨first, second⟩ := recordEvent_unmatched run.symm table now first_row rfl second_row
  obtain ⟨⟨third, fourth⟩, fifth, last⟩ := step3_unmatched works table' now' empty'
    (genPairingStep3_framed works made) serves opening.last
  simp only [SlotUnmatched, pairingTransItems, List.eraseIdx, List.forall_mem_cons]
  exact ⟨first, second, third, fourth, fifth, last, List.forall_mem_nil _⟩

end Walk

theorem reached_waiting {writes : List ClientWrite}
    (reached : Runs.run (recordWrite lib) (.start (initServer leftover pairing)) writes = some log) :
    OrderInv leftover log ∧ (log.server.fsm.curState = PairingStatus.begin.code → Waiting pairing log) := by
  have start := start_order leftover pairing
  have waiting : Waiting pairing (.start (initServer leftover pairing)) := ⟨rfl, .empty rfl rfl, RecvStatus.noConfusion⟩
  exact Runs.run_preserves (recordWrite lib)
    (fun log write log' (inv : OrderInv leftover log ∧
        (log.server.fsm.curState = PairingStatus.begin.code → Waiting pairing log)) stepped =>
      ⟨(recordWrite_cases inv.1 stepped).1, recordWrite_waiting inv.1 inv.2 stepped⟩)
    ⟨start, fun _ => waiting⟩ reached

theorem opening_single (works : lib.Works) {publicKey privateKey : List UInt8} (write : ClientWrite)
    (made : lib.pairing.makeKey write.entropy = some (publicKey, privateKey)) : ∃ opening : Opening lib,
    opening.writes = [write.framing opening.step1] ∧ opening.last = write.framing opening.step1 := by
  let client : PairingClient := ⟨privateKey, publicKey, [], zeroNonce, zeroNonce, Vector.replicate 16 0⟩
  have key : KeyPair lib.pairing client.publicKey_ client.privateKey_ := ⟨_, made⟩
  have size : client.publicKey_.length = igKeyExchangePublicLength := works.sized.publicKey _ _ _ made
  obtain ⟨step1, encoded, _⟩ := genPairingStep1_succeeds works.generated size
  have short : step1.length ≤ 254 := by
    rw [(step1_made works key encoded).1]
    decide
  have keyed : (lib.pairing.makeKey (write.framing step1).entropy).isSome = true := Option.isSome_of_mem made
  exact ⟨⟨client, step1, _, _, key, encoded, write.framing_delivers short, rfl, keyed⟩, rfl, rfl⟩

theorem idle_silent {writes : List ClientWrite} (order : OrderInv leftover log)
    (idle : ¬Awaits log.server.fsm.curState) (done : Runs.run (recordWrite lib) log writes = some log') :
    log'.replies = log.replies := by
  have step : ∀ now write later, OrderInv leftover now ∧ ¬Awaits now.server.fsm.curState ∧ now.replies = log.replies →
      recordWrite lib now write = some later →
      OrderInv leftover later ∧ ¬Awaits later.server.fsm.curState ∧ later.replies = log.replies := by
    rintro now write later ⟨order, idle, same⟩ stepped
    obtain ⟨order', cases⟩ := recordWrite_cases order stepped
    rcases cases with ⟨_, rfl⟩ | ⟨_, ⟨rfl, _⟩ | ⟨_, awaits, _⟩⟩
    · exact ⟨order', idle, same⟩
    · exact ⟨order', idle, same⟩
    · exact absurd awaits idle
  exact (Runs.run_preserves (recordWrite lib) step ⟨order, idle, rfl⟩ done).2.2

theorem idle_unserved (order : OrderInv leftover log) (idle : ¬Awaits log.server.fsm.curState) (opening : Opening lib) :
    ¬ServesPairing lib log opening := by
  rintro ⟨log', _, _, _, ran, ⟨⟨_, sent⟩, _⟩, _⟩
  rw [idle_silent order idle ran] at sent
  simp at sent

/-- After any writes, a handshake is served wherever its step 2 reads as flagged, if and only if nothing has
    been written before (or what was written stands for the missing part of its first header) and the entry
    of the table that is never filled stays out of the way. -/
theorem pairing_served_again (lib : ServerLib) (works : lib.Works)
    (flagged : ∃ write : ClientWrite, (lib.pairing.makeKey write.entropy).isSome = true ∧ FlagsRead lib write)
    (leftover : Nat → UInt8 × UInt8 × UInt8) (writes : List ClientWrite) (log : PairingLog)
    (reached : Runs.run (recordWrite lib) (.start (initServer leftover .zero)) writes = some log) :
    (∀ opening : Opening lib, ServesPairing lib log opening ↔ FlagsRead lib opening.last) ↔
      SlotUnmatched leftover ∧ ((∀ write ∈ writes, write.value = []) ∨ log.server.LacksHeaderByte) := by
  obtain ⟨order, waiting⟩ := reached_waiting reached
  constructor
  · intro all
    obtain ⟨write, keyed, flags⟩ := flagged
    obtain ⟨keys, made⟩ := Option.isSome_iff_exists.mp keyed
    obtain ⟨opening, single, last⟩ := opening_single works write made
    have served : ServesPairing lib log opening := by
      apply (all opening).mpr
      rw [last]
      exact flags
    have ready : log.server.Ready := by
      obtain ⟨log', _, _, _, ran, ⟨⟨_, sent⟩, _⟩, _⟩ := served
      rw [single, run_single] at ran
      exact served_ready order waiting (step1_made works opening.key opening.made).1 rfl ran sent
    refine ⟨served_unmatched works order.table ready served, ?_⟩
    obtain ⟨now, ⟨_, free⟩ | lacks⟩ := ready
    · exact .inl (untouched (start_order leftover .zero) reached now free)
    · exact .inr ⟨now, lacks⟩
  · rintro ⟨unmatched, brought⟩ opening
    have ready : log.server.Ready := by
      rcases brought with empty | ⟨now, lacks⟩
      · rw [run_empty empty] at reached
        cases reached
        exact ⟨rfl, .inl ⟨rfl, rfl⟩⟩
      · exact ⟨now, .inr lacks⟩
    apply ready_serves works unmatched order.table ready
    rw [(waiting ready.1).pairing]
    exact step4_room works

theorem sampleServerLib_works : sampleServerLib.Works where
  generated := samplePairing_generated
  sized := samplePairing_sized
  agrees := samplePairing_agrees
  inverts := Cifra.aesCcm_inverts
  shared := samplePairing_total
  crypt := ⟨emptyCursor, fun _ _ => rfl⟩

theorem sampleServerLib_flagged : FlagsRead sampleServerLib sampleStep1 := by
  rintro publicKey privateKey step2 ⟨⟩ encoded
  have valid : (samplePairing.step2.encode ⟨setBytes samplePublicKey, setBytes
      (generateRandomNonce samplePairing.libc 0 kNonceLength).toList⟩ (igPairingStep2Size samplePairing)).map
        (step2BytesValid sampleServerLib) = some true := by decide +kernel
  change samplePairing.step2.encode _ (igPairingStep2Size samplePairing) = some step2 at encoded
  exact Option.some.inj ((congrArg _ encoded).symm.trans valid)

theorem pairing_served_again_sample : SlotUnmatched (fun _ => (0, 0, 0)) ∧
    ∀ opening : Opening sampleServerLib,
      ServesPairing sampleServerLib (.start (initServer (fun _ => (0, 0, 0)) .zero)) opening ↔
        FlagsRead sampleServerLib opening.last := by
  have unmatched : SlotUnmatched fun _ => (0, 0, 0) := by
    unfold SlotUnmatched SlotMatches
    decide
  exact ⟨unmatched, (pairing_served_again sampleServerLib sampleServerLib_works
    ⟨sampleStep1, rfl, sampleServerLib_flagged⟩ (fun _ => (0, 0, 0)) [] _ rfl).mpr
      ⟨unmatched, .inl (List.forall_mem_nil _)⟩⟩

/-- A frame with a single zero byte is no step 1, and after it no handshake is served. -/
theorem malformed_frame_ends_pairing : ∃ log,
    Runs.run (recordWrite sampleServerLib) (.start (initServer (fun _ => (0, 0, 0)) .zero))
        [{ sampleStep1 with value := [1, 0] }] = some log ∧
      (∃ opening : Opening sampleServerLib, FlagsRead sampleServerLib opening.last) ∧
      ∀ opening : Opening sampleServerLib, ¬ServesPairing sampleServerLib log opening := by
  have refused : (Runs.run (recordWrite sampleServerLib) (.start (initServer (fun _ => (0, 0, 0)) .zero))
      [{ sampleStep1 with value := [1, 0] }]).map (fun log => log.server.fsm.curState) =
        some PairingStatus.step1.code := by decide +kernel
  obtain ⟨log, reached, now⟩ := Option.map_eq_some_iff.mp refused
  obtain ⟨opening, _, last⟩ := opening_single sampleServerLib_works sampleStep1 rfl
  have idle : ¬Awaits log.server.fsm.curState := by
    rw [now]
    unfold Awaits
    decide
  refine ⟨log, reached, ⟨opening, ?_⟩, idle_unserved (reached_waiting reached).1 idle⟩
  rw [last]
  exact sampleServerLib_flagged

end Bridge
