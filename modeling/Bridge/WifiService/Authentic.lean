import Bridge.Cifra.Aes
import Bridge.Library.Runs
import Bridge.Messages.Formats
import Bridge.WifiService.RandomVector
import Bridge.WifiService.Server

namespace Bridge

open Cbor

variable (lib : ServerLib) (write : ClientWrite)

def Authentic (server : PairingServer) (frame : List UInt8) : Prop :=
  ∃ bytes, decryptClientData lib.pairing server frame = .plain bytes

/-- The server completes a pairing and hands its key over only after a step-3 and a commit frame that
    are authentic under the key agreed in step 2, and a frame that is not leaves it where it was. -/
structure AuthenticatedPairing (s : WifiServer) : Prop where
  complete : (s.fsm.curState = PairingStatus.complete.code ∨ s.fsm.curState = SetWifiStatus.begin.code ∨
      ∃ crypt, PairingCall.handedOver crypt ∈ s.trace) →
    ∃ (key : Key) (frame frame' : List UInt8) (server server' : PairingServer),
      [PairingCall.agreed key, .step3 frame server, .commit frame' server'].Sublist s.trace ∧
      server.serverPairingAdminKey = key ∧ server'.serverPairingAdminKey = key ∧
      Authentic lib server frame ∧ Authentic lib server' frame' ∧
      ∀ crypt, PairingCall.handedOver crypt ∈ s.trace → crypt.serverPairingAdminKey = key.toList
  step3 : ∀ frame server, PairingCall.step3 frame server ∈ s.trace → ¬Authentic lib server frame →
    s.fsm.curState ≤ PairingStatus.step3.code
  commit : ∀ frame server, PairingCall.commit frame server ∈ s.trace → ¬Authentic lib server frame →
    s.fsm.curState ≤ PairingStatus.step4.code

/-- The write completes no frame in the steps that wait for one from the client, or an authentic one. -/
def FrameAuthentic (s : WifiServer) (write : ClientWrite) : Prop :=
  write.value ≠ [] → isRecvFullPkg (s.receive write).chr.recvPairingData = true →
    (s.fsm.curState = PairingStatus.step2.code ∨ s.fsm.curState = PairingStatus.step4.code) →
      Authentic lib s.pairing (s.receive write).frame

theorem receive_pkg {s : WifiServer} (backed : s.chr.recvPairingData.Backed) :
    getPkgFromRecvData (s.receive write).chr.recvPairingData = some (s.receive write).frame := by
  have held := recvData_data backed write.value write.stray
  obtain ⟨stored, data⟩ := Option.isSome_iff_exists.mp held
  change (recvData s.chr.recvPairingData write.value write.stray).data = some stored at data
  simp [WifiServer.frame, WifiServer.receive, getPkgFromRecvData, data]

theorem handleReplyStep2_spec {data after : ServerData} {ret : Int}
    (done : handleReplyStep2 lib write data = some (after, ret)) :
    after.chr.event = data.chr.event ∧
      ((ret ≠ 0 ∧ after.trace = data.trace ∧ after.chr.recvPairingData = data.chr.recvPairingData) ∨
        (ret = 0 ∧ after.trace = data.trace ++ [.agreed after.pairing.serverPairingAdminKey] ∧
          after.chr.recvPairingData = resetRecvData data.chr.recvPairingData)) := by
  unfold handleReplyStep2 at done
  split at done
  · cases done
    exact ⟨rfl, Or.inl ⟨by decide, rfl, rfl⟩⟩
  · simp only at done
    split at done
    · cases done
      exact ⟨rfl, Or.inl ⟨by decide, rfl, rfl⟩⟩
    · split at done
      · cases done
        exact ⟨rfl, Or.inl ⟨by decide, rfl, rfl⟩⟩
      · split at done
        · cases done
          exact ⟨rfl, Or.inl ⟨by decide, rfl, rfl⟩⟩
        · split at done
          · cases done
            exact ⟨rfl, Or.inl ⟨by decide, rfl, rfl⟩⟩
          · cases done
            exact ⟨rfl, Or.inr ⟨rfl, rfl, rfl⟩⟩

theorem handleReplyStep4_spec {data after : ServerData} {ret : Int} {frame : List UInt8}
    (done : handleReplyStep4 lib write data = some (after, ret))
    (whole : getPkgFromRecvData data.chr.recvPairingData = some frame) :
    after.chr.event = data.chr.event ∧ after.trace = data.trace ∧
      after.pairing.serverPairingAdminKey = data.pairing.serverPairingAdminKey ∧
      ((ret ≠ 0 ∧ Authentic lib data.pairing frame ∧
          after.chr.recvPairingData = data.chr.recvPairingData) ∨
        (ret = 0 ∧ after.chr.recvPairingData = resetRecvData data.chr.recvPairingData)) := by
  simp only [handleReplyStep4, whole, Option.map_eq_some_iff] at done
  obtain ⟨⟨pairing, err, written⟩, stepped, done⟩ := done
  obtain ⟨key, reported⟩ := igPairingStep4_spec lib.pairing stepped
  have failed : (1 : Int) ≠ 0 := by decide
  cases written with
  | none =>
    obtain ⟨payload, built⟩ := buildMsgPayload_some write.heap []
    simp only [Option.bind_none, Option.getD_none, built] at done
    cases done
    exact ⟨rfl, rfl, key, Or.inr ⟨rfl, rfl⟩⟩
  | some outcome =>
    have authentic : Authentic lib data.pairing frame := reported (Option.some_ne_none _)
    cases outcome with
    | none =>
      cases done
      exact ⟨rfl, rfl, key, Or.inl ⟨failed, authentic, rfl⟩⟩
    | some message =>
      obtain ⟨payload, built⟩ := buildMsgPayload_some write.heap message
      simp only [Option.bind_some, id, Option.getD_some, built] at done
      cases done
      exact ⟨rfl, rfl, key, Or.inr ⟨rfl, rfl⟩⟩

theorem handlePairingComplete_spec {data after : ServerData} {ret : Int}
    (done : handlePairingComplete lib write data = (after, ret)) :
    (ret ≠ 0 ∧ after = data) ∨ (ret = 0 ∧ after = data.log (.handedOver (makeCrypt data.pairing))) := by
  have failed : (1 : Int) ≠ 0 := by decide
  unfold handlePairingComplete at done
  simp only at done
  split at done
  · cases done
    exact Or.inl ⟨failed, rfl⟩
  · split at done
    · cases done
      exact Or.inl ⟨failed, rfl⟩
    · split at done
      · cases done
        exact Or.inl ⟨failed, rfl⟩
      · cases done
        exact Or.inr ⟨rfl, rfl⟩

/-- Entry 0 is never filled, and the second entry for S_PAIRING_COMPLETE replaces the first. -/
theorem initPairingFsm_table (leftover : Nat → UInt8 × UInt8 × UInt8) :
    (initPairingFsm leftover).fsmTransTable =
      ⟨(leftover 0).1, (leftover 0).2.1, none, (leftover 0).2.2⟩ :: pairingTransItems.eraseIdx 5 := rfl

theorem find_filled {leftover : Nat → UInt8 × UInt8 × UInt8} {fsm : FSM PairingAction}
    {item : FSMTransform PairingAction}
    (table : fsm.fsmTransTable = (initPairingFsm leftover).fsmTransTable)
    (filled : item ∈ pairingTransItems.eraseIdx 5) (state : fsm.curState = item.curState) :
    (∃ unfilled, fsm.find item.event = some unfilled ∧ unfilled.eventActFunc = none) ∨
      fsm.find item.event = some item := by
  unfold FSM.find
  rw [table, initPairingFsm_table, List.find?_cons, state]
  split
  · exact Or.inl ⟨_, rfl, rfl⟩
  · right
    have known : ∀ entry ∈ pairingTransItems.eraseIdx 5, (pairingTransItems.eraseIdx 5).find?
        (fun other => entry.event == other.event && entry.curState == other.curState) = some entry := by
      decide
    exact known item filled

theorem filled_proper {item : FSMTransform PairingAction} (filled : item ∈ pairingTransItems.eraseIdx 5) :
    item.event ≠ errorEvent := by
  have known : ∀ entry ∈ pairingTransItems.eraseIdx 5, entry.event ≠ errorEvent := by decide
  exact known item filled

theorem handle_filled {leftover : Nat → UInt8 × UInt8 × UInt8} {s s' : WifiServer} {event : PairingEvent}
    {state next : UInt8} {action : PairingAction} {ret : Int}
    (table : s.fsm.fsmTransTable = (initPairingFsm leftover).fsmTransTable) (now : s.fsm.curState = state)
    (filled : fillTransItem event.code state action next ∈ pairingTransItems.eraseIdx 5)
    (done : s.handle lib write event = some (s', ret)) :
    pairingAct lib write action s.toServerData = some (s'.toServerData, ret) ∧
      s'.fsm.fsmTransTable = (initPairingFsm leftover).fsmTransTable ∧
      s'.fsm.curState = if ret = 0 then next else state := by
  obtain ⟨⟨fsm, data, code⟩, handled, same⟩ := Option.map_eq_some_iff.mp done
  cases same
  rcases find_filled table filled now with ⟨unfilled, found, empty⟩ | found
  · obtain ⟨action, kept, _⟩ := handleEvent_found (filled_proper filled) found handled
    rw [empty] at kept
    cases kept
  · obtain ⟨kept, same, acted, moved⟩ := handleEvent_found (filled_proper filled) found handled
    cases same
    refine ⟨acted, ?_, ?_⟩
    · rw [moved]
      split
      · exact table
      · exact table
    · rw [moved]
      split
      · rfl
      · exact now

theorem clientEvent_spec {leftover : Nat → UInt8 × UInt8 × UInt8} {s s' : WifiServer}
    {event reply : PairingEvent} {state middle next : UInt8} {logs action : PairingAction}
    (done : clientEvent lib write s event reply = some s')
    (table : s.fsm.fsmTransTable = (initPairingFsm leftover).fsmTransTable) (now : s.fsm.curState = state)
    (first : fillTransItem event.code state logs middle ∈ pairingTransItems.eraseIdx 5)
    (only : pairingAct lib write logs = fun data => some (data, 0))
    (second : fillTransItem reply.code middle action next ∈ pairingTransItems.eraseIdx 5) :
    ∃ ret, pairingAct lib write action (s.withEvent reply).toServerData = some (s'.toServerData, ret) ∧
      s'.fsm.fsmTransTable = (initPairingFsm leftover).fsmTransTable ∧
      s'.fsm.curState = if ret = 0 then next else middle := by
  obtain ⟨⟨between, code⟩, handled, done⟩ := Option.bind_eq_some_iff.mp done
  obtain ⟨⟨after, ret⟩, answered, same⟩ := Option.map_eq_some_iff.mp done
  cases same
  obtain ⟨logged, kept, moved⟩ := handle_filled lib write table now first handled
  rw [only] at logged
  obtain ⟨same, rfl⟩ := Prod.mk.inj (Option.some.inj logged)
  have data : (between.withEvent reply).toServerData = (s.withEvent reply).toServerData := by
    unfold WifiServer.withEvent
    rw [← same]
  obtain ⟨acted, keptOn, movedOn⟩ :=
    handle_filled lib write (s := between.withEvent reply) kept moved second answered
  exact ⟨ret, data ▸ acted, keptOn, movedOn⟩

def PairingCall.Genuine : PairingCall → Prop
  | .step3 frame server | .commit frame server => Authentic lib server frame
  | .agreed _ | .handedOver _ => True

/-- How far a pairing has come, and what is on record then. A step 4 that could not be encrypted
    leaves the state at step 3. -/
inductive Stage : UInt8 → PairingServer → List PairingCall → Prop
  | unpaired {state : UInt8} {pairing : PairingServer}
      (early : state = PairingStatus.begin.code ∨ state = PairingStatus.step1.code) : Stage state pairing []
  | agreed {pairing : PairingServer} :
      Stage PairingStatus.step2.code pairing [.agreed pairing.serverPairingAdminKey]
  | unanswered {pairing server : PairingServer} {frame : List UInt8} (authentic : Authentic lib server frame) :
      Stage PairingStatus.step3.code pairing [.agreed server.serverPairingAdminKey, .step3 frame server]
  | answered {pairing server : PairingServer} {frame : List UInt8}
      (same : pairing.serverPairingAdminKey = server.serverPairingAdminKey) :
      Stage PairingStatus.step4.code pairing [.agreed server.serverPairingAdminKey, .step3 frame server]
  | committed {pairing server server' : PairingServer} {frame frame' : List UInt8}
      (same : server'.serverPairingAdminKey = server.serverPairingAdminKey) :
      Stage PairingStatus.complete.code pairing
        [.agreed server.serverPairingAdminKey, .step3 frame server, .commit frame' server']
  | handedOver {pairing server server' : PairingServer} {frame frame' : List UInt8} {crypt : Crypt}
      (same : server'.serverPairingAdminKey = server.serverPairingAdminKey)
      (key : crypt.serverPairingAdminKey = server.serverPairingAdminKey.toList) :
      Stage SetWifiStatus.begin.code pairing
        [.agreed server.serverPairingAdminKey, .step3 frame server, .commit frame' server', .handedOver crypt]

theorem AuthenticatedPairing.of_genuine {s : WifiServer} (genuine : ∀ call ∈ s.trace, call.Genuine lib)
    (complete : (s.fsm.curState = PairingStatus.complete.code ∨ s.fsm.curState = SetWifiStatus.begin.code ∨
        ∃ crypt, PairingCall.handedOver crypt ∈ s.trace) →
      ∃ (key : Key) (frame frame' : List UInt8) (server server' : PairingServer),
        [PairingCall.agreed key, .step3 frame server, .commit frame' server'].Sublist s.trace ∧
        server.serverPairingAdminKey = key ∧ server'.serverPairingAdminKey = key ∧
        Authentic lib server frame ∧ Authentic lib server' frame' ∧
        ∀ crypt, PairingCall.handedOver crypt ∈ s.trace → crypt.serverPairingAdminKey = key.toList) :
    AuthenticatedPairing lib s where
  complete := complete
  step3 := fun _ _ member forged => absurd (genuine _ member) forged
  commit := fun _ _ member forged => absurd (genuine _ member) forged

theorem AuthenticatedPairing.past_step3 {s : WifiServer} (paired : AuthenticatedPairing lib s)
    (past : ¬s.fsm.curState ≤ PairingStatus.step3.code) {frame : List UInt8} {server : PairingServer}
    (member : PairingCall.step3 frame server ∈ s.trace) : Authentic lib server frame := by
  by_contra forged
  exact past (paired.step3 frame server member forged)

theorem AuthenticatedPairing.past_step4 {s : WifiServer} (paired : AuthenticatedPairing lib s)
    (past : ¬s.fsm.curState ≤ PairingStatus.step4.code) {frame : List UInt8} {server : PairingServer}
    (member : PairingCall.commit frame server ∈ s.trace) : Authentic lib server frame := by
  by_contra forged
  exact past (paired.commit frame server member forged)

theorem Stage.authenticated {s : WifiServer} (stage : Stage lib s.fsm.curState s.pairing s.trace) :
    AuthenticatedPairing lib s ↔ ∀ call ∈ s.trace, call.Genuine lib := by
  rcases s with ⟨⟨chr, pairing, trace⟩, table, state⟩
  change Stage lib state pairing trace at stage
  cases stage with
  | unpaired early =>
    have genuine : ∀ call ∈ ([] : List PairingCall), call.Genuine lib := by
      intro call member
      cases member
    refine iff_of_true (.of_genuine lib genuine ?_) genuine
    intro finished
    rcases early with rfl | rfl <;> simp [PairingStatus.code, SetWifiStatus.code] at finished
  | agreed =>
    have genuine : ∀ call ∈ [PairingCall.agreed pairing.serverPairingAdminKey], call.Genuine lib := by
      intro call member
      rw [List.mem_singleton.mp member]
      trivial
    refine iff_of_true (.of_genuine lib genuine ?_) genuine
    intro finished
    simp [PairingStatus.code, SetWifiStatus.code] at finished
  | @unanswered _ server frame authentic =>
    have genuine : ∀ call ∈ [PairingCall.agreed server.serverPairingAdminKey, .step3 frame server],
        call.Genuine lib := by
      simp only [List.forall_mem_cons]
      exact ⟨trivial, authentic, List.forall_mem_nil _⟩
    refine iff_of_true (.of_genuine lib genuine ?_) genuine
    intro finished
    simp [PairingStatus.code, SetWifiStatus.code] at finished
  | answered same =>
    constructor
    · intro paired
      have past : ¬PairingStatus.step4.code ≤ PairingStatus.step3.code := by decide
      have opened := paired.past_step3 lib past (List.mem_cons_of_mem _ List.mem_cons_self)
      simp only [List.forall_mem_cons]
      exact ⟨trivial, opened, List.forall_mem_nil _⟩
    · intro genuine
      apply AuthenticatedPairing.of_genuine lib genuine
      intro finished
      simp [PairingStatus.code, SetWifiStatus.code] at finished
  | @committed _ server server' frame frame' same =>
    constructor
    · intro paired
      have past : ¬PairingStatus.complete.code ≤ PairingStatus.step3.code := by decide
      have past' : ¬PairingStatus.complete.code ≤ PairingStatus.step4.code := by decide
      have opened := paired.past_step3 lib past (List.mem_cons_of_mem _ List.mem_cons_self)
      have opened' := paired.past_step4 lib past'
        (List.mem_cons_of_mem _ (List.mem_cons_of_mem _ List.mem_cons_self))
      simp only [List.forall_mem_cons]
      exact ⟨trivial, opened, opened', List.forall_mem_nil _⟩
    · intro genuine
      apply AuthenticatedPairing.of_genuine lib genuine
      intro _
      refine ⟨server.serverPairingAdminKey, frame, frame', server, server', List.Sublist.refl _, rfl, same,
        genuine _ (List.mem_cons_of_mem _ List.mem_cons_self),
        genuine _ (List.mem_cons_of_mem _ (List.mem_cons_of_mem _ List.mem_cons_self)), ?_⟩
      intro crypt member
      simp at member
  | @handedOver _ server server' frame frame' crypt same key =>
    constructor
    · intro paired
      have past : ¬SetWifiStatus.begin.code ≤ PairingStatus.step3.code := by decide
      have past' : ¬SetWifiStatus.begin.code ≤ PairingStatus.step4.code := by decide
      have opened := paired.past_step3 lib past (List.mem_cons_of_mem _ List.mem_cons_self)
      have opened' := paired.past_step4 lib past'
        (List.mem_cons_of_mem _ (List.mem_cons_of_mem _ List.mem_cons_self))
      simp only [List.forall_mem_cons]
      exact ⟨trivial, opened, opened', trivial, List.forall_mem_nil _⟩
    · intro genuine
      apply AuthenticatedPairing.of_genuine lib genuine
      intro _
      refine ⟨server.serverPairingAdminKey, frame, frame', server, server', ?_, rfl, same,
        genuine _ (List.mem_cons_of_mem _ List.mem_cons_self),
        genuine _ (List.mem_cons_of_mem _ (List.mem_cons_of_mem _ List.mem_cons_self)), ?_⟩
      · exact List.sublist_append_left [PairingCall.agreed server.serverPairingAdminKey,
          .step3 frame server, .commit frame' server'] [.handedOver crypt]
      · intro other member
        have same : other = crypt := by simpa using member
        rw [same, key]

def IsClientEvent (event : UInt8) : Prop :=
  event = PairingEvent.cWriteStep1.code ∨ event = PairingEvent.cWriteStep3.code ∨
    event = PairingEvent.cWriteCommit.code

def Awaits (state : UInt8) : Prop :=
  state = PairingStatus.begin.code ∨ state = PairingStatus.step2.code ∨ state = PairingStatus.step4.code

structure PairingInv (leftover : Nat → UInt8 × UInt8 × UInt8) (s : WifiServer) : Prop where
  table : s.fsm.fsmTransTable = (initPairingFsm leftover).fsmTransTable
  backed : s.chr.recvPairingData.Backed
  stage : Stage lib s.fsm.curState s.pairing s.trace
  idle : ¬Awaits s.fsm.curState → ¬IsClientEvent s.chr.event

def StillGenuine (s s' : WifiServer) : Prop :=
  (∀ call ∈ s'.trace, call.Genuine lib) ↔ (∀ call ∈ s.trace, call.Genuine lib) ∧
    ((s.fsm.curState = PairingStatus.step2.code ∨ s.fsm.curState = PairingStatus.step4.code) →
      Authentic lib s.pairing s.frame)

variable {leftover : Nat → UInt8 × UInt8 × UInt8} {s s' : WifiServer}

theorem idle_step (inv : PairingInv lib leftover s) (idle : ¬Awaits s.fsm.curState)
    (done : handleClientEvent lib write (decideEvent s) = some s') :
    PairingInv lib leftover s' ∧ StillGenuine lib s s' := by
  have event := inv.idle idle
  simp only [Awaits, not_or] at idle
  simp only [IsClientEvent, not_or] at event
  unfold decideEvent handleClientEvent at done
  simp only [idle.1, idle.2.1, idle.2.2, event.1, event.2.1, event.2.2, if_false] at done
  cases done
  refine ⟨inv, (and_iff_left ?_).symm⟩
  intro waits
  rcases waits with step2 | step4
  · exact absurd step2 idle.2.1
  · exact absurd step4 idle.2.2

theorem step1_step (inv : PairingInv lib leftover s) (now : s.fsm.curState = PairingStatus.begin.code)
    (fresh : s.trace = []) (done : handleClientEvent lib write (decideEvent s) = some s') :
    PairingInv lib leftover s' ∧ StillGenuine lib s s' := by
  unfold decideEvent at done
  rw [if_pos now] at done
  change clientEvent lib write (s.withEvent .cWriteStep1) .cWriteStep1 .sReplyStep2 = some s' at done
  have first : fillTransItem PairingEvent.cWriteStep1.code PairingStatus.begin.code
      PairingAction.handleWriteStep1 PairingStatus.step1.code ∈ pairingTransItems.eraseIdx 5 := by decide
  have second : fillTransItem PairingEvent.sReplyStep2.code PairingStatus.step1.code
      PairingAction.handleReplyStep2 PairingStatus.step2.code ∈ pairingTransItems.eraseIdx 5 := by decide
  obtain ⟨ret, acted, table, moved⟩ := clientEvent_spec lib write done inv.table now first rfl second
  obtain ⟨event, outcome⟩ := handleReplyStep2_spec lib write acted
  have idle : ¬IsClientEvent s'.chr.event := by
    rw [event]
    show ¬IsClientEvent PairingEvent.sReplyStep2.code
    unfold IsClientEvent
    decide
  have still : (∀ call ∈ s'.trace, call.Genuine lib) → StillGenuine lib s s' := by
    intro genuine
    refine iff_of_true genuine ⟨?_, ?_⟩
    · rw [fresh]
      exact List.forall_mem_nil _
    · rw [now]
      intro waits
      simp [PairingStatus.code] at waits
  rcases outcome with ⟨failed, trace, recv⟩ | ⟨success, trace, recv⟩
  · change s'.trace = s.trace at trace
    rw [fresh] at trace
    rw [if_neg failed] at moved
    refine ⟨⟨table, ?_, ?_, fun _ => idle⟩, still ?_⟩
    · rw [recv]
      exact inv.backed
    · rw [trace]
      exact .unpaired (Or.inr moved)
    · rw [trace]
      exact List.forall_mem_nil _
  · change s'.trace = s.trace ++ _ at trace
    rw [fresh, List.nil_append] at trace
    rw [if_pos success] at moved
    refine ⟨⟨table, recv ▸ resetRecvData_backed _, ?_, fun _ => idle⟩, still ?_⟩
    · rw [moved, trace]
      exact .agreed
    · rw [trace]
      simp only [List.forall_mem_cons]
      exact ⟨trivial, List.forall_mem_nil _⟩

theorem step3_step (inv : PairingInv lib leftover s) (now : s.fsm.curState = PairingStatus.step2.code)
    (agreed : s.trace = [.agreed s.pairing.serverPairingAdminKey])
    (whole : getPkgFromRecvData s.chr.recvPairingData = some s.frame)
    (done : handleClientEvent lib write (decideEvent s) = some s') :
    PairingInv lib leftover s' ∧ StillGenuine lib s s' := by
  have other : PairingStatus.step2.code ≠ PairingStatus.begin.code := by decide
  unfold decideEvent at done
  rw [now, if_neg other, if_pos rfl] at done
  change clientEvent lib write ⟨(s.withEvent .cWriteStep3).log (.step3 s.frame s.pairing), s.fsm⟩
    .cWriteStep3 .sReplyStep4 = some s' at done
  have first : fillTransItem PairingEvent.cWriteStep3.code PairingStatus.step2.code
      PairingAction.handleWriteStep3 PairingStatus.step3.code ∈ pairingTransItems.eraseIdx 5 := by decide
  have second : fillTransItem PairingEvent.sReplyStep4.code PairingStatus.step3.code
      PairingAction.handleReplyStep4 PairingStatus.step4.code ∈ pairingTransItems.eraseIdx 5 := by decide
  obtain ⟨ret, acted, table, moved⟩ := clientEvent_spec lib write done inv.table now first rfl second
  obtain ⟨event, trace, key, outcome⟩ := handleReplyStep4_spec lib write acted whole
  change s'.trace = s.trace ++ [.step3 s.frame s.pairing] at trace
  change s'.pairing.serverPairingAdminKey = s.pairing.serverPairingAdminKey at key
  rw [agreed] at trace
  have idle : ¬IsClientEvent s'.chr.event := by
    rw [event]
    show ¬IsClientEvent PairingEvent.sReplyStep4.code
    unfold IsClientEvent
    decide
  have still : StillGenuine lib s s' := by
    unfold StillGenuine
    rw [trace, agreed, List.cons_append, List.nil_append, List.forall_mem_cons, List.forall_mem_cons]
    constructor
    · intro after
      exact ⟨List.forall_mem_singleton.mpr after.1, fun _ => after.2.1⟩
    · intro before
      exact ⟨trivial, before.2 (Or.inl now), List.forall_mem_nil _⟩
  refine ⟨?_, still⟩
  rcases outcome with ⟨failed, authentic, recv⟩ | ⟨success, recv⟩
  · rw [if_neg failed] at moved
    refine ⟨table, ?_, ?_, fun _ => idle⟩
    · rw [recv]
      exact inv.backed
    · rw [moved, trace]
      exact .unanswered authentic
  · rw [if_pos success] at moved
    refine ⟨table, recv ▸ resetRecvData_backed _, ?_, fun _ => idle⟩
    rw [moved, trace]
    exact .answered key

theorem commit_step {server : PairingServer} {frame : List UInt8} (inv : PairingInv lib leftover s)
    (now : s.fsm.curState = PairingStatus.step4.code)
    (same : s.pairing.serverPairingAdminKey = server.serverPairingAdminKey)
    (answered : s.trace = [.agreed server.serverPairingAdminKey, .step3 frame server])
    (done : handleClientEvent lib write (decideEvent s) = some s') :
    PairingInv lib leftover s' ∧ StillGenuine lib s s' := by
  have other : PairingStatus.step4.code ≠ PairingStatus.begin.code := by decide
  have another : PairingStatus.step4.code ≠ PairingStatus.step2.code := by decide
  unfold decideEvent at done
  rw [now, if_neg other, if_neg another, if_pos rfl] at done
  change clientEvent lib write ⟨(s.withEvent .cWriteCommit).log (.commit s.frame s.pairing), s.fsm⟩
    .cWriteCommit .sPairingComplete = some s' at done
  have first : fillTransItem PairingEvent.cWriteCommit.code PairingStatus.step4.code
      PairingAction.handleWriteCommit PairingStatus.complete.code ∈ pairingTransItems.eraseIdx 5 := by decide
  have second : fillTransItem PairingEvent.sPairingComplete.code PairingStatus.complete.code
      PairingAction.handlePairingComplete SetWifiStatus.begin.code ∈ pairingTransItems.eraseIdx 5 := by decide
  obtain ⟨ret, acted, table, moved⟩ := clientEvent_spec lib write done inv.table now first rfl second
  have idle : ¬IsClientEvent PairingEvent.sPairingComplete.code := by
    unfold IsClientEvent
    decide
  have still : ∀ more, s'.trace = s.trace ++ .commit s.frame s.pairing :: more →
      (∀ call ∈ more, call.Genuine lib) → StillGenuine lib s s' := by
    intro more trace genuine
    unfold StillGenuine
    rw [trace, List.forall_mem_append, List.forall_mem_cons]
    constructor
    · intro after
      exact ⟨after.1, fun _ => after.2.1⟩
    · intro before
      exact ⟨before.1, before.2 (Or.inr now), genuine⟩
  rcases handlePairingComplete_spec lib write (Option.some.inj acted) with
    ⟨failed, data⟩ | ⟨success, data⟩
  · rw [if_neg failed] at moved
    have trace : s'.trace = s.trace ++ [.commit s.frame s.pairing] := congrArg ServerData.trace data
    refine ⟨⟨table, ?_, ?_, fun _ => ?_⟩, still [] trace (List.forall_mem_nil _)⟩
    · rw [data]
      exact inv.backed
    · rw [moved, trace, answered]
      exact .committed same
    · rw [data]
      exact idle
  · rw [if_pos success] at moved
    have trace : s'.trace = s.trace ++ [.commit s.frame s.pairing, .handedOver (makeCrypt s.pairing)] := by
      rw [data]
      exact List.append_assoc s.trace _ _
    refine ⟨⟨table, ?_, ?_, fun _ => ?_⟩, still _ trace ?_⟩
    · rw [data]
      exact inv.backed
    · rw [moved, trace, answered]
      exact .handedOver same (congrArg Vector.toList same)
    · rw [data]
      exact idle
    · simp only [List.forall_mem_cons]
      exact ⟨trivial, List.forall_mem_nil _⟩

theorem chrWriteValue_step (inv : PairingInv lib leftover s) (done : chrWriteValue lib s write = some s') :
    PairingInv lib leftover s' ∧
      ((∀ call ∈ s'.trace, call.Genuine lib) ↔
        (∀ call ∈ s.trace, call.Genuine lib) ∧ FrameAuthentic lib s write) := by
  unfold chrWriteValue at done
  split at done
  · rename_i empty
    cases done
    refine ⟨inv, ?_⟩
    simp [FrameAuthentic, empty]
  · rename_i nonempty
    have backed : (recvData s.chr.recvPairingData write.value write.stray).Backed :=
      fun _ => recvData_data inv.backed write.value write.stray
    have received : PairingInv lib leftover (s.receive write) := ⟨inv.table, backed, inv.stage, inv.idle⟩
    split at done
    · rename_i full
      have asked : FrameAuthentic lib s write ↔
          ((s.fsm.curState = PairingStatus.step2.code ∨ s.fsm.curState = PairingStatus.step4.code) →
            Authentic lib s.pairing (s.receive write).frame) := by
        simp only [FrameAuthentic, ne_eq, nonempty, not_false_eq_true, full, true_implies]
      rw [asked]
      have step : PairingInv lib leftover s' ∧ StillGenuine lib (s.receive write) s' := by
        have stage := received.stage
        generalize now : (s.receive write).fsm.curState = state at stage
        generalize record : (s.receive write).trace = trace at stage
        generalize vars : (s.receive write).pairing = pairing at stage
        cases stage with
        | unpaired early =>
          rcases early with rfl | rfl
          · exact step1_step lib write received now record done
          · exact idle_step lib write received (by rw [now]; unfold Awaits; decide) done
        | agreed =>
          subst vars
          exact step3_step lib write received now record (receive_pkg write inv.backed) done
        | answered same =>
          subst vars
          exact commit_step lib write received now same record done
        | unanswered | committed | handedOver =>
          exact idle_step lib write received (by rw [now]; unfold Awaits; decide) done
      exact step
    · rename_i partly
      cases done
      refine ⟨received, ?_⟩
      have waits : FrameAuthentic lib s write := fun _ full => absurd full partly
      exact (and_iff_left waits).symm

theorem initServer_inv (leftover : Nat → UInt8 × UInt8 × UInt8) (pairing : PairingServer) :
    PairingInv lib leftover (initServer leftover pairing) := by
  refine ⟨rfl, ?_, .unpaired (Or.inl rfl), ?_⟩
  · intro status
    exact absurd rfl status
  · intro idle
    exact absurd (Or.inl rfl) idle

/-- Whatever a client writes, the pairing reached is authenticated exactly if the server received no
    forged step-3 or commit frame. -/
theorem pairing_authenticated (leftover : Nat → UInt8 × UInt8 × UInt8) (pairing : PairingServer)
    (writes : List ClientWrite) (s : WifiServer)
    (reached : Runs.run (chrWriteValue lib) (initServer leftover pairing) writes = some s) :
    AuthenticatedPairing lib s ↔
      Runs.Along (chrWriteValue lib) (FrameAuthentic lib) (initServer leftover pairing) writes := by
  have start := initServer_inv lib leftover pairing
  have inv : PairingInv lib leftover s :=
    Runs.run_preserves (chrWriteValue lib)
      (fun s write s' inv stepped => (chrWriteValue_step lib write inv stepped).1) start reached
  have genuine := Runs.run_iff_along (chrWriteValue lib)
    (fun s write s' inv stepped => (chrWriteValue_step lib write inv stepped).1)
    (fun s write s' inv stepped => (chrWriteValue_step lib write inv stepped).2) start reached
  rw [inv.stage.authenticated lib, genuine]
  exact and_iff_right (List.forall_mem_nil _)

/-- The generator of newlib. -/
def newlibRand (seed k : Nat) : Nat :=
  Nat.repeat (fun state => (state * 6364136223846793005 + 1) % 2 ^ 64) (k + 1) (seed % 2 ^ 32) / 2 ^ 32 % 2 ^ 31

-- A pairing with the private key 111 on both sides. The library holds its numbers with the lowest byte
-- first, as it is built for these machines.

def samplePrivateKey : List UInt8 := 111 :: List.replicate 31 0

def samplePublicKey : List UInt8 :=
  [0x9e, 0x08, 0x5b, 0xb8, 0xcd, 0xcc, 0xd2, 0xca, 0xb1, 0x3c, 0x06, 0xe8, 0x2b, 0x00, 0x33, 0x62,
    0x4f, 0x72, 0x93, 0x10, 0xae, 0xc0, 0xe2, 0x0f, 0x9b, 0x67, 0x1f, 0x7a, 0x06, 0x24, 0xc4, 0x3f,
    0xcf, 0x9e, 0x62, 0xc6, 0xf8, 0xae, 0xaa, 0x66, 0x94, 0x4c, 0x93, 0xf7, 0x00, 0xc8, 0x9f, 0xcf,
    0x26, 0x8d, 0xa9, 0xed, 0x47, 0xbb, 0xed, 0x2a, 0xe5, 0x1b, 0x58, 0x9e, 0x00, 0x43, 0xb2, 0x5b]

/-- The first coordinate of 12321 times the base point. -/
def sampleSecret : List UInt8 :=
  [0x28, 0x37, 0x2b, 0xe3, 0x03, 0xda, 0xef, 0xaf, 0x9d, 0x57, 0x57, 0x39, 0x2e, 0xb9, 0xcc, 0x06,
    0x5d, 0x11, 0x91, 0x6a, 0x8d, 0x9f, 0xff, 0x63, 0xc9, 0xac, 0x6d, 0x9f, 0x39, 0x1d, 0xaa, 0x40]

def emptyCursor : CborValue := ⟨[], 0, 0, .invalid, false, false, false⟩

def samplePairing : PairingLib where
  ccm := Cifra.aesCcm
  libc := ⟨newlibRand⟩
  hmacDrbg := sha1Drbg
  makeKey := fun _ => some (samplePublicKey, samplePrivateKey)
  sharedSecret := fun publicKey privateKey =>
    if publicKey = samplePublicKey ∧ privateKey = samplePrivateKey then some sampleSecret else none
  step1 := PairingStep1.format.codec emptyCursor
  step2 := PairingStep2.format.codec emptyCursor
  step3 := PairingStep3.format.codec emptyCursor
  step4 := PairingStep4.format.codec emptyCursor
  commit := PairingCommit.format.codec emptyCursor

def sampleServerLib : ServerLib where
  pairing := samplePairing
  crypt := { Codec.unused Crypt with
    encode := fun crypt => (CryptObject.format.codec emptyCursor).encode
      ⟨some crypt.serverPairingAdminKey, some crypt.serverNonce, some crypt.clientNonce⟩ }
  hasNonceOffset := 24

def sampleWrite (frame : List UInt8) : ClientWrite where
  value := UInt8.ofNat frame.length :: frame
  stray := []
  time := 0
  times := ⟨0, 0, 0⟩
  entropy := 0
  heap := fun _ => 0
  connect := true
  write := true

def sampleStep1 : ClientWrite := sampleWrite ([0xa2, 0x00, 0x01, 0x0b, 0x58, 0x40] ++ samplePublicKey)

-- Step 3 with the server's own nonce for the other direction, which a client draws in the same second, and
-- the commit of 1600000000, sealed under the agreed key, the nonce of step 2 and its successor.

def sampleStep3 : ClientWrite := sampleWrite
  [224, 65, 93, 113, 96, 29, 9, 7, 129, 197, 38, 40, 16, 121, 246, 249, 109, 99, 51, 154, 218, 42, 48, 74, 169]

def sampleCommit : ClientWrite := sampleWrite
  [223, 220, 77, 18, 251, 67, 33, 24, 41, 240, 216, 166, 198, 238, 77, 240, 160]

def samplePaired (writes : List ClientWrite) : Option WifiServer :=
  Runs.run (chrWriteValue sampleServerLib) (initServer (fun _ => (0, 0, 0)) .zero) writes

def PairingCall.isForged : PairingCall → Bool
  | .step3 frame server | .commit frame server =>
    decryptClientData samplePairing server frame == .refused
  | .agreed _ | .handedOver _ => false

def PairingCall.isHandedOver : PairingCall → Bool
  | .handedOver _ => true
  | .agreed _ | .step3 _ _ | .commit _ _ => false

/-- A whole pairing: step 3 and the commit are accepted, and the server hands its key over. -/
theorem pairing_authenticated_sample : ∃ s,
    samplePaired [sampleStep1, sampleStep3, sampleCommit] = some s ∧ s.fsm.curState = SetWifiStatus.begin.code ∧
      s.trace.any PairingCall.isHandedOver = true ∧ s.trace.any PairingCall.isForged = false ∧
      (AuthenticatedPairing sampleServerLib s ↔
        Runs.Along (chrWriteValue sampleServerLib) (FrameAuthentic sampleServerLib)
          (initServer (fun _ => (0, 0, 0)) .zero) [sampleStep1, sampleStep3, sampleCommit]) := by
  have paired : (samplePaired [sampleStep1, sampleStep3, sampleCommit]).map (fun s => (s.fsm.curState,
      s.trace.any PairingCall.isHandedOver, s.trace.any PairingCall.isForged)) =
      some (SetWifiStatus.begin.code, true, false) := by decide +kernel
  obtain ⟨s, reached, facts⟩ := Option.map_eq_some_iff.mp paired
  obtain ⟨state, facts⟩ := Prod.mk.inj facts
  obtain ⟨sent, genuine⟩ := Prod.mk.inj facts
  exact ⟨s, reached, state, sent, genuine, pairing_authenticated sampleServerLib (fun _ => (0, 0, 0)) .zero
    [sampleStep1, sampleStep3, sampleCommit] s reached⟩

theorem forged_not_authentic {server : PairingServer} {frame : List UInt8}
    (forged : (decryptClientData samplePairing server frame == .refused) = true) :
    ¬Authentic sampleServerLib server frame := by
  intro authentic
  obtain ⟨bytes, opened⟩ := authentic
  change decryptClientData samplePairing server frame = .plain bytes at opened
  rw [beq_iff_eq, opened] at forged
  cases forged

/-- After step 1 a client sends eight zero bytes as step 3 and again as commit, and the server hands
    its key over. -/
theorem forged_pairing_handed_over : ∃ s,
    samplePaired [sampleStep1, sampleWrite (List.replicate 8 0), sampleWrite (List.replicate 8 0)] =
        some s ∧
      s.fsm.curState = SetWifiStatus.begin.code ∧ (∃ crypt, PairingCall.handedOver crypt ∈ s.trace) ∧
      ¬AuthenticatedPairing sampleServerLib s := by
  have paired : (samplePaired [sampleStep1, sampleWrite (List.replicate 8 0),
      sampleWrite (List.replicate 8 0)]).map (fun s => (s.fsm.curState,
        s.trace.any PairingCall.isHandedOver, s.trace.any PairingCall.isForged)) =
      some (SetWifiStatus.begin.code, true, true) := by decide +kernel
  obtain ⟨s, reached, facts⟩ := Option.map_eq_some_iff.mp paired
  obtain ⟨state, facts⟩ := Prod.mk.inj facts
  obtain ⟨sent, forged⟩ := Prod.mk.inj facts
  refine ⟨s, reached, state, ?_, ?_⟩
  · obtain ⟨call, member, handedOver⟩ := List.any_eq_true.mp sent
    cases call with
    | handedOver crypt => exact ⟨crypt, member⟩
    | agreed | step3 | commit => cases handedOver
  · intro authenticated
    obtain ⟨call, member, refused⟩ := List.any_eq_true.mp forged
    cases call with
    | step3 frame server =>
      have early := authenticated.step3 frame server member (forged_not_authentic refused)
      rw [state] at early
      exact absurd early (by decide)
    | commit frame server =>
      have early := authenticated.commit frame server member (forged_not_authentic refused)
      rw [state] at early
      exact absurd early (by decide)
    | agreed | handedOver => cases refused

end Bridge
