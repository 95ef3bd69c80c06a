import Bridge.WifiService.Agreement
import Bridge.WifiService.Delivery

namespace Bridge

/-- The parts of the server that a handshake relies on: the messages are those of `lock/messages`, both
    sides of an exchange come to a shared secret, and the record for the bridge is a `Crypt`. -/
structure ServerLib.Works (lib : ServerLib) : Prop where
  generated : lib.pairing.Generated
  sized : lib.pairing.Sized
  agrees : lib.pairing.EcdhAgrees
  inverts : lib.pairing.ccm.Inverts
  shared : ∀ publicKey privateKey publicKey' privateKey', KeyPair lib.pairing publicKey privateKey →
    KeyPair lib.pairing publicKey' privateKey' → ∃ secret, lib.pairing.sharedSecret publicKey privateKey' = some secret
  crypt : ∃ garbage, ∀ (crypt : Crypt) (length : Nat), lib.crypt.encode crypt length =
    (CryptObject.format.codec garbage).encode
      ⟨some crypt.serverPairingAdminKey, some crypt.serverNonce, some crypt.clientNonce⟩ length

/-- A client with a key of its own that writes its step 1. The server makes its key at the last write. -/
structure Opening (lib : ServerLib) where
  client : PairingClient
  step1 : List UInt8
  writes : List ClientWrite
  last : ClientWrite
  key : KeyPair lib.pairing client.publicKey_ client.privateKey_
  made : genPairingStep1Native lib.pairing client = some step1
  delivers : Delivers step1 writes
  ends : writes.getLast? = some last
  keyed : (lib.pairing.makeKey last.entropy).isSome = true

variable (lib : ServerLib)

/-- The two bytes of the encoded step 2 that the server reads as flags are set. -/
def FlagsRead (write : ClientWrite) : Prop := ∀ publicKey privateKey step2,
  lib.pairing.makeKey write.entropy = some (publicKey, privateKey) →
    lib.pairing.step2.encode ⟨setBytes publicKey,
      setBytes (generateRandomNonce lib.pairing.libc write.time kNonceLength).toList⟩ (igPairingStep2Size lib.pairing) =
        some step2 → step2BytesValid lib step2 = true

/-- The server has sent one reply, computed from this payload. -/
def PairingLog.Sends (log log' : PairingLog) (event : PairingEvent) (payload reply : List UInt8) : Prop :=
  (∃ written, log'.replies = log.replies ++ [⟨event, payload, written⟩]) ∧
    ∃ heap, buildMsgPayload heap reply = some log'.server.chr.value

def ServesCommit (log : PairingLog) (client : PairingClient) : Prop := ∀ currentTime, ∃ client' commit,
  genPairingCommitNative lib.pairing currentTime client = (client', some commit) ∧
    ∀ writes, Delivers commit writes → (∀ write ∈ writes, write.connect = true ∧ write.write = true) →
      ∃ log', Runs.run (recordWrite lib) log writes = some log' ∧
        log'.server.fsm.curState = SetWifiStatus.begin.code ∧ ∃ crypt, PairingCall.handedOver crypt ∈ log'.server.trace

def ServesStep3 (log : PairingLog) (client : PairingClient) (step3 : List UInt8) : Prop :=
  ∀ writes, Delivers step3 writes → ∃ log' step4 client' taken, Runs.run (recordWrite lib) log writes = some log' ∧
    log.Sends log' .sReplyStep4 step3 step4 ∧
    recPairingStep4Native lib.pairing.ccm lib.pairing.step4 client step4 = some (client', some taken) ∧
    ServesCommit lib log' client'

/-- The server answers the step 1 with a step 2 that the client takes, then its step 3 with a step 4 that it
    takes, and completes the pairing with its commit, in however many writes they come. -/
def ServesPairing (log : PairingLog) (opening : Opening lib) : Prop := ∃ log' step2 client step3,
  Runs.run (recordWrite lib) log opening.writes = some log' ∧ log.Sends log' .sReplyStep2 opening.step1 step2 ∧
    genPairingStep3Native lib.pairing opening.client step2 = (client, some step3) ∧ ServesStep3 lib log' client step3

section Replies

variable {lib} {write : ClientWrite} {data : ServerData}

theorem handleReplyStep2_valid {step1 step2 : List UInt8} {pairing : PairingServer} {size : Nat}
    (whole : getPkgFromRecvData data.chr.recvPairingData = some step1) (sized : igPairingStep2Size lib.pairing = size)
    (positive : size ≠ 0) (replied : serverGenPairingStep2 lib.pairing write.time write.entropy data.pairing step1 size =
      (pairing, .ok step2)) (valid : step2BytesValid lib step2 = true) : ∃ payload,
    buildMsgPayload write.heap step2 = some payload ∧ handleReplyStep2 lib write data =
      some (((chrWrite (data.withPairing pairing) payload).reset).log (.agreed pairing.serverPairingAdminKey), 0) := by
  obtain ⟨payload, built⟩ := buildMsgPayload_some write.heap step2
  refine ⟨payload, built, ?_⟩
  simp only [handleReplyStep2, whole, sized, if_neg positive, replied, valid, Bool.not_true, Bool.false_eq_true, if_false,
    built]
  rfl

theorem handleReplyStep2_invalid {step1 step2 : List UInt8} {pairing : PairingServer} {size : Nat}
    (whole : getPkgFromRecvData data.chr.recvPairingData = some step1) (sized : igPairingStep2Size lib.pairing = size)
    (positive : size ≠ 0) (replied : serverGenPairingStep2 lib.pairing write.time write.entropy data.pairing step1 size =
      (pairing, .ok step2)) (invalid : step2BytesValid lib step2 = false) :
    handleReplyStep2 lib write data = some (data.withPairing pairing, 1) := by
  simp only [handleReplyStep2, whole, sized, if_neg positive, replied, invalid, Bool.not_false, if_true]

theorem handleReplyStep4_answers {step3 step4 : List UInt8} {pairing : PairingServer} {err : IgErrorCode}
    (whole : getPkgFromRecvData data.chr.recvPairingData = some step3)
    (replied : igPairingStep4 lib.pairing write.times data.pairing step3 (igPairingStep4Size lib.pairing data.pairing) =
      some (pairing, err, some (some step4))) : ∃ payload,
    buildMsgPayload write.heap step4 = some payload ∧
      handleReplyStep4 lib write data = some ((chrWrite (data.withPairing pairing) payload).reset, 0) := by
  obtain ⟨payload, built⟩ := buildMsgPayload_some write.heap step4
  refine ⟨payload, built, ?_⟩
  simp only [handleReplyStep4, whole, replied, Option.map_some, Option.bind_some, id, Option.getD_some, built]

theorem crypt_encodes (works : lib.Works) (pairing : PairingServer) :
    ∃ bytes, lib.crypt.encode (makeCrypt pairing) 1024 = some bytes := by
  obtain ⟨garbage, real⟩ := works.crypt
  let obj : CryptObject :=
    ⟨some (makeCrypt pairing).serverPairingAdminKey, some (makeCrypt pairing).serverNonce, some (makeCrypt pairing).clientNonce⟩
  have complete : CryptObject.format.Complete obj := by
    refine ⟨⟨rfl, ?_, ?_⟩, ?_⟩
    · simp [obj, Format.WellTyped, CryptObject.format, rawBytesField, bytesField, FieldType.admits]
    · simp [obj, Format.Sized, itemSized, CryptObject.format, rawBytesField, bytesField, makeCrypt]
    · simp [obj, CryptObject.format, rawBytesField, bytesField]
  have strings : CryptObject.format.stringBytes obj = 40 := by
    simp [obj, Format.stringBytes, CryptObject.format, rawBytesField, bytesField, itemBytes, bytesSize, makeCrypt]
  have overhead : CryptObject.format.overhead ≤ 40 := by decide
  rw [real]
  exact codec_encodes CryptObject.format_lawful (by decide) complete garbage (by omega) (by decide)

theorem handlePairingComplete_completes (works : lib.Works) (connect : write.connect = true) (writes : write.write = true) :
    handlePairingComplete lib write data = (data.log (.handedOver (makeCrypt data.pairing)), 0) := by
  obtain ⟨bytes, encoded⟩ := crypt_encodes works data.pairing
  simp only [handlePairingComplete, encoded, connect, writes, Bool.not_true, Bool.false_eq_true, if_false]

end Replies

/-- The server waits in a state with an empty buffer, and has in common with the client what it should. -/
structure Meets (leftover : Nat → UInt8 × UInt8 × UInt8) (state : UInt8) (log : PairingLog) (client : PairingClient)
    (progress : PairingProgress) : Prop where
  table : log.server.fsm.fsmTransTable = (initPairingFsm leftover).fsmTransTable
  now : log.server.fsm.curState = state
  empty : log.server.chr.recvPairingData.recvStatus = .none ∧ log.server.chr.recvPairingData.data = none
  consistent : PairingHandshake.Consistent lib.pairing
    ⟨client, log.server.pairing, progress, .fresh, .fresh, none⟩

section Serving

variable {lib} {leftover : Nat → UInt8 × UInt8 × UInt8} {log : PairingLog} {client : PairingClient}

theorem ServerLib.Works.step2Size (works : lib.Works) : igPairingStep2Size lib.pairing = 103 := by
  have size : (List.replicate igKeyExchangePublicLength (0 : UInt8)).length = igKeyExchangePublicLength :=
    List.length_replicate
  have nonce : (#v[0, 0, 0, 0, 0, 0, 0, 0, 0, 0, 0, 1] : Nonce).toList = List.replicate 11 0 ++ [1] := rfl
  have encodes := step2_encodes works.generated size #v[0, 0, 0, 0, 0, 0, 0, 0, 0, 0, 0, 1] (Nat.le_refl 103) (by decide)
  rw [nonce] at encodes
  exact encodes.1

theorem flagsRead_iff {write : ClientWrite} {server pairing : PairingServer} {step1 step2 : List UInt8}
    (replied : serverGenPairingStep2 lib.pairing write.time write.entropy server step1 (igPairingStep2Size lib.pairing) =
      (pairing, .ok step2)) : FlagsRead lib write ↔ step2BytesValid lib step2 = true := by
  obtain ⟨publicKey, privateKey, secret, made, encoded, _, rfl⟩ := serverGenPairingStep2_ok replied
  constructor
  · intro flags
    exact flags publicKey privateKey step2 made encoded
  · intro valid publicKey' privateKey' step2' made' encoded'
    obtain ⟨rfl, rfl⟩ := Prod.mk.inj (Option.some.inj (made.symm.trans made'))
    rwa [← Option.some.inj (encoded.symm.trans encoded')]

theorem step1_made (works : lib.Works) {client : PairingClient} {step1 : List UInt8}
    (key : KeyPair lib.pairing client.publicKey_ client.privateKey_)
    (made : genPairingStep1Native lib.pairing client = some step1) : step1.length = 70 ∧
    client.publicKey_.length = igKeyExchangePublicLength ∧
    lib.pairing.step1.decode step1 = (false, ⟨some client.publicKey_⟩) := by
  obtain ⟨entropy, keys⟩ := key
  have size := works.sized.publicKey _ _ _ keys
  have filled : client.publicKey_ ≠ [] := List.ne_nil_of_length_eq_add_one size
  simp only [genPairingStep1Native, setBytes_some filled] at made
  exact ⟨step1_length works.generated size made, size, step1_returns works.generated size made⟩

theorem step1_served (works : lib.Works) (unmatched : SlotUnmatched leftover)
    (table : log.server.fsm.fsmTransTable = (initPairingFsm leftover).fsmTransTable)
    (now : log.server.fsm.curState = PairingStatus.begin.code)
    (expects : log.server.chr.recvPairingData.Expects 70) (opening : Opening lib) : ∃ log',
    Runs.run (recordWrite lib) log opening.writes = some log' ∧
      (¬FlagsRead lib opening.last → log'.replies = log.replies) ∧
      (FlagsRead lib opening.last → ∃ step2, log.Sends log' .sReplyStep2 opening.step1 step2 ∧
        Meets lib leftover PairingStatus.step2.code log' opening.client (.step2 step2) ∧
        igPairingStep4Size lib.pairing log'.server.pairing = igPairingStep4Size lib.pairing log.server.pairing) := by
  obtain ⟨length, size, decoded⟩ := step1_made works opening.key opening.made
  rw [← length] at expects
  obtain ⟨recv, written, before, whole, rfl, ran⟩ :=
    @run_delivers lib log _ _ _ expects (by omega) opening.delivers opening.ends
  have begins : (log.buffer recv written).server.fsm.curState = PairingStatus.begin.code := now
  rw [begin_event begins] at ran
  obtain ⟨⟨publicKey, privateKey⟩, made⟩ := Option.isSome_iff_exists.mp opening.keyed
  obtain ⟨secret, shared⟩ := works.shared _ _ _ _ opening.key ⟨_, made⟩
  obtain ⟨pairing, step2, replied⟩ := serverGenPairingStep2_succeeds works.generated works.sized opening.last.time
    log.server.pairing decoded size made shared (Nat.le_refl 103) (by decide)
  have consistent : PairingHandshake.Consistent lib.pairing
      ⟨opening.client, log.server.pairing, .step1 opening.step1, .fresh, .fresh, none⟩ := ⟨opening.key, decoded⟩
  have stepped : PairingHandshake.next lib.pairing
      ⟨opening.client, log.server.pairing, .step1 opening.step1, .fresh, .fresh, none⟩
        (.genStep2 opening.last.time opening.last.entropy 103) =
      some ⟨opening.client, pairing, .step2 step2, .fresh, .fresh, none⟩ := by
    simp only [PairingHandshake.next, replied]
  have consistent' := genStep2_consistent works.generated works.sized consistent stepped
  rw [← works.step2Size] at replied
  have flags := flagsRead_iff replied
  rw [works.step2Size] at replied
  by_cases valid : step2BytesValid lib step2 = true
  · obtain ⟨payload, built, acts⟩ := @handleReplyStep2_valid lib opening.last
      ((log.buffer recv written).server.withEvent .sReplyStep2).toServerData _ _ _ _ whole works.step2Size (by decide)
      replied valid
    obtain ⟨log', done, data, table', moved, record⟩ := @recordEvent_returns lib
      ((log.buffer recv written).withServer ((log.buffer recv written).server.withEvent .cWriteStep1)) leftover opening.last
      unmatched _ _ _ _ _ _ _ _ _ table begins first_row rfl rfl second_row acts
    refine ⟨log', ran.trans done, fun unset => absurd (flags.mpr valid) unset, ?_⟩
    intro _
    refine ⟨step2, ⟨⟨written, ?_⟩, opening.last.heap, ?_⟩, ⟨table', moved, ?_, ?_⟩, ?_⟩
    · have frame : ((log.buffer recv written).withServer
          ((log.buffer recv written).server.withEvent .cWriteStep1)).server.frame = opening.step1 := by
        show (getPkgFromRecvData recv).getD [] = opening.step1
        rw [whole, Option.getD_some]
      rw [record.replies, if_pos ⟨rfl, rfl⟩]
      show log.replies ++ [⟨.sReplyStep2, WifiServer.frame _, written⟩] = _
      rw [frame]
    · rw [data]
      exact built
    · rw [data]
      exact (resetRecvData_shape _).symm
    · rw [data]
      exact consistent'
    · obtain ⟨_, _, _, _, _, _, rfl⟩ := serverGenPairingStep2_ok replied
      rw [data]
      rfl
  · have acts := @handleReplyStep2_invalid lib opening.last
      ((log.buffer recv written).server.withEvent .sReplyStep2).toServerData _ _ _ _ whole works.step2Size (by decide)
      replied (Bool.eq_false_iff.mpr valid)
    obtain ⟨log', done, _, _, _, record⟩ := @recordEvent_returns lib
      ((log.buffer recv written).withServer ((log.buffer recv written).server.withEvent .cWriteStep1)) leftover opening.last
      unmatched _ _ _ _ _ _ _ _ _ table begins first_row rfl rfl second_row acts
    refine ⟨log', ran.trans done, ?_, fun set => absurd (flags.mp set) valid⟩
    intro _
    rw [record.replies, if_neg (fun sent => absurd sent.1 (by decide)), List.append_nil]
    rfl

theorem step4_room (works : lib.Works) : 74 ≤ igPairingStep4Size lib.pairing .zero := by
  obtain ⟨garbage, real⟩ := works.generated.step4
  rw [igPairingStep4Size, real, payload_size garbage (by decide)]
  decide

theorem commit_served (works : lib.Works) (unmatched : SlotUnmatched leftover) {step4 : PairingStep4}
    (meets : Meets lib leftover PairingStatus.step4.code log client (.received step4)) : ServesCommit lib log client := by
  intro currentTime
  obtain ⟨client', commit, made⟩ := genPairingCommit_succeeds works.generated currentTime client
  refine ⟨client', commit, made, ?_⟩
  intro writes delivers connected
  have stepped : PairingHandshake.next lib.pairing
      ⟨client, log.server.pairing, .received step4, .fresh, .fresh, none⟩ (.genCommit currentTime) =
      some ⟨client', log.server.pairing, .commit step4 currentTime commit, NonceUse.fresh.make client.txNonce_, .fresh,
        none⟩ := by
    simp only [PairingHandshake.next, made]
  obtain ⟨_, _, _, _, carries⟩ := genCommit_consistent works.generated meets.consistent stepped
  obtain ⟨last, inside, ends⟩ := delivers.last carries.framed
  obtain ⟨connects, sends⟩ := connected last inside
  obtain ⟨recv, written, before, whole, rfl, ran⟩ := @run_delivers lib log _ _ _ (.inl meets.empty) carries.framed delivers ends
  have now : (log.buffer recv written).server.fsm.curState = PairingStatus.step4.code := meets.now
  rw [step4_event now] at ran
  obtain ⟨log', done, data, _, moved, _⟩ := @recordEvent_returns lib
    ((log.buffer recv written).withServer ⟨((log.buffer recv written).server.withEvent .cWriteCommit).log
      (.commit (log.buffer recv written).server.frame (log.buffer recv written).server.pairing),
      (log.buffer recv written).server.fsm⟩) leftover last unmatched _ _ _ _ _ _ _ _ _ meets.table now fifth_row rfl rfl
    last_row (congrArg some (handlePairingComplete_completes works connects sends))
  refine ⟨log', ran.trans done, moved, makeCrypt log.server.pairing, ?_⟩
  rw [data]
  exact List.mem_append_right _ (List.mem_singleton_self _)

theorem step3_served (works : lib.Works) (unmatched : SlotUnmatched leftover) {step2 : List UInt8}
    (meets : Meets lib leftover PairingStatus.step2.code log client (.step2 step2))
    (room : 74 ≤ igPairingStep4Size lib.pairing log.server.pairing) : ∃ client' step3,
    genPairingStep3Native lib.pairing client step2 = (client', some step3) ∧ ServesStep3 lib log client' step3 := by
  obtain ⟨⟨entropy, keys⟩, ⟨entropy', keys'⟩, ⟨secret, shared, _⟩, decoded, filled⟩ := meets.consistent
  rw [works.agrees _ _ _ _ _ _ keys keys'] at shared
  obtain ⟨client', step3, made⟩ : ∃ client' step3,
      genPairingStep3Native lib.pairing client step2 = (client', some step3) :=
    genPairingStep3_succeeds works.generated filled decoded (works.sized.publicKey _ _ _ keys') shared
  refine ⟨client', step3, made, ?_⟩
  intro writes delivers
  have stepped : PairingHandshake.next lib.pairing
      ⟨client, log.server.pairing, .step2 step2, .fresh, .fresh, none⟩ .genStep3 =
      some ⟨client', log.server.pairing, .step3 step3, NonceUse.fresh.make (client.acceptStep2 lib.pairing step2).1.txNonce_,
        .fresh, none⟩ := by
    simp only [PairingHandshake.next, made]
  have consistent := genStep3_consistent works.generated works.agrees meets.consistent stepped
  change PairingHandshake.Consistent lib.pairing
    ⟨client', log.server.pairing, .step3 step3, .fresh, .fresh, none⟩ at consistent
  have carries : Carries lib.pairing.ccm lib.pairing.step3 log.server.pairing.serverPairingAdminKey
      log.server.pairing.serverNonce step3 { nonce := some client'.rxNonce_.toList } := consistent.2.2
  obtain ⟨plain, opened, read⟩ := carried works.inverts carries
  obtain ⟨last, _, ends⟩ := delivers.last carries.framed
  obtain ⟨recv, written, before, whole, rfl, ran⟩ := @run_delivers lib log _ _ _ (.inl meets.empty) carries.framed delivers ends
  have now : (log.buffer recv written).server.fsm.curState = PairingStatus.step2.code := meets.now
  rw [step2_event now] at ran
  obtain ⟨pairing, step4, replied⟩ := igPairingStep4_succeeds works.generated works.sized last.times opened
    (congrArg Prod.snd read) room
  have stepped' : PairingHandshake.next lib.pairing
      ⟨client', log.server.pairing, .step3 step3, .fresh, .fresh, none⟩
        (.replyStep4 last.times (igPairingStep4Size lib.pairing log.server.pairing)) =
      some ⟨client', pairing, .step4 step4, NonceUse.fresh.check log.server.pairing.serverNonce,
        NonceUse.fresh.make pairing.clientNonce, none⟩ := by
    simp only [PairingHandshake.next, replied, Option.map_some]
  have consistent' := replyStep4_consistent works.generated works.sized works.inverts consistent stepped'
  have taken := recPairingStep4_takes works.inverts consistent' rfl
  have received := recStep4_consistent works.inverts consistent' (recStep4_next works.inverts consistent' rfl)
  let asked := (log.buffer recv written).withServer ⟨((log.buffer recv written).server.withEvent .cWriteStep3).log
    (.step3 (log.buffer recv written).server.frame (log.buffer recv written).server.pairing),
    (log.buffer recv written).server.fsm⟩
  obtain ⟨payload, built, acts⟩ := @handleReplyStep4_answers lib last (asked.server.withEvent .sReplyStep4).toServerData
    _ _ _ _ whole replied
  obtain ⟨log', done, data, table, moved, record⟩ := @recordEvent_returns lib asked leftover last unmatched _ _ _ _ _ _ _ _ _
    meets.table now third_row rfl rfl fourth_row acts
  have frame : asked.server.frame = step3 := by
    show (getPkgFromRecvData recv).getD [] = step3
    rw [whole, Option.getD_some]
  refine ⟨log', step4, _, _, ran.trans done, ⟨⟨written, ?_⟩, last.heap, ?_⟩, taken, ?_⟩
  · rw [record.replies, if_pos ⟨rfl, rfl⟩]
    show log.replies ++ [⟨.sReplyStep4, asked.server.frame, written⟩] = _
    rw [frame]
  · rw [data]
    exact built
  · apply commit_served works unmatched
    refine ⟨table, moved, ?_, ?_⟩
    · rw [data]
      exact (resetRecvData_shape _).symm
    · rw [data]
      exact received

end Serving

end Bridge
