import Bridge.WifiService.Authentic
import Bridge.WifiService.Calls

namespace Bridge

open Cbor

/-- The pairing result is what the client has seen. -/
structure PairingAgreement (client : PairingClient) (step4 : PairingStep4) (currentTime : Int)
    (result : IgPairingResult) : Prop where
  adminKey : getAdminKeyNative client = result.adminKey.toList
  pinKey : step4.pinKey = some result.pinKey
  password : step4.password = some result.password
  masterPin : step4.masterPin = some result.masterPin
  masterPinLength : result.masterPin.length = result.masterPinLength
  gmtOffset : step4.gmtOffset = some result.gmtOffset
  currentTime : result.currentTime = (currentTime % 2 ^ 32).toNat

variable (lib : PairingLib)

def KeyPair (publicKey privateKey : List UInt8) : Prop :=
  ∃ entropy, lib.makeKey entropy = some (publicKey, privateKey)

/-- What client and server have in common at each point of a handshake. -/
def PairingHandshake.Consistent (h : PairingHandshake) : Prop :=
  match h.progress with
  | .idle => True
  | .begun => KeyPair lib h.client.publicKey_ h.client.privateKey_
  | .step1 bytes => KeyPair lib h.client.publicKey_ h.client.privateKey_ ∧
    lib.step1.decode bytes = (false, ⟨some h.client.publicKey_⟩)
  | .step2 bytes => KeyPair lib h.client.publicKey_ h.client.privateKey_ ∧
    KeyPair lib h.server.serverPairingPublicKey h.server.serverPairingPrivateKey ∧
    (∃ secret, lib.sharedSecret h.client.publicKey_ h.server.serverPairingPrivateKey = some secret ∧
      h.server.serverPairingAdminKey = copyKey secret) ∧
    lib.step2.decode bytes = (false, ⟨some h.server.serverPairingPublicKey, some h.server.serverNonce.toList⟩) ∧
    bytes ≠ []
  | .step3 bytes => h.client.sharedKey_ = h.server.serverPairingAdminKey ∧
    h.client.txNonce_ = incrementNonce h.server.serverNonce ∧
    Carries lib.ccm lib.step3 h.server.serverPairingAdminKey h.server.serverNonce bytes
      { nonce := some h.client.rxNonce_.toList }
  | .step4 bytes => h.client.sharedKey_ = h.server.serverPairingAdminKey ∧
    h.client.txNonce_ = h.server.serverNonce ∧ h.client.rxNonce_ = h.server.clientNonce ∧ h.server.Settled ∧
    Carries lib.ccm lib.step4 h.server.serverPairingAdminKey h.server.clientNonce bytes (setIgStep4 h.server)
  | .received step4 => h.client.sharedKey_ = h.server.serverPairingAdminKey ∧
    h.client.txNonce_ = h.server.serverNonce ∧ h.server.Settled ∧ step4 = setIgStep4 h.server
  | .commit step4 currentTime bytes => h.client.sharedKey_ = h.server.serverPairingAdminKey ∧
    h.client.txNonce_ = incrementNonce h.server.serverNonce ∧ h.server.Settled ∧ step4 = setIgStep4 h.server ∧
    Carries lib.ccm lib.commit h.server.serverPairingAdminKey h.server.serverNonce bytes
      ⟨some (currentTime % 2 ^ 32).toNat⟩
  | .committed step4 currentTime result => PairingAgreement h.client step4 currentTime result

/-- Two key pairs that were made share one secret, where both sides come to one. -/
def PairingLib.SecretsAgree (lib : PairingLib) : Prop :=
  ∀ entropy entropy' publicKey privateKey publicKey' privateKey' secret secret',
    lib.makeKey entropy = some (publicKey, privateKey) → lib.makeKey entropy' = some (publicKey', privateKey') →
      lib.sharedSecret publicKey privateKey' = some secret → lib.sharedSecret publicKey' privateKey = some secret' →
        secret = secret'

variable {lib} in
theorem PairingLib.EcdhAgrees.secretsAgree (agrees : lib.EcdhAgrees) : lib.SecretsAgree := by
  intro entropy entropy' publicKey privateKey publicKey' privateKey' secret secret' made made' shared shared'
  rw [agrees _ _ _ _ _ _ made made', shared'] at shared
  exact (Option.some.inj shared).symm

section Steps

variable {lib : PairingLib} (generated : lib.Generated) (sized : lib.Sized) {h h' : PairingHandshake}

theorem begin_consistent {time : Int} {entropy : Nat} (done : h.next lib (.begin time entropy) = some h') :
    h'.Consistent lib := by
  simp only [PairingHandshake.next, PairingClient.beginConnection] at done
  cases made : lib.makeKey entropy with
  | none =>
    simp only [made] at done
    cases done
    trivial
  | some keys =>
    simp only [made] at done
    cases done
    exact ⟨entropy, made⟩

theorem recPairingStep4_takes (inverts : lib.ccm.Inverts) (inv : h.Consistent lib) {bytes : List UInt8}
    (now : h.progress = .step4 bytes) : recPairingStep4Native lib.ccm lib.step4 h.client bytes =
      some ({ h.client with rxNonce_ := incrementNonce h.client.rxNonce_ }, some (setIgStep4 h.server)) := by
  rw [PairingHandshake.Consistent, now] at inv
  obtain ⟨key, tx, rx, settled, carries⟩ := inv
  obtain ⟨plain, opened, decoded⟩ := carried inverts carries
  rw [← key, ← rx] at opened
  simp only [recPairingStep4Native, opened, decoded, settled.step4_eq, PairingStep4.isValid, Option.isSome_some]
  rfl

theorem recStep4_next (inverts : lib.ccm.Inverts) (inv : h.Consistent lib) {bytes : List UInt8}
    (now : h.progress = .step4 bytes) : h.next lib .recStep4 = some { h with
      client := { h.client with rxNonce_ := incrementNonce h.client.rxNonce_ }
      progress := .received (setIgStep4 h.server)
      toClient := h.toClient.check h.client.rxNonce_ } := by
  simp only [PairingHandshake.next, now, recPairingStep4_takes inverts inv now, Option.map_some]

theorem recStep4_consistent (inverts : lib.ccm.Inverts) (inv : h.Consistent lib)
    (done : h.next lib .recStep4 = some h') : h'.Consistent lib := by
  cases PairingHandshake.next_moved done with
  | failed => trivial
  | recStep4 now called =>
    rw [recPairingStep4_takes inverts inv now] at called
    cases called
    rw [PairingHandshake.Consistent, now] at inv
    obtain ⟨key, tx, _, settled, _⟩ := inv
    exact ⟨key, tx, settled, rfl⟩

theorem commitPairing_consistent (inverts : lib.ccm.Inverts) (inv : h.Consistent lib)
    (done : h.next lib .commitPairing = some h') : h'.Consistent lib := by
  cases PairingHandshake.next_moved done with
  | failed => trivial
  | commitPairing now called =>
    rw [PairingHandshake.Consistent, now] at inv
    obtain ⟨key, tx, settled, same, carries⟩ := inv
    obtain ⟨plain, opened, decoded⟩ := carried inverts carries
    obtain ⟨plain', time, opened', sent, rfl, rfl⟩ := igCommitPairing_ok called
    rw [decryptClientData_eq, opened] at opened'
    cases opened'
    rw [decoded] at sent
    cases sent
    rw [settled.step4_eq] at same
    subst same
    exact ⟨congrArg Vector.toList key, rfl, rfl, rfl, settled.masterPin_length,
      congrArg some settled.gmtOffset.symm, rfl⟩

theorem step3_used (inv : h.Consistent lib) {bytes step3 : List UInt8} {client : PairingClient}
    (now : h.progress = .step2 bytes) (called : genPairingStep3Native lib h.client bytes = (client, some step3)) :
    (h.client.acceptStep2 lib bytes).1.txNonce_ = h.server.serverNonce := by
  rw [PairingHandshake.Consistent, now] at inv
  obtain ⟨_, _, _, decoded, _⟩ := inv
  obtain ⟨accepted, _, step2, _⟩ := genPairingStep3_ok called
  obtain ⟨_, _, rfl⟩ := acceptStep2_ok step2
  rw [step2, decoded]
  exact copyNonce_toList h.server.serverNonce

include generated

theorem genStep3_consistent_of (agree : lib.SecretsAgree) (inv : h.Consistent lib)
    (done : h.next lib .genStep3 = some h') : h'.Consistent lib := by
  cases PairingHandshake.next_moved done with
  | failed => trivial
  | genStep3 now called =>
    rw [PairingHandshake.Consistent, now] at inv
    obtain ⟨⟨entropy, keys⟩, ⟨entropy', keys'⟩, ⟨secret, shared, key⟩, decoded, _⟩ := inv
    obtain ⟨accepted, plain, step2, encoded, rfl, rfl⟩ := genPairingStep3_ok called
    obtain ⟨secret', shared', rfl⟩ := acceptStep2_ok step2
    simp only [decoded, Option.getD_some, copyNonce_toList] at shared' encoded ⊢
    rw [setBytes_some (nonce_filled _)] at encoded
    have same := agree _ _ _ _ _ _ _ _ keys keys' shared shared'
    obtain ⟨returned, short⟩ := step3_returns generated encoded
    rw [← same, ← key]
    exact ⟨rfl, rfl, plain, rfl, short, returned⟩

theorem genStep3_consistent (agrees : lib.EcdhAgrees) (inv : h.Consistent lib)
    (done : h.next lib .genStep3 = some h') : h'.Consistent lib :=
  genStep3_consistent_of generated agrees.secretsAgree inv done

theorem genCommit_consistent {currentTime : Int} (inv : h.Consistent lib)
    (done : h.next lib (.genCommit currentTime) = some h') : h'.Consistent lib := by
  cases PairingHandshake.next_moved done with
  | failed => trivial
  | genCommit now called =>
    rw [PairingHandshake.Consistent, now] at inv
    obtain ⟨key, tx, settled, same⟩ := inv
    obtain ⟨plain, encoded, rfl, rfl⟩ := seal_some called
    obtain ⟨returned, short⟩ := commit_returns generated encoded
    refine ⟨key, ?_, settled, same, plain, ?_, short, returned⟩
    · simp only [tx]
    · rw [key, tx]

include sized

theorem genStep1_consistent (inv : h.Consistent lib) (done : h.next lib .genStep1 = some h') : h'.Consistent lib := by
  cases PairingHandshake.next_moved done with
  | failed => trivial
  | genStep1 now called =>
    rw [PairingHandshake.Consistent, now] at inv
    obtain ⟨entropy, made⟩ := inv
    have size := sized.publicKey _ _ _ made
    have filled : h.client.publicKey_ ≠ [] := List.ne_nil_of_length_eq_add_one size
    rw [genPairingStep1Native, setBytes_some filled] at called
    exact ⟨⟨entropy, made⟩, step1_returns generated size called⟩

theorem genStep2_consistent {time : Int} {entropy step2Len : Nat} (inv : h.Consistent lib)
    (done : h.next lib (.genStep2 time entropy step2Len) = some h') : h'.Consistent lib := by
  cases PairingHandshake.next_moved done with
  | failed => trivial
  | genStep2 now called =>
    rw [PairingHandshake.Consistent, now] at inv
    obtain ⟨keys, decoded⟩ := inv
    obtain ⟨publicKey, privateKey, secret, made, encoded, shared, rfl⟩ := serverGenPairingStep2_ok called
    have size := sized.publicKey _ _ _ made
    have filled : publicKey ≠ [] := List.ne_nil_of_length_eq_add_one size
    rw [setBytes_some filled, setBytes_some (nonce_filled _)] at encoded
    rw [decoded] at shared
    exact ⟨keys, ⟨entropy, made⟩, ⟨secret, shared, rfl⟩, step2_returns generated size encoded⟩

theorem replyStep4_consistent (inverts : lib.ccm.Inverts) {times : SetterTimes} {len : Nat} (inv : h.Consistent lib)
    (done : h.next lib (.replyStep4 times len) = some h') : h'.Consistent lib := by
  cases PairingHandshake.next_moved done with
  | failed => trivial
  | replyStep4 now called =>
    rw [PairingHandshake.Consistent, now] at inv
    obtain ⟨key, tx, carries⟩ := inv
    obtain ⟨plain, opened, decoded⟩ := carried inverts carries
    have size : h.client.rxNonce_.toList.length = kNonceLength := h.client.rxNonce_.length_toList
    obtain ⟨rfl, step4, encoded, rfl⟩ := igPairingStep4_ok opened (congrArg Prod.snd decoded) size called
    have settled := settle_settled sized times h.client.rxNonce_.toList (incrementServerNonce h.server)
    have filled := settled.masterPin_filled
    have most := settled.most
    rw [settled.step4_eq] at encoded
    have size := settled.masterPin_length
    have limit : igMasterPinMaxLength = 10 := rfl
    obtain ⟨returned, short⟩ := step4_returns generated settled.pinKey settled.password filled (by omega) (by decide) encoded
    refine ⟨key, tx, ?_, settled, step4, rfl, by omega, ?_⟩
    · exact (copyNonce_toList h.client.rxNonce_).symm
    · rw [settled.step4_eq]
      exact returned

theorem next_consistent_of (agree : lib.SecretsAgree) (inverts : lib.ccm.Inverts) {move : PairingMove}
    (inv : h.Consistent lib) (done : h.next lib move = some h') : h'.Consistent lib := by
  cases move with
  | begin time entropy => exact begin_consistent done
  | genStep1 => exact genStep1_consistent generated sized inv done
  | genStep2 time entropy step2Len => exact genStep2_consistent generated sized inv done
  | genStep3 => exact genStep3_consistent_of generated agree inv done
  | replyStep4 times len => exact replyStep4_consistent generated sized inverts inv done
  | recStep4 => exact recStep4_consistent inverts inv done
  | genCommit currentTime => exact genCommit_consistent generated inv done
  | commitPairing => exact commitPairing_consistent inverts inv done
  | handOver =>
    cases PairingHandshake.next_moved done with
    | failed => trivial
    | handOver now => exact inv

theorem next_consistent (agrees : lib.EcdhAgrees) (inverts : lib.ccm.Inverts) {move : PairingMove}
    (inv : h.Consistent lib) (done : h.next lib move = some h') : h'.Consistent lib :=
  next_consistent_of generated sized agrees.secretsAgree inverts inv done

end Steps

/-- In every run of client and server over one another's messages, a pairing that is committed has the
    result that the client knows. -/
theorem pairing_agreement (generated : lib.Generated) (sized : lib.Sized) (agrees : lib.EcdhAgrees)
    (inverts : lib.ccm.Inverts) (client : PairingClient) (server : PairingServer) (moves : List PairingMove)
    (h : PairingHandshake) (reached : Runs.run (PairingHandshake.next lib) (.start client server) moves = some h)
    (step4 : PairingStep4) (currentTime : Int) (result : IgPairingResult)
    (committed : h.progress = .committed step4 currentTime result) :
    PairingAgreement h.client step4 currentTime result := by
  have start : (PairingHandshake.start client server).Consistent lib := trivial
  have inv : h.Consistent lib :=
    Runs.run_preserves (PairingHandshake.next lib)
      (fun h move h' inv done => next_consistent generated sized agrees inverts inv done) start reached
  rw [PairingHandshake.Consistent, committed] at inv
  exact inv

section Completes

variable {lib : PairingLib} (generated : lib.Generated) (sized : lib.Sized) {h : PairingHandshake}

theorem commitPairing_next (inverts : lib.ccm.Inverts) (inv : h.Consistent lib) {step4 : PairingStep4}
    {currentTime : Int} {bytes : List UInt8} (now : h.progress = .commit step4 currentTime bytes) :
    ∃ h' result, h.next lib .commitPairing = some h' ∧ h'.progress = .committed step4 currentTime result := by
  obtain ⟨client, server, progress, toServer, toClient, crypt⟩ := h
  cases now
  obtain ⟨key, tx, settled, same, carries⟩ := inv
  obtain ⟨plain, opened, decoded⟩ := carried inverts carries
  simp only [PairingHandshake.next, igCommitPairing, decryptClientData_eq, opened, decoded]
  exact ⟨_, _, rfl, rfl⟩

include generated

theorem genStep3_next (agrees : lib.EcdhAgrees) (sized : lib.Sized) (inv : h.Consistent lib) {bytes : List UInt8}
    (now : h.progress = .step2 bytes) : ∃ h' step3, h.next lib .genStep3 = some h' ∧ h'.progress = .step3 step3 := by
  obtain ⟨client, server, progress, toServer, toClient, crypt⟩ := h
  cases now
  obtain ⟨⟨entropy, keys⟩, ⟨entropy', keys'⟩, ⟨secret, shared, key⟩, decoded, filled⟩ := inv
  rw [agrees _ _ _ _ _ _ keys keys'] at shared
  have size := sized.publicKey _ _ _ keys'
  obtain ⟨client', step3, made⟩ := genPairingStep3_succeeds generated filled decoded size shared
  simp only [PairingHandshake.next, made]
  exact ⟨_, _, rfl, rfl⟩

theorem genCommit_next (currentTime : Int) {step4 : PairingStep4} (now : h.progress = .received step4) :
    ∃ h' bytes, h.next lib (.genCommit currentTime) = some h' ∧ h'.progress = .commit step4 currentTime bytes := by
  obtain ⟨client', bytes, made⟩ := genPairingCommit_succeeds generated currentTime h.client
  simp only [PairingHandshake.next, now, made]
  exact ⟨_, _, rfl, rfl⟩

include sized

theorem genStep1_next (inv : h.Consistent lib) (now : h.progress = .begun) :
    ∃ h' bytes, h.next lib .genStep1 = some h' ∧ h'.progress = .step1 bytes := by
  rw [PairingHandshake.Consistent, now] at inv
  obtain ⟨entropy, made⟩ := inv
  obtain ⟨bytes, sent, _⟩ := genPairingStep1_succeeds generated (sized.publicKey _ _ _ made)
  simp only [PairingHandshake.next, now, sent]
  exact ⟨_, _, rfl, rfl⟩

theorem genStep2_next (total : ∀ publicKey privateKey publicKey' privateKey', KeyPair lib publicKey privateKey →
      KeyPair lib publicKey' privateKey' → ∃ secret, lib.sharedSecret publicKey privateKey' = some secret)
    (inv : h.Consistent lib) (time : Int) {entropy step2Len : Nat} (made : (lib.makeKey entropy).isSome = true)
    (room : 103 ≤ step2Len) (narrow : step2Len < 2 ^ 32) {bytes : List UInt8} (now : h.progress = .step1 bytes) :
    ∃ h' step2, h.next lib (.genStep2 time entropy step2Len) = some h' ∧ h'.progress = .step2 step2 := by
  rw [PairingHandshake.Consistent, now] at inv
  obtain ⟨⟨entropy', keys⟩, decoded⟩ := inv
  obtain ⟨⟨publicKey, privateKey⟩, made⟩ := Option.isSome_iff_exists.mp made
  obtain ⟨secret, shared⟩ := total _ _ _ _ ⟨entropy', keys⟩ ⟨entropy, made⟩
  obtain ⟨server', step2, replied⟩ := serverGenPairingStep2_succeeds generated sized time h.server decoded
    (sized.publicKey _ _ _ keys) made shared room narrow
  simp only [PairingHandshake.next, now, replied]
  exact ⟨_, _, rfl, rfl⟩

theorem replyStep4_next (inverts : lib.ccm.Inverts) (inv : h.Consistent lib) (times : SetterTimes) {len : Nat} (room : 74 ≤ len)
    {bytes : List UInt8} (now : h.progress = .step3 bytes) :
    ∃ h' step4, h.next lib (.replyStep4 times len) = some h' ∧ h'.progress = .step4 step4 := by
  rw [PairingHandshake.Consistent, now] at inv
  obtain ⟨_, _, carries⟩ := inv
  obtain ⟨plain, opened, decoded⟩ := carried inverts carries
  obtain ⟨server', step4, replied⟩ := igPairingStep4_succeeds generated sized times opened (congrArg Prod.snd decoded) room
  simp only [PairingHandshake.next, now, replied, Option.map_some]
  exact ⟨_, _, rfl, rfl⟩

theorem handshake_completes (agrees : lib.EcdhAgrees) (inverts : lib.ccm.Inverts)
    (total : ∀ publicKey privateKey publicKey' privateKey', KeyPair lib publicKey privateKey →
      KeyPair lib publicKey' privateKey' → ∃ secret, lib.sharedSecret publicKey privateKey' = some secret)
    (client : PairingClient) (server : PairingServer) (time time' : Int) (times : SetterTimes) (currentTime : Int) (entropy entropy' : Nat)
    (made : (lib.makeKey entropy).isSome = true) (made' : (lib.makeKey entropy').isSome = true) {step2Len len : Nat}
    (room : 103 ≤ step2Len) (narrow : step2Len < 2 ^ 32) (room' : 74 ≤ len) : ∃ h step4 result,
    Runs.run (PairingHandshake.next lib) (.start client server) [.begin time entropy, .genStep1,
      .genStep2 time' entropy' step2Len, .genStep3, .replyStep4 times len, .recStep4, .genCommit currentTime,
      .commitPairing] = some h ∧ h.progress = .committed step4 currentTime result := by
  obtain ⟨keys, made⟩ := Option.isSome_iff_exists.mp made
  have kept : ∀ {h h' : PairingHandshake} {move : PairingMove}, h.Consistent lib → h.next lib move = some h' →
      h'.Consistent lib := fun inv done => next_consistent generated sized agrees inverts inv done
  obtain ⟨h₁, begun, now⟩ : ∃ h', (PairingHandshake.start client server).next lib (.begin time entropy) = some h' ∧
      h'.progress = .begun := by
    simp only [PairingHandshake.next, PairingClient.beginConnection, made]
    exact ⟨_, rfl, rfl⟩
  have inv₀ : (PairingHandshake.start client server).Consistent lib := trivial
  have inv₁ := kept inv₀ begun
  obtain ⟨h₂, _, first, now⟩ := genStep1_next generated sized inv₁ now
  have inv₂ := kept inv₁ first
  obtain ⟨h₃, _, second, now⟩ := genStep2_next generated sized total inv₂ time' made' room narrow now
  have inv₃ := kept inv₂ second
  obtain ⟨h₄, _, third, now⟩ := genStep3_next generated agrees sized inv₃ now
  have inv₄ := kept inv₃ third
  obtain ⟨h₅, _, fourth, now⟩ := replyStep4_next generated sized inverts inv₄ times room' now
  have inv₅ := kept inv₄ fourth
  have received := recStep4_next inverts inv₅ now
  have inv₆ := kept inv₅ received
  obtain ⟨h₇, _, sent, now⟩ := genCommit_next generated currentTime
    (h := { h₅ with
      client := { h₅.client with rxNonce_ := incrementNonce h₅.client.rxNonce_ }
      progress := .received (setIgStep4 h₅.server)
      toClient := h₅.toClient.check h₅.client.rxNonce_ }) rfl
  have inv₇ := kept inv₆ sent
  obtain ⟨h₈, result, committed, now⟩ := commitPairing_next inverts inv₇ now
  refine ⟨h₈, _, result, ?_, now⟩
  simp only [Runs.run, begun, first, second, third, fourth, received, sent, committed, Option.bind_some]

end Completes

theorem samplePairing_generated : samplePairing.Generated :=
  ⟨⟨_, rfl⟩, ⟨_, rfl⟩, ⟨_, rfl⟩, ⟨_, rfl⟩, ⟨_, rfl⟩⟩

theorem samplePairing_sized : samplePairing.Sized where
  publicKey := by
    rintro entropy publicKey privateKey ⟨⟩
    rfl
  hmacDrbg := sha1Drbg_length

theorem samplePairing_agrees : samplePairing.EcdhAgrees := by
  rintro entropy entropy' publicKey privateKey publicKey' privateKey' ⟨⟩ ⟨⟩
  rfl

def sampleClient : PairingClient := ⟨[], [], [], zeroNonce, zeroNonce, Vector.replicate 16 0⟩

theorem samplePairing_total : ∀ publicKey privateKey publicKey' privateKey',
    KeyPair samplePairing publicKey privateKey → KeyPair samplePairing publicKey' privateKey' →
      ∃ secret, samplePairing.sharedSecret publicKey privateKey' = some secret := by
  rintro publicKey privateKey publicKey' privateKey' ⟨entropy, ⟨⟩⟩ ⟨entropy', ⟨⟩⟩
  exact ⟨_, rfl⟩

theorem sample_completes : ∃ h step4 result,
    Runs.run (PairingHandshake.next samplePairing) (.start sampleClient .zero) [.begin 0 0, .genStep1,
      .genStep2 0 0 200, .genStep3, .replyStep4 ⟨0, 0, 0⟩ 200, .recStep4, .genCommit 1600000000, .commitPairing] = some h ∧
    h.progress = .committed step4 1600000000 result :=
  handshake_completes samplePairing_generated samplePairing_sized samplePairing_agrees
    Cifra.aesCcm_inverts samplePairing_total sampleClient .zero 0 0 ⟨0, 0, 0⟩ 1600000000 0 0 rfl rfl (by decide)
    (by decide) (by decide)

theorem pairing_agreement_sample : ∃ h step4 result,
    Runs.run (PairingHandshake.next samplePairing) (.start sampleClient .zero) [.begin 0 0, .genStep1,
      .genStep2 0 0 200, .genStep3, .replyStep4 ⟨0, 0, 0⟩ 200, .recStep4, .genCommit 1600000000, .commitPairing] = some h ∧
    h.progress = .committed step4 1600000000 result ∧ PairingAgreement h.client step4 1600000000 result := by
  obtain ⟨h, step4, result, reached, now⟩ := sample_completes
  exact ⟨h, step4, result, reached, now,
    pairing_agreement samplePairing samplePairing_generated samplePairing_sized
      samplePairing_agrees Cifra.aesCcm_inverts sampleClient .zero _ h reached step4 1600000000 result now⟩

end Bridge
