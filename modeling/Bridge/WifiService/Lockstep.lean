import Bridge.WifiService.Agreement

namespace Bridge

variable (lib : PairingLib)

def PairingProgress.settled : PairingProgress → Bool
  | .step4 _ | .received _ | .committed _ _ _ => true
  | .idle | .begun | .step1 _ | .step2 _ | .step3 _ | .commit _ _ _ => false

/-- Both sides have the same nonces between messages, each message is opened with the nonce that it
    was made under, no nonce comes twice, and what is handed over are the nonces the client goes on with. -/
structure PairingHandshake.Lockstep (h : PairingHandshake) : Prop where
  nonces : h.progress.settled = true →
    h.client.txNonce_ = h.server.serverNonce ∧ h.client.rxNonce_ = h.server.clientNonce
  toServer : h.toServer.checked <+: h.toServer.made
  toClient : h.toClient.checked <+: h.toClient.made
  once : h.toServer.made.Nodup ∧ h.toClient.made.Nodup
  handedOver : ∀ crypt, h.crypt = some crypt →
    crypt.serverNonce = h.client.txNonce_.toList ∧ crypt.clientNonce = h.client.rxNonce_.toList

/-- A handshake in which the client has not processed a step 4. -/
structure PairingHandshake.Early (h : PairingHandshake) : Prop where
  consistent : h.Consistent lib
  crypt : h.crypt = none
  toServer : h.toServer.checked <+: h.toServer.made ∧ h.toServer.made.Nodup
  toClient : h.toClient.checked <+: h.toClient.made ∧ h.toClient.made.Nodup
  uses : match h.progress with
    | .idle | .step4 _ => True
    | .begun | .step1 _ | .step2 _ => h.toServer = .fresh ∧ h.toClient = .fresh
    | .step3 _ => h.toServer = ⟨[h.server.serverNonce], []⟩ ∧ h.toClient = .fresh
    | .received _ | .commit _ _ _ | .committed _ _ _ => False

variable {lib} {h h' : PairingHandshake}

theorem fresh_use : NonceUse.fresh.checked <+: NonceUse.fresh.made ∧ NonceUse.fresh.made.Nodup :=
  ⟨List.prefix_rfl, List.nodup_nil⟩

theorem PairingHandshake.Early.lockstep (early : h.Early lib) : h.Lockstep := by
  refine ⟨?_, early.toServer.1, early.toClient.1, ⟨early.toServer.2, early.toClient.2⟩, ?_⟩
  · intro settled
    have consistent := early.consistent
    have uses := early.uses
    cases now : h.progress with
    | step4 bytes =>
      rw [PairingHandshake.Consistent, now] at consistent
      exact ⟨consistent.2.1, consistent.2.2.1⟩
    | received | committed =>
      rw [now] at uses
      exact uses.elim
    | idle | begun | step1 | step2 | step3 | commit =>
      rw [now] at settled
      cases settled
  · intro crypt handed
    rw [early.crypt] at handed
    cases handed

theorem recStep4_breaks (inverts : lib.ccm.Inverts) (early : h.Early lib)
    (done : h.next lib .recStep4 = some h') : ¬h'.Lockstep := by
  cases now : h.progress with
  | step4 bytes =>
    have consistent := early.consistent
    rw [recStep4_next inverts consistent now] at done
    cases done
    rw [PairingHandshake.Consistent, now] at consistent
    obtain ⟨_, _, rx, _, _⟩ := consistent
    intro lockstep
    have same := (lockstep.nonces rfl).2
    simp only [← rx] at same
    exact incrementNonce_ne h.client.rxNonce_ same
  | idle | begun | step1 | step2 | step3 | received | commit | committed =>
    simp only [PairingHandshake.next, now] at done
    cases done

section Keeps

variable (generated : lib.Generated) (sized : lib.Sized) (agrees : lib.EcdhAgrees) (inverts : lib.ccm.Inverts)

theorem PairingHandshake.Early.fail (early : h.Early lib) (server : PairingServer) (client : PairingClient) :
    ({ h.fail with client, server } : PairingHandshake).Early lib :=
  ⟨trivial, early.crypt, early.toServer, early.toClient, trivial⟩

theorem PairingHandshake.Early.begin {time : Int} {entropy : Nat} (done : h.next lib (.begin time entropy) = some h') :
    h'.Early lib := by
  have consistent := begin_consistent done
  simp only [PairingHandshake.next] at done
  cases begun : h.client.beginConnection lib time entropy with
  | mk client fine =>
    simp only [begun] at done
    cases done
    refine ⟨consistent, rfl, fresh_use, fresh_use, ?_⟩
    cases fine
    · trivial
    · exact ⟨rfl, rfl⟩

include generated sized agrees inverts

theorem PairingHandshake.Early.next {move : PairingMove} (early : h.Early lib) (before : move ≠ .recStep4)
    (done : h.next lib move = some h') : h'.Early lib := by
  have consistent := next_consistent generated sized agrees inverts early.consistent done
  have uses := early.uses
  cases PairingHandshake.next_moved done with
  | begin called => exact PairingHandshake.Early.begin done
  | failed client server due => exact early.fail server client
  | genStep1 now called | genStep2 now called =>
    rw [now] at uses
    exact ⟨consistent, early.crypt, early.toServer, early.toClient, uses⟩
  | genStep3 now called =>
    have used := step3_used early.consistent now called
    rw [now] at uses
    obtain ⟨freshServer, freshClient⟩ := uses
    rw [used, freshServer] at consistent ⊢
    exact ⟨consistent, early.crypt, ⟨List.nil_prefix, List.nodup_singleton _⟩, early.toClient, rfl, freshClient⟩
  | replyStep4 now called =>
    rw [now] at uses
    obtain ⟨oneServer, freshClient⟩ := uses
    rw [oneServer, freshClient] at consistent ⊢
    exact ⟨consistent, early.crypt, ⟨List.prefix_rfl, List.nodup_singleton _⟩,
      ⟨List.nil_prefix, List.nodup_singleton _⟩, trivial⟩
  | recStep4 now called => exact absurd rfl before
  | genCommit now called | commitPairing now called =>
    rw [now] at uses
    exact uses.elim
  | handOver now =>
    rcases now with ⟨_, _, _, now⟩ | ⟨_, _, _, now⟩
    · rw [now] at uses
      exact uses.elim
    · rw [now] at uses
      exact uses.elim

end Keeps

theorem start_early (client : PairingClient) (server : PairingServer) :
    (PairingHandshake.start client server).Early lib := ⟨trivial, rfl, fresh_use, fresh_use, trivial⟩

theorem lockstep_iff (generated : lib.Generated) (sized : lib.Sized) (agrees : lib.EcdhAgrees)
    (inverts : lib.ccm.Inverts) {client : PairingClient} {server : PairingServer} {moves : List PairingMove}
    {h : PairingHandshake} (reached : Runs.run (PairingHandshake.next lib) (.start client server) moves = some h) :
    Runs.Always (PairingHandshake.next lib) PairingHandshake.Lockstep (.start client server) moves ↔
      PairingMove.recStep4 ∉ moves := by
  have keeps : ∀ (h : PairingHandshake) (move : PairingMove) (h' : PairingHandshake), h.Early lib →
      move ≠ .recStep4 → h.next lib move = some h' → h'.Early lib :=
    fun h move h' early before done => early.next generated sized agrees inverts before done
  have breaks : ∀ (h : PairingHandshake) (move : PairingMove) (h' : PairingHandshake), h.Early lib →
      ¬move ≠ .recStep4 → h.next lib move = some h' → ¬h'.Lockstep := by
    intro h move h' early now done
    rw [not_not.mp now] at done
    exact recStep4_breaks inverts early done
  rw [Runs.always_iff_along _ keeps (fun h early => early.lockstep) breaks (start_early client server) reached,
    Runs.along_iff _ reached]
  constructor
  · intro others received
    exact others _ received rfl
  · rintro absent move member rfl
    exact absent member

/-- Client and server stay in lockstep for as long as the client has not processed a step 4: then it
    moves a nonce that the server never moves. -/
theorem pairing_lockstep (generated : lib.Generated) (sized : lib.Sized) (agrees : lib.EcdhAgrees)
    (inverts : lib.ccm.Inverts) (client : PairingClient) (server : PairingServer) (moves : List PairingMove)
    (h : PairingHandshake) (reached : Runs.run (PairingHandshake.next lib) (.start client server) moves = some h) :
    Runs.Always (PairingHandshake.next lib) PairingHandshake.Lockstep (.start client server) moves ↔
      PairingMove.recStep4 ∉ moves :=
  lockstep_iff generated sized agrees inverts reached

theorem pairing_lockstep_before_step4 : ∃ h,
    Runs.run (PairingHandshake.next samplePairing) (.start sampleClient .zero) [.begin 0 0, .genStep1,
      .genStep2 0 0 200, .genStep3, .replyStep4 ⟨0, 0, 0⟩ 200] = some h ∧
    (Runs.Always (PairingHandshake.next samplePairing) PairingHandshake.Lockstep (.start sampleClient .zero)
      [.begin 0 0, .genStep1, .genStep2 0 0 200, .genStep3, .replyStep4 ⟨0, 0, 0⟩ 200] ↔
      PairingMove.recStep4 ∉ [.begin 0 0, .genStep1, .genStep2 0 0 200, .genStep3, .replyStep4 ⟨0, 0, 0⟩ 200]) := by
  obtain ⟨_, _, _, whole, _⟩ := sample_completes
  have split := Runs.run_append (PairingHandshake.next samplePairing) (.start sampleClient .zero)
    [.begin 0 0, .genStep1, .genStep2 0 0 200, .genStep3, .replyStep4 ⟨0, 0, 0⟩ 200]
    [.recStep4, .genCommit 1600000000, .commitPairing]
  rw [List.cons_append, List.cons_append, List.cons_append, List.cons_append, List.cons_append, List.nil_append,
    whole] at split
  obtain ⟨h, reached, _⟩ := Option.bind_eq_some_iff.mp split.symm
  exact ⟨h, reached, pairing_lockstep samplePairing_generated samplePairing_sized samplePairing_agrees
    Cifra.aesCcm_inverts sampleClient .zero _ h reached⟩

/-- A whole handshake between private keys 111, at time 0 and with a commit of 1600000000. -/
theorem lockstep_lost : ∃ h,
    Runs.run (PairingHandshake.next samplePairing) (.start sampleClient .zero) [.begin 0 0, .genStep1,
      .genStep2 0 0 200, .genStep3, .replyStep4 ⟨0, 0, 0⟩ 200, .recStep4, .genCommit 1600000000, .commitPairing] = some h ∧
    ¬Runs.Always (PairingHandshake.next samplePairing) PairingHandshake.Lockstep (.start sampleClient .zero)
      [.begin 0 0, .genStep1, .genStep2 0 0 200, .genStep3, .replyStep4 ⟨0, 0, 0⟩ 200, .recStep4, .genCommit 1600000000,
        .commitPairing] := by
  obtain ⟨h, _, _, reached, _⟩ := sample_completes
  refine ⟨h, reached, ?_⟩
  rw [lockstep_iff samplePairing_generated samplePairing_sized samplePairing_agrees
    Cifra.aesCcm_inverts reached]
  decide

end Bridge
