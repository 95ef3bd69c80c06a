import Bridge.WifiService.Agreement

namespace Bridge

def toServerNonces (serverNonce : Nonce) : List Nonce := [serverNonce, incrementNonce serverNonce]

def toClientNonces (clientNonce : Nonce) : List Nonce := [clientNonce]

def PairingMove.drawn (lib : PairingLib) (move : PairingMove) (clientNonce serverNonce : Nonce) : Nonce × Nonce :=
  match move with
  | .begin time _ => (generateRandomNonce lib.libc time kNonceLength, serverNonce)
  | .genStep2 time _ _ => (clientNonce, generateRandomNonce lib.libc time kNonceLength)
  | .genStep1 | .genStep3 | .replyStep4 _ _ | .recStep4 | .genCommit _ | .commitPairing | .handOver =>
    (clientNonce, serverNonce)

def PairingHandshake.Under (h : PairingHandshake) (clientNonce serverNonce : Nonce) : Prop :=
  match h.progress with
  | .idle => h.toServer.made <+: toServerNonces serverNonce ∧ h.toClient.made <+: toClientNonces clientNonce
  | .begun | .step1 _ => h.client.rxNonce_ = clientNonce ∧ h.toServer.made = [] ∧ h.toClient.made = []
  | .step2 _ => h.client.rxNonce_ = clientNonce ∧ h.server.serverNonce = serverNonce ∧ h.toServer.made = [] ∧
    h.toClient.made = []
  | .step3 _ => h.client.rxNonce_ = clientNonce ∧ h.client.txNonce_ = incrementNonce serverNonce ∧
    h.toServer.made = [serverNonce] ∧ h.toClient.made = []
  | .step4 _ | .received _ => h.client.txNonce_ = incrementNonce serverNonce ∧ h.toServer.made = [serverNonce] ∧
    h.toClient.made = toClientNonces clientNonce
  | .commit _ _ _ | .committed _ _ _ => h.toServer.made = toServerNonces serverNonce ∧
    h.toClient.made = toClientNonces clientNonce

variable {lib : PairingLib} {h h' : PairingHandshake} {clientNonce serverNonce : Nonce}

theorem PairingHandshake.Under.made (under : h.Under clientNonce serverNonce) :
    h.toServer.made <+: toServerNonces serverNonce ∧ h.toClient.made <+: toClientNonces clientNonce := by
  have one : [serverNonce] <+: toServerNonces serverNonce := ⟨_, rfl⟩
  unfold PairingHandshake.Under at under
  split at under
  · exact under
  · rw [under.2.1, under.2.2]
    exact ⟨List.nil_prefix, List.nil_prefix⟩
  · rw [under.2.1, under.2.2]
    exact ⟨List.nil_prefix, List.nil_prefix⟩
  · rw [under.2.2.1, under.2.2.2]
    exact ⟨List.nil_prefix, List.nil_prefix⟩
  · rw [under.2.2.1, under.2.2.2]
    exact ⟨one, List.nil_prefix⟩
  · rw [under.2.1, under.2.2]
    exact ⟨one, List.prefix_rfl⟩
  · rw [under.2.1, under.2.2]
    exact ⟨one, List.prefix_rfl⟩
  · rw [under.1, under.2]
    exact ⟨List.prefix_rfl, List.prefix_rfl⟩
  · rw [under.1, under.2]
    exact ⟨List.prefix_rfl, List.prefix_rfl⟩

theorem PairingHandshake.Under.fail (under : h.Under clientNonce serverNonce) (server : PairingServer)
    (client : PairingClient) :
    ({ h.fail with client, server } : PairingHandshake).Under clientNonce serverNonce := under.made

theorem unused_under (unused : h.toServer.made = [] ∧ h.toClient.made = []) {client : PairingClient}
    {server : PairingServer} : ({ h.fail with client, server } : PairingHandshake).Under clientNonce serverNonce := by
  constructor
  · exact unused.1 ▸ List.nil_prefix
  · exact unused.2 ▸ List.nil_prefix

theorem beginConnection_draws {client client' : PairingClient} {time : Int} {entropy : Nat}
    (called : client.beginConnection lib time entropy = (client', true)) :
    client'.rxNonce_ = generateRandomNonce lib.libc time kNonceLength := by
  unfold PairingClient.beginConnection at called
  cases made : lib.makeKey entropy with
  | none =>
    rw [made] at called
    cases called
  | some keys =>
    rw [made] at called
    cases called
    rfl

section Keeps

variable (generated : lib.Generated) (sized : lib.Sized) (agrees : lib.EcdhAgrees) (inverts : lib.ccm.Inverts)

include generated sized agrees inverts

theorem next_under {move : PairingMove} (inv : h.Consistent lib) (under : h.Under clientNonce serverNonce)
    (done : h.next lib move = some h') :
    h'.Under (move.drawn lib clientNonce serverNonce).1 (move.drawn lib clientNonce serverNonce).2 := by
  have consistent := next_consistent generated sized agrees inverts inv done
  cases PairingHandshake.next_moved done with
  | @begin time entropy client begun called =>
    cases begun with
    | false => exact ⟨List.nil_prefix, List.nil_prefix⟩
    | true =>
      have drawn : client.rxNonce_ = generateRandomNonce lib.libc time kNonceLength := beginConnection_draws called
      exact ⟨drawn, rfl, rfl⟩
  | failed client server due =>
    have failed := under.fail server client
    cases move with
    | genStep1 | genStep3 | replyStep4 | recStep4 | genCommit | commitPairing => exact failed
    | genStep2 time entropy step2Len =>
      cases now : h.progress with
      | step1 bytes =>
        rw [PairingHandshake.Under, now] at under
        exact unused_under under.2
      | idle | begun | step2 | step3 | step4 | received | commit | committed =>
        rw [now] at due
        cases due
    | begin | handOver => cases due
  | genStep1 now called =>
    rw [PairingHandshake.Under, now] at under
    exact under
  | genStep2 now called =>
    rw [PairingHandshake.Under, now] at under
    obtain ⟨drawn, none⟩ := under
    obtain ⟨_, _, _, _, _, _, rfl⟩ := serverGenPairingStep2_ok called
    exact ⟨drawn, rfl, none⟩
  | genStep3 now called =>
    have used := step3_used inv now called
    rw [PairingHandshake.Under, now] at under
    obtain ⟨drawn, rfl, noneToServer, noneToClient⟩ := under
    obtain ⟨accepted, _, step2, _, rfl, rfl⟩ := genPairingStep3_ok called
    obtain ⟨_, _, rfl⟩ := acceptStep2_ok step2
    refine ⟨drawn, consistent.2.1, ?_, noneToClient⟩
    simp only [NonceUse.make, used, noneToServer, List.nil_append, PairingMove.drawn]
  | replyStep4 now called =>
    rw [PairingHandshake.Under, now] at under
    obtain ⟨drawn, tx, oneToServer, noneToClient⟩ := under
    obtain ⟨_, _, rx, _⟩ := consistent
    simp only at rx
    refine ⟨tx, oneToServer, ?_⟩
    simp only [NonceUse.make, noneToClient, List.nil_append, toClientNonces, ← rx, drawn, PairingMove.drawn]
  | recStep4 now called =>
    rw [recPairingStep4_takes inverts inv now] at called
    cases called
    rw [PairingHandshake.Under, now] at under
    exact under
  | genCommit now called =>
    rw [PairingHandshake.Under, now] at under
    obtain ⟨tx, oneToServer, oneToClient⟩ := under
    refine ⟨?_, oneToClient⟩
    simp only [NonceUse.make, oneToServer, tx]
    rfl
  | commitPairing now called =>
    rw [PairingHandshake.Under, now] at under
    exact under
  | handOver now =>
    rcases now with ⟨_, _, _, now⟩ | ⟨_, _, _, now⟩
    · rw [PairingHandshake.Under, now] at under
      simp only [PairingHandshake.Under, now]
      exact under
    · rw [PairingHandshake.Under, now] at under
      simp only [PairingHandshake.Under, now]
      exact under

end Keeps

/-- The nonces drawn last in a list of moves. -/
def drawnLast (lib : PairingLib) (moves : List PairingMove) (drawn : Nonce × Nonce) : Nonce × Nonce :=
  moves.foldl (fun drawn move => move.drawn lib drawn.1 drawn.2) drawn

theorem run_under (generated : lib.Generated) (sized : lib.Sized) (agrees : lib.EcdhAgrees)
    (inverts : lib.ccm.Inverts) {moves : List PairingMove} {drawn : Nonce × Nonce} (inv : h.Consistent lib)
    (under : h.Under drawn.1 drawn.2) (reached : Runs.run (PairingHandshake.next lib) h moves = some h') :
    h'.Under (drawnLast lib moves drawn).1 (drawnLast lib moves drawn).2 := by
  induction moves generalizing h drawn with
  | nil =>
    cases reached
    exact under
  | cons move rest ih =>
    obtain ⟨middle, stepped, reached⟩ := Runs.run_cons _ reached
    exact ih (next_consistent generated sized agrees inverts inv stepped)
      (next_under generated sized agrees inverts inv under stepped) reached

/-- In every handshake the two directions use the nonces that client and server have drawn last, and
    what follows on them, and no others. -/
theorem handshake_nonces (generated : lib.Generated) (sized : lib.Sized) (agrees : lib.EcdhAgrees)
    (inverts : lib.ccm.Inverts) {client : PairingClient} {server : PairingServer} {moves : List PairingMove}
    (drawn : Nonce × Nonce) (reached : Runs.run (PairingHandshake.next lib) (.start client server) moves = some h) :
    h.toServer.made <+: toServerNonces (drawnLast lib moves drawn).2 ∧
      h.toClient.made <+: toClientNonces (drawnLast lib moves drawn).1 := by
  have start : (PairingHandshake.start client server).Under drawn.1 drawn.2 := ⟨List.nil_prefix, List.nil_prefix⟩
  have consistent : (PairingHandshake.start client server).Consistent lib := trivial
  exact (run_under generated sized agrees inverts consistent start reached).made

end Bridge
