import Bridge.MicroEcc.Compression
import Bridge.WifiService.Agreement
import Bridge.WifiService.RandomVector
import Bridge.WifiService.Reply

namespace Bridge

open Cbor

section Exchange

variable {lib : PairingLib} {h h' : PairingHandshake}

/-- The client's key comes from its own key pair and one that the other side made. -/
def PairingClient.Exchanged (lib : PairingLib) (client : PairingClient) : Prop :=
  ∃ privateKey secret, KeyPair lib client.publicKey_ client.privateKey_ ∧ KeyPair lib client.otherPublicKey_ privateKey ∧
    lib.sharedSecret client.otherPublicKey_ client.privateKey_ = some secret ∧ client.sharedKey_ = copyKey secret

def PairingProgress.Keyed : PairingProgress → Prop
  | .idle | .begun | .step1 _ | .step2 _ => False
  | .step3 _ | .step4 _ | .received _ | .commit _ _ _ | .committed _ _ _ => True

theorem genStep3_exchanged (inv : h.Consistent lib) {bytes step3 : List UInt8} {client : PairingClient}
    (now : h.progress = .step2 bytes) (called : genPairingStep3Native lib h.client bytes = (client, some step3)) :
    client.Exchanged lib := by
  rw [PairingHandshake.Consistent, now] at inv
  obtain ⟨keys, keys', _, decoded, _⟩ := inv
  obtain ⟨accepted, _, step2, _, _, rfl⟩ := genPairingStep3_ok called
  obtain ⟨secret, shared, rfl⟩ := acceptStep2_ok step2
  simp only [decoded, Option.getD_some] at shared ⊢
  exact ⟨_, secret, keys, keys', shared, rfl⟩

structure PairingHandshake.Exchanging (lib : PairingLib) (h : PairingHandshake) : Prop where
  consistent : h.Consistent lib
  keyed : h.progress.Keyed → h.client.Exchanged lib

theorem next_exchanged (inverts : lib.ccm.Inverts) {move : PairingMove} (inv : h.Exchanging lib)
    (done : h.next lib move = some h') : h'.progress.Keyed → h'.client.Exchanged lib := by
  obtain ⟨inv, exchanged⟩ := inv
  cases PairingHandshake.next_moved done with
  | @begin time entropy client begun called =>
    cases begun with
    | true => exact False.elim
    | false => exact False.elim
  | failed => exact False.elim
  | genStep1 => exact False.elim
  | genStep2 => exact False.elim
  | genStep3 now called => exact fun _ => genStep3_exchanged inv now called
  | replyStep4 now =>
    rw [now] at exchanged
    exact fun _ => exchanged trivial
  | recStep4 now called =>
    rw [recPairingStep4_takes inverts inv now] at called
    cases called
    rw [now] at exchanged
    exact fun _ => exchanged trivial
  | genCommit now called =>
    obtain ⟨_, _, _, rfl⟩ := seal_some called
    rw [now] at exchanged
    exact fun _ => exchanged trivial
  | commitPairing now =>
    rw [now] at exchanged
    exact fun _ => exchanged trivial
  | handOver now => exact exchanged

theorem committed_exchanged (generated : lib.Generated) (sized : lib.Sized) (agree : lib.SecretsAgree) (inverts : lib.ccm.Inverts)
    (client : PairingClient) (server : PairingServer) (moves : List PairingMove) (h : PairingHandshake)
    (reached : Runs.run (PairingHandshake.next lib) (.start client server) moves = some h) {step4 : PairingStep4}
    {currentTime : Int} {result : IgPairingResult} (committed : h.progress = .committed step4 currentTime result) :
    PairingAgreement h.client step4 currentTime result ∧ h.client.Exchanged lib := by
  have start : (PairingHandshake.start client server).Exchanging lib := ⟨trivial, False.elim⟩
  obtain ⟨inv, keyed⟩ : h.Exchanging lib :=
    Runs.run_preserves (PairingHandshake.next lib)
      (fun h move h' inv done =>
        ⟨next_consistent_of generated sized agree inverts inv.consistent done, next_exchanged inverts inv done⟩) start reached
  rw [PairingHandshake.Consistent, committed] at inv
  rw [committed] at keyed
  exact ⟨inv, keyed trivial⟩

end Exchange

section Whole

open MicroEcc

variable {w : Nat} {σ : Type}

def ofWords (bytes : List (BitVec 8)) : List UInt8 := bytes.map UInt8.ofBitVec

def toWords (bytes : List UInt8) : List (BitVec 8) := bytes.map UInt8.toBitVec

theorem toWords_ofWords (bytes : List (BitVec 8)) : toWords (ofWords bytes) = bytes := by
  rw [toWords, ofWords, List.map_map]
  exact List.map_id _

theorem ofWords_length (bytes : List (BitVec 8)) : (ofWords bytes).length = bytes.length := List.length_map _

/-- The pairing over the code of `micro-ecc` and `cifra`. `state` is what the generator finds at a call of
    `uECC_make_key`, `shareState` what it finds at one of `uECC_shared_secret`. -/
def wholePairing (lib : PairingLib) (curve : MicroEcc.Curve w) (rng : Option (Rng σ)) (state : Nat → σ)
    (shareState : List UInt8 → List UInt8 → σ) : PairingLib :=
  { lib with
    ccm := Cifra.aesCcm
    hmacDrbg := sha1Drbg
    makeKey := fun entropy => (makeKey rng curve (state entropy)).1.map fun keys => (ofWords keys.1, ofWords keys.2)
    sharedSecret := fun publicKey privateKey =>
      (sharedSecret rng (toWords publicKey) (toWords privateKey) curve (shareState publicKey privateKey)).1.map ofWords }

variable {lib : PairingLib} {curve : MicroEcc.Curve w} (is : IsSecp256r1 curve) (rng : Option (Rng σ)) (state : Nat → σ)
  (shareState : List UInt8 → List UInt8 → σ)

theorem wholePairing_makeKey (entropy : Nat) : (wholePairing lib curve rng state shareState).makeKey entropy =
    (makeKey rng curve (state entropy)).1.map fun keys => (ofWords keys.1, ofWords keys.2) := rfl

theorem wholePairing_sharedSecret (publicKey privateKey : List UInt8) :
    (wholePairing lib curve rng state shareState).sharedSecret publicKey privateKey =
      (sharedSecret rng (toWords publicKey) (toWords privateKey) curve (shareState publicKey privateKey)).1.map ofWords := rfl

theorem wholePairing_generated (generated : lib.Generated) : (wholePairing lib curve rng state shareState).Generated :=
  ⟨generated.step1, generated.step2, generated.step3, generated.step4, generated.commit⟩

include is

theorem wholePairing_keys {entropy : Nat} {publicKey privateKey : List UInt8}
    (made : (wholePairing lib curve rng state shareState).makeKey entropy = some (publicKey, privateKey)) :
    ∃ k, PrivateKey k ∧ toWords privateKey = MicroEcc.numberBytes k ∧ publicKey.length = 64 ∧
      computePublicKey (MicroEcc.numberBytes k) curve = some (toWords publicKey) := by
  rw [wholePairing_makeKey, Option.map_eq_some_iff] at made
  obtain ⟨keys, drawn, same⟩ := made
  obtain ⟨rfl, rfl⟩ := Prod.mk.inj same
  obtain ⟨k, key, bytes, computed⟩ := makeKey_spec is drawn
  obtain ⟨c, point⟩ := (computePublicKey_spec is (Nat.lt_trans key.less (by decide))).2 _ (bytes ▸ computed)
  rw [toWords_ofWords, toWords_ofWords, ofWords_length, point.eq_encodePoint]
  refine ⟨k, key, bytes, encodePoint_length _, ?_⟩
  rw [← point.eq_encodePoint, ← bytes, computed]

theorem wholePairing_sized : (wholePairing lib curve rng state shareState).Sized where
  publicKey := by
    intro entropy publicKey privateKey made
    obtain ⟨_, _, _, size, _⟩ := wholePairing_keys is rng state shareState made
    exact size
  hmacDrbg := Cifra.drbgSpec_length (h := Cifra.cfSha1) Cifra.sha1Computes.sized (Nat.zero_lt_succ 19)

theorem wholePairing_shares {privateKey publicKey secret : List UInt8} {k k' : Nat} (key : PrivateKey k) (key' : PrivateKey k')
    (bytes : toWords privateKey = MicroEcc.numberBytes k)
    (computed : computePublicKey (MicroEcc.numberBytes k') curve = some (toWords publicKey))
    (shared : (wholePairing lib curve rng state shareState).sharedSecret publicKey privateKey = some secret) :
    secret = ofWords (MicroEcc.numberBytes (abscissa ((k * k') • basePoint)).val) := by
  rw [wholePairing_sharedSecret, Option.map_eq_some_iff] at shared
  obtain ⟨words, found, rfl⟩ := shared
  obtain ⟨c, point⟩ := (computePublicKey_spec is (Nat.lt_trans key'.less (by decide))).2 _ computed
  rw [bytes] at found
  have spec := @sharedSecret_spec w σ curve is rng (shareState publicKey privateKey) _ _ _ point
    (multiple_order key'.positive key'.less) _ key
  simp only [found, reduceCtorEq, and_false, or_false] at spec
  split at spec
  · cases spec
  · rw [Option.some.inj spec, mul_smul]

theorem wholePairing_secretsAgree : (wholePairing lib curve rng state shareState).SecretsAgree := by
  intro entropy entropy' publicKey privateKey publicKey' privateKey' secret secret' made made' shared shared'
  obtain ⟨k, key, bytes, _, computed⟩ := wholePairing_keys is rng state shareState made
  obtain ⟨k', key', bytes', _, computed'⟩ := wholePairing_keys is rng state shareState made'
  rw [wholePairing_shares is rng state shareState key' key bytes' computed shared,
    wholePairing_shares is rng state shareState key key' bytes computed' shared', mul_comm]

/-- The pairing, with the code of the curve, the cipher and the generator in it: the two sides end with one key,
    which is the head of the abscissa of the product of the two private keys. -/
theorem wholePairing_agreement (generated : lib.Generated) (client : PairingClient) (server : PairingServer)
    (moves : List PairingMove) (h : PairingHandshake)
    (reached : Runs.run (PairingHandshake.next (wholePairing lib curve rng state shareState)) (.start client server) moves =
      some h) (step4 : PairingStep4) (currentTime : Int) (result : IgPairingResult)
    (committed : h.progress = .committed step4 currentTime result) :
    PairingAgreement h.client step4 currentTime result ∧ ∃ k k', PrivateKey k ∧ PrivateKey k' ∧
      toWords h.client.publicKey_ = encodePoint (k • basePoint) ∧
      toWords h.client.otherPublicKey_ = encodePoint (k' • basePoint) ∧
      result.adminKey = copyKey (ofWords (MicroEcc.numberBytes (abscissa ((k * k') • basePoint)).val)) := by
  obtain ⟨agreement, privateKey, secret, ⟨entropy, made⟩, ⟨entropy', made'⟩, shared, same⟩ := committed_exchanged
    (wholePairing_generated rng state shareState generated) (wholePairing_sized is rng state shareState)
    (wholePairing_secretsAgree is rng state shareState) Cifra.aesCcm_inverts client server moves h reached committed
  obtain ⟨k, key, bytes, _, computed⟩ := wholePairing_keys is rng state shareState made
  obtain ⟨k', key', _, _, computed'⟩ := wholePairing_keys is rng state shareState made'
  have secret_eq := wholePairing_shares is rng state shareState key key' bytes computed' shared
  obtain ⟨c, point⟩ := (computePublicKey_spec is (Nat.lt_trans key.less (by decide))).2 _ computed
  obtain ⟨c', point'⟩ := (computePublicKey_spec is (Nat.lt_trans key'.less (by decide))).2 _ computed'
  refine ⟨agreement, k, k', key, key', point.eq_encodePoint, point'.eq_encodePoint, ?_⟩
  have admin := agreement.adminKey
  rw [getAdminKeyNative, same, secret_eq] at admin
  exact (Vector.toList_inj.mp admin).symm

end Whole

section Steady

open MicroEcc

/-- The pairing over a generator that always gives 2. -/
def steadyPairing : PairingLib :=
  wholePairing samplePairing curveSecp256r1Word4 (some steadyRng) (fun _ => ()) fun _ _ => ()

theorem steadyPairing_keys {entropy entropy' : Nat} {keys keys' : List UInt8 × List UInt8}
    (made : steadyPairing.makeKey entropy = some keys) (made' : steadyPairing.makeKey entropy' = some keys') :
    keys = keys' :=
  Option.some.inj (made.symm.trans made')

theorem steadyPairing_agrees : steadyPairing.EcdhAgrees := by
  intro entropy entropy' publicKey privateKey publicKey' privateKey' made made'
  obtain ⟨rfl, rfl⟩ := Prod.mk.inj (steadyPairing_keys made made')
  rfl

theorem steadyPairing_made (entropy : Nat) : ∃ publicKey c,
    steadyPairing.makeKey entropy = some (ofWords publicKey, ofWords (MicroEcc.numberBytes 2)) ∧
      PublicBytes publicKey ((2 : ℕ) • basePoint) c := by
  have drawn : generateRandomInt (some steadyRng) curveSecp256r1Word4.n 8 () = (some [2, 0, 0, 0, 0, 0, 0, 0], ()) := by
    decide +kernel
  obtain ⟨publicKey, c, made, key⟩ := steadyRng_makes curveSecp256r1Word4_is drawn (by decide)
  refine ⟨publicKey, c, ?_, key⟩
  rw [steadyPairing, wholePairing_makeKey, made, Option.map_some]

theorem steadyPairing_total : ∀ publicKey privateKey publicKey' privateKey',
    KeyPair steadyPairing publicKey privateKey → KeyPair steadyPairing publicKey' privateKey' →
      ∃ secret, steadyPairing.sharedSecret publicKey privateKey' = some secret := by
  rintro publicKey privateKey publicKey' privateKey' ⟨entropy, made⟩ ⟨entropy', made'⟩
  obtain ⟨words, c, drawn, key⟩ := steadyPairing_made entropy
  obtain ⟨rfl, rfl⟩ := Prod.mk.inj (steadyPairing_keys made drawn)
  obtain ⟨rfl, rfl⟩ := Prod.mk.inj (steadyPairing_keys made' drawn)
  have masked : generateRandomInt (some steadyRng) curveSecp256r1Word4.p 8 () = (some [2, 0, 0, 0, 0, 0, 0, 0], ()) := by
    decide +kernel
  obtain ⟨secret, shared⟩ := steadyRng_shares curveSecp256r1Word4_is masked key
  refine ⟨ofWords secret, ?_⟩
  rw [steadyPairing, wholePairing_sharedSecret, toWords_ofWords, toWords_ofWords, shared, Option.map_some]

theorem wholePairing_agreement_steady : ∃ h step4 result,
    Runs.run (PairingHandshake.next steadyPairing) (.start sampleClient .zero) [.begin 0 0, .genStep1,
      .genStep2 0 0 200, .genStep3, .replyStep4 ⟨0, 0, 0⟩ 200, .recStep4, .genCommit 1600000000, .commitPairing] = some h ∧
    h.progress = .committed step4 1600000000 result ∧ PairingAgreement h.client step4 1600000000 result := by
  have generated : steadyPairing.Generated := wholePairing_generated _ _ _ samplePairing_generated
  have sized : steadyPairing.Sized := wholePairing_sized curveSecp256r1Word4_is _ _ _
  obtain ⟨_, _, made, _⟩ := steadyPairing_made 0
  have some := Option.isSome_iff_exists.mpr ⟨_, made⟩
  obtain ⟨h, step4, result, reached, now⟩ := handshake_completes generated sized steadyPairing_agrees Cifra.aesCcm_inverts
    steadyPairing_total sampleClient .zero 0 0 ⟨0, 0, 0⟩ 1600000000 0 0 some some (by decide : 103 ≤ 200) (by decide)
    (by decide : 74 ≤ 200)
  exact ⟨h, step4, result, reached, now, (wholePairing_agreement curveSecp256r1Word4_is _ _ _ samplePairing_generated
    sampleClient .zero _ h reached step4 1600000000 result now).1⟩

end Steady

end Bridge
