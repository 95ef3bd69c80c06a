import Mathlib.Algebra.Group.Int.Defs
import Mathlib.Logic.Function.Basic
import Bridge.Connection.PairingConnection
import Bridge.WifiService.Directions

namespace Bridge

def seedOf (time : Int) : Nat := (time % 2 ^ 32).toNat

structure Generator where
  seed : Nat
  drawn : Nat
deriving DecidableEq, Repr

def Generator.srand (time : Int) (_ : Generator) : Generator := ⟨seedOf time, 0⟩

def Generator.rand (libc : Libc) (g : Generator) : Nat × Generator := (libc.rand g.seed g.drawn, { g with drawn := g.drawn + 1 })

/-- The loops `bytes[i] = rand() % 256` of both helpers. -/
def Generator.fill (libc : Libc) : Nat → Generator → List UInt8 × Generator
  | 0, g => ([], g)
  | n + 1, g =>
    let (value, g) := g.rand libc
    let (rest, g) := Generator.fill libc n g
    (UInt8.ofNat (value % 256) :: rest, g)

/-- `generateRandomNonce`, on the generator that it finds. -/
def Generator.nonce (libc : Libc) (time : Int) (nonceLength : Nat) (g : Generator) : List UInt8 × Generator :=
  (g.srand time).fill libc nonceLength

/-- Entropy, nonce and reseed of `genRandomVector`, on the generator that it finds. -/
def Generator.material (libc : Libc) (time : Int) (g : Generator) :
    (List UInt8 × List UInt8 × List UInt8) × Generator :=
  let (entropy, g) := (g.srand time).fill libc 16
  let (nonce, g) := g.fill libc 8
  let (reseed, g) := g.fill libc 16
  ((entropy, nonce, reseed), g)

def Generator.vector (lib : PairingLib) (time : Int) (vectorLen : Nat) (g : Generator) : List UInt8 × Generator :=
  let ((entropy, nonce, reseed), g) := g.material lib.libc time
  (lib.hmacDrbg entropy nonce reseed vectorLen, g)

/-- The forty bytes that `rand() % 256` gives first after `srand(seed)`, in the same three parts. -/
def Libc.material (libc : Libc) (seed : Nat) : List UInt8 × List UInt8 × List UInt8 :=
  let draw := fun k => UInt8.ofNat (libc.rand seed k % 256)
  ((List.range 16).map draw, (List.range 8).map fun k => draw (16 + k), (List.range 16).map fun k => draw (24 + k))

theorem fill_eq (libc : Libc) (n : Nat) (g : Generator) :
    g.fill libc n = ((List.range n).map fun k => UInt8.ofNat (libc.rand g.seed (g.drawn + k) % 256),
      { g with drawn := g.drawn + n }) := by
  induction n generalizing g with
  | zero => rfl
  | succ n ih =>
    have shifted : ∀ k, g.drawn + 1 + k = g.drawn + (k + 1) := by omega
    simp only [Generator.fill, Generator.rand, ih, List.range_succ_eq_map, List.map_cons, List.map_map, Nat.add_zero,
      Function.comp_def, Nat.succ_eq_add_one, shifted]

theorem nonce_reseeds (libc : Libc) (time : Int) (n : Nat) (g : Generator) :
    g.nonce libc time n = ((generateRandomNonce libc time n).toList, ⟨seedOf time, n⟩) := by
  simp only [Generator.nonce, Generator.srand, fill_eq, generateRandomNonce, Nat.zero_add, Vector.toList_ofFn, seedOf]
  rw [Prod.mk.injEq]
  refine ⟨?_, rfl⟩
  apply List.ext_getElem
  · simp
  · intro k _ _
    simp

theorem material_reseeds (libc : Libc) (time : Int) (g : Generator) :
    g.material libc time = (libc.material (seedOf time), ⟨seedOf time, 40⟩) := by
  simp only [Generator.material, Generator.srand, fill_eq, Libc.material, Nat.zero_add]

theorem vector_reseeds (lib : PairingLib) (time : Int) (n : Nat) (g : Generator) :
    g.vector lib time n = (genRandomVector lib time n, ⟨seedOf time, 40⟩) := by
  simp only [Generator.vector, material_reseeds, genRandomVector, Libc.material, seedOf]

/-- The setters that draw what a step 3 does not bring. -/
inductive Credential
  | pinKey
  | password
  | masterPin
deriving DecidableEq, Repr

def Credential.set (lib : PairingLib) (time : Int) (step3 : PairingStep3) : Credential → PairingServer → PairingServer
  | .pinKey => setPairingPinKey lib time step3
  | .password => setPairingPassword lib time step3
  | .masterPin => setMasterPin lib time step3

def Credential.missing (step3 : PairingStep3) : Credential → Option Nat
  | .pinKey => if step3.pinKey.isSome then none else some igPinKeyLength
  | .password => if step3.password.isSome then none else some igPasswordLength
  | .masterPin =>
    if step3.masterPin.isSome ∧ bytesSize step3.masterPin ≥ igMasterPinMinLength ∧
      bytesSize step3.masterPin ≤ igMasterPinMaxLength then none
    else some igMasterPinDefaultLength

structure Process where
  generator : Generator
  connections : Connections
  client : PairingClient
  server : PairingServer

/-- What a call draws, with the clock that it reads: what `genRandomVector` makes its vector of, the
    receive nonce of a connection, the nonces of a pairing's client and server. The client of a pairing is
    known by the public key of its step 1. -/
inductive Draw
  | vector (time : Int) (seed : Nat) (material : List UInt8 × List UInt8 × List UInt8)
  | session (time : Int) (key : Key) (rxNonce : Nonce)
  | client (time : Int) (publicKey : List UInt8) (rxNonce : Nonce)
  | server (time : Int) (clientPublicKey : List UInt8) (serverNonce : Nonce)

def Draw.time : Draw → Int
  | .vector time _ _ | .session time _ _ | .client time _ _ | .server time _ _ => time

inductive DrawCall
  | set (credential : Credential) (step3 : PairingStep3)
  | beginConnection (type : ConnectionType) (jKey : List UInt8) (keyLen : Int)
  | endConnection (connectionId : Int)
  | beginPairing (entropy : Nat)
  | genStep2 (entropy : Nat) (step1Bytes : List UInt8) (step2Len : Nat)
  /-- The request ids of the lock commands. -/
  | requestID

variable (lib : PairingLib)

def Process.set (p : Process) (time : Int) (credential : Credential) (step3 : PairingStep3) : Process × Option Draw :=
  let server := credential.set lib time step3 p.server
  match credential.missing step3 with
  | none => ({ p with server }, none)
  | some vectorLen =>
    let generator := (p.generator.vector lib time vectorLen).2
    ({ p with server, generator }, some (.vector time generator.seed (p.generator.material lib.libc time).1))

def Process.beginConnection (p : Process) (time : Int) (type : ConnectionType) (jKey : List UInt8) (keyLen : Int) :
    Process × Option Draw :=
  let (connections, connectionId) := Bridge.beginConnection lib.libc time p.connections type jKey keyLen
  if connectionId = errorConnectionId then ({ p with connections }, none)
  else
    let connection := connections.at connectionId.toNat
    ({ p with connections, generator := (p.generator.nonce lib.libc time kNonceLength).2 },
      some (.session time connection.key connection.rxNonce))

def Process.beginPairing (p : Process) (time : Int) (entropy : Nat) : Process × Option Draw :=
  match p.client.beginConnection lib time entropy with
  | (client, false) => ({ p with client }, none)
  | (client, true) =>
    ({ p with client, generator := (p.generator.nonce lib.libc time kNonceLength).2 },
      some (.client time client.publicKey_ client.rxNonce_))

def Process.genStep2 (p : Process) (time : Int) (entropy : Nat) (step1Bytes : List UInt8) (step2Len : Nat) :
    Process × Option Draw :=
  match serverGenPairingStep2 lib time entropy p.server step1Bytes step2Len with
  | (server, .error .invalidMessage) => ({ p with server }, none)
  | (server, .error _) => ({ p with server, generator := (p.generator.nonce lib.libc time kNonceLength).2 }, none)
  | (server, .ok _) =>
    ({ p with server, generator := (p.generator.nonce lib.libc time kNonceLength).2 },
      some (.server time server.clientPairingPublicKey server.serverNonce))

def Process.step (p : Process) (time : Int) : DrawCall → Process × Option Draw
  | .set credential step3 => p.set lib time credential step3
  | .beginConnection type jKey keyLen => p.beginConnection lib time type jKey keyLen
  | .endConnection connectionId => ({ p with connections := Bridge.endConnection p.connections connectionId }, none)
  | .beginPairing entropy => p.beginPairing lib time entropy
  | .genStep2 entropy step1Bytes step2Len => p.genStep2 lib time entropy step1Bytes step2Len
  | .requestID => ({ p with generator := ((p.generator.srand time).rand lib.libc).2 }, none)

structure ClockedCall where
  process : Nat
  time : Int
  call : DrawCall

def drawsOf : (Nat → Process) → List ClockedCall → List Draw
  | _, [] => []
  | world, event :: rest =>
    let (process, draw) := (world event.process).step lib event.time event.call
    draw.toList ++ drawsOf (Function.update world event.process process) rest

def Draw.FreshFrom : Draw → Draw → Prop
  | .vector _ seed material, .vector _ seed' material' => seed ≠ seed' ∧ material ≠ material'
  | .session _ key rxNonce, .session _ key' rxNonce' => key = key' → rxNonce ≠ rxNonce'
  | .client _ publicKey clientNonce, .server _ publicKey' serverNonce
  | .server _ publicKey' serverNonce, .client _ publicKey clientNonce =>
    publicKey = publicKey' → clientNonce ≠ serverNonce ∧ (toServerNonces serverNonce).Disjoint (toClientNonces clientNonce)
  | _, _ => True

/-- Two draws that must not come out the same. -/
def Draw.Related : Draw → Draw → Prop
  | .vector _ _ _, .vector _ _ _ => True
  | .session _ key _, .session _ key' _ => key = key'
  | .client _ publicKey _, .server _ publicKey' _ | .server _ publicKey' _, .client _ publicKey _ => publicKey = publicKey'
  | _, _ => False

/-- The clock has moved between the two calls, as far as the `unsigned` that is left of it tells. -/
def ClockMoved (time time' : Int) : Prop := seedOf time ≠ seedOf time'

/-- The twelve bytes that `rand() % 256` gives first after `srand(seed)`. -/
def Libc.firstBytes (libc : Libc) (seed : Nat) : Vector UInt8 12 :=
  Vector.ofFn fun k => UInt8.ofNat (libc.rand seed k.val % 256)

/-- The readings of two related calls start streams of libc that differ where the calls read them: in the
    forty bytes of a vector, in the twelve of a nonce. Step 3 and the commit go out under the server's nonce
    and its successor, so the client's must be neither. -/
def Libc.Separates (libc : Libc) : Draw → Draw → Prop
  | .vector time _ _, .vector time' _ _ => libc.material (seedOf time) ≠ libc.material (seedOf time')
  | .session time key _, .session time' key' _ =>
    key = key' → libc.firstBytes (seedOf time) ≠ libc.firstBytes (seedOf time')
  | .client time publicKey _, .server time' publicKey' _ | .server time' publicKey' _, .client time publicKey _ =>
    publicKey = publicKey' → libc.firstBytes (seedOf time) ≠ libc.firstBytes (seedOf time') ∧
      libc.firstBytes (seedOf time) ≠ ByteCounter.ripple (libc.firstBytes (seedOf time'))
  | _, _ => True

variable {lib}

/-- The draw comes from the clock reading alone. -/
def Draw.Made (libc : Libc) : Draw → Prop
  | .vector time seed material => seed = seedOf time ∧ material = libc.material (seedOf time)
  | .session time _ nonce | .client time _ nonce | .server time _ nonce => nonce = libc.firstBytes (seedOf time)

theorem generateRandomNonce_eq (libc : Libc) (time : Int) :
    generateRandomNonce libc time kNonceLength = libc.firstBytes (seedOf time) := rfl

theorem set_of_vector {time time' : Int} {step3 : PairingStep3} {credential : Credential}
    (same : ∀ vectorLen ∈ credential.missing step3,
      genRandomVector lib time vectorLen = genRandomVector lib time' vectorLen) (server : PairingServer) :
    credential.set lib time step3 server = credential.set lib time' step3 server := by
  cases credential with
  | pinKey =>
    cases given : step3.pinKey with
    | some pinKey => simp only [Credential.set, setPairingPinKey, given]
    | none =>
      have drawn := same igPinKeyLength (by simp [Credential.missing, given])
      simp only [Credential.set, setPairingPinKey, given, drawn]
  | password =>
    cases given : step3.password with
    | some password => simp only [Credential.set, setPairingPassword, given]
    | none =>
      have drawn := same igPasswordLength (by simp [Credential.missing, given])
      simp only [Credential.set, setPairingPassword, given, drawn]
  | masterPin =>
    simp only [Credential.set, setMasterPin]
    split
    · rfl
    · rename_i unusable
      have drawn := same igMasterPinDefaultLength (by simp only [Credential.missing, if_neg unusable, Option.mem_some_iff])
      rw [drawn]

theorem set_made {p p' : Process} {time : Int} {credential : Credential} {step3 : PairingStep3} {draw : Draw}
    (done : p.set lib time credential step3 = (p', some draw)) : draw.time = time ∧ draw.Made lib.libc := by
  unfold Process.set at done
  cases asked : credential.missing step3 with
  | none =>
    rw [asked] at done
    cases done
  | some vectorLen =>
    simp only [asked, vector_reseeds, material_reseeds] at done
    cases done
    exact ⟨rfl, rfl, rfl⟩

theorem beginConnection_made {p p' : Process} {time : Int} {type : ConnectionType} {jKey : List UInt8} {keyLen : Int}
    {draw : Draw} (done : p.beginConnection lib time type jKey keyLen = (p', some draw)) :
    draw.time = time ∧ draw.Made lib.libc := by
  unfold Process.beginConnection at done
  simp only at done
  split at done
  · cases done
  · rename_i success
    obtain ⟨rfl, i, found⟩ := begin_succeeds lib.libc time type jKey success
    rw [begin_free lib.libc time type jKey found] at done
    cases done
    refine ⟨rfl, ?_⟩
    rw [Int.toNat_natCast, Connections.at_put_self]
    exact generateRandomNonce_eq lib.libc time

theorem beginPairing_made {p p' : Process} {time : Int} {entropy : Nat} {draw : Draw}
    (done : p.beginPairing lib time entropy = (p', some draw)) : draw.time = time ∧ draw.Made lib.libc := by
  unfold Process.beginPairing PairingClient.beginConnection at done
  cases keys : lib.makeKey entropy with
  | none =>
    rw [keys] at done
    cases done
  | some keys' =>
    rw [keys] at done
    cases done
    exact ⟨rfl, generateRandomNonce_eq lib.libc time⟩

theorem genStep2_made {p p' : Process} {time : Int} {entropy step2Len : Nat} {step1Bytes : List UInt8} {draw : Draw}
    (done : p.genStep2 lib time entropy step1Bytes step2Len = (p', some draw)) : draw.time = time ∧ draw.Made lib.libc := by
  unfold Process.genStep2 at done
  split at done
  · cases done
  · cases done
  · rename_i server step2Bytes replied
    obtain ⟨_, _, _, _, _, _, rfl⟩ := serverGenPairingStep2_ok replied
    cases done
    exact ⟨rfl, generateRandomNonce_eq lib.libc time⟩

theorem step_made {p p' : Process} {time : Int} {call : DrawCall} {draw : Draw}
    (done : p.step lib time call = (p', some draw)) : draw.time = time ∧ draw.Made lib.libc := by
  cases call with
  | set credential step3 => exact set_made done
  | beginConnection type jKey keyLen => exact beginConnection_made done
  | beginPairing entropy => exact beginPairing_made done
  | genStep2 entropy step1Bytes step2Len => exact genStep2_made done
  | endConnection | requestID => cases done

theorem drawsOf_made {world : Nat → Process} {events : List ClockedCall} {draw : Draw}
    (drawn : draw ∈ drawsOf lib world events) : draw.Made lib.libc := by
  induction events generalizing world with
  | nil => cases drawn
  | cons event rest ih =>
    rw [drawsOf, List.mem_append, Option.mem_toList] at drawn
    cases drawn with
    | inl now => exact (step_made (Prod.ext rfl now)).2
    | inr later => exact ih later

section Pairs

variable {libc : Libc}

theorem material_ne {seed seed' : Nat} (differ : libc.firstBytes seed ≠ libc.firstBytes seed') :
    libc.material seed ≠ libc.material seed' := by
  intro same
  apply differ
  have entropy := congrArg Prod.fst same
  simp only [Libc.material, List.map_inj_left, List.mem_range] at entropy
  unfold Libc.firstBytes
  congr 1
  funext k
  exact entropy k.val (Nat.lt_trans k.isLt (by decide))

theorem pairing_nonces_iff (clientNonce serverNonce : Nonce) :
    clientNonce ≠ serverNonce ∧ (toServerNonces serverNonce).Disjoint (toClientNonces clientNonce) ↔
      clientNonce ≠ serverNonce ∧ clientNonce ≠ ByteCounter.ripple serverNonce := by
  rw [toClientNonces, List.disjoint_singleton, toServerNonces, List.mem_pair, not_or]
  exact and_congr_right fun differ => and_iff_right differ

theorem freshFrom_iff {draw draw' : Draw} (made : draw.Made libc) (made' : draw'.Made libc) :
    draw.FreshFrom draw' ↔ libc.Separates draw draw' := by
  cases draw with
  | vector time seed material =>
    cases draw' with
    | vector time' seed' material' =>
      obtain ⟨rfl, rfl⟩ := made
      obtain ⟨rfl, rfl⟩ := made'
      constructor
      · exact And.right
      · exact fun differ => ⟨fun same => differ (congrArg libc.material same), differ⟩
    | session | client | server => exact Iff.rfl
  | session time key rxNonce =>
    cases draw' with
    | session time' key' rxNonce' =>
      cases made
      cases made'
      exact Iff.rfl
    | vector | client | server => exact Iff.rfl
  | client time publicKey clientNonce =>
    cases draw' with
    | server time' publicKey' serverNonce =>
      cases made
      cases made'
      exact imp_congr_right fun _ => pairing_nonces_iff _ _
    | vector | session | client => exact Iff.rfl
  | server time publicKey serverNonce =>
    cases draw' with
    | client time' publicKey' clientNonce =>
      cases made
      cases made'
      exact imp_congr_right fun _ => pairing_nonces_iff _ _
    | vector | session | server => exact Iff.rfl

theorem clockMoved_of_separates {draw draw' : Draw} (separate : libc.Separates draw draw') (related : draw.Related draw') :
    ClockMoved draw.time draw'.time := by
  intro same
  cases draw with
  | vector time seed material =>
    cases draw' with
    | vector => exact separate (congrArg libc.material same)
    | session | client | server => exact related
  | session time key rxNonce =>
    cases draw' with
    | session => exact separate related (congrArg libc.firstBytes same)
    | vector | client | server => exact related
  | client time publicKey clientNonce =>
    cases draw' with
    | server => exact (separate related).1 (congrArg libc.firstBytes same)
    | vector | session | client => exact related
  | server time publicKey serverNonce =>
    cases draw' with
    | client => exact (separate related).1 (congrArg libc.firstBytes same.symm)
    | vector | session | server => exact related

end Pairs

/-- The two directions of a handshake share no nonce where client and server have drawn theirs from
    streams that differ. -/
theorem handshake_directions_disjoint {lib : PairingLib} (generated : lib.Generated) (sized : lib.Sized)
    (agrees : lib.EcdhAgrees) (inverts : lib.ccm.Inverts) {client : PairingClient} {server : PairingServer}
    {moves : List PairingMove} {h : PairingHandshake} {drawn : Nonce × Nonce}
    (reached : Runs.run (PairingHandshake.next lib) (.start client server) moves = some h) {time time' : Int}
    (last : drawnLast lib moves drawn =
      (generateRandomNonce lib.libc time kNonceLength, generateRandomNonce lib.libc time' kNonceLength))
    (differ : lib.libc.firstBytes (seedOf time) ≠ lib.libc.firstBytes (seedOf time'))
    (apart : lib.libc.firstBytes (seedOf time) ≠ ByteCounter.ripple (lib.libc.firstBytes (seedOf time'))) :
    h.toServer.made.Disjoint h.toClient.made := by
  have ⟨toServer, toClient⟩ := handshake_nonces generated sized agrees inverts drawn reached
  rw [last] at toServer toClient
  have disjoint := ((pairing_nonces_iff _ _).mpr ⟨differ, apart⟩).2
  exact List.disjoint_of_subset_left toServer.subset (List.disjoint_of_subset_right toClient.subset disjoint)

/-- In any run of any processes, the draws are fresh exactly if the readings of every two that must
    differ start streams that do, for which the clock has to move between them: the generator that a call
    finds does not matter. -/
theorem draws_fresh_iff_streams_differ (lib : PairingLib) (world : Nat → Process) (events : List ClockedCall) :
    ((drawsOf lib world events).Pairwise Draw.FreshFrom ↔ (drawsOf lib world events).Pairwise lib.libc.Separates) ∧
      ((drawsOf lib world events).Pairwise Draw.FreshFrom →
        (drawsOf lib world events).Pairwise fun draw draw' => draw.Related draw' → ClockMoved draw.time draw'.time) := by
  have fresh : (drawsOf lib world events).Pairwise Draw.FreshFrom ↔ (drawsOf lib world events).Pairwise lib.libc.Separates :=
    List.Pairwise.iff_of_mem fun drawn drawn' => freshFrom_iff (drawsOf_made drawn) (drawsOf_made drawn')
  exact ⟨fresh, fun apart => (fresh.mp apart).imp clockMoved_of_separates⟩

def bareStep3 : PairingStep3 := { nonce := some (List.replicate 12 5) }

def sampleProcess : Process where
  generator := ⟨1, 0⟩
  connections := .zero
  client := sampleClient
  server := .zero

def threeSeconds : List ClockedCall :=
  [⟨0, 0, .set .pinKey bareStep3⟩, ⟨0, 1, .set .password bareStep3⟩,
    ⟨1, 1, .beginConnection .guest (List.replicate 16 7) 16⟩, ⟨1, 2, .beginConnection .guest (List.replicate 16 7) 16⟩,
    ⟨0, 2, .set .masterPin bareStep3⟩]

set_option maxRecDepth 2000 in
theorem draws_fresh_three_seconds :
    (drawsOf samplePairing (fun _ => sampleProcess) threeSeconds).Pairwise Draw.FreshFrom := by
  apply (draws_fresh_iff_streams_differ samplePairing (fun _ => sampleProcess) threeSeconds).1.mpr
  have drawn : drawsOf samplePairing (fun _ => sampleProcess) threeSeconds =
      [.vector 0 (seedOf 0) (samplePairing.libc.material (seedOf 0)),
        .vector 1 (seedOf 1) (samplePairing.libc.material (seedOf 1)),
        .session 1 (copyKey (List.replicate 16 7)) (generateRandomNonce samplePairing.libc 1 kNonceLength),
        .session 2 (copyKey (List.replicate 16 7)) (generateRandomNonce samplePairing.libc 2 kNonceLength),
        .vector 2 (seedOf 2) (samplePairing.libc.material (seedOf 2))] := rfl
  have streams : samplePairing.libc.firstBytes 0 ≠ samplePairing.libc.firstBytes 1 ∧
      samplePairing.libc.firstBytes 0 ≠ samplePairing.libc.firstBytes 2 ∧
      samplePairing.libc.firstBytes 1 ≠ samplePairing.libc.firstBytes 2 := by decide +kernel
  rw [drawn]
  simp [Libc.Separates, seedOf, streams, material_ne]

/-- A step 3 that brings neither a pin key nor a password, answered within one second. -/
theorem same_second_same_seed :
    ¬(drawsOf samplePairing (fun _ => sampleProcess)
      [⟨0, 0, .set .pinKey bareStep3⟩, ⟨0, 0, .set .password bareStep3⟩]).Pairwise Draw.FreshFrom := by
  have drawn : drawsOf samplePairing (fun _ => sampleProcess) [⟨0, 0, .set .pinKey bareStep3⟩,
    ⟨0, 0, .set .password bareStep3⟩] =
      [.vector 0 0 (samplePairing.libc.material 0), .vector 0 0 (samplePairing.libc.material 0)] := rfl
  rw [drawn, List.pairwise_pair]
  intro fresh
  exact fresh.1 rfl

end Bridge
