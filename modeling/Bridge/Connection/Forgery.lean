import Bridge.Connection.Handshake
import Bridge.Connection.PairingClient
import Bridge.WifiService.Pairing
import Bridge.Cifra.Aes

namespace Bridge

structure Secrets where
  table : Connections
  client : PairingClient
  server : PairingServer

inductive ReceivePath
  | decryptNative (i : Fin 32)
  | recConnStep4Native (i : Fin 32)
  | recConnStep3Native (i : Fin 32)
  | recPairingStep4Native
  | igPairingStep4 (times : SetterTimes) (encryptStep4BytesLen : Nat)
  | igCommitPairing

variable (connection : ConnectionLib) (pairing : PairingLib)

def ReceivePath.ccm : ReceivePath → Ccm
  | .igPairingStep4 _ _ | .igCommitPairing | .recPairingStep4Native => pairing.ccm
  | .decryptNative _ | .recConnStep4Native _ | .recConnStep3Native _ => connection.ccm

def ReceivePath.key (s : Secrets) : ReceivePath → Key
  | .decryptNative i | .recConnStep4Native i | .recConnStep3Native i => (s.table.at i.val).key
  | .recPairingStep4Native => s.client.sharedKey_
  | .igPairingStep4 _ _ | .igCommitPairing => s.server.serverPairingAdminKey

def ReceivePath.nonce (s : Secrets) : ReceivePath → Nonce
  | .decryptNative i | .recConnStep4Native i | .recConnStep3Native i => (s.table.at i.val).rxNonce
  | .recPairingStep4Native => s.client.rxNonce_
  | .igPairingStep4 _ _ | .igCommitPairing => s.server.serverNonce

def ReceivePath.receive (s : Secrets) (message : List UInt8) : ReceivePath → Option (Secrets × Bool)
  | .decryptNative i =>
    (Bridge.decryptNative connection.ccm s.table i.val message).map fun done =>
      ({ s with table := done.1 }, done.2.isSome)
  | .recConnStep4Native i =>
    (Bridge.recConnStep4Native connection s.table i.val (some message)).map fun done =>
      ({ s with table := done.1 }, done.2)
  | .recConnStep3Native i =>
    (Bridge.recConnStep3Native connection s.table i.val (some message)).map fun done =>
      ({ s with table := done.1 }, done.2)
  | .recPairingStep4Native =>
    (Bridge.recPairingStep4Native pairing.ccm pairing.step4 s.client message).map fun done =>
      ({ s with client := done.1 }, done.2.isSome)
  | .igPairingStep4 times encryptStep4BytesLen =>
    (Bridge.igPairingStep4 pairing times s.server message encryptStep4BytesLen).map fun done =>
      ({ s with server := done.1 }, done.2.1 == .none)
  | .igCommitPairing =>
    (Bridge.igCommitPairing pairing s.server message).map fun done =>
      ({ s with server := done.1 }, done.2.toBool)

/-- The paths that look at the result of the decryption before they move the nonce. -/
def ReceivePath.ChecksFirst : ReceivePath → Prop
  | .decryptNative _ | .igPairingStep4 _ _ | .igCommitPairing => True
  | .recConnStep4Native _ | .recConnStep3Native _ | .recPairingStep4Native => False

structure SameSecrets (s s' : Secrets) : Prop where
  slots : ∀ i : Fin 32, (s'.table.at i.val).key = (s.table.at i.val).key ∧
    (s'.table.at i.val).txNonce = (s.table.at i.val).txNonce ∧
    (s'.table.at i.val).rxNonce = (s.table.at i.val).rxNonce
  client : s'.client.sharedKey_ = s.client.sharedKey_ ∧ s'.client.txNonce_ = s.client.txNonce_ ∧
    s'.client.rxNonce_ = s.client.rxNonce_
  server : s'.server.serverPairingAdminKey = s.server.serverPairingAdminKey ∧
    s'.server.serverNonce = s.server.serverNonce ∧ s'.server.clientNonce = s.server.clientNonce

/-- The message is reported as a failure, moves no key or nonce, and changes nothing about what the
    path says of any message after it. -/
def Undisturbed (path : ReceivePath) (s : Secrets) (forged : List UInt8) : Prop :=
  ∃ s', path.receive connection pairing s forged = some (s', false) ∧ SameSecrets s s' ∧
    ∀ genuine, (path.receive connection pairing s' genuine).map Prod.snd =
      (path.receive connection pairing s genuine).map Prod.snd

theorem undisturbed_of_same {path : ReceivePath} {s : Secrets} {forged : List UInt8}
    (same : path.receive connection pairing s forged = some (s, false)) :
    Undisturbed connection pairing path s forged :=
  ⟨s, same, ⟨fun _ => ⟨rfl, rfl, rfl⟩, ⟨rfl, rfl, rfl⟩, ⟨rfl, rfl, rfl⟩⟩, fun _ => rfl⟩

theorem disturbed_of_moved {path : ReceivePath} {s moved : Secrets} {forged : List UInt8}
    (done : path.receive connection pairing s forged = some (moved, false))
    (stepped : path.nonce moved = incrementNonce (path.nonce s)) :
    ¬Undisturbed connection pairing path s forged := by
  intro undisturbed
  obtain ⟨s', received, same, _⟩ := undisturbed
  rw [done] at received
  cases received
  have unchanged : path.nonce moved = path.nonce s := by
    cases path with
    | decryptNative i | recConnStep4Native i | recConnStep3Native i => exact (same.slots i).2.2
    | recPairingStep4Native => exact same.client.2.2
    | igPairingStep4 times len | igCommitPairing => exact same.server.2.1
  rw [stepped] at unchanged
  exact incrementNonce_ne _ unchanged

theorem receive_checked {path : ReceivePath} {s : Secrets} {forged : List UInt8}
    (checks : path.ChecksFirst)
    (refused : decryptMessage (path.ccm connection pairing) forged (path.key s) (path.nonce s) = .refused) :
    path.receive connection pairing s forged = some (s, false) := by
  cases path with
  | decryptNative i =>
    simp only [ReceivePath.ccm, ReceivePath.key, ReceivePath.nonce] at refused
    simp [ReceivePath.receive, decryptNative_eq connection.ccm s.table (i := i.val) (by omega), refused]
  | igPairingStep4 times len =>
    simp only [ReceivePath.ccm, ReceivePath.key, ReceivePath.nonce] at refused
    simp only [ReceivePath.receive, igPairingStep4, decryptClientData_eq, refused]
    rfl
  | igCommitPairing =>
    simp only [ReceivePath.ccm, ReceivePath.key, ReceivePath.nonce] at refused
    simp only [ReceivePath.receive, igCommitPairing, decryptClientData_eq, refused]
    rfl
  | recConnStep4Native i | recConnStep3Native i | recPairingStep4Native => exact absurd checks id

def slotMoved (s : Secrets) (i : Fin 32) : Secrets :=
  { s with table := s.table.put i.val { s.table.at i.val with
      rxNonce := incrementNonce (s.table.at i.val).rxNonce } }

theorem slotMoved_nonce (s : Secrets) (i : Fin 32) :
    ((slotMoved s i).table.at i.val).rxNonce = incrementNonce (s.table.at i.val).rxNonce := by
  simp [slotMoved]

theorem receive_unchecked {path : ReceivePath} {s : Secrets} {forged : List UInt8}
    (unchecked : ¬path.ChecksFirst)
    (refused : decryptMessage (path.ccm connection pairing) forged (path.key s) (path.nonce s) = .refused) :
    ∃ moved, path.receive connection pairing s forged = some (moved, false) ∧
      path.nonce moved = incrementNonce (path.nonce s) := by
  cases path with
  | recConnStep4Native i =>
    refine ⟨slotMoved s i, ?_, slotMoved_nonce s i⟩
    simp only [ReceivePath.receive, recConnStep4Native]
    rw [receiveSuccess_refused connection.ccm (guestStep4Success connection) s.table (by omega) refused]
    rfl
  | recConnStep3Native i =>
    refine ⟨slotMoved s i, ?_, slotMoved_nonce s i⟩
    simp only [ReceivePath.receive, recConnStep3Native]
    rw [receiveSuccess_refused connection.ccm (adminStep3Success connection) s.table (by omega) refused]
    rfl
  | recPairingStep4Native =>
    refine ⟨{ s with client := { s.client with rxNonce_ := incrementNonce s.client.rxNonce_ } }, ?_, rfl⟩
    simp only [ReceivePath.receive]
    rw [recPairingStep4_refused pairing.ccm pairing.step4 s.client refused]
    rfl
  | decryptNative i | igPairingStep4 times len | igCommitPairing => exact absurd trivial unchecked

/-- A message that fails authentication leaves the session alone exactly on the paths that check
    the decryption before they move the nonce. -/
theorem forged_message_ignored (path : ReceivePath) (s : Secrets) (forged : List UInt8)
    (refused : decryptMessage (path.ccm connection pairing) forged (path.key s) (path.nonce s) = .refused) :
    Undisturbed connection pairing path s forged ↔ path.ChecksFirst := by
  by_cases checks : path.ChecksFirst
  · have same := receive_checked connection pairing checks refused
    exact iff_of_true (undisturbed_of_same connection pairing same) checks
  · obtain ⟨moved, done, stepped⟩ := receive_unchecked connection pairing checks refused
    exact iff_of_false (disturbed_of_moved connection pairing done stepped) checks

def idleConnection : ConnectionLib :=
  ⟨Cifra.aesCcm, .unused _, .unused _, .unused _, .unused _, .unused _⟩

def idlePairing : PairingLib where
  ccm := Cifra.aesCcm
  libc := ⟨fun _ _ => 0⟩
  hmacDrbg := fun _ _ _ size => List.replicate size 0
  makeKey := fun _ => none
  sharedSecret := fun _ _ => none
  step1 := .unused _
  step2 := .unused _
  step3 := .unused _
  step4 := .unused _
  commit := .unused _

def idleSecrets : Secrets where
  table := Connections.zero
  client := ⟨[], [], [], zeroNonce, zeroNonce, Vector.replicate 16 0⟩
  server := PairingServer.zero

theorem zeros_refused :
    decryptMessage Cifra.aesCcm (List.replicate 8 0) (Vector.replicate 16 0) zeroNonce = .refused := by
  decide +kernel

theorem forged_message_ignored_zeros :
    Undisturbed idleConnection idlePairing .igCommitPairing idleSecrets (List.replicate 8 0) ↔
      ReceivePath.igCommitPairing.ChecksFirst :=
  forged_message_ignored idleConnection idlePairing .igCommitPairing idleSecrets (List.replicate 8 0)
    zeros_refused

theorem forged_step4_disturbs :
    decryptMessage Cifra.aesCcm (List.replicate 8 0) (idleSecrets.table.at 0).key
        (idleSecrets.table.at 0).rxNonce = .refused ∧
      ¬Undisturbed idleConnection idlePairing (.recConnStep4Native 0) idleSecrets (List.replicate 8 0) := by
  have refused : decryptMessage Cifra.aesCcm (List.replicate 8 0) (idleSecrets.table.at 0).key
      (idleSecrets.table.at 0).rxNonce = .refused := zeros_refused
  have unchecked : ¬(ReceivePath.recConnStep4Native 0).ChecksFirst := id
  obtain ⟨moved, done, stepped⟩ := receive_unchecked idleConnection idlePairing unchecked refused
  exact ⟨refused, disturbed_of_moved idleConnection idlePairing done stepped⟩

end Bridge
