import Bridge.Connection.PairingConnection
import Bridge.Library.Runs
import Bridge.Messages.Wire

namespace Bridge

/-- How far a client and a server have come, with the message on its way between them. -/
inductive PairingProgress
  | idle
  | begun
  | step1 (bytes : List UInt8)
  | step2 (bytes : List UInt8)
  | step3 (bytes : List UInt8)
  | step4 (bytes : List UInt8)
  | received (step4 : PairingStep4)
  | commit (step4 : PairingStep4) (currentTime : Int) (bytes : List UInt8)
  | committed (step4 : PairingStep4) (currentTime : Int) (result : IgPairingResult)

/-- The nonces of one direction: those that messages were made under, and those that messages were
    opened with. -/
structure NonceUse where
  made : List Nonce
  checked : List Nonce

def NonceUse.fresh : NonceUse := ⟨[], []⟩

def NonceUse.make (use : NonceUse) (nonce : Nonce) : NonceUse := { use with made := use.made ++ [nonce] }

def NonceUse.check (use : NonceUse) (nonce : Nonce) : NonceUse := { use with checked := use.checked ++ [nonce] }

/-- A client and a server that get one another's messages as they are. `crypt` is what `makeCrypt`
    has handed over. -/
structure PairingHandshake where
  client : PairingClient
  server : PairingServer
  progress : PairingProgress
  toServer : NonceUse
  toClient : NonceUse
  crypt : Option Crypt

/-- The calls, with what they take from outside. The GATT server calls `makeCrypt` when the commit has
    come, without `ig_commit_pairing`. -/
inductive PairingMove
  | begin (time : Int) (entropy : Nat)
  | genStep1
  | genStep2 (time : Int) (entropy step2Len : Nat)
  | genStep3
  | replyStep4 (times : SetterTimes) (encryptStep4BytesLen : Nat)
  | recStep4
  | genCommit (currentTime : Int)
  | commitPairing
  | handOver
deriving DecidableEq

variable (lib : PairingLib)

def PairingHandshake.fail (h : PairingHandshake) : PairingHandshake := { h with progress := .idle }

/-- `none` is a call that is not due. After a call that fails, the client can only begin again. -/
def PairingHandshake.next (h : PairingHandshake) (move : PairingMove) : Option PairingHandshake :=
  match move, h.progress with
  | .begin time entropy, _ =>
    let (client, begun) := h.client.beginConnection lib time entropy
    some { h with
      client, progress := if begun then .begun else .idle
      toServer := .fresh, toClient := .fresh, crypt := none }
  | .genStep1, .begun =>
    match genPairingStep1Native lib h.client with
    | none => some h.fail
    | some bytes => some { h with progress := .step1 bytes }
  | .genStep2 time entropy step2Len, .step1 bytes =>
    match serverGenPairingStep2 lib time entropy h.server bytes step2Len with
    | (server, .error _) => some { h.fail with server }
    | (server, .ok step2Bytes) => some { h with server, progress := .step2 step2Bytes }
  | .genStep3, .step2 bytes =>
    let used := (h.client.acceptStep2 lib bytes).1.txNonce_
    match genPairingStep3Native lib h.client bytes with
    | (client, none) => some { h.fail with client }
    | (client, some step3) =>
      some { h with client, progress := .step3 step3, toServer := h.toServer.make used }
  | .replyStep4 times len, .step3 bytes =>
    (igPairingStep4 lib times h.server bytes len).map fun
      | (server, _, some (some step4)) =>
        { h with
          server, progress := .step4 step4
          toServer := h.toServer.check h.server.serverNonce
          toClient := h.toClient.make server.clientNonce }
      | (server, _, _) => { h.fail with server }
  | .recStep4, .step4 bytes =>
    (recPairingStep4Native lib.ccm lib.step4 h.client bytes).map fun
      | (client, none) => { h.fail with client }
      | (client, some step4) =>
        { h with client, progress := .received step4, toClient := h.toClient.check h.client.rxNonce_ }
  | .genCommit currentTime, .received step4 =>
    match genPairingCommitNative lib currentTime h.client with
    | (client, none) => some { h.fail with client }
    | (client, some bytes) =>
      some { h with
        client, progress := .commit step4 currentTime bytes
        toServer := h.toServer.make h.client.txNonce_ }
  | .commitPairing, .commit step4 currentTime bytes =>
    (igCommitPairing lib h.server bytes).map fun
      | (server, .error _) => { h.fail with server }
      | (server, .ok result) =>
        { h with
          server, progress := .committed step4 currentTime result
          toServer := h.toServer.check h.server.serverNonce }
  | .handOver, .commit _ _ _ | .handOver, .committed _ _ _ => some { h with crypt := some (makeCrypt h.server) }
  | _, _ => none

def PairingMove.MayFail : PairingMove → PairingProgress → Prop
  | .genStep1, .begun | .genStep2 _ _ _, .step1 _ | .genStep3, .step2 _ | .replyStep4 _ _, .step3 _
  | .recStep4, .step4 _ | .genCommit _, .received _ | .commitPairing, .commit _ _ _ => True
  | _, _ => False

/-- What a call does when it is due: a failure, or the message that it makes or takes. -/
inductive PairingHandshake.Moved (h : PairingHandshake) : PairingMove → PairingHandshake → Prop
  | begin {time : Int} {entropy : Nat} {client : PairingClient} {begun : Bool}
      (called : h.client.beginConnection lib time entropy = (client, begun)) : Moved h (.begin time entropy)
        { h with
          client, progress := if begun then .begun else .idle
          toServer := .fresh, toClient := .fresh, crypt := none }
  | failed {move : PairingMove} (client : PairingClient) (server : PairingServer) (due : move.MayFail h.progress) :
      Moved h move { h.fail with client, server }
  | genStep1 {bytes : List UInt8} (now : h.progress = .begun) (called : genPairingStep1Native lib h.client = some bytes) :
      Moved h .genStep1 { h with progress := .step1 bytes }
  | genStep2 {time : Int} {entropy step2Len : Nat} {bytes step2 : List UInt8} {server : PairingServer}
      (now : h.progress = .step1 bytes)
      (called : serverGenPairingStep2 lib time entropy h.server bytes step2Len = (server, .ok step2)) :
      Moved h (.genStep2 time entropy step2Len) { h with server, progress := .step2 step2 }
  | genStep3 {bytes step3 : List UInt8} {client : PairingClient} (now : h.progress = .step2 bytes)
      (called : genPairingStep3Native lib h.client bytes = (client, some step3)) : Moved h .genStep3
        { h with client, progress := .step3 step3, toServer := h.toServer.make (h.client.acceptStep2 lib bytes).1.txNonce_ }
  | replyStep4 {times : SetterTimes} {len : Nat} {bytes step4 : List UInt8} {server : PairingServer} {err : IgErrorCode}
      (now : h.progress = .step3 bytes)
      (called : igPairingStep4 lib times h.server bytes len = some (server, err, some (some step4))) :
      Moved h (.replyStep4 times len)
        { h with
          server, progress := .step4 step4
          toServer := h.toServer.check h.server.serverNonce
          toClient := h.toClient.make server.clientNonce }
  | recStep4 {bytes : List UInt8} {step4 : PairingStep4} {client : PairingClient} (now : h.progress = .step4 bytes)
      (called : recPairingStep4Native lib.ccm lib.step4 h.client bytes = some (client, some step4)) : Moved h .recStep4
        { h with client, progress := .received step4, toClient := h.toClient.check h.client.rxNonce_ }
  | genCommit {currentTime : Int} {step4 : PairingStep4} {bytes : List UInt8} {client : PairingClient}
      (now : h.progress = .received step4)
      (called : genPairingCommitNative lib currentTime h.client = (client, some bytes)) :
      Moved h (.genCommit currentTime)
        { h with client, progress := .commit step4 currentTime bytes, toServer := h.toServer.make h.client.txNonce_ }
  | commitPairing {step4 : PairingStep4} {currentTime : Int} {bytes : List UInt8} {server : PairingServer}
      {result : IgPairingResult} (now : h.progress = .commit step4 currentTime bytes)
      (called : igCommitPairing lib h.server bytes = some (server, .ok result)) : Moved h .commitPairing
        { h with
          server, progress := .committed step4 currentTime result
          toServer := h.toServer.check h.server.serverNonce }
  | handOver (now : (∃ step4 currentTime bytes, h.progress = .commit step4 currentTime bytes) ∨
      ∃ step4 currentTime result, h.progress = .committed step4 currentTime result) :
      Moved h .handOver { h with crypt := some (makeCrypt h.server) }

variable {lib} in
theorem PairingHandshake.next_moved {h h' : PairingHandshake} {move : PairingMove} (done : h.next lib move = some h') :
    h.Moved lib move h' := by
  obtain ⟨client, server, progress, toServer, toClient, crypt⟩ := h
  cases move with
  | begin time entropy =>
    cases done
    exact .begin rfl
  | genStep1 =>
    cases progress with
    | begun =>
      simp only [PairingHandshake.next] at done
      split at done
      · cases done
        exact .failed client server trivial
      · cases done
        exact .genStep1 rfl (by assumption)
    | idle | step1 | step2 | step3 | step4 | received | commit | committed => cases done
  | genStep2 time entropy step2Len =>
    cases progress with
    | step1 bytes =>
      simp only [PairingHandshake.next] at done
      split at done
      · cases done
        exact .failed client _ trivial
      · cases done
        exact .genStep2 rfl (by assumption)
    | idle | begun | step2 | step3 | step4 | received | commit | committed => cases done
  | genStep3 =>
    cases progress with
    | step2 bytes =>
      simp only [PairingHandshake.next] at done
      split at done
      · cases done
        exact .failed _ server trivial
      · cases done
        exact .genStep3 rfl (by assumption)
    | idle | begun | step1 | step3 | step4 | received | commit | committed => cases done
  | replyStep4 times len =>
    cases progress with
    | step3 bytes =>
      obtain ⟨⟨server', err, written⟩, called, same⟩ := Option.map_eq_some_iff.mp done
      rcases written with _ | _ | step4
      · cases same
        exact .failed client server' trivial
      · cases same
        exact .failed client server' trivial
      · cases same
        exact .replyStep4 rfl called
    | idle | begun | step1 | step2 | step4 | received | commit | committed => cases done
  | recStep4 =>
    cases progress with
    | step4 bytes =>
      obtain ⟨⟨client', taken⟩, called, same⟩ := Option.map_eq_some_iff.mp done
      cases taken with
      | none =>
        cases same
        exact .failed client' server trivial
      | some step4 =>
        cases same
        exact .recStep4 rfl called
    | idle | begun | step1 | step2 | step3 | received | commit | committed => cases done
  | genCommit currentTime =>
    cases progress with
    | received step4 =>
      simp only [PairingHandshake.next] at done
      split at done
      · cases done
        exact .failed _ server trivial
      · cases done
        exact .genCommit rfl (by assumption)
    | idle | begun | step1 | step2 | step3 | step4 | commit | committed => cases done
  | commitPairing =>
    cases progress with
    | commit step4 currentTime bytes =>
      obtain ⟨⟨server', outcome⟩, called, same⟩ := Option.map_eq_some_iff.mp done
      cases outcome with
      | error err =>
        cases same
        exact .failed client server' trivial
      | ok result =>
        cases same
        exact .commitPairing rfl called
    | idle | begun | step1 | step2 | step3 | step4 | received | committed => cases done
  | handOver =>
    cases progress with
    | commit step4 currentTime bytes =>
      cases done
      exact .handOver (.inl ⟨step4, currentTime, bytes, rfl⟩)
    | committed step4 currentTime result =>
      cases done
      exact .handOver (.inr ⟨step4, currentTime, result, rfl⟩)
    | idle | begun | step1 | step2 | step3 | step4 | received => cases done

/-- Any client and any server, before they have met. -/
def PairingHandshake.start (client : PairingClient) (server : PairingServer) : PairingHandshake :=
  ⟨client, server, .idle, .fresh, .fresh, none⟩

/-- The messages are those of `lock/messages`, over whatever the stack holds. -/
structure PairingLib.Generated (lib : PairingLib) : Prop where
  step1 : ∃ garbage, lib.step1 = PairingStep1.format.codec garbage
  step2 : ∃ garbage, lib.step2 = PairingStep2.format.codec garbage
  step3 : ∃ garbage, lib.step3 = PairingStep3.format.codec garbage
  step4 : ∃ garbage, lib.step4 = PairingStep4.format.codec garbage
  commit : ∃ garbage, lib.commit = PairingCommit.format.codec garbage

/-- `uECC_make_key` fills a public key of 64 bytes, and the generator as many bytes as it is asked for. -/
structure PairingLib.Sized (lib : PairingLib) : Prop where
  publicKey : ∀ entropy publicKey privateKey, lib.makeKey entropy = some (publicKey, privateKey) →
    publicKey.length = igKeyExchangePublicLength
  hmacDrbg : ∀ entropy nonce reseed size, (lib.hmacDrbg entropy nonce reseed size).length = size

/-- Both sides of an exchange come to one shared secret. -/
def PairingLib.EcdhAgrees (lib : PairingLib) : Prop :=
  ∀ entropy entropy' publicKey privateKey publicKey' privateKey',
    lib.makeKey entropy = some (publicKey, privateKey) → lib.makeKey entropy' = some (publicKey', privateKey') →
      lib.sharedSecret publicKey privateKey' = lib.sharedSecret publicKey' privateKey

end Bridge
