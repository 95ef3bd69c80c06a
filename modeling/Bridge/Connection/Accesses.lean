import Bridge.Connection.Handshake
import Bridge.Library.Tracing
import Bridge.WifiService.Pairing

namespace Bridge

open Tracing Traced

/-- What the code of the connections touches: `connections_[i]`, the tag length subtracted from the
    length of an input, a buffer sized or read with that difference. -/
inductive Access
  | slot (i : Nat)
  | untag (inputLen : Int)
  | buffer (inputLen : Int)
deriving DecidableEq, Repr

abbrev Tracked := Traced Connections Access

-- The functions of the table once more, statement by statement and with what they touch. An `int`
-- is an `Int`, a `uint32_t` a `Nat`, and a pointer the bytes that lie behind it.

def bytesAt (data : Nat → UInt8) (len : Nat) : List UInt8 := (List.range len).map data

def toUint32 (n : Int) : Nat := (n % 2 ^ 32).toNat

def slotAt (i : Nat) : Tracked Connection := do
  note (.slot i)
  return (← read).at i

def putSlot (i : Nat) (connection : Connection) : Tracked Unit := do
  note (.slot i)
  modify fun m => m.put i connection

def untag (inputLen : Int) : Tracked Nat := do
  note (.untag inputLen)
  return decryptDataSize (toUint32 inputLen)

/-- With a difference that has wrapped, what follows is undefined. -/
def useBuffer (inputLen : Int) : Tracked Unit := do
  note (.buffer inputLen)
  if inputLen < kCcmTagLength then undefined

def trackedGetConnection (connectionId : Int) : Tracked (Option Nat) := do
  if connectionId > kMaxConnections ∨ connectionId < 0 then return none
  note (.slot connectionId.toNat)
  return some connectionId.toNat

def trackedEndConnection (connectionId : Int) : Tracked Unit := do
  let some i ← trackedGetConnection connectionId | return ()
  let connection ← slotAt i
  putSlot i { connection with active := false, connnectionId := 0, type := .none }
  -- the memset goes through the array name, to its first element
  let first ← slotAt 0
  putSlot 0 { first with rxNonce := zeroNonce }

def trackedEncryptNative (ccm : Ccm) (connectionId : Int) (jPlaintext : Nat → UInt8) (plaintextLen : Int) :
    Tracked (Option (List UInt8)) := do
  let some i ← trackedGetConnection connectionId | return none
  let connection ← slotAt i
  let plaintext := bytesAt jPlaintext (toUint32 plaintextLen)
  let messageLen := encryptDataSize plaintext.length
  let retval := encryptData ccm plaintext messageLen connection.key kConnectionKeyLength connection.txNonce kNonceLength
  putSlot i { connection with txNonce := incrementNonce connection.txNonce }
  match retval with
  | none => return none
  | some messageBytes =>
    if messageBytes.length = 0 ∨ messageBytes.length ≠ messageLen then return none
    return some messageBytes

/-- The bytes left in `dataOut`, or `none` where the C function returns -1. -/
def trackedDecryptData (ccm : Ccm) (dataIn : Nat → UInt8) (dataInLen dataOutLen : Nat) (key : Key) (keyLen : Nat)
    (nonce : Nonce) (nonceLen : Nat) : Tracked (Option (List UInt8)) := do
  if 4096 < dataInLen then return none
  let plainLen ← untag dataInLen
  if dataOutLen < plainLen then return none
  if keyLen ≠ 16 ∧ keyLen ≠ 24 ∧ keyLen ≠ 32 then return none
  if nonceLen ≠ kNonceLength then return none
  let ciphertextLen ← untag dataInLen
  useBuffer dataInLen
  return ccm.decrypt key nonce (bytesAt dataIn ciphertextLen)
    (bytesAt (fun k => dataIn (ciphertextLen + k)) kCcmTagLength)

def trackedDecryptNative (ccm : Ccm) (connectionId : Int) (jMessage : Nat → UInt8) (messageLen : Int) :
    Tracked (Option (List UInt8)) := do
  let some i ← trackedGetConnection connectionId | return none
  let connection ← slotAt i
  let plaintextLen ← untag messageLen
  useBuffer messageLen
  let retval ← trackedDecryptData ccm jMessage (toUint32 messageLen) plaintextLen connection.key kConnectionKeyLength
    connection.rxNonce kNonceLength
  match retval with
  | none => return none
  | some plaintext =>
    putSlot i { connection with rxNonce := incrementNonce connection.rxNonce }
    if plaintext.length = 0 ∨ plaintext.length ≠ plaintextLen then return none
    return some plaintext

def trackedRecConnStep4Native (lib : ConnectionLib) (connectionId : Int) (messageBytes : Option (Nat → UInt8))
    (messageLen : Int) : Tracked Bool := do
  let some i ← trackedGetConnection connectionId | return false
  let some messageBytes := messageBytes | return false
  let step4MaxLen ← untag messageLen
  useBuffer messageLen
  let connection ← slotAt i
  let step4 ← trackedDecryptData lib.ccm messageBytes (toUint32 messageLen) step4MaxLen connection.key
    kConnectionKeyLength connection.rxNonce kNonceLength
  putSlot i { connection with rxNonce := incrementNonce connection.rxNonce }
  match step4 with
  | none => return false
  | some step4Bytes => return guestStep4Success lib step4Bytes

def trackedDecryptClientData (ccm : Ccm) (server : PairingServer) (dataIn : Nat → UInt8) (dataInLen dataOutLen : Nat) :
    Tracked (Option (List UInt8)) :=
  trackedDecryptData ccm dataIn dataInLen dataOutLen server.serverPairingAdminKey kConnectionKeyLength
    server.serverNonce kNonceLength

/-- The bytes of a message, and what a read past its end finds. -/
def behind (message : List UInt8) : Nat → UInt8 := fun k => message.getD k 0

theorem bytesAt_behind {message : List UInt8} {len : Nat} (inside : len ≤ message.length) :
    bytesAt (behind message) len = message.take len := by
  have lengths : (bytesAt (behind message) len).length = (message.take len).length := by
    rw [bytesAt, List.length_map, List.length_range, List.length_take_of_le inside]
  refine List.ext_getElem lengths fun k left right => ?_
  have range : k < len := by simpa [bytesAt] using left
  rw [List.getElem_take]
  simp [bytesAt, behind, show k < message.length by omega]

theorem bytesAt_message (message : List UInt8) : bytesAt (behind message) message.length = message := by
  rw [bytesAt_behind (Nat.le_refl _), List.take_length]

theorem behind_drop (message : List UInt8) (start : Nat) :
    (fun k => behind message (start + k)) = behind (message.drop start) := by
  funext k
  simp [behind, List.getD_eq_getElem?_getD]

theorem toUint32_of_nat {n : Nat} (small : n < 2 ^ 32) : toUint32 n = n := by
  unfold toUint32
  omega

theorem decryptDataSize_toUint32 (n : Nat) : decryptDataSize (toUint32 n) = decryptDataSize n := by
  unfold decryptDataSize toUint32 kCcmTagLength
  omega

@[simp] theorem slotAt_result (i : Nat) (m : Connections) : (slotAt i).result m = some (m, m.at i) := rfl

@[simp] theorem putSlot_result (i : Nat) (connection : Connection) (m : Connections) :
    (putSlot i connection).result m = some (m.put i connection, ()) := rfl

@[simp] theorem untag_result (inputLen : Int) (m : Connections) :
    (untag inputLen).result m = some (m, decryptDataSize (toUint32 inputLen)) := rfl

theorem useBuffer_tagged {inputLen : Int} (tagged : 8 ≤ inputLen) (m : Connections) :
    (useBuffer inputLen).result m = some (m, ()) := by
  have wide : ¬inputLen < kCcmTagLength := Int.not_lt.mpr tagged
  simp [useBuffer, wide]

theorem useBuffer_untagged {inputLen : Int} (untagged : inputLen < 8) (m : Connections) :
    (useBuffer inputLen).result m = none := by
  have short : inputLen < kCcmTagLength := untagged
  simp [useBuffer, short]

theorem trackedGetConnection_result (connectionId : Int) (m : Connections) :
    (trackedGetConnection connectionId).result m = some (m, getConnection connectionId) := by
  unfold trackedGetConnection getConnection
  split <;> simp

theorem trackedEndConnection_result (connectionId : Int) (m : Connections) :
    (trackedEndConnection connectionId).result m = some (endConnection m connectionId, ()) := by
  rw [trackedEndConnection, result_bind, trackedGetConnection_result, endConnection, Option.bind_some]
  cases getConnection connectionId with
  | none => rfl
  | some i => simp

theorem trackedEncryptNative_result (ccm : Ccm) (connectionId : Int) {plain : List UInt8} (small : plain.length < 2 ^ 32)
    (m : Connections) : (trackedEncryptNative ccm connectionId (behind plain) plain.length).result m =
      some (encryptNative ccm m connectionId plain) := by
  rw [trackedEncryptNative, result_bind, trackedGetConnection_result, encryptNative, Option.bind_some,
    toUint32_of_nat small, bytesAt_message]
  cases getConnection connectionId with
  | none => rfl
  | some i =>
    simp only [result_bind, slotAt_result, putSlot_result, Option.bind_some]
    cases encryptData ccm plain (encryptDataSize plain.length) (m.at i).key kConnectionKeyLength (m.at i).txNonce
        kNonceLength with
    | none => rfl
    | some messageBytes =>
      dsimp only
      split <;> rfl

def Decryption.returned : Decryption → Option (Option (List UInt8))
  | .wraps => none
  | .refused => some none
  | .plain bytes => some (some bytes)

theorem trackedDecryptData_result (ccm : Ccm) (dataIn : List UInt8) (dataOutLen : Nat) (key : Key) (keyLen : Nat)
    (nonce : Nonce) (nonceLen : Nat) (m : Connections) :
    (trackedDecryptData ccm (behind dataIn) dataIn.length dataOutLen key keyLen nonce nonceLen).result m =
      (decryptData ccm dataIn dataOutLen key keyLen nonce nonceLen).returned.map fun out => (m, out) := by
  rw [trackedDecryptData, decryptData]
  split
  · rfl
  · rename_i short
    rw [result_bind, untag_result, Option.bind_some, decryptDataSize_toUint32]
    split
    · rfl
    · split
      · rfl
      · split
        · rfl
        · rw [result_bind, untag_result, Option.bind_some, result_bind, decryptDataSize_toUint32]
          split
          · rename_i untagged
            rw [useBuffer_untagged (Int.ofNat_lt.mpr untagged)]
            rfl
          · rename_i tagged
            have size : decryptDataSize dataIn.length = dataIn.length - 8 :=
              decryptDataSize_of_tagged (Nat.le_of_not_lt tagged) (Nat.le_of_not_lt short)
            have tag : (dataIn.drop (dataIn.length - 8)).length = kCcmTagLength := by
              rw [List.length_drop]
              exact Nat.sub_sub_self (Nat.le_of_not_lt tagged)
            rw [useBuffer_tagged (Int.ofNat_le.mpr (Nat.le_of_not_lt tagged)), Option.bind_some, result_pure, size,
              behind_drop, bytesAt_behind (Nat.sub_le _ _), ← tag, bytesAt_message, Aead.Cipher.unseal]
            cases ccm.decrypt key nonce (dataIn.take (dataIn.length - 8)) (dataIn.drop (dataIn.length - 8)) <;> rfl

theorem trackedDecryptNative_result (ccm : Ccm) (connectionId : Int) {message : List UInt8} (small : message.length < 2 ^ 32)
    (m : Connections) : (trackedDecryptNative ccm connectionId (behind message) message.length).result m =
      decryptNative ccm m connectionId message := by
  rw [trackedDecryptNative, result_bind, trackedGetConnection_result, decryptNative, Option.bind_some]
  cases getConnection connectionId with
  | none => rfl
  | some i =>
    dsimp only
    rw [result_bind, slotAt_result, Option.bind_some, result_bind, untag_result, Option.bind_some, result_bind,
      toUint32_of_nat small]
    by_cases tagged : 8 ≤ message.length
    · rw [useBuffer_tagged (Int.ofNat_le.mpr tagged), Option.bind_some, result_bind, trackedDecryptData_result]
      cases opened : decryptData ccm message (decryptDataSize message.length) (m.at i).key kConnectionKeyLength
          (m.at i).rxNonce kNonceLength with
      | wraps => rfl
      | refused => rfl
      | plain plaintext =>
        simp only [Decryption.returned, Option.map_some, Option.bind_some, result_bind, putSlot_result]
        split <;> rfl
    · have untagged : message.length < 8 := Nat.lt_of_not_le tagged
      have wraps := decryptMessage_of_untagged ccm untagged (m.at i).key (m.at i).rxNonce
      rw [useBuffer_untagged (by omega)]
      rw [decryptMessage] at wraps
      rw [wraps]
      rfl

theorem trackedRecConnStep4Native_result (lib : ConnectionLib) (connectionId : Int) {message : List UInt8}
    (small : message.length < 2 ^ 32) (m : Connections) :
    (trackedRecConnStep4Native lib connectionId (some (behind message)) message.length).result m =
      recConnStep4Native lib m connectionId (some message) := by
  rw [trackedRecConnStep4Native, result_bind, trackedGetConnection_result, Option.bind_some]
  cases slot : getConnection connectionId with
  | none => simp only [recConnStep4Native, receiveSuccess, slot, result_pure]
  | some i =>
    simp only [recConnStep4Native, receiveSuccess, slot]
    rw [result_bind, untag_result, Option.bind_some, result_bind, toUint32_of_nat small]
    by_cases tagged : 8 ≤ message.length
    · rw [useBuffer_tagged (Int.ofNat_le.mpr tagged), Option.bind_some, result_bind, slotAt_result, Option.bind_some,
        result_bind, trackedDecryptData_result, ← decryptMessage]
      cases decryptMessage lib.ccm message (m.at i).key (m.at i).rxNonce <;> rfl
    · have untagged : message.length < 8 := Nat.lt_of_not_le tagged
      rw [useBuffer_untagged (by omega), decryptMessage_of_untagged lib.ccm untagged]
      rfl

theorem trackedRecConnStep4Native_null (lib : ConnectionLib) (connectionId messageLen : Int) (m : Connections) :
    (trackedRecConnStep4Native lib connectionId none messageLen).result m =
      recConnStep4Native lib m connectionId none := by
  rw [trackedRecConnStep4Native, result_bind, trackedGetConnection_result, Option.bind_some]
  cases slot : getConnection connectionId <;> simp only [recConnStep4Native, receiveSuccess, slot, result_pure]

theorem trackedDecryptClientData_result (lib : PairingLib) (server : PairingServer) (dataIn : List UInt8) (m : Connections) :
    (trackedDecryptClientData lib.ccm server (behind dataIn) dataIn.length (igDecryptDataSize dataIn.length)).result m =
      (decryptClientData lib server dataIn).returned.map fun out => (m, out) :=
  trackedDecryptData_result lib.ccm dataIn _ _ _ _ _ m

end Bridge
