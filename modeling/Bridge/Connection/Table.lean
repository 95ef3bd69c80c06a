import Bridge.Connection.Encryption

namespace Bridge

def kMaxConnections : Nat := 32

def errorConnectionId : Int := -1

inductive ConnectionType
  | none
  | admin
  | guest
deriving DecidableEq, Repr

structure Connection where
  active : Bool
  connnectionId : Int
  type : ConnectionType
  txNonce : Nonce
  rxNonce : Nonce
  key : Key
deriving DecidableEq, Repr

def zeroNonce : Nonce := Vector.replicate 12 0

def Connection.zero : Connection where
  active := false
  connnectionId := 0
  type := .none
  txNonce := zeroNonce
  rxNonce := zeroNonce
  key := Vector.replicate 16 0

/-- The static table, and the storage right after it that `connections_[kMaxConnections]` names:
    the range checks of the source let that index through. -/
structure Connections where
  connections_ : Vector Connection 32
  past : Connection
deriving DecidableEq, Repr

def Connections.zero : Connections := ⟨Vector.replicate 32 Connection.zero, Connection.zero⟩

def Connections.at (m : Connections) (i : Nat) : Connection :=
  if inside : i < 32 then m.connections_[i] else m.past

def Connections.put (m : Connections) (i : Nat) (connection : Connection) : Connections :=
  if inside : i < 32 then { m with connections_ := m.connections_.set i connection }
  else { m with past := connection }

/-- libc's generator: `rand seed k` is the `k`-th value that `rand()` returns after `srand(seed)`. -/
structure Libc where
  rand : Nat → Nat → Nat

def generateRandomNonce (libc : Libc) (time : Int) (nonceLength : Nat) : Vector UInt8 nonceLength :=
  Vector.ofFn fun i => UInt8.ofNat (libc.rand (time % 2 ^ 32).toNat i.val % 256)

def copyKey (jKey : List UInt8) : Key := Vector.ofFn fun i => jKey.getD i.val 0

def Connections.firstFree (m : Connections) : Option (Fin 32) :=
  (List.finRange 32).find? fun i => !(m.at i.val).active

def beginConnection (libc : Libc) (time : Int) (m : Connections) (type : ConnectionType)
    (jKey : List UInt8) (keyLen : Int) : Connections × Int :=
  match m.firstFree with
  | none => (m, errorConnectionId)
  | some i =>
    let taken := { m.at i.val with active := true, connnectionId := i.val, type := type }
    if keyLen ≠ kConnectionKeyLength then (m.put i.val taken, errorConnectionId)
    else
      (m.put i.val { taken with
        key := copyKey jKey
        rxNonce := generateRandomNonce libc time kNonceLength }, i.val)

def getConnection (connectionId : Int) : Option Nat :=
  if connectionId > kMaxConnections ∨ connectionId < 0 then none else some connectionId.toNat

def endConnection (m : Connections) (connectionId : Int) : Connections :=
  match getConnection connectionId with
  | none => m
  | some i =>
    let freed := m.put i { m.at i with active := false, connnectionId := 0, type := .none }
    -- memset(connections_->rxNonce, 0, ...): the array name designates its first element
    freed.put 0 { freed.at 0 with rxNonce := zeroNonce }

/-- `none` where the C function returns 0. -/
def encryptNative (ccm : Ccm) (m : Connections) (connectionId : Int) (jPlaintext : List UInt8) :
    Connections × Option (List UInt8) :=
  match getConnection connectionId with
  | none => (m, none)
  | some i =>
    let connection := m.at i
    let messageLen := encryptDataSize jPlaintext.length
    let retval := encryptData ccm jPlaintext messageLen connection.key kConnectionKeyLength
      connection.txNonce kNonceLength
    let m := m.put i { connection with txNonce := incrementNonce connection.txNonce }
    match retval with
    | none => (m, none)
    | some messageBytes =>
      if messageBytes.length = 0 ∨ messageBytes.length ≠ messageLen then (m, none)
      else (m, some messageBytes)

/-- The outer `none` is a call whose length computation wraps. -/
def decryptNative (ccm : Ccm) (m : Connections) (connectionId : Int) (jMessage : List UInt8) :
    Option (Connections × Option (List UInt8)) :=
  match getConnection connectionId with
  | none => some (m, none)
  | some i =>
    let connection := m.at i
    let plaintextLen := decryptDataSize jMessage.length
    match decryptData ccm jMessage plaintextLen connection.key kConnectionKeyLength
        connection.rxNonce kNonceLength with
    | .wraps => none
    | .refused => some (m, none)
    | .plain plaintext =>
      let m := m.put i { connection with rxNonce := incrementNonce connection.rxNonce }
      if plaintext.length = 0 ∨ plaintext.length ≠ plaintextLen then some (m, none)
      else some (m, some plaintext)

@[simp] theorem Connections.at_put_self (m : Connections) (i : Nat) (connection : Connection) :
    (m.put i connection).at i = connection := by
  unfold Connections.put Connections.at
  split <;> simp

theorem Connections.at_put_ne (m : Connections) {i j : Nat} (connection : Connection) (other : j ≠ i)
    (inside : i < 32 ∨ j < 32) : (m.put i connection).at j = m.at j := by
  unfold Connections.put Connections.at
  by_cases hi : i < 32 <;> by_cases hj : j < 32
  · simp [hi, hj, Vector.getElem_set_ne, other.symm]
  · simp [hi, hj]
  · simp [hi, hj]
  · omega

theorem Connections.zero_at (i : Nat) : Connections.zero.at i = Connection.zero := by
  unfold Connections.at Connections.zero
  split
  · exact Vector.getElem_replicate _
  · rfl

theorem firstFree_some {m : Connections} {i : Fin 32} (found : m.firstFree = some i) :
    (m.at i.val).active = false := by
  have free := List.find?_some found
  simpa using free

theorem firstFree_none {m : Connections} (full : m.firstFree = none) (i : Fin 32) :
    (m.at i.val).active = true := by
  have taken := List.find?_eq_none.mp full i (List.mem_finRange i)
  simpa using taken

theorem begin_full (libc : Libc) (time : Int) {m : Connections} (type : ConnectionType) (jKey : List UInt8)
    (keyLen : Int) (full : m.firstFree = none) :
    beginConnection libc time m type jKey keyLen = (m, errorConnectionId) := by
  simp [beginConnection, full]

theorem begin_free (libc : Libc) (time : Int) {m : Connections} (type : ConnectionType) (jKey : List UInt8)
    {i : Fin 32} (found : m.firstFree = some i) :
    beginConnection libc time m type jKey kConnectionKeyLength =
      (m.put i.val { m.at i.val with
        active := true, connnectionId := i.val, type := type, key := copyKey jKey,
        rxNonce := generateRandomNonce libc time kNonceLength }, (i.val : Int)) := by
  simp [beginConnection, found]

theorem begin_refused (libc : Libc) (time : Int) {m : Connections} (type : ConnectionType)
    (jKey : List UInt8) {keyLen : Int} {i : Fin 32} (found : m.firstFree = some i)
    (other : keyLen ≠ kConnectionKeyLength) :
    beginConnection libc time m type jKey keyLen =
      (m.put i.val { m.at i.val with active := true, connnectionId := i.val, type := type },
        errorConnectionId) := by
  simp [beginConnection, found, other]

theorem begin_succeeds (libc : Libc) (time : Int) {m : Connections} (type : ConnectionType)
    (jKey : List UInt8) {keyLen : Int}
    (success : (beginConnection libc time m type jKey keyLen).2 ≠ errorConnectionId) :
    keyLen = kConnectionKeyLength ∧ ∃ i, m.firstFree = some i := by
  cases found : m.firstFree with
  | none =>
    rw [begin_full libc time type jKey keyLen found] at success
    exact absurd rfl success
  | some i =>
    by_cases proper : keyLen = kConnectionKeyLength
    · exact ⟨proper, i, rfl⟩
    · rw [begin_refused libc time type jKey found proper] at success
      exact absurd rfl success

theorem getConnection_of_range {i : Nat} (range : i ≤ 32) : getConnection (i : Int) = some i := by
  have inside : ¬((i : Int) > kMaxConnections ∨ (i : Int) < 0) := by
    unfold kMaxConnections
    omega
  rw [getConnection, if_neg inside, Int.toNat_natCast]

theorem getConnection_some {connectionId : Int} {i : Nat} (found : getConnection connectionId = some i) :
    connectionId = i ∧ i ≤ 32 := by
  unfold getConnection kMaxConnections at found
  split at found
  · cases found
  · cases found
    omega

theorem encryptNative_eq (ccm : Ccm) (m : Connections) {i : Nat} (range : i ≤ 32)
    (plain : List UInt8) :
    encryptNative ccm m i plain =
      (m.put i { m.at i with txNonce := incrementNonce (m.at i).txNonce },
        encryptMessage ccm plain (m.at i).key (m.at i).txNonce) := by
  simp only [encryptNative, getConnection_of_range range]
  cases sealed : encryptMessage ccm plain (m.at i).key (m.at i).txNonce with
  | none => simp [encryptMessage] at sealed; simp [sealed]
  | some messageBytes =>
    have whole : messageBytes.length = encryptDataSize plain.length ∧ messageBytes.length ≠ 0 := by
      rw [encryptMessage_eq] at sealed
      split at sealed
      · cases sealed
        rw [encryptDataSize_of_short (by assumption), ccm.seal_length]
        omega
      · cases sealed
    simp [encryptMessage] at sealed
    simp [sealed, whole.1, whole.1 ▸ whole.2]

/-- `decryptNative` moves the receive nonce exactly when the message authenticates; an empty
    plaintext is then still reported as a failure. -/
theorem decryptNative_eq (ccm : Ccm) (m : Connections) {i : Nat} (range : i ≤ 32)
    (message : List UInt8) :
    decryptNative ccm m i message =
      match decryptMessage ccm message (m.at i).key (m.at i).rxNonce with
      | .wraps => none
      | .refused => some (m, none)
      | .plain bytes =>
        some (m.put i { m.at i with rxNonce := incrementNonce (m.at i).rxNonce },
          if bytes = [] then none else some bytes) := by
  simp only [decryptNative, getConnection_of_range range]
  cases opened : decryptMessage ccm message (m.at i).key (m.at i).rxNonce with
  | wraps => simp [decryptMessage] at opened; simp [opened]
  | refused => simp [decryptMessage] at opened; simp [opened]
  | plain bytes =>
    have whole := decryptMessage_length opened
    simp only [decryptMessage] at opened
    cases bytes with
    | nil => simp [opened]
    | cons head tail =>
      rw [opened]
      simp [← whole]

end Bridge
