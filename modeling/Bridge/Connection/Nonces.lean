import Mathlib.Data.List.Nodup
import Bridge.Connection.Table
import Bridge.WifiService.Pairing
import Bridge.Cifra.Aes

namespace Bridge

variable (ccm : Ccm)

inductive Call
  | encrypt (connectionId : Int) (plain : List UInt8)
  | decrypt (connectionId : Int) (message : List UInt8)

def Call.after (m : Connections) : Call → Option Connections
  | .encrypt connectionId plain => some (encryptNative ccm m connectionId plain).1
  | .decrypt connectionId message => (decryptNative ccm m connectionId message).map Prod.fst

/-- The key and nonce that one `encryptNative` passes to `cf_ccm_encrypt`, if it gets that far. -/
def ccmInput (m : Connections) (connectionId : Int) (plain : List UInt8) : Option (Key × Nonce) :=
  (getConnection connectionId).bind fun i =>
    (encryptMessage ccm plain (m.at i).key (m.at i).txNonce).map fun _ => ((m.at i).key, (m.at i).txNonce)

def encryptions (c : Int) : Connections → List Call → List (Key × Nonce)
  | _, [] => []
  | m, call :: rest =>
    let used := match call with
      | .encrypt connectionId plain => if connectionId = c then (ccmInput ccm m c plain).toList else []
      | .decrypt _ _ => []
    used ++ match call.after ccm m with
      | none => []
      | some m' => encryptions c m' rest

def encryptCalls (c : Int) (calls : List Call) : Nat :=
  calls.countP fun
    | .encrypt connectionId _ => connectionId = c
    | .decrypt _ _ => false

theorem after_encrypt (m : Connections) {c connectionId : Int} {i : Nat} (plain : List UInt8)
    (found : getConnection c = some i) (other : connectionId ≠ c) :
    ((encryptNative ccm m connectionId plain).1.at i) = m.at i := by
  cases slot : getConnection connectionId with
  | none => simp [encryptNative, slot]
  | some j =>
    obtain ⟨rfl, insideJ⟩ := getConnection_some slot
    obtain ⟨rfl, insideI⟩ := getConnection_some found
    rw [encryptNative_eq ccm m insideJ, Connections.at_put_ne _ _ (by omega) (by omega)]

theorem after_decrypt (m m' : Connections) (connectionId : Int) (message : List UInt8)
    (done : (Call.decrypt connectionId message).after ccm m = some m') {i : Nat} (inside : i ≤ 32) :
    (m'.at i).key = (m.at i).key ∧ (m'.at i).txNonce = (m.at i).txNonce := by
  simp only [Call.after, Option.map_eq_some_iff] at done
  obtain ⟨⟨_, result⟩, returned, rfl⟩ := done
  cases slot : getConnection connectionId with
  | none =>
    simp only [decryptNative, slot, Option.some.injEq, Prod.mk.injEq] at returned
    simp [returned.1]
  | some j =>
    obtain ⟨rfl, insideJ⟩ := getConnection_some slot
    rw [decryptNative_eq ccm m insideJ] at returned
    split at returned
    · cases returned
    · cases returned
      exact ⟨rfl, rfl⟩
    · cases returned
      by_cases same : i = j
      · subst same
        simp
      · rw [Connections.at_put_ne _ _ same (by omega)]
        exact ⟨rfl, rfl⟩

theorem ccmInput_of_slot (m : Connections) {c : Int} {i : Nat} (found : getConnection c = some i)
    (plain : List UInt8) :
    ccmInput ccm m c plain =
      if plain.length ≤ 4096 then some ((m.at i).key, (m.at i).txNonce) else none := by
  rw [ccmInput, found, Option.bind_some, encryptMessage_eq]
  split <;> rfl

theorem encryptNative_sealed (m : Connections) (connectionId : Int) (plain : List UInt8) :
    (encryptNative ccm m connectionId plain).2 =
      (ccmInput ccm m connectionId plain).map fun input => ccm.seal input.1 input.2 plain := by
  cases found : getConnection connectionId with
  | none => simp [encryptNative, ccmInput, found]
  | some i =>
    obtain ⟨same, inside⟩ := getConnection_some found
    rw [ccmInput_of_slot ccm m found, same, encryptNative_eq ccm m inside, encryptMessage_eq]
    split
    · rfl
    · rfl

theorem encryptions_steps {c : Int} {i : Nat} (found : getConnection c = some i) (m : Connections)
    (calls : List Call) :
    ∃ steps : List Nat, steps.Pairwise (· < ·) ∧ (∀ k ∈ steps, k < encryptCalls c calls) ∧
      encryptions ccm c m calls =
        steps.map fun k => ((m.at i).key, ByteCounter.ripple^[k] (m.at i).txNonce) := by
  induction calls generalizing m with
  | nil => exact ⟨[], by simp [encryptions]⟩
  | cons call rest ih =>
    cases call with
    | encrypt connectionId plain =>
      obtain ⟨steps, increasing, below, used⟩ := ih (encryptNative ccm m connectionId plain).1
      by_cases mine : connectionId = c
      · subst mine
        obtain ⟨same, inside⟩ := getConnection_some found
        have moved : (encryptNative ccm m connectionId plain).1.at i =
            { m.at i with txNonce := incrementNonce (m.at i).txNonce } := by
          rw [same, encryptNative_eq ccm m inside, Connections.at_put_self]
        have later : (steps.map (· + 1)).map
            (fun k => ((m.at i).key, ByteCounter.ripple^[k] (m.at i).txNonce)) =
            encryptions ccm connectionId (encryptNative ccm m connectionId plain).1 rest := by
          rw [used, moved, List.map_map]
          rfl
        have shifted : (steps.map (· + 1)).Pairwise (· < ·) := by
          rw [List.pairwise_map]
          exact increasing.imp (by omega)
        by_cases short : plain.length ≤ 4096
        · refine ⟨0 :: steps.map (· + 1), ?_, ?_, ?_⟩
          · simp [shifted]
          · simpa [encryptCalls] using below
          · simp [encryptions, Call.after, ccmInput_of_slot ccm m found, short, ← later]
        · refine ⟨steps.map (· + 1), shifted, ?_, ?_⟩
          · simpa [encryptCalls] using below
          · simp [encryptions, Call.after, ccmInput_of_slot ccm m found, short, ← later]
      · refine ⟨steps, increasing, ?_, ?_⟩
        · simpa [encryptCalls, mine] using below
        · rw [after_encrypt ccm m plain found mine] at used
          simp [encryptions, Call.after, mine, used]
    | decrypt connectionId message =>
      cases done : (Call.decrypt connectionId message).after ccm m with
      | none => exact ⟨[], by simp [encryptions, done]⟩
      | some m' =>
        obtain ⟨steps, increasing, below, used⟩ := ih m'
        obtain ⟨key, nonce⟩ := after_decrypt ccm m m' connectionId message done (getConnection_some found).2
        refine ⟨steps, increasing, ?_, ?_⟩
        · simpa [encryptCalls] using below
        · rw [key, nonce] at used
          simp [encryptions, done, used]

/-- No key and nonce pair is used twice on a connection before its transmit nonce has gone around: the
    pairs under which `encryptNative` has sealed what it returns. Both counters of the bridge step by one
    modulo `2 ^ 96`. -/
theorem encryption_nonces_distinct (c : Int) (m : Connections) (calls : List Call)
    (few : encryptCalls c calls < 2 ^ 96) :
    (encryptions ccm c m calls).Nodup ∧
      (∀ (table : Connections) (connectionId : Int) (plain : List UInt8),
        (encryptNative ccm table connectionId plain).2 =
          (ccmInput ccm table connectionId plain).map fun input => ccm.seal input.1 input.2 plain) ∧
      (∀ nonce : Nonce,
        ByteCounter.value (incrementNonce nonce) = (ByteCounter.value nonce + 1) % 2 ^ 96) ∧
      (∀ server : PairingServer,
        incrementServerNonce server = { server with serverNonce := incrementNonce server.serverNonce }) := by
  refine ⟨?_, encryptNative_sealed ccm, value_incrementNonce, fun _ => rfl⟩
  cases found : getConnection c with
  | none =>
    have unused : ∀ m, encryptions ccm c m calls = [] := by
      induction calls with
      | nil => intro m; rfl
      | cons call rest ih =>
        intro m
        have fewer : encryptCalls c rest < 2 ^ 96 := by
          refine Nat.lt_of_le_of_lt ?_ few
          simp [encryptCalls, List.countP_cons]
        cases call <;> simp [encryptions, ccmInput, found] <;> split <;> simp_all
    simp [unused]
  | some i =>
    obtain ⟨steps, increasing, below, used⟩ := encryptions_steps ccm found m calls
    have fresh : (steps.map fun k => ByteCounter.ripple^[k] (m.at i).txNonce).Nodup :=
      ByteCounter.nodup_iterates _ increasing fun k member => by
        have bound := below k member
        omega
    rw [used]
    apply List.Nodup.of_map Prod.snd
    rwa [List.map_map]

theorem encryption_nonces_distinct_three_calls :
    (encryptions Cifra.aesCcm 3 Connections.zero
      [.encrypt 3 [1], .encrypt 4 [2], .decrypt 3 (List.replicate 8 0), .encrypt 3 [1]]).Nodup ∧
      (∀ (table : Connections) (connectionId : Int) (plain : List UInt8),
        (encryptNative Cifra.aesCcm table connectionId plain).2 =
          (ccmInput Cifra.aesCcm table connectionId plain).map fun input => Cifra.aesCcm.seal input.1 input.2 plain) ∧
      (∀ nonce : Nonce,
        ByteCounter.value (incrementNonce nonce) = (ByteCounter.value nonce + 1) % 2 ^ 96) ∧
      (∀ server : PairingServer,
        incrementServerNonce server = { server with serverNonce := incrementNonce server.serverNonce }) :=
  encryption_nonces_distinct Cifra.aesCcm 3 Connections.zero _ (by decide)

end Bridge
