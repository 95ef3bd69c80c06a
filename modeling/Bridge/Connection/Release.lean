import Bridge.Connection.Table
import Bridge.Cifra.Aes

namespace Bridge

variable (ccm : Ccm)

/-- What `endConnection(id)` owes the other sessions: slot `id` alone is freed and loses its
    receive nonce, and what another session encrypts or decrypts next comes out the same. -/
structure EndFrame (m : Connections) (id : Fin 32) : Prop where
  freed : (endConnection m id.val).at id.val =
    { m.at id.val with active := false, connnectionId := 0, type := .none, rxNonce := zeroNonce }
  others : ∀ j : Fin 32, j ≠ id → (endConnection m id.val).at j.val = m.at j.val
  encrypts : ∀ j : Fin 32, j ≠ id → ∀ plain,
    (encryptNative ccm (endConnection m id.val) j.val plain).2 = (encryptNative ccm m j.val plain).2
  decrypts : ∀ j : Fin 32, j ≠ id → ∀ message,
    (decryptNative ccm (endConnection m id.val) j.val message).map Prod.snd =
      (decryptNative ccm m j.val message).map Prod.snd

def freedSlot (m : Connections) (id : Fin 32) : Connections :=
  m.put id.val { m.at id.val with active := false, connnectionId := 0, type := .none }

theorem endConnection_eq (m : Connections) (id : Fin 32) :
    endConnection m id.val =
      (freedSlot m id).put 0 { (freedSlot m id).at 0 with rxNonce := zeroNonce } := by
  rw [endConnection, getConnection_of_range (by omega)]
  rfl

theorem end_first (m : Connections) :
    (endConnection m 0).at 0 =
      { m.at 0 with active := false, connnectionId := 0, type := .none, rxNonce := zeroNonce } := by
  have zeroth := endConnection_eq m 0
  rw [show ((0 : Fin 32).val : Int) = 0 from rfl] at zeroth
  rw [zeroth, Connections.at_put_self, freedSlot, show (0 : Fin 32).val = 0 from rfl, Connections.at_put_self]

theorem end_self (m : Connections) {id : Fin 32} (later : id ≠ 0) :
    (endConnection m id.val).at id.val =
      { m.at id.val with active := false, connnectionId := 0, type := .none } := by
  have second : id.val ≠ 0 := fun same => later (Fin.ext same)
  rw [endConnection_eq, Connections.at_put_ne _ _ second (by omega), freedSlot, Connections.at_put_self]

theorem end_zeroth (m : Connections) {id : Fin 32} (later : id ≠ 0) :
    (endConnection m id.val).at 0 = { m.at 0 with rxNonce := zeroNonce } := by
  have second : (0 : Nat) ≠ id.val := fun same => later (Fin.ext same.symm)
  rw [endConnection_eq, Connections.at_put_self, freedSlot, Connections.at_put_ne _ _ second (by omega)]

theorem end_other (m : Connections) (id : Fin 32) {j : Fin 32} (other : j ≠ id) (later : j ≠ 0) :
    (endConnection m id.val).at j.val = m.at j.val := by
  have second : j.val ≠ 0 := fun same => later (Fin.ext same)
  have apart : j.val ≠ id.val := fun same => other (Fin.ext same)
  rw [endConnection_eq, Connections.at_put_ne _ _ second (by omega), freedSlot,
    Connections.at_put_ne _ _ apart (by omega)]

theorem encrypt_of_slot {m m' : Connections} (j : Fin 32) (same : m'.at j.val = m.at j.val)
    (plain : List UInt8) : (encryptNative ccm m' j.val plain).2 = (encryptNative ccm m j.val plain).2 := by
  rw [encryptNative_eq ccm m' (by omega), encryptNative_eq ccm m (by omega), same]

theorem decrypt_of_slot {m m' : Connections} (j : Fin 32) (same : m'.at j.val = m.at j.val)
    (message : List UInt8) :
    (decryptNative ccm m' j.val message).map Prod.snd = (decryptNative ccm m j.val message).map Prod.snd := by
  rw [decryptNative_eq ccm m' (by omega), decryptNative_eq ccm m (by omega), same]
  cases decryptMessage ccm message (m.at j.val).key (m.at j.val).rxNonce <;> rfl

theorem EndFrame.of_slots {m : Connections} {id : Fin 32}
    (freed : (endConnection m id.val).at id.val =
      { m.at id.val with active := false, connnectionId := 0, type := .none, rxNonce := zeroNonce })
    (others : ∀ j : Fin 32, j ≠ id → (endConnection m id.val).at j.val = m.at j.val) :
    EndFrame ccm m id where
  freed := freed
  others := others
  encrypts := fun j other plain => encrypt_of_slot ccm j (others j other) plain
  decrypts := fun j other message => decrypt_of_slot ccm j (others j other) message

/-- The receive nonce that is cleared is always the one of slot 0. -/
theorem end_connection_frame (m : Connections) (id : Fin 32) :
    EndFrame ccm m id ↔
      id = 0 ∨ ((m.at 0).rxNonce = zeroNonce ∧ (m.at id.val).rxNonce = zeroNonce) := by
  by_cases first : id = 0
  · subst first
    refine ⟨fun _ => Or.inl rfl, ?_⟩
    intro _
    apply EndFrame.of_slots ccm (end_first m)
    intro j other
    exact end_other m 0 other other
  · constructor
    · intro frame
      have own := frame.freed
      have zeroth := frame.others 0 (Ne.symm first)
      rw [end_self m first] at own
      rw [show (0 : Fin 32).val = 0 from rfl, end_zeroth m first] at zeroth
      exact Or.inr ⟨(congrArg Connection.rxNonce zeroth).symm, congrArg Connection.rxNonce own⟩
    · intro cleared
      rcases cleared with same | ⟨zeroth, own⟩
      · exact absurd same first
      · apply EndFrame.of_slots ccm
        · rw [end_self m first, ← own]
        · intro j other
          by_cases head : j = 0
          · subst head
            rw [show (0 : Fin 32).val = 0 from rfl, end_zeroth m first, ← zeroth]
          · exact end_other m id other head

def secondSession : Connections :=
  Connections.zero.put 0 { Connection.zero with active := true, rxNonce := Vector.replicate 12 1 }

theorem second_session_disturbed : ¬EndFrame Cifra.aesCcm secondSession 1 := by
  intro frame
  have zeroth := congrArg Connection.rxNonce (frame.others 0 (by decide))
  rw [show (0 : Fin 32).val = 0 from rfl, end_zeroth secondSession (by decide)] at zeroth
  exact absurd zeroth (by decide +kernel)

end Bridge
