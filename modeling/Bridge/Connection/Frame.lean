import Bridge.Connection.Handshake

namespace Bridge

structure Touches (i : Nat) (m m' : Connections) : Prop where
  others : ∀ j, j ≤ 32 → j ≠ i → m'.at j = m.at j
  key : (m'.at i).key = (m.at i).key

theorem Touches.refl (i : Nat) (m : Connections) : Touches i m m := ⟨fun _ _ _ => rfl, rfl⟩

theorem Touches.trans {i : Nat} {m m' m'' : Connections} (first : Touches i m m')
    (second : Touches i m' m'') : Touches i m m'' where
  others := fun j inside other => (second.others j inside other).trans (first.others j inside other)
  key := second.key.trans first.key

theorem Touches.put {i : Nat} (m : Connections) (inside : i ≤ 32) (connection : Connection)
    (key : connection.key = (m.at i).key) : Touches i m (m.put i connection) where
  others := by
    intro j bound other
    rw [Connections.at_put_ne _ _ other (by omega)]
  key := by rw [Connections.at_put_self, key]

theorem Touches.key_at {i : Nat} {m m' : Connections} (touches : Touches i m m') {j : Nat} (inside : j ≤ 32) :
    (m'.at j).key = (m.at j).key := by
  by_cases same : j = i
  · subst same
    exact touches.key
  · rw [touches.others j inside same]

theorem put_key {i j : Nat} (m : Connections) (connection : Connection) (inside : i ≤ 32) (bound : j ≤ 32)
    (key : connection.key = (m.at i).key) : ((m.put i connection).at j).key = (m.at j).key :=
  (Touches.put m inside connection key).key_at bound

theorem encryptNative_touches (ccm : Ccm) (m : Connections) {i : Nat} (inside : i ≤ 32) (plain : List UInt8) :
    Touches i m (encryptNative ccm m i plain).1 := by
  rw [encryptNative_eq ccm m inside]
  exact .put m inside _ rfl

theorem decryptNative_touches (ccm : Ccm) {m m' : Connections} {i : Nat} (inside : i ≤ 32)
    {message : List UInt8} {plain : Option (List UInt8)}
    (done : decryptNative ccm m i message = some (m', plain)) : Touches i m m' := by
  rw [decryptNative_eq ccm m inside] at done
  split at done
  · cases done
  · cases done
    exact .refl i m
  · cases done
    exact .put m inside _ rfl

theorem receiveSuccess_touches (ccm : Ccm) (success : List UInt8 → Bool) {m m' : Connections} {i : Nat}
    (inside : i ≤ 32) {message : Option (List UInt8)} {passed : Bool}
    (done : receiveSuccess ccm success m i message = some (m', passed)) : Touches i m m' := by
  simp only [receiveSuccess, getConnection_of_range inside] at done
  cases message with
  | none =>
    cases done
    exact .refl i m
  | some bytes =>
    simp only at done
    split at done
    · cases done
    · cases done
      exact .put m inside _ rfl
    · cases done
      exact .put m inside _ rfl

theorem receiveSuccess_passed (ccm : Ccm) (success : List UInt8 → Bool) {m m' : Connections} {i : Nat}
    (inside : i ≤ 32) {message : Option (List UInt8)}
    (done : receiveSuccess ccm success m i message = some (m', true)) :
    ∃ bytes plain, message = some bytes ∧
      decryptMessage ccm bytes (m.at i).key (m.at i).rxNonce = .plain plain ∧ success plain = true := by
  simp only [receiveSuccess, getConnection_of_range inside] at done
  cases message with
  | none => cases done
  | some bytes =>
    simp only at done
    cases opened : decryptMessage ccm bytes (m.at i).key (m.at i).rxNonce with
    | wraps =>
      rw [opened] at done
      cases done
    | refused =>
      rw [opened] at done
      cases done
    | plain plain =>
      rw [opened] at done
      exact ⟨bytes, plain, rfl, opened, congrArg Prod.snd (Option.some.inj done)⟩

theorem genConnStep3Native_touches (lib : ConnectionLib) (m : Connections) {i : Nat} (inside : i ≤ 32)
    (message : Option (List UInt8)) : Touches i m (genConnStep3Native lib m i message).1 := by
  simp only [genConnStep3Native, getConnection_of_range inside]
  cases message with
  | none => exact .refl i m
  | some bytes =>
    simp only
    split
    · exact .refl i m
    · split
      · exact .put m inside _ rfl
      · refine Touches.trans ?_ (.put _ inside _ rfl)
        exact .put m inside _ rfl

theorem genConnStep3Native_zero_touches (lib : ConnectionLib) (m : Connections)
    (message : Option (List UInt8)) : Touches 0 m (genConnStep3Native lib m 0 message).1 :=
  genConnStep3Native_touches lib m (i := 0) (by omega) message

theorem endConnection_key (m : Connections) (connectionId : Int) {j : Nat} (inside : j ≤ 32) :
    ((endConnection m connectionId).at j).key = (m.at j).key := by
  cases slot : getConnection connectionId with
  | none => simp [endConnection, slot]
  | some i =>
    obtain ⟨_, bound⟩ := getConnection_some slot
    simp only [endConnection, slot]
    refine (put_key _ _ (by omega) inside ?_).trans (put_key m _ bound inside ?_)
    · rfl
    · rfl

end Bridge
