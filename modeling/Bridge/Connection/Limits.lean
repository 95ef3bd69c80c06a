import Bridge.Cifra.Aes
import Bridge.Connection.Accesses
import Bridge.Connection.Forgery

namespace Bridge

open Tracing Traced

theorem encryptNative_outside (ccm : Ccm) (m : Connections) {connectionId : Int}
    (outside : getConnection connectionId = none) (plain : List UInt8) :
    encryptNative ccm m connectionId plain = (m, none) := by
  simp only [encryptNative, outside]

theorem getConnection_none_iff (connectionId : Int) :
    getConnection connectionId = none ↔ connectionId < 0 ∨ 32 < connectionId := by
  unfold getConnection kMaxConnections
  split
  · rename_i outside
    exact iff_of_true rfl (by omega)
  · rename_i inside
    exact iff_of_false (by simp) (by omega)

theorem stepped_ne (m : Connections) (i : Nat) :
    m.put i { m.at i with txNonce := incrementNonce (m.at i).txNonce } ≠ m := by
  intro same
  have slot := congrArg (fun table => (table.at i).txNonce) same
  simp only [Connections.at_put_self] at slot
  exact incrementNonce_ne _ slot

/-- A failed encryption leaves the table as it was exactly if the connection id is refused or the message
    is not too long. -/
theorem failed_encryption_keeps_iff (ccm : Ccm) (m : Connections) (connectionId : Int) (plain : List UInt8) :
    ((encryptNative ccm m connectionId plain).2 = none → (encryptNative ccm m connectionId plain).1 = m) ↔
      (connectionId < 0 ∨ 32 < connectionId) ∨ plain.length ≤ 4096 := by
  rw [← getConnection_none_iff]
  cases slot : getConnection connectionId with
  | none =>
    rw [encryptNative_outside ccm m slot]
    exact iff_of_true (fun _ => rfl) (.inl rfl)
  | some i =>
    rcases getConnection_some slot with ⟨rfl, inside⟩
    rw [encryptNative_eq ccm m inside, encryptMessage_eq]
    by_cases short : plain.length ≤ 4096
    · rw [if_pos short]
      exact iff_of_true (fun failed => by cases failed) (.inr short)
    · rw [if_neg short]
      apply iff_of_false
      · exact fun keeps => stepped_ne m i (keeps rfl)
      · exact fun refused => refused.elim (fun outside => by cases outside) short

theorem long_message_moves_nonce :
    (encryptNative Cifra.aesCcm .zero 0 (List.replicate 4097 0)).2 = none ∧
      ((encryptNative Cifra.aesCcm .zero 0 (List.replicate 4097 0)).1.at 0).txNonce ≠ (Connections.zero.at 0).txNonce := by
  have long : ¬(List.replicate 4097 (0 : UInt8)).length ≤ 4096 := by
    rw [List.length_replicate]
    decide
  have moved := encryptNative_eq Cifra.aesCcm .zero (Nat.zero_le 32) (List.replicate 4097 0)
  rw [encryptMessage_eq, if_neg long] at moved
  change encryptNative Cifra.aesCcm .zero 0 (List.replicate 4097 0) = _ at moved
  rw [moved]
  refine ⟨rfl, ?_⟩
  rw [Connections.at_put_self]
  exact incrementNonce_ne (Connections.zero.at 0).txNonce

inductive ConnectionCall
  | getConnection (connectionId : Int32)
  | endConnection (connectionId : Int32)
  | encryptNative (connectionId : Int32) (jPlaintext : Nat → UInt8) (plaintextLen : Int32)
  | decryptNative (connectionId : Int32) (jMessage : Nat → UInt8) (messageLen : Int32)
  | recConnStep4Native (connectionId : Int32) (messageBytes : Option (Nat → UInt8)) (messageLen : Int32)
  | decryptData (dataIn : Nat → UInt8) (dataInLen dataOutLen : UInt32) (key : Key) (keyLen : UInt32) (nonce : Nonce)
      (nonceLen : UInt32)
  | decryptClientData (server : PairingServer) (dataIn : Nat → UInt8) (dataInLen dataOutLen : UInt32)

/-- What a call touches in a state of the table. -/
def ConnectionCall.accesses (lib : ConnectionLib) (m : Connections) : ConnectionCall → List Access
  | .getConnection connectionId => (trackedGetConnection connectionId.toInt).events m
  | .endConnection connectionId => (trackedEndConnection connectionId.toInt).events m
  | .encryptNative connectionId jPlaintext plaintextLen =>
    (trackedEncryptNative lib.ccm connectionId.toInt jPlaintext plaintextLen.toInt).events m
  | .decryptNative connectionId jMessage messageLen =>
    (trackedDecryptNative lib.ccm connectionId.toInt jMessage messageLen.toInt).events m
  | .recConnStep4Native connectionId messageBytes messageLen =>
    (trackedRecConnStep4Native lib connectionId.toInt messageBytes messageLen.toInt).events m
  | .decryptData dataIn dataInLen dataOutLen key keyLen nonce nonceLen =>
    (trackedDecryptData lib.ccm dataIn dataInLen.toNat dataOutLen.toNat key keyLen.toNat nonce nonceLen.toNat).events m
  | .decryptClientData server dataIn dataInLen dataOutLen =>
    (trackedDecryptClientData lib.ccm server dataIn dataInLen.toNat dataOutLen.toNat).events m

/-- The slot is one of the table, and the buffer has the length of an input without its tag. -/
def Access.Inside : Access → Prop
  | .slot i => i < 32
  | .untag _ => True
  | .buffer inputLen => 8 ≤ inputLen

def Access.Unwrapped : Access → Prop
  | .untag inputLen => 8 ≤ inputLen
  | _ => True

def ConnectionCall.Safe (lib : ConnectionLib) (m : Connections) (call : ConnectionCall) : Prop :=
  ∀ access ∈ call.accesses lib m, access.Inside

def ConnectionCall.Unwrapped (lib : ConnectionLib) (m : Connections) (call : ConnectionCall) : Prop :=
  ∀ access ∈ call.accesses lib m, access.Unwrapped

/-- The id is not 32, and an input that nothing else refuses has a tag. -/
def ConnectionCall.Limited : ConnectionCall → Prop
  | .getConnection connectionId | .endConnection connectionId | .encryptNative connectionId _ _ => connectionId.toInt ≠ 32
  | .decryptNative connectionId _ messageLen =>
    connectionId.toInt ≠ 32 ∧ (connectionId.toInt < 0 ∨ 32 < connectionId.toInt ∨ 8 ≤ messageLen.toInt)
  | .recConnStep4Native connectionId messageBytes messageLen =>
    connectionId.toInt ≠ 32 ∧
      (connectionId.toInt < 0 ∨ 32 < connectionId.toInt ∨ messageBytes.isNone ∨ 8 ≤ messageLen.toInt)
  | .decryptData _ dataInLen dataOutLen _ keyLen _ nonceLen =>
    8 ≤ dataInLen.toNat ∨ dataOutLen.toNat < decryptDataSize dataInLen.toNat ∨
      (keyLen.toNat ≠ 16 ∧ keyLen.toNat ≠ 24 ∧ keyLen.toNat ≠ 32) ∨ nonceLen.toNat ≠ kNonceLength
  | .decryptClientData _ _ dataInLen dataOutLen =>
    8 ≤ dataInLen.toNat ∨ dataOutLen.toNat < decryptDataSize dataInLen.toNat

/-- An input from which the tag length is subtracted, be it only to refuse it, has a tag. -/
def ConnectionCall.Tagged : ConnectionCall → Prop
  | .getConnection _ | .endConnection _ | .encryptNative _ _ _ => True
  | .decryptNative connectionId _ messageLen =>
    connectionId.toInt < 0 ∨ 32 < connectionId.toInt ∨ 8 ≤ messageLen.toInt
  | .recConnStep4Native connectionId messageBytes messageLen =>
    connectionId.toInt < 0 ∨ 32 < connectionId.toInt ∨ messageBytes.isNone ∨ 8 ≤ messageLen.toInt
  | .decryptData _ dataInLen _ _ _ _ _ | .decryptClientData _ _ dataInLen _ => 8 ≤ dataInLen.toNat

section Accesses

variable {access : Access} (m : Connections) (connectionId : Int)

theorem mem_getConnection :
    access ∈ (trackedGetConnection connectionId).events m ↔ ∃ i, getConnection connectionId = some i ∧ access = .slot i := by
  unfold trackedGetConnection getConnection
  split
  · simp
  · rw [events_bind_some (result_note _ _)]
    simp

theorem mem_slotAt (i : Nat) : access ∈ (slotAt i).events m ↔ access = .slot i := by
  simp [slotAt, events_bind_some (result_note _ _), events_bind_some (result_read _)]

theorem mem_putSlot (i : Nat) (connection : Connection) : access ∈ (putSlot i connection).events m ↔ access = .slot i := by
  simp [putSlot, events_bind_some (result_note _ _)]

theorem mem_untag (inputLen : Int) : access ∈ (untag inputLen).events m ↔ access = .untag inputLen := by
  simp [untag, events_bind_some (result_note _ _)]

theorem mem_useBuffer (inputLen : Int) : access ∈ (useBuffer inputLen).events m ↔ access = .buffer inputLen := by
  rw [useBuffer, events_bind_some (result_note _ _)]
  split <;> simp

theorem mem_endConnection : access ∈ (trackedEndConnection connectionId).events m ↔
    ∃ i, getConnection connectionId = some i ∧ (access = .slot i ∨ access = .slot 0) := by
  rw [trackedEndConnection, events_bind_some (trackedGetConnection_result connectionId m), List.mem_append,
    mem_getConnection]
  cases getConnection connectionId with
  | none => simp
  | some i =>
    rw [events_bind_some (slotAt_result _ _), events_bind_some (putSlot_result _ _ _), events_bind_some (slotAt_result _ _)]
    simp only [List.mem_append, mem_slotAt, mem_putSlot, Option.some.injEq, exists_eq_left']
    tauto

theorem mem_encryptNative (ccm : Ccm) (jPlaintext : Nat → UInt8) (plaintextLen : Int) :
    access ∈ (trackedEncryptNative ccm connectionId jPlaintext plaintextLen).events m ↔
      ∃ i, getConnection connectionId = some i ∧ access = .slot i := by
  rw [trackedEncryptNative, events_bind_some (trackedGetConnection_result connectionId m), List.mem_append,
    mem_getConnection]
  cases getConnection connectionId with
  | none => simp
  | some i =>
    dsimp only
    rw [events_bind_some (slotAt_result _ _), events_bind_some (putSlot_result _ _ _)]
    cases encryptData ccm (bytesAt jPlaintext (toUint32 plaintextLen)) _ (m.at i).key kConnectionKeyLength
        (m.at i).txNonce kNonceLength with
    | none => simp [mem_slotAt, mem_putSlot]
    | some messageBytes =>
      dsimp only
      split <;> simp [mem_slotAt, mem_putSlot]

/-- The guards that `decryptData` still has between its first subtraction and the tag. -/
def DecryptAdmits (dataInLen dataOutLen keyLen nonceLen : Nat) : Prop :=
  decryptDataSize dataInLen ≤ dataOutLen ∧ (keyLen = 16 ∨ keyLen = 24 ∨ keyLen = 32) ∧ nonceLen = kNonceLength

theorem mem_useBuffer_bind {α : Type} (inputLen : Int) (next : Unit → Tracked α) :
    access ∈ (useBuffer inputLen >>= next).events m ↔
      access = .buffer inputLen ∨ 8 ≤ inputLen ∧ access ∈ (next ()).events m := by
  by_cases tagged : 8 ≤ inputLen
  · rw [events_bind_some (useBuffer_tagged tagged m), List.mem_append, mem_useBuffer, and_iff_right tagged]
  · rw [events_bind_none (useBuffer_untagged (Int.lt_of_not_ge tagged) m), mem_useBuffer]
    simp [tagged]

theorem mem_decryptData (ccm : Ccm) (dataIn : Nat → UInt8) (dataInLen dataOutLen : Nat) (key : Key) (keyLen : Nat)
    (nonce : Nonce) (nonceLen : Nat) :
    access ∈ (trackedDecryptData ccm dataIn dataInLen dataOutLen key keyLen nonce nonceLen).events m ↔
      dataInLen ≤ 4096 ∧ (access = .untag dataInLen ∨
        DecryptAdmits dataInLen dataOutLen keyLen nonceLen ∧ access = .buffer dataInLen) := by
  rw [trackedDecryptData]
  by_cases short : dataInLen ≤ 4096
  · rw [if_neg (Nat.not_lt.mpr short), and_iff_right short, events_bind_some (untag_result _ _), List.mem_append, mem_untag,
      decryptDataSize_toUint32]
    by_cases admitted : DecryptAdmits dataInLen dataOutLen keyLen nonceLen
    · have known : ¬(keyLen ≠ 16 ∧ keyLen ≠ 24 ∧ keyLen ≠ 32) := by
        have := admitted.2.1
        omega
      rw [if_neg (Nat.not_lt.mpr admitted.1), if_neg known, if_neg (not_not_intro admitted.2.2),
        events_bind_some (untag_result _ _), List.mem_append, mem_untag, mem_useBuffer_bind, events_pure,
        and_iff_right admitted]
      simp only [List.not_mem_nil, and_false, or_false]
      tauto
    · rw [iff_false_intro fun found : _ ∧ _ => admitted found.1, or_false]
      apply or_iff_left
      unfold DecryptAdmits at admitted
      split
      · exact List.not_mem_nil
      · split
        · exact List.not_mem_nil
        · split
          · exact List.not_mem_nil
          · omega
  · rw [if_pos (Nat.lt_of_not_le short)]
    simp [short]

theorem toUint32_of_tagged {inputLen : Int} (tagged : 8 ≤ inputLen) (small : inputLen < 2 ^ 32) :
    ((toUint32 inputLen : Nat) : Int) = inputLen := by
  unfold toUint32
  omega

theorem mem_decryptData_int {ccm : Ccm} {dataIn : Nat → UInt8} {inputLen : Int} (tagged : 8 ≤ inputLen)
    (small : inputLen < 2 ^ 32) {dataOutLen keyLen nonceLen : Nat} {key : Key} {nonce : Nonce}
    (touched : access ∈ (trackedDecryptData ccm dataIn (toUint32 inputLen) dataOutLen key keyLen nonce nonceLen).events m) :
    access = .untag inputLen ∨ access = .buffer inputLen := by
  rw [mem_decryptData, toUint32_of_tagged tagged small] at touched
  exact touched.2.imp_right And.right

theorem mem_decryptNative (ccm : Ccm) (jMessage : Nat → UInt8) {messageLen : Int} (small : messageLen < 2 ^ 32) :
    access ∈ (trackedDecryptNative ccm connectionId jMessage messageLen).events m ↔
      ∃ i, getConnection connectionId = some i ∧
        (access = .slot i ∨ access = .untag messageLen ∨ access = .buffer messageLen) := by
  rw [trackedDecryptNative, events_bind_some (trackedGetConnection_result connectionId m), List.mem_append,
    mem_getConnection]
  cases getConnection connectionId with
  | none => simp
  | some i =>
    dsimp only
    rw [events_bind_some (slotAt_result _ _), events_bind_some (untag_result _ _), List.mem_append, List.mem_append,
      mem_slotAt, mem_untag, mem_useBuffer_bind]
    simp only [Option.some.injEq, exists_eq_left']
    constructor
    · rintro (slot | slot | length | length | ⟨tagged, later⟩)
      · exact .inl slot
      · exact .inl slot
      · exact .inr (.inl length)
      · exact .inr (.inr length)
      · rcases mem_events_bind later with inner | ⟨m', plain, _, last⟩
        · exact .inr (mem_decryptData_int m tagged small inner)
        · cases plain with
          | none => exact absurd last List.not_mem_nil
          | some plaintext =>
            left
            dsimp only at last
            rw [events_bind_some (putSlot_result _ _ _), List.mem_append, mem_putSlot] at last
            refine last.resolve_right ?_
            split <;> exact List.not_mem_nil
    · tauto

theorem mem_recConnStep4Native (lib : ConnectionLib) (messageBytes : Option (Nat → UInt8)) {messageLen : Int}
    (small : messageLen < 2 ^ 32) :
    access ∈ (trackedRecConnStep4Native lib connectionId messageBytes messageLen).events m ↔
      ∃ i, getConnection connectionId = some i ∧
        (access = .slot i ∨ messageBytes.isSome ∧ (access = .untag messageLen ∨ access = .buffer messageLen)) := by
  rw [trackedRecConnStep4Native, events_bind_some (trackedGetConnection_result connectionId m), List.mem_append,
    mem_getConnection]
  cases getConnection connectionId with
  | none => simp
  | some i =>
    cases messageBytes with
    | none => simp
    | some messageBytes =>
      dsimp only
      rw [events_bind_some (untag_result _ _), List.mem_append, mem_untag, mem_useBuffer_bind,
        events_bind_some (slotAt_result _ _), List.mem_append, mem_slotAt]
      simp only [Option.some.injEq, exists_eq_left', Option.isSome_some, true_and]
      constructor
      · rintro (slot | length | length | ⟨tagged, slot | later⟩)
        · exact .inl slot
        · exact .inr (.inl length)
        · exact .inr (.inr length)
        · exact .inl slot
        · rcases mem_events_bind later with inner | ⟨m', step4, _, last⟩
          · exact .inr (mem_decryptData_int m tagged small inner)
          · left
            rw [events_bind_some (putSlot_result _ _ _), List.mem_append, mem_putSlot] at last
            refine last.resolve_right ?_
            cases step4 <;> exact List.not_mem_nil
      · tauto

end Accesses

theorem slot_inside_iff (connectionId : Int) :
    (∀ i, getConnection connectionId = some i → i < 32) ↔ connectionId ≠ 32 := by
  cases slot : getConnection connectionId with
  | none =>
    have outside := (getConnection_none_iff connectionId).mp slot
    exact iff_of_true (fun _ found => by cases found) (by omega)
  | some i =>
    rcases getConnection_some slot with ⟨rfl, _⟩
    simp only [Option.some.injEq, forall_eq']
    omega

theorem inside_of_slot_iff (connectionId : Int) (P : Prop) :
    (∀ i, getConnection connectionId = some i → P) ↔ connectionId < 0 ∨ 32 < connectionId ∨ P := by
  rw [← or_assoc, ← getConnection_none_iff]
  cases getConnection connectionId <;> simp

theorem slots_safe_iff {connectionId : Int} {accesses : List Access}
    (touched : ∀ access, access ∈ accesses ↔ ∃ i, getConnection connectionId = some i ∧ access = .slot i) :
    ((∀ access ∈ accesses, access.Inside) ↔ connectionId ≠ 32) ∧ ∀ access ∈ accesses, access.Unwrapped := by
  simp only [touched]
  constructor
  · rw [← slot_inside_iff]
    constructor
    · exact fun inside i found => inside _ ⟨i, found, rfl⟩
    · rintro inside _ ⟨i, found, rfl⟩
      exact inside i found
  · rintro _ ⟨i, _, rfl⟩
    exact trivial

theorem lengths_safe_iff {connectionId : Int} {given : Prop} {inputLen : Int} {accesses : List Access}
    (touched : ∀ access, access ∈ accesses ↔ ∃ i, getConnection connectionId = some i ∧
      (access = .slot i ∨ given ∧ (access = .untag inputLen ∨ access = .buffer inputLen))) :
    ((∀ access ∈ accesses, access.Inside) ↔
        connectionId ≠ 32 ∧ (connectionId < 0 ∨ 32 < connectionId ∨ (given → 8 ≤ inputLen))) ∧
      ((∀ access ∈ accesses, access.Unwrapped) ↔ connectionId < 0 ∨ 32 < connectionId ∨ (given → 8 ≤ inputLen)) := by
  simp only [touched, ← inside_of_slot_iff, ← slot_inside_iff]
  refine ⟨⟨fun inside => ⟨?_, ?_⟩, ?_⟩, ?_, ?_⟩
  · exact fun i found => inside (.slot i) ⟨i, found, .inl rfl⟩
  · exact fun i found taken => inside (.buffer inputLen) ⟨i, found, .inr ⟨taken, .inr rfl⟩⟩
  · rintro ⟨slots, lengths⟩ _ ⟨i, found, rfl | ⟨taken, rfl | rfl⟩⟩
    · exact slots i found
    · exact trivial
    · exact lengths i found taken
  · exact fun unwrapped i found taken => unwrapped (.untag inputLen) ⟨i, found, .inr ⟨taken, .inl rfl⟩⟩
  · rintro lengths _ ⟨i, found, rfl | ⟨taken, rfl | rfl⟩⟩
    · exact trivial
    · exact lengths i found taken
    · exact trivial

theorem decryptData_safe_iff (ccm : Ccm) (m : Connections) (dataIn : Nat → UInt8) (dataInLen dataOutLen : Nat) (key : Key)
    (keyLen : Nat) (nonce : Nonce) (nonceLen : Nat) :
    ((∀ access ∈ (trackedDecryptData ccm dataIn dataInLen dataOutLen key keyLen nonce nonceLen).events m, access.Inside) ↔
        8 ≤ dataInLen ∨ ¬DecryptAdmits dataInLen dataOutLen keyLen nonceLen) ∧
      ((∀ access ∈ (trackedDecryptData ccm dataIn dataInLen dataOutLen key keyLen nonce nonceLen).events m,
        access.Unwrapped) ↔ 8 ≤ dataInLen) := by
  simp only [mem_decryptData]
  refine ⟨⟨fun inside => ?_, ?_⟩, fun unwrapped => ?_, ?_⟩
  · by_contra open_
    have short : dataInLen < 8 := by omega
    have tagged : (8 : Int) ≤ dataInLen := inside (.buffer dataInLen) ⟨by omega, .inr ⟨by tauto, rfl⟩⟩
    omega
  · rintro closed _ ⟨_, rfl | ⟨admitted, rfl⟩⟩
    · exact trivial
    · exact Int.ofNat_le.mpr (closed.resolve_right (not_not_intro admitted))
  · by_contra short
    have tagged : (8 : Int) ≤ dataInLen := unwrapped (.untag dataInLen) ⟨by omega, .inl rfl⟩
    omega
  · rintro tagged _ ⟨_, rfl | ⟨_, rfl⟩⟩
    · exact Int.ofNat_le.mpr tagged
    · exact trivial

theorem not_decryptAdmits_iff (dataInLen dataOutLen keyLen nonceLen : Nat) :
    ¬DecryptAdmits dataInLen dataOutLen keyLen nonceLen ↔ dataOutLen < decryptDataSize dataInLen ∨
      (keyLen ≠ 16 ∧ keyLen ≠ 24 ∧ keyLen ≠ 32) ∨ nonceLen ≠ kNonceLength := by
  unfold DecryptAdmits
  omega

theorem int32_below (n : Int32) : n.toInt < 2 ^ 32 := by
  have := n.toInt_lt
  omega

theorem end_safe_iff (m : Connections) (connectionId : Int) :
    ((∀ access ∈ (trackedEndConnection connectionId).events m, access.Inside) ↔ connectionId ≠ 32) ∧
      ((∀ access ∈ (trackedEndConnection connectionId).events m, access.Unwrapped) ↔ True) := by
  simp only [mem_endConnection]
  constructor
  · rw [← slot_inside_iff]
    constructor
    · exact fun inside i found => inside _ ⟨i, found, .inl rfl⟩
    · rintro inside _ ⟨i, found, rfl | rfl⟩
      · exact inside i found
      · exact Nat.zero_lt_succ 31
  · refine iff_of_true ?_ trivial
    rintro _ ⟨i, _, rfl | rfl⟩ <;> exact trivial

/-- In every state of the table: a call stays inside the table, and sizes and reads its buffers with the
    lengths of tagged inputs, exactly if it is within the limits; no subtraction of the tag length wraps
    exactly if its inputs are tagged. -/
theorem call_safe_iff_limited (lib : ConnectionLib) (m : Connections) (call : ConnectionCall) :
    (call.Safe lib m ↔ call.Limited) ∧ (call.Unwrapped lib m ↔ call.Tagged) := by
  cases call with
  | getConnection connectionId =>
    have safe := slots_safe_iff fun _ => mem_getConnection m connectionId.toInt
    exact ⟨safe.1, iff_of_true safe.2 trivial⟩
  | endConnection connectionId => exact end_safe_iff m connectionId.toInt
  | encryptNative connectionId jPlaintext plaintextLen =>
    have safe := slots_safe_iff fun _ => mem_encryptNative m connectionId.toInt lib.ccm jPlaintext plaintextLen.toInt
    exact ⟨safe.1, iff_of_true safe.2 trivial⟩
  | decryptNative connectionId jMessage messageLen =>
    have safe := @lengths_safe_iff connectionId.toInt True messageLen.toInt _ fun access => by
      rw [true_and]
      exact mem_decryptNative m connectionId.toInt lib.ccm jMessage (int32_below messageLen)
    rw [true_imp_iff] at safe
    exact safe
  | recConnStep4Native connectionId messageBytes messageLen =>
    have safe := lengths_safe_iff fun _ => mem_recConnStep4Native m connectionId.toInt lib messageBytes (int32_below messageLen)
    have given : (messageBytes.isSome → 8 ≤ messageLen.toInt) ↔ messageBytes.isNone ∨ 8 ≤ messageLen.toInt := by
      cases messageBytes <;> simp
    rw [given] at safe
    exact safe
  | decryptData dataIn dataInLen dataOutLen key keyLen nonce nonceLen =>
    have safe := decryptData_safe_iff lib.ccm m dataIn dataInLen.toNat dataOutLen.toNat key keyLen.toNat nonce
      nonceLen.toNat
    rw [not_decryptAdmits_iff] at safe
    exact safe
  | decryptClientData server dataIn dataInLen dataOutLen =>
    have safe := decryptData_safe_iff lib.ccm m dataIn dataInLen.toNat dataOutLen.toNat server.serverPairingAdminKey
      kConnectionKeyLength server.serverNonce kNonceLength
    have known : (kConnectionKeyLength ≠ 16 ∧ kConnectionKeyLength ≠ 24 ∧ kConnectionKeyLength ≠ 32) ∨
        kNonceLength ≠ kNonceLength ↔ False := by decide
    rw [not_decryptAdmits_iff, known, or_false] at safe
    exact safe

theorem id_32_leaves_table :
    ¬(ConnectionCall.encryptNative 32 (fun _ => 0) 1).Safe idleConnection .zero ∧
      ¬(ConnectionCall.endConnection 32).Safe idleConnection .zero ∧
      ¬(ConnectionCall.decryptNative 0 (fun _ => 0) 7).Safe idleConnection .zero ∧
      ¬(ConnectionCall.recConnStep4Native 0 (some fun _ => 0) 7).Safe idleConnection .zero ∧
      -- the caller sizes its buffer with the same difference, which has wrapped to 2^32 - 1
      ¬(ConnectionCall.decryptClientData .zero (fun _ => 0) 7 (UInt32.ofNat (igDecryptDataSize 7))).Safe idleConnection .zero := by
  refine ⟨?_, ?_, ?_, ?_, ?_⟩
  · intro safe
    have touched := (mem_encryptNative .zero 32 Cifra.aesCcm (fun _ => 0) 1).mpr ⟨32, rfl, rfl⟩
    exact absurd (safe _ touched) (Nat.lt_irrefl 32)
  · intro safe
    have touched := (mem_endConnection .zero 32).mpr ⟨32, rfl, .inl rfl⟩
    exact absurd (safe _ touched) (Nat.lt_irrefl 32)
  · intro safe
    have touched := (mem_decryptNative .zero 0 Cifra.aesCcm (fun _ => 0) (show (7 : Int) < 2 ^ 32 by decide)).mpr
      ⟨0, rfl, .inr (.inr rfl)⟩
    exact absurd (safe _ touched) (show ¬(8 : Int) ≤ 7 by decide)
  · intro safe
    have touched := (mem_recConnStep4Native .zero 0 idleConnection (some fun _ => 0)
      (show (7 : Int) < 2 ^ 32 by decide)).mpr ⟨0, rfl, .inr ⟨rfl, .inr rfl⟩⟩
    exact absurd (safe _ touched) (show ¬(8 : Int) ≤ 7 by decide)
  · intro safe
    have admitted : DecryptAdmits 7 (igDecryptDataSize 7) kConnectionKeyLength kNonceLength :=
      ⟨by decide, .inl rfl, rfl⟩
    have touched := (mem_decryptData .zero Cifra.aesCcm (fun _ => 0) 7 (igDecryptDataSize 7)
      PairingServer.zero.serverPairingAdminKey kConnectionKeyLength PairingServer.zero.serverNonce kNonceLength).mpr
      ⟨by decide, .inr ⟨admitted, rfl⟩⟩
    exact absurd (safe _ touched) (show ¬(8 : Int) ≤ 7 by decide)

end Bridge
