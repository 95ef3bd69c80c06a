import Bridge.Connection.Table
import Bridge.Cifra.Aes

namespace Bridge

variable (ccm : Ccm)

def Accepted (i : Fin 32) : Connections → List (List UInt8) → Prop
  | _, [] => True
  | sender, plain :: rest =>
    (encryptNative ccm sender i.val plain).2 ≠ none ∧
      Accepted i (encryptNative ccm sender i.val plain).1 rest

/-- The ciphertexts of connection `i`, given in order to connection `j` of the peer, come out as
    the messages sent, and the peer's receive nonce follows the sender's transmit nonce. -/
def Delivered (i j : Fin 32) : Connections → Connections → List (List UInt8) → Prop
  | _, _, [] => True
  | sender, receiver, plain :: rest =>
    ∃ message receiver',
      (encryptNative ccm sender i.val plain).2 = some message ∧
      decryptNative ccm receiver j.val message = some (receiver', some plain) ∧
      (receiver'.at j.val).rxNonce = ((encryptNative ccm sender i.val plain).1.at i.val).txNonce ∧
      Delivered i j (encryptNative ccm sender i.val plain).1 receiver' rest

structure Paired (i j : Fin 32) (sender receiver : Connections) : Prop where
  key : (receiver.at j.val).key = (sender.at i.val).key
  nonce : (receiver.at j.val).rxNonce = (sender.at i.val).txNonce

def sentState (i : Fin 32) (sender : Connections) : Connections :=
  sender.put i.val { sender.at i.val with txNonce := incrementNonce (sender.at i.val).txNonce }

def receivedState (j : Fin 32) (receiver : Connections) : Connections :=
  receiver.put j.val { receiver.at j.val with rxNonce := incrementNonce (receiver.at j.val).rxNonce }

theorem Paired.next {i j : Fin 32} {sender receiver : Connections} (paired : Paired i j sender receiver) :
    Paired i j (sentState i sender) (receivedState j receiver) := by
  constructor
  · simpa [sentState, receivedState] using paired.key
  · simp [sentState, receivedState, paired.nonce]

theorem encrypt_sent (i : Fin 32) (sender : Connections) (plain : List UInt8) :
    encryptNative ccm sender i.val plain =
      (sentState i sender, encryptMessage ccm plain (sender.at i.val).key (sender.at i.val).txNonce) :=
  encryptNative_eq ccm sender (by omega) plain

theorem accepted_iff (i : Fin 32) (sender : Connections) (messages : List (List UInt8)) :
    Accepted ccm i sender messages ↔ ∀ plain ∈ messages, plain.length ≤ 4096 := by
  induction messages generalizing sender with
  | nil => simp [Accepted]
  | cons plain rest ih =>
    simp only [Accepted, encrypt_sent, encryptMessage_eq, ih, List.forall_mem_cons]
    by_cases short : plain.length ≤ 4096 <;> simp [short]

theorem decrypt_sealed (inverts : ccm.Inverts) {i j : Fin 32} {sender receiver : Connections}
    (paired : Paired i j sender receiver) (plain : List UInt8) :
    decryptNative ccm receiver j.val
        (ccm.seal (sender.at i.val).key (sender.at i.val).txNonce plain) =
      if plain.length ≤ 4088 then
        some (receivedState j receiver, if plain = [] then none else some plain)
      else some (receiver, none) := by
  rw [decryptNative_eq ccm receiver (by omega), paired.key, paired.nonce]
  by_cases fits : plain.length ≤ 4088
  · rw [decryptMessage_of_tagged ccm (by simp) (by simp; omega), ccm.unseal_seal inverts]
    simp [fits, receivedState, paired.nonce]
  · rw [decryptMessage_of_long ccm (by simp; omega)]
    simp [fits]

theorem delivered_cons (inverts : ccm.Inverts) {i j : Fin 32} {sender receiver : Connections}
    (paired : Paired i j sender receiver) {plain : List UInt8} (short : plain.length ≤ 4096)
    (rest : List (List UInt8)) :
    Delivered ccm i j sender receiver (plain :: rest) ↔
      (0 < plain.length ∧ plain.length ≤ 4088) ∧
        Delivered ccm i j (sentState i sender) (receivedState j receiver) rest := by
  simp only [Delivered, encrypt_sent, encryptMessage_eq, short, if_true]
  constructor
  · intro facts
    obtain ⟨message, receiver', sealed, opened, _, delivered⟩ := facts
    cases sealed
    rw [decrypt_sealed ccm inverts paired] at opened
    split at opened
    · by_cases empty : plain = []
      · simp [empty] at opened
      · simp only [empty, if_false, Option.some.injEq, Prod.mk.injEq, and_true] at opened
        rw [opened]
        exact ⟨⟨List.length_pos_iff.mpr empty, by assumption⟩, delivered⟩
    · simp at opened
  · intro facts
    obtain ⟨⟨nonempty, fits⟩, delivered⟩ := facts
    have present : plain ≠ [] := List.length_pos_iff.mp nonempty
    refine ⟨_, receivedState j receiver, rfl, ?_, paired.next.nonce, delivered⟩
    rw [decrypt_sealed ccm inverts paired]
    simp [fits, present]

/-- The two ends stay in lockstep over a sequence of accepted messages exactly when every message
    has between 1 and 4088 bytes. -/
theorem channel_round_trip (inverts : ccm.Inverts) (i j : Fin 32) (sender receiver : Connections)
    (paired : Paired i j sender receiver) (messages : List (List UInt8))
    (accepted : Accepted ccm i sender messages) :
    Delivered ccm i j sender receiver messages ↔
      ∀ plain ∈ messages, 0 < plain.length ∧ plain.length ≤ 4088 := by
  induction messages generalizing sender receiver with
  | nil => simp [Delivered]
  | cons plain rest ih =>
    have short : ∀ message ∈ plain :: rest, message.length ≤ 4096 :=
      (accepted_iff ccm i sender _).mp accepted
    have acceptedRest : Accepted ccm i (sentState i sender) rest :=
      (accepted_iff ccm i _ rest).mpr fun message member => short message (by simp [member])
    rw [delivered_cons ccm inverts paired (short plain (by simp)), List.forall_mem_cons,
      ih (sentState i sender) (receivedState j receiver) paired.next acceptedRest]

theorem zero_paired : Paired 0 1 Connections.zero Connections.zero := ⟨rfl, rfl⟩

theorem channel_round_trip_two_messages :
    Delivered Cifra.aesCcm 0 1 Connections.zero Connections.zero [[1, 2, 3], [4]] :=
  (channel_round_trip Cifra.aesCcm Cifra.aesCcm_inverts 0 1 Connections.zero Connections.zero
    zero_paired [[1, 2, 3], [4]] ((accepted_iff _ _ _ _).mpr (by decide))).mpr (by decide)

theorem empty_message_not_delivered :
    Paired 0 1 Connections.zero Connections.zero ∧
      Accepted Cifra.aesCcm 0 Connections.zero [[]] ∧
      ¬Delivered Cifra.aesCcm 0 1 Connections.zero Connections.zero [[]] := by
  refine ⟨zero_paired, (accepted_iff _ _ _ _).mpr (by decide), ?_⟩
  intro delivered
  have nonempty := (delivered_cons Cifra.aesCcm Cifra.aesCcm_inverts zero_paired (by decide) []).mp delivered
  exact absurd nonempty.1.1 (by decide)

end Bridge
