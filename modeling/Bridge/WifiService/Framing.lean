import Bridge.Ble.RoundTrip
import Bridge.WifiService.RecvData

namespace Bridge

def receive (recv : RecvData) (chunks : List (List UInt8 × List UInt8)) : RecvData :=
  chunks.foldl (fun recv chunk => recvData recv chunk.1 chunk.2) recv

def chunkBytes (chunks : List (List UInt8 × List UInt8)) : List UInt8 := (chunks.map Prod.fst).flatten

/-- The frame of the payload, cut for the link and given to the pairing server: every piece is
    stored, the last one finishes the frame and no earlier one does, and then the payload is there. -/
def PairingFrameRoundTrip (heap : Nat → UInt8) (prior : RecvData) (payload : List UInt8) : Prop :=
  ∃ frame, buildMsgPayload heap payload = some frame ∧
    ∀ chunks, chunks.map Prod.fst = attPieces frame →
      (∀ k, 0 < k → k ≤ chunks.length →
        (receive (resetRecvData prior) (chunks.take k)).data = some (chunkBytes (chunks.take k)) ∧
        ((receive (resetRecvData prior) (chunks.take k)).recvStatus = .finishedSuccess ↔
          k = chunks.length)) ∧
      getRecvPkgLen (receive (resetRecvData prior) chunks) = some payload.length ∧
      getPkgFromRecvData (receive (resetRecvData prior) chunks) = some payload

/-- The record of a frame whose header said `declared`, of which `stored` has come. -/
def RecvData.holding (declared : Nat × Nat × Nat) (stored : List UInt8) : RecvData where
  data := some stored
  dataLen := declared.1
  recvLen := stored.length
  nSizeByte := declared.2.1
  pkgLen := declared.2.2
  recvStatus := if stored.length = declared.1 then .finishedSuccess else .gotPrevData

theorem resetRecvData_shape (recv : RecvData) :
    (resetRecvData recv).data = none ∧ (resetRecvData recv).recvStatus = .none := by
  unfold resetRecvData freeRecvAllocData
  split
  · exact ⟨rfl, rfl⟩
  · rename_i absent
    exact ⟨by simpa using absent, rfl⟩

/-- What the `uint16_t` length of the call leaves of a write. -/
def kept (value : List UInt8) : List UInt8 := value.take (value.length % 2 ^ 16)

theorem kept_of_short {value : List UInt8} (short : value.length < 2 ^ 16) : kept value = value := by
  rw [kept, Nat.mod_eq_of_lt short, List.take_length]

theorem recvData_first {recv : RecvData} (empty : recv.data = none) (fresh : recv.recvStatus = .none)
    {value stray : List UInt8} (fits : (kept value).length ≤ (getDataLength value stray).1) :
    recvData recv value stray = .holding (getDataLength value stray) (kept value) := by
  have room : ¬(getDataLength value stray).1 < (kept value).length := by omega
  unfold kept at room ⊢
  simp only [recvData, fresh, allocRecvData, empty, Option.isSome_none, Bool.false_eq_true, if_false,
    copyData, room, List.nil_append, Nat.zero_add, isRecvFullPkg, beq_iff_eq]
  simp only [RecvData.holding]
  split
  · rfl
  · rfl

theorem recvData_next {declared : Nat × Nat × Nat} {stored : List UInt8} (open' : stored.length ≠ declared.1)
    {value : List UInt8} (stray : List UInt8) (fits : stored.length + (kept value).length ≤ declared.1) :
    recvData (.holding declared stored) value stray = .holding declared (stored ++ kept value) := by
  have room : ¬declared.1 < stored.length + (kept value).length := by omega
  unfold kept at room ⊢
  simp only [recvData, RecvData.holding, if_neg open', copyData, room, if_false, Option.getD_some,
    isRecvFullPkg, beq_iff_eq, List.length_append]
  split
  · rfl
  · rfl

theorem recvData_exceeds {declared : Nat × Nat × Nat} {stored : List UInt8} (open' : stored.length ≠ declared.1)
    {value : List UInt8} (stray : List UInt8) (exceeds : ¬stored.length + (kept value).length ≤ declared.1) :
    recvData (.holding declared stored) value stray = .holding declared stored := by
  have room : declared.1 < stored.length + (kept value).length := by omega
  unfold kept at room
  simp only [recvData, RecvData.holding, copyData, room, if_true, Option.getD_none, isRecvFullPkg,
    beq_iff_eq, open', if_false]

/-- A buffer is empty, blocked by a first write that was too long, or holds the part of a frame. -/
inductive RecvData.Shaped (part : Nat × Nat × Nat → List UInt8 → Prop) (recv : RecvData) : Prop
  | empty (status : recv.recvStatus = .none) (free : recv.data = none)
  | blocked (status : recv.recvStatus = .none) (taken : recv.data.isSome = true) (short : recv.recvLen < recv.dataLen)
  | part (declared : Nat × Nat × Nat) (stored : List UInt8) (holds : part declared stored)
      (fits : stored.length ≤ declared.1) (same : recv = .holding declared stored)

theorem getDataLength_positive (data stray : List UInt8) : 0 < (getDataLength data stray).1 := by
  unfold getDataLength
  simp only
  split <;> simp

theorem getDataLength_sum (data stray : List UInt8) :
    (getDataLength data stray).1 = (getDataLength data stray).2.1 + (getDataLength data stray).2.2 := by
  unfold getDataLength
  simp only
  split
  · exact Nat.add_comm _ _
  · exact Nat.add_comm _ _

theorem recvData_shaped {part later : Nat × Nat × Nat → List UInt8 → Prop} {recv : RecvData} (shaped : recv.Shaped part)
    (value stray : List UInt8)
    (first : recv.recvStatus = .none → recv.data = none → later (getDataLength value stray) (kept value))
    (stays : ∀ declared stored, part declared stored → later declared stored)
    (grows : ∀ declared stored, part declared stored → later declared (stored ++ kept value)) :
    (recvData recv value stray).Shaped later := by
  cases shaped with
  | empty status free =>
    by_cases fits : (kept value).length ≤ (getDataLength value stray).1
    · rw [recvData_first free status fits]
      exact .part _ _ (first status free) fits rfl
    · have room : (getDataLength value stray).1 < (value.take (value.length % 2 ^ 16)).length := Nat.lt_of_not_le fits
      simp only [recvData, status, allocRecvData, free, Option.isSome_none, Bool.false_eq_true, if_false, copyData,
        Nat.zero_add, room, if_true]
      exact .blocked rfl rfl (getDataLength_positive _ _)
  | blocked status taken short =>
    simp only [recvData, status, allocRecvData, taken, if_true]
    exact .blocked rfl taken short
  | part declared stored holds fits same =>
    subst same
    by_cases complete : stored.length = declared.1
    · have finished : recvData (.holding declared stored) value stray = .holding declared stored := by
        simp [recvData, RecvData.holding, complete]
      rw [finished]
      exact .part declared stored (stays _ _ holds) fits rfl
    · by_cases room : stored.length + (kept value).length ≤ declared.1
      · rw [recvData_next complete stray room]
        exact .part declared _ (grows _ _ holds) (by rwa [List.length_append]) rfl
      · rw [recvData_exceeds complete stray room]
        exact .part declared stored (stays _ _ holds) fits rfl

theorem receive_holding {declared : Nat × Nat × Nat} {stored : List UInt8}
    (chunks : List (List UInt8 × List UInt8)) (short : ∀ chunk ∈ chunks, chunk.1.length < 2 ^ 16)
    (filled : ∀ chunk ∈ chunks, chunk.1 ≠ []) (fits : stored.length + (chunkBytes chunks).length ≤ declared.1) :
    receive (.holding declared stored) chunks = .holding declared (stored ++ chunkBytes chunks) := by
  induction chunks generalizing stored with
  | nil => simp [receive, chunkBytes]
  | cons chunk rest ih =>
    have bytes : chunkBytes (chunk :: rest) = chunk.1 ++ chunkBytes rest := rfl
    have some : 0 < chunk.1.length := List.length_pos_iff.mpr (filled chunk (by simp))
    rw [bytes, List.length_append] at fits
    have next : recvData (.holding declared stored) chunk.1 chunk.2 = .holding declared (stored ++ chunk.1) := by
      have whole : kept chunk.1 = chunk.1 := kept_of_short (short chunk (by simp))
      rw [recvData_next (by omega) chunk.2 (by rw [whole]; omega), whole]
    have tail : receive (.holding declared (stored ++ chunk.1)) rest =
        .holding declared (stored ++ chunk.1 ++ chunkBytes rest) := by
      apply ih
      · intro other inside
        exact short other (by simp [inside])
      · intro other inside
        exact filled other (by simp [inside])
      · rw [List.length_append]
        omega
    rw [bytes, ← List.append_assoc, ← tail]
    simp only [receive, List.foldl_cons, next]

/-- What the first chunk has declared stays the length that finishes the frame. -/
def RecvData.Declares (recv : RecvData) (length : Nat) : Prop :=
  ∃ stored, recv.data = some stored ∧ recv.dataLen = length ∧ recv.recvLen = stored.length ∧
    (recv.recvStatus = .finishedSuccess → recv.recvLen = length)

theorem copyData_declares {recv recv' : RecvData} {length : Nat} (declares : recv.Declares length)
    (pending : recv.recvStatus ≠ .finishedSuccess) {data : List UInt8}
    (copied : copyData recv data = some recv') :
    recv'.Declares length ∧ recv'.recvStatus = recv.recvStatus := by
  obtain ⟨stored, held, total, counted, _⟩ := declares
  simp only [copyData, held] at copied
  split at copied
  · cases copied
  · cases copied
    refine ⟨⟨stored ++ data, rfl, total, ?_, fun finished => absurd finished pending⟩, rfl⟩
    simp [counted]

theorem recvData_declares {recv : RecvData} {length : Nat} (declares : recv.Declares length)
    (value stray : List UInt8) : (recvData recv value stray).Declares length := by
  cases status : recv.recvStatus with
  | none =>
    obtain ⟨stored, held, total, counted, _⟩ := declares
    simp only [recvData, status, allocRecvData, held, Option.isSome_some, if_true]
    exact ⟨stored, rfl, total, counted, fun finished => by simp at finished⟩
  | gotPrevData =>
    have kept : ∀ data, ((copyData recv data).getD recv).Declares length ∧
        ((copyData recv data).getD recv).recvStatus = .gotPrevData := by
      intro data
      cases copied : copyData recv data with
      | none => exact ⟨declares, status⟩
      | some after =>
        have moved := copyData_declares declares (by rw [status]; decide) copied
        exact ⟨moved.1, moved.2.trans status⟩
    obtain ⟨⟨stored, held, total, counted, finish⟩, pending⟩ := kept (value.take (value.length % 2 ^ 16))
    simp only [recvData, status, isRecvFullPkg, beq_iff_eq]
    split
    · rename_i full
      exact ⟨stored, held, total, counted, fun _ => full.trans total⟩
    · exact ⟨stored, held, total, counted, finish⟩
  | finishedSuccess | finishedError =>
    simp only [recvData, status]
    exact declares

theorem receive_declares {recv : RecvData} {length : Nat} (declares : recv.Declares length)
    (chunks : List (List UInt8 × List UInt8)) : (receive recv chunks).Declares length := by
  induction chunks generalizing recv with
  | nil => exact declares
  | cons chunk rest ih => exact ih (recvData_declares declares chunk.1 chunk.2)

theorem recvData_first_declares {recv : RecvData} (empty : recv.data = none) (fresh : recv.recvStatus = .none)
    (value stray : List UInt8) : (recvData recv value stray).Declares (getDataLength value stray).1 := by
  simp only [recvData, fresh, allocRecvData, empty, Option.isSome_none, Bool.false_eq_true, if_false]
  split
  · exact ⟨[], rfl, rfl, rfl, fun finished => by simp at finished⟩
  · rename_i after copied
    simp only [copyData] at copied
    split at copied
    · cases copied
    · cases copied
      simp only [isRecvFullPkg, beq_iff_eq]
      split
      · rename_i full
        exact ⟨_, rfl, rfl, by simp, fun _ => full⟩
      · exact ⟨_, rfl, rfl, by simp, fun finished => by simp at finished⟩

theorem getDataLength_header {value whole : List UInt8} {k : Nat} (shown : value = whole.take k)
    (header : 3 ≤ k) (sized : 3 ≤ whole.length) (stray : List UInt8) :
    getDataLength value stray = getDataLength whole [] := by
  have same : ∀ i, i < 3 → (value ++ stray).getD i 0 = (whole ++ []).getD i 0 := by
    intro i small
    rw [shown, List.append_nil, List.getD_eq_getElem?_getD, List.getD_eq_getElem?_getD,
      List.getElem?_append_left (by simp; omega), List.getElem?_take_of_lt (by omega)]
  simp only [getDataLength, same 0 (by decide), same 1 (by decide), same 2 (by decide)]

section Pieces

variable {frame : List UInt8} {chunks : List (List UInt8 × List UInt8)} (cut : chunks.map Prod.fst = attPieces frame)
include cut

theorem chunk_sized {chunk : List UInt8 × List UInt8} (inside : chunk ∈ chunks) :
    chunk.1 ≠ [] ∧ chunk.1.length ≤ 20 := by
  have piece : chunk.1 ∈ attPieces frame := cut ▸ List.mem_map_of_mem inside
  exact Pieces.cut_piece (by decide) piece

theorem chunks_length : chunks.length = Pieces.count 20 frame.length := by
  rw [← attPieces_length, ← cut, List.length_map]

theorem chunkBytes_take (k : Nat) (bound : k ≤ chunks.length) :
    chunkBytes (chunks.take k) = frame.take (20 * k) := by
  rw [chunks_length cut] at bound
  rw [chunkBytes, List.map_take, cut]
  exact Pieces.flatten_take_cut bleAttMaxBytes frame k bound

theorem receive_pieces {recv : RecvData} (empty : recv.data = none) (fresh : recv.recvStatus = .none)
    (nonempty : 0 < frame.length)
    (visible : ∀ stray, getDataLength (frame.take 20) stray = getDataLength frame [])
    (fits : frame.length ≤ (getDataLength frame []).1) {k : Nat} (started : 0 < k) (bound : k ≤ chunks.length) :
    receive recv (chunks.take k) = .holding (getDataLength frame []) (frame.take (20 * k)) := by
  have bytes := chunkBytes_take cut k bound
  have sized : ∀ chunk ∈ chunks.take k, chunk.1 ≠ [] ∧ chunk.1.length ≤ 20 :=
    fun chunk inside => chunk_sized cut (List.mem_of_mem_take inside)
  obtain ⟨rest, pieces⟩ : ∃ rest, attPieces frame = frame.take 20 :: rest :=
    Pieces.cut_cons (by decide) nonempty
  obtain ⟨⟨first, stray⟩, others, rfl⟩ : ∃ chunk others, chunks = chunk :: others := by
    rcases chunks with _ | ⟨chunk, others⟩
    · simp at bound
      omega
    · exact ⟨chunk, others, rfl⟩
  obtain ⟨j, rfl⟩ : ∃ j, k = j + 1 := ⟨k - 1, by omega⟩
  rw [pieces, List.map_cons] at cut
  obtain ⟨rfl, _⟩ := List.cons.inj cut
  have start : recvData recv (frame.take 20) stray = .holding (getDataLength (frame.take 20) stray) (frame.take 20) := by
    have whole : kept (frame.take 20) = frame.take 20 := by
      apply kept_of_short
      rw [List.length_take]
      omega
    have room : (frame.take 20).length ≤ (getDataLength (frame.take 20) stray).1 := by
      rw [visible, List.length_take]
      omega
    rw [recvData_first empty fresh (by rw [whole]; exact room), whole]
  rw [List.take_succ_cons] at bytes sized ⊢
  have whole : frame.take 20 ++ chunkBytes (others.take j) = frame.take (20 * (j + 1)) := bytes
  have counted := congrArg List.length whole
  rw [List.length_append, List.length_take, List.length_take] at counted
  have later : receive (.holding (getDataLength frame []) (frame.take 20)) (others.take j) =
      .holding (getDataLength frame []) (frame.take 20 ++ chunkBytes (others.take j)) := by
    apply receive_holding
    · intro chunk inside
      have size := (sized chunk (by simp [inside])).2
      omega
    · intro chunk inside
      exact (sized chunk (by simp [inside])).1
    · rw [List.length_take]
      omega
  rw [← whole, ← later]
  simp only [receive, List.foldl_cons, start, visible]

theorem finished_declares {recv : RecvData} (empty : recv.data = none) (fresh : recv.recvStatus = .none)
    (header : 3 ≤ frame.length)
    (stages : ∀ k, 0 < k → k ≤ chunks.length →
      (receive recv (chunks.take k)).data = some (chunkBytes (chunks.take k)) ∧
      ((receive recv (chunks.take k)).recvStatus = .finishedSuccess ↔ k = chunks.length)) :
    (getDataLength frame []).1 = frame.length := by
  have number := chunks_length cut
  have some : 0 < Pieces.count 20 frame.length := Pieces.count_positive (by decide) (by omega)
  have fits := Pieces.count_mul 20 frame.length (by decide)
  obtain ⟨held, finish⟩ := stages chunks.length (by omega) (Nat.le_refl _)
  rw [chunkBytes_take cut _ (Nat.le_refl _)] at held
  rw [List.take_length] at held finish
  rw [List.take_of_length_le (by omega)] at held
  have declares : (receive recv chunks).Declares (getDataLength frame []).1 := by
    obtain ⟨rest, pieces⟩ : ∃ rest, attPieces frame = frame.take 20 :: rest :=
      Pieces.cut_cons (by decide) (by omega)
    rcases chunks with _ | ⟨first, others⟩
    · simp at number
      omega
    · rw [pieces, List.map_cons] at cut
      obtain ⟨shown, _⟩ := List.cons.inj cut
      have start := recvData_first_declares empty fresh first.1 first.2
      rw [getDataLength_header shown (by decide) header] at start
      exact receive_declares start others
  obtain ⟨stored, same, _, counted, finished⟩ := declares
  rw [held] at same
  cases same
  have total := finished (finish.mpr rfl)
  omega

end Pieces

theorem pairing_frame_short (heap : Nat → UInt8) (prior : RecvData) (payload : List UInt8)
    (short : payload.length ≤ 254) : PairingFrameRoundTrip heap prior payload := by
  obtain ⟨empty, fresh⟩ := resetRecvData_shape prior
  have size : (UInt8.ofNat payload.length).toNat = payload.length := by
    rw [UInt8.toNat_ofNat']
    omega
  have header : ∀ rest stray, getDataLength (UInt8.ofNat payload.length :: rest) stray =
      (payload.length + 1, 1, payload.length) := by
    intro rest stray
    have plain : payload.length ≠ 255 := by omega
    simp [getDataLength, size, plain]
  refine ⟨_, build_short heap payload short, fun chunks cut => ?_⟩
  have stored := fun k => receive_pieces (k := k) cut empty fresh (by simp)
    (fun stray => by rw [List.take_succ_cons, header, header]) (by rw [header]; simp)
  simp only [header] at stored
  have number := chunks_length cut
  have fits := Pieces.count_mul 20 (payload.length + 1) (by decide)
  rw [List.length_cons] at number
  rw [← number] at fits
  constructor
  · intro k started bound
    rw [stored k started bound, chunkBytes_take cut k bound]
    refine ⟨rfl, ?_⟩
    have sofar : ((UInt8.ofNat payload.length :: payload).take (20 * k)).length = min (20 * k) (payload.length + 1) := by
      rw [List.length_take, List.length_cons]
    simp only [RecvData.holding, sofar]
    constructor
    · intro finished
      by_contra early
      have before := Pieces.mul_lt 20 (payload.length + 1) k (by omega)
      rw [if_neg (by omega)] at finished
      cases finished
    · intro last
      rw [if_pos (by omega)]
  · have last := stored chunks.length (by omega) (Nat.le_refl _)
    rw [List.take_length, List.take_of_length_le (by simpa using fits)] at last
    rw [last]
    constructor
    · rfl
    · simp [getPkgFromRecvData, RecvData.holding]

theorem pairing_frame_long (heap : Nat → UInt8) (prior : RecvData) (payload : List UInt8)
    (long : 254 < payload.length) (fits : payload.length ≤ 509) : ¬PairingFrameRoundTrip heap prior payload := by
  obtain ⟨empty, fresh⟩ := resetRecvData_shape prior
  have size : (UInt8.ofNat (payload.length - 254)).toNat = payload.length - 254 := by
    rw [UInt8.toNat_ofNat']
    omega
  intro facts
  obtain ⟨frame, built, arrives⟩ := facts
  rw [build_long heap payload long] at built
  obtain rfl := Option.some.inj built
  generalize whole : UInt8.ofNat (payload.length - 254) :: 254 :: heap 2 :: payload = frame at arrives
  have sized : frame.length = payload.length + 3 := by rw [← whole]; rfl
  have cut : ((attPieces frame).map fun piece => (piece, ([] : List UInt8))).map Prod.fst = attPieces frame := by
    rw [List.map_map]
    exact List.map_id _
  obtain ⟨stages, _⟩ := arrives _ cut
  have declared := finished_declares cut empty fresh (by omega) stages
  rw [sized, ← whole] at declared
  by_cases marker : payload.length = 509
  · simp [getDataLength, marker] at declared
    omega
  · have plain : payload.length - 254 ≠ 255 := by omega
    simp [getDataLength, size, plain] at declared
    omega

/-- The payloads that the pairing server gets are those with a header of one byte. -/
theorem pairing_frame_round_trip (heap : Nat → UInt8) (prior : RecvData) (payload : List UInt8)
    (sized : 1 ≤ payload.length ∧ payload.length ≤ 509) :
    PairingFrameRoundTrip heap prior payload ↔ payload.length ≤ 254 := by
  constructor
  · intro arrived
    by_contra long
    exact pairing_frame_long heap prior payload (by omega) sized.2 arrived
  · exact pairing_frame_short heap prior payload

theorem pairing_frame_round_trip_two_bytes : PairingFrameRoundTrip (fun _ => 0) RecvData.zero [7, 0xff] :=
  (pairing_frame_round_trip (fun _ => 0) RecvData.zero [7, 0xff] (by decide)).mpr (by decide)

theorem long_payload_refused :
    ¬PairingFrameRoundTrip (fun _ => 0) RecvData.zero (List.replicate 255 0) := by
  have size : (List.replicate 255 (0 : UInt8)).length = 255 := List.length_replicate
  exact pairing_frame_long _ _ _ (by omega) (by omega)

end Bridge
