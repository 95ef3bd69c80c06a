import Bridge.Ble.Framing

namespace Bridge

/-- The frame of the payload, cut for the link and collected on the other side: the buffer becomes
    complete with the last piece and with no earlier one, and then holds the payload. -/
def FrameRoundTrip (heap : Nat → UInt8) (payload : List UInt8) : Prop :=
  ∃ frame, buildMsgPayload heap payload = some frame ∧
    (∀ k, 0 < k → k ≤ (attPieces frame).length →
      ((collect .cleared ((attPieces frame).take k)).complete = true ↔ k = (attPieces frame).length)) ∧
    (collect .cleared (attPieces frame)).message = payload

theorem build_short (heap : Nat → UInt8) (payload : List UInt8) (short : payload.length ≤ 254) :
    buildMsgPayload heap payload = some (UInt8.ofNat payload.length :: payload) := by
  have whole : resolvePayloadLen payload.length = payload.length + 1 := by
    simp [resolvePayloadLen, Nat.not_lt.mpr short]
  have oneByte : payload.length + 1 - payload.length = 1 := by omega
  have block : (((List.range (payload.length + 1)).map heap).set 0
      (UInt8.ofNat payload.length)).length = payload.length + 1 := by
    rw [List.length_set, List.length_map, List.length_range]
  simp only [buildMsgPayload, whole, oneByte, if_true]
  rw [overwrite_tail _ _ _ (by omega)]
  simp [List.range_succ_eq_map]

theorem build_long (heap : Nat → UInt8) (payload : List UInt8) (long : 254 < payload.length) :
    buildMsgPayload heap payload =
      some (UInt8.ofNat (payload.length - 254) :: 254 :: heap 2 :: payload) := by
  have whole : resolvePayloadLen payload.length = payload.length + 3 := by
    simp [resolvePayloadLen, long]
  have threeBytes : payload.length + 3 - payload.length = 3 := by omega
  have block : (List.range (payload.length + 3)).map heap =
      heap 0 :: heap 1 :: heap 2 :: (List.range payload.length).map fun i => heap (i + 3) := by
    simp [List.range_succ_eq_map]
  have plain : ¬(3 : Nat) = 1 := by decide
  simp only [buildMsgPayload, whole, threeBytes, block, plain, if_true, if_false]
  rw [overwrite_tail _ _ _ (by simp; omega)]
  simp

theorem complete_pieces (frame : List UInt8) (header : 3 ≤ frame.length) (k : Nat) (started : 0 < k)
    (bound : k ≤ (attPieces frame).length) :
    (collect .cleared ((attPieces frame).take k)).complete = true ↔
      (StepBuffer.open frame).stepMaxSize = min (20 * k) frame.length := by
  have empty : (StepBuffer.open frame).stepCurSize = 0 := by
    unfold StepBuffer.open
    split <;> rfl
  rw [collect_pieces frame header k started bound]
  simp [StepBuffer.complete, empty]

theorem message_pieces (frame : List UInt8) (header : 3 ≤ frame.length) :
    (collect .cleared (attPieces frame)).message =
      (frame.take (StepBuffer.open frame).stepMaxSize).drop (StepBuffer.open frame).nSizeByte := by
  have positive : 0 < (attPieces frame).length := by
    rw [attPieces_length]
    exact Pieces.count_positive (by decide) (by omega)
  have all := collect_pieces frame header (attPieces frame).length positive (Nat.le_refl _)
  have fits : frame.length ≤ 20 * (attPieces frame).length := by
    rw [attPieces_length]
    exact Pieces.count_mul 20 frame.length (by decide)
  rw [List.take_length, List.take_of_length_le fits] at all
  have stored : ((StepBuffer.open frame).store frame).stepData = some frame := by
    unfold StepBuffer.open
    split <;> rfl
  rw [all, StepBuffer.message, stored]
  rfl

theorem pieces_arrive (frame payload : List UInt8) (header : 3 ≤ frame.length) :
    ((∀ k, 0 < k → k ≤ (attPieces frame).length →
        ((collect .cleared ((attPieces frame).take k)).complete = true ↔ k = (attPieces frame).length)) ∧
      (collect .cleared (attPieces frame)).message = payload) ↔
    (StepBuffer.open frame).stepMaxSize = frame.length ∧
      frame.drop (StepBuffer.open frame).nSizeByte = payload := by
  have number := attPieces_length frame
  have positive : 0 < (attPieces frame).length := by
    rw [number]
    exact Pieces.count_positive (by decide) (by omega)
  have fits := Pieces.count_mul 20 frame.length (by decide)
  rw [← number] at fits
  rw [message_pieces frame header]
  constructor
  · intro facts
    obtain ⟨completes, holds⟩ := facts
    have last := (complete_pieces frame header _ positive (Nat.le_refl _)).mp
      ((completes _ positive (Nat.le_refl _)).mpr rfl)
    rw [Nat.min_eq_right fits] at last
    refine ⟨last, ?_⟩
    rwa [last, List.take_length] at holds
  · intro facts
    obtain ⟨declared, holds⟩ := facts
    constructor
    · intro k started bound
      rw [complete_pieces frame header k started bound, declared]
      constructor
      · intro reached
        by_contra early
        have before := Pieces.mul_lt 20 frame.length k (by omega)
        omega
      · intro same
        subst same
        omega
    · rwa [declared, List.take_length]

theorem round_trip_short (heap : Nat → UInt8) (payload : List UInt8) (two : 2 ≤ payload.length)
    (short : payload.length ≤ 254) : FrameRoundTrip heap payload ↔ payload[1]? ≠ some 0xff := by
  obtain ⟨first, second, rest, rfl⟩ : ∃ first second rest, payload = first :: second :: rest := by
    rcases payload with _ | ⟨first, _ | ⟨second, rest⟩⟩
    · simp at two
    · simp at two
    · exact ⟨first, second, rest, rfl⟩
  have bound : rest.length + 1 + 1 ≤ 254 := by simpa using short
  simp only [FrameRoundTrip, build_short heap _ short, Option.some.injEq, exists_eq_left']
  rw [pieces_arrive _ _ (by simp)]
  by_cases marker : second = 0xff
  · simp [StepBuffer.open, marker]
    omega
  · simp [StepBuffer.open, marker]
    omega

theorem round_trip_single (heap : Nat → UInt8) (byte : UInt8) : ¬FrameRoundTrip heap [byte] := by
  intro facts
  obtain ⟨frame, built, _, holds⟩ := facts
  rw [build_short heap [byte] (by simp)] at built
  cases built
  have onePiece : attPieces [UInt8.ofNat [byte].length, byte] = [[UInt8.ofNat [byte].length, byte]] := by
    simp [attPieces, Pieces.cut, Pieces.count, bleAttMaxBytes]
  rw [onePiece] at holds
  exact absurd holds (by simp [collect, saveMessageData, StepBuffer.message, StepBuffer.cleared])

theorem round_trip_long (heap : Nat → UInt8) (payload : List UInt8) (long : 254 < payload.length)
    (fits : payload.length ≤ 509) : ¬FrameRoundTrip heap payload := by
  have size : (UInt8.ofNat (payload.length - 254)).toNat = payload.length - 254 := by
    rw [UInt8.toNat_ofNat']
    omega
  simp only [FrameRoundTrip, build_long heap _ long, Option.some.injEq, exists_eq_left']
  rw [pieces_arrive _ _ (by simp)]
  intro facts
  obtain ⟨declared, _⟩ := facts
  by_cases marker : heap 2 = 0xff
  · simp [StepBuffer.open, marker, size] at declared
    omega
  · simp [StepBuffer.open, marker, size] at declared
    omega

/-- The payloads that survive the link are those of 2 to 254 bytes whose second byte is not taken
    for the marker of a long frame. -/
theorem frame_round_trip (heap : Nat → UInt8) (payload : List UInt8)
    (sized : 1 ≤ payload.length ∧ payload.length ≤ 509) :
    FrameRoundTrip heap payload ↔
      2 ≤ payload.length ∧ payload.length ≤ 254 ∧ payload[1]? ≠ some 0xff := by
  by_cases long : 254 < payload.length
  · have lost := round_trip_long heap payload long sized.2
    constructor
    · intro arrived
      exact absurd arrived lost
    · intro facts
      obtain ⟨_, short, _⟩ := facts
      omega
  · by_cases two : 2 ≤ payload.length
    · rw [round_trip_short heap payload two (by omega)]
      constructor
      · intro plain
        exact ⟨two, by omega, plain⟩
      · intro facts
        obtain ⟨_, _, plain⟩ := facts
        exact plain
    · obtain ⟨byte, rfl⟩ : ∃ byte, payload = [byte] := List.length_eq_one_iff.mp (by omega)
      constructor
      · intro arrived
        exact absurd arrived (round_trip_single heap byte)
      · intro facts
        obtain ⟨several, _⟩ := facts
        exact absurd several (by simp)

theorem frame_round_trip_two_bytes : FrameRoundTrip (fun _ => 0) [7, 8] :=
  (frame_round_trip (fun _ => 0) [7, 8] (by decide)).mpr (by decide)

theorem marker_payload_lost :
    ¬FrameRoundTrip (fun _ => 0) [7, 0xff] ∧ ¬FrameRoundTrip (fun _ => 0) (List.replicate 255 0) := by
  constructor
  · rw [round_trip_short _ _ (by decide) (by decide)]
    decide
  · have size : (List.replicate 255 (0 : UInt8)).length = 255 := List.length_replicate
    exact round_trip_long _ _ (by omega) (by omega)

end Bridge
