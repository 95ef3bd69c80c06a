import Bridge.Ble.Pairing
import Bridge.Guest.Bounds

namespace Bridge.BlePairing

/-- The stores of the client's `save_message_data`, those of the `memcpy` into a grown block included,
    each with the size of the block that it goes to. -/
def saveMessageDataWrites (buffer : StepBuffer) (data : List UInt8) : List (Nat × Nat) :=
  let dataLength := (data.length : Int).bmod (2 ^ 32)
  if buffer.stepMaxSize = 0 ∧ dataLength < 3 then []
  else
    let buffer := if buffer.stepMaxSize = 0 then StepBuffer.open data else buffer
    let sizeLeft := ((buffer.stepMaxSize : Int) - buffer.stepCurSize).bmod (2 ^ 32)
    if sizeLeft < dataLength then
      let grown := { buffer with stepMaxSize := buffer.stepMaxSize + 85 }
      (List.range buffer.stepCurSize).map (fun j => (j, grown.stepMaxSize)) ++
        grown.writes (data.take dataLength.toNat)
    else buffer.writes (data.take dataLength.toNat)

def Run.Saves (run : Run) : Prop :=
  run.connection.pairingStep = .step1 ∨ run.connection.pairingStep = .step3

def Run.Completed (before after : Run) : Prop :=
  nextState before.connection.pairingStep = some after.connection.pairingStep ∧ after.stage = .looping true

structure Reassembly where
  run : Run
  declared : Nat
  collected : List UInt8

def Reassembly.expects (r : Reassembly) (data : List UInt8) : Nat :=
  if r.collected = [] then (StepBuffer.open data).stepMaxSize else r.declared

def Reassembly.next (r : Reassembly) (data : List UInt8) : Reassembly :=
  if r.collected.length + data.length ≤ r.expects data then
    ⟨messageHandler r.run data, r.expects data, r.collected ++ data⟩
  else { r with run := messageHandler r.run data }

structure Taken (r : Reassembly) (data : List UInt8) : Prop where
  inside : ∀ write ∈ saveMessageDataWrites r.run.connection.buffer data, write.1 < write.2
  declared : (messageHandler r.run data).connection.buffer.stepMaxSize = r.expects data
  bytes : (messageHandler r.run data).connection.buffer.stepData = some (r.collected ++ data)
  completed : r.run.Completed (messageHandler r.run data) ↔ (r.collected ++ data).length = r.expects data

def Refused (r : Reassembly) (data : List UInt8) : Prop :=
  (saveMessageData r.run.connection.buffer data).2 ≠ 0 ∧ messageHandler r.run data = r.run

/-- A notification is taken up to the declared length, and refused where it runs past. -/
def Reassembles (r : Reassembly) (data : List UInt8) : Prop :=
  r.run.Saves → if r.collected.length + data.length ≤ r.expects data then Taken r data else Refused r data

def ChunkFits (run : Run) (data : List UInt8) : Prop := run.Saves → run.connection.buffer.Holds data

def deliver (run : Run) (data : List UInt8) : Option Run := some (messageHandler run data)

def recordDelivered (r : Reassembly) (data : List UInt8) : Option Reassembly := some (r.next data)

structure Collects (r : Reassembly) : Prop where
  started : r.collected ≠ []
  buffer : r.run.Saves → r.run.connection.buffer.stepMaxSize = r.declared ∧
    r.run.connection.buffer.stepCurSize = r.collected.length ∧
    r.run.connection.buffer.stepData = some r.collected
  short : r.declared < 2 ^ 31
  within : r.collected.length ≤ r.declared

theorem open_short (data : List UInt8) : (StepBuffer.open data).stepMaxSize < 2 ^ 31 := by
  have low := (data.getD 0 0).toNat_lt
  have high := (data.getD 1 0).toNat_lt
  unfold StepBuffer.open
  split <;> simp only <;> omega

theorem bmod_short {n : Nat} (short : n < 2 ^ 31) : (n : Int).bmod (2 ^ 32) = n :=
  Int.bmod_eq_of_le (by omega) (by omega)

theorem save_fitting {buffer : StepBuffer} {data : List UInt8} (opened : buffer.stepMaxSize ≠ 0)
    (short : buffer.stepMaxSize < 2 ^ 31) (fits : buffer.stepCurSize + data.length ≤ buffer.stepMaxSize) :
    saveMessageData buffer data = (buffer.store data, 0) ∧ saveMessageDataWrites buffer data = buffer.writes data := by
  have left : ((buffer.stepMaxSize : Int) - buffer.stepCurSize).bmod (2 ^ 32) =
      (buffer.stepMaxSize : Int) - buffer.stepCurSize := Int.bmod_eq_of_le (by omega) (by omega)
  have enough : ¬(buffer.stepMaxSize : Int) - buffer.stepCurSize < data.length := by omega
  have length : data.length < 2 ^ 31 := by omega
  constructor
  · simp [-Nat.reducePow, saveMessageData, bmod_short length, left, enough, opened]
  · simp [-Nat.reducePow, saveMessageDataWrites, bmod_short length, left, enough, opened]

theorem save_first {data : List UInt8} (header : 3 ≤ data.length)
    (fits : data.length ≤ (StepBuffer.open data).stepMaxSize) :
    saveMessageData .cleared data = ((StepBuffer.open data).store data, 0) ∧
      saveMessageDataWrites .cleared data = (StepBuffer.open data).writes data := by
  have short := open_short data
  have opened := save_fitting (Nat.ne_of_gt (open_positive data)) short (by rwa [open_curSize, Nat.zero_add])
  have length : data.length < 2 ^ 31 := by omega
  have long : ¬(data.length : Int) < 3 := by omega
  have nonzero : (StepBuffer.open data).stepMaxSize ≠ 0 := Nat.ne_of_gt (open_positive data)
  have same : saveMessageData .cleared data = saveMessageData (StepBuffer.open data) data := by
    simp [-Nat.reducePow, saveMessageData, StepBuffer.cleared, bmod_short length, long, nonzero]
  have stores : saveMessageDataWrites .cleared data = saveMessageDataWrites (StepBuffer.open data) data := by
    simp [-Nat.reducePow, saveMessageDataWrites, StepBuffer.cleared, bmod_short length, long, nonzero]
  exact ⟨same.trans opened.1, stores.trans opened.2⟩

/-- The listed stores are those of the function: none where it refuses the chunk, else those that fill
    the block which it returns, after the bytes that have moved into a grown one. -/
theorem saveMessageData_stores (buffer : StepBuffer) (data : List UInt8) :
    (saveMessageData buffer data = (buffer, 1) ∧ saveMessageDataWrites buffer data = []) ∨
      ∃ (block : StepBuffer) (moved : Nat) (chunk : List UInt8),
        saveMessageData buffer data = (block.store chunk, 0) ∧ (moved = 0 ∨ moved = block.stepCurSize) ∧
        saveMessageDataWrites buffer data =
          (List.range moved).map (fun j => (j, block.stepMaxSize)) ++ block.writes chunk := by
  by_cases refused : buffer.stepMaxSize = 0 ∧ (data.length : Int).bmod (2 ^ 32) < 3
  · simp only [saveMessageData, saveMessageDataWrites, if_pos refused, true_and, true_or]
  · simp only [saveMessageData, saveMessageDataWrites, if_neg refused]
    right
    generalize (if buffer.stepMaxSize = 0 then StepBuffer.open data else buffer) = opened
    by_cases grown : ((opened.stepMaxSize : Int) - opened.stepCurSize).bmod (2 ^ 32) < (data.length : Int).bmod (2 ^ 32)
    · rw [if_pos grown, if_pos grown]
      exact ⟨{ opened with stepMaxSize := opened.stepMaxSize + 85 }, opened.stepCurSize,
        data.take ((data.length : Int).bmod (2 ^ 32)).toNat, rfl, .inr rfl, rfl⟩
    · rw [if_neg grown, if_neg grown]
      exact ⟨opened, 0, data.take ((data.length : Int).bmod (2 ^ 32)).toNat, rfl, .inl rfl, (List.nil_append _).symm⟩

theorem messageHandler_saved {run : Run} (saves : run.Saves) (data : List UInt8) :
    (messageHandler run data).connection.buffer = (saveMessageData run.connection.buffer data).1 ∧
      (run.Completed (messageHandler run data) ↔ (saveMessageData run.connection.buffer data).1.complete = true) := by
  have handled : ∃ reached, nextState run.connection.pairingStep = some reached ∧
      nextState run.connection.pairingStep ≠ some run.connection.pairingStep ∧
      messageHandler run data = handleStepMessage reached run data := by
    rcases saves with step | step
    · exact ⟨.step2, by simp [step, nextState], by simp [step, nextState],
        by simp [messageHandler, step, handleStep2Message]⟩
    · exact ⟨.step4, by simp [step, nextState], by simp [step, nextState],
        by simp [messageHandler, step, handleStep4Message]⟩
  rcases handled with ⟨reached, row, moved, handled⟩
  rw [handled]
  unfold handleStepMessage
  cases complete : (saveMessageData run.connection.buffer data).1.complete with
  | true =>
    simp only [Run.setBuffer, complete, if_true]
    exact ⟨rfl, iff_of_true ⟨row, rfl⟩ trivial⟩
  | false =>
    simp only [Run.setBuffer, complete, Bool.false_eq_true, if_false]
    exact ⟨trivial, iff_of_false (fun completed => moved completed.1) id⟩

theorem messageHandler_unsaved {run : Run} (idle : ¬run.Saves) (data : List UInt8) : messageHandler run data = run := by
  unfold messageHandler
  cases step : run.connection.pairingStep with
  | step1 => exact absurd (.inl step) idle
  | step3 => exact absurd (.inr step) idle
  | begin | step2 | step4 | commit | done => rfl

structure Stored (r : Reassembly) (data : List UInt8) (block : StepBuffer) : Prop where
  saved : saveMessageData r.run.connection.buffer data = (block.store data, 0)
  stores : saveMessageDataWrites r.run.connection.buffer data = block.writes data
  size : block.stepMaxSize = r.expects data
  count : block.stepCurSize = r.collected.length
  bytes : block.stepData = some r.collected
  fits : r.collected.length + data.length ≤ r.expects data

theorem Stored.taken {r : Reassembly} {data : List UInt8} {block : StepBuffer} (stored : Stored r data block)
    (saves : r.run.Saves) : Taken r data := by
  have handled := messageHandler_saved saves data
  rw [stored.saved] at handled
  constructor
  · rw [stored.stores, writes_inside_iff block, stored.count, stored.size]
    · exact stored.fits
    · rw [StepBuffer.Within, stored.count, stored.size]
      exact Nat.le_trans (Nat.le_add_right _ _) stored.fits
  · rw [handled.1, store_maxSize, stored.size]
  · rw [handled.1]
    simp [StepBuffer.store, stored.bytes]
  · rw [handled.2, StepBuffer.complete, beq_iff_eq, store_maxSize, store_curSize, stored.size, stored.count,
      List.length_append]
    exact eq_comm

theorem Stored.collects {r : Reassembly} {data : List UInt8} {block : StepBuffer} (stored : Stored r data block)
    (saves : r.run.Saves) (short : r.expects data < 2 ^ 31) (started : r.collected ++ data ≠ []) :
    Collects (r.next data) := by
  have handled := messageHandler_saved saves data
  have taken := stored.taken saves
  rw [stored.saved] at handled
  rw [Reassembly.next, if_pos stored.fits]
  constructor
  · exact started
  · intro _
    refine ⟨taken.declared, ?_, taken.bytes⟩
    show (messageHandler r.run data).connection.buffer.stepCurSize = (r.collected ++ data).length
    rw [handled.1, store_curSize, stored.count, List.length_append]
  · exact short
  · show (r.collected ++ data).length ≤ r.expects data
    rw [List.length_append]
    exact stored.fits

theorem Collects.expects {r : Reassembly} (collects : Collects r) (data : List UInt8) : r.expects data = r.declared :=
  if_neg collects.started

theorem Collects.opened {r : Reassembly} (collects : Collects r) (saves : r.run.Saves) :
    r.run.connection.buffer.stepMaxSize ≠ 0 := by
  have some_bytes := List.length_pos_iff.mpr collects.started
  have within := collects.within
  rw [(collects.buffer saves).1]
  omega

theorem Collects.holds_iff {r : Reassembly} (collects : Collects r) (saves : r.run.Saves) (data : List UInt8) :
    r.run.connection.buffer.Holds data ↔ r.collected.length + data.length ≤ r.expects data := by
  rcases collects.buffer saves with ⟨size, count, _⟩
  rw [StepBuffer.Holds, if_neg (collects.opened saves), size, count, collects.expects data]

theorem Collects.stored {r : Reassembly} (collects : Collects r) (saves : r.run.Saves) {data : List UInt8}
    (fits : r.collected.length + data.length ≤ r.expects data) : Stored r data r.run.connection.buffer := by
  rcases collects.buffer saves with ⟨size, count, bytes⟩
  have short := collects.short
  have expects := collects.expects data
  have room : r.run.connection.buffer.stepCurSize + data.length ≤ r.run.connection.buffer.stepMaxSize := by omega
  have saved := save_fitting (collects.opened saves) (by omega) room
  exact ⟨saved.1, saved.2, size.trans expects.symm, count, bytes, fits⟩

theorem Collects.sharp {r : Reassembly} (collects : Collects r) (data : List UInt8) :
    Reassembles r data ↔ ChunkFits r.run data := by
  unfold Reassembles ChunkFits
  apply imp_congr_right
  intro saves
  rw [collects.holds_iff saves data]
  by_cases fits : r.collected.length + data.length ≤ r.expects data
  · rw [if_pos fits]
    exact iff_of_true ((collects.stored saves fits).taken saves) fits
  · rw [if_neg fits]
    apply iff_of_false _ fits
    rintro ⟨refused, _⟩
    apply refused
    simp [saveMessageData, collects.opened saves]

theorem Collects.next {r : Reassembly} (collects : Collects r) {data : List UInt8} (fits : ChunkFits r.run data) :
    Collects (r.next data) := by
  have started : r.collected ++ data ≠ [] := by simp [collects.started]
  have short := collects.short
  by_cases saves : r.run.Saves
  · apply (collects.stored saves ((collects.holds_iff saves data).mp (fits saves))).collects saves _ started
    rwa [collects.expects data]
  · have idle : ¬(messageHandler r.run data).Saves := by rwa [messageHandler_unsaved saves data]
    unfold Reassembly.next
    split
    · rename_i whole
      rw [collects.expects data] at whole ⊢
      exact ⟨started, fun saved => absurd saved idle, short, by rwa [List.length_append]⟩
    · exact ⟨collects.started, fun saved => absurd saved idle, short, collects.within⟩

def Run.reassembly (run : Run) : Reassembly := ⟨run, 0, []⟩

theorem first_stored {run : Run} (empty : run.connection.buffer = .cleared) {data : List UInt8}
    (header : 3 ≤ data.length) (fits : data.length ≤ (StepBuffer.open data).stepMaxSize) :
    Stored run.reassembly data (StepBuffer.open data) := by
  have saved := save_first header fits
  constructor
  · show saveMessageData run.connection.buffer data = _
    rw [empty, saved.1]
  · show saveMessageDataWrites run.connection.buffer data = _
    rw [empty, saved.2]
  · rfl
  · exact open_curSize data
  · unfold StepBuffer.open
    split <;> rfl
  · show 0 + data.length ≤ (StepBuffer.open data).stepMaxSize
    rwa [Nat.zero_add]

theorem first_holds_iff {run : Run} (empty : run.connection.buffer = .cleared) {data : List UInt8}
    (header : 3 ≤ data.length) :
    run.connection.buffer.Holds data ↔ data.length ≤ (StepBuffer.open data).stepMaxSize := by
  rw [empty]
  exact or_iff_right (Nat.not_lt.mpr header)

theorem first_not_refused {run : Run} (saves : run.Saves) (empty : run.connection.buffer = .cleared)
    (data : List UInt8) : ¬Refused run.reassembly data := by
  rintro ⟨refused, same⟩
  change (saveMessageData run.connection.buffer data).2 ≠ 0 at refused
  change messageHandler run data = run at same
  rw [empty] at refused
  by_cases short : (data.length : Int).bmod (2 ^ 32) < 3
  · have handled := messageHandler_saved saves data
    have closed : (saveMessageData .cleared data).1.complete = true := by
      simp [-Nat.reducePow, saveMessageData, StepBuffer.cleared, short, StepBuffer.complete]
    rw [empty, same] at handled
    have completed := (handled.2.mpr closed).1
    rcases saves with step | step
    · simp [step, nextState] at completed
    · simp [step, nextState] at completed
  · apply refused
    simp [-Nat.reducePow, saveMessageData, StepBuffer.cleared, short]

theorem first_sharp {run : Run} (saves : run.Saves) (empty : run.connection.buffer = .cleared) {data : List UInt8}
    (header : 3 ≤ data.length) : Reassembles run.reassembly data ↔ ChunkFits run data := by
  have declared : run.reassembly.expects data = (StepBuffer.open data).stepMaxSize := rfl
  have collected : run.reassembly.collected.length + data.length = data.length := Nat.zero_add _
  unfold Reassembles ChunkFits
  apply imp_congr_right
  intro _
  rw [first_holds_iff empty header, declared, collected]
  by_cases fits : data.length ≤ (StepBuffer.open data).stepMaxSize
  · rw [if_pos fits]
    exact iff_of_true ((first_stored empty header fits).taken saves) fits
  · rw [if_neg fits]
    exact iff_of_false (first_not_refused saves empty data) fits

theorem first_collects {run : Run} (saves : run.Saves) (empty : run.connection.buffer = .cleared) {data : List UInt8}
    (header : 3 ≤ data.length) (fits : ChunkFits run data) : Collects (run.reassembly.next data) := by
  have stored := first_stored empty header ((first_holds_iff empty header).mp (fits saves))
  apply stored.collects saves (open_short data)
  exact List.length_pos_iff.mp (Nat.lt_of_lt_of_le (by decide) header)

/-- A sequence of notifications is reassembled inside its block, up to the length that its header
    declares and refused behind it, exactly if none of them runs past that length. -/
theorem reassembles_iff_fits (run : Run) (waits : run.Saves) (empty : run.connection.buffer = .cleared)
    (first : List UInt8) (header : 3 ≤ first.length) (rest : List (List UInt8)) :
    Runs.Along recordDelivered Reassembles ⟨run, 0, []⟩ (first :: rest) ↔
      Runs.Along deliver ChunkFits run (first :: rest) := by
  have projected : ∀ r data, (recordDelivered r data).map Reassembly.run = deliver r.run data := by
    intro r data
    simp only [recordDelivered, deliver, Option.map_some, Reassembly.next]
    split <;> rfl
  have follows := fun collects : Collects (run.reassembly.next first) =>
    Runs.along_record_iff deliver Reassembly.run projected Collects
      (fun r data r' collects fits moved => by cases moved; exact collects.next fits)
      (fun r data collects => collects.sharp data) collects rest
  have handled : (run.reassembly.next first).run = messageHandler run first := by
    unfold Reassembly.next
    split <;> rfl
  show _ ∧ _ ↔ _ ∧ _
  rw [show Reassembles ⟨run, 0, []⟩ first ↔ ChunkFits run first from first_sharp waits empty header]
  apply and_congr_right
  intro fits
  have along := follows (first_collects waits empty header fits)
  rw [handled] at along
  simp only [recordDelivered, deliver, Option.some.injEq, forall_eq'] at along ⊢
  exact along

-- A client that waits for step 2.

def waitingStep2 : Run :=
  { Run.start ⟨[], [], [], Vector.replicate 12 0, Vector.replicate 12 0, Vector.replicate 16 0⟩ with
    stage := .looping false, connection := ⟨.step1, .cleared, bleInitPairingResult⟩ }

theorem reassembles_two_chunks :
    Runs.Along recordDelivered Reassembles ⟨waitingStep2, 0, []⟩ [[4, 1, 2, 3], [4]] :=
  (reassembles_iff_fits waitingStep2 (.inl rfl) rfl [4, 1, 2, 3] (by decide) [[4]]).mpr
    ⟨fun _ => .inr (by decide), fun run moved => by
      cases moved
      exact ⟨fun _ => show 4 + 1 ≤ 5 from by decide, fun _ _ => trivial⟩⟩

/-- A first notification of four bytes that declares a frame of three. -/
theorem surplus_not_refused :
    waitingStep2.Saves ∧ waitingStep2.connection.buffer = .cleared ∧
      ¬Runs.Along recordDelivered Reassembles ⟨waitingStep2, 0, []⟩ [[2, 0, 0, 0]] := by
  refine ⟨.inl rfl, rfl, ?_⟩
  intro reassembles
  have refused := reassembles.1 (.inl rfl)
  rw [if_neg (by decide)] at refused
  exact refused.1 (by decide)

end Bridge.BlePairing
