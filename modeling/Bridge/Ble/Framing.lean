import Bridge.Library.Pieces

namespace Bridge

def resolvePayloadLen (stepLen : Nat) : Nat := if stepLen > 254 then stepLen + 3 else stepLen + 1

def overwrite (block : List UInt8) (start : Nat) (bytes : List UInt8) : List UInt8 :=
  block.take start ++ bytes ++ block.drop (start + bytes.length)

/-- `heap` is what `malloc` leaves in the block that it hands out. -/
def buildMsgPayload (heap : Nat → UInt8) (stepBytes : List UInt8) : Option (List UInt8) :=
  let payloadLen := resolvePayloadLen stepBytes.length
  let nByteForLen := payloadLen - stepBytes.length
  let block := (List.range payloadLen).map heap
  if nByteForLen = 1 then
    some (overwrite (block.set 0 (UInt8.ofNat stepBytes.length)) nByteForLen stepBytes)
  else if nByteForLen = 3 then
    let fst := UInt8.ofNat (stepBytes.length - 254)
    -- the marker goes to index 3, where the memcpy covers it again
    some (overwrite (((block.set 0 fst).set 1 254).set 3 0xff) nByteForLen stepBytes)
  else none

def bleAttMaxBytes : Nat := 20

/-- The buffers that `write_char_by_uuid_multi_atts` hands to `gattlib_write_char_by_uuid`. -/
def attPieces (buffer : List UInt8) : List (List UInt8) := Pieces.cut bleAttMaxBytes buffer

/-- The reassembly fields of `guest_connection_t`. The bytes stored so far are kept as a list, also
    when they have run past the block of `stepMaxSize` bytes. -/
structure StepBuffer where
  stepMaxSize : Nat
  stepCurSize : Nat
  nSizeByte : Nat
  stepData : Option (List UInt8)
deriving DecidableEq, Repr

def StepBuffer.cleared : StepBuffer := ⟨0, 0, 0, none⟩

/-- The header test reads the third byte, which in a short frame is payload. -/
def StepBuffer.open (data : List UInt8) : StepBuffer :=
  if data.getD 2 0 = 0xff then
    ⟨(data.getD 0 0).toNat * 0xfe + (data.getD 1 0).toNat + 3, 0, 3, some []⟩
  else
    ⟨(data.getD 0 0).toNat + 1, 0, 1, some []⟩

def StepBuffer.store (buffer : StepBuffer) (data : List UInt8) : StepBuffer :=
  { buffer with
    stepCurSize := buffer.stepCurSize + data.length
    stepData := buffer.stepData.map (· ++ data) }

def saveMessageData (buffer : StepBuffer) (data : List UInt8) : StepBuffer × Int :=
  if buffer.stepMaxSize = 0 then
    if data.length < 3 then (buffer, 1)
    else ((StepBuffer.open data).store data, 0)
  else (buffer.store data, 0)

def StepBuffer.complete (buffer : StepBuffer) : Bool := buffer.stepMaxSize == buffer.stepCurSize

def StepBuffer.message (buffer : StepBuffer) : List UInt8 :=
  ((buffer.stepData.getD []).take buffer.stepMaxSize).drop buffer.nSizeByte

def collect (buffer : StepBuffer) (chunks : List (List UInt8)) : StepBuffer :=
  chunks.foldl (fun buffer data => (saveMessageData buffer data).1) buffer

theorem overwrite_tail (block : List UInt8) (start : Nat) (bytes : List UInt8)
    (tail : block.length ≤ start + bytes.length) : overwrite block start bytes = block.take start ++ bytes := by
  rw [overwrite, List.drop_of_length_le tail, List.append_nil]

theorem buildMsgPayload_some (heap : Nat → UInt8) (stepBytes : List UInt8) :
    ∃ payload, buildMsgPayload heap stepBytes = some payload := by
  by_cases long : stepBytes.length > 254
  · simp [buildMsgPayload, resolvePayloadLen, long]
  · simp [buildMsgPayload, resolvePayloadLen, long]

theorem open_positive (data : List UInt8) : 0 < (StepBuffer.open data).stepMaxSize := by
  unfold StepBuffer.open
  split <;> simp

@[simp] theorem store_maxSize (buffer : StepBuffer) (data : List UInt8) :
    (buffer.store data).stepMaxSize = buffer.stepMaxSize := rfl

@[simp] theorem store_nSizeByte (buffer : StepBuffer) (data : List UInt8) :
    (buffer.store data).nSizeByte = buffer.nSizeByte := rfl

@[simp] theorem store_curSize (buffer : StepBuffer) (data : List UInt8) :
    (buffer.store data).stepCurSize = buffer.stepCurSize + data.length := rfl

theorem store_store (buffer : StepBuffer) (data more : List UInt8) :
    (buffer.store data).store more = buffer.store (data ++ more) := by
  cases buffer with
  | mk maxSize curSize sizeByte stored => cases stored <;> simp [StepBuffer.store, Nat.add_assoc]

theorem saveMessageData_opened (buffer : StepBuffer) (data : List UInt8)
    (opened : 0 < buffer.stepMaxSize) : saveMessageData buffer data = (buffer.store data, 0) := by
  simp [saveMessageData, Nat.ne_of_gt opened]

theorem collect_opened (buffer : StepBuffer) (chunks : List (List UInt8))
    (opened : 0 < buffer.stepMaxSize) : collect buffer chunks = buffer.store chunks.flatten := by
  induction chunks generalizing buffer with
  | nil => cases buffer; simp [collect, StepBuffer.store]
  | cons data rest ih =>
    have next := ih (buffer.store data) opened
    rw [store_store] at next
    simpa [collect, saveMessageData_opened buffer data opened] using next

theorem collect_cleared (data : List UInt8) (rest : List (List UInt8)) (whole : 3 ≤ data.length) :
    collect StepBuffer.cleared (data :: rest) =
      (StepBuffer.open data).store (data ++ rest.flatten) := by
  have first : (saveMessageData StepBuffer.cleared data).1 = (StepBuffer.open data).store data := by
    simp [saveMessageData, StepBuffer.cleared, Nat.not_lt.mpr whole]
  have tail := collect_opened ((StepBuffer.open data).store data) rest (open_positive data)
  rw [store_store] at tail
  rw [← tail, ← first]
  rfl

theorem open_of_prefix {data frame : List UInt8} (k : Nat) (shown : data = frame.take k)
    (header : 3 ≤ k) : StepBuffer.open data = StepBuffer.open frame := by
  have same : ∀ i, i < 3 → data.getD i 0 = frame.getD i 0 := by
    intro i small
    rw [shown, List.getD_eq_getElem?_getD, List.getD_eq_getElem?_getD, List.getElem?_take_of_lt (by omega)]
  simp only [StepBuffer.open, same 0 (by decide), same 1 (by decide), same 2 (by decide)]

@[simp] theorem attPieces_length (frame : List UInt8) :
    (attPieces frame).length = Pieces.count 20 frame.length :=
  Pieces.cut_length 20 frame

theorem collect_pieces (frame : List UInt8) (header : 3 ≤ frame.length) (k : Nat) (positive : 0 < k)
    (bound : k ≤ (attPieces frame).length) :
    collect StepBuffer.cleared ((attPieces frame).take k) =
      (StepBuffer.open frame).store (frame.take (20 * k)) := by
  have bytes : ((attPieces frame).take k).flatten = frame.take (20 * k) :=
    Pieces.flatten_take_cut bleAttMaxBytes frame k (by rwa [attPieces_length] at bound)
  obtain ⟨rest, pieces⟩ : ∃ rest, attPieces frame = frame.take 20 :: rest :=
    Pieces.cut_cons (by decide) (by omega)
  obtain ⟨j, rfl⟩ : ∃ j, k = j + 1 := ⟨k - 1, by omega⟩
  rw [pieces, List.take_succ_cons, List.flatten_cons] at bytes
  rw [pieces, List.take_succ_cons, collect_cleared _ _ (by simp; omega), bytes,
    open_of_prefix 20 rfl (by omega)]

end Bridge
