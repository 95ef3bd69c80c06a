import Bridge.Library.Runs
import Bridge.WifiService.Framing

namespace Bridge

/-- What happens to a receive record: a chunk, with what lies behind it in memory, or a reset. -/
inductive RecvStep
  | chunk (value stray : List UInt8) (filled : kept value ≠ [])
  | reset

def recvNext (recv : RecvData) : RecvStep → Option RecvData
  | .chunk value stray _ => some (recvData recv value stray)
  | .reset => some (resetRecvData recv)

def getDataLengthReads (value : List UInt8) : List Nat := if value.getD 0 0 = 0xff then [0, 1, 2] else [0]

/-- The `memcpy` of a chunk that fits, each byte with the size of the block that it goes to. -/
def copyDataWrites (recv : RecvData) (data : List UInt8) : List (Nat × Nat) :=
  match recv.data with
  | none => []
  | some _ =>
    if recv.dataLen < recv.recvLen + data.length then []
    else (List.range data.length).map fun j => (recv.recvLen + j, recv.dataLen)

def recvDataWrites (recv : RecvData) (value stray : List UInt8) : List (Nat × Nat) :=
  match recv.recvStatus with
  | .none =>
    match allocRecvData recv (getDataLength value stray).1 with
    | none => []
    | some recv => copyDataWrites recv (kept value)
  | .gotPrevData => copyDataWrites recv (kept value)
  | .finishedSuccess | .finishedError => []

/-- The bytes of the chunk that a call reads: the header of a new frame, then those that it copies. -/
def recvDataReads (recv : RecvData) (value stray : List UInt8) : List Nat :=
  (if recv.recvStatus = .none then getDataLengthReads value else []) ++
    List.range (recvDataWrites recv value stray).length

def RecvData.Empty (recv : RecvData) : Prop := recv.recvStatus = .none ∧ recv.data = none

def RecvData.Exceeds (recv : RecvData) (value stray : List UInt8) : Prop :=
  (recv.recvStatus = .none ∧ (getDataLength value stray).1 < (kept value).length) ∨
    (recv.recvStatus = .gotPrevData ∧ recv.dataLen < recv.recvLen + (kept value).length)

structure FrameSplit (frame : List UInt8) (chunks : List (List UInt8 × List UInt8)) : Prop where
  declared : (getDataLength frame []).1 = frame.length
  bytes : chunkBytes chunks = frame
  filled : ∀ chunk ∈ chunks, chunk.1 ≠ []
  short : ∀ chunk ∈ chunks, chunk.1.length < 2 ^ 16
  header : ∀ first ∈ chunks.head?, (getDataLength frame []).2.1 ≤ first.1.length

def RecvData.Receives (recv : RecvData) : Prop :=
  ∀ frame chunks, FrameSplit frame chunks →
    (receive recv chunks).recvStatus = .finishedSuccess ∧ (receive recv chunks).data = some frame ∧
      getPkgFromRecvData (receive recv chunks) = some (frame.drop (getDataLength frame []).2.1)

structure ChunkSafe (recv : RecvData) (value stray : List UInt8) : Prop where
  bounded : (recvData recv value stray).recvLen ≤ (recvData recv value stray).dataLen
  reads : ∀ i ∈ recvDataReads recv value stray, i < (kept value).length
  copies : ∀ write ∈ recvDataWrites recv value stray, write.1 < write.2
  refused : recv.Exceeds value stray → (recvData recv value stray).Empty ∧ (recvData recv value stray).Receives

def StepSafe (recv : RecvData) : RecvStep → Prop
  | .chunk value stray _ => ChunkSafe recv value stray
  | .reset => (resetRecvData recv).Empty ∧ (resetRecvData recv).Receives

/-- The first chunk of a frame holds its header, and no chunk is longer than what the frame lacks. -/
def StepFits (recv : RecvData) : RecvStep → Prop
  | .chunk value stray _ =>
    (recv.recvStatus = .none → value.getD 0 0 = 0xff → 3 ≤ (kept value).length) ∧ ¬recv.Exceeds value stray
  | .reset => True

theorem getDataLength_split {first rest : List UInt8}
    (header : (getDataLength (first ++ rest) []).2.1 ≤ first.length) (stray : List UInt8) :
    getDataLength first stray = getDataLength (first ++ rest) [] := by
  have same : ∀ i, i < first.length → (first ++ stray).getD i 0 = (first ++ rest ++ []).getD i 0 := by
    intro i inside
    rw [List.append_nil, List.getD_eq_getElem?_getD, List.getD_eq_getElem?_getD, List.getElem?_append_left inside,
      List.getElem?_append_left inside]
  have marked : 0 < first.length := by
    unfold getDataLength at header
    simp only at header
    split at header <;> simp only at header <;> omega
  by_cases long : ((first ++ rest ++ []).getD 0 0).toNat = 0xff
  · have three : 3 ≤ first.length := by
      unfold getDataLength at header
      simp only [long, if_true] at header
      exact header
    simp only [getDataLength, same 0 marked, same 1 (by omega), same 2 (by omega)]
  · simp only [getDataLength, same 0 marked, long, if_false]

theorem receives_of_empty {recv : RecvData} (empty : recv.Empty) : recv.Receives := by
  rintro frame chunks ⟨declared, bytes, filled, short, header⟩
  have positive := getDataLength_positive frame []
  rcases chunks with _ | ⟨⟨first, stray⟩, rest⟩
  · have none : frame = [] := bytes.symm
    rw [declared, none] at positive
    cases positive
  · have joined : first ++ chunkBytes rest = frame := bytes
    have sized := short (first, stray) List.mem_cons_self
    have whole : kept first = first := kept_of_short sized
    have same : getDataLength first stray = getDataLength frame [] := by
      rw [← joined]
      apply getDataLength_split
      rw [joined]
      exact header (first, stray) rfl
    have counted : first.length + (chunkBytes rest).length = frame.length := by rw [← joined, List.length_append]
    have begun : recvData recv first stray = .holding (getDataLength frame []) first := by
      rw [recvData_first empty.2 empty.1, whole, same]
      rw [whole, same]
      omega
    have received : receive recv ((first, stray) :: rest) = .holding (getDataLength frame []) frame := by
      have later : receive (.holding (getDataLength frame []) first) rest =
          .holding (getDataLength frame []) (first ++ chunkBytes rest) := by
        apply receive_holding
        · exact fun chunk inside => short chunk (List.mem_cons_of_mem _ inside)
        · exact fun chunk inside => filled chunk (List.mem_cons_of_mem _ inside)
        · omega
      rw [joined] at later
      rw [← later]
      simp only [receive, List.foldl_cons, begun]
    have sum := getDataLength_sum frame []
    rw [received]
    refine ⟨if_pos declared.symm, rfl, ?_⟩
    show some ((frame.drop (getDataLength frame []).2.1).take (getDataLength frame []).2.2) = some _
    rw [List.take_of_length_le (by rw [List.length_drop]; omega)]

theorem copyDataWrites_inside (recv : RecvData) (data : List UInt8) :
    ∀ write ∈ copyDataWrites recv data, write.1 < write.2 := by
  unfold copyDataWrites
  split
  · exact List.forall_mem_nil _
  · split
    · exact List.forall_mem_nil _
    · rename_i fits
      simp only [List.forall_mem_map, List.mem_range]
      intro j small
      omega

theorem copyDataWrites_length (recv : RecvData) (data : List UInt8) :
    (copyDataWrites recv data).length ≤ data.length := by
  unfold copyDataWrites
  split
  · exact Nat.zero_le _
  · split
    · exact Nat.zero_le _
    · simp

/-- The header bytes that are listed are all on which `getDataLength` depends. -/
theorem getDataLength_reads {value stray value' stray' : List UInt8} (filled : value ≠ [])
    (same : ∀ i ∈ getDataLengthReads value, (value ++ stray).getD i 0 = (value' ++ stray').getD i 0) :
    getDataLength value stray = getDataLength value' stray' := by
  have first : (value ++ stray).getD 0 0 = value.getD 0 0 := by
    cases value with
    | nil => exact absurd rfl filled
    | cons => rfl
  unfold getDataLengthReads at same
  by_cases marked : value.getD 0 0 = 0xff
  · rw [if_pos marked] at same
    simp only [getDataLength, same 0 (by simp), same 1 (by simp), same 2 (by simp)]
  · rw [if_neg marked] at same
    have short : ((value' ++ stray').getD 0 0).toNat ≠ 0xff := by
      rw [← same 0 (by simp), first]
      exact fun eq => marked (UInt8.toNat_inj.mp eq)
    simp only [getDataLength, same 0 (by simp), if_neg short]

/-- The bytes that are listed are those by which the record grows, in the block that it holds then. -/
theorem copyData_stores (recv : RecvData) (data : List UInt8) :
    (copyData recv data = none ∧ copyDataWrites recv data = []) ∨
      ∃ after, copyData recv data = some after ∧ after.recvLen = recv.recvLen + data.length ∧
        after.data = recv.data.map (· ++ data) ∧
        copyDataWrites recv data = (List.range data.length).map fun j => (recv.recvLen + j, after.dataLen) := by
  unfold copyData copyDataWrites
  cases recv.data with
  | none => exact .inl ⟨rfl, rfl⟩
  | some stored =>
    simp only
    split
    · exact .inl ⟨rfl, rfl⟩
    · exact .inr ⟨_, rfl, rfl, rfl, rfl⟩

/-- What a call stores runs from where its block is filled to where the record then stands. -/
theorem recvData_stores (recv : RecvData) (value stray : List UInt8) :
    ∃ start, (start = recv.recvLen ∨ recv.recvStatus = .none ∧ start = 0) ∧
      (recvData recv value stray).recvLen = start + (recvDataWrites recv value stray).length ∧
      recvDataWrites recv value stray =
        (List.range (recvDataWrites recv value stray).length).map
          fun j => (start + j, (recvData recv value stray).dataLen) := by
  unfold recvData recvDataWrites kept
  cases status : recv.recvStatus with
  | none =>
    simp only
    by_cases held : recv.data.isSome = true
    · simp only [allocRecvData, if_pos held]
      exact ⟨recv.recvLen, .inl rfl, rfl, rfl⟩
    · simp only [allocRecvData, if_neg held]
      by_cases long : (getDataLength value stray).1 < 0 + (value.take (value.length % 2 ^ 16)).length
      · simp only [copyData, copyDataWrites, if_pos long]
        exact ⟨0, .inr ⟨trivial, rfl⟩, rfl, rfl⟩
      · simp only [copyData, copyDataWrites, if_neg long]
        refine ⟨0, .inr ⟨trivial, rfl⟩, ?_, ?_⟩
        · simp only [List.length_map, List.length_range]
          split <;> rfl
        · simp only [List.length_map, List.length_range]
          split <;> rfl
  | gotPrevData =>
    simp only
    rcases copyData_stores recv (value.take (value.length % 2 ^ 16)) with
      ⟨refused, nothing⟩ | ⟨after, copied, count, _, stores⟩
    · rw [refused, nothing]
      refine ⟨recv.recvLen, .inl rfl, ?_, rfl⟩
      simp only [Option.getD_none, List.length_nil]
      split <;> rfl
    · rw [copied, stores]
      refine ⟨recv.recvLen, .inl rfl, ?_, ?_⟩
      · simp only [Option.getD_some, List.length_map, List.length_range, ← count]
        split <;> rfl
      · simp only [Option.getD_some, List.length_map, List.length_range]
        split <;> rfl
  | finishedSuccess => exact ⟨recv.recvLen, .inl rfl, rfl, rfl⟩
  | finishedError => exact ⟨recv.recvLen, .inl rfl, rfl, rfl⟩

theorem recvDataWrites_copy (recv : RecvData) (value stray : List UInt8) :
    recvDataWrites recv value stray = [] ∨ ∃ block, recvDataWrites recv value stray = copyDataWrites block (kept value) := by
  unfold recvDataWrites
  split
  · split
    · exact .inl rfl
    · exact .inr ⟨_, rfl⟩
  · exact .inr ⟨recv, rfl⟩
  · exact .inl rfl
  · exact .inl rfl

def RecvData.Regular (recv : RecvData) : Prop :=
  recv = .zero ∨ ∃ declared stored, stored.length ≤ declared.1 ∧ recv = .holding declared stored

theorem holding_pending {declared : Nat × Nat × Nat} {stored : List UInt8} (lacking : stored.length ≠ declared.1) :
    (RecvData.holding declared stored).recvStatus = .gotPrevData := if_neg lacking

theorem RecvData.Regular.chunk {recv : RecvData} (regular : recv.Regular) {value stray : List UInt8}
    (fits : ¬recv.Exceeds value stray) : (recvData recv value stray).Regular := by
  rcases regular with rfl | ⟨declared, stored, within, rfl⟩
  · have room : (kept value).length ≤ (getDataLength value stray).1 := by
      apply Nat.le_of_not_lt
      exact fun exceeds => fits (.inl ⟨rfl, exceeds⟩)
    rw [recvData_first rfl rfl room]
    exact .inr ⟨_, _, room, rfl⟩
  · by_cases complete : stored.length = declared.1
    · have finished : recvData (.holding declared stored) value stray = .holding declared stored := by
        simp [recvData, RecvData.holding, complete]
      rw [finished]
      exact .inr ⟨declared, stored, within, rfl⟩
    · have room : stored.length + (kept value).length ≤ declared.1 := by
        apply Nat.le_of_not_lt
        exact fun exceeds => fits (.inr ⟨holding_pending complete, exceeds⟩)
      rw [recvData_next complete stray room]
      exact .inr ⟨declared, _, by rwa [List.length_append], rfl⟩

theorem RecvData.Regular.reset {recv : RecvData} (regular : recv.Regular) : resetRecvData recv = .zero := by
  rcases regular with rfl | ⟨declared, stored, _, rfl⟩
  · rfl
  · rfl

theorem RecvData.Regular.bounded {recv : RecvData} (regular : recv.Regular) : recv.recvLen ≤ recv.dataLen := by
  rcases regular with rfl | ⟨declared, stored, within, rfl⟩
  · exact Nat.le_refl 0
  · exact within

theorem RecvData.Regular.backed {recv : RecvData} (regular : recv.Regular) : recv.Backed := by
  rcases regular with rfl | ⟨declared, stored, _, rfl⟩
  · exact fun status => absurd rfl status
  · exact fun _ => rfl

theorem RecvData.Regular.not_empty {recv : RecvData} (regular : recv.Regular) (value stray : List UInt8) :
    ¬(recvData recv value stray).Empty := by
  rintro ⟨_, free⟩
  have held := recvData_data regular.backed value stray
  rw [free] at held
  cases held

theorem RecvData.Regular.safe_iff {recv : RecvData} (regular : recv.Regular) (step : RecvStep) :
    StepSafe recv step ↔ StepFits recv step := by
  cases step with
  | reset =>
    apply iff_of_true _ trivial
    have empty : (resetRecvData recv).Empty := by
      rw [regular.reset]
      exact ⟨rfl, rfl⟩
    exact ⟨empty, receives_of_empty empty⟩
  | chunk value stray filled =>
    constructor
    · rintro ⟨_, reads, _, refused⟩
      constructor
      · intro fresh marked
        apply reads 2
        unfold recvDataReads getDataLengthReads
        rw [if_pos fresh, if_pos marked]
        simp
      · intro exceeds
        exact regular.not_empty value stray (refused exceeds).1
    · rintro ⟨header, fits⟩
      have copies := recvDataWrites_copy recv value stray
      constructor
      · exact (regular.chunk fits).bounded
      · intro i read
        rcases List.mem_append.mp read with shown | copied
        · split at shown
          · rename_i fresh
            have some_byte := List.length_pos_iff.mpr filled
            unfold getDataLengthReads at shown
            split at shown
            · rename_i marked
              have whole := header fresh marked
              simp at shown
              omega
            · simp at shown
              omega
          · cases shown
        · rw [List.mem_range] at copied
          apply Nat.lt_of_lt_of_le copied
          rcases copies with none | ⟨block, same⟩
          · rw [none]
            exact Nat.zero_le _
          · rw [same]
            exact copyDataWrites_length block (kept value)
      · rcases copies with none | ⟨block, same⟩
        · rw [none]
          exact List.forall_mem_nil _
        · rw [same]
          exact copyDataWrites_inside block (kept value)
      · exact fun exceeds => absurd exceeds fits

/-- From an empty record on, every chunk is received inside its block and its own bytes, and refused
    without a trace where it does not fit, exactly if the first chunk of each frame holds the header and
    no chunk is longer than what its frame lacks. -/
theorem receiver_safe_iff_fits (steps : List RecvStep) :
    Runs.Along recvNext StepSafe .zero steps ↔ Runs.Along recvNext StepFits .zero steps := by
  apply Runs.along_iff_of_kept recvNext RecvData.Regular
  · intro recv step recv' regular fits moved
    cases step with
    | chunk value stray filled =>
      cases moved
      exact regular.chunk fits.2
    | reset =>
      cases moved
      exact .inl regular.reset
  · exact fun recv step regular => regular.safe_iff step
  · exact .inl rfl

/-- A first chunk of two bytes, for a frame of one. -/
theorem refused_chunk_blocks :
    ¬Runs.Along recvNext StepSafe .zero [.chunk [0, 7] [] (by decide)] := by
  rintro ⟨safe, _⟩
  have empty := (safe.refused (.inl ⟨rfl, by decide⟩)).1
  exact absurd empty.2 (by decide)

end Bridge
