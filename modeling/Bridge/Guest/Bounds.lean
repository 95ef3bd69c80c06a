import Bridge.Guest.Run

namespace Bridge

/-- The stores of `step_data[step_cur_size++]`, each with the size of the block that it goes to. -/
def StepBuffer.writes (buffer : StepBuffer) (data : List UInt8) : List (Nat × Nat) :=
  (List.range data.length).map fun j => (buffer.stepCurSize + j, buffer.stepMaxSize)

/-- The stores of `save_message_data`, into the block that it finds or has just allocated. -/
def saveMessageDataWrites (buffer : StepBuffer) (data : List UInt8) : List (Nat × Nat) :=
  if buffer.stepMaxSize = 0 then
    if data.length < 3 then [] else (StepBuffer.open data).writes data
  else buffer.writes data

def GuestRun.Saves (run : GuestRun) : Prop :=
  run.quit = false ∧
    (run.guest.guestStep = .begin ∨ run.guest.guestStep = .step4 ∨ run.guest.guestStep = .cmdResult)

def StoresInside (run : GuestRun) : GuestEvent → Prop
  | .notify _ data => run.Saves → ∀ write ∈ saveMessageDataWrites run.guest.buffer data, write.1 < write.2
  | .timeout => True

def StepBuffer.Within (buffer : StepBuffer) : Prop := buffer.stepCurSize ≤ buffer.stepMaxSize

def StepBuffer.Holds (buffer : StepBuffer) (data : List UInt8) : Prop :=
  if buffer.stepMaxSize = 0 then data.length < 3 ∨ data.length ≤ (StepBuffer.open data).stepMaxSize
  else buffer.stepCurSize + data.length ≤ buffer.stepMaxSize

def ChunkFits (run : GuestRun) : GuestEvent → Prop
  | .notify _ data => run.Saves → run.guest.buffer.Holds data
  | .timeout => True

theorem writes_inside_iff (buffer : StepBuffer) (within : buffer.Within) (data : List UInt8) :
    (∀ write ∈ buffer.writes data, write.1 < write.2) ↔ buffer.stepCurSize + data.length ≤ buffer.stepMaxSize := by
  unfold StepBuffer.Within at within
  simp only [StepBuffer.writes, List.forall_mem_map, List.mem_range]
  constructor
  · intro inside
    by_cases empty : data.length = 0
    · omega
    · have last := inside (data.length - 1) (by omega)
      omega
  · intro fits j small
    omega

/-- The `j`-th store puts the `j`-th byte of the chunk to its place in the block. -/
theorem store_writes {buffer : StepBuffer} {stored : List UInt8} (held : buffer.stepData = some stored)
    (count : stored.length = buffer.stepCurSize) (data : List UInt8) {j : Nat} (small : j < data.length) :
    ∃ bytes, (buffer.store data).stepData = some bytes ∧
      (buffer.writes data)[j]? = some (buffer.stepCurSize + j, (buffer.store data).stepMaxSize) ∧
      bytes[buffer.stepCurSize + j]? = data[j]? := by
  refine ⟨stored ++ data, ?_, ?_, ?_⟩
  · simp [StepBuffer.store, held]
  · simp [StepBuffer.writes, small]
  · rw [← count, List.getElem?_append_right (Nat.le_add_right _ _), Nat.add_sub_cancel_left]

/-- The listed stores are those of the function: none where it refuses the chunk, else those that fill
    the block which it returns. -/
theorem saveMessageData_stores (buffer : StepBuffer) (data : List UInt8) :
    (saveMessageData buffer data = (buffer, 1) ∧ saveMessageDataWrites buffer data = []) ∨
      ∃ block : StepBuffer, saveMessageData buffer data = (block.store data, 0) ∧
        saveMessageDataWrites buffer data = block.writes data := by
  unfold saveMessageData saveMessageDataWrites
  by_cases closed : buffer.stepMaxSize = 0
  · rw [if_pos closed, if_pos closed]
    by_cases short : data.length < 3
    · rw [if_pos short, if_pos short]
      exact .inl ⟨rfl, rfl⟩
    · rw [if_neg short, if_neg short]
      exact .inr ⟨_, rfl, rfl⟩
  · rw [if_neg closed, if_neg closed]
    exact .inr ⟨_, rfl, rfl⟩

theorem open_within (data : List UInt8) : (StepBuffer.open data).Within := by
  unfold StepBuffer.open StepBuffer.Within
  split <;> exact Nat.zero_le _

theorem open_curSize (data : List UInt8) : (StepBuffer.open data).stepCurSize = 0 := by
  unfold StepBuffer.open
  split <;> rfl

theorem saveMessageData_inside_iff {buffer : StepBuffer} (within : buffer.Within) (data : List UInt8) :
    (∀ write ∈ saveMessageDataWrites buffer data, write.1 < write.2) ↔ buffer.Holds data := by
  unfold saveMessageDataWrites StepBuffer.Holds
  by_cases closed : buffer.stepMaxSize = 0
  · rw [if_pos closed, if_pos closed]
    by_cases short : data.length < 3
    · rw [if_pos short]
      exact iff_of_true (List.forall_mem_nil _) (.inl short)
    · rw [if_neg short, writes_inside_iff _ (open_within data), open_curSize, Nat.zero_add]
      exact ⟨.inr, fun fits => fits.resolve_left short⟩
  · rw [if_neg closed, if_neg closed]
    exact writes_inside_iff buffer within data

theorem saveMessageData_within {buffer : StepBuffer} (within : buffer.Within) {data : List UInt8}
    (holds : buffer.Holds data) : (saveMessageData buffer data).1.Within := by
  unfold saveMessageData
  unfold StepBuffer.Holds at holds
  by_cases closed : buffer.stepMaxSize = 0
  · rw [if_pos closed] at holds ⊢
    by_cases short : data.length < 3
    · rw [if_pos short]
      exact within
    · rw [if_neg short]
      have fits := holds.resolve_left short
      show (StepBuffer.open data).stepCurSize + data.length ≤ (StepBuffer.open data).stepMaxSize
      rwa [open_curSize, Nat.zero_add]
  · rw [if_neg closed] at holds ⊢
    exact holds

theorem release_within {buffer : StepBuffer} (within : buffer.Within) : buffer.release.Within := by
  unfold StepBuffer.release
  split
  · exact Nat.le_refl 0
  · exact within

variable (lib : GuestLib) (task : TaskType)

def Leaves (buffer : StepBuffer) (run : GuestRun) : Prop := run.guest.buffer = buffer ∨ run.guest.buffer = buffer.release

theorem Leaves.within {buffer : StepBuffer} {run : GuestRun} (leaves : Leaves buffer run) (within : buffer.Within) :
    run.guest.buffer.Within := by
  rcases leaves with same | released
  · rwa [same]
  · rw [released]
    exact release_within within

theorem writeGuestStep3_leaves (moment : Moment) (run : GuestRun) :
    Leaves run.guest.buffer (writeGuestStep3 lib moment run).1 := by
  unfold writeGuestStep3
  simp only
  split
  · exact .inl rfl
  · split
    · exact .inl rfl
    · split
      · exact .inl rfl
      · exact .inr rfl

theorem handleStep2_leaves (moment : Moment) (run : GuestRun) (data : List UInt8) :
    Leaves (saveMessageData run.guest.buffer data).1 (handleStep2Message lib moment run data) := by
  unfold handleStep2Message
  simp only
  split
  · have written := writeGuestStep3_leaves lib moment ((run.save data).setStep .step3)
    split
    · exact written
    · exact written
  · exact .inl rfl

theorem writeCmdRequest_buffer (moment : Moment) (run : GuestRun) :
    (writeCmdRequest lib task moment run).guest.buffer = run.guest.buffer := by
  unfold writeCmdRequest
  split
  · rfl
  · simp only
    split
    · rfl
    · rfl

theorem handleStep4_leaves {moment : Moment} {run run' : GuestRun} {data : List UInt8}
    (done : handleStep4Message lib task moment run data = some run') :
    Leaves (saveMessageData run.guest.buffer data).1 run' := by
  unfold handleStep4Message at done
  simp only at done
  split at done
  · obtain ⟨⟨table, recRet⟩, _, rfl⟩ := Option.map_eq_some_iff.mp done
    cases recRet with
    | false => exact .inl rfl
    | true =>
      right
      show (writeCmdRequest lib task moment _).guest.buffer.release = _
      rw [writeCmdRequest_buffer]
      rfl
  · cases done
    exact .inl rfl

theorem handleAnswer_buffer (run : GuestRun) (answer : Answer) :
    (handleAnswer run answer).guest.buffer = run.guest.buffer := by
  cases answer with
  | undecodable => rfl
  | unknownTask => rfl
  | decoded result store => cases result <;> rfl

theorem handleCmdResponce_leaves {run run' : GuestRun} {data : List UInt8}
    (done : handleCmdResponce lib task run data = some run') :
    Leaves (saveMessageData run.guest.buffer data).1 run' := by
  unfold handleCmdResponce at done
  simp only at done
  split at done
  · obtain ⟨⟨table, responce⟩, _, rfl⟩ := Option.map_eq_some_iff.mp done
    left
    cases responce with
    | none => rfl
    | some responceBytes => exact handleAnswer_buffer _ _
  · cases done
    exact .inl rfl

theorem dispatch_within {run run' : GuestRun} {event : GuestEvent} (within : run.guest.buffer.Within)
    (fits : ChunkFits run event) (done : dispatch lib task run event = some run') : run'.guest.buffer.Within := by
  unfold dispatch at done
  cases quit : run.quit with
  | true =>
    simp only [quit, if_true] at done
    cases done
    exact within
  | false =>
    simp only [quit, Bool.false_eq_true, if_false] at done
    cases event with
    | timeout =>
      cases done
      exact within
    | notify moment data =>
      change messageHandler lib task moment run data = some run' at done
      unfold messageHandler at done
      cases step : run.guest.guestStep with
      | begin =>
        have saved := saveMessageData_within within (fits ⟨quit, .inl step⟩)
        simp only [step, Option.some.injEq] at done
        rw [← done]
        exact (handleStep2_leaves lib moment run data).within saved
      | step4 =>
        have saved := saveMessageData_within within (fits ⟨quit, .inr (.inl step)⟩)
        simp only [step] at done
        exact (handleStep4_leaves lib task done).within saved
      | cmdResult =>
        have saved := saveMessageData_within within (fits ⟨quit, .inr (.inr step)⟩)
        simp only [step] at done
        exact (handleCmdResponce_leaves lib task done).within saved
      | step2 | step3 | done =>
        simp only [step] at done
        cases done
        exact within

theorem stores_inside_iff {run : GuestRun} (within : run.guest.buffer.Within) (event : GuestEvent) :
    StoresInside run event ↔ ChunkFits run event := by
  cases event with
  | timeout => exact Iff.rfl
  | notify moment data =>
    constructor
    · intro inside saves
      exact (saveMessageData_inside_iff within data).mp (inside saves)
    · intro fits saves
      exact (saveMessageData_inside_iff within data).mpr (fits saves)

theorem run_inside_iff {run : GuestRun} (within : run.guest.buffer.Within) (events : List GuestEvent) :
    (Runs.Along (dispatch lib task) StoresInside run events ∧
        Runs.Always (dispatch lib task) (fun run => run.guest.buffer.Within) run events) ↔
      Runs.Along (dispatch lib task) ChunkFits run events := by
  induction events generalizing run with
  | nil => exact iff_of_true ⟨trivial, within⟩ trivial
  | cons event rest ih =>
    constructor
    · rintro ⟨⟨inside, stores⟩, _, always⟩
      have fits := (stores_inside_iff within event).mp inside
      refine ⟨fits, ?_⟩
      intro run' done
      exact (ih (dispatch_within lib task within fits done)).mp ⟨stores run' done, always run' done⟩
    · rintro ⟨fits, along⟩
      have onward := fun run' done => (ih (dispatch_within lib task within fits done)).mpr (along run' done)
      exact ⟨⟨(stores_inside_iff within event).mpr fits, fun run' done => (onward run' done).1⟩,
        within, fun run' done => (onward run' done).2⟩

theorem startGuestRun_buffer (setup : GattSetup) (moment : Moment) (table : Connections) (lock : Lock) :
    (startGuestRun lib setup moment table lock).1.guest.buffer = .cleared := by
  have step1 : ∀ run, (writeGuestStep1 lib moment run).1.guest.buffer = run.guest.buffer := by
    intro run
    unfold writeGuestStep1
    simp only
    repeat' split
    all_goals rfl
  unfold startGuestRun
  simp only
  repeat' split
  all_goals first | rfl | exact step1 _

/-- In a session, every store of `save_message_data` is inside its block and the count of bytes never
    exceeds its size, exactly if no chunk is longer than what its frame still lacks. -/
theorem reassembly_inside_iff_fits (setup : GattSetup) (moment : Moment) (table : Connections) (lock : Lock)
    (events : List GuestEvent) :
    (Runs.Along (dispatch lib task) StoresInside (startGuestRun lib setup moment table lock).1 events ∧
        Runs.Always (dispatch lib task) (fun run => run.guest.buffer.stepCurSize ≤ run.guest.buffer.stepMaxSize)
          (startGuestRun lib setup moment table lock).1 events) ↔
      Runs.Along (dispatch lib task) ChunkFits (startGuestRun lib setup moment table lock).1 events := by
  apply run_inside_iff lib task
  rw [startGuestRun_buffer]
  exact Nat.le_refl 0

/-- A first chunk of four bytes that announces a frame of three. -/
theorem long_chunk_stores_outside :
    (startGuestRun sampleLib sampleSetup sampleMoment .zero sampleLock).2 = 0 ∧
      ¬Runs.Along (dispatch sampleLib .getBatteryLevel) StoresInside
        (startGuestRun sampleLib sampleSetup sampleMoment .zero sampleLock).1 [.notify sampleMoment [2, 0, 0, 0]] := by
  have begun : (startGuestRun sampleLib sampleSetup sampleMoment .zero sampleLock).1.quit = false ∧
      (startGuestRun sampleLib sampleSetup sampleMoment .zero sampleLock).1.guest.guestStep = .begin ∧
      (startGuestRun sampleLib sampleSetup sampleMoment .zero sampleLock).2 = 0 := by decide +kernel
  refine ⟨begun.2.2, ?_⟩
  rintro ⟨inside, _⟩
  have last := inside ⟨begun.1, .inl begun.2.1⟩ (3, 3)
  rw [startGuestRun_buffer] at last
  exact absurd (last (by decide)) (by decide)

end Bridge
