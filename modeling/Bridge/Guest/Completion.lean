import Bridge.Guest.Bounds

namespace Bridge

/-- The calls that read the message collected. -/
def GuestCall.reads : GuestCall → Bool
  | .genConnStep3Native _ _ | .recConnStep4Native _ _ _ _ | .decryptNative _ _ => true
  | _ => false

instance (run : GuestRun) : Decidable run.Saves := inferInstanceAs (Decidable (_ ∧ (_ ∨ _ ∨ _)))

variable (lib : GuestLib) (task : TaskType)

/-- The handler takes the message for complete and goes on to decode or decrypt it. An event that
    does not return is a decryption of fewer bytes than the tag. -/
def GoesOn (run : GuestRun) (event : GuestEvent) : Prop :=
  ∀ run', dispatch lib task run event = some run' → ∃ call ∈ run'.trace.drop run.trace.length, call.reads = true

structure StepRun where
  run : GuestRun
  taken : List (List UInt8)

def StepRun.take (r : StepRun) : GuestEvent → List (List UInt8)
  | .notify _ data =>
    if r.run.Saves ∧ (saveMessageData r.run.guest.buffer data).2 = 0 then r.taken ++ [data] else r.taken
  | .timeout => r.taken

def recordTaken (r : StepRun) (event : GuestEvent) : Option StepRun :=
  (dispatch lib task r.run event).map fun run =>
    ⟨run, if run.guest.buffer.stepMaxSize = 0 then [] else r.take event⟩

def Whole : List (List UInt8) → Prop
  | [] => False
  | first :: rest =>
    3 ≤ first.length ∧ (first :: rest).flatten.length = (StepBuffer.open first).stepMaxSize

def CompletesWhole (r : StepRun) (event : GuestEvent) : Prop :=
  GoesOn lib task r.run event → ∃ moment data, event = .notify moment data ∧
    (saveMessageData r.run.guest.buffer data).2 = 0 ∧ Whole (r.taken ++ [data])

/-- A notification that finds no header parsed is long enough to hold one. -/
def HoldsHeader (run : GuestRun) : GuestEvent → Prop
  | .notify _ data => run.Saves → run.guest.buffer.stepMaxSize = 0 → 3 ≤ data.length
  | .timeout => True

def Tracks (r : StepRun) : Prop :=
  r.run.guest.buffer = collect .cleared r.taken ∧ ∀ first ∈ r.taken.head?, 3 ≤ first.length

theorem writeGuestStep3_reads (moment : Moment) (run : GuestRun) :
    ∃ accepted sent, (writeGuestStep3 lib moment run).1.trace = run.trace ++ .genConnStep3Native 0 accepted :: sent := by
  unfold writeGuestStep3
  simp only
  split
  · exact ⟨_, [], rfl⟩
  · split
    · exact ⟨_, [], rfl⟩
    · split
      · exact ⟨_, [_], List.append_assoc _ _ _⟩
      · exact ⟨_, [_], List.append_assoc _ _ _⟩

theorem writeCmdRequest_extends (moment : Moment) (run : GuestRun) :
    ∃ sent, (writeCmdRequest lib task moment run).trace = run.trace ++ sent := by
  unfold writeCmdRequest
  split
  · exact ⟨[], (List.append_nil _).symm⟩
  · simp only
    split
    · exact ⟨[_], rfl⟩
    · exact ⟨[_, _], List.append_assoc _ _ _⟩

theorem handleAnswer_extends (run : GuestRun) (answer : Answer) :
    ∃ sent, (handleAnswer run answer).trace = run.trace ++ sent := by
  cases answer with
  | undecodable => exact ⟨[], (List.append_nil _).symm⟩
  | unknownTask => exact ⟨[], (List.append_nil _).symm⟩
  | decoded result store => cases result <;> exact ⟨[_], rfl⟩

theorem reads_of_extended {trace extended sent : List GuestCall} {call : GuestCall} (reads : call.reads = true)
    (same : extended = trace ++ call :: sent) : ∃ call ∈ extended.drop trace.length, call.reads = true := by
  rw [same, List.drop_left]
  exact ⟨call, List.mem_cons_self, reads⟩

theorem handleStep2_reads_iff (moment : Moment) (run : GuestRun) (data : List UInt8) :
    (∃ call ∈ (handleStep2Message lib moment run data).trace.drop run.trace.length, call.reads = true) ↔
      (saveMessageData run.guest.buffer data).1.complete = true := by
  unfold handleStep2Message
  simp only
  split
  · rename_i complete
    apply iff_of_true _ complete
    have read := writeGuestStep3_reads lib moment ((run.save data).setStep .step3)
    obtain ⟨accepted, sent, trace⟩ := read
    split
    · exact reads_of_extended rfl trace
    · exact reads_of_extended rfl trace
  · rename_i lacking
    apply iff_of_false _ lacking
    simp [GuestRun.save]

theorem handleStep4_reads_iff (moment : Moment) (run : GuestRun) (data : List UInt8) :
    (∀ run', handleStep4Message lib task moment run data = some run' →
        ∃ call ∈ run'.trace.drop run.trace.length, call.reads = true) ↔
      (saveMessageData run.guest.buffer data).1.complete = true := by
  unfold handleStep4Message
  simp only
  split
  · rename_i complete
    apply iff_of_true _ complete
    intro run' done
    obtain ⟨⟨table, recRet⟩, _, rfl⟩ := Option.map_eq_some_iff.mp done
    cases recRet with
    | false => exact reads_of_extended rfl rfl
    | true =>
      obtain ⟨sent, trace⟩ := writeCmdRequest_extends lib task moment _
      exact reads_of_extended rfl (trace.trans (List.append_assoc _ _ _))
  · rename_i lacking
    apply iff_of_false _ lacking
    intro reads
    have read := reads _ rfl
    simp [GuestRun.save, GuestRun.setResult] at read

theorem handleCmdResponce_reads_iff (run : GuestRun) (data : List UInt8) :
    (∀ run', handleCmdResponce lib task run data = some run' →
        ∃ call ∈ run'.trace.drop run.trace.length, call.reads = true) ↔
      (saveMessageData run.guest.buffer data).1.complete = true := by
  unfold handleCmdResponce
  simp only
  split
  · rename_i complete
    apply iff_of_true _ complete
    intro run' done
    obtain ⟨⟨table, responce⟩, _, rfl⟩ := Option.map_eq_some_iff.mp done
    cases responce with
    | none => exact reads_of_extended rfl rfl
    | some responceBytes =>
      obtain ⟨sent, trace⟩ := handleAnswer_extends (((run.save data).withTable table).log
          (.decryptNative run.guest.lock.connectionID (run.save data).guest.buffer.message))
        (decodeResponce lib responceBytes task)
      exact reads_of_extended rfl (trace.trans (List.append_assoc _ _ _))
  · rename_i lacking
    apply iff_of_false _ lacking
    intro reads
    have read := reads _ rfl
    simp [GuestRun.save] at read

theorem not_goesOn {run run' : GuestRun} {event : GuestEvent} (done : dispatch lib task run event = some run')
    (quiet : run'.trace = run.trace) : ¬GoesOn lib task run event := by
  intro goesOn
  have read := goesOn run' done
  simp [quiet] at read

theorem goesOn_notify_iff (run : GuestRun) (moment : Moment) (data : List UInt8) :
    GoesOn lib task run (.notify moment data) ↔
      run.Saves ∧ (saveMessageData run.guest.buffer data).1.complete = true := by
  cases quit : run.quit with
  | true =>
    have still : dispatch lib task run (.notify moment data) = some run := by simp [dispatch, quit]
    apply iff_of_false (not_goesOn lib task still rfl)
    rintro ⟨⟨running, _⟩, _⟩
    rw [quit] at running
    cases running
  | false =>
    have given : dispatch lib task run (.notify moment data) = messageHandler lib task moment run data := by
      simp [dispatch, quit]
    unfold GoesOn
    rw [given]
    unfold messageHandler
    cases step : run.guest.guestStep with
    | begin =>
      rw [and_iff_right ⟨quit, .inl step⟩, ← handleStep2_reads_iff lib moment run data]
      simp
    | step4 =>
      rw [and_iff_right ⟨quit, .inr (.inl step)⟩]
      exact handleStep4_reads_iff lib task moment run data
    | cmdResult =>
      rw [and_iff_right ⟨quit, .inr (.inr step)⟩]
      exact handleCmdResponce_reads_iff lib task run data
    | step2 | step3 | done =>
      apply iff_of_false
      · intro goesOn
        have read := goesOn run rfl
        simp at read
      · rintro ⟨⟨_, saves⟩, _⟩
        simp [step] at saves

theorem not_goesOn_timeout (run : GuestRun) : ¬GoesOn lib task run .timeout := by
  cases quit : run.quit with
  | true =>
    have still : dispatch lib task run .timeout = some run := by simp [dispatch, quit]
    exact not_goesOn lib task still rfl
  | false =>
    have stopped : dispatch lib task run .timeout = some (stopMainLoopFunc run) := by simp [dispatch, quit]
    exact not_goesOn lib task stopped rfl

theorem collect_append (buffer : StepBuffer) (chunks : List (List UInt8)) (data : List UInt8) :
    collect buffer (chunks ++ [data]) = (saveMessageData (collect buffer chunks) data).1 := by
  simp [collect]

theorem Tracks.closed_iff {r : StepRun} (tracks : Tracks r) : r.run.guest.buffer.stepMaxSize = 0 ↔ r.taken = [] := by
  obtain ⟨buffer, header⟩ := tracks
  cases taken : r.taken with
  | nil => simp [buffer, taken, collect, StepBuffer.cleared]
  | cons first rest =>
    rw [taken] at header
    rw [buffer, taken, collect_cleared first rest (header first rfl), store_maxSize]
    exact iff_of_false (Nat.ne_of_gt (open_positive first)) (List.cons_ne_nil first rest)

theorem save_refused_iff (buffer : StepBuffer) (data : List UInt8) :
    (saveMessageData buffer data).2 ≠ 0 ↔ buffer.stepMaxSize = 0 ∧ data.length < 3 := by
  unfold saveMessageData
  by_cases closed : buffer.stepMaxSize = 0
  · by_cases short : data.length < 3 <;> simp [closed, short]
  · simp [closed]

theorem save_refused {buffer : StepBuffer} {data : List UInt8} (refused : (saveMessageData buffer data).2 ≠ 0) :
    (saveMessageData buffer data).1 = buffer := by
  obtain ⟨closed, short⟩ := (save_refused_iff buffer data).mp refused
  simp [saveMessageData, closed, short]

theorem Tracks.save {r : StepRun} (tracks : Tracks r) (data : List UInt8) :
    Tracks ⟨r.run.save data, if (saveMessageData r.run.guest.buffer data).2 = 0 then r.taken ++ [data] else r.taken⟩ := by
  by_cases taken : (saveMessageData r.run.guest.buffer data).2 = 0
  · rw [if_pos taken]
    constructor
    · show (saveMessageData r.run.guest.buffer data).1 = collect .cleared (r.taken ++ [data])
      rw [collect_append, ← tracks.1]
    · cases before : r.taken with
      | nil =>
        have closed := tracks.closed_iff.mpr before
        have long : ¬data.length < 3 := by
          intro short
          exact (save_refused_iff _ data).mpr ⟨closed, short⟩ taken
        simpa using Nat.le_of_not_lt long
      | cons first rest =>
        have header := tracks.2
        rw [before] at header
        exact header
  · rw [if_neg taken]
    constructor
    · show (saveMessageData r.run.guest.buffer data).1 = collect .cleared r.taken
      rw [save_refused taken, ← tracks.1]
    · exact tracks.2

theorem Tracks.leave {r : StepRun} (tracks : Tracks r) {run' : GuestRun} (leaves : Leaves r.run.guest.buffer run') :
    Tracks ⟨run', if run'.guest.buffer.stepMaxSize = 0 then [] else r.taken⟩ := by
  have cleared : run'.guest.buffer = .cleared → Tracks ⟨run', []⟩ := fun empty => ⟨empty, by simp⟩
  have kept : run'.guest.buffer = r.run.guest.buffer →
      Tracks ⟨run', if run'.guest.buffer.stepMaxSize = 0 then [] else r.taken⟩ := by
    intro same
    split
    · rename_i closed
      rw [same, tracks.closed_iff] at closed
      apply cleared
      rw [same, tracks.1, closed]
      rfl
    · exact ⟨same.trans tracks.1, tracks.2⟩
  rcases leaves with same | released
  · exact kept same
  · unfold StepBuffer.release at released
    split at released
    · rw [if_pos (by rw [released]; rfl)]
      exact cleared released
    · exact kept released

theorem Tracks.next {r r' : StepRun} {event : GuestEvent} (tracks : Tracks r)
    (done : recordTaken lib task r event = some r') : Tracks r' := by
  obtain ⟨run', moved, rfl⟩ := Option.map_eq_some_iff.mp done
  have unsaved : r.take event = r.taken → run'.guest.buffer = r.run.guest.buffer →
      Tracks ⟨run', if run'.guest.buffer.stepMaxSize = 0 then [] else r.take event⟩ := by
    intro same buffer
    rw [same]
    exact tracks.leave (.inl buffer)
  unfold dispatch at moved
  cases quit : r.run.quit with
  | true =>
    simp only [quit, if_true, Option.some.injEq] at moved
    apply unsaved
    · cases event <;> simp [StepRun.take, GuestRun.Saves, quit]
    · rw [moved]
  | false =>
    simp only [quit, Bool.false_eq_true, if_false] at moved
    cases event with
    | timeout =>
      cases moved
      exact unsaved rfl rfl
    | notify moment data =>
      have saved : r.run.Saves → Leaves (saveMessageData r.run.guest.buffer data).1 run' →
          Tracks ⟨run', if run'.guest.buffer.stepMaxSize = 0 then [] else r.take (.notify moment data)⟩ := by
        intro saves leaves
        have taken : r.take (.notify moment data) =
            if (saveMessageData r.run.guest.buffer data).2 = 0 then r.taken ++ [data] else r.taken := by
          simp [StepRun.take, saves]
        rw [taken]
        exact (tracks.save data).leave leaves
      change messageHandler lib task moment r.run data = some run' at moved
      unfold messageHandler at moved
      cases step : r.run.guest.guestStep with
      | begin =>
        simp only [step, Option.some.injEq] at moved
        apply saved ⟨quit, .inl step⟩
        rw [← moved]
        exact handleStep2_leaves lib moment r.run data
      | step4 =>
        simp only [step] at moved
        exact saved ⟨quit, .inr (.inl step)⟩ (handleStep4_leaves lib task moved)
      | cmdResult =>
        simp only [step] at moved
        exact saved ⟨quit, .inr (.inr step)⟩ (handleCmdResponce_leaves lib task moved)
      | step2 | step3 | done =>
        simp only [step, Option.some.injEq] at moved
        apply unsaved
        · simp [StepRun.take, GuestRun.Saves, step]
        · rw [moved]

theorem collect_complete_iff {first : List UInt8} (rest : List (List UInt8)) (header : 3 ≤ first.length) :
    (collect .cleared (first :: rest)).complete = true ↔ Whole (first :: rest) := by
  rw [collect_cleared first rest header, StepBuffer.complete, beq_iff_eq, store_maxSize, store_curSize, open_curSize,
    Nat.zero_add]
  exact ⟨fun whole => ⟨header, whole.symm⟩, fun whole => whole.2.symm⟩

theorem Tracks.completes_iff {r : StepRun} (tracks : Tracks r) (event : GuestEvent) :
    CompletesWhole lib task r event ↔ HoldsHeader r.run event := by
  cases event with
  | timeout => exact iff_of_true (fun goesOn => absurd goesOn (not_goesOn_timeout lib task r.run)) trivial
  | notify moment data =>
    have saved := tracks.save data
    unfold CompletesWhole
    rw [goesOn_notify_iff]
    constructor
    · intro whole saves closed
      by_contra short
      have refused := (save_refused_iff _ data).mpr ⟨closed, Nat.lt_of_not_le short⟩
      have complete : (saveMessageData r.run.guest.buffer data).1.complete = true := by
        rw [save_refused refused, tracks.1, tracks.closed_iff.mp closed]
        rfl
      obtain ⟨_, _, given, taken, _⟩ := whole ⟨saves, complete⟩
      cases given
      exact refused taken
    · rintro header ⟨saves, complete⟩
      have taken : (saveMessageData r.run.guest.buffer data).2 = 0 := by
        by_contra refused
        obtain ⟨closed, short⟩ := (save_refused_iff _ data).mp refused
        exact absurd (header saves closed) (Nat.not_le.mpr short)
      refine ⟨moment, data, rfl, taken, ?_⟩
      rw [if_pos taken] at saved
      obtain ⟨collected, begun⟩ := saved
      change (saveMessageData r.run.guest.buffer data).1 = _ at collected
      rw [collected] at complete
      cases chunks : r.taken ++ [data] with
      | nil => simp at chunks
      | cons first rest =>
        rw [chunks] at begun complete
        exact (collect_complete_iff rest (begun first rfl)).mp complete

/-- In a session, a handler goes on to read a message only when its header has been parsed and as many
    bytes as it declares have been collected, exactly if no notification of fewer than three bytes comes
    before the header. -/
theorem completes_whole_iff_headers (setup : GattSetup) (moment : Moment) (table : Connections) (lock : Lock)
    (events : List GuestEvent) :
    Runs.Along (recordTaken lib task) (CompletesWhole lib task)
        ⟨(startGuestRun lib setup moment table lock).1, []⟩ events ↔
      Runs.Along (dispatch lib task) HoldsHeader (startGuestRun lib setup moment table lock).1 events := by
  have projected : ∀ r event, (recordTaken lib task r event).map StepRun.run = dispatch lib task r.run event := by
    intro r event
    simp [recordTaken, Function.comp_def]
  apply Runs.along_record_iff (dispatch lib task) StepRun.run projected Tracks
  · intro r event r' tracks _ done
    exact tracks.next lib task done
  · intro r event tracks
    exact tracks.completes_iff lib task event
  · exact ⟨startGuestRun_buffer lib setup moment table lock, by simp⟩

/-- A notification without a byte, in a session that waits for step 2. -/
theorem empty_notification_completes :
    (startGuestRun sampleLib sampleSetup sampleMoment .zero sampleLock).2 = 0 ∧
      ¬Runs.Along (recordTaken sampleLib .getBatteryLevel) (CompletesWhole sampleLib .getBatteryLevel)
        ⟨(startGuestRun sampleLib sampleSetup sampleMoment .zero sampleLock).1, []⟩ [.notify sampleMoment []] := by
  have begun : (startGuestRun sampleLib sampleSetup sampleMoment .zero sampleLock).1.quit = false ∧
      (startGuestRun sampleLib sampleSetup sampleMoment .zero sampleLock).1.guest.guestStep = .begin ∧
      (startGuestRun sampleLib sampleSetup sampleMoment .zero sampleLock).2 = 0 := by decide +kernel
  refine ⟨begun.2.2, ?_⟩
  rintro ⟨whole, _⟩
  have complete := (goesOn_notify_iff sampleLib .getBatteryLevel _ sampleMoment []).mpr
    ⟨⟨begun.1, .inl begun.2.1⟩, by rw [startGuestRun_buffer]; decide⟩
  obtain ⟨_, data, given, taken, _⟩ := whole complete
  cases given
  rw [startGuestRun_buffer] at taken
  exact absurd taken (by decide)

end Bridge
