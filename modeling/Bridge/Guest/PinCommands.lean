import Bridge.Guest.Run
import Bridge.Guest.Steps
import Bridge.Messages.RoundTrip
import Bridge.WifiService.Agreement

namespace Bridge

open Cbor

structure CommandLib.PinsGenerated (command : CommandLib) : Prop where
  createPin : ∃ garbage, command.createPinRequest = CreatePinRequest.format.codec garbage
  deletePin : ∃ garbage, command.deletePinRequest = DeletePinRequest.format.codec garbage

def requestId (libc : Libc) (now : Int) : Nat := libc.rand (now % 2 ^ 32).toNat 0 % 2147483647

/-- A request that is encrypted is one that the lock decodes to this one; a request that is refused, or that the
    buffer does not hold, leaves no call and no frame. -/
structure RequestFaithful {Request : Type} (format : Format Request) (codec : Codec Request) (request : Request)
    (accepted : Prop) (run run' : GuestRun) : Prop where
  encrypted : ∀ connectionId plain, GuestCall.encryptNative connectionId plain ∈ run'.trace.drop run.trace.length →
    connectionId = run.guest.lock.connectionID ∧ codec.decode plain = (false, request)
  refused : ¬(accepted ∧ (format.wire request).length ≤ bufSize) → run'.trace = run.trace ∧ run'.table = run.table
  arrives : accepted → (format.wire request).length ≤ bufSize →
    ∃ connectionId plain, GuestCall.encryptNative connectionId plain ∈ run'.trace.drop run.trace.length

theorem encoded_returns {Obj : Type} {format : Format Obj} (compact : format.Compact) {obj : Obj}
    (typed : format.WellTyped obj) (required : ∀ field ∈ format.fields, field.required = true → (field.get obj).isSome = true)
    {size : Nat} (narrow : size < 2 ^ 32) (fits : (format.wire obj).length ≤ size) (garbage : CborValue) :
    (format.codec garbage).decode (format.wire obj) = (false, obj) := by
  have strings := stringBytes_lt compact.lawful required
  have sized : format.Sized (2 ^ 64) obj := by
    intro field member item held content is
    have part : bytesSize ((field.get obj).bind itemBytes) ≤ format.stringBytes obj :=
      List.single_le_sum (fun _ _ => Nat.zero_le _) _ (List.mem_map.mpr ⟨field, member, rfl⟩)
    rw [held, Option.bind_some, is, itemBytes, bytesSize, Option.getD_some] at part
    omega
  have decoded := decode_wire compact.lawful typed sized required compact.same garbage
  simp only [Format.codec, decoded]
  rfl

section Write

variable {Request : Type} {format : Format Request} {codec : Codec Request} {lib : GuestLib} {task : TaskType}
  {moment : Moment} {run : GuestRun} {request : Request} {accepted : Prop} [Decidable accepted]

theorem request_faithful (encodes : encodeRequest lib moment.now run.guest.lock task =
      if accepted ∧ (format.wire request).length ≤ bufSize then some (format.wire request) else none)
    (returns : accepted → (format.wire request).length ≤ bufSize → codec.decode (format.wire request) = (false, request)) :
    RequestFaithful format codec request accepted run (writeCmdRequest lib task moment run) := by
  by_cases sent : accepted ∧ (format.wire request).length ≤ bufSize
  · rw [if_pos sent] at encodes
    have written : ∃ frames, (writeCmdRequest lib task moment run).trace =
        run.trace ++ .encryptNative run.guest.lock.connectionID (format.wire request) :: frames ∧
          ∀ call ∈ frames, ∃ frame ret, call = .writeRequest frame ret := by
      cases framed : (encryptNative lib.connection.ccm run.table run.guest.lock.connectionID (format.wire request)).2.bind
          (sendFrame moment) with
      | none =>
        refine ⟨[], ?_, List.forall_mem_nil _⟩
        simp only [writeCmdRequest, encodes, framed]
        rfl
      | some piece =>
        refine ⟨[.writeRequest piece.1 piece.2], ?_, ?_⟩
        · simp only [writeCmdRequest, encodes, framed]
          simp [GuestRun.log, GuestRun.withTable, GuestRun.setStep, GuestRun.setResult]
        · rw [List.forall_mem_singleton]
          exact ⟨_, _, rfl⟩
    rcases written with ⟨frames, trace, only⟩
    have added : (writeCmdRequest lib task moment run).trace.drop run.trace.length =
        .encryptNative run.guest.lock.connectionID (format.wire request) :: frames := by
      rw [trace, List.drop_left]
    apply RequestFaithful.mk
    · intro connectionId plain called
      rw [added] at called
      rcases List.mem_cons.mp called with same | later
      · cases same
        exact ⟨rfl, returns sent.1 sent.2⟩
      · rcases only _ later with ⟨frame, ret, other⟩
        cases other
    · exact fun unsent => absurd sent unsent
    · intro _ _
      refine ⟨run.guest.lock.connectionID, format.wire request, ?_⟩
      rw [added]
      exact List.mem_cons_self
  · rw [if_neg sent] at encodes
    have quiet : writeCmdRequest lib task moment run = run.setResult errCmd := by
      simp only [writeCmdRequest, encodes]
    rw [quiet]
    apply RequestFaithful.mk
    · intro connectionId plain called
      rw [show (run.setResult errCmd).trace = run.trace from rfl, List.drop_length] at called
      cases called
    · exact fun _ => ⟨rfl, rfl⟩
    · exact fun allowed fits => absurd ⟨allowed, fits⟩ sent

end Write

/-- The request for a new pin that the lock should come to read. -/
def createPinFor (lib : GuestLib) (now : Int) (lock : Lock) (cmdReq : CreatePinRequest) : CreatePinRequest :=
  { cmdReq with password := some lock.password, operationId := some (cmdReq.operationId.getD (requestId lib.libc now)) }

def deletePinFor (lib : GuestLib) (now : Int) (lock : Lock) (cmdReq : DeletePinRequest) : DeletePinRequest :=
  { cmdReq with password := some lock.password, operationId := some (cmdReq.operationId.getD (requestId lib.libc now)) }

theorem requestId_lt (libc : Libc) (now : Int) : requestId libc now < 2 ^ 32 := by
  have bound := Nat.mod_lt (libc.rand (now % 2 ^ 32).toNat 0) (by decide : 2147483647 > 0)
  exact bound.trans (by decide)

theorem encoded_with_password {Obj : Type} {format : Format Obj} (lawful : format.Lawful) (garbage : CborValue)
    (accepted : Bool) (made : Option (List UInt8) → Obj)
    (valid : accepted = true → ∀ password, format.isValid (made password) = password.isSome) (password : List UInt8) :
    (if !accepted then none else (format.codec garbage).encode (made (setBytes password)) bufSize) =
      if (accepted = true ∧ password ≠ []) ∧ (format.wire (made (some password))).length ≤ bufSize then
        some (format.wire (made (some password))) else none := by
  have encodes : ∀ obj, (format.codec garbage).encode obj bufSize =
      if format.isValid obj = true ∧ (format.wire obj).length ≤ bufSize then some (format.wire obj) else none :=
    fun obj => encode_eq lawful obj (bufSize % 2 ^ 32)
  cases accepted with
  | false => simp
  | true =>
    rw [Bool.not_true, if_neg Bool.false_ne_true, encodes, valid rfl]
    by_cases empty : password = []
    · rw [empty]
      rfl
    · rw [setBytes_some empty]
      exact if_congr (and_congr_left fun _ => iff_of_true rfl ⟨rfl, empty⟩) rfl rfl

section Pins

variable {lib : GuestLib} (generated : lib.command.PinsGenerated) {now : Int} {lock : Lock}
include generated

theorem createPin_encodes (cmdReq : CreatePinRequest) : encodeRequest lib now lock (.createPin cmdReq) =
    if (cmdReq.isValid = true ∧ lock.password ≠ []) ∧
        (CreatePinRequest.format.wire (createPinFor lib now lock cmdReq)).length ≤ bufSize then
      some (CreatePinRequest.format.wire (createPinFor lib now lock cmdReq)) else none := by
  rcases generated.createPin with ⟨garbage, real⟩
  simp only [encodeRequest, real]
  apply encoded_with_password CreatePinRequest.format_lawful garbage cmdReq.isValid fun password =>
    { createPinFor lib now lock cmdReq with password := password }
  intro accepted password
  have pin : cmdReq.newPin.isSome = true := (Bool.and_eq_true_iff.mp accepted).2
  show (password.isSome && cmdReq.newPin.isSome) = password.isSome
  rw [pin, Bool.and_true]

theorem deletePin_encodes (cmdReq : DeletePinRequest) : encodeRequest lib now lock (.delPin cmdReq) =
    if (cmdReq.isValid = true ∧ lock.password ≠ []) ∧
        (DeletePinRequest.format.wire (deletePinFor lib now lock cmdReq)).length ≤ bufSize then
      some (DeletePinRequest.format.wire (deletePinFor lib now lock cmdReq)) else none := by
  rcases generated.deletePin with ⟨garbage, real⟩
  simp only [encodeRequest, real]
  apply encoded_with_password DeletePinRequest.format_lawful garbage cmdReq.isValid fun password =>
    { deletePinFor lib now lock cmdReq with password := password }
  intro accepted password
  have pin : cmdReq.oldPin.isSome = true := (Bool.and_eq_true_iff.mp accepted).2
  show (password.isSome && cmdReq.oldPin.isSome) = password.isSome
  rw [pin, Bool.and_true]

end Pins

theorem CreatePinRequest.format_compact : CreatePinRequest.format.Compact :=
  ⟨format_lawful, rfl, by decide, by decide⟩

theorem DeletePinRequest.format_compact : DeletePinRequest.format.Compact :=
  ⟨format_lawful, rfl, by decide, by decide⟩

section Typed

theorem password_admits {password : List UInt8} (filled : password ≠ []) :
    ∀ item, (some password).map Item.bytes = some item → ∃ content, item = .bytes content ∧ content ≠ [] := by
  rintro item ⟨⟩
  exact ⟨password, rfl, filled⟩

theorem operationId_admits (libc : Libc) (now : Int) {operationId : Option Nat}
    (typed : ∀ item, operationId.map (fun n : Nat => Item.int n) = some item → ∃ n : Nat, item = .int n ∧ n < 2 ^ 32) :
    ∀ item, (some (operationId.getD (requestId libc now))).map (fun n : Nat => Item.int n) = some item →
      ∃ n : Nat, item = .int n ∧ n < 2 ^ 32 := by
  rintro item ⟨⟩
  cases operationId with
  | none => exact ⟨_, rfl, requestId_lt libc now⟩
  | some id => exact typed (.int id) rfl

variable {lib : GuestLib} {now : Int} {lock : Lock} (filled : lock.password ≠ [])
include filled

theorem createPinFor_typed {cmdReq : CreatePinRequest} (typed : CreatePinRequest.format.WellTyped cmdReq) :
    CreatePinRequest.format.WellTyped (createPinFor lib now lock cmdReq) := by
  simp only [Format.WellTyped, CreatePinRequest.format, bytesField, uintField, List.forall_mem_cons, List.not_mem_nil,
    false_implies, implies_true, and_true, FieldType.admits, createPinFor] at typed ⊢
  rcases typed with ⟨_, newPin, startDate, endDate, pinType, operationId⟩
  exact ⟨password_admits filled, newPin, startDate, endDate, pinType, operationId_admits lib.libc now operationId⟩

theorem deletePinFor_typed {cmdReq : DeletePinRequest} (typed : DeletePinRequest.format.WellTyped cmdReq) :
    DeletePinRequest.format.WellTyped (deletePinFor lib now lock cmdReq) := by
  simp only [Format.WellTyped, DeletePinRequest.format, bytesField, uintField, List.forall_mem_cons, List.not_mem_nil,
    false_implies, implies_true, and_true, FieldType.admits, deletePinFor] at typed ⊢
  rcases typed with ⟨_, oldPin, operationId⟩
  exact ⟨password_admits filled, oldPin, operationId_admits lib.libc now operationId⟩

end Typed

/-- For every pin request as its setters make it: what `write_cmd_request` encrypts is the request for this lock,
    and an invalid one, or one that 128 bytes do not hold, is neither encrypted nor sent. -/
theorem pin_command_faithful (lib : GuestLib) (generated : lib.command.PinsGenerated) (moment : Moment) (run : GuestRun) :
    (∀ cmdReq, CreatePinRequest.format.WellTyped cmdReq →
      RequestFaithful CreatePinRequest.format lib.command.createPinRequest
        (createPinFor lib moment.now run.guest.lock cmdReq) (cmdReq.isValid = true ∧ run.guest.lock.password ≠ []) run
        (writeCmdRequest lib (.createPin cmdReq) moment run)) ∧
    (∀ cmdReq, DeletePinRequest.format.WellTyped cmdReq →
      RequestFaithful DeletePinRequest.format lib.command.deletePinRequest
        (deletePinFor lib moment.now run.guest.lock cmdReq) (cmdReq.isValid = true ∧ run.guest.lock.password ≠ []) run
        (writeCmdRequest lib (.delPin cmdReq) moment run)) := by
  constructor
  · intro cmdReq typed
    apply request_faithful (createPin_encodes generated cmdReq)
    rintro ⟨accepted, filled⟩ fits
    rcases generated.createPin with ⟨garbage, real⟩
    rw [real]
    apply encoded_returns CreatePinRequest.format_compact (createPinFor_typed filled typed) _ (by decide) fits
    have pin : cmdReq.newPin.isSome = true := (Bool.and_eq_true_iff.mp accepted).2
    simpa [CreatePinRequest.format, bytesField, uintField, createPinFor] using pin
  · intro cmdReq typed
    apply request_faithful (deletePin_encodes generated cmdReq)
    rintro ⟨accepted, filled⟩ fits
    rcases generated.deletePin with ⟨garbage, real⟩
    rw [real]
    apply encoded_returns DeletePinRequest.format_compact (deletePinFor_typed filled typed) _ (by decide) fits
    have pin : cmdReq.oldPin.isSome = true := (Bool.and_eq_true_iff.mp accepted).2
    simpa [DeletePinRequest.format, bytesField, uintField, deletePinFor] using pin

def samplePinLib : GuestLib :=
  { sampleLib with command := { sampleCommand with
      createPinRequest := CreatePinRequest.format.codec emptyCursor
      deletePinRequest := DeletePinRequest.format.codec emptyCursor } }

def samplePinRun : GuestRun := initGuestRun .zero sampleLock

def sampleCreatePin : CreatePinRequest := { password := some [7], newPin := some [1, 2, 3, 4], startDate := some 70000 }

def sampleDeletePin : DeletePinRequest := { password := some [7], oldPin := some [1, 2, 3, 4], operationId := some 2 }

theorem sample_pin_commands_faithful :
    RequestFaithful CreatePinRequest.format samplePinLib.command.createPinRequest
      (createPinFor samplePinLib 0 sampleLock sampleCreatePin) (sampleCreatePin.isValid = true ∧ sampleLock.password ≠ [])
      samplePinRun (writeCmdRequest samplePinLib (.createPin sampleCreatePin) sampleMoment samplePinRun) ∧
    RequestFaithful DeletePinRequest.format samplePinLib.command.deletePinRequest
      (deletePinFor samplePinLib 0 sampleLock sampleDeletePin) (sampleDeletePin.isValid = true ∧ sampleLock.password ≠ [])
      samplePinRun (writeCmdRequest samplePinLib (.delPin sampleDeletePin) sampleMoment samplePinRun) := by
  have both := pin_command_faithful samplePinLib ⟨⟨_, rfl⟩, ⟨_, rfl⟩⟩ sampleMoment samplePinRun
  constructor
  · apply both.1
    simp [Format.WellTyped, CreatePinRequest.format, bytesField, uintField, FieldType.admits, sampleCreatePin]
    exact ⟨70000, rfl, by decide⟩
  · apply both.2
    simp [Format.WellTyped, DeletePinRequest.format, bytesField, uintField, FieldType.admits, sampleDeletePin]
    exact ⟨2, rfl, by decide⟩

end Bridge
