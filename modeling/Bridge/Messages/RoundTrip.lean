import Bridge.Messages.Wire
import Mathlib.Algebra.Order.BigOperators.Group.List

namespace Bridge

open ByteCounter Cbor

variable {Obj : Type}

def Format.RoundTrips (format : Format Obj) (obj : Obj) : Prop :=
  ∃ bytes, format.encode obj (format.getMaxPayloadInBytes obj) = some bytes ∧
    bytes.length ≤ format.getMaxPayloadInBytes obj ∧
    ∀ garbage, format.decode garbage bytes format.init = some (.noError, obj)

def Format.stringBytes (format : Format Obj) (obj : Obj) : Nat :=
  (format.fields.map fun field => bytesSize ((field.get obj).bind itemBytes)).sum

def FieldType.cost : FieldType → Nat
  | .uint bits => if bits ≤ 8 then 2 else 5
  | .int32 | .bytes | .rawBytes => 5
  | .boolean => 1

def Field.cost (field : Field Obj) : Nat := (if field.tag < 24 then 1 else 2) + field.type.cost

def Format.overhead (format : Format Obj) : Nat :=
  (if format.msgId < 24 then 3 else 4) + (format.fields.map Field.cost).sum

def Field.spent (field : Field Obj) (obj : Obj) : Nat :=
  ((field.entry obj).map fun item => (pairWire (field, item)).length).getD 0

theorem entries_length (format : Format Obj) (obj : Obj) :
    ((format.entries obj).flatMap pairWire).length = (format.fields.map fun field => field.spent obj).sum := by
  unfold Format.entries
  induction format.fields with
  | nil => rfl
  | cons field rest ih =>
    cases entry : field.entry obj with
    | none => simp [entry, ih, Field.spent]
    | some item => simp [entry, ih, Field.spent]

theorem number_byte {n : Nat} (majorType : Nat) (fits : n < 2 ^ 8) : (numberBytes (n % 2 ^ 64) majorType).length ≤ 2 := by
  rw [Nat.mod_eq_of_lt (by omega)]
  exact numberBytes_length_le majorType (by decide : 0 < 4) (by omega)

theorem number_word {n : Nat} (majorType : Nat) (fits : n < 2 ^ 32) : (numberBytes (n % 2 ^ 64) majorType).length ≤ 5 := by
  rw [Nat.mod_eq_of_lt (by omega)]
  exact numberBytes_length_le majorType (by decide : 2 < 4) (by omega)

theorem number_short {n : Nat} (majorType : Nat) (fits : n < 24) : (numberBytes (n % 2 ^ 64) majorType).length = 1 := by
  rw [Nat.mod_eq_of_lt (by omega)]
  exact numberBytes_small majorType fits

theorem wire_cost {type : FieldType} {item : Item} (admits : type.admits item)
    (narrow : ∀ bits, type = .uint bits → bits ≤ 32) (sized : itemSized (2 ^ 32) item) :
    (type.wire item).length ≤ type.cost + bytesSize (itemBytes item) := by
  cases type with
  | uint bits =>
    obtain ⟨n, rfl, fits⟩ := admits
    have width : 2 ^ bits ≤ 2 ^ 32 := Nat.pow_le_pow_right (by decide) (narrow bits rfl)
    simp only [FieldType.wire, Int.toNat_natCast, FieldType.cost]
    split
    · rename_i byte
      have small : 2 ^ bits ≤ 2 ^ 8 := Nat.pow_le_pow_right (by decide) byte
      exact Nat.le_add_right_of_le (number_byte 0 (by omega))
    · exact Nat.le_add_right_of_le (number_word 0 (by omega))
  | int32 =>
    obtain ⟨n, rfl, low, high⟩ := admits
    simp only [FieldType.wire, FieldType.cost]
    split
    · exact Nat.le_add_right_of_le (number_word 1 (by omega))
    · exact Nat.le_add_right_of_le (number_word 0 (by omega))
  | bytes =>
    obtain ⟨content, rfl, _⟩ := admits
    have head := number_word 2 (sized content rfl)
    simp only [FieldType.wire, List.length_append, FieldType.cost, bytesSize, itemBytes, Option.getD_some]
    omega
  | rawBytes =>
    obtain ⟨content, rfl⟩ := admits
    have head := number_word 2 (sized content rfl)
    simp only [FieldType.wire, List.length_append, FieldType.cost, bytesSize, itemBytes, Option.getD_some]
    omega
  | boolean =>
    obtain ⟨value, rfl⟩ := admits
    cases value <;> decide

theorem wire_content {type : FieldType} {item : Item} (shaped : type.shaped item) :
    bytesSize (itemBytes item) ≤ (type.wire item).length := by
  cases type with
  | uint bits | int32 | boolean =>
    obtain ⟨_, rfl⟩ := shaped
    exact Nat.zero_le _
  | bytes | rawBytes =>
    obtain ⟨content, rfl⟩ := shaped
    simp only [FieldType.wire, List.length_append, bytesSize, itemBytes, Option.getD_some]
    omega

theorem entry_get {format : Format Obj} {obj : Obj}
    (required : ∀ field ∈ format.fields, field.required = true → (field.get obj).isSome = true) {field : Field Obj}
    (member : field ∈ format.fields) : field.entry obj = field.get obj := by
  unfold Field.entry
  split
  · rename_i needed
    obtain ⟨item, held⟩ := Option.isSome_iff_exists.mp (required field member needed)
    rw [held]
    rfl
  · rfl

section Sizes

variable {format : Format Obj} (lawful : format.Lawful) {obj : Obj}
  (required : ∀ field ∈ format.fields, field.required = true → (field.get obj).isSome = true)
include lawful required

theorem spent_le (typed : format.WellTyped obj) (sized : format.Sized (2 ^ 32) obj) {field : Field Obj}
    (member : field ∈ format.fields) :
    field.spent obj ≤ field.cost + bytesSize ((field.get obj).bind itemBytes) := by
  rw [Field.spent, entry_get required member]
  cases held : field.get obj with
  | none => exact Nat.zero_le _
  | some item =>
    have value := wire_cost (typed field member item held) (lawful.widths field member) (sized field member item held)
    have range := (lawful.tag_range field member).2
    have key : (numberBytes (field.tag % 2 ^ 64) 0).length ≤ if field.tag < 24 then 1 else 2 := by
      split
      · rename_i small
        exact Nat.le_of_eq (number_short 0 small)
      · exact number_byte 0 (by omega)
    simp only [Option.map_some, Option.getD_some, Option.bind_some, pairWire, List.length_append, Field.cost]
    omega

theorem le_spent {field : Field Obj} (member : field ∈ format.fields) :
    bytesSize ((field.get obj).bind itemBytes) ≤ field.spent obj := by
  rw [Field.spent, entry_get required member]
  cases held : field.get obj with
  | none => exact Nat.zero_le _
  | some item =>
    have value := wire_content ((lawful.regular field member).get_shaped obj item held)
    simp only [Option.map_some, Option.getD_some, Option.bind_some, pairWire, List.length_append]
    omega

theorem wire_length_le (typed : format.WellTyped obj) (sized : format.Sized (2 ^ 32) obj)
    (short : format.fields.length < 23) :
    (format.wire obj).length ≤ format.overhead + format.stringBytes obj := by
  have few : (format.entries obj).length ≤ format.fields.length := List.length_filterMap_le _ _
  have count := number_short 5 (by omega : 1 + (format.entries obj).length < 24)
  have zero := number_short 0 (by decide : 0 < 24)
  have ids := lawful.ids.1
  have id : (numberBytes (format.msgId % 2 ^ 64) 0).length + 2 ≤ if format.msgId < 24 then 3 else 4 := by
    split
    · rename_i small
      rw [number_short 0 small]
    · exact Nat.add_le_add_right (number_byte 0 (by omega)) 2
  have sum : (format.fields.map fun field => field.spent obj).sum ≤
      (format.fields.map fun field => field.cost + bytesSize ((field.get obj).bind itemBytes)).sum :=
    List.sum_le_sum fun field member => spent_le lawful required typed sized member
  have split := List.sum_map_add (l := format.fields) (f := Field.cost)
    (g := fun field => bytesSize ((field.get obj).bind itemBytes))
  rw [Format.wire, List.length_append, List.length_append, List.length_append, count, zero, entries_length,
    Format.overhead, Format.stringBytes]
  omega

theorem stringBytes_lt : format.stringBytes obj < (format.wire obj).length := by
  have sum : format.stringBytes obj ≤ (format.fields.map fun field => field.spent obj).sum :=
    List.sum_le_sum fun field member => le_spent lawful required member
  have zero := number_short 0 (by decide : 0 < 24)
  rw [Format.wire, List.length_append, List.length_append, List.length_append, zero, entries_length]
  omega

/-- The sum of the sizes must not wrap where it is returned as a `uint32_t`. -/
theorem roundTrips_iff (valid : format.isValid obj = true) (typed : format.WellTyped obj)
    (sized : format.Sized (2 ^ 32) obj) (same : format.msgId = format.acceptedId) (short : format.fields.length < 23)
    (enough : format.overhead ≤ format.base) (small : format.base < 2 ^ 32) :
    format.RoundTrips obj ↔ format.base + format.stringBytes obj < 2 ^ 32 := by
  have upper := wire_length_le lawful required typed sized short
  have lower := stringBytes_lt lawful required
  have size : format.getMaxPayloadInBytes obj = (format.base + format.stringBytes obj) % 2 ^ 32 := rfl
  rw [Format.RoundTrips, encode_eq lawful, size]
  constructor
  · intro trip
    obtain ⟨bytes, encoded, _⟩ := trip
    by_contra wraps
    have less := Nat.mod_add_div (format.base + format.stringBytes obj) (2 ^ 32)
    have turns := Nat.div_pos (Nat.not_lt.mp wraps) (by decide)
    split at encoded
    · rename_i fits
      omega
    · cases encoded
  · intro narrow
    rw [Nat.mod_eq_of_lt narrow]
    have fits : (format.wire obj).length ≤ format.base + format.stringBytes obj := by omega
    refine ⟨format.wire obj, if_pos ⟨valid, fits⟩, fits, fun garbage => ?_⟩
    apply decode_wire lawful typed ?_ required same garbage
    intro field member item held content is
    have bound := sized field member item held content is
    omega

end Sizes

/-- A valid object as its setters can make it, with byte strings shorter than 2^32. -/
structure Format.Proper (format : Format Obj) (obj : Obj) : Prop where
  valid : format.isValid obj = true
  typed : format.WellTyped obj
  sized : format.Sized (2 ^ 32) obj

theorem CreatePinRequest.required_some {obj : CreatePinRequest} (valid : format.isValid obj = true) :
    ∀ field ∈ format.fields, field.required = true → (field.get obj).isSome = true := by
  simpa [format, bytesField, uintField, CreatePinRequest.isValid] using valid

theorem GuestToken.required_some {obj : GuestToken} (valid : format.isValid obj = true) :
    ∀ field ∈ format.fields, field.required = true → (field.get obj).isSome = true := by
  simpa [format, bytesField, uintField] using valid

theorem LogEntry.required_some {obj : LogEntry} (valid : format.isValid obj = true) :
    ∀ field ∈ format.fields, field.required = true → (field.get obj).isSome = true := by
  simpa [format, bytesField, uintField] using valid

theorem PairingStep3.required_some {obj : PairingStep3} (valid : format.isValid obj = true) :
    ∀ field ∈ format.fields, field.required = true → (field.get obj).isSome = true := by
  simpa [format, bytesField, int32Field, PairingStep3.isValid] using valid

/-- The declared size is enough, and the round trip works, as long as the sum of the sizes does not
    wrap. -/
theorem message_round_trip (pin : CreatePinRequest) (token : GuestToken) (entry : LogEntry) (step3 : PairingStep3) :
    (CreatePinRequest.format.Proper pin → (CreatePinRequest.format.RoundTrips pin ↔
      CreatePinRequest.format.base + CreatePinRequest.format.stringBytes pin < 2 ^ 32)) ∧
    (GuestToken.format.Proper token → (GuestToken.format.RoundTrips token ↔
      GuestToken.format.base + GuestToken.format.stringBytes token < 2 ^ 32)) ∧
    (LogEntry.format.Proper entry → (LogEntry.format.RoundTrips entry ↔
      LogEntry.format.base + LogEntry.format.stringBytes entry < 2 ^ 32)) ∧
    (PairingStep3.format.Proper step3 → (PairingStep3.format.RoundTrips step3 ↔
      PairingStep3.format.base + PairingStep3.format.stringBytes step3 < 2 ^ 32)) := by
  refine ⟨fun proper => ?_, fun proper => ?_, fun proper => ?_, fun proper => ?_⟩
  · exact roundTrips_iff CreatePinRequest.format_lawful (CreatePinRequest.required_some proper.valid) proper.valid
      proper.typed proper.sized rfl (by decide) (by decide) (by decide)
  · exact roundTrips_iff GuestToken.format_lawful (GuestToken.required_some proper.valid) proper.valid
      proper.typed proper.sized rfl (by decide) (by decide) (by decide)
  · exact roundTrips_iff LogEntry.format_lawful (LogEntry.required_some proper.valid) proper.valid
      proper.typed proper.sized rfl (by decide) (by decide) (by decide)
  · exact roundTrips_iff PairingStep3.format_lawful (PairingStep3.required_some proper.valid) proper.valid
      proper.typed proper.sized rfl (by decide) (by decide) (by decide)

theorem message_round_trip_small :
    CreatePinRequest.format.RoundTrips { password := some [1], newPin := some [2], pinType := some 200 } ∧
    GuestToken.format.RoundTrips { keyId := some 7, aesKey := some [3, 4] } ∧
    LogEntry.format.RoundTrips { entryDate := some 70000, logType := some 1, value5 := some [5] } ∧
    PairingStep3.format.RoundTrips { nonce := some [6], gmtOffset := some (-3600) } := by
  obtain ⟨pin, token, entry, step3⟩ := message_round_trip { password := some [1], newPin := some [2], pinType := some 200 }
    { keyId := some 7, aesKey := some [3, 4] } { entryDate := some 70000, logType := some 1, value5 := some [5] }
    { nonce := some [6], gmtOffset := some (-3600) }
  refine ⟨(pin ⟨rfl, ?_, ?_⟩).mpr (by decide), (token ⟨rfl, ?_, ?_⟩).mpr (by decide),
    (entry ⟨rfl, ?_, ?_⟩).mpr (by decide), (step3 ⟨rfl, ?_, ?_⟩).mpr (by decide)⟩
  · simp [Format.WellTyped, CreatePinRequest.format, bytesField, uintField, FieldType.admits]
    exact ⟨200, rfl, by decide⟩
  · simp [Format.Sized, itemSized, CreatePinRequest.format, bytesField, uintField]
  · simp [Format.WellTyped, GuestToken.format, bytesField, uintField, FieldType.admits]
    exact ⟨7, rfl, by decide⟩
  · simp [Format.Sized, itemSized, GuestToken.format, bytesField, uintField]
  · simp [Format.WellTyped, LogEntry.format, bytesField, uintField, FieldType.admits]
    exact ⟨⟨70000, rfl, by decide⟩, 1, rfl, by decide⟩
  · simp [Format.Sized, itemSized, LogEntry.format, bytesField, uintField]
  · simp [Format.WellTyped, PairingStep3.format, bytesField, int32Field, FieldType.admits]
  · simp [Format.Sized, itemSized, PairingStep3.format, bytesField, int32Field]

theorem full_password_fails {password : List UInt8} (full : password.length = 2 ^ 32 - 1) :
    CreatePinRequest.format.Proper { password := some password, newPin := some [0] } ∧
      ¬CreatePinRequest.format.RoundTrips { password := some password, newPin := some [0] } := by
  have filled : password ≠ [] := by
    rintro rfl
    cases full
  have bound : password.length < 2 ^ 32 := by omega
  have proper : CreatePinRequest.format.Proper { password := some password, newPin := some [0] } := by
    refine ⟨rfl, ?_, ?_⟩
    · simpa [Format.WellTyped, CreatePinRequest.format, bytesField, uintField, FieldType.admits] using filled
    · simpa [Format.Sized, itemSized, CreatePinRequest.format, bytesField, uintField] using bound
  refine ⟨proper, ?_⟩
  rw [roundTrips_iff CreatePinRequest.format_lawful (CreatePinRequest.required_some proper.valid) proper.valid
    proper.typed proper.sized rfl (by decide) (by decide) (by decide)]
  have sum : CreatePinRequest.format.stringBytes { password := some password, newPin := some [0] } =
      password.length + 1 := by
    simp [Format.stringBytes, CreatePinRequest.format, bytesField, uintField, itemBytes, bytesSize]
  have base : CreatePinRequest.format.base = 48 := rfl
  rw [sum, base]
  omega

def longPinRequest : CreatePinRequest := { password := some (List.replicate (2 ^ 32 - 1) 0), newPin := some [0] }

theorem long_pin_request_fails :
    CreatePinRequest.format.Proper longPinRequest ∧ ¬CreatePinRequest.format.RoundTrips longPinRequest :=
  full_password_fails List.length_replicate

end Bridge
