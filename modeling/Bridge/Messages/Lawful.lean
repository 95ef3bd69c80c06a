import Bridge.Messages.Formats

namespace Bridge

open Cbor

variable {Obj : Type}

def FieldType.shaped : FieldType → Item → Prop
  | .uint _, item => ∃ n : Nat, item = .int n
  | .int32, item => ∃ n : Int, item = .int n
  | .bytes, item | .rawBytes, item => ∃ content, item = .bytes content
  | .boolean, item => ∃ value : Bool, item = .simple (20 + value.toNat)

structure Field.Regular (field : Field Obj) : Prop where
  get_set : ∀ value obj, (∀ item, value = some item → field.type.shaped item) → field.get (field.set value obj) = value
  get_shaped : ∀ obj item, field.get obj = some item → field.type.shaped item

/-- The fields are those of a C struct: independent of one another, unset at first, and all there is.
    The tags are those of a switch statement. -/
structure Format.Lawful (format : Format Obj) : Prop where
  regular : ∀ field ∈ format.fields, field.Regular
  get_other : ∀ field ∈ format.fields, ∀ other ∈ format.fields, field.tag ≠ other.tag →
    ∀ value obj, other.get (field.set value obj) = other.get obj
  get_init : ∀ field ∈ format.fields, field.get format.init = none
  ext : ∀ obj other, (∀ field ∈ format.fields, field.get obj = field.get other) → obj = other
  tags : (format.fields.map Field.tag).Nodup
  tag_range : ∀ field ∈ format.fields, 0 < field.tag ∧ field.tag < 128
  widths : ∀ field ∈ format.fields, ∀ bits, field.type = .uint bits → bits ≤ 32
  ids : format.msgId < 256 ∧ format.acceptedId < 256
  few : format.fields.length < 256

section Fields

variable (tag : Nat) (required : Bool)

theorem uintField_regular (bits : Nat) {get : Obj → Option Nat} {set : Option Nat → Obj → Obj}
    (lens : ∀ value obj, get (set value obj) = value) : (uintField bits tag required get set).Regular where
  get_set value obj shaped := by
    cases value with
    | none => simp [uintField, lens]
    | some item =>
      obtain ⟨n, rfl⟩ := shaped item rfl
      simp [uintField, lens, itemInt]
  get_shaped obj item held := by
    obtain ⟨n, _, same⟩ := Option.map_eq_some_iff.mp held
    exact ⟨n, same.symm⟩

theorem int32Field_regular {get : Obj → Option Int} {set : Option Int → Obj → Obj}
    (lens : ∀ value obj, get (set value obj) = value) : (int32Field tag get set).Regular where
  get_set value obj shaped := by
    cases value with
    | none => simp [int32Field, lens]
    | some item =>
      obtain ⟨n, rfl⟩ := shaped item rfl
      simp [int32Field, lens, itemInt]
  get_shaped obj item held := by
    obtain ⟨n, _, same⟩ := Option.map_eq_some_iff.mp held
    exact ⟨n, same.symm⟩

theorem bytesField_regular {get : Obj → Option (List UInt8)} {set : Option (List UInt8) → Obj → Obj}
    (lens : ∀ value obj, get (set value obj) = value) : (bytesField tag required get set).Regular where
  get_set value obj shaped := by
    cases value with
    | none => simp [bytesField, lens]
    | some item =>
      obtain ⟨content, rfl⟩ := shaped item rfl
      simp [bytesField, lens, itemBytes]
  get_shaped obj item held := by
    obtain ⟨content, _, same⟩ := Option.map_eq_some_iff.mp held
    exact ⟨content, same.symm⟩

theorem rawBytesField_regular {get : Obj → Option (List UInt8)} {set : Option (List UInt8) → Obj → Obj}
    (lens : ∀ value obj, get (set value obj) = value) : (rawBytesField tag get set).Regular where
  get_set := (bytesField_regular tag true lens).get_set
  get_shaped := (bytesField_regular tag true lens).get_shaped

theorem booleanField_regular {get : Obj → Option Bool} {set : Option Bool → Obj → Obj}
    (lens : ∀ value obj, get (set value obj) = value) : (booleanField tag get set).Regular where
  get_set value obj shaped := by
    cases value with
    | none => simp [booleanField, lens]
    | some item =>
      obtain ⟨flag, rfl⟩ := shaped item rfl
      cases flag <;> simp [booleanField, lens, itemBool]
  get_shaped obj item held := by
    obtain ⟨flag, _, same⟩ := Option.map_eq_some_iff.mp held
    exact ⟨flag, same.symm⟩

variable (obj other : Obj)

theorem uintField_get_inj (bits : Nat) (get : Obj → Option Nat) (set : Option Nat → Obj → Obj) :
    (uintField bits tag required get set).get obj = (uintField bits tag required get set).get other ↔
      get obj = get other := by
  apply (Option.map_injective _).eq_iff
  intro n m same
  exact Int.ofNat_inj.mp (Item.int.inj same)

theorem int32Field_get_inj (get : Obj → Option Int) (set : Option Int → Obj → Obj) :
    (int32Field tag get set).get obj = (int32Field tag get set).get other ↔ get obj = get other := by
  apply (Option.map_injective _).eq_iff
  intro n m same
  exact Item.int.inj same

theorem bytesField_get_inj (get : Obj → Option (List UInt8)) (set : Option (List UInt8) → Obj → Obj) :
    (bytesField tag required get set).get obj = (bytesField tag required get set).get other ↔
      get obj = get other := by
  apply (Option.map_injective _).eq_iff
  intro left right same
  exact Item.bytes.inj same

theorem rawBytesField_get_inj (get : Obj → Option (List UInt8)) (set : Option (List UInt8) → Obj → Obj) :
    (rawBytesField tag get set).get obj = (rawBytesField tag get set).get other ↔ get obj = get other :=
  bytesField_get_inj tag true obj other get set

theorem booleanField_get_inj (get : Obj → Option Bool) (set : Option Bool → Obj → Obj) :
    (booleanField tag get set).get obj = (booleanField tag get set).get other ↔ get obj = get other := by
  apply (Option.map_injective _).eq_iff
  intro left right same
  have sums := Item.simple.inj same
  cases left <;> cases right <;> simp at sums ⊢

end Fields

theorem CreatePinRequest.format_lawful : CreatePinRequest.format.Lawful where
  regular := by simp [CreatePinRequest.format, bytesField_regular, uintField_regular]
  get_other := by simp [CreatePinRequest.format, bytesField, uintField]
  get_init := by simp [CreatePinRequest.format, bytesField, uintField]
  ext := by
    intro obj other same
    cases obj
    cases other
    simpa [CreatePinRequest.format, bytesField_get_inj, uintField_get_inj] using same
  tags := by decide
  tag_range := by simp [CreatePinRequest.format, bytesField, uintField]
  widths := by simp [CreatePinRequest.format, bytesField, uintField]
  ids := by decide
  few := by decide

theorem DeletePinRequest.format_lawful : DeletePinRequest.format.Lawful where
  regular := by simp [DeletePinRequest.format, bytesField_regular, uintField_regular]
  get_other := by simp [DeletePinRequest.format, bytesField, uintField]
  get_init := by simp [DeletePinRequest.format, bytesField, uintField]
  ext := by
    intro obj other same
    cases obj
    cases other
    simpa [DeletePinRequest.format, bytesField_get_inj, uintField_get_inj] using same
  tags := by decide
  tag_range := by simp [DeletePinRequest.format, bytesField, uintField]
  widths := by simp [DeletePinRequest.format, bytesField, uintField]
  ids := by decide
  few := by decide

theorem GuestToken.format_lawful : GuestToken.format.Lawful where
  regular := by simp [GuestToken.format, uintField_regular, bytesField_regular]
  get_other := by simp [GuestToken.format, uintField, bytesField]
  get_init := by simp [GuestToken.format, uintField, bytesField]
  ext := by
    intro obj other same
    cases obj
    cases other
    simpa [GuestToken.format, uintField_get_inj, bytesField_get_inj] using same
  tags := by decide
  tag_range := by simp [GuestToken.format, uintField, bytesField]
  widths := by simp [GuestToken.format, uintField, bytesField]
  ids := by decide
  few := by decide

theorem LogEntry.format_lawful : LogEntry.format.Lawful where
  regular := by simp [LogEntry.format, uintField_regular, bytesField_regular]
  get_other := by simp [LogEntry.format, uintField, bytesField]
  get_init := by simp [LogEntry.format, uintField, bytesField]
  ext := by
    intro obj other same
    cases obj
    cases other
    simpa [LogEntry.format, uintField_get_inj, bytesField_get_inj] using same
  tags := by decide
  tag_range := by simp [LogEntry.format, uintField, bytesField]
  widths := by simp [LogEntry.format, uintField, bytesField]
  ids := by decide
  few := by decide

theorem PairingStep1.format_lawful : PairingStep1.format.Lawful where
  regular := by simp [PairingStep1.format, bytesField_regular]
  get_other := by simp [PairingStep1.format, bytesField]
  get_init := by simp [PairingStep1.format, bytesField]
  ext := by
    intro obj other same
    cases obj
    cases other
    simpa [PairingStep1.format, bytesField_get_inj] using same
  tags := by decide
  tag_range := by simp [PairingStep1.format, bytesField]
  widths := by simp [PairingStep1.format, bytesField]
  ids := by decide
  few := by decide

theorem PairingStep2.format_lawful : PairingStep2.format.Lawful where
  regular := by simp [PairingStep2.format, bytesField_regular]
  get_other := by simp [PairingStep2.format, bytesField]
  get_init := by simp [PairingStep2.format, bytesField]
  ext := by
    intro obj other same
    cases obj
    cases other
    simpa [PairingStep2.format, bytesField_get_inj] using same
  tags := by decide
  tag_range := by simp [PairingStep2.format, bytesField]
  widths := by simp [PairingStep2.format, bytesField]
  ids := by decide
  few := by decide

theorem PairingStep3.format_lawful : PairingStep3.format.Lawful where
  regular := by simp [PairingStep3.format, bytesField_regular, int32Field_regular]
  get_other := by simp [PairingStep3.format, bytesField, int32Field]
  get_init := by simp [PairingStep3.format, bytesField, int32Field]
  ext := by
    intro obj other same
    cases obj
    cases other
    simpa [PairingStep3.format, bytesField_get_inj, int32Field_get_inj] using same
  tags := by decide
  tag_range := by simp [PairingStep3.format, bytesField, int32Field]
  widths := by simp [PairingStep3.format, bytesField, int32Field]
  ids := by decide
  few := by decide

theorem PairingStep4.format_lawful : PairingStep4.format.Lawful where
  regular := by simp [PairingStep4.format, booleanField_regular, bytesField_regular, int32Field_regular]
  get_other := by simp [PairingStep4.format, booleanField, bytesField, int32Field]
  get_init := by simp [PairingStep4.format, booleanField, bytesField, int32Field]
  ext := by
    intro obj other same
    cases obj
    cases other
    simpa [PairingStep4.format, booleanField_get_inj, bytesField_get_inj, int32Field_get_inj] using same
  tags := by decide
  tag_range := by simp [PairingStep4.format, booleanField, bytesField, int32Field]
  widths := by simp [PairingStep4.format, booleanField, bytesField, int32Field]
  ids := by decide
  few := by decide

theorem PairingCommit.format_lawful : PairingCommit.format.Lawful where
  regular := by simp [PairingCommit.format, uintField_regular]
  get_other := by simp [PairingCommit.format, uintField]
  get_init := by simp [PairingCommit.format, uintField]
  ext := by
    intro obj other same
    cases obj
    cases other
    simpa [PairingCommit.format, uintField_get_inj] using same
  tags := by decide
  tag_range := by simp [PairingCommit.format, uintField]
  widths := by simp [PairingCommit.format, uintField]
  ids := by decide
  few := by decide

theorem GuestConnectionStep4.format_lawful : GuestConnectionStep4.format.Lawful where
  regular := by simp [GuestConnectionStep4.format, booleanField_regular]
  get_other := by simp [GuestConnectionStep4.format, booleanField]
  get_init := by simp [GuestConnectionStep4.format, booleanField]
  ext := by
    intro obj other same
    cases obj
    cases other
    simpa [GuestConnectionStep4.format, booleanField_get_inj] using same
  tags := by decide
  tag_range := by simp [GuestConnectionStep4.format, booleanField]
  widths := by simp [GuestConnectionStep4.format, booleanField]
  ids := by decide
  few := by decide

theorem CryptObject.format_lawful : CryptObject.format.Lawful where
  regular := by simp [CryptObject.format, rawBytesField_regular]
  get_other := by simp [CryptObject.format, rawBytesField, bytesField]
  get_init := by simp [CryptObject.format, rawBytesField, bytesField]
  ext := by
    intro obj other same
    cases obj
    cases other
    simpa [CryptObject.format, rawBytesField_get_inj] using same
  tags := by decide
  tag_range := by simp [CryptObject.format, rawBytesField, bytesField]
  widths := by simp [CryptObject.format, rawBytesField, bytesField]
  ids := by decide
  few := by decide

theorem SetWIFIInfoRequest.format_lawful : SetWIFIInfoRequest.format.Lawful where
  regular := by simp [SetWIFIInfoRequest.format, rawBytesField_regular]
  get_other := by simp [SetWIFIInfoRequest.format, rawBytesField, bytesField]
  get_init := by simp [SetWIFIInfoRequest.format, rawBytesField, bytesField]
  ext := by
    intro obj other same
    cases obj
    cases other
    simpa [SetWIFIInfoRequest.format, rawBytesField_get_inj] using same
  tags := by decide
  tag_range := by simp [SetWIFIInfoRequest.format, rawBytesField, bytesField]
  widths := by simp [SetWIFIInfoRequest.format, rawBytesField, bytesField]
  ids := by decide
  few := by decide

end Bridge
