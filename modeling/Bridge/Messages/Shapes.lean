import Bridge.Messages.Kinds
import Bridge.Messages.RoundTrip

namespace Bridge

open Cbor

structure Slot where
  tag : Nat
  type : FieldType
  required : Bool
deriving DecidableEq, Repr

structure Shape where
  msgId : Nat
  slots : List Slot
  base : Nat
deriving DecidableEq, Repr

@[reducible]
def FieldType.Value : FieldType → Type
  | .uint _ => Nat
  | .int32 => Int
  | .bytes | .rawBytes => List UInt8
  | .boolean => Bool

def FieldType.toItem : (type : FieldType) → type.Value → Item
  | .uint _, (n : Nat) => .int n
  | .int32, n => .int n
  | .bytes, content | .rawBytes, content => .bytes content
  | .boolean, value => .simple (20 + value.toNat)

def FieldType.ofItem : (type : FieldType) → Item → Option type.Value
  | .uint _, item => (itemInt item).map Int.toNat
  | .int32, item => itemInt item
  | .bytes, item | .rawBytes, item => itemBytes item
  | .boolean, item => itemBool item

@[reducible]
def Shape.Object (shape : Shape) : Type := (i : Fin shape.slots.length) → Option (shape.slots.get i).type.Value

def Shape.field (shape : Shape) (i : Fin shape.slots.length) : Field shape.Object where
  tag := (shape.slots.get i).tag
  type := (shape.slots.get i).type
  required := (shape.slots.get i).required
  get obj := (obj i).map (shape.slots.get i).type.toItem
  set value obj := Function.update obj i (value.bind (shape.slots.get i).type.ofItem)

/-- `is_valid` asks for the flags of the required members. -/
def Shape.format (shape : Shape) : Format shape.Object where
  init := fun _ => none
  msgId := shape.msgId
  acceptedId := shape.msgId
  fields := (List.finRange shape.slots.length).map shape.field
  isValid obj := (List.finRange shape.slots.length).all fun i => !(shape.slots.get i).required || (obj i).isSome
  base := shape.base
  breaksAtEnd := false

theorem ofItem_toItem (type : FieldType) (value : type.Value) : type.ofItem (type.toItem value) = some value := by
  cases type with
  | uint bits | int32 | bytes | rawBytes => rfl
  | boolean => cases value <;> rfl

theorem toItem_shaped (type : FieldType) (value : type.Value) : type.shaped (type.toItem value) := by
  cases type <;> exact ⟨value, rfl⟩

theorem toItem_ofItem {type : FieldType} {item : Item} (shaped : type.shaped item) :
    (type.ofItem item).map type.toItem = some item := by
  cases type with
  | uint bits | int32 | bytes | rawBytes =>
    obtain ⟨value, rfl⟩ := shaped
    rfl
  | boolean =>
    obtain ⟨value, rfl⟩ := shaped
    cases value <;> rfl

theorem toItem_injective (type : FieldType) : Function.Injective type.toItem := by
  intro value other same
  have back := congrArg type.ofItem same
  rw [ofItem_toItem, ofItem_toItem] at back
  exact Option.some.inj back

/-- The tags of a switch differ, and the widths and ids are those of the C types. -/
structure Shape.WellFormed (shape : Shape) : Prop where
  tags : (shape.slots.map Slot.tag).Nodup
  tag_range : ∀ slot ∈ shape.slots, 0 < slot.tag ∧ slot.tag < 128
  widths : ∀ slot ∈ shape.slots, ∀ bits, slot.type = .uint bits → bits ≤ 32
  id : shape.msgId < 256
  few : shape.slots.length < 23
  enough : shape.format.overhead ≤ shape.base
  small : shape.base < 2 ^ 32

section Lawful

variable {shape : Shape} (wellFormed : shape.WellFormed)

theorem Shape.field_mem {field : Field shape.Object} (member : field ∈ shape.format.fields) :
    ∃ i, shape.field i = field := by
  obtain ⟨i, _, same⟩ := List.mem_map.mp member
  exact ⟨i, same⟩

theorem Shape.field_regular (i : Fin shape.slots.length) : (shape.field i).Regular where
  get_set value obj shaped := by
    change (Function.update obj i _ i).map _ = value
    rw [Function.update_self]
    cases value with
    | none => rfl
    | some item => exact toItem_ofItem (shaped item rfl)
  get_shaped obj item held := by
    obtain ⟨value, _, rfl⟩ := Option.map_eq_some_iff.mp held
    exact toItem_shaped _ value

theorem Shape.tags_eq (shape : Shape) : shape.format.fields.map Field.tag = shape.slots.map Slot.tag := by
  have tag : Field.tag ∘ shape.field = Slot.tag ∘ shape.slots.get := rfl
  rw [Shape.format, List.map_map, tag, ← List.map_map, List.map_get_finRange]

include wellFormed in
theorem Shape.format_lawful : shape.format.Lawful where
  regular field member := by
    obtain ⟨i, rfl⟩ := Shape.field_mem member
    exact Shape.field_regular i
  get_other field member other otherMember different value obj := by
    obtain ⟨i, rfl⟩ := Shape.field_mem member
    obtain ⟨j, rfl⟩ := Shape.field_mem otherMember
    have apart : j ≠ i := by
      rintro rfl
      exact different rfl
    change (Function.update obj i _ j).map _ = (obj j).map _
    rw [Function.update_of_ne apart]
  get_init field member := by
    obtain ⟨i, rfl⟩ := Shape.field_mem member
    rfl
  ext obj other same := by
    funext i
    have alike := same (shape.field i) (List.mem_map_of_mem (List.mem_finRange i))
    exact Option.map_injective (toItem_injective _) alike
  tags := by
    rw [Shape.tags_eq]
    exact wellFormed.tags
  tag_range field member := by
    obtain ⟨i, rfl⟩ := Shape.field_mem member
    exact wellFormed.tag_range _ (List.get_mem _ i)
  widths field member := by
    obtain ⟨i, rfl⟩ := Shape.field_mem member
    exact wellFormed.widths _ (List.get_mem _ i)
  ids := ⟨wellFormed.id, wellFormed.id⟩
  few := by
    rw [Shape.format, List.length_map, List.length_finRange]
    exact Nat.lt_trans wellFormed.few (by decide)

theorem Shape.required_some {obj : shape.Object} (valid : shape.format.isValid obj = true) :
    ∀ field ∈ shape.format.fields, field.required = true → (field.get obj).isSome = true := by
  intro field member required
  obtain ⟨i, rfl⟩ := Shape.field_mem member
  have flag := List.all_eq_true.mp valid i (List.mem_finRange i)
  have needed : (shape.slots.get i).required = true := required
  rw [needed] at flag
  change ((obj i).map _).isSome = true
  rw [Option.isSome_map]
  exact flag

include wellFormed in
theorem Shape.roundTrips {obj : shape.Object} (proper : shape.format.Proper obj) :
    shape.format.RoundTrips obj ↔ shape.base + shape.format.stringBytes obj < 2 ^ 32 := by
  have count : shape.format.fields.length < 23 := by
    rw [Shape.format, List.length_map, List.length_finRange]
    exact wellFormed.few
  exact roundTrips_iff (Shape.format_lawful wellFormed) (Shape.required_some proper.valid) proper.valid proper.typed
    proper.sized rfl count wellFormed.enough wellFormed.small

theorem Shape.refuses {other : Shape} (otherFormed : other.WellFormed) (distinct : shape.msgId ≠ other.msgId)
    {obj : other.Object} (typed : other.format.WellTyped obj) (sized : other.format.Sized (2 ^ 64) obj) {length : Nat}
    {bytes : List UInt8} (encoded : other.format.encode obj length = some bytes) (garbage : CborValue)
    (retval : shape.Object) :
    shape.format.decode garbage bytes retval = some (.invalidMsgIdValue, retval) := by
  rw [encode_eq (Shape.format_lawful otherFormed)] at encoded
  split at encoded
  · cases encoded
    exact foreign_reject (Shape.format_lawful otherFormed) typed sized (Ne.symm distinct) garbage retval
  · cases encoded

end Lawful

end Bridge
