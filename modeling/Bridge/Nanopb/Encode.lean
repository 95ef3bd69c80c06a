import Bridge.Nanopb.Stream

namespace Nanopb

open Protobuf (Field Value)

mutual

/-- What a field holds, of the types that the messages have. The array of `bytes` has room for the size that is allowed,
    and that of `string` for the NUL too. C compares a size with the whole padded struct: that allows the array's length
    where the length is even, as it is in every generated message. -/
inductive Data
  | uvarint (value : UInt32)
  | varint (value : Int32)
  | bytes (size : Nat) (array : List UInt8)
  | string (array : List UInt8)
  | submessage (fields : List PbField)

inductive PbField
  | singular (tag : UInt32) (data : Data)
  | optional (tag : UInt32) (has : Bool) (data : Data)

end

mutual

def Data.isDefault : Data → Bool
  | .uvarint value => value == 0
  | .varint value => value == 0
  | .bytes size _ => size == 0
  | .string array => array.head? == some 0
  | .submessage fields => allDefault fields

def PbField.isDefault : PbField → Bool
  | .singular _ data => data.isDefault
  | .optional _ has _ => !has

def allDefault : List PbField → Bool
  | [] => true
  | field :: rest => field.isDefault && allDefault rest

end

mutual

def encodeBasicField : Data → UInt32 → Ostream → Except String Ostream
  | .uvarint value, tag, stream => do encodeVarint (← encodeTag stream wtVarint tag) value.toNat
  | .varint value, tag, stream => do encodeVarint (← encodeTag stream wtVarint tag) value.toInt64.toUInt64.toNat
  | .bytes size array, tag, stream => do encBytes (← encodeTag stream wtString tag) size array
  | .string array, tag, stream => do encString (← encodeTag stream wtString tag) array
  | .submessage fields, tag, stream => do encodeSubmessage (pbEncode fields) (← encodeTag stream wtString tag)

def encodeField : PbField → Ostream → Except String Ostream
  | .singular tag data, stream => if data.isDefault then .ok stream else encodeBasicField data tag stream
  | .optional tag has data, stream => if has then encodeBasicField data tag stream else .ok stream

def pbEncode : List PbField → Ostream → Except String Ostream
  | [], stream => .ok stream
  | field :: rest, stream => do pbEncode rest (← encodeField field stream)

end

def getEncodedSize (fields : List PbField) : Except String Nat := do return (← pbEncode fields ostreamSizing).bytesWritten

mutual

/-- What the wire has of a field. -/
def Data.value : Data → Except String Value
  | .uvarint value => .ok (.number value.toNat)
  | .varint value => .ok (.number value.toInt64.toUInt64.toNat)
  | .bytes size array => if size ≤ array.length then .ok (.bytes (array.take size)) else .error "bytes size exceeded"
  | .string array =>
    match CString.chars array with
    | some string => .ok (.bytes string)
    | none => .error "unterminated string"
  | .submessage fields => do return .bytes (Protobuf.encode (← wire fields))

def PbField.wire : PbField → Except String (List Field)
  | .singular tag data => if data.isDefault then .ok [] else do return [⟨tag.toNat, ← data.value⟩]
  | .optional tag has data => if has then do return [⟨tag.toNat, ← data.value⟩] else .ok []

def wire : List PbField → Except String (List Field)
  | [] => .ok []
  | field :: rest => do return (← field.wire) ++ (← wire rest)

end

section Encodes

theorem content_short {bytes : List UInt8} (short : (Value.bytes bytes).encode.length < 2 ^ 64) : bytes.length < 2 ^ 64 := by
  rw [Value.encode, List.length_append] at short
  omega

theorem one_wired {data : Data} {tag : Nat} {w : List Field}
    (wired : (do return [(⟨tag, ← data.value⟩ : Field)]) = Except.ok w) :
    ∃ value, data.value = .ok value ∧ w = [⟨tag, value⟩] := by
  cases held : data.value with
  | error e => rw [held] at wired; cases wired
  | ok value =>
    rw [held] at wired
    cases wired
    exact ⟨value, rfl, rfl⟩

theorem cons_wired {field : PbField} {rest : List PbField} {w : List Field} (wired : wire (field :: rest) = .ok w) :
    ∃ head tail, field.wire = .ok head ∧ wire rest = .ok tail ∧ w = head ++ tail := by
  rw [wire] at wired
  cases first : field.wire with
  | error e => rw [first] at wired; cases wired
  | ok head =>
    cases later : wire rest with
    | error e => rw [first, later] at wired; cases wired
    | ok tail =>
      rw [first, later] at wired
      cases wired
      exact ⟨head, tail, rfl, rfl, rfl⟩

theorem encode_one (field : Field) : Protobuf.encode [field] = field.encode := by
  rw [Protobuf.encode, List.flatMap_singleton]

theorem one_short {tag : Nat} {value : Value} (short : (Protobuf.encode [⟨tag, value⟩]).length < 2 ^ 64) :
    value.encode.length < 2 ^ 64 := by
  rw [encode_one, Field.encode, List.length_append] at short
  exact Nat.lt_of_le_of_lt (Nat.le_add_left _ _) short

mutual

theorem basicField_puts (data : Data) (tag : UInt32) {value : Value} (wired : data.value = .ok value)
    (short : value.encode.length < 2 ^ 64) : Puts (encodeBasicField data tag) (Field.encode ⟨tag.toNat, value⟩) := by
  match data with
  | .uvarint n =>
    cases wired
    refine (encodeTag_puts (by decide) tag).andThen fun stream => ?_
    exact encodeVarint_eq stream (Nat.lt_trans n.toNat_lt (by decide))
  | .varint n =>
    cases wired
    refine (encodeTag_puts (by decide) tag).andThen fun stream => ?_
    exact encodeVarint_eq stream n.toInt64.toUInt64.toNat_lt
  | .bytes size array =>
    rw [Data.value] at wired
    split at wired
    · rename_i room
      cases wired
      have fits := content_short short
      rw [List.length_take, Nat.min_eq_left room] at fits
      exact (encodeTag_puts (by decide) tag).andThen (encBytes_puts room fits)
    · cases wired
  | .string array =>
    rw [Data.value] at wired
    split at wired
    · rename_i string read
      cases wired
      exact (encodeTag_puts (by decide) tag).andThen (encString_puts read (content_short short))
    · cases wired
  | .submessage fields =>
    rw [Data.value] at wired
    cases message : wire fields with
    | error e => rw [message] at wired; cases wired
    | ok w =>
      rw [message] at wired
      cases wired
      have fits := content_short short
      exact (encodeTag_puts (by decide) tag).andThen (submessage_puts (fields_puts fields message fits) fits)

theorem field_puts (field : PbField) {w : List Field} (wired : field.wire = .ok w)
    (short : (Protobuf.encode w).length < 2 ^ 64) : Puts (encodeField field) (Protobuf.encode w) := by
  match field with
  | .singular tag data =>
    rw [PbField.wire] at wired
    by_cases default : data.isDefault = true
    · rw [if_pos default] at wired
      cases wired
      intro stream
      rw [encodeField, if_pos default]
      exact (write_nil stream).symm
    · rw [if_neg default] at wired
      obtain ⟨value, held, rfl⟩ := one_wired wired
      intro stream
      rw [encodeField, if_neg default, encode_one]
      exact basicField_puts data tag held (one_short short) stream
  | .optional tag has data =>
    rw [PbField.wire] at wired
    by_cases present : has = true
    · rw [if_pos present] at wired
      obtain ⟨value, held, rfl⟩ := one_wired wired
      intro stream
      rw [encodeField, if_pos present, encode_one]
      exact basicField_puts data tag held (one_short short) stream
    · rw [if_neg present] at wired
      cases wired
      intro stream
      rw [encodeField, if_neg present]
      exact (write_nil stream).symm

theorem fields_puts (fields : List PbField) {w : List Field} (wired : wire fields = .ok w)
    (short : (Protobuf.encode w).length < 2 ^ 64) : Puts (pbEncode fields) (Protobuf.encode w) := by
  match fields with
  | [] =>
    rw [wire] at wired
    cases wired
    intro stream
    rw [pbEncode]
    exact (write_nil stream).symm
  | field :: rest =>
    obtain ⟨head, tail, first, later, rfl⟩ := cons_wired wired
    rw [Protobuf.encode_append] at short ⊢
    rw [List.length_append] at short
    intro stream
    rw [pbEncode]
    exact (field_puts field first (by omega)).andThen (fields_puts rest later (by omega)) stream

end

end Encodes

section Refuses

theorem one_refused {data : Data} {tag : Nat} {error : String}
    (refused : (do return [(⟨tag, ← data.value⟩ : Field)]) = Except.error error) : data.value = .error error := by
  cases held : data.value with
  | error e => rw [held] at refused; cases refused; rfl
  | ok value => rw [held] at refused; cases refused

theorem cons_refused {field : PbField} {rest : List PbField} {error : String}
    (refused : wire (field :: rest) = .error error) :
    field.wire = .error error ∨ wire rest = .error error := by
  rw [wire] at refused
  cases first : field.wire with
  | error e => rw [first] at refused; exact Or.inl refused
  | ok head =>
    cases later : wire rest with
    | error e => rw [first, later] at refused; exact Or.inr refused
    | ok tail => rw [first, later] at refused; cases refused

mutual

theorem basicField_fails (data : Data) (tag : UInt32) {error : String} (refused : data.value = .error error) :
    Fails (encodeBasicField data tag) := by
  match data with
  | .uvarint _ => cases refused
  | .varint _ => cases refused
  | .bytes size array =>
    rw [Data.value] at refused
    split at refused
    · cases refused
    · rename_i large
      refine Fails.andThen fun stream => ⟨"bytes size exceeded", ?_⟩
      rw [encBytes, if_pos (Nat.lt_of_not_le large)]
  | .string array =>
    rw [Data.value] at refused
    split at refused
    · cases refused
    · rename_i endless
      refine Fails.andThen fun stream => ?_
      obtain ⟨error, failed⟩ := encString_eq stream array
      rw [endless] at failed
      exact ⟨error, failed⟩
  | .submessage fields =>
    rw [Data.value] at refused
    cases message : wire fields with
    | error e => exact (submessage_fails (fields_fails fields message)).andThen
    | ok w => rw [message] at refused; cases refused

theorem field_fails (field : PbField) {error : String} (refused : field.wire = .error error) : Fails (encodeField field) := by
  match field with
  | .singular tag data =>
    rw [PbField.wire] at refused
    split at refused
    · cases refused
    · rename_i default
      intro stream
      rw [encodeField, if_neg default]
      exact basicField_fails data tag (one_refused refused) stream
  | .optional tag has data =>
    rw [PbField.wire] at refused
    split at refused
    · rename_i present
      intro stream
      rw [encodeField, if_pos present]
      exact basicField_fails data tag (one_refused refused) stream
    · cases refused

theorem fields_fails (fields : List PbField) {error : String} (refused : wire fields = .error error) :
    Fails (pbEncode fields) := by
  match fields with
  | [] => rw [wire] at refused; cases refused
  | field :: rest =>
    intro stream
    rw [pbEncode]
    rcases cons_refused refused with refused | refused
    · exact (field_fails field refused).before stream
    · exact (fields_fails rest refused).andThen stream

end

end Refuses

/-- The 64 bits of a varint can count the bytes. -/
def Countable (fields : List PbField) : Prop := ∀ w, wire fields = .ok w → (Protobuf.encode w).length < 2 ^ 64

/-- `pb_encode` to a buffer succeeds when the message fits in it. -/
theorem pbEncode_buffer {fields : List PbField} (countable : Countable fields) (bufsize : Nat) (stream : Ostream) :
    pbEncode fields (ostreamFromBuffer bufsize) = .ok stream ↔
      ∃ w, wire fields = .ok w ∧ (Protobuf.encode w).length ≤ bufsize ∧
        stream = ⟨some (Protobuf.encode w), bufsize, (Protobuf.encode w).length⟩ := by
  cases wired : wire fields with
  | error error =>
    obtain ⟨error, failed⟩ := fields_fails fields wired (ostreamFromBuffer bufsize)
    simp [failed]
  | ok w =>
    have puts := fields_puts fields wired (countable w wired) (ostreamFromBuffer bufsize)
    rw [ostreamFromBuffer, write_room, Nat.zero_add, List.nil_append] at puts
    rw [ostreamFromBuffer, puts]
    by_cases room : (Protobuf.encode w).length ≤ bufsize
    · rw [if_neg (by omega)]
      simp [room, eq_comm]
    · rw [if_pos (by omega)]
      simp [room]

theorem getEncodedSize_eq {fields : List PbField} {w : List Field} (wired : wire fields = .ok w)
    (short : (Protobuf.encode w).length < 2 ^ 64) : getEncodedSize fields = .ok (Protobuf.encode w).length := by
  have puts := fields_puts fields wired short ostreamSizing
  rw [write, ostreamSizing, Nat.zero_add] at puts
  rw [getEncodedSize, ostreamSizing, puts]
  rfl

theorem value_number_lt {data : Data} {n : Nat} (held : data.value = .ok (.number n)) : n < 2 ^ 64 := by
  cases data with
  | uvarint value => cases held; exact Nat.lt_trans value.toNat_lt (by decide)
  | varint value => cases held; exact value.toInt64.toUInt64.toNat_lt
  | bytes size array => rw [Data.value] at held; split at held <;> cases held
  | string array => rw [Data.value] at held; split at held <;> cases held
  | submessage fields =>
    rw [Data.value] at held
    cases message : wire fields with
    | error e => rw [message] at held; cases held
    | ok w => rw [message] at held; cases held

theorem one_numbered {data : Data} {tag : UInt32} {w : List Field}
    (wired : (do return [(⟨tag.toNat, ← data.value⟩ : Field)]) = Except.ok w) : ∀ field ∈ w, field.Numbered := by
  obtain ⟨value, held, rfl⟩ := one_wired wired
  have narrow := tag.toNat_lt
  intro field listed
  rw [List.mem_singleton] at listed
  subst listed
  refine ⟨by dsimp only; omega, ?_⟩
  rintro n rfl
  exact value_number_lt held

theorem wire_numbered {fields : List PbField} {w : List Field} (wired : wire fields = .ok w) :
    ∀ field ∈ w, field.Numbered := by
  induction fields generalizing w with
  | nil => rw [wire] at wired; cases wired; exact List.forall_mem_nil _
  | cons field rest ih =>
    obtain ⟨head, tail, first, later, rfl⟩ := cons_wired wired
    rw [List.forall_mem_append]
    refine ⟨?_, ih later⟩
    cases field with
    | singular tag data =>
      rw [PbField.wire] at first
      split at first
      · cases first; exact List.forall_mem_nil _
      · exact one_numbered first
    | optional tag has data =>
      rw [PbField.wire] at first
      split at first
      · exact one_numbered first
      · cases first; exact List.forall_mem_nil _

/-- `pb_encode` succeeds on the messages that fit in the buffer. The buffer then holds as many bytes as the first pass has
    counted, and they read as the fields that are there. -/
theorem pbEncode_exact {fields : List PbField} (countable : Countable fields) (bufsize : Nat) (stream : Ostream) :
    pbEncode fields (ostreamFromBuffer bufsize) = .ok stream ↔
      ∃ w, wire fields = .ok w ∧ getEncodedSize fields = .ok (Protobuf.encode w).length ∧
        (Protobuf.encode w).length ≤ bufsize ∧ Protobuf.decode (Protobuf.encode w) = some w ∧
        stream = ⟨some (Protobuf.encode w), bufsize, (Protobuf.encode w).length⟩ := by
  rw [pbEncode_buffer countable]
  constructor
  · rintro ⟨w, wired, room, rfl⟩
    have short := countable w wired
    have reads := Protobuf.decode_encode (Protobuf.fits_of_length (wire_numbered wired) short)
    exact ⟨w, wired, getEncodedSize_eq wired short, room, reads, rfl⟩
  · rintro ⟨w, wired, _, room, _, rfl⟩
    exact ⟨w, wired, room, rfl⟩

section Sample

def sampleFields : List PbField :=
  [.singular 1 (.uvarint 300), .singular 2 (.uvarint 0), .optional 4 true (.submessage [.singular 8 (.varint (-1)),
    .singular 16 (.string [104, 105, 0, 0])]), .optional 5 false (.submessage [])]

def sampleWire : List Field := [⟨1, .number 300⟩, ⟨4, .bytes
  (Protobuf.encode [⟨8, .number 18446744073709551615⟩, ⟨16, .bytes [104, 105]⟩])⟩]

theorem sampleFields_wire : wire sampleFields = .ok sampleWire := by rfl

theorem sampleFields_countable : Countable sampleFields := by
  intro w wired
  cases sampleFields_wire.symm.trans wired
  decide

theorem pbEncode_exact_sample : getEncodedSize sampleFields = .ok 21 ∧
    pbEncode sampleFields (ostreamFromBuffer 1024) = .ok ⟨some (Protobuf.encode sampleWire), 1024, 21⟩ := by
  have counted : getEncodedSize sampleFields = .ok 21 :=
    getEncodedSize_eq sampleFields_wire (by decide : (Protobuf.encode sampleWire).length < 2 ^ 64)
  exact ⟨counted, (pbEncode_exact sampleFields_countable 1024 _).mpr
    ⟨sampleWire, sampleFields_wire, counted, by decide, by decide, by decide⟩⟩

end Sample

end Nanopb
