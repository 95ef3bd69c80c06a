import Bridge.Nanopb.Decode

namespace Nanopb

open Protobuf (Field Value varint)

mutual

/-- What the decoder makes of a field: nothing is left behind the content of an array, or of a message that is not there. -/
def Data.clean : Data → Data
  | .uvarint value => .uvarint value
  | .varint value => .varint value
  | .bytes size array => .bytes size (array.take size ++ List.replicate (array.length - size) 0)
  | .string array =>
    match CString.chars array with
    | some string => .string (string ++ List.replicate (array.length - string.length) 0)
    | none => .string array
  | .submessage fields => .submessage (cleanAll fields)

def PbField.clean : PbField → PbField
  | .singular tag data => .singular tag data.clean
  | .optional tag has data => if has then .optional tag true data.clean else .optional tag false data.reset

def cleanAll : List PbField → List PbField
  | [] => []
  | field :: rest => field.clean :: cleanAll rest

end

mutual

/-- The tags of a message fit and differ, and so on in its messages; a size fits a `pb_size_t`. -/
def Data.Sound : Data → Prop
  | .uvarint _ => True
  | .varint _ => True
  | .bytes size _ => size ≤ 65535
  | .string _ => True
  | .submessage fields => allSound fields

def PbField.Sound : PbField → Prop
  | .singular tag data => 0 < tag.toNat ∧ tag.toNat < 2 ^ 29 ∧ data.Sound
  | .optional tag _ data => 0 < tag.toNat ∧ tag.toNat < 2 ^ 29 ∧ data.Sound

def allSound : List PbField → Prop
  | [] => True
  | field :: rest => field.Sound ∧ (∀ other ∈ rest, other.tag ≠ field.tag) ∧ allSound rest

end

section Reads

mutual

theorem Data.clean_default (data : Data) (default : data.isDefault = true) : data.clean = data.reset := by
  match data with
  | .uvarint value =>
    obtain rfl : value = 0 := by simpa [Data.isDefault] using default
    rfl
  | .varint value =>
    obtain rfl : value = 0 := by simpa [Data.isDefault] using default
    rfl
  | .bytes size array =>
    obtain rfl : size = 0 := by simpa [Data.isDefault] using default
    simp [Data.clean, Data.reset]
  | .string array =>
    cases array with
    | nil => cases default
    | cons byte rest =>
      obtain rfl : byte = 0 := by simpa [Data.isDefault] using default
      simp [Data.clean, Data.reset, CString.chars]
  | .submessage fields => rw [Data.clean, Data.reset, cleanAll_default fields (by simpa [Data.isDefault] using default)]

theorem PbField.clean_default (field : PbField) (default : field.isDefault = true) : field.clean = field.reset := by
  match field with
  | .singular tag data => rw [PbField.clean, PbField.reset, Data.clean_default data (by simpa [PbField.isDefault] using default)]
  | .optional tag has data =>
    obtain rfl : has = false := by simpa [PbField.isDefault] using default
    rfl

theorem cleanAll_default (fields : List PbField) (default : allDefault fields = true) : cleanAll fields = resetAll fields := by
  match fields with
  | [] => rfl
  | field :: rest =>
    rw [allDefault, Bool.and_eq_true] at default
    rw [cleanAll, resetAll, PbField.clean_default field default.1, cleanAll_default rest default.2]

end

theorem read_append (bytes rest : List UInt8) : read (bytes ++ rest) bytes.length = .ok (bytes, rest) := by
  rw [read]
  by_cases none : bytes.length = 0
  · rw [if_pos none, List.length_eq_zero_iff.mp none]
    rfl
  · rw [if_neg none, if_neg (by simp), List.take_left' rfl, List.drop_left' rfl]

theorem makeSubstream_append {bytes : List UInt8} (fits : bytes.length < 2 ^ 32) (rest : List UInt8) :
    makeSubstream (varint bytes.length ++ bytes ++ rest) = .ok (bytes, rest) := by
  rw [makeSubstream, List.append_assoc, decodeVarint32_varint fits, ok_bind]
  dsimp only
  rw [if_neg (by simp), List.take_left' rfl, List.drop_left' rfl]
  rfl

theorem decUvarint_read (value : UInt32) (rest : List UInt8) :
    decUvarint (varint value.toNat ++ rest) = .ok (.uvarint value, rest) := by
  have narrow := value.toNat_lt
  have whole : ¬ value.toNat % 2 ^ 32 ≠ value.toNat := not_not.mpr (Nat.mod_eq_of_lt narrow)
  rw [decUvarint, decodeVarint_varint (by omega), ok_bind]
  dsimp only
  rw [if_neg whole, UInt32.ofNat_toNat]
  rfl

theorem toInt32_extended (value : Int32) : (UInt32.ofNat value.toInt64.toUInt64.toNat).toInt32 = value := by
  apply Int32.toBitVec.inj
  apply BitVec.eq_of_toNat_eq
  change (value.toBitVec.signExtend 64).toNat % 2 ^ 32 = value.toBitVec.toNat
  have narrow := value.toBitVec.isLt
  rw [BitVec.toNat_signExtend, BitVec.toNat_setWidth]
  split <;> omega

theorem decVarint_read (value : Int32) (rest : List UInt8) :
    decVarint (varint value.toInt64.toUInt64.toNat ++ rest) = .ok (.varint value, rest) := by
  rw [decVarint, decodeVarint_varint value.toInt64.toUInt64.toNat_lt, ok_bind]
  dsimp only
  rw [toInt32_extended]
  rfl

theorem decBytes_read {size : Nat} {array : List UInt8} (room : size ≤ array.length) (fits : size ≤ 65535) (rest : List UInt8) :
    decBytes (List.replicate array.length 0) (varint (array.take size).length ++ array.take size ++ rest) =
      .ok (.bytes size (array.take size ++ List.replicate (array.length - size) 0), rest) := by
  have taken : (array.take size).length = size := by rw [List.length_take, Nat.min_eq_left room]
  have content := read_append (array.take size) rest
  rw [taken] at content
  rw [decBytes, taken, List.append_assoc, decodeVarint32_varint (by omega), ok_bind]
  dsimp only
  rw [if_neg (by rw [List.length_replicate]; omega), content, ok_bind, List.drop_replicate]
  rfl

theorem decString_read {array string : List UInt8} (held : CString.chars array = some string)
    (fits : string.length < 2 ^ 32 - 1) (rest : List UInt8) :
    decString (List.replicate array.length 0) (varint string.length ++ string ++ rest) =
      .ok (.string (string ++ List.replicate (array.length - string.length) 0), rest) := by
  have room := CString.chars_lt held
  have zeros : List.replicate (array.length - string.length) (0 : UInt8) =
      0 :: List.replicate (array.length - (string.length + 1)) 0 := by
    rw [← List.replicate_succ]
    congr 1
    omega
  rw [decString, List.append_assoc, decodeVarint32_varint (by omega), ok_bind]
  dsimp only
  rw [if_neg (by omega), if_neg (by rw [List.length_replicate]; omega), read_append, ok_bind, List.drop_replicate, zeros]
  rfl

theorem decodeInner_turn {more : Nat} {tag : UInt32} (some : 0 < tag.toNat) (narrow : tag.toNat < 2 ^ 29) (value : Value)
    (fields : List PbField) (rest : List UInt8) :
    decodeInner (more + 1) fields (Field.encode ⟨tag.toNat, value⟩ ++ rest) =
      (decodeFound (decodeInner more) tag.toNat value.wireType fields (value.encode ++ rest) >>= fun read =>
        decodeInner more read.1 read.2) := by
  have small : value.wireType < 8 := by cases value <;> simp [Value.wireType]
  obtain ⟨byte, bytes, key⟩ := Protobuf.varint_cons (8 * tag.toNat + value.wireType)
  have high : (8 * tag.toNat + value.wireType) >>> 3 = tag.toNat := by
    rw [Nat.shiftRight_eq_div_pow]
    omega
  have low : (8 * tag.toNat + value.wireType) &&& 7 = value.wireType := by
    have three : (8 * tag.toNat + value.wireType) &&& 7 = (8 * tag.toNat + value.wireType) % 8 :=
      Nat.and_two_pow_sub_one_eq_mod _ 3
    rw [three]
    omega
  have read := decodeVarint32_varint (by omega : 8 * tag.toNat + value.wireType < 2 ^ 32) (value.encode ++ rest)
  rw [Field.encode, List.append_assoc]
  dsimp only
  rw [key, List.cons_append] at read ⊢
  rw [decodeInner, read, ok_bind]
  dsimp only
  rw [high, low, if_neg (by omega)]

theorem decodeFound_append {decode : List PbField → Istream → Except String (List PbField)} {before : List PbField}
    {field : PbField} (apart : ∀ other ∈ before, other.tag ≠ field.tag) (wireType : Nat) (others : List PbField)
    (stream : Istream) :
    decodeFound decode field.tag.toNat wireType (before ++ field :: others) stream =
      (decodeStaticField decode wireType field stream).map fun read => (before ++ read.1 :: others, read.2) := by
  induction before with
  | nil => rw [List.nil_append, decodeFound, if_pos rfl]; rfl
  | cons other before ih =>
    rw [List.forall_mem_cons] at apart
    have different : other.tag.toNat ≠ field.tag.toNat := fun same => apart.1 (UInt32.toNat_inj.mp same)
    rw [List.cons_append, decodeFound, if_neg different, ih apart.2]
    cases decodeStaticField decode wireType field stream <;> rfl

theorem wireType_value {data : Data} {value : Value} (held : data.value = .ok value) :
    value.wireType = data.reset.wireType := by
  cases data with
  | uvarint => cases held; rfl
  | varint => cases held; rfl
  | bytes size array => rw [Data.value] at held; split at held <;> cases held; rfl
  | string array => rw [Data.value] at held; split at held <;> cases held; rfl
  | submessage fields =>
    rw [Data.value] at held
    cases message : wire fields with
    | error e => rw [message] at held; cases held
    | ok w => rw [message] at held; cases held; rfl

section Turns

variable {before rest : List PbField} {field : PbField} {more : Nat} {w : List Field}

theorem apart_next {next : PbField} (same : next.tag = field.tag)
    (apart : ∀ other ∈ before, ∀ later ∈ field :: rest, other.tag ≠ later.tag) (differ : ∀ other ∈ rest, other.tag ≠ field.tag) :
    ∀ other ∈ before ++ [next], ∀ later ∈ rest, other.tag ≠ later.tag := by
  intro other listed later listed'
  rcases List.mem_append.mp listed with listed | listed
  · exact apart other listed later (List.mem_cons_of_mem _ listed')
  · rw [List.mem_singleton.mp listed, same]
    exact Ne.symm (differ later listed')

theorem read_absent (absent : field.clean = field.reset)
    (later : decodeInner more ((before ++ [field.reset]) ++ resetAll rest) (Protobuf.encode w) =
      .ok ((before ++ [field.reset]) ++ cleanAll rest)) :
    decodeInner more (before ++ resetAll (field :: rest)) (Protobuf.encode w) = .ok (before ++ cleanAll (field :: rest)) := by
  rw [List.append_assoc, List.append_assoc] at later
  rw [resetAll, cleanAll, absent]
  exact later

theorem reset_tag (field : PbField) : field.reset.tag = field.tag := by
  cases field <;> rfl

theorem clean_tag (field : PbField) : field.clean.tag = field.tag := by
  match field with
  | .singular tag data => rfl
  | .optional tag true data => rfl
  | .optional tag false data => rfl

theorem read_present {tag : UInt32} {data : Data} {value : Value}
    (kind : field = .singular tag data ∨ field = .optional tag true data) (held : data.value = .ok value) (sound : field.Sound)
    (apart : ∀ other ∈ before, ∀ later ∈ field :: rest, other.tag ≠ later.tag)
    (reads : ∀ stream, decodeBasicField (decodeInner more) data.reset (value.encode ++ stream) = .ok (data.clean, stream))
    (later : decodeInner more ((before ++ [field.clean]) ++ resetAll rest) (Protobuf.encode w) =
      .ok ((before ++ [field.clean]) ++ cleanAll rest)) :
    decodeInner (more + 1) (before ++ resetAll (field :: rest)) (Protobuf.encode ([⟨tag.toNat, value⟩] ++ w)) =
      .ok (before ++ cleanAll (field :: rest)) := by
  have one : ∀ stream, decodeStaticField (decodeInner more) value.wireType field.reset (value.encode ++ stream) =
      .ok (field.clean, stream) := by
    intro stream
    have type : ¬ value.wireType ≠ data.reset.wireType := not_not.mpr (wireType_value held)
    rcases kind with rfl | rfl
    · rw [PbField.reset, decodeStaticField, if_neg type, reads]
      rfl
    · rw [PbField.reset, decodeStaticField, if_neg type, reads]
      rfl
  have number : field.tag = tag := by rcases kind with rfl | rfl <;> rfl
  obtain ⟨some, narrow⟩ : 0 < tag.toNat ∧ tag.toNat < 2 ^ 29 := by
    rcases kind with rfl | rfl
    · exact ⟨sound.1, sound.2.1⟩
    · exact ⟨sound.1, sound.2.1⟩
  have before_apart : ∀ other ∈ before, other.tag ≠ field.reset.tag := by
    intro other listed
    rw [reset_tag]
    exact apart other listed field List.mem_cons_self
  have found := @decodeFound_append (decodeInner more) before field.reset before_apart value.wireType (resetAll rest)
    (value.encode ++ Protobuf.encode w)
  rw [reset_tag, number, one] at found
  rw [List.append_assoc, List.append_assoc] at later
  rw [Protobuf.encode_append, encode_one, decodeInner_turn some narrow, resetAll, cleanAll, found]
  exact later

end Turns

theorem one_length {tag : Nat} {value : Value} {w : List Field} {more : Nat}
    (room : (Protobuf.encode ([⟨tag, value⟩] ++ w)).length ≤ more) :
    ∃ less, more = less + 1 ∧ value.encode.length ≤ less ∧ (Protobuf.encode w).length ≤ less := by
  obtain ⟨byte, bytes, key⟩ := Protobuf.varint_cons (8 * tag + value.wireType)
  rw [Protobuf.encode_append, encode_one, Field.encode, List.length_append, List.length_append] at room
  dsimp only at room
  rw [key, List.length_cons] at room
  exact ⟨more - 1, by omega, by omega, by omega⟩

mutual

theorem data_reads (data : Data) {value : Value} (held : data.value = .ok value) (sound : data.Sound) {more : Nat}
    (short : value.encode.length < 2 ^ 32 - 1) (room : value.encode.length ≤ more) (rest : List UInt8) :
    decodeBasicField (decodeInner more) data.reset (value.encode ++ rest) = .ok (data.clean, rest) := by
  match data with
  | .uvarint n =>
    cases held
    exact decUvarint_read n rest
  | .varint n =>
    cases held
    exact decVarint_read n rest
  | .bytes size array =>
    rw [Data.value] at held
    split at held
    · rename_i fits
      cases held
      exact decBytes_read fits sound rest
    · cases held
  | .string array =>
    rw [Data.value] at held
    split at held
    · rename_i string chars
      cases held
      rw [Value.encode, List.length_append] at short
      rw [Data.clean, chars]
      exact decString_read chars (by omega) rest
    · cases held
  | .submessage fields =>
    rw [Data.value] at held
    cases message : wire fields with
    | error e => rw [message] at held; cases held
    | ok w =>
      rw [message] at held
      cases held
      have length := @List.length_append _ (Protobuf.varint (Protobuf.encode w).length) (Protobuf.encode w)
      have inner := @fields_read fields w message sound [] (List.forall_mem_nil _) more (by rw [Value.encode] at short; omega)
        (by rw [Value.encode] at room; omega)
      rw [List.nil_append, List.nil_append] at inner
      rw [Data.reset, decodeBasicField, decSubmessage, Value.encode,
        makeSubstream_append (by rw [Value.encode] at short; omega), ok_bind]
      dsimp only
      rw [resetAll_resetAll, inner]
      rfl

theorem fields_read (fields : List PbField) {w : List Field} (wired : wire fields = .ok w) (sound : allSound fields)
    {before : List PbField} (apart : ∀ other ∈ before, ∀ field ∈ fields, other.tag ≠ field.tag) {more : Nat}
    (short : (Protobuf.encode w).length < 2 ^ 32 - 1) (room : (Protobuf.encode w).length ≤ more) :
    decodeInner more (before ++ resetAll fields) (Protobuf.encode w) = .ok (before ++ cleanAll fields) := by
  match fields with
  | [] =>
    rw [wire] at wired
    cases wired
    cases more <;> rfl
  | .singular tag data :: rest =>
    obtain ⟨head, tail, first, later, rfl⟩ := cons_wired wired
    obtain ⟨whole, differ, others⟩ := sound
    have inner : data.Sound := whole.2.2
    rw [PbField.wire] at first
    by_cases default : data.isDefault = true
    · rw [if_pos default] at first
      cases first
      have same : (PbField.singular tag data).clean = (PbField.singular tag data).reset := by
        rw [PbField.clean, PbField.reset, Data.clean_default data default]
      exact read_absent same (fields_read rest later others (apart_next (reset_tag _) apart differ) short room)
    · rw [if_neg default] at first
      obtain ⟨value, held, rfl⟩ := one_wired first
      obtain ⟨less, rfl, valueRoom, tailRoom⟩ := one_length room
      obtain ⟨_, top, valueShort, tailShort⟩ := one_length (Nat.le_of_lt short)
      exact read_present (Or.inl rfl) held whole apart (data_reads data held inner (by omega) valueRoom)
        (fields_read rest later others (apart_next (clean_tag _) apart differ) (by omega) tailRoom)
  | .optional tag has data :: rest =>
    obtain ⟨head, tail, first, later, rfl⟩ := cons_wired wired
    obtain ⟨whole, differ, others⟩ := sound
    have inner : data.Sound := whole.2.2
    rw [PbField.wire] at first
    cases has with
    | false =>
      cases first
      exact read_absent rfl (fields_read rest later others (apart_next (reset_tag _) apart differ) short room)
    | true =>
      rw [if_pos rfl] at first
      obtain ⟨value, held, rfl⟩ := one_wired first
      obtain ⟨less, rfl, valueRoom, tailRoom⟩ := one_length room
      obtain ⟨_, top, valueShort, tailShort⟩ := one_length (Nat.le_of_lt short)
      exact read_present (Or.inr rfl) held whole apart (data_reads data held inner (by omega) valueRoom)
        (fields_read rest later others (apart_next (clean_tag _) apart differ) (by omega) tailRoom)

end

end Reads

section Clean

theorem string_clean {array string : List UInt8} (held : CString.chars array = some string) :
    CString.chars (string ++ List.replicate (array.length - string.length) 0) = some string ∧
      ((string ++ List.replicate (array.length - string.length) 0).head? == some 0) = (array.head? == some 0) := by
  have room := CString.chars_lt held
  have nonzero := CString.chars_nonzero held
  obtain ⟨rest, rfl⟩ := CString.chars_some held
  obtain ⟨more, zeros⟩ := Nat.exists_eq_succ_of_ne_zero (by omega : (string ++ 0 :: rest).length - string.length ≠ 0)
  rw [zeros, List.replicate_succ]
  refine ⟨CString.chars_append nonzero _, ?_⟩
  cases string <;> rfl

mutual

theorem Data.clean_isDefault (data : Data) : data.clean.isDefault = data.isDefault := by
  match data with
  | .uvarint _ => rfl
  | .varint _ => rfl
  | .bytes _ _ => rfl
  | .string array =>
    rw [Data.clean]
    cases held : CString.chars array with
    | none => rfl
    | some string => exact (string_clean held).2
  | .submessage fields => rw [Data.clean, Data.isDefault, Data.isDefault, allDefault_clean fields]

theorem PbField.clean_isDefault (field : PbField) : field.clean.isDefault = field.isDefault := by
  match field with
  | .singular tag data => rw [PbField.clean, PbField.isDefault, PbField.isDefault, Data.clean_isDefault data]
  | .optional tag true data => rfl
  | .optional tag false data => rfl

theorem allDefault_clean (fields : List PbField) : allDefault (cleanAll fields) = allDefault fields := by
  match fields with
  | [] => rfl
  | field :: rest => rw [cleanAll, allDefault, allDefault, PbField.clean_isDefault field, allDefault_clean rest]

end

mutual

theorem Data.clean_value (data : Data) : data.clean.value = data.value := by
  match data with
  | .uvarint _ => rfl
  | .varint _ => rfl
  | .bytes size array =>
    rw [Data.clean, Data.value, Data.value, List.length_append, List.length_take, List.length_replicate]
    by_cases room : size ≤ array.length
    · have taken : (array.take size).length = size := by rw [List.length_take, Nat.min_eq_left room]
      rw [if_pos room, if_pos (by omega), List.take_left' taken]
    · rw [if_neg room, if_neg (by omega)]
  | .string array =>
    rw [Data.clean]
    cases held : CString.chars array with
    | none => rfl
    | some string =>
      dsimp only
      rw [Data.value, Data.value, (string_clean held).1, held]
  | .submessage fields => rw [Data.clean, Data.value, Data.value, wire_clean fields]

theorem PbField.clean_wire (field : PbField) : field.clean.wire = field.wire := by
  match field with
  | .singular tag data =>
    rw [PbField.clean, PbField.wire, PbField.wire, Data.clean_isDefault data, Data.clean_value data]
  | .optional tag true data => rw [PbField.clean, if_pos rfl, PbField.wire, PbField.wire, Data.clean_value data]
  | .optional tag false data => rfl

theorem wire_clean (fields : List PbField) : wire (cleanAll fields) = wire fields := by
  match fields with
  | [] => rfl
  | field :: rest => rw [cleanAll, wire, wire, PbField.clean_wire field, wire_clean rest]

end

end Clean

/-- A message that the encoder has put into a buffer comes back from the decoder, and would be encoded as it was. -/
theorem pbDecode_pbEncode {fields : List PbField} (sound : allSound fields) {bufsize : Nat} (short : bufsize < 2 ^ 32 - 1)
    {stream : Ostream} {bytes : List UInt8} (countable : Countable fields)
    (done : pbEncode fields (ostreamFromBuffer bufsize) = .ok stream) (written : stream.written = some bytes) :
    pbDecode fields bytes = .ok (cleanAll fields) ∧ wire (cleanAll fields) = wire fields := by
  obtain ⟨w, wired, room, rfl⟩ := (pbEncode_buffer countable bufsize stream).mp done
  cases written
  exact ⟨@fields_read fields w wired sound [] (List.forall_mem_nil _) _ (by omega) (Nat.le_refl _), wire_clean fields⟩

section Sample

theorem sampleFields_sound : allSound sampleFields := by
  simp [sampleFields, allSound, PbField.Sound, Data.Sound, PbField.tag]

theorem pbDecode_pbEncode_sample :
    pbDecode sampleFields (Protobuf.encode sampleWire) = .ok (cleanAll sampleFields) ∧
      wire (cleanAll sampleFields) = wire sampleFields := by
  have done := (pbEncode_buffer sampleFields_countable 1024 _).mpr ⟨sampleWire, sampleFields_wire, by decide, rfl⟩
  exact pbDecode_pbEncode sampleFields_sound (by decide : 1024 < 2 ^ 32 - 1) sampleFields_countable done rfl

end Sample

end Nanopb
