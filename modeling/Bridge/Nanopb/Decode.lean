import Bridge.Nanopb.Encode
import Bridge.Nanopb.Reader

namespace Nanopb

def PbField.tag : PbField → UInt32
  | .singular tag _ => tag
  | .optional tag _ _ => tag

mutual

def Data.reset : Data → Data
  | .uvarint _ => .uvarint 0
  | .varint _ => .varint 0
  | .bytes _ array => .bytes 0 (List.replicate array.length 0)
  | .string array => .string (List.replicate array.length 0)
  | .submessage fields => .submessage (resetAll fields)

def PbField.reset : PbField → PbField
  | .singular tag data => .singular tag data.reset
  | .optional tag _ data => .optional tag false data.reset

def resetAll : List PbField → List PbField
  | [] => []
  | field :: rest => field.reset :: resetAll rest

end

def decUvarint (stream : Istream) : Except String (Data × Istream) := do
  let value ← decodeVarint stream
  if value.1 % 2 ^ 32 ≠ value.1 then .error "integer too large" else return (.uvarint (UInt32.ofNat value.1), value.2)

/-- The upper half of the number is not looked at. -/
def decVarint (stream : Istream) : Except String (Data × Istream) := do
  let value ← decodeVarint stream
  return (.varint (UInt32.ofNat value.1).toInt32, value.2)

def decBytes (array : List UInt8) (stream : Istream) : Except String (Data × Istream) := do
  let size ← decodeVarint32 stream
  if 65535 < size.1 ∨ array.length < size.1 then .error "bytes overflow"
  else
    let content ← read size.2 size.1
    return (.bytes size.1 (content.1 ++ array.drop size.1), content.2)

def decString (array : List UInt8) (stream : Istream) : Except String (Data × Istream) := do
  let size ← decodeVarint32 stream
  if size.1 = 2 ^ 32 - 1 then .error "size too large"
  else if array.length < size.1 + 1 then .error "string overflow"
  else
    let content ← read size.2 size.1
    return (.string (content.1 ++ 0 :: array.drop (size.1 + 1)), content.2)

def decSubmessage (decode : List PbField → Istream → Except String (List PbField)) (fields : List PbField) (stream : Istream) :
    Except String (Data × Istream) := do
  let streams ← makeSubstream stream
  return (.submessage (← decode (resetAll fields) streams.1), streams.2)

def Data.wireType : Data → Nat
  | .uvarint _ => wtVarint
  | .varint _ => wtVarint
  | .bytes _ _ => wtString
  | .string _ => wtString
  | .submessage _ => wtString

/-- The fields of a submessage are left to `decode`. -/
def decodeBasicField (decode : List PbField → Istream → Except String (List PbField)) (data : Data) (stream : Istream) :
    Except String (Data × Istream) :=
  match data with
  | .uvarint _ => decUvarint stream
  | .varint _ => decVarint stream
  | .bytes _ array => decBytes array stream
  | .string array => decString array stream
  | .submessage fields => decSubmessage decode fields stream

def decodeStaticField (decode : List PbField → Istream → Except String (List PbField)) (wireType : Nat) (field : PbField)
    (stream : Istream) : Except String (PbField × Istream) :=
  match field with
  | .singular tag data =>
    if wireType ≠ data.wireType then .error "wrong wire type"
    else (decodeBasicField decode data stream).map fun read => (.singular tag read.1, read.2)
  | .optional tag _ data =>
    if wireType ≠ data.wireType then .error "wrong wire type"
    else (decodeBasicField decode data stream).map fun read => (.optional tag true read.1, read.2)

/-- The field with this tag is decoded, and without one the data is skipped. -/
def decodeFound (decode : List PbField → Istream → Except String (List PbField)) (tag wireType : Nat) :
    List PbField → Istream → Except String (List PbField × Istream)
  | [], stream => (skipField stream wireType).map fun rest => ([], rest)
  | field :: others, stream =>
    if field.tag.toNat = tag then
      (decodeStaticField decode wireType field stream).map fun read => (read.1 :: others, read.2)
    else (decodeFound decode tag wireType others stream).map fun read => (field :: read.1, read.2)

/-- The loop of `pb_decode_inner`. Each turn takes a byte at least. -/
def decodeInner : Nat → List PbField → Istream → Except String (List PbField)
  | _, fields, [] => .ok fields
  | 0, _, _ :: _ => .error "end-of-stream"
  | more + 1, fields, byte :: stream => do
    let key ← decodeVarint32 (byte :: stream)
    if key.1 >>> 3 = 0 then .error "zero tag"
    else
      let read ← decodeFound (decodeInner more) (key.1 >>> 3) (key.1 &&& 7) fields key.2
      decodeInner more read.1 read.2

/-- C leaves a message that it refuses partly filled; no caller reads it then, and it is not given here. -/
def pbDecode (fields : List PbField) (stream : Istream) : Except String (List PbField) :=
  decodeInner stream.length (resetAll fields) stream

mutual

theorem Data.reset_reset (data : Data) : data.reset.reset = data.reset := by
  match data with
  | .uvarint _ => rfl
  | .varint _ => rfl
  | .bytes _ array => simp [Data.reset]
  | .string array => simp [Data.reset]
  | .submessage fields => rw [Data.reset, Data.reset, resetAll_resetAll fields]

theorem PbField.reset_reset (field : PbField) : field.reset.reset = field.reset := by
  match field with
  | .singular tag data => rw [PbField.reset, PbField.reset, Data.reset_reset data]
  | .optional tag has data => rw [PbField.reset, PbField.reset, Data.reset_reset data]

theorem resetAll_resetAll (fields : List PbField) : resetAll (resetAll fields) = resetAll fields := by
  match fields with
  | [] => rfl
  | field :: rest => rw [resetAll, resetAll, PbField.reset_reset field, resetAll_resetAll rest]

end

section Turns

theorem basicField_consumes {decode : List PbField → Istream → Except String (List PbField)} {data : Data} {stream : Istream}
    {result : Data × Istream} (done : decodeBasicField decode data stream = .ok result) :
    result.2.length ≤ stream.length := by
  cases data with
  | uvarint =>
    obtain ⟨value, read, done⟩ := bind_done done
    have less := decodeVarintAt_consumes read
    split at done
    · cases done
    · cases done
      exact Nat.le_of_lt less
  | varint =>
    obtain ⟨value, read, done⟩ := bind_done done
    cases done
    exact Nat.le_of_lt (decodeVarintAt_consumes read)
  | bytes _ array =>
    obtain ⟨size, read, done⟩ := bind_done done
    have less := decodeVarint32_consumes read
    split at done
    · cases done
    · obtain ⟨content, taken, done⟩ := bind_done done
      cases done
      exact Nat.le_trans (read_consumes taken).2 (Nat.le_of_lt less)
  | string array =>
    obtain ⟨size, read, done⟩ := bind_done done
    have less := decodeVarint32_consumes read
    split at done
    · cases done
    · split at done
      · cases done
      · obtain ⟨content, taken, done⟩ := bind_done done
        cases done
        exact Nat.le_trans (read_consumes taken).2 (Nat.le_of_lt less)
  | submessage fields =>
    obtain ⟨streams, made, done⟩ := bind_done done
    obtain ⟨inner, _, done⟩ := bind_done done
    cases done
    exact (makeSubstream_consumes made).2

theorem staticField_consumes {decode : List PbField → Istream → Except String (List PbField)} {wireType : Nat}
    {field : PbField} {stream : Istream} {result : PbField × Istream}
    (done : decodeStaticField decode wireType field stream = .ok result) : result.2.length ≤ stream.length := by
  cases field with
  | singular tag data =>
    rw [decodeStaticField] at done
    split at done
    · cases done
    · obtain ⟨read, decoded, rfl⟩ := map_done done
      exact basicField_consumes decoded
  | optional tag has data =>
    rw [decodeStaticField] at done
    split at done
    · cases done
    · obtain ⟨read, decoded, rfl⟩ := map_done done
      exact basicField_consumes decoded

theorem found_consumes {decode : List PbField → Istream → Except String (List PbField)} {tag wireType : Nat}
    {fields : List PbField} {stream : Istream} {result : List PbField × Istream}
    (done : decodeFound decode tag wireType fields stream = .ok result) : result.2.length ≤ stream.length := by
  induction fields generalizing result with
  | nil =>
    obtain ⟨rest, skipped, rfl⟩ := map_done done
    exact skipField_consumes skipped
  | cons field others ih =>
    rw [decodeFound] at done
    split at done
    · obtain ⟨read, decoded, rfl⟩ := map_done done
      exact staticField_consumes decoded
    · obtain ⟨read, decoded, rfl⟩ := map_done done
      have less := ih decoded
      exact less

/-- Two decoders of messages that agree on streams of this length. -/
def Agree (length : Nat) (decode decode' : List PbField → Istream → Except String (List PbField)) : Prop :=
  ∀ fields stream, stream.length ≤ length → decode fields stream = decode' fields stream

variable {decode decode' : List PbField → Istream → Except String (List PbField)} {length : Nat}

theorem basicField_agree (agree : Agree length decode decode') {stream : Istream} (short : stream.length ≤ length)
    (data : Data) : decodeBasicField decode data stream = decodeBasicField decode' data stream := by
  cases data with
  | uvarint => rfl
  | varint => rfl
  | bytes => rfl
  | string => rfl
  | submessage fields =>
    rw [decodeBasicField, decodeBasicField, decSubmessage, decSubmessage]
    cases made : makeSubstream stream with
    | error e => rfl
    | ok streams =>
      rw [ok_bind, ok_bind, agree _ _ (Nat.le_trans (makeSubstream_consumes made).1 short)]

theorem found_agree (agree : Agree length decode decode') {stream : Istream} (short : stream.length ≤ length)
    (tag wireType : Nat) (fields : List PbField) :
    decodeFound decode tag wireType fields stream = decodeFound decode' tag wireType fields stream := by
  induction fields with
  | nil => rfl
  | cons field others ih =>
    have one : decodeStaticField decode wireType field stream = decodeStaticField decode' wireType field stream := by
      cases field with
      | singular tag data => rw [decodeStaticField, decodeStaticField, basicField_agree agree short]
      | optional tag has data => rw [decodeStaticField, decodeStaticField, basicField_agree agree short]
    rw [decodeFound, decodeFound, one, ih]

theorem inner_agree (length : Nat) : ∀ more more', length ≤ more → length ≤ more' →
    Agree length (decodeInner more) (decodeInner more') := by
  induction length with
  | zero =>
    intro more more' _ _ fields stream short
    rw [List.length_eq_zero_iff.mp (Nat.le_zero.mp short)]
    cases more <;> cases more' <;> rfl
  | succ length ih =>
    intro more more' enough enough' fields stream short
    obtain ⟨less, rfl⟩ := Nat.exists_eq_succ_of_ne_zero (by omega : more ≠ 0)
    obtain ⟨less', rfl⟩ := Nat.exists_eq_succ_of_ne_zero (by omega : more' ≠ 0)
    have agree := ih less less' (Nat.le_of_succ_le_succ enough) (Nat.le_of_succ_le_succ enough')
    cases stream with
    | nil => rfl
    | cons byte stream =>
      rw [decodeInner, decodeInner]
      cases read : decodeVarint32 (byte :: stream) with
      | error e => rfl
      | ok key =>
        have keyLength : key.2.length ≤ length := by
          have less := decodeVarint32_consumes read
          omega
        rw [ok_bind, ok_bind, found_agree agree keyLength]
        split
        · rfl
        · cases found : decodeFound (decodeInner less') (key.1 >>> 3) (key.1 &&& 7) fields key.2 with
          | error e => rfl
          | ok next => exact agree _ _ (Nat.le_trans (found_consumes found) keyLength)

end Turns

mutual

/-- What an array holds is in it: so many bytes, or a string with its NUL. -/
def Data.Bounded : Data → Prop
  | .uvarint _ => True
  | .varint _ => True
  | .bytes size array => size ≤ array.length
  | .string array => array ≠ [] → 0 ∈ array
  | .submessage fields => allBounded fields

def PbField.Bounded : PbField → Prop
  | .singular _ data => data.Bounded
  | .optional _ _ data => data.Bounded

def allBounded : List PbField → Prop
  | [] => True
  | field :: rest => field.Bounded ∧ allBounded rest

end

section Bounds

mutual

theorem Data.reset_bounded (data : Data) : data.reset.Bounded := by
  match data with
  | .uvarint _ => trivial
  | .varint _ => trivial
  | .bytes _ array => exact Nat.zero_le _
  | .string array =>
    intro some
    rw [ne_eq, List.replicate_eq_nil_iff] at some
    exact List.mem_replicate.mpr ⟨some, rfl⟩
  | .submessage fields => exact resetAll_bounded fields

theorem PbField.reset_bounded (field : PbField) : field.reset.Bounded := by
  match field with
  | .singular _ data => exact Data.reset_bounded data
  | .optional _ _ data => exact Data.reset_bounded data

theorem resetAll_bounded (fields : List PbField) : allBounded (resetAll fields) := by
  match fields with
  | [] => trivial
  | field :: rest => exact ⟨PbField.reset_bounded field, resetAll_bounded rest⟩

end

/-- A decoder of messages that stays in the arrays of the message. -/
def Keeps (decode : List PbField → Istream → Except String (List PbField)) : Prop :=
  ∀ fields stream fields', allBounded fields → decode fields stream = .ok fields' →
    resetAll fields' = resetAll fields ∧ allBounded fields'

variable {decode : List PbField → Istream → Except String (List PbField)}

theorem basicField_keeps (keeps : Keeps decode) {data : Data} {stream : Istream} {result : Data × Istream}
    (done : decodeBasicField decode data stream = .ok result) : result.1.reset = data.reset ∧ result.1.Bounded := by
  cases data with
  | uvarint =>
    obtain ⟨value, _, done⟩ := bind_done done
    split at done
    · cases done
    · cases done
      exact ⟨rfl, trivial⟩
  | varint =>
    obtain ⟨value, _, done⟩ := bind_done done
    cases done
    exact ⟨rfl, trivial⟩
  | bytes _ array =>
    obtain ⟨size, _, done⟩ := bind_done done
    split at done
    · cases done
    · rename_i room
      obtain ⟨content, taken, done⟩ := bind_done done
      cases done
      have length := (read_consumes taken).1
      have whole : (content.1 ++ array.drop size.1).length = array.length := by
        rw [List.length_append, List.length_drop]
        omega
      refine ⟨?_, ?_⟩
      · dsimp only
        rw [Data.reset, Data.reset, whole]
      · dsimp only
        rw [Data.Bounded, whole]
        omega
  | string array =>
    obtain ⟨size, _, done⟩ := bind_done done
    split at done
    · cases done
    · split at done
      · cases done
      · rename_i room
        obtain ⟨content, taken, done⟩ := bind_done done
        cases done
        have length := (read_consumes taken).1
        have whole : (content.1 ++ 0 :: array.drop (size.1 + 1)).length = array.length := by
          rw [List.length_append, List.length_cons, List.length_drop]
          omega
        refine ⟨?_, fun _ => ?_⟩
        · dsimp only
          rw [Data.reset, Data.reset, whole]
        · exact List.mem_append_right _ List.mem_cons_self
  | submessage fields =>
    obtain ⟨streams, _, done⟩ := bind_done done
    obtain ⟨inner, decoded, done⟩ := bind_done done
    cases done
    obtain ⟨same, bounded⟩ := keeps _ _ _ (resetAll_bounded fields) decoded
    refine ⟨?_, bounded⟩
    dsimp only
    rw [Data.reset, Data.reset, same, resetAll_resetAll]

theorem staticField_keeps (keeps : Keeps decode) {wireType : Nat} {field : PbField} {stream : Istream}
    {result : PbField × Istream} (done : decodeStaticField decode wireType field stream = .ok result) :
    result.1.reset = field.reset ∧ result.1.Bounded := by
  cases field with
  | singular tag data =>
    rw [decodeStaticField] at done
    split at done
    · cases done
    · obtain ⟨read, decoded, rfl⟩ := map_done done
      obtain ⟨same, bounded⟩ := basicField_keeps keeps decoded
      exact ⟨congrArg (PbField.singular tag) same, bounded⟩
  | optional tag has data =>
    rw [decodeStaticField] at done
    split at done
    · cases done
    · obtain ⟨read, decoded, rfl⟩ := map_done done
      obtain ⟨same, bounded⟩ := basicField_keeps keeps decoded
      exact ⟨congrArg (PbField.optional tag false) same, bounded⟩

theorem found_keeps (keeps : Keeps decode) {tag wireType : Nat} {fields : List PbField} {stream : Istream}
    {result : List PbField × Istream} (bounded : allBounded fields)
    (done : decodeFound decode tag wireType fields stream = .ok result) :
    resetAll result.1 = resetAll fields ∧ allBounded result.1 := by
  induction fields generalizing result with
  | nil =>
    obtain ⟨rest, _, rfl⟩ := map_done done
    exact ⟨rfl, trivial⟩
  | cons field others ih =>
    obtain ⟨first, later⟩ := bounded
    rw [decodeFound] at done
    split at done
    · obtain ⟨read, decoded, rfl⟩ := map_done done
      obtain ⟨same, kept⟩ := staticField_keeps keeps decoded
      refine ⟨?_, kept, later⟩
      dsimp only
      rw [resetAll, resetAll, same]
    · obtain ⟨read, decoded, rfl⟩ := map_done done
      obtain ⟨same, kept⟩ := ih later decoded
      refine ⟨?_, first, kept⟩
      dsimp only
      rw [resetAll, resetAll, same]

theorem inner_keeps (more : Nat) : Keeps (decodeInner more) := by
  induction more with
  | zero =>
    intro fields stream fields' bounded done
    cases stream with
    | nil => cases done; exact ⟨rfl, bounded⟩
    | cons => cases done
  | succ more ih =>
    intro fields stream fields' bounded done
    cases stream with
    | nil => cases done; exact ⟨rfl, bounded⟩
    | cons byte stream =>
      obtain ⟨key, _, done⟩ := bind_done done
      split at done
      · cases done
      · obtain ⟨read, found, done⟩ := bind_done done
        obtain ⟨same, kept⟩ := found_keeps ih bounded found
        obtain ⟨same', kept'⟩ := ih _ _ _ kept done
        exact ⟨same'.trans same, kept'⟩

end Bounds

/-- Whatever bytes come in, the turns of `pbDecode` are enough for them, and a message that it accepts stays in its
    arrays: their sizes are what they were, the bytes that count are in them, and a string ends in them. -/
theorem pbDecode_safe (fields : List PbField) (stream : Istream) :
    (∀ more, stream.length ≤ more → decodeInner more (resetAll fields) stream = pbDecode fields stream) ∧
      ∀ fields', pbDecode fields stream = .ok fields' → resetAll fields' = resetAll fields ∧ allBounded fields' := by
  constructor
  · intro more enough
    exact inner_agree stream.length _ _ enough (Nat.le_refl _) _ _ (Nat.le_refl _)
  · intro fields' done
    obtain ⟨same, bounded⟩ := inner_keeps stream.length _ _ _ (resetAll_bounded fields) done
    exact ⟨same.trans (resetAll_resetAll fields), bounded⟩

end Nanopb
