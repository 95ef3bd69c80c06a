import Mathlib.Algebra.Group.Nat.Defs
import Mathlib.Data.List.Basic

namespace Protobuf

/-- Seven bits a byte, the low ones first, and so many bytes behind the first one at most. -/
def varintWithin : Nat → Nat → List UInt8
  | 0, n => [UInt8.ofNat n]
  | more + 1, n => if n < 128 then [UInt8.ofNat n] else UInt8.ofNat (n % 128 + 128) :: varintWithin more (n / 128)

def varint (n : Nat) : List UInt8 := varintWithin 9 n

def readVarint : List UInt8 → Option (Nat × List UInt8)
  | [] => none
  | byte :: rest =>
    if byte.toNat < 128 then some (byte.toNat, rest)
    else (readVarint rest).map fun read => (byte.toNat - 128 + 128 * read.1, read.2)

inductive Value
  | number (n : Nat)
  | bytes (content : List UInt8)
deriving DecidableEq, Repr

structure Field where
  tag : Nat
  value : Value
deriving DecidableEq, Repr

def Value.wireType : Value → Nat
  | .number _ => 0
  | .bytes _ => 2

def Value.encode : Value → List UInt8
  | .number n => varint n
  | .bytes content => varint content.length ++ content

def Field.encode (field : Field) : List UInt8 := varint (8 * field.tag + field.value.wireType) ++ field.value.encode

def encode (fields : List Field) : List UInt8 := fields.flatMap Field.encode

def readValue (wireType : Nat) (input : List UInt8) : Option (Value × List UInt8) :=
  (readVarint input).bind fun read =>
    if wireType = 0 then some (.number read.1, read.2)
    else if wireType = 2 ∧ read.1 ≤ read.2.length then some (.bytes (read.2.take read.1), read.2.drop read.1)
    else none

def readField (input : List UInt8) : Option (Field × List UInt8) :=
  (readVarint input).bind fun key => (readValue (key.1 % 8) key.2).map fun read => (⟨key.1 / 8, read.1⟩, read.2)

def decodeWithin : Nat → List UInt8 → Option (List Field)
  | _, [] => some []
  | 0, _ :: _ => none
  | more + 1, byte :: input =>
    (readField (byte :: input)).bind fun read => (decodeWithin more read.2).map (read.1 :: ·)

/-- Each field takes a byte at least. -/
def decode (input : List UInt8) : Option (List Field) := decodeWithin input.length input

def Field.contentAt (tag : Nat) (field : Field) : Option (List UInt8) :=
  match field.value with
  | .number _ => none
  | .bytes content => if field.tag = tag then some content else none

-- A field that has its default value is left out, and a message that is not there too.

def numberField (tag n : Nat) : List Field := if n = 0 then [] else [⟨tag, .number n⟩]

def bytesField (tag : Nat) (content : List UInt8) : List Field := if content.length = 0 then [] else [⟨tag, .bytes content⟩]

def messageField (tag : Nat) : Option (List Field) → List Field
  | none => []
  | some message => [⟨tag, .bytes (encode message)⟩]

def varintSize (n : Nat) : Nat := (varint n).length

def numberSize (tag n : Nat) : Nat := if n = 0 then 0 else varintSize (8 * tag) + varintSize n

def messageSize (tag length : Nat) : Nat := varintSize (8 * tag + 2) + varintSize length + length

def contentSize (tag length : Nat) : Nat := if length = 0 then 0 else messageSize tag length

/-- What the last field with this tag holds, and nothing if there is none. -/
def content (tag : Nat) (fields : List Field) : List UInt8 := ((fields.filterMap (Field.contentAt tag)).getLast?).getD []

def Value.Fits : Value → Prop
  | .number n => n < 2 ^ 64
  | .bytes content => content.length < 2 ^ 64

/-- The numbers of a field fit 64 bits. -/
structure Field.Fits (field : Field) : Prop where
  tag : 8 * field.tag + 2 < 2 ^ 64
  value : field.value.Fits

section RoundTrip

theorem readVarint_varintWithin {more n : Nat} (fits : n < 128 ^ (more + 1)) (rest : List UInt8) :
    readVarint (varintWithin more n ++ rest) = some (n, rest) := by
  induction more generalizing n with
  | zero =>
    have small : (UInt8.ofNat n).toNat = n := UInt8.toNat_ofNat_of_lt' (by simp only [UInt8.size]; omega)
    rw [varintWithin, List.singleton_append, readVarint, small, if_pos (by omega)]
  | succ more ih =>
    rw [varintWithin]
    split
    · rename_i short
      have small : (UInt8.ofNat n).toNat = n := UInt8.toNat_ofNat_of_lt' (by simp only [UInt8.size]; omega)
      rw [List.singleton_append, readVarint, small, if_pos short]
    · have small : (UInt8.ofNat (n % 128 + 128)).toNat = n % 128 + 128 :=
        UInt8.toNat_ofNat_of_lt' (by simp only [UInt8.size]; omega)
      have high : n / 128 < 128 ^ (more + 1) := by
        rw [Nat.div_lt_iff_lt_mul (by decide), ← Nat.pow_succ]
        exact fits
      rw [List.cons_append, readVarint, small, if_neg (by omega), ih high]
      simp only [Option.map_some, Option.some.injEq, Prod.mk.injEq, and_true]
      omega

theorem readVarint_varint {n : Nat} (fits : n < 2 ^ 64) (rest : List UInt8) :
    readVarint (varint n ++ rest) = some (n, rest) :=
  readVarint_varintWithin (Nat.lt_trans fits (by decide)) rest

theorem varint_cons (n : Nat) : ∃ byte rest, varint n = byte :: rest := by
  rw [varint, varintWithin]
  split
  · exact ⟨_, [], rfl⟩
  · exact ⟨_, _, rfl⟩

theorem readValue_encode {value : Value} (fits : value.Fits) (rest : List UInt8) :
    readValue value.wireType (value.encode ++ rest) = some (value, rest) := by
  cases value with
  | number n => rw [readValue, Value.encode, readVarint_varint fits, Option.bind_some, Value.wireType, if_pos rfl]
  | bytes content =>
    have room : content.length ≤ (content ++ rest).length := by simp
    rw [readValue, Value.encode, List.append_assoc, readVarint_varint fits, Option.bind_some, Value.wireType,
      if_neg (by decide), if_pos ⟨rfl, room⟩, List.take_left' rfl, List.drop_left' rfl]

theorem readField_encode {field : Field} (fits : field.Fits) (rest : List UInt8) :
    readField (field.encode ++ rest) = some (field, rest) := by
  have narrow : field.value.wireType ≤ 2 := by
    cases field.value with
    | number => exact Nat.zero_le 2
    | bytes => exact Nat.le_refl 2
  have tag := fits.tag
  have key : 8 * field.tag + field.value.wireType < 2 ^ 64 := by omega
  have wireType : (8 * field.tag + field.value.wireType) % 8 = field.value.wireType := by omega
  have number : (8 * field.tag + field.value.wireType) / 8 = field.tag := by omega
  rw [readField, Field.encode, List.append_assoc, readVarint_varint key, Option.bind_some, wireType, number,
    readValue_encode fits.value, Option.map_some]

theorem decodeWithin_encode {fields : List Field} (fits : ∀ field ∈ fields, field.Fits) {more : Nat}
    (enough : fields.length ≤ more) : decodeWithin more (encode fields) = some fields := by
  induction fields generalizing more with
  | nil => cases more <;> rfl
  | cons field rest ih =>
    rw [List.forall_mem_cons] at fits
    cases more with
    | zero => exact absurd enough (Nat.not_succ_le_zero _)
    | succ more =>
      have read := readField_encode fits.1 (encode rest)
      have whole : encode (field :: rest) = field.encode ++ encode rest := List.flatMap_cons
      rw [← whole] at read
      rcases varint_cons (8 * field.tag + field.value.wireType) with ⟨byte, bytes, key⟩
      have first : encode (field :: rest) = byte :: (bytes ++ field.value.encode ++ encode rest) := by
        rw [whole, Field.encode, key, List.cons_append, List.cons_append]
      rw [first] at read ⊢
      rw [decodeWithin, read, Option.bind_some, ih fits.2 (Nat.le_of_succ_le_succ enough), Option.map_some]

theorem length_le_encode (fields : List Field) : fields.length ≤ (encode fields).length := by
  induction fields with
  | nil => exact Nat.le_refl 0
  | cons field rest ih =>
    rcases varint_cons (8 * field.tag + field.value.wireType) with ⟨byte, bytes, key⟩
    rw [encode, List.flatMap_cons, ← encode, List.length_append, Field.encode, key]
    simp only [List.length_cons, List.length_append]
    omega

theorem decode_encode {fields : List Field} (fits : ∀ field ∈ fields, field.Fits) : decode (encode fields) = some fields :=
  decodeWithin_encode fits (length_le_encode fields)

end RoundTrip

theorem content_length_le {fields : List Field} {tag : Nat} {bytes : List UInt8} (listed : ⟨tag, .bytes bytes⟩ ∈ fields) :
    bytes.length ≤ (encode fields).length := by
  rcases List.mem_iff_append.mp listed with ⟨before, after, rfl⟩
  rw [encode, List.flatMap_append, List.flatMap_cons, Field.encode, Value.encode]
  simp only [List.length_append]
  omega

section Fields

theorem encode_append (fields more : List Field) : encode (fields ++ more) = encode fields ++ encode more :=
  List.flatMap_append

theorem encode_numberField (tag n : Nat) : (encode (numberField tag n)).length = numberSize tag n := by
  rw [numberField, numberSize]
  split
  · rfl
  · simp [encode, Field.encode, Value.encode, Value.wireType, varintSize]

theorem encode_bytes (tag : Nat) (content : List UInt8) :
    (encode [⟨tag, .bytes content⟩]).length = messageSize tag content.length := by
  simp [encode, Field.encode, Value.encode, Value.wireType, messageSize, varintSize, Nat.add_assoc]

theorem encode_bytesField (tag : Nat) (content : List UInt8) :
    (encode (bytesField tag content)).length = contentSize tag content.length := by
  rw [bytesField, contentSize]
  split
  · rfl
  · exact encode_bytes tag content

theorem encode_messageField (tag : Nat) (message : List Field) :
    (encode (messageField tag (some message))).length = messageSize tag (encode message).length :=
  encode_bytes tag (encode message)

theorem varintWithin_length_le (more n : Nat) : (varintWithin more n).length ≤ more + 1 := by
  induction more generalizing n with
  | zero => exact Nat.le_refl 1
  | succ more ih =>
    rw [varintWithin]
    split
    · exact Nat.succ_le_succ (Nat.zero_le _)
    · exact Nat.succ_le_succ (ih _)

theorem varintSize_le (n : Nat) : varintSize n ≤ 10 := varintWithin_length_le 9 n

theorem numberField_size (tag n : Nat) : (encode (numberField tag n)).length ≤ 20 := by
  have key := varintSize_le (8 * tag)
  have value := varintSize_le n
  rw [encode_numberField, numberSize]
  split <;> omega

variable {tag other : Nat}

theorem messageSize_le {length bound : Nat} (short : length ≤ bound) : messageSize tag length ≤ 20 + bound := by
  have key := varintSize_le (8 * tag + 2)
  have counted := varintSize_le length
  rw [messageSize]
  omega

theorem bytesField_size {content : List UInt8} {bound : Nat} (short : content.length ≤ bound) :
    (encode (bytesField tag content)).length ≤ 20 + bound := by
  rw [encode_bytesField, contentSize]
  split
  · exact Nat.zero_le _
  · exact messageSize_le short

theorem messageField_size {message : Option (List Field)} {bound : Nat}
    (short : ∀ fields, message = some fields → (encode fields).length ≤ bound) :
    (encode (messageField tag message)).length ≤ 20 + bound := by
  cases message with
  | none => exact Nat.zero_le _
  | some fields =>
    rw [encode_messageField]
    exact messageSize_le (short fields rfl)

theorem contentAt_numberField (n : Nat) : (numberField other n).filterMap (Field.contentAt tag) = [] := by
  rw [numberField]
  split <;> rfl

theorem contentAt_bytesField (apart : other ≠ tag) (content : List UInt8) :
    (bytesField other content).filterMap (Field.contentAt tag) = [] := by
  rw [bytesField]
  split <;> simp [Field.contentAt, apart]

theorem contentAt_messageField (apart : other ≠ tag) (message : Option (List Field)) :
    (messageField other message).filterMap (Field.contentAt tag) = [] := by
  cases message <;> simp [messageField, Field.contentAt, apart]

/-- The field with this tag, if it comes last of those that are there. -/
theorem content_append_message {before : List Field} (none : before.filterMap (Field.contentAt tag) = [])
    (message : List Field) : content tag (before ++ messageField tag (some message)) = encode message := by
  rw [content, List.filterMap_append, none]
  simp [messageField, Field.contentAt]

theorem content_bytesField (bytes : List UInt8) : content tag (bytesField tag bytes) = bytes := by
  rw [content, bytesField]
  split
  · rename_i empty
    exact (List.length_eq_zero_iff.mp empty).symm
  · simp [Field.contentAt]

/-- What is left to check of the fields of a short message: a content that is too long would not be in it. -/
def Field.Numbered (field : Field) : Prop := 8 * field.tag + 2 < 2 ^ 64 ∧ ∀ n, field.value = .number n → n < 2 ^ 64

theorem fits_of_length {fields : List Field} (numbered : ∀ field ∈ fields, field.Numbered)
    (short : (encode fields).length < 2 ^ 64) : ∀ field ∈ fields, field.Fits := by
  intro field listed
  rcases numbered field listed with ⟨tagFits, numberFits⟩
  refine ⟨tagFits, ?_⟩
  rcases field with ⟨tag, value⟩
  cases value with
  | number n => exact numberFits n rfl
  | bytes content => exact Nat.lt_of_le_of_lt (content_length_le listed) short

theorem numberField_numbered {n : Nat} (tagFits : 8 * tag + 2 < 2 ^ 64) (fits : n < 2 ^ 64) :
    ∀ field ∈ numberField tag n, field.Numbered := by
  intro field listed
  rw [numberField] at listed
  split at listed
  · cases listed
  · rw [List.mem_singleton] at listed
    subst listed
    exact ⟨tagFits, fun m same => Value.number.inj same ▸ fits⟩

theorem bytes_numbered (tagFits : 8 * tag + 2 < 2 ^ 64) (content : List UInt8) :
    ∀ field ∈ [(⟨tag, .bytes content⟩ : Field)], field.Numbered := by
  intro field listed
  rw [List.mem_singleton] at listed
  subst listed
  exact ⟨tagFits, fun m same => by cases same⟩

theorem bytesField_numbered (tagFits : 8 * tag + 2 < 2 ^ 64) (content : List UInt8) :
    ∀ field ∈ bytesField tag content, field.Numbered := by
  rw [bytesField]
  split
  · exact List.forall_mem_nil _
  · exact bytes_numbered tagFits content

theorem messageField_numbered (tagFits : 8 * tag + 2 < 2 ^ 64) (message : Option (List Field)) :
    ∀ field ∈ messageField tag message, field.Numbered := by
  cases message with
  | none => exact List.forall_mem_nil _
  | some message => exact bytes_numbered tagFits (encode message)

end Fields

end Protobuf
