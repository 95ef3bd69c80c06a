import Bridge.Cbor.Encoder
import Bridge.Cbor.Parser
import Bridge.Messages.Handshake

namespace Bridge

open Cbor

inductive IgSerializerError
  | cbor (err : CborError)
  | invalidTypeTagId
  | invalidMsgIdValue
  | unknownTagId
deriving DecidableEq, Repr

def IgSerializerError.noError : IgSerializerError := .cbor .noError

/-- How a message keeps a field. The generated setters of byte strings clear the flag for an empty
    string (`bytes`), those of the wifi service always set it (`rawBytes`). -/
inductive FieldType
  | uint (bits : Nat)
  | int32
  | bytes
  | rawBytes
  | boolean
deriving DecidableEq, Repr

def FieldType.cborType : FieldType → CborType
  | .uint _ | .int32 => .integer
  | .bytes | .rawBytes => .byteString
  | .boolean => .boolean

/-- What the setter keeps of a decoded value: numbers are cut to the width of the field. -/
def FieldType.store : FieldType → Item → Option Item
  | .uint bits, .int n => some (.int (n % 2 ^ bits))
  | .int32, .int n => some (.int (Int.bmod n (2 ^ 32)))
  | .bytes, .bytes content => if content = [] then none else some (.bytes content)
  | .rawBytes, .bytes content => some (.bytes content)
  | .boolean, .simple value => some (.simple value)
  | _, _ => none

def FieldType.blank : FieldType → Item
  | .uint _ | .int32 => .int 0
  | .bytes | .rawBytes => .bytes []
  | .boolean => .simple 20

/-- A field of a message object, seen as the value that stands for it in the map; `none` is a false
    `has_` flag. A required field is encoded without a look at its flag. -/
structure Field (Obj : Type) where
  tag : Nat
  type : FieldType
  required : Bool
  get : Obj → Option Item
  set : Option Item → Obj → Obj

variable {Obj : Type}

def itemInt : Item → Option Int
  | .int n => some n
  | _ => none

def itemBytes : Item → Option (List UInt8)
  | .bytes content => some content
  | _ => none

def itemBool : Item → Option Bool
  | .simple value => some (value == 21)
  | _ => none

def uintField (bits tag : Nat) (required : Bool) (get : Obj → Option Nat) (set : Option Nat → Obj → Obj) :
    Field Obj where
  tag := tag
  type := .uint bits
  required := required
  get obj := (get obj).map fun n : Nat => .int n
  set value := set ((value.bind itemInt).map Int.toNat)

def int32Field (tag : Nat) (get : Obj → Option Int) (set : Option Int → Obj → Obj) : Field Obj where
  tag := tag
  type := .int32
  required := false
  get obj := (get obj).map .int
  set value := set (value.bind itemInt)

def bytesField (tag : Nat) (required : Bool) (get : Obj → Option (List UInt8))
    (set : Option (List UInt8) → Obj → Obj) : Field Obj where
  tag := tag
  type := .bytes
  required := required
  get obj := (get obj).map .bytes
  set value := set (value.bind itemBytes)

def rawBytesField (tag : Nat) (get : Obj → Option (List UInt8)) (set : Option (List UInt8) → Obj → Obj) :
    Field Obj := { bytesField tag true get set with type := .rawBytes }

def booleanField (tag : Nat) (get : Obj → Option Bool) (set : Option Bool → Obj → Obj) : Field Obj where
  tag := tag
  type := .boolean
  required := true
  get obj := (get obj).map fun value : Bool => .simple (20 + value.toNat)
  set value := set (value.bind itemBool)

/-- One message type. `msgId` is written and `acceptedId` is demanded; `base` is the constant of
    `get_max_payload_in_bytes`; where `breaksAtEnd`, the last case of the decoder's switch ends with
    a `break` and not in the default. -/
structure Format (Obj : Type) where
  init : Obj
  msgId : Nat
  acceptedId : Nat
  fields : List (Field Obj)
  isValid : Obj → Bool
  base : Nat
  breaksAtEnd : Bool

def Field.entry (field : Field Obj) (obj : Obj) : Option Item :=
  if field.required then some ((field.get obj).getD field.type.blank) else field.get obj

def Format.entries (format : Format Obj) (obj : Obj) : List (Field Obj × Item) :=
  format.fields.filterMap fun field => (field.entry obj).map fun item => (field, item)

def FieldType.encode (type : FieldType) (encoder : CborEncoder) (item : Item) : Option CborEncoder :=
  match type, item with
  | .uint _, .int n => cborEncodeUint encoder n.toNat
  | .int32, .int n => cborEncodeInt encoder n
  | .bytes, .bytes content | .rawBytes, .bytes content => cborEncodeByteString encoder content
  | .boolean, .simple value => cborEncodeBoolean encoder (value == 21)
  | _, _ => none

def encodeFields : List (Field Obj × Item) → CborEncoder → Option CborEncoder
  | [], encoder => some encoder
  | (field, item) :: rest, encoder =>
    (cborEncodeUint encoder field.tag).bind fun encoder =>
      (field.type.encode encoder item).bind fun encoder => encodeFields rest encoder

def Format.encode (format : Format Obj) (obj : Obj) (length : Nat) : Option (List UInt8) :=
  if !format.isValid obj then none
  else
    (cborEncoderCreateMap (cborEncoderInit length) (1 + (format.entries obj).length)).bind fun encoder =>
      (cborEncodeUint encoder 0).bind fun encoder =>
        (cborEncodeUint encoder format.msgId).bind fun encoder =>
          (encodeFields (format.entries obj) encoder).map CborEncoder.data

/-- The sizes are added as `size_t`, the result is a `uint32_t`. -/
def Format.getMaxPayloadInBytes (format : Format Obj) (obj : Obj) : Nat :=
  (format.base + (format.fields.map fun field =>
    bytesSize ((field.get obj).bind itemBytes)).sum) % 2 ^ 32

/-- The case of a field whose type is that of the value: the error, the position and the object. -/
def Field.take (field : Field Obj) (content : CborValue) (obj : Obj) : Option (CborError × CborValue × Obj) :=
  match field.type with
  | .uint _ => (getUint64 content).bind fun val =>
    (advanceFixed content).map fun (err, content) => (err, content, field.set (field.type.store (.int val)) obj)
  | .int32 => (advanceFixed content).map fun (err, next) =>
    (err, next, field.set (field.type.store (.int (getInt64 content))) obj)
  | .boolean => (advanceFixed content).map fun (err, next) =>
    (err, next, field.set (field.type.store (.simple (20 + (getBoolean content).toNat))) obj)
  | .bytes | .rawBytes =>
    match getStringLength content with
    | .error err => some (err, content, obj)
    | .ok _ =>
      let (err, content, data) := copyString content
      if err ≠ .noError then some (err, content, obj)
      else some (err, content, field.set (field.type.store (.bytes data)) obj)

inductive Outcome (Obj : Type)
  | returns (err : IgSerializerError) (obj : Obj)
  | continues (err : CborError) (content : CborValue) (obj : Obj)

/-- From one case of the switch down: a value of another type falls through to the next case. -/
def Format.fallThrough (format : Format Obj) (cases : List (Field Obj)) (content : CborValue) (obj : Obj) :
    Option (Outcome Obj) :=
  match cases.find? fun field => field.type.cborType == content.type with
  | some field => (field.take content obj).map fun (err, content, obj) =>
    if err ≠ .noError then .returns (.cbor err) obj else .continues err content obj
  | none =>
    if format.breaksAtEnd ∧ cases ≠ [] then some (.continues .noError content obj)
    else some (.returns .unknownTagId obj)

def Format.casesFrom (format : Format Obj) (tagId : Int) : List (Field Obj) :=
  if tagId = 0 then format.fields else format.fields.dropWhile fun field => (field.tag : Int) != tagId

/-- The case of the message id does not return the error of its advance. -/
def Format.switch (format : Format Obj) (tagId : Int) (content : CborValue) (obj : Obj) : Option (Outcome Obj) :=
  if tagId = 0 ∧ content.type = .integer then
    if getInt64 content ≠ format.acceptedId then some (.returns .invalidMsgIdValue obj)
    else (advanceFixed content).map fun (err, content) => .continues err content obj
  else format.fallThrough (format.casesFrom tagId) content obj

/-- The fuel bounds the rounds: each of them that goes on takes a byte at least. -/
def Format.loop (format : Format Obj) : Nat → CborValue → CborError → Obj → Option (IgSerializerError × Obj)
  | 0, _, _, _ => none
  | fuel + 1, content, err, obj =>
    if content.atEnd then some (.cbor err, obj)
    else if content.type ≠ .integer then some (.invalidTypeTagId, obj)
    else (advanceFixed content).bind fun (err, next) =>
      if err ≠ .noError then some (.cbor err, obj)
      else (format.switch (getInt64 content) next obj).bind fun
        | .returns err obj => some (err, obj)
        | .continues err content obj => format.loop fuel content err obj

/-- How a decoder comes to the map it reads, for the index 0. For a root that is neither a map nor
    an array, `content` is an uninitialised variable: `garbage` is what the stack holds. -/
def openContent (garbage it : CborValue) : Option (CborError × CborValue) :=
  if it.type = .map then enterContainer it
  else if it.type = .array then
    (enterContainer it).bind fun (err, it) =>
      if err ≠ .noError then some (err, it)
      else (enterContainer it).bind fun (err, content) =>
        if err ≠ .noError then some (err, content)
        else (advance it).map fun (err, _) => (err, content)
  else some (.noError, garbage)

/-- The error and what the object holds then; `none` where an assertion of the parser fails. -/
def Format.decode (format : Format Obj) (garbage : CborValue) (buf : List UInt8) (retval : Obj) :
    Option (IgSerializerError × Obj) :=
  let (err, it) := cborParserInit buf
  if err ≠ .noError then some (.cbor err, retval)
  else (openContent garbage it).bind fun (err, content) =>
    if err ≠ .noError then some (.cbor err, retval)
    else format.loop (content.rest.length + 1) content .noError retval

/-- The functions of the message for their callers. A failed assertion counts as an error. -/
def Format.codec (format : Format Obj) (garbage : CborValue) : Codec Obj where
  encode obj length := format.encode obj (length % 2 ^ 32)
  decode buf :=
    match format.decode garbage buf format.init with
    | none => (true, format.init)
    | some (err, obj) => (err != .noError, obj)
  getMaxPayloadInBytes := format.getMaxPayloadInBytes

end Bridge
