import Mathlib.Algebra.Group.Int.Defs
import Mathlib.Algebra.Group.Nat.Defs
import Bridge.Messages.Indexed

namespace Bridge

open Cbor

inductive IgTableError
  | cbor (err : CborError)
  | invalidTypeMsgId
  | invalidMsgIdValue
  | invalidPayloadType
  | invalidPayload
deriving DecidableEq, Repr

def IgTableError.noError : IgTableError := .cbor .noError

def getArrayLength (it : CborValue) : Except CborError Nat :=
  if it.unknownLength then .error .unknownLength else .ok (extractInt64Helper it)

def igGetPayloadLength (buf : List UInt8) : Except IgTableError Nat :=
  let (err, it) := cborParserInit buf
  if err ≠ .noError then .error (.cbor err)
  else if it.type = .map then .ok 1
  else if it.type = .array then (getArrayLength it).mapError .cbor
  else .error .invalidPayloadType

/-- The first pair of a message, which both branches of `ig_decode_msg_ids` read in the same way. -/
def readMsgId (content : CborValue) : Option (Except IgTableError Int) :=
  if content.type ≠ .integer then some (.error .invalidTypeMsgId)
  else if getInt64 content ≠ 0 then some (.error .invalidMsgIdValue)
  else (advanceFixed content).map fun (err, content) =>
    if err ≠ .noError then .error (.cbor err)
    else if content.type ≠ .integer then .error .invalidTypeMsgId
    else if getInt64 content ≤ 0 then .error .invalidMsgIdValue
    else .ok (getInt64 content)

/-- The store into an `ig_object_id_t`, which is an `int32_t`; `none` outside of the array. -/
def storeId (retval : List Int) (i : Nat) (value : Int) : Option (List Int) :=
  if i < retval.length then some (retval.set i (Int.bmod value (2 ^ 32))) else none

def decodeElementIds : Nat → Nat → CborValue → List Int → Option (IgTableError × List Int)
  | 0, _, _, retval => some (.noError, retval)
  | count + 1, i, content, retval =>
    if content.type ≠ .map then some (.invalidTypeMsgId, retval)
    else (enterContainer content).bind fun (err, payloadContent) =>
      if err ≠ .noError then some (.cbor err, retval)
      else (readMsgId payloadContent).bind fun
        | .error err => some (err, retval)
        | .ok value =>
          (storeId retval i value).bind fun retval =>
            (advance content).bind fun (err, content) =>
              if err ≠ .noError then some (.cbor err, retval) else decodeElementIds count (i + 1) content retval

/-- The error and the ids in the caller's array; a table longer than the array is left unread,
    without an error. -/
def igDecodeMsgIds (buf : List UInt8) (retval : List Int) : Option (IgTableError × List Int) :=
  let (err, it) := cborParserInit buf
  if err ≠ .noError then some (.cbor err, retval)
  else if it.type = .map then
    (enterContainer it).bind fun (err, content) =>
      if err ≠ .noError then some (.cbor err, retval)
      else (readMsgId content).bind fun
        | .error err => some (err, retval)
        | .ok value => (storeId retval 0 value).map fun retval => (.noError, retval)
  else if it.type = .array then
    match getArrayLength it with
    | .error err => some (.cbor err, retval)
    | .ok size =>
      if size > retval.length then some (.noError, retval)
      else (enterContainer it).bind fun (err, content) =>
        if err ≠ .noError then some (.cbor err, retval) else decodeElementIds size 0 content retval
  else some (.invalidPayloadType, retval)

/-- The sum of `size_t`s wraps at 64 bits. -/
def igEncodeCalculateLength (objsLens : List Nat) : Except IgTableError Nat :=
  if objsLens.length < 1 ∨ objsLens.length > 23 then .error .invalidPayload
  else if objsLens.length = 1 then .ok (objsLens.headD 0)
  else .ok (objsLens.foldl (fun sum len => (sum + len) % 2 ^ 64) 1)

/-- Bytes stored one after the other from an index on; `none` as soon as one is outside. -/
def storeBytes (retval : List UInt8) (index : Nat) : List UInt8 → Option (List UInt8)
  | [] => some retval
  | byte :: rest => if index < retval.length then storeBytes (retval.set index byte) (index + 1) rest else none

/-- The loop over the bytes of an object, whose counter is an `int`: it overflows for 2^31 bytes. -/
def copyObject (retval : List UInt8) (index : Nat) (obj : List UInt8) : Option (List UInt8) :=
  if obj.length < 2 ^ 31 then storeBytes retval index obj else none

def copyObjects (retval : List UInt8) (index : Nat) : List (List UInt8) → Option (List UInt8)
  | [] => some retval
  | obj :: rest => (copyObject retval index obj).bind fun retval => copyObjects retval (index + obj.length) rest

/-- The objects come with their lengths; for a single one `total_size` is not looked at. -/
def igEncodeObjects (objsIn : List (List UInt8)) (retval : List UInt8) (totalSize : Nat) :
    Option (IgTableError × List UInt8) :=
  if objsIn.length < 1 then some (.invalidPayload, retval)
  else if objsIn.length = 1 then (copyObject retval 0 (objsIn.headD [])).map fun retval => (.noError, retval)
  else match igEncodeCalculateLength (objsIn.map List.length) with
  | .error err => some (err, retval)
  | .ok calculatedTotalSize =>
    if totalSize ≠ calculatedTotalSize then some (.invalidPayload, retval)
    else (storeBytes retval 0 [UInt8.ofNat (0x80 + objsIn.length)]).bind fun retval =>
      (copyObjects retval 1 objsIn).map fun retval => (.noError, retval)

end Bridge
