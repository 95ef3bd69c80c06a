import Bridge.Library.Cbor

namespace Bridge

open ByteCounter

inductive CborError
  | noError
  | unknownLength
  | advancePastEof
  | unexpectedEof
  | unexpectedBreak
  | unknownType
  | illegalType
  | illegalNumber
  | illegalSimpleType
  | dataTooLarge
  | nestingTooDeep
  | outOfMemory
deriving DecidableEq, Repr

/-- `negativeInteger` is the major type as `preparse_value` first stores it; only a failed call
    leaves it. -/
inductive CborType
  | integer
  | negativeInteger
  | byteString
  | textString
  | array
  | map
  | tag
  | simple
  | boolean
  | null
  | undefined
  | halfFloat
  | float
  | double
  | invalid
deriving DecidableEq, Repr

/-- `rest` is what lies between `ptr` and the end of the buffer. The flags of the iterator are kept
    one by one. -/
structure CborValue where
  rest : List UInt8
  remaining : Nat
  extra : Nat
  type : CborType
  negative : Bool
  tooLarge : Bool
  unknownLength : Bool
deriving DecidableEq, Repr

def uint32Max : Nat := 2 ^ 32 - 1

def breakByte : UInt8 := 0xff

def CborValue.kind (major : Nat) : CborType :=
  match major with
  | 0 => .integer
  | 1 => .negativeInteger
  | 2 => .byteString
  | 3 => .textString
  | 4 => .array
  | 5 => .map
  | 6 => .tag
  | _ => .simple

def isFixedType (type : CborType) : Bool :=
  type != .textString && type != .byteString && type != .array && type != .map

def CborValue.isContainer (it : CborValue) : Bool := it.type == .array || it.type == .map

def CborValue.atEnd (it : CborValue) : Bool := it.remaining == 0

/-- The number at `ptr`, and the position behind it. -/
def extractNumber (ptr : List UInt8) : Except CborError (Nat × List UInt8) :=
  match ptr with
  | [] => .error .unexpectedEof
  | first :: tail =>
    let information := first.toNat % 32
    if information < 24 then .ok (information, tail)
    else if information > 27 then .error .illegalNumber
    else if 2 ^ (information - 24) > tail.length then .error .unexpectedEof
    else .ok (number (tail.take (2 ^ (information - 24))), tail.drop (2 ^ (information - 24)))

/-- `preparse_value` for the major type of simple values and floats. -/
def preparseSimple (it : CborValue) (descriptor : Nat) (next : Nat) : CborError × CborValue :=
  match descriptor with
  | 20 => (.noError, { it with extra := 0, type := .boolean })
  | 21 => (.noError, { it with type := .boolean })
  | 22 => (.noError, { it with type := .null })
  | 23 => (.noError, { it with type := .undefined })
  | 24 =>
    if next < 32 then (.illegalSimpleType, { it with extra := next, type := .invalid })
    else (.noError, { it with extra := next })
  | 25 => (.noError, { it with type := .halfFloat })
  | 26 => (.noError, { it with tooLarge := true, type := .float })
  | 27 => (.noError, { it with tooLarge := true, type := .double })
  | _ => (.noError, it)

/-- Up to 16 bits of a number are decoded at once. -/
def preparseNumber (it : CborValue) (descriptor : Nat) (tail : List UInt8) : CborValue :=
  if descriptor < 24 then it
  else if descriptor = 24 then { it with extra := number (tail.take 1) }
  else if descriptor = 25 then { it with extra := number (tail.take 2) }
  else { it with tooLarge := true }

def preparseValue (it : CborValue) : CborError × CborValue :=
  match it.rest with
  | [] => (.unexpectedEof, { it with type := .invalid })
  | first :: tail =>
    let descriptor := first.toNat % 32
    let type := CborValue.kind (first.toNat / 32)
    let it : CborValue :=
      { it with type, extra := descriptor, negative := false, tooLarge := false, unknownLength := false }
    if descriptor > 27 then
      if descriptor ≠ 31 then (if type = .simple then .unknownType else .illegalNumber, it)
      else if !isFixedType type then (.noError, { it with unknownLength := true })
      else (if type = .simple then .unexpectedBreak else .illegalNumber, it)
    else if descriptor ≥ 24 ∧ tail.length < 2 ^ (descriptor - 24) then (.unexpectedEof, it)
    else if type = .simple then preparseSimple it descriptor (number (tail.take 1))
    else
      let it : CborValue := if type = .negativeInteger then { it with negative := true, type := .integer } else it
      (.noError, preparseNumber it descriptor tail)

def preparseNextValue (it : CborValue) : CborError × CborValue :=
  if it.remaining ≠ uint32Max then
    if it.type ≠ .tag then
      if it.remaining - 1 = 0 then (.noError, { it with remaining := 0, type := .invalid })
      else preparseValue { it with remaining := it.remaining - 1 }
    else preparseValue it
  else if it.rest.head? = some breakByte then
    (.noError, { it with rest := it.rest.tail, remaining := 0, type := .invalid })
  else preparseValue it

/-- `none` is a failed assertion, here and below. -/
def advanceInternal (it : CborValue) : Option (CborError × CborValue) :=
  match extractNumber it.rest with
  | .error _ => none
  | .ok (_, rest) => some (preparseNextValue { it with rest := rest })

def advanceFixed (it : CborValue) : Option (CborError × CborValue) :=
  if it.type = .invalid ∨ !isFixedType it.type then none
  else if it.remaining = 0 then some (.advancePastEof, it)
  else advanceInternal it

/-- The value without its sign: `extra`, or the four or eight bytes after the initial one. -/
def extractInt64Helper (it : CborValue) : Nat :=
  if it.tooLarge then
    match it.rest with
    | [] => 0
    | first :: tail => if first.toNat % 2 = 0 then number (tail.take 4) else number (tail.take 8)
  else it.extra

/-- The signed arithmetic wraps at 64 bits. -/
def getInt64 (it : CborValue) : Int :=
  Int.bmod (if it.negative then -1 - (extractInt64Helper it : Int) else extractInt64Helper it) (2 ^ 64)

def getUint64 (it : CborValue) : Option Nat := if it.negative then none else some (extractInt64Helper it)

def getBoolean (it : CborValue) : Bool := it.extra != 0

def getStringLength (it : CborValue) : Except CborError Nat :=
  if it.unknownLength then .error .unknownLength else .ok (extractInt64Helper it)

def stringChunks (type : CborType) : Nat → List UInt8 → Nat → Except CborError (List UInt8 × List UInt8)
  | 0, _, _ => .error .unexpectedEof
  | _ + 1, [], _ => .error .unexpectedEof
  | fuel + 1, first :: tail, total =>
    if first = breakByte then .ok ([], tail)
    else if CborValue.kind (first.toNat / 32) ≠ type then .error .illegalType
    else match extractNumber (first :: tail) with
    | .error err => .error err
    | .ok (chunkLen, ptr) =>
      if total + chunkLen ≥ 2 ^ 64 then .error .dataTooLarge
      else if chunkLen > ptr.length then .error .unexpectedEof
      else (stringChunks type fuel (ptr.drop chunkLen) (total + chunkLen)).map fun (content, ptr') =>
        (ptr.take chunkLen ++ content, ptr')

def iterateStringChunks (it : CborValue) : Except CborError (List UInt8 × List UInt8) :=
  if it.unknownLength then stringChunks it.type (it.rest.length + 1) it.rest.tail 0
  else match extractNumber it.rest with
  | .error err => .error err
  | .ok (total, ptr) =>
    if total > ptr.length then .error .unexpectedEof else .ok (ptr.take total, ptr.drop total)

/-- `_cbor_value_copy_string` into a buffer that is large enough, or into none: the bytes and, as
    `next`, the value behind the string. -/
def copyString (it : CborValue) : CborError × CborValue × List UInt8 :=
  match iterateStringChunks it with
  | .error err => (err, it, [])
  | .ok (content, ptr) =>
    let (err, next) := preparseNextValue { it with rest := ptr }
    (err, next, content)

def enterContainer (it : CborValue) : Option (CborError × CborValue) :=
  if !it.isContainer then none
  else if it.unknownLength then
    let (err, recursed) := preparseValue { it with remaining := uint32Max, rest := it.rest.tail }
    if err ≠ .unexpectedBreak then some (err, recursed)
    else some (.noError, { recursed with rest := recursed.rest.tail, type := .invalid, remaining := 0 })
  else
    match extractNumber it.rest with
    | .error _ => none
    | .ok (len, rest) =>
      let recursed := { it with rest := rest, remaining := len }
      if len ≥ uint32Max then some (.dataTooLarge, { it with remaining := len % 2 ^ 32 })
      else if it.type = .map ∧ len > uint32Max / 2 then some (.dataTooLarge, { it with remaining := len })
      else
        let recursed := { recursed with remaining := if it.type = .map then len * 2 else len }
        if len ≠ 0 then some (preparseValue recursed)
        else some (.noError, { recursed with type := .invalid, remaining := 0 })

def leaveContainer (it recursed : CborValue) : Option (CborError × CborValue) :=
  if !it.isContainer ∨ recursed.type ≠ .invalid then none
  else some (preparseNextValue { it with rest := recursed.rest })

def maxRecursions : Nat := 1024

mutual

/-- The fuel bounds the calls below one another: each takes a byte at least. -/
def advanceRecursive : Nat → CborValue → Nat → Option (CborError × CborValue)
  | 0, _, _ => none
  | fuel + 1, it, nestingLevel =>
    if isFixedType it.type then advanceInternal it
    else if !it.isContainer then some ((copyString it).1, (copyString it).2.1)
    else if nestingLevel = maxRecursions then some (.nestingTooDeep, it)
    else (enterContainer it).bind fun (err, recursed) =>
      if err ≠ .noError then some (err, it)
      else (advanceItems fuel recursed (nestingLevel + 1)).bind fun (err, recursed) =>
        if err ≠ .noError then some (err, it) else leaveContainer it recursed

def advanceItems : Nat → CborValue → Nat → Option (CborError × CborValue)
  | 0, _, _ => none
  | fuel + 1, recursed, nestingLevel =>
    if recursed.atEnd then some (.noError, recursed)
    else (advanceRecursive fuel recursed nestingLevel).bind fun (err, recursed) =>
      if err ≠ .noError then some (err, recursed) else advanceItems fuel recursed nestingLevel

end

def advance (it : CborValue) : Option (CborError × CborValue) :=
  if it.type = .invalid then none
  else if it.remaining = 0 then some (.advancePastEof, it)
  else advanceRecursive (2 * it.rest.length + 2) it 0

def cborParserInit (buffer : List UInt8) : CborError × CborValue :=
  preparseValue ⟨buffer, 1, 0, .invalid, false, false, false⟩

end Bridge
