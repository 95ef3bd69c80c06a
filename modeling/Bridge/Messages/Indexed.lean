import Bridge.Messages.Format

namespace Bridge

open Cbor

variable {Obj : Type}

def enterElements : Nat → CborValue → CborValue → Option (CborError × CborValue)
  | 0, _, content => some (.noError, content)
  | count + 1, it, _ =>
    (enterContainer it).bind fun (err, content) =>
      if err ≠ .noError then some (err, content)
      else (advance it).bind fun (err, it) =>
        if err ≠ .noError then some (err, content) else enterElements count it content

/-- How a decoder comes to the map that it reads. For a map as the root the index is ignored. -/
def openElement (index : Nat) (garbage it : CborValue) : Option (CborError × CborValue) :=
  if it.type = .map then enterContainer it
  else if it.type = .array then
    (enterContainer it).bind fun (err, it) =>
      if err ≠ .noError then some (err, it) else enterElements (index + 1) it garbage
  else some (.noError, garbage)

/-- The decoder of a message with its last argument. -/
def Format.decodeAt (format : Format Obj) (index : Nat) (garbage : CborValue) (buf : List UInt8) (retval : Obj) :
    Option (IgSerializerError × Obj) :=
  let (err, it) := cborParserInit buf
  if err ≠ .noError then some (.cbor err, retval)
  else (openElement index garbage it).bind fun (err, content) =>
    if err ≠ .noError then some (.cbor err, retval)
    else format.loop (content.rest.length + 1) content .noError retval

theorem openElement_zero (garbage it : CborValue) : openElement 0 garbage it = openContent garbage it := by
  unfold openElement openContent
  split
  · rfl
  · split
    · apply Option.bind_congr
      rintro ⟨err, first⟩ _
      simp only [enterElements]
      split
      · rfl
      · apply Option.bind_congr
        rintro ⟨err, content⟩ _
        simp only
        split
        · rfl
        · cases moved : advance first with
          | none => rfl
          | some result =>
            simp only [Option.bind_some, Option.map_some]
            split
            · rfl
            · rename_i fine
              rw [not_not.mp fine]
    · rfl

theorem decodeAt_zero (format : Format Obj) (garbage : CborValue) (buf : List UInt8) (retval : Obj) :
    format.decodeAt 0 garbage buf retval = format.decode garbage buf retval := by
  simp only [Format.decodeAt, Format.decode, openElement_zero]

end Bridge
