import Bridge.Library.CString
import Bridge.Library.Memory
import Mathlib.Algebra.Group.Int.Defs
import Mathlib.Algebra.Group.Nat.Defs

namespace Stdio

def ascii (text : String) : List UInt8 := text.toList.map fun c => UInt8.ofNat c.toNat

def newline : UInt8 := 0x0a

def isSpace (c : UInt8) : Bool := c == 0x20 || 0x09 ≤ c && c ≤ 0x0d

def isDigit (c : UInt8) : Bool := 0x30 ≤ c && c ≤ 0x39

section Print

def digits (n : Nat) : List UInt8 := (Nat.toDigits 10 n).map fun c => UInt8.ofNat c.toNat

def decimal (n : Int) : List UInt8 := if n < 0 then 0x2d :: digits n.natAbs else digits n.natAbs

/-- What `snprintf` returns, and the array that it has been given whole. -/
def snprintf (array text : List UInt8) : Option (Nat × List UInt8) :=
  (Memory.write array 0 (text.take (array.length - 1) ++ [0])).map fun array => (text.length, array)

def strcpy (array source : List UInt8) : Option (List UInt8) :=
  (CString.chars source).bind fun text => Memory.write array 0 (text ++ [0])

theorem digits_length {n k : Nat} (some_digit : 0 < k) (bound : n < 10 ^ k) : (digits n).length ≤ k := by
  rw [digits, List.length_map]
  exact (Nat.length_toDigits_le_iff (by decide) some_digit).mpr bound

theorem digits_nonzero (n : Nat) : 0 ∉ digits n := by
  intro inside
  rcases List.mem_map.mp inside with ⟨c, listed, zero⟩
  have digit := Nat.isDigit_of_mem_toDigits (by decide) (by decide) listed
  simp only [Char.isDigit, ge_iff_le, Bool.and_eq_true, decide_eq_true_eq] at digit
  have low : 48 ≤ c.toNat := digit.1
  have high : c.toNat ≤ 57 := digit.2
  have value := congrArg UInt8.toNat zero
  rw [UInt8.toNat_ofNat', UInt8.toNat_zero] at value
  omega

theorem decimal_nonzero (n : Int) : 0 ∉ decimal n := by
  rw [decimal]
  split
  · rw [List.mem_cons, not_or]
    exact ⟨by decide, digits_nonzero _⟩
  · exact digits_nonzero _

theorem write_text {array text : List UInt8} (nonzero : 0 ∉ text) (room : text.length < array.length) : ∃ after,
    Memory.write array 0 (text ++ [0]) = some after ∧ after.length = array.length ∧ CString.chars after = some text := by
  have fits : 0 + (text ++ [0]).length ≤ array.length := by
    rw [List.length_append, List.length_singleton]
    omega
  refine ⟨_, Memory.write_eq_some_iff.mpr ⟨fits, rfl⟩, Memory.place_length fits, ?_⟩
  rw [Memory.place, List.take_zero, List.nil_append, List.append_assoc]
  exact CString.chars_append nonzero _

theorem strcpy_some {array source text : List UInt8} (read : CString.chars source = some text)
    (room : text.length < array.length) : ∃ after,
    strcpy array source = some after ∧ after.length = array.length ∧ CString.chars after = some text := by
  rw [strcpy, read, Option.bind_some]
  exact write_text (CString.chars_nonzero read) room

theorem strcpy_room {array source after : List UInt8} (copied : strcpy array source = some after) :
    ∃ text, CString.chars source = some text ∧ text.length < array.length := by
  rcases Option.bind_eq_some_iff.mp copied with ⟨text, read, written⟩
  have fits := (Memory.write_eq_some_iff.mp written).1
  rw [List.length_append, List.length_singleton] at fits
  exact ⟨text, read, by omega⟩

theorem snprintf_some {array text : List UInt8} (nonzero : 0 ∉ text) (room : 0 < array.length) : ∃ after,
    snprintf array text = some (text.length, after) ∧ after.length = array.length ∧
      CString.chars after = some (text.take (array.length - 1)) := by
  have short : (text.take (array.length - 1)).length < array.length := by
    rw [List.length_take]
    omega
  rcases write_text (fun inside => nonzero (List.mem_of_mem_take inside)) short with ⟨after, written, length, read⟩
  exact ⟨after, by rw [snprintf, written, Option.map_some], length, read⟩

end Print

section Lines

def firstLine : List UInt8 → List UInt8
  | [] => []
  | byte :: rest => if byte = newline then [byte] else byte :: firstLine rest

def taken (size : Nat) (stream : List UInt8) : List UInt8 := firstLine (stream.take (size - 1))

def fgets (array stream : List UInt8) : List UInt8 × List UInt8 :=
  if stream = [] then (array, stream)
  else (Memory.place array 0 (taken array.length stream ++ [0]), stream.drop (taken array.length stream).length)

/-- What the calls of `fgets` take until the stream is at its end. -/
def linesWithin (size : Nat) : Nat → List UInt8 → List (List UInt8)
  | 0, _ => []
  | fuel + 1, stream =>
    if stream = [] then []
    else taken size stream :: linesWithin size fuel (stream.drop (taken size stream).length)

def lines (size : Nat) (stream : List UInt8) : List (List UInt8) := linesWithin size stream.length stream

end Lines

section Scan

inductive Conversion
  | word (room : Nat)
  | number
deriving DecidableEq, Repr

inductive Scanned
  | word (chars : List UInt8)
  | number (value : Int)
deriving DecidableEq, Repr

def digitsValue (digits : List UInt8) : Nat := digits.foldl (fun n digit => 10 * n + (digit.toNat - 0x30)) 0

def signed : List UInt8 → Int × List UInt8
  | [] => (1, [])
  | c :: rest => if c = 0x2d then (-1, rest) else if c = 0x2b then (1, rest) else (1, c :: rest)

/-- What a conversion takes behind the blanks, and the rest of the text. -/
def Conversion.take (conversion : Conversion) (text : List UInt8) : Option (Scanned × List UInt8) :=
  let text := text.dropWhile isSpace
  match conversion with
  | .word _ =>
    if text = [] then none
    else some (.word (text.takeWhile fun c => !isSpace c), text.dropWhile fun c => !isSpace c)
  | .number =>
    let digits := (signed text).2.takeWhile isDigit
    if digits = [] then none
    else some (.number ((signed text).1 * digitsValue digits), (signed text).2.dropWhile isDigit)

def scan : List Conversion → List UInt8 → List Scanned
  | [], _ => []
  | conversion :: more, text =>
    match conversion.take text with
    | none => []
    | some (value, rest) => value :: scan more rest

def Conversion.Holds : Conversion → Scanned → Prop
  | .word room, .word chars => chars.length < room
  | _, _ => True

instance (conversion : Conversion) (value : Scanned) : Decidable (conversion.Holds value) :=
  match conversion, value with
  | .word room, .word chars => inferInstanceAs (Decidable (chars.length < room))
  | .word _, .number _ => .isTrue trivial
  | .number, _ => .isTrue trivial

def Fits (conversions : List Conversion) (values : List Scanned) : Prop :=
  ∀ pair ∈ conversions.zip values, pair.1.Holds pair.2

instance (conversions : List Conversion) (values : List Scanned) : Decidable (Fits conversions values) :=
  inferInstanceAs (Decidable (∀ pair ∈ conversions.zip values, pair.1.Holds pair.2))

def sscanfText : List Conversion → List UInt8 → Option (List Scanned)
  | [], _ => some []
  | conversion :: more, text =>
    match conversion.take text with
    | none => some []
    | some (value, rest) => if conversion.Holds value then (sscanfText more rest).map (value :: ·) else none

/-- What `sscanf` stores, with blanks between the conversions; `none` if the array has no NUL, or if a word is too long. -/
def sscanf (conversions : List Conversion) (array : List UInt8) : Option (List Scanned) :=
  (CString.chars array).bind (sscanfText conversions)

def scanned (conversions : List Conversion) (array : List UInt8) : List Scanned :=
  scan conversions (array.takeWhile (· != 0))

def Scannable (conversions : List Conversion) (array : List UInt8) : Prop :=
  0 ∈ array ∧ Fits conversions (scanned conversions array)

instance (conversions : List Conversion) (array : List UInt8) : Decidable (Scannable conversions array) :=
  inferInstanceAs (Decidable (0 ∈ array ∧ Fits conversions (scanned conversions array)))

theorem fits_cons {conversion : Conversion} {more : List Conversion} {value : Scanned} {values : List Scanned} :
    Fits (conversion :: more) (value :: values) ↔ conversion.Holds value ∧ Fits more values := by
  rw [Fits, List.zip_cons_cons, List.forall_mem_cons, Fits]

theorem sscanfText_eq_some_iff (conversions : List Conversion) (text : List UInt8) (values : List Scanned) :
    sscanfText conversions text = some values ↔ Fits conversions (scan conversions text) ∧ scan conversions text = values := by
  induction conversions generalizing text values with
  | nil =>
    rw [sscanfText, scan, Option.some.injEq]
    exact (and_iff_right fun pair inside => absurd inside List.not_mem_nil).symm
  | cons conversion more ih =>
    rw [sscanfText, scan]
    cases conversion.take text with
    | none =>
      rw [Option.some.injEq]
      exact (and_iff_right fun pair inside => absurd inside List.not_mem_nil).symm
    | some took =>
      rcases took with ⟨value, rest⟩
      dsimp only
      rw [fits_cons]
      split
      · rename_i held
        rw [and_iff_right held, Option.map_eq_some_iff]
        constructor
        · rintro ⟨others, scanned, rfl⟩
          rcases (ih rest others).mp scanned with ⟨fits, rfl⟩
          exact ⟨fits, rfl⟩
        · rintro ⟨fits, rfl⟩
          exact ⟨_, (ih rest _).mpr ⟨fits, rfl⟩, rfl⟩
      · rename_i long
        exact iff_of_false (fun same => by cases same) fun both => long both.1.1

theorem sscanf_eq_some_iff {conversions : List Conversion} {array : List UInt8} {values : List Scanned} :
    sscanf conversions array = some values ↔ Scannable conversions array ∧ scanned conversions array = values := by
  rw [sscanf, CString.chars_eq, Scannable, scanned]
  by_cases terminated : 0 ∈ array
  · rw [if_pos terminated, Option.bind_some, sscanfText_eq_some_iff, and_iff_right terminated]
  · rw [if_neg terminated, Option.bind_none]
    exact iff_of_false (fun same => by cases same) fun both => terminated both.1.1

theorem sscanf_bind_eq_some_iff {β : Type} {conversions : List Conversion} {array : List UInt8}
    {store : List Scanned → Option β} {result : β} : (sscanf conversions array).bind store = some result ↔
      Scannable conversions array ∧ store (scanned conversions array) = some result := by
  rw [Option.bind_eq_some_iff]
  constructor
  · rintro ⟨values, read, stored⟩
    rcases sscanf_eq_some_iff.mp read with ⟨fits, rfl⟩
    exact ⟨fits, stored⟩
  · rintro ⟨fits, stored⟩
    exact ⟨_, sscanf_eq_some_iff.mpr ⟨fits, rfl⟩, stored⟩

end Scan

end Stdio
