import Mathlib.Data.List.Basic
import Mathlib.Data.Vector.Basic

namespace CString

/-- What `strlen` walks over: the characters before the first NUL, `none` if it leaves the array. -/
def chars : List UInt8 → Option (List UInt8)
  | [] => none
  | byte :: rest => if byte = 0 then some [] else (chars rest).map (byte :: ·)

def strlen (array : List UInt8) : Option Nat := (chars array).map List.length

/-- Whether `strcmp` gives 0; `none` if it leaves one of the arrays first. -/
def equal : List UInt8 → List UInt8 → Option Bool
  | [], _ => none
  | _ :: _, [] => none
  | a :: as, b :: bs => if a ≠ b then some false else if a = 0 then some true else equal as bs

/-- `memcpy` to the start of an array; `none` if it leaves one of the two. -/
def copy {n : Nat} (dst : Vector UInt8 n) (src : List UInt8) (size : Nat) : Option (Vector UInt8 n) :=
  if fits : size ≤ n ∧ size ≤ src.length then
    some ⟨(src.take size ++ dst.toList.drop size).toArray, by simp [fits.2, fits.1]⟩
  else none

def clone (src : List UInt8) (size : Nat) : Option (List UInt8) := if size ≤ src.length then some (src.take size) else none

/-- Whether `strncmp` gives 0; `none` if it leaves one of the arrays first. -/
def equalUpTo : Nat → List UInt8 → List UInt8 → Option Bool
  | 0, _, _ => some true
  | _ + 1, [], _ => none
  | _ + 1, _ :: _, [] => none
  | n + 1, a :: as, b :: bs => if a ≠ b then some false else if a = 0 then some true else equalUpTo n as bs

/-- A string of any length, in an array of its own. -/
structure Text where
  bytes : List UInt8
  nonzero : 0 ∉ bytes
deriving DecidableEq, Repr

def Text.array (text : Text) : List UInt8 := text.bytes ++ [0]

/-- An array with a NUL in it. -/
structure Buffer (n : Nat) where
  array : Vector UInt8 n
  terminated : 0 ∈ array.toList

def Buffer.string {n : Nat} (buffer : Buffer n) : List UInt8 := buffer.array.toList.takeWhile (· != 0)

theorem chars_eq (array : List UInt8) : chars array = if 0 ∈ array then some (array.takeWhile (· != 0)) else none := by
  induction array with
  | nil => rfl
  | cons byte rest ih =>
    by_cases zero : byte = 0
    · simp [chars, zero]
    · simp only [chars, if_neg zero, ih, List.mem_cons, Ne.symm zero, false_or]
      split <;> simp [zero]

theorem Buffer.chars_eq {n : Nat} (buffer : Buffer n) : chars buffer.array.toList = some buffer.string := by
  rw [CString.chars_eq, if_pos buffer.terminated]
  rfl

theorem chars_some {array string : List UInt8} (read : chars array = some string) : ∃ rest, array = string ++ 0 :: rest := by
  induction array generalizing string with
  | nil => cases read
  | cons byte rest ih =>
    by_cases zero : byte = 0
    · rw [chars, if_pos zero] at read
      cases read
      exact ⟨rest, by rw [zero]; rfl⟩
    · rw [chars, if_neg zero] at read
      obtain ⟨tail, found, rfl⟩ := Option.map_eq_some_iff.mp read
      obtain ⟨after, rfl⟩ := ih found
      exact ⟨after, rfl⟩

theorem chars_lt {array string : List UInt8} (read : chars array = some string) : string.length < array.length := by
  obtain ⟨rest, rfl⟩ := chars_some read
  simp

theorem chars_nonzero {array string : List UInt8} (read : chars array = some string) : 0 ∉ string := by
  induction array generalizing string with
  | nil => cases read
  | cons byte rest ih =>
    by_cases zero : byte = 0
    · rw [chars, if_pos zero] at read
      cases read
      exact List.not_mem_nil
    · rw [chars, if_neg zero] at read
      obtain ⟨tail, found, rfl⟩ := Option.map_eq_some_iff.mp read
      simp only [List.mem_cons, not_or]
      exact ⟨Ne.symm zero, ih found⟩

theorem Buffer.length_lt {n : Nat} (buffer : Buffer n) : buffer.string.length < n := by
  have short := chars_lt buffer.chars_eq
  simpa using short

theorem chars_append {string : List UInt8} (nonzero : 0 ∉ string) (rest : List UInt8) :
    chars (string ++ 0 :: rest) = some string := by
  induction string with
  | nil => rfl
  | cons byte string ih =>
    simp only [List.mem_cons, not_or] at nonzero
    rw [List.cons_append, chars, if_neg (Ne.symm nonzero.1), ih nonzero.2, Option.map_some]

theorem chars_cleared {string : List UInt8} (nonzero : 0 ∉ string) {n : Nat} (room : 0 < n) :
    chars (string ++ List.replicate n 0) = some string := by
  obtain ⟨k, rfl⟩ : ∃ k, n = k + 1 := ⟨n - 1, by omega⟩
  rw [List.replicate_succ]
  exact chars_append nonzero _

theorem Text.chars_eq (text : Text) : chars text.array = some text.bytes := chars_append text.nonzero []

theorem equalUpTo_eq {string other : List UInt8} (nonzero : 0 ∉ string) (nonzero' : 0 ∉ other) (rest : List UInt8) :
    equalUpTo string.length (string ++ rest) (other ++ [0]) = some (string.isPrefixOf other) := by
  induction string generalizing other with
  | nil => rfl
  | cons a as ih =>
    rw [List.mem_cons, not_or] at nonzero
    cases other with
    | nil => simp [equalUpTo, Ne.symm nonzero.1]
    | cons b bs =>
      rw [List.mem_cons, not_or] at nonzero'
      by_cases same : a = b
      · subst same
        simp [equalUpTo, Ne.symm nonzero.1, ih nonzero.2 nonzero'.2]
      · simp [equalUpTo, List.isPrefixOf, same]

theorem exists_buffer {n : Nat} {array : Vector UInt8 n} {string : List UInt8} (read : chars array.toList = some string) :
    ∃ buffer : Buffer n, buffer.array = array ∧ buffer.string = string := by
  rcases chars_some read with ⟨rest, split⟩
  have terminated : 0 ∈ array.toList := by simp [split]
  exact ⟨⟨array, terminated⟩, rfl, Option.some.inj ((Buffer.chars_eq ⟨array, terminated⟩).symm.trans read)⟩

/-- An array that is filled up with NULs behind a string. -/
def Buffer.of (n : Nat) (string : List UInt8) (room : string.length < n) : Buffer n where
  array := ⟨(string ++ List.replicate (n - string.length) 0).toArray, by simp; omega⟩
  terminated := by
    apply List.mem_append_right
    rw [List.mem_replicate]
    exact ⟨by omega, rfl⟩

theorem Buffer.of_string {n : Nat} {string : List UInt8} (room : string.length < n) (nonzero : 0 ∉ string) :
    (Buffer.of n string room).string = string := by
  have read := (Buffer.of n string room).chars_eq
  have array : (Buffer.of n string room).array.toList = string ++ List.replicate (n - string.length) 0 := rfl
  rw [array, chars_cleared nonzero (by omega)] at read
  exact (Option.some.inj read).symm

/-- Cutting an array behind the NUL of its string leaves the string as it is, cutting it before leaves none. -/
theorem chars_take {array string : List UInt8} (read : chars array = some string) (n : Nat) :
    chars (array.take n) = if string.length < n then some string else none := by
  obtain ⟨rest, rfl⟩ := chars_some read
  have nonzero := chars_nonzero read
  split
  · rename_i short
    have kept : (string ++ 0 :: rest).take n = string ++ 0 :: rest.take (n - string.length - 1) := by
      obtain ⟨k, rfl⟩ : ∃ k, n = string.length + (k + 1) := ⟨n - string.length - 1, by omega⟩
      rw [List.take_length_add_append]
      have rest' : string.length + (k + 1) - string.length - 1 = k := by omega
      rw [rest']
      rfl
    rw [kept]
    exact chars_append nonzero _
  · rename_i long
    have cut : (string ++ 0 :: rest).take n = string.take n := List.take_append_of_le_length (by omega)
    rw [cut, chars_eq, if_neg]
    intro inside
    exact nonzero (List.mem_of_mem_take inside)

theorem equal_eq {array other string : List UInt8} (read : chars other = some string) (shorter : string.length < array.length) :
    equal array other = some (decide (chars array = some string)) := by
  induction other generalizing array string with
  | nil => cases read
  | cons b bs ih =>
    cases array with
    | nil => exact absurd shorter (Nat.not_lt_zero _)
    | cons a as =>
      by_cases zero : b = 0
      · rw [chars, if_pos zero] at read
        cases read
        by_cases first : a = 0
        · simp [equal, chars, zero, first]
        · simp [equal, chars, zero, first]
      · rw [chars, if_neg zero] at read
        obtain ⟨tail, found, rfl⟩ := Option.map_eq_some_iff.mp read
        by_cases same : a = b
        · subst same
          have rest := ih found (Nat.lt_of_succ_lt_succ shorter)
          simp only [equal, ne_eq, not_true_eq_false, if_false, zero, rest, chars, Option.map_eq_some_iff, List.cons.injEq,
            true_and, exists_eq_right]
        · have apart : chars (a :: as) ≠ some (b :: tail) := by
            rw [chars]
            split
            · exact fun equal => by cases equal
            · intro equal
              obtain ⟨_, _, lists⟩ := Option.map_eq_some_iff.mp equal
              exact same (List.cons.inj lists).1
          simp [equal, same, apart]

theorem equal_comm (array other : List UInt8) : equal array other = equal other array := by
  induction array generalizing other with
  | nil => cases other <;> rfl
  | cons a as ih =>
    cases other with
    | nil => rfl
    | cons b bs =>
      by_cases same : a = b
      · subst same
        simp only [equal, ih]
      · simp [equal, same, Ne.symm same]

theorem equal_strings {array other string string' : List UInt8} (read : chars array = some string)
    (read' : chars other = some string') : equal array other = some (decide (string = string')) := by
  have first := chars_lt read
  have second := chars_lt read'
  by_cases shorter : string'.length < array.length
  · rw [equal_eq read' shorter, read]
    simp only [Option.some.injEq]
  · rw [equal_comm, equal_eq read (by omega), read']
    simp only [Option.some.injEq, eq_comm]

theorem equal_true {array other : List UInt8} (same : equal array other = some true) :
    ∃ string, chars array = some string ∧ chars other = some string := by
  induction array generalizing other with
  | nil => cases same
  | cons a as ih =>
    cases other with
    | nil => cases same
    | cons b bs =>
      rw [equal] at same
      by_cases differ : a ≠ b
      · rw [if_pos differ] at same
        cases same
      · rw [if_neg differ] at same
        rw [ne_eq, not_not] at differ
        subst differ
        by_cases zero : a = 0
        · exact ⟨[], by simp [chars, zero], by simp [chars, zero]⟩
        · rw [if_neg zero] at same
          rcases ih same with ⟨string, read, read'⟩
          exact ⟨a :: string, by simp [chars, zero, read], by simp [chars, zero, read']⟩

theorem copy_some {n : Nat} (dst : Vector UInt8 n) {src : List UInt8} {size : Nat} (fits : size ≤ n) (held : size ≤ src.length) :
    ∃ copied, copy dst src size = some copied ∧ copied.toList = src.take size ++ dst.toList.drop size := by
  refine ⟨⟨(src.take size ++ dst.toList.drop size).toArray, by simp [held, fits]⟩, ?_, by simp⟩
  exact dif_pos ⟨fits, held⟩

theorem copy_none {n : Nat} (dst : Vector UInt8 n) {src : List UInt8} {size : Nat} (long : n < size) :
    copy dst src size = none :=
  dif_neg fun fits => absurd fits.1 (Nat.not_le.mpr long)

end CString
