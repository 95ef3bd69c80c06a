import Bridge.Cbor.Parser
import Mathlib.Tactic.IntervalCases

namespace Bridge

open ByteCounter Cbor

theorem extractNumber_readHead {ptr rest : List UInt8} {major n : Nat} (read : readHead ptr = some (major, n, rest)) :
    extractNumber ptr = .ok (n, rest) := by
  rcases ptr with _ | ⟨first, tail⟩
  · cases read
  simp only [readHead] at read
  simp only [extractNumber]
  split at read
  · rename_i small
    cases read
    rw [if_pos small]
  · rename_i large
    split at read
    · rename_i wide
      cases read
      rw [if_neg large, if_neg (by omega), if_neg (by omega)]
    · cases read

/-- What `preparse_value` finds where a head of one of the first seven major types is. -/
structure Counted (it it' : CborValue) (major n : Nat) : Prop where
  rest : it'.rest = it.rest
  remaining : it'.remaining = it.remaining
  type : it'.type = if major = 1 then .integer else CborValue.kind major
  negative : it'.negative = decide (major = 1)
  known : it'.unknownLength = false
  value : extractInt64Helper it' = n

theorem kind_simple {major : Nat} (kind : major < 8) : CborValue.kind major = .simple ↔ major = 7 := by
  interval_cases major <;> decide

theorem kind_negative {major : Nat} (kind : major < 8) : CborValue.kind major = .negativeInteger ↔ major = 1 := by
  interval_cases major <;> decide

theorem preparseNumber_value (it : CborValue) {first : UInt8} {tail after : List UInt8} {major n : Nat}
    (start : it.rest = first :: tail) (low : it.extra = first.toNat % 32) (exact' : it.tooLarge = false)
    (read : readHead (first :: tail) = some (major, n, after)) :
    ∃ extra tooLarge, preparseNumber it (first.toNat % 32) tail = { it with extra, tooLarge } ∧
      extractInt64Helper { it with extra, tooLarge } = n := by
  simp only [readHead] at read
  split at read
  · rename_i small
    cases read
    refine ⟨it.extra, it.tooLarge, by rw [preparseNumber, if_pos small], ?_⟩
    rw [← low, extractInt64Helper, exact']
    rfl
  · rename_i large
    split at read
    · rename_i wide
      cases read
      obtain ⟨width, _⟩ := wide
      have parity : first.toNat % 2 = first.toNat % 32 % 2 := by omega
      obtain info | info | info | info : first.toNat % 32 = 24 ∨ first.toNat % 32 = 25 ∨ first.toNat % 32 = 26 ∨
          first.toNat % 32 = 27 := by omega
      · refine ⟨number (tail.take 1), it.tooLarge, by simp [preparseNumber, info], ?_⟩
        simp [extractInt64Helper, exact', info]
      · refine ⟨number (tail.take 2), it.tooLarge, by simp [preparseNumber, info], ?_⟩
        simp [extractInt64Helper, exact', info]
      · refine ⟨it.extra, true, by simp [preparseNumber, info], ?_⟩
        simp [extractInt64Helper, start, parity, info]
      · refine ⟨it.extra, true, by simp [preparseNumber, info], ?_⟩
        simp [extractInt64Helper, start, parity, info]
    · cases read

theorem readHead_info {first : UInt8} {tail after : List UInt8} {major n : Nat}
    (read : readHead (first :: tail) = some (major, n, after)) :
    first.toNat % 32 ≤ 27 ∧ ¬(first.toNat % 32 ≥ 24 ∧ tail.length < 2 ^ (first.toNat % 32 - 24)) := by
  simp only [readHead] at read
  split at read
  · omega
  · split at read
    · omega
    · cases read

theorem preparseValue_counted {it : CborValue} {after : List UInt8} {major n : Nat}
    (read : readHead it.rest = some (major, n, after)) (plain : major ≠ 7) :
    ∃ it', preparseValue it = (.noError, it') ∧ Counted it it' major n := by
  rcases start : it.rest with _ | ⟨first, tail⟩
  · rw [start] at read
    cases read
  rw [start] at read
  obtain ⟨low, enough⟩ := readHead_info read
  have upper := readHead_major read
  have range := first.toNat_lt
  have simple : ¬CborValue.kind major = .simple := by rwa [kind_simple (by omega)]
  have negates : CborValue.kind major = .negativeInteger ↔ major = 1 := kind_negative (by omega)
  simp only [preparseValue, start, upper, if_neg simple, if_neg (Nat.not_lt.mpr low), if_neg enough, negates]
  by_cases negative : major = 1
  · simp only [if_pos negative]
    obtain ⟨extra, tooLarge, same, value⟩ := preparseNumber_value ⟨it.rest, it.remaining, first.toNat % 32,
      .integer, true, false, false⟩ start rfl rfl read
    rw [start] at same value
    rw [same]
    exact ⟨_, rfl, start.symm, rfl, by simp [negative], by simp [negative], rfl, value⟩
  · simp only [if_neg negative]
    obtain ⟨extra, tooLarge, same, value⟩ := preparseNumber_value ⟨it.rest, it.remaining, first.toNat % 32,
      CborValue.kind major, false, false, false⟩ start rfl rfl read
    rw [start] at same value
    rw [same]
    exact ⟨_, rfl, start.symm, rfl, by simp [negative], by simp [negative], rfl, value⟩

theorem preparseNumber_frame (it : CborValue) (descriptor : Nat) (tail : List UInt8) :
    (preparseNumber it descriptor tail).rest = it.rest ∧
      (preparseNumber it descriptor tail).remaining = it.remaining ∧
      (preparseNumber it descriptor tail).type = it.type ∧
      (preparseNumber it descriptor tail).unknownLength = it.unknownLength := by
  unfold preparseNumber
  repeat' split
  all_goals exact ⟨rfl, rfl, rfl, rfl⟩

theorem preparseSimple_frame (it : CborValue) (descriptor next : Nat) :
    (preparseSimple it descriptor next).2.rest = it.rest ∧
      (preparseSimple it descriptor next).2.remaining = it.remaining := by
  unfold preparseSimple
  repeat' split
  all_goals exact ⟨rfl, rfl⟩

theorem preparseSimple_type (it : CborValue) (simple : it.type = .simple) (descriptor next : Nat) :
    (preparseSimple it descriptor next).2.type ∉
      [CborType.integer, .byteString, .textString, .array, .map, .tag] := by
  unfold preparseSimple
  repeat' split
  all_goals simp [simple]

theorem preparseSimple_error (it : CborValue) (descriptor next : Nat) :
    (preparseSimple it descriptor next).1 ≠ .unexpectedBreak := by
  unfold preparseSimple
  repeat' split
  all_goals simp

theorem preparseValue_frame (it : CborValue) :
    (preparseValue it).2.rest = it.rest ∧ (preparseValue it).2.remaining = it.remaining := by
  rcases start : it.rest with _ | ⟨first, tail⟩
  · simp only [preparseValue, start]
    exact ⟨trivial, trivial⟩
  · simp only [preparseValue, start]
    split
    · split
      · exact ⟨rfl, rfl⟩
      · split
        · exact ⟨rfl, rfl⟩
        · exact ⟨rfl, rfl⟩
    · split
      · exact ⟨rfl, rfl⟩
      · split
        · exact preparseSimple_frame _ _ _
        · have frame := fun it => preparseNumber_frame it (first.toNat % 32) tail
          split
          · exact ⟨(frame _).1, (frame _).2.1⟩
          · exact ⟨(frame _).1, (frame _).2.1⟩

theorem preparseValue_congr {it other : CborValue} (rest : it.rest = other.rest)
    (remaining : it.remaining = other.remaining) (some : it.rest ≠ []) : preparseValue it = preparseValue other := by
  rcases start : it.rest with _ | ⟨first, tail⟩
  · exact absurd start some
  · simp only [preparseValue, start, ← rest, ← remaining]

/-- The cursor is as `preparse_value` leaves it. -/
def Prepared (it : CborValue) : Prop := preparseValue it = (.noError, it)

theorem preparseValue_prepared {it it' : CborValue} (done : preparseValue it = (.noError, it')) :
    Prepared it' ∧ it'.rest = it.rest ∧ it'.remaining = it.remaining := by
  obtain ⟨rest, remaining⟩ := preparseValue_frame it
  rw [done] at rest remaining
  have some : it'.rest ≠ [] := by
    intro empty
    rw [preparseValue, ← rest, empty] at done
    cases done
  exact ⟨(preparseValue_congr rest remaining some).trans done, rest, remaining⟩

theorem readHead_some {first : UInt8} {tail : List UInt8} (low : first.toNat % 32 ≤ 27)
    (enough : ¬(first.toNat % 32 ≥ 24 ∧ tail.length < 2 ^ (first.toNat % 32 - 24))) :
    ∃ n after, readHead (first :: tail) = some (first.toNat / 32, n, after) := by
  by_cases small : first.toNat % 32 < 24
  · exact ⟨_, _, by rw [readHead, if_pos small]⟩
  · exact ⟨_, _, by rw [readHead, if_neg small, if_pos (by omega)]⟩

theorem kind_container {major : Nat} : isFixedType (CborValue.kind major) = false ↔ 2 ≤ major ∧ major ≤ 5 := by
  by_cases low : major ≤ 6
  · interval_cases major <;> decide
  · have simple : CborValue.kind major = .simple := by
      unfold CborValue.kind
      split
      all_goals first | omega | rfl
    rw [simple]
    constructor
    · intro fixed
      cases fixed
    · omega

/-- What `preparse_value` takes for an item with an argument has a head; what it takes for an open
    string or container starts with the byte of one. -/
theorem preparseValue_sound {it it' : CborValue} (done : preparseValue it = (.noError, it'))
    (type : it'.type ∈ [CborType.integer, .byteString, .textString, .array, .map, .tag]) :
    (∃ major n after, readHead it.rest = some (major, n, after) ∧ major ≠ 7) ∨
      (it'.unknownLength = true ∧ ∃ major tail, it.rest = initial major 31 :: tail ∧
        2 ≤ major ∧ major ≤ 5 ∧ it'.type = CborValue.kind major) := by
  rcases start : it.rest with _ | ⟨first, tail⟩
  · rw [preparseValue, start] at done
    cases done
  have range := first.toNat_lt
  simp only [preparseValue, start] at done
  split at done
  · split at done
    · split at done
      · cases done
      · cases done
    · split at done
      · rename_i last fixed
        cases done
        refine .inr ⟨rfl, first.toNat / 32, tail, ?_, ?_⟩
        · rw [initial, ← not_not.mp last, Nat.div_add_mod, UInt8.ofNat_toNat]
        · have container := kind_container.mp (by simpa using fixed)
          exact ⟨container.1, container.2, rfl⟩
      · split at done
        · cases done
        · cases done
  · rename_i low
    split at done
    · cases done
    · rename_i enough
      obtain ⟨n, after, read⟩ := readHead_some (Nat.not_lt.mp low) enough
      split at done
      · rename_i simple
        have outside := preparseSimple_type ⟨it.rest, it.remaining, first.toNat % 32,
          CborValue.kind (first.toNat / 32), false, false, false⟩ simple (first.toNat % 32) (number (tail.take 1))
        rw [start] at outside
        rw [done] at outside
        exact absurd type outside
      · rename_i plain
        exact .inl ⟨_, n, after, read, fun last => plain (by rw [last]; rfl)⟩

theorem prepared_counted {it : CborValue} {after : List UInt8} {major n : Nat} (prepared : Prepared it)
    (read : readHead it.rest = some (major, n, after)) (plain : major ≠ 7) : Counted it it major n := by
  obtain ⟨it', done, counted⟩ := preparseValue_counted read plain
  rw [prepared] at done
  cases done
  exact counted

theorem preparseValue_boolean {it : CborValue} {value : Bool} {tail : List UInt8}
    (start : it.rest = [initial 7 (20 + value.toNat)] ++ tail) :
    preparseValue it = (.noError, ⟨it.rest, it.remaining, value.toNat * 21, .boolean, false, false, false⟩) := by
  cases value <;> simp [preparseValue, start, initial, CborValue.kind, preparseSimple]

theorem preparseSimple_boolean (it : CborValue) (simple : it.type = .simple) {descriptor next : Nat}
    (boolean : (preparseSimple it descriptor next).2.type = .boolean) : descriptor = 20 ∨ descriptor = 21 := by
  unfold preparseSimple at boolean
  split at boolean
  · exact .inl rfl
  · exact .inr rfl
  all_goals
    try split at boolean
    all_goals simp [simple] at boolean

theorem kind_boolean (major : Nat) : CborValue.kind major ≠ .boolean := by
  unfold CborValue.kind
  split
  all_goals decide

theorem boolean_of_preparse {it it' : CborValue} (done : preparseValue it = (.noError, it')) (type : it'.type = .boolean) :
    ∃ (value : Bool) (tail : List UInt8), it.rest = [initial 7 (20 + value.toNat)] ++ tail := by
  rcases start : it.rest with _ | ⟨first, tail⟩
  · rw [preparseValue, start] at done
    cases done
  have range := first.toNat_lt
  have whole : 32 * (first.toNat / 32) + first.toNat % 32 = first.toNat := Nat.div_add_mod _ _
  have kind := kind_boolean (first.toNat / 32)
  simp only [preparseValue, start] at done
  split at done
  · split at done
    · split at done
      · cases done
      · cases done
    · split at done
      · cases done
        exact absurd type kind
      · split at done
        · cases done
        · cases done
  · split at done
    · cases done
    · split at done
      · rename_i simple
        have flag := preparseSimple_boolean ⟨it.rest, it.remaining, first.toNat % 32,
          CborValue.kind (first.toNat / 32), false, false, false⟩ simple (by rw [start, done]; exact type)
        rw [kind_simple (by omega)] at simple
        rcases flag with info | info
        · refine ⟨false, tail, ?_⟩
          rw [initial, ← simple, show 20 + false.toNat = first.toNat % 32 from info.symm, whole, UInt8.ofNat_toNat]
          rfl
        · refine ⟨true, tail, ?_⟩
          rw [initial, ← simple, show 20 + true.toNat = first.toNat % 32 from info.symm, whole, UInt8.ofNat_toNat]
          rfl
      · have frame := fun it => (preparseNumber_frame it (first.toNat % 32) tail).2.2.1
        obtain ⟨_, rfl⟩ := Prod.mk.inj done
        rw [frame] at type
        split at type
        · cases type
        · exact absurd type kind

section Scalars

variable {it : CborValue} {bytes tail : List UInt8} (prepared : Prepared it) (start : it.rest = bytes ++ tail)
include prepared start

theorem cursor_int {value : Int} (scalar : Scalar bytes (.int value)) :
    it.type = .integer ∧ getInt64 it = Int.bmod value (2 ^ 64) ∧
      getUint64 it = (if value < 0 then none else some value.toNat) ∧
      ∃ n, extractNumber it.rest = .ok (n, tail) := by
  generalize same : Item.int value = item at scalar
  cases scalar with
  | natural header =>
    cases same
    have read := readHead_head (by decide) header tail
    rw [← start] at read
    have counted := prepared_counted prepared read (by decide)
    refine ⟨counted.type, ?_, ?_, _, extractNumber_readHead read⟩
    · simp [getInt64, counted.negative, counted.value]
    · simp [getUint64, counted.negative, counted.value]
  | @negative n _ header =>
    cases same
    have read := readHead_head (by decide) header tail
    rw [← start] at read
    have counted := prepared_counted prepared read (by decide)
    refine ⟨counted.type, ?_, ?_, _, extractNumber_readHead read⟩
    · simp [getInt64, counted.negative, counted.value]
    · have below : (-1 : Int) - n < 0 := by omega
      simp [getUint64, counted.negative, below]
  | bytes header => cases same
  | boolean value => cases same

theorem cursor_bytes {content : List UInt8} (scalar : Scalar bytes (.bytes content)) :
    it.type = .byteString ∧ getStringLength it = .ok content.length ∧
      iterateStringChunks it = .ok (content, tail) := by
  generalize same : Item.bytes content = item at scalar
  cases scalar with
  | bytes header =>
    cases same
    have read := readHead_head (by decide) header (content ++ tail)
    rw [← List.append_assoc, ← start] at read
    have counted := prepared_counted prepared read (by decide)
    refine ⟨counted.type, ?_, ?_⟩
    · simp [getStringLength, counted.known, counted.value]
    · simp [iterateStringChunks, counted.known, extractNumber_readHead read]
  | natural header => cases same
  | negative header => cases same
  | boolean value => cases same

theorem cursor_boolean {value : Bool} (scalar : Scalar bytes (.simple (20 + value.toNat))) :
    it.type = .boolean ∧ getBoolean it = value ∧ ∃ n, extractNumber it.rest = .ok (n, tail) := by
  generalize same : Item.simple (20 + value.toNat) = item at scalar
  cases scalar with
  | boolean other =>
    have flag : value = other := by
      simp only [Item.simple.injEq] at same
      cases value <;> cases other <;> simp at same ⊢
    subst flag
    have same := congrArg Prod.snd ((preparseValue_boolean start).symm.trans prepared)
    have read : readHead it.rest = some (7, 20 + value.toNat, tail) := by
      rw [start]
      cases value <;> rfl
    refine ⟨congrArg CborValue.type same.symm, ?_, _, extractNumber_readHead read⟩
    have extra : value.toNat * 21 = it.extra := congrArg CborValue.extra same
    rw [getBoolean, ← extra]
    cases value <;> rfl
  | natural header => cases same
  | negative header => cases same
  | bytes header => cases same

theorem prepared_scalar_type {item : Item} (scalar : Scalar bytes item) : it.type ≠ .tag := by
  cases scalar with
  | natural header =>
    rw [(cursor_int prepared start (.natural header)).1]
    decide
  | negative header =>
    rw [(cursor_int prepared start (.negative header)).1]
    decide
  | bytes header =>
    rw [(cursor_bytes prepared start (.bytes header)).1]
    decide
  | boolean value =>
    rw [(cursor_boolean prepared start (.boolean value)).1]
    decide

end Scalars

theorem int_of_cursor {it : CborValue} (prepared : Prepared it) (type : it.type = .integer) :
    ∃ value bytes tail, it.rest = bytes ++ tail ∧ Scalar bytes (.int value) := by
  rcases preparseValue_sound prepared (by simp [type]) with ⟨major, n, after, read, plain⟩ | ⟨_, major, _, _, low, high, kind⟩
  · have counted := prepared_counted prepared read plain
    obtain ⟨small, head, start, header⟩ := head_of_readHead read
    have integral := counted.type
    rw [type] at integral
    obtain rfl | rfl : major = 0 ∨ major = 1 := by
      interval_cases major
      all_goals simp [CborValue.kind] at integral ⊢
    · exact ⟨n, head, after, start, .natural header⟩
    · exact ⟨-1 - n, head, after, start, .negative header⟩
  · rw [type] at kind
    interval_cases major
    all_goals cases kind

theorem bytes_of_cursor {it next : CborValue} {content : List UInt8} (prepared : Prepared it)
    (type : it.type = .byteString) {size : Nat} (known : getStringLength it = .ok size)
    (copied : copyString it = (.noError, next, content)) :
    ∃ bytes tail, it.rest = bytes ++ tail ∧ Scalar bytes (.bytes content) := by
  have counts : it.unknownLength = false := by
    unfold getStringLength at known
    split at known
    · cases known
    · rename_i plain
      simpa using plain
  rcases preparseValue_sound prepared (by simp [type]) with ⟨major, n, after, read, plain⟩ | ⟨opened, _⟩
  · have counted := prepared_counted prepared read plain
    obtain ⟨small, head, start, header⟩ := head_of_readHead read
    have string := counted.type
    rw [type] at string
    obtain rfl : major = 2 := by
      interval_cases major
      all_goals simp [CborValue.kind] at string ⊢
    simp only [copyString, iterateStringChunks, counts, extractNumber_readHead read, Bool.false_eq_true, if_false] at copied
    split at copied
    · rename_i failed
      split at failed
      · cases failed
        cases copied
      · cases failed
    · rename_i pair taken
      split at taken
      · cases taken
      · rename_i enough
        cases taken
        simp only [Prod.mk.injEq] at copied
        obtain ⟨_, _, rfl⟩ := copied
        have sized : (after.take n).length = n := by
          rw [List.length_take]
          omega
        refine ⟨head ++ after.take n, after.drop n, ?_, .bytes (by rwa [sized])⟩
        rw [List.append_assoc, List.take_append_drop, start]
  · rw [opened] at counts
    cases counts

theorem preparseValue_break {it : CborValue} {tail : List UInt8} (start : it.rest = breakByte :: tail) :
    ∃ it', preparseValue it = (.unexpectedBreak, it') ∧ it'.rest = it.rest := by
  simp [preparseValue, start, breakByte, CborValue.kind, isFixedType]

theorem enterContainer_counted {it : CborValue} {rest : List UInt8} {len : Nat} (container : it.isContainer = true)
    (known : it.unknownLength = false) (read : extractNumber it.rest = .ok (len, rest)) (short : len < uint32Max)
    (half : it.type = .map → len ≤ uint32Max / 2) : enterContainer it =
      if len ≠ 0 then
        some (preparseValue { it with rest := rest, remaining := if it.type = .map then len * 2 else len })
      else some (.noError, { it with rest := rest, remaining := 0, type := .invalid }) := by
  have fits : ¬(it.type = .map ∧ len > uint32Max / 2) := fun both => absurd (half both.1) (by omega)
  rw [enterContainer, if_neg (by simp [container]), if_neg (by simp [known]), read]
  simp only
  rw [if_neg (by omega), if_neg fits]

theorem enterContainer_open {it it' : CborValue} {err : CborError} (container : it.isContainer = true)
    (unknown : it.unknownLength = true)
    (done : preparseValue { it with remaining := uint32Max, rest := it.rest.tail } = (err, it')) : enterContainer it =
      if err ≠ .unexpectedBreak then some (err, it')
      else some (.noError, { it' with rest := it'.rest.tail, type := .invalid, remaining := 0 }) := by
  rw [enterContainer, if_neg (by simp [container]), if_pos unknown, done]

end Bridge
