import Bridge.BridgeMain.DealCmd
import Bridge.Library.Memory
import Bridge.Library.NarrowLoop

namespace Bridge.HexString

open Memory (load store)

def toupper (c : UInt8) : UInt8 := if 0x61 ≤ c ∧ c ≤ 0x7a then c - 0x20 else c

def tolower (c : UInt8) : UInt8 := if 0x41 ≤ c ∧ c ≤ 0x5a then c + 0x20 else c

def nibbleOf (c : UInt8) : UInt8 := if toupper c > 0x39 then toupper c - 0x37 else toupper c - 0x30

def hexStrToByteRound (source : List UInt8) (i : Int) (dest : List UInt8) : Option (List UInt8) := do
  let highByte ← load source i
  let lowByte ← load source (i + 1)
  store dest (Int.tdiv i 2) (nibbleOf highByte <<< 4 ||| nibbleOf lowByte)

-- The index of both loops is a `short`, and `sourceLen` is an `int`.

/-- The result and `dest`; `none` for an access outside one of the arrays. -/
def hexStrToByte (fuel : Nat) (source dest : List UInt8) (sourceLen : Int) : Option (Int × List UInt8) :=
  (NarrowLoop.run (2 ^ 15) 2 sourceLen (hexStrToByteRound source) fuel 0 dest).map fun dest =>
    (Int.tdiv sourceLen 2, dest)

def byteToHexStrRound (source : List UInt8) (i : Int) (dest : List UInt8) : Option (List UInt8) := do
  let byte ← load source i
  let dest ← store dest (i * 2) (hexDigit (byte >>> 4))
  store dest (i * 2 + 1) (hexDigit (byte &&& 0x0f))

def byteToHexStr (fuel : Nat) (source dest : List UInt8) (sourceLen : Int) : Option (List UInt8) :=
  NarrowLoop.run (2 ^ 15) 1 sourceLen (byteToHexStrRound source) fuel 0 dest

def hexForm (bytes : List UInt8) : List UInt8 :=
  bytes.flatMap fun (byte : UInt8) => [hexDigit (byte >>> 4), hexDigit (byte &&& 0x0f)]

/-- The bytes are written into `text` as twice as many characters, and from exactly these, or from their lower-case
    form, into `dest` again; what is behind them in both arrays is as it was. -/
def RoundTrip (bytes text dest : List UInt8) : Prop :=
  ∃ steps, ∀ fuel, steps ≤ fuel → ∃ digits, digits.length = 2 * bytes.length ∧
    byteToHexStr fuel bytes text bytes.length = some (digits ++ text.drop (2 * bytes.length)) ∧
    ∀ source ∈ [digits, digits.map tolower],
      hexStrToByte fuel source dest (2 * bytes.length) = some ((bytes.length : Int), bytes ++ dest.drop bytes.length)

section Digits

theorem hexForm_length (bytes : List UInt8) : (hexForm bytes).length = 2 * bytes.length := by
  induction bytes with
  | nil => rfl
  | cons byte rest ih =>
    rw [hexForm, List.flatMap_cons, List.length_append, ← hexForm, ih, List.length_cons, List.length_cons, List.length_cons,
      List.length_nil]
    omega

theorem hexForm_append (bytes : List UInt8) (byte : UInt8) :
    hexForm (bytes ++ [byte]) = hexForm bytes ++ [hexDigit (byte >>> 4), hexDigit (byte &&& 0x0f)] := by
  rw [hexForm, List.flatMap_append, ← hexForm, List.flatMap_singleton]

theorem hexForm_digits {bytes : List UInt8} {k : Nat} (early : k < bytes.length) :
    (hexForm bytes)[2 * k]? = some (hexDigit (bytes[k] >>> 4)) ∧
      (hexForm bytes)[2 * k + 1]? = some (hexDigit (bytes[k] &&& 0x0f)) := by
  induction bytes generalizing k with
  | nil => exact absurd early (Nat.not_lt_zero k)
  | cons byte rest ih =>
    cases k with
    | zero => exact ⟨rfl, rfl⟩
    | succ k => exact ih (Nat.lt_of_succ_lt_succ early)

theorem nibbles_digits (byte : UInt8) :
    nibbleOf (hexDigit (byte >>> 4)) <<< 4 ||| nibbleOf (hexDigit (byte &&& 0x0f)) = byte := by
  have every : ∀ k : Fin 256, nibbleOf (hexDigit (UInt8.ofFin k >>> 4)) <<< 4 |||
      nibbleOf (hexDigit (UInt8.ofFin k &&& 0x0f)) = UInt8.ofFin k := by decide +kernel
  exact every byte.toFin

theorem nibbleOf_lower (c : UInt8) : nibbleOf (tolower c) = nibbleOf c := by
  have every : ∀ k : Fin 256, nibbleOf (tolower (UInt8.ofFin k)) = nibbleOf (UInt8.ofFin k) := by decide +kernel
  exact every c.toFin

end Digits

section Loops

variable {source dest : List UInt8} {fuel len : Nat}

theorem byteToHexStr_round {k : Nat} (early : k < source.length) (room : 2 * (k + 1) ≤ dest.length) :
    byteToHexStrRound source ((1 * k : Nat) : Int) (hexForm (source.take k) ++ dest.drop (2 * k)) =
      some (hexForm (source.take (k + 1)) ++ dest.drop (2 * (k + 1))) := by
  have two : dest.drop (2 * k) = dest[2 * k] :: dest[2 * k + 1] :: dest.drop (2 * (k + 1)) := by
    rw [List.drop_eq_getElem_cons (by omega), List.drop_eq_getElem_cons (by omega)]
    rfl
  have here : (hexForm (source.take k)).length = 2 * k := by
    rw [hexForm_length, List.length_take_of_le (Nat.le_of_lt early)]
  have behind (digit : UInt8) : (hexForm (source.take k) ++ [digit]).length = 2 * k + 1 := by
    rw [List.length_append, here, List.length_singleton]
  have read : load source ((1 * k : Nat) : Int) = some source[k] := by
    rw [Memory.load_natCast, Nat.one_mul, List.getElem?_eq_getElem early]
  rw [byteToHexStrRound, read, Option.bind_eq_bind, Option.bind_some, two,
    Memory.store_append _ _ _ _ (by rw [here]; omega), Option.bind_eq_bind, Option.bind_some, List.append_cons,
    Memory.store_append _ _ _ _ (by rw [behind]; omega), List.take_succ_eq_append_getElem early, hexForm_append,
    List.append_assoc, List.append_assoc]
  rfl

theorem byteToHexStr_ends (short : len < 2 ^ 15) (inside : len ≤ source.length) (room : 2 * len ≤ dest.length)
    (enough : len < fuel) :
    byteToHexStr fuel source dest len = some (hexForm (source.take len) ++ dest.drop (2 * len)) := by
  have ends : ∃ final, byteToHexStr fuel source dest len = some final ∧
      final = hexForm (source.take len) ++ dest.drop (2 * len) := by
    refine NarrowLoop.run_invariant (fun k written => written = hexForm (source.take k) ++ dest.drop (2 * k))
      (by omega) (by omega) (by omega) ?_ (Nat.zero_le len) rfl enough
    rintro k written early rfl
    exact ⟨_, byteToHexStr_round (by omega) (by omega), rfl⟩
  rcases ends with ⟨final, ran, rfl⟩
  exact ran

theorem byteToHexStr_never (long : 2 ^ 15 ≤ len) : byteToHexStr fuel source dest len = none :=
  NarrowLoop.run_never (by decide) (by exact_mod_cast long) (by decide)

theorem hexStrToByte_round {bytes : List UInt8} {k : Nat} (early : k < bytes.length) (room : bytes.length ≤ dest.length) :
    hexStrToByteRound (hexForm bytes) ((2 * k : Nat) : Int) (bytes.take k ++ dest.drop k) =
      some (bytes.take (k + 1) ++ dest.drop (k + 1)) := by
  rcases hexForm_digits early with ⟨high, low⟩
  have half : Int.tdiv ((2 * k : Nat) : Int) 2 = (k : Int) := by
    rw [Int.tdiv_eq_ediv_of_nonneg (by omega)]
    omega
  have here : (bytes.take k).length = k := List.length_take_of_le (Nat.le_of_lt early)
  have readHigh : load (hexForm bytes) ((2 * k : Nat) : Int) = some (hexDigit (bytes[k] >>> 4)) := by
    rw [Memory.load_natCast, high]
  have readLow : load (hexForm bytes) (((2 * k : Nat) : Int) + 1) = some (hexDigit (bytes[k] &&& 0x0f)) := by
    rw [← low, ← Memory.load_natCast]
    push_cast
    rfl
  rw [hexStrToByteRound, readHigh, readLow, half, Option.bind_eq_bind, Option.bind_some, Option.bind_some,
    nibbles_digits, List.drop_eq_getElem_cons (by omega : k < dest.length),
    Memory.store_append _ _ _ _ (by rw [here]), List.take_succ_eq_append_getElem early, List.append_assoc,
    List.singleton_append]

theorem hexStrToByte_ends {bytes : List UInt8} (short : 2 * bytes.length < 2 ^ 15) (room : bytes.length ≤ dest.length)
    (enough : bytes.length < fuel) :
    hexStrToByte fuel (hexForm bytes) dest (2 * bytes.length) = some ((bytes.length : Int), bytes ++ dest.drop bytes.length) := by
  have ends : ∃ final, NarrowLoop.run (2 ^ 15) 2 (2 * bytes.length) (hexStrToByteRound (hexForm bytes)) fuel 0 dest =
      some final ∧ final = bytes.take bytes.length ++ dest.drop bytes.length := by
    refine NarrowLoop.run_invariant (fun k written => written = bytes.take k ++ dest.drop k)
      (by omega) (by omega) (by omega) ?_ (Nat.zero_le bytes.length) rfl enough
    rintro k written early rfl
    exact ⟨_, hexStrToByte_round early room, rfl⟩
  have half : Int.tdiv (2 * (bytes.length : Int)) 2 = (bytes.length : Int) := by
    rw [Int.tdiv_eq_ediv_of_nonneg (by omega)]
    omega
  rcases ends with ⟨final, ran, rfl⟩
  rw [hexStrToByte, ran, Option.map_some, half, List.take_length]

theorem hexStrToByte_never {sourceLen : Int} (long : 2 ^ 15 ≤ sourceLen) : hexStrToByte fuel source dest sourceLen = none := by
  rw [hexStrToByte, NarrowLoop.run_never (by decide) (by exact_mod_cast long) (by decide), Option.map_none]

theorem load_map (f : UInt8 → UInt8) (i : Int) : load (source.map f) i = (load source i).map f := by
  rw [load, load]
  split
  · exact List.getElem?_map
  · rfl

theorem hexStrToByte_lower (sourceLen : Int) :
    hexStrToByte fuel (source.map tolower) dest sourceLen = hexStrToByte fuel source dest sourceLen := by
  have rounds : hexStrToByteRound (source.map tolower) = hexStrToByteRound source := by
    ext i dest : 2
    rw [hexStrToByteRound, hexStrToByteRound, load_map, load_map]
    cases load source i with
    | none => rfl
    | some high =>
      cases load source (i + 1) with
      | none => rfl
      | some low =>
        simp only [Option.map_some, Option.bind_eq_bind, Option.bind_some, nibbleOf_lower]
  rw [hexStrToByte, hexStrToByte, rounds]

end Loops

theorem byteToHexStr_written {source dest digits : List UInt8} {len : Nat} (short : len < 2 ^ 15)
    (written : Bridge.byteToHexStr source dest.length len = some digits) {fuel : Nat} (enough : len < fuel) :
    byteToHexStr fuel source dest len = some (digits ++ dest.drop (2 * len)) := by
  unfold Bridge.byteToHexStr at written
  split at written
  · rename_i fits
    cases written
    exact byteToHexStr_ends short fits.1 fits.2 enough
  · cases written

section Law

theorem roundTrip_short {bytes text dest : List UInt8} (returned : RoundTrip bytes text dest) : bytes.length < 2 ^ 14 := by
  rcases returned with ⟨steps, returns⟩
  rcases returns steps (Nat.le_refl steps) with ⟨digits, -, -, read⟩
  by_contra long
  have lost := @hexStrToByte_never digits dest steps (2 * bytes.length) (by omega)
  rw [read digits List.mem_cons_self] at lost
  cases lost

theorem hexString_roundTrip {bytes text dest : List UInt8} (textRoom : 2 * bytes.length ≤ text.length)
    (destRoom : bytes.length ≤ dest.length) : RoundTrip bytes text dest ↔ bytes.length < 2 ^ 14 := by
  constructor
  · exact roundTrip_short
  · intro short
    refine ⟨bytes.length + 1, fun fuel enough => ⟨hexForm bytes, hexForm_length bytes, ?_, ?_⟩⟩
    · rw [byteToHexStr_ends (by omega) (Nat.le_refl _) textRoom enough, List.take_length]
    · have read := @hexStrToByte_ends dest fuel bytes (by omega) destRoom enough
      intro source form
      rcases List.mem_pair.mp form with rfl | rfl
      · exact read
      · rw [hexStrToByte_lower]
        exact read

theorem hexString_roundTrip_bytes : RoundTrip [0x09, 0xab, 0x7f] (List.replicate 8 0x41) [0, 0, 0, 0x42] ↔
    [(0x09 : UInt8), 0xab, 0x7f].length < 2 ^ 14 :=
  hexString_roundTrip (by decide) (by decide)

theorem hexString_lost : ¬∀ bytes text dest : List UInt8, 2 * bytes.length < 2 ^ 31 → 2 * bytes.length ≤ text.length →
    bytes.length ≤ dest.length → RoundTrip bytes text dest := by
  intro every
  have length (n : Nat) : (List.replicate n (0 : UInt8)).length = n := List.length_replicate
  have short := roundTrip_short (every (List.replicate (2 ^ 14) 0) (List.replicate (2 ^ 15) 0) (List.replicate (2 ^ 14) 0)
    (by rw [length]; omega) (by rw [length, length]; omega) (Nat.le_refl _))
  rw [length] at short
  exact absurd short (Nat.lt_irrefl _)

end Law

end Bridge.HexString
