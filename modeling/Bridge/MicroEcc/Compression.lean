import Bridge.MicroEcc.Ecdh
import Mathlib.FieldTheory.Finite.Basic

namespace MicroEcc

open Limbs CoZ

variable {w : Nat} {σ : Type}

def sqrtLoop (a p1 : Vli w) (curve : Curve w) : Nat → Vli w → Vli w
  | 0, result => result
  | i + 1, result =>
    let result := vliModSquareFast result curve
    sqrtLoop a p1 curve i (if vliTestBit p1 (i + 2) then vliModMultFast result a curve else result)

def modSqrtDefault (a : Vli w) (curve : Curve w) : Vli w :=
  let one := (vliClear w curve.numWords).set 0 1
  let p1 := (vliAdd curve.p one).1
  sqrtLoop a p1 curve (vliNumBits p1 - 2) one

def compress (publicKey : List (BitVec 8)) (curve : Curve w) : List (BitVec 8) :=
  (2 + (publicKey.getD curve.numBytes 0 &&& 1)) :: publicKey.take curve.numBytes

def decompress (compressed : List (BitVec 8)) (curve : Curve w) : List (BitVec 8) :=
  let x := bytesToWords w curve.numWords (compressed.tail.take curve.numBytes)
  let y := modSqrtDefault (xSideDefault x curve) curve
  let same := (y.getD 0 0 &&& 1).toNat = (compressed.getD 0 0 &&& 1).toNat
  pointBytes ⟨x, if same then y else (vliSub curve.p y).1⟩

section Field

variable {curve : Curve w} (is : IsSecp256r1 curve)

include is

theorem word_octet : 8 ≤ w := Nat.le_of_dvd is.sound.positive is.octets

theorem three_is : Is curve ((vliClear w curve.numWords).set 0 3) (3 : SecpField) := by
  have small : 3 < 2 ^ w := Nat.lt_of_lt_of_le (by decide) (Nat.pow_le_pow_right Nat.two_pos (word_octet is))
  have three : value ((vliClear w curve.numWords).set 0 3) = 3 := by
    obtain ⟨n, words⟩ : ∃ k, curve.numWords = k + 1 := ⟨curve.numWords - 1, by have some := is.sound.some; omega⟩
    rw [words, vliClear, List.replicate_succ, List.set_cons_zero, value_cons, value_replicate_zero, Nat.mul_zero, Nat.add_zero]
    exact (BitVec.toNat_ofNat 3 w).trans (Nat.mod_eq_of_lt small)
  refine ⟨by rw [vliClear, List.length_set, List.length_replicate], ?_, ?_⟩
  · rw [three]
    decide
  · rw [three, Nat.cast_ofNat]

theorem coefficient_is : Is curve curve.b secp256r1Coefficient := by
  have same := bytesToWords_value is.octets curve.numWords secp256r1B (by rw [(word_count is).1]; rfl)
  rw [is.b]
  refine ⟨bytesToWords_length _ _ _, ?_, ?_⟩
  · rw [same]
    decide
  · rw [same]
    rfl

theorem xSide_is {x : Vli w} {a : SecpField} (isX : Is curve x a) :
    Is curve (xSideDefault x curve) (a ^ 3 + -3 * a + secp256r1Coefficient) := by
  have square := (isX.modSquare is.sound).modSub is.sound (three_is is)
  have side := (square.modMult is.sound isX).modAdd is.sound (coefficient_is is)
  have cube : (a ^ 2 - 3) * a + secp256r1Coefficient = a ^ 3 + -3 * a + secp256r1Coefficient := by ring
  rw [← cube]
  exact side

theorem validPoint_iff {point : EccPoint w} (xSize : point.x.length = curve.numWords) (ySize : point.y.length = curve.numWords) :
    validPoint point curve = true ↔ ∃ P : secp256r1.Point, ∃ c : Coords SecpField, Stands curve point c ∧ IsAt 1 c P := by
  have compare : ∀ x : Vli w, x.length = curve.numWords → (vliCmpUnsafe curve.p x = 1 ↔ value x < secp256r1Modulus) := by
    intro x size
    rw [(vliCmpUnsafe_compares is.sound.size size).one, is.sound.modulus]
  simp only [validPoint, Ne, compare _ xSize, compare _ ySize]
  constructor
  · intro valid
    split at valid
    · cases valid
    · split at valid
      · cases valid
      · rename_i inside
        obtain ⟨xLess, yLess⟩ := not_or.mp inside
        have isX : Is curve point.x ((value point.x : Nat) : SecpField) := ⟨xSize, not_not.mp xLess, rfl⟩
        have isY : Is curve point.y ((value point.y : Nat) : SecpField) := ⟨ySize, not_not.mp yLess, rfl⟩
        have left := isY.modSquare is.sound
        have right := xSide_is is isX
        rw [vliEqual_iff _ _ (left.size.trans right.size.symm), left.value_eq, right.value_eq] at valid
        have equation := ZMod.val_injective _ valid
        refine ⟨.some _ _ (secp256r1_nonsingular equation), ⟨_, _⟩, ⟨isX, isY⟩, _, _, _, rfl, ?_, ?_⟩
        · rw [one_pow, mul_one]
        · rw [one_pow, mul_one]
  · rintro ⟨P, c, stands, atP⟩
    rw [if_neg ((stands_isZero_iff stands).not.mpr (coords_ne_zero atP)),
      if_neg (not_or.mpr ⟨not_not_intro stands.x.less, not_not_intro stands.y.less⟩)]
    obtain ⟨x, y, on, rfl, cx, cy⟩ := atP
    rw [one_pow, mul_one] at cx cy
    have equation := shortCurve_equation.mp on.1
    rw [← cx, ← cy] at equation
    have left := stands.y.modSquare is.sound
    have right := xSide_is is stands.x
    rw [vliEqual_iff _ _ (left.size.trans right.size.symm), left.value_eq, right.value_eq, equation]

theorem sqrtLoop_is {a : Vli w} {t : SecpField} (isA : Is curve a t) (p1 : Vli w) (i : Nat) {result : Vli w} {k : Nat}
    (isResult : Is curve result (t ^ k)) (leading : k = value p1 / 2 ^ (i + 2)) :
    Is curve (sqrtLoop a p1 curve i result) (t ^ (value p1 / 4)) := by
  induction i generalizing result k with
  | zero =>
    rw [leading] at isResult
    exact isResult
  | succ i ih =>
    have square := isResult.modSquare is.sound
    rw [← pow_mul, Nat.mul_comm] at square
    have next := bit_step (value p1) (i + 2)
    rw [← leading] at next
    rw [sqrtLoop]
    apply ih (k := 2 * k + ((value p1).testBit (i + 2)).toNat) ?_ next
    rw [vliTestBit_value is.sound.positive]
    cases (value p1).testBit (i + 2) with
    | true => exact square.modMult is.sound isA
    | false => exact square

theorem modSqrt_is {a : Vli w} {t : SecpField} (isA : Is curve a t) :
    Is curve (modSqrtDefault a curve) (t ^ ((secp256r1Modulus + 1) / 4)) := by
  have isOne := one_is is.sound (by decide)
  obtain ⟨carried, sum⟩ := vliAdd_value is.sound.positive curve.p ((vliClear w curve.numWords).set 0 1)
    (is.sound.size.trans isOne.size.symm)
  have sumSize := vliAdd_length is.sound.size isOne.size
  have room := value_lt (vliAdd curve.p ((vliClear w curve.numWords).set 0 1)).1
  rw [is.sound.size, room_eq is, is.sound.modulus, one_value is.sound.positive is.sound.some] at sum
  have whole : value (vliAdd curve.p ((vliClear w curve.numWords).set 0 1)).1 = secp256r1Modulus + 1 := by
    have modulus : secp256r1Modulus = 115792089210356248762697446949407573530086143415290314195533631308867097853951 := by decide
    rw [modulus] at sum ⊢
    omega
  have bits : vliNumBits (vliAdd curve.p ((vliClear w curve.numWords).set 0 1)).1 = 256 := by
    rw [vliNumBits_eq, whole]
    decide +kernel
  have start : Is curve ((vliClear w curve.numWords).set 0 1) (t ^ 0) := by
    rw [pow_zero]
    exact isOne
  have root := sqrtLoop_is is isA _ 254 start (by rw [whole]; decide)
  rw [whole] at root
  rw [modSqrtDefault]
  simp only [bits]
  exact root

end Field

section RoundTrip

theorem sqrt_square (y : SecpField) :
    (y ^ 2) ^ ((secp256r1Modulus + 1) / 4) = y ∨ (y ^ 2) ^ ((secp256r1Modulus + 1) / 4) = -y := by
  apply sq_eq_sq_iff_eq_or_eq_neg.mp
  have exponent : 2 * ((secp256r1Modulus + 1) / 4 * 2) = secp256r1Modulus + 1 := by decide
  rw [← pow_mul, ← pow_mul, exponent, pow_succ, ZMod.pow_card, pow_two]

variable {curve : Curve w} (is : IsSecp256r1 curve)

theorem low_bit (words : Vli w) (octet : 8 ≤ w) : (words.getD 0 0 &&& 1).toNat = value words % 2 := by
  have positive : 0 < w := by omega
  have unit : (1 : BitVec w).toNat = 1 := BitVec.toNat_one positive
  rw [BitVec.toNat_and, unit, Nat.and_one_is_mod]
  cases words with
  | nil => simp
  | cons word words =>
    have even : 2 ∣ 2 ^ w := dvd_pow_self 2 (Nat.ne_of_gt positive)
    change word.toNat % 2 = _
    rw [value_cons, Nat.add_mod, Nat.mod_eq_zero_of_dvd (Dvd.dvd.mul_right even _), Nat.add_zero, Nat.mod_mod]

theorem numberBytes_value {number : Nat} (fits : number < 2 ^ 256) : value (numberBytes number) = number := by
  rw [numberBytes, value_ofNat]
  exact Nat.mod_eq_of_lt fits

theorem SecpField.val_fits (a : SecpField) : a.val < 2 ^ 256 := Nat.lt_trans (ZMod.val_lt a) (by decide)

theorem compress_flag (odd : BitVec 8) : (2 + (odd &&& 1) &&& 1).toNat = (odd &&& 1).toNat := by
  revert odd
  decide

theorem neg_val_parity {y : SecpField} (nonzero : y ≠ 0) : (-y).val % 2 ≠ y.val % 2 := by
  have odd : secp256r1Modulus % 2 = 1 := by decide
  have less := ZMod.val_lt y
  have : NeZero y := ⟨nonzero⟩
  rw [ZMod.val_neg_of_ne_zero]
  omega

include is

theorem PublicBytes.pointBytes_eq {publicKey : List (BitVec 8)} {P : secp256r1.Point} {c : Coords SecpField}
    (key : PublicBytes publicKey P c) {x y : Vli w} (isX : Is curve x c.x) (isY : Is curve y c.y) :
    pointBytes ⟨x, y⟩ = publicKey := by
  obtain ⟨_, xBytes⟩ := words_bytes is isX.size
  obtain ⟨_, yBytes⟩ := words_bytes is isY.size
  rw [pointBytes, xBytes, yBytes, isX.value_eq, isY.value_eq, ← key.x, ← key.y, List.take_append_drop]

theorem compress_parts {publicKey : List (BitVec 8)} {P : secp256r1.Point} {c : Coords SecpField}
    (key : PublicBytes publicKey P c) :
    (compress publicKey curve).tail.take curve.numBytes = publicKey.take 32 ∧
      ((compress publicKey curve).getD 0 0 &&& 1).toNat = c.y.val % 2 := by
  have low := low_bit (publicKey.drop 32) (Nat.le_refl 8)
  have first : (publicKey.drop 32).getD 0 0 = publicKey.getD 32 0 := by simp
  rw [first, key.y, numberBytes_value (SecpField.val_fits c.y)] at low
  constructor
  · rw [compress, is.numBytes, List.tail_cons, List.take_take, Nat.min_self]
  · rw [compress, is.numBytes, List.getD_cons_zero, compress_flag, low]

theorem opposite_is {y : Vli w} {a : SecpField} (isY : Is curve y (-a)) (nonzero : a ≠ 0) :
    Is curve (vliSub curve.p y).1 a := by
  have less := isY.less
  obtain ⟨size, difference⟩ := vliSub_below is.sound.positive is.sound.size isY.size
    (by rw [is.sound.modulus]; exact Nat.le_of_lt less)
  rw [is.sound.modulus] at difference
  have some : value y ≠ 0 := by
    rw [isY.value_eq, Ne, ZMod.val_eq_zero, neg_eq_zero]
    exact nonzero
  refine ⟨size, by omega, ?_⟩
  rw [difference, Nat.cast_sub (Nat.le_of_lt less), isY.image, ZMod.natCast_self, zero_sub, neg_neg]

theorem decompress_compress {publicKey : List (BitVec 8)} {P : secp256r1.Point} {c : Coords SecpField}
    (key : PublicBytes publicKey P c) : decompress (compress publicKey curve) curve = publicKey := by
  obtain ⟨x, y, on, rfl, cx, cy⟩ := key.at_
  rw [one_pow, mul_one] at cx cy
  have equation := shortCurve_equation.mp on.1
  rw [← cx, ← cy] at equation
  have isX : Is curve (bytesToWords w curve.numWords (publicKey.take 32)) c.x := by
    rw [key.x]
    exact numberBytes_is is c.x
  have side := xSide_is is isX
  rw [← equation] at side
  have root := modSqrt_is is side
  obtain ⟨parts, flag⟩ := compress_parts is key
  simp only [decompress, parts, flag, low_bit _ (word_octet is), root.value_eq]
  obtain same | opposite := sqrt_square c.y
  · rw [same] at root ⊢
    rw [if_pos rfl]
    exact key.pointBytes_eq is isX root
  · rw [opposite] at root ⊢
    by_cases zero : c.y = 0
    · rw [zero, neg_zero, if_pos rfl]
      rw [zero, neg_zero, ← zero] at root
      exact key.pointBytes_eq is isX root
    · rw [if_neg (neg_val_parity zero)]
      exact key.pointBytes_eq is isX (opposite_is is root zero)

end RoundTrip

section PublicKeys

theorem encodePoint_length (P : secp256r1.Point) : (encodePoint P).length = 64 := by
  cases P with
  | zero => exact List.length_replicate
  | some x y on => rw [encodePoint, List.length_append, numberBytes, numberBytes, Limbs.ofNat_length, Limbs.ofNat_length]

variable {curve : Curve w} (is : IsSecp256r1 curve)

include is

theorem validPublicKey_iff {publicKey : List (BitVec 8)} (size : publicKey.length = 64) :
    validPublicKey publicKey curve = true ↔ ∃ P : secp256r1.Point, ∃ c, PublicBytes publicKey P c := by
  have xSize : (readPoint publicKey curve).x.length = curve.numWords := bytesToWords_length _ _ _
  have ySize : (readPoint publicKey curve).y.length = curve.numWords := bytesToWords_length _ _ _
  rw [validPublicKey, validPoint_iff is xSize ySize]
  constructor
  · rintro ⟨P, c, stands, atP⟩
    have room := (word_count is).1
    have half : (publicKey.take 32).length = 32 := by rw [List.length_take, size, Nat.min_eq_left (by decide)]
    have half' : (publicKey.drop 32).length = 32 := by rw [List.length_drop, size]
    have x := stands.x.value_eq
    have y := stands.y.value_eq
    rw [readPoint, is.numBytes] at x y
    rw [bytesToWords_value is.octets _ _ (by rw [room, half])] at x
    rw [bytesToWords_value is.octets _ _ (by rw [room, half'])] at y
    refine ⟨P, c, atP, ?_, ?_⟩
    · rw [← x]
      exact bytes_eq_numberBytes half
    · rw [← y]
      exact bytes_eq_numberBytes half'
  · rintro ⟨P, c, key⟩
    exact ⟨P, c, key.readPoint is, key.at_⟩

/-- The keys that are valid are the encodings of the points that are not at infinity. -/
theorem validPublicKey_exact {publicKey : List (BitVec 8)} (size : publicKey.length = 64) :
    validPublicKey publicKey curve = true ↔ ∃ P : secp256r1.Point, P ≠ 0 ∧ publicKey = encodePoint P := by
  rw [validPublicKey_iff is size]
  constructor
  · rintro ⟨P, c, key⟩
    exact ⟨P, key.at_.ne_zero, key.eq_encodePoint⟩
  · rintro ⟨P, some, rfl⟩
    exact ⟨P, encodePoint_publicBytes some⟩

omit is in
theorem validPublicKey_exact_generator :
    ∃ P : secp256r1.Point, P ≠ 0 ∧ secp256r1GX ++ secp256r1GY = encodePoint P := by
  have valid : validPublicKey (secp256r1GX ++ secp256r1GY) curveSecp256r1Word8 = true := by decide +kernel
  exact (validPublicKey_exact curveSecp256r1Word8_is rfl).mp valid

/-- What `uECC_make_key` gives out, whatever the generator does, and what a party with words of another size
    makes of it. -/
theorem makeKey_valid {w' : Nat} {curve' : Curve w'} (is' : IsSecp256r1 curve') (rng : Option (Rng σ)) (state : σ)
    {publicKey privateKey : List (BitVec 8)} (made : (makeKey rng curve state).1 = some (publicKey, privateKey)) :
    privateKey.length = 32 ∧ 2 ≤ value privateKey ∧ value privateKey + 3 ≤ secp256r1Order ∧
      publicKey = encodePoint (value privateKey • basePoint) ∧ validPublicKey publicKey curve' = true := by
  obtain ⟨k, key, rfl, computed⟩ := makeKey_spec is made
  have fits : k < 2 ^ 256 := Nat.lt_trans key.less (by decide)
  obtain ⟨c, point⟩ := (computePublicKey_spec is fits).2 publicKey computed
  obtain ⟨low, high⟩ := (privateKey_iff k).mp key
  have size : publicKey.length = 64 := by rw [point.eq_encodePoint, encodePoint_length]
  rw [numberBytes_value fits]
  exact ⟨Limbs.ofNat_length _ _, low, high, point.eq_encodePoint, (validPublicKey_iff is' size).mpr ⟨_, c, point⟩⟩

omit is in
theorem makeKey_valid_steady : ∃ publicKey privateKey : List (BitVec 8),
    (makeKey (some steadyRng) curveSecp256r1Word4 ()).1 = some (publicKey, privateKey) ∧
      validPublicKey publicKey curveSecp256r1Word8 = true := by
  have drawn : generateRandomInt (some steadyRng) curveSecp256r1Word4.n 8 () = (some [2, 0, 0, 0, 0, 0, 0, 0], ()) := by
    decide +kernel
  obtain ⟨publicKey, c, made, _⟩ := steadyRng_makes curveSecp256r1Word4_is drawn (by decide)
  obtain ⟨_, _, _, _, valid⟩ := makeKey_valid curveSecp256r1Word4_is curveSecp256r1Word8_is _ () made
  exact ⟨publicKey, _, made, valid⟩

/-- Every valid key comes back from its compressed form. -/
theorem validPublicKey_decompress {w' : Nat} {curve' : Curve w'} (is' : IsSecp256r1 curve') {publicKey : List (BitVec 8)}
    (size : publicKey.length = 64) (valid : validPublicKey publicKey curve' = true) :
    decompress (compress publicKey curve') curve = publicKey := by
  obtain ⟨P, c, key⟩ := (validPublicKey_iff is' size).mp valid
  have same : compress publicKey curve' = compress publicKey curve := by rw [compress, compress, is.numBytes, is'.numBytes]
  rw [same]
  exact decompress_compress is key

omit is in
theorem validPublicKey_decompress_generator :
    decompress (compress (secp256r1GX ++ secp256r1GY) curveSecp256r1Word8) curveSecp256r1Word4 =
      secp256r1GX ++ secp256r1GY := by
  have valid : validPublicKey (secp256r1GX ++ secp256r1GY) curveSecp256r1Word8 = true := by decide +kernel
  exact validPublicKey_decompress curveSecp256r1Word4_is curveSecp256r1Word8_is rfl valid

end PublicKeys

end MicroEcc
