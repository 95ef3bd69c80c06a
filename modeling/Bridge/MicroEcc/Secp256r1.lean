import Bridge.Library.Lucas
import Bridge.MicroEcc.FastReduction
import Bridge.MicroEcc.ScalarMult
import Mathlib.Tactic.NormNum.Prime

namespace MicroEcc

open Limbs CoZ

section Constants

def bytesToWords (w : Nat) : Nat → List (BitVec 8) → Vli w
  | 0, _ => []
  | numWords + 1, bytes =>
    BitVec.ofNat w (value (bytes.take (w / 8))) :: bytesToWords w numWords (bytes.drop (w / 8))

theorem bytesToWords_length (w numWords : Nat) (bytes : List (BitVec 8)) :
    (bytesToWords w numWords bytes).length = numWords := by
  induction numWords generalizing bytes with
  | zero => rfl
  | succ numWords ih => rw [bytesToWords, List.length_cons, ih]

theorem bytesToWords_value {w : Nat} (octets : 8 ∣ w) (numWords : Nat) (bytes : List (BitVec 8))
    (size : bytes.length = numWords * (w / 8)) : value (bytesToWords w numWords bytes) = value bytes := by
  induction numWords generalizing bytes with
  | zero =>
    rw [Nat.zero_mul] at size
    rw [List.length_eq_zero_iff.mp size]
    rfl
  | succ numWords ih =>
    have whole : 8 * (w / 8) = w := Nat.mul_div_cancel' octets
    rw [Nat.succ_mul] at size
    have taken : (bytes.take (w / 8)).length = w / 8 := by
      rw [List.length_take]
      omega
    have room := value_lt (bytes.take (w / 8))
    have power : (2 ^ 8) ^ (w / 8) = 2 ^ w := by rw [← Nat.pow_mul, whole]
    rw [taken, power] at room
    rw [bytesToWords, value_cons, ih _ (by rw [List.length_drop]; omega), BitVec.toNat_ofNat, Nat.mod_eq_of_lt room]
    conv_rhs => rw [← List.take_append_drop (w / 8) bytes, value_append, taken, power]

def secp256r1P : List (BitVec 8) :=
  [0xFF, 0xFF, 0xFF, 0xFF, 0xFF, 0xFF, 0xFF, 0xFF, 0xFF, 0xFF, 0xFF, 0xFF, 0x00, 0x00, 0x00, 0x00,
    0x00, 0x00, 0x00, 0x00, 0x00, 0x00, 0x00, 0x00, 0x01, 0x00, 0x00, 0x00, 0xFF, 0xFF, 0xFF, 0xFF]

def secp256r1N : List (BitVec 8) :=
  [0x51, 0x25, 0x63, 0xFC, 0xC2, 0xCA, 0xB9, 0xF3, 0x84, 0x9E, 0x17, 0xA7, 0xAD, 0xFA, 0xE6, 0xBC,
    0xFF, 0xFF, 0xFF, 0xFF, 0xFF, 0xFF, 0xFF, 0xFF, 0x00, 0x00, 0x00, 0x00, 0xFF, 0xFF, 0xFF, 0xFF]

def secp256r1GX : List (BitVec 8) :=
  [0x96, 0xC2, 0x98, 0xD8, 0x45, 0x39, 0xA1, 0xF4, 0xA0, 0x33, 0xEB, 0x2D, 0x81, 0x7D, 0x03, 0x77,
    0xF2, 0x40, 0xA4, 0x63, 0xE5, 0xE6, 0xBC, 0xF8, 0x47, 0x42, 0x2C, 0xE1, 0xF2, 0xD1, 0x17, 0x6B]

def secp256r1GY : List (BitVec 8) :=
  [0xF5, 0x51, 0xBF, 0x37, 0x68, 0x40, 0xB6, 0xCB, 0xCE, 0x5E, 0x31, 0x6B, 0x57, 0x33, 0xCE, 0x2B,
    0x16, 0x9E, 0x0F, 0x7C, 0x4A, 0xEB, 0xE7, 0x8E, 0x9B, 0x7F, 0x1A, 0xFE, 0xE2, 0x42, 0xE3, 0x4F]

def secp256r1B : List (BitVec 8) :=
  [0x4B, 0x60, 0xD2, 0x27, 0x3E, 0x3C, 0xCE, 0x3B, 0xF6, 0xB0, 0x53, 0xCC, 0xB0, 0x06, 0x1D, 0x65,
    0xBC, 0x86, 0x98, 0x76, 0x55, 0xBD, 0xEB, 0xB3, 0xE7, 0x93, 0x3A, 0xAA, 0xD8, 0x35, 0xC6, 0x5A]

def curveSecp256r1 (w numWords : Nat) (mmodFast : Vli w → Vli w → Vli w) : Curve w where
  numWords := numWords
  numBytes := 32
  numNBits := 256
  p := bytesToWords w numWords secp256r1P
  n := bytesToWords w numWords secp256r1N
  g := bytesToWords w numWords secp256r1GX ++ bytesToWords w numWords secp256r1GY
  b := bytesToWords w numWords secp256r1B
  mmodFast := mmodFast (bytesToWords w numWords secp256r1P)

/-- `curve_secp256r1` where `uECC_WORD_SIZE` is 4. -/
def curveSecp256r1Word4 : Curve 32 := curveSecp256r1 32 8 vliMmodFastSecp256r1Word4

/-- `curve_secp256r1` where `uECC_WORD_SIZE` is 8. -/
def curveSecp256r1Word8 : Curve 64 := curveSecp256r1 64 4 vliMmodFastSecp256r1Word8

def secp256r1Order : Nat := value secp256r1N

end Constants

section Primes

open List (forall_mem_cons)

theorem secp256r1Order_prime : secp256r1Order.Prime := by
  have h191039911 : Nat.Prime 191039911 :=
    Lucas.prime_of_check 32 3 [2, 3, 5, 41, 155317] (by norm_num) (by decide +kernel)
  have h208150935158385979 : Nat.Prime 208150935158385979 :=
    Lucas.prime_of_check 64 2 [191039911, 2, 3, 11, 43, 127, 3023] (forall_mem_cons.mpr ⟨h191039911, by norm_num⟩)
      (by decide +kernel)
  have large : Nat.Prime 2624747550333869278416773953 :=
    Lucas.prime_of_check 96 7 [208150935158385979, 2, 2, 2, 2, 2, 2, 3, 3, 1297, 16879]
      (forall_mem_cons.mpr ⟨h208150935158385979, by norm_num⟩) (by decide +kernel)
  have h1002328039319 : Nat.Prime 1002328039319 :=
    Lucas.prime_of_check 64 19 [2, 126241, 3969899] (by norm_num) (by decide +kernel)
  have h311245691 : Nat.Prime 311245691 :=
    Lucas.prime_of_check 32 2 [2, 5, 7, 17, 29, 29, 311] (by norm_num) (by decide +kernel)
  have h622491383 : Nat.Prime 622491383 :=
    Lucas.prime_of_check 32 5 [311245691, 2] (forall_mem_cons.mpr ⟨h311245691, by norm_num⟩) (by decide +kernel)
  have h187019741 : Nat.Prime 187019741 :=
    Lucas.prime_of_check 32 2 [2, 2, 5, 9350987] (by norm_num) (by decide +kernel)
  have factors : ∀ q ∈ [2624747550333869278416773953, 1002328039319, 622491383, 187019741, 2, 2, 2, 2, 3, 71, 131, 373, 3407,
      17449, 38189], q.Prime :=
    forall_mem_cons.mpr ⟨large, forall_mem_cons.mpr ⟨h1002328039319, forall_mem_cons.mpr ⟨h622491383,
      forall_mem_cons.mpr ⟨h187019741, by norm_num⟩⟩⟩⟩
  exact Lucas.prime_of_check 256 7 _ factors (by decide +kernel)

theorem secp256r1Modulus_prime : secp256r1Modulus.Prime := by
  have h204061199 : Nat.Prime 204061199 :=
    Lucas.prime_of_check 32 11 [2, 11, 23, 107, 3769] (by norm_num) (by decide +kernel)
  have h34282281433 : Nat.Prime 34282281433 :=
    Lucas.prime_of_check 64 17 [204061199, 2, 2, 2, 3, 7] (forall_mem_cons.mpr ⟨h204061199, by norm_num⟩) (by decide +kernel)
  have h66417393611 : Nat.Prime 66417393611 :=
    Lucas.prime_of_check 64 6 [2, 5, 53, 173, 197, 3677] (by norm_num) (by decide +kernel)
  have h11290956913871 : Nat.Prime 11290956913871 :=
    Lucas.prime_of_check 64 13 [66417393611, 2, 5, 17] (forall_mem_cons.mpr ⟨h66417393611, by norm_num⟩) (by decide +kernel)
  have h46076956964474543 : Nat.Prime 46076956964474543 :=
    Lucas.prime_of_check 64 5 [2, 23, 18169, 78283, 704251] (by norm_num) (by decide +kernel)
  have factors : ∀ q ∈ [46076956964474543, 11290956913871, 34282281433, 2, 3, 3, 2411], q.Prime :=
    forall_mem_cons.mpr ⟨h46076956964474543, forall_mem_cons.mpr ⟨h11290956913871,
      forall_mem_cons.mpr ⟨h34282281433, by norm_num⟩⟩⟩
  have larger : Nat.Prime 774023187263532362759620327192479577272145303 :=
    Lucas.prime_of_check 160 3 _ factors (by decide +kernel)
  have largest : Nat.Prime 835945042244614951780389953367877943453916927241 :=
    Lucas.prime_of_check 160 11 [774023187263532362759620327192479577272145303, 2, 2, 2, 3, 3, 3, 5]
      (forall_mem_cons.mpr ⟨larger, by norm_num⟩) (by decide +kernel)
  exact Lucas.prime_of_check 256 6 [835945042244614951780389953367877943453916927241, 2, 3, 5, 5, 17, 257, 641, 1531, 65537,
    490463, 6700417] (forall_mem_cons.mpr ⟨largest, by norm_num⟩) (by decide +kernel)

instance : Fact secp256r1Modulus.Prime := ⟨secp256r1Modulus_prime⟩

end Primes

section Group

abbrev SecpField : Type := ZMod secp256r1Modulus

def secp256r1Coefficient : SecpField := ((value secp256r1B : Nat) : SecpField)

def secp256r1 : WeierstrassCurve.Affine SecpField := minusThreeCurve secp256r1Coefficient

theorem secpField_two : (2 : SecpField) ≠ 0 := by
  intro zero
  have divides : secp256r1Modulus ∣ 2 := (ZMod.natCast_eq_zero_iff 2 _).mp (by exact_mod_cast zero)
  exact absurd (Nat.le_of_dvd Nat.two_pos divides) (by decide)

theorem secp256r1_nonsingular {x y : SecpField} (on : y ^ 2 = x ^ 3 + -3 * x + secp256r1Coefficient) :
    secp256r1.Nonsingular x y := by
  have discriminant : secp256r1.Δ ≠ 0 := by
    have differ : ((1728 : Nat) : SecpField) ≠ ((432 * value secp256r1B ^ 2 : Nat) : SecpField) := by
      rw [Ne, ZMod.natCast_eq_natCast_iff']
      decide
    have formula : secp256r1.Δ = 1728 - 432 * secp256r1Coefficient ^ 2 := by
      simp only [WeierstrassCurve.Δ, WeierstrassCurve.b₂, WeierstrassCurve.b₄, WeierstrassCurve.b₆, WeierstrassCurve.b₈,
        secp256r1, shortCurve]
      ring
    rw [formula]
    intro zero
    apply differ
    push_cast
    exact sub_eq_zero.mp zero
  exact (WeierstrassCurve.Affine.equation_iff_nonsingular_of_Δ_ne_zero discriminant).mp (shortCurve_equation.mpr on)

def baseCoords : Coords SecpField := ⟨((value secp256r1GX : Nat) : SecpField), ((value secp256r1GY : Nat) : SecpField)⟩

theorem baseCoords_on : baseCoords.y ^ 2 = baseCoords.x ^ 3 + -3 * baseCoords.x + secp256r1Coefficient := by
  have numbers : ((value secp256r1GY ^ 2 + 3 * value secp256r1GX : Nat) : SecpField) =
      ((value secp256r1GX ^ 3 + value secp256r1B : Nat) : SecpField) := by
    rw [ZMod.natCast_eq_natCast_iff']
    decide
  push_cast at numbers
  rw [baseCoords, secp256r1Coefficient]
  linear_combination numbers

def basePoint : secp256r1.Point := .some baseCoords.x baseCoords.y (secp256r1_nonsingular baseCoords_on)

theorem baseCoords_at : IsAt 1 baseCoords basePoint :=
  ⟨_, _, secp256r1_nonsingular baseCoords_on, rfl, by rw [one_pow, mul_one], by rw [one_pow, mul_one]⟩

end Group

section Order

/-- The curve over words of 256 bits: one word holds a coordinate. -/
def wideCurve : Curve 256 :=
  curveSecp256r1 256 1 fun _ product => [BitVec.ofNat 256 (value product % secp256r1Modulus)]

theorem wideCurve_sound : wideCurve.Sound secp256r1Modulus where
  positive := by decide
  some := by decide
  few := by decide
  size := rfl
  modulus := by decide
  odd := by decide
  mmodFast := by
    intro product _
    have small : value product % secp256r1Modulus < 2 ^ 256 :=
      Nat.lt_trans (Nat.mod_lt _ (by decide)) (by decide)
    refine ⟨rfl, ?_⟩
    change value [BitVec.ofNat 256 (value product % secp256r1Modulus)] = _
    rw [value_cons, value_nil, Nat.mul_zero, Nat.add_zero, BitVec.toNat_ofNat, Nat.mod_eq_of_lt small]

def wideBase : EccPoint 256 := ⟨bytesToWords 256 1 secp256r1GX, bytesToWords 256 1 secp256r1GY⟩

theorem wideBase_stands : Stands wideCurve wideBase baseCoords where
  x := ⟨rfl, by decide, by rw [wideBase, bytesToWords_value (by decide) _ _ (by decide)]; rfl⟩
  y := ⟨rfl, by decide, by rw [wideBase, bytesToWords_value (by decide) _ _ (by decide)]; rfl⟩

def wideStart : Rungs 256 :=
  ⟨(xyczInitialDouble wideBase none wideCurve).2, (xyczInitialDouble wideBase none wideCurve).1⟩

theorem wideRun : ∃ final, distinctLoop [BitVec.ofNat 256 (secp256r1Order - 1)] wideCurve 254 wideStart = some final ∧
    final.r0.x = final.r1.x := by
  have collides : ((distinctLoop [BitVec.ofNat 256 (secp256r1Order - 1)] wideCurve 254 wideStart).any
      fun final => final.r0.x = final.r1.x) = true := by decide +kernel
  cases ran : distinctLoop [BitVec.ofNat 256 (secp256r1Order - 1)] wideCurve 254 wideStart with
  | none =>
    rw [ran] at collides
    cases collides
  | some final =>
    rw [ran] at collides
    exact ⟨final, rfl, of_decide_eq_true collides⟩

theorem secp256r1_short : Short secp256r1 := shortCurve_short _ _ secpField_two

theorem baseCoords_x : baseCoords.x ≠ 0 := by
  intro zero
  exact absurd ((ZMod.natCast_eq_zero_iff _ _).mp zero) (by decide)

theorem baseCoords_y : baseCoords.y ≠ 0 := by
  intro zero
  exact absurd ((ZMod.natCast_eq_zero_iff _ _).mp zero) (by decide)

theorem basePoint_order : addOrderOf basePoint = secp256r1Order := by
  have : Fact secp256r1Order.Prime := ⟨secp256r1Order_prime⟩
  apply addOrderOf_eq_prime
  · obtain ⟨final, ran, same⟩ := wideRun
    have isOne := one_is wideCurve_sound (p := secp256r1Modulus) (by decide)
    have scalar : value [BitVec.ofNat 256 (secp256r1Order - 1)] = secp256r1Order - 1 := by decide
    have started := initialDouble_stands wideCurve_sound wideBase_stands none isOne one_ne_zero
    have collided := distinctLoop_collision wideCurve_sound baseCoords_at (two_nsmul_ne_zero secp256r1_short baseCoords_y)
      one_ne_zero started (by rw [scalar]; decide) ran same
    rw [scalar] at collided
    exact collided
  · exact baseCoords_at.ne_zero

end Order

end MicroEcc
