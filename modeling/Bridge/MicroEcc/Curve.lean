import Bridge.MicroEcc.Inverse
import Mathlib.Algebra.Field.ZMod

namespace MicroEcc

open Limbs

variable {w : Nat}

section Inverse

/-- The inverse modulo any odd number, for inputs of any size: the loop has come to its end. -/
theorem vliModInv_exact (positive : 0 < w) {n : Nat} (some : 0 < n) {input mod : Vli w} (inputSize : input.length = n)
    (modSize : mod.length = n) (odd : value mod % 2 = 1) (large : 1 < value mod)
    (unit : IsUnit ((value input : Nat) : ZMod (value mod))) :
    vliCmpUnsafe (modInvRun mod n (2 * n * w) (modInvStart input mod n)).a
        (modInvRun mod n (2 * n * w) (modInvStart input mod n)).b = 0 ∧
      value (vliModInv input mod n) < value mod ∧
      ((value (vliModInv input mod n) : Nat) : ZMod (value mod)) = ((value input : Nat) : ZMod (value mod))⁻¹ := by
  obtain ⟨ends, _, less, product⟩ := vliModInv_value positive some modSize inputSize odd large
    ((ZMod.isUnit_iff_coprime _ _).mp unit)
  refine ⟨ends, less, ?_⟩
  have one := (ZMod.natCast_eq_natCast_iff _ _ _).mpr product
  rw [Nat.cast_mul, Nat.cast_one] at one
  exact (ZMod.inv_eq_of_mul_eq_one _ _ _ one).symm

theorem vliModInv_exact_sample :
    vliCmpUnsafe (modInvRun [0xf1#8, 0xff] 2 32 (modInvStart [0x34, 0x12] [0xf1, 0xff] 2)).a
        (modInvRun [0xf1#8, 0xff] 2 32 (modInvStart [0x34, 0x12] [0xf1, 0xff] 2)).b = 0 ∧
      value (vliModInv [0x34#8, 0x12] [0xf1, 0xff] 2) < value [0xf1#8, 0xff] ∧
      ((value (vliModInv [0x34#8, 0x12] [0xf1, 0xff] 2) : Nat) : ZMod (value [0xf1#8, 0xff])) =
        ((value [0x34#8, 0x12] : Nat) : ZMod (value [0xf1#8, 0xff]))⁻¹ := by
  have unit : IsUnit ((value [0x34#8, 0x12] : Nat) : ZMod (value [0xf1#8, 0xff])) :=
    (ZMod.isUnit_iff_coprime _ _).mpr (by decide +kernel)
  exact vliModInv_exact (w := 8) (n := 2) (by decide) (by decide) rfl rfl (by decide) (by decide) unit

end Inverse

/-- `struct uECC_Curve_t`, less the pointers to the functions that the curves over `x³ - 3x + b` share. -/
structure Curve (w : Nat) where
  numWords : Nat
  numBytes : Nat
  numNBits : Nat
  p : Vli w
  n : Vli w
  g : Vli w
  b : Vli w
  mmodFast : Vli w → Vli w

def vliModMultFast (left right : Vli w) (curve : Curve w) : Vli w :=
  curve.mmodFast (vliMult left right curve.numWords)

def vliModSquareFast (left : Vli w) (curve : Curve w) : Vli w := vliModMultFast left left curve

def halve (x : Vli w) (curve : Curve w) : Vli w :=
  if vliTestBit x 0 then
    let sum := vliAdd x curve.p
    let half := vliRshift1 sum.1
    half.set (curve.numWords - 1) (half.getD (curve.numWords - 1) 0 ||| sum.2 <<< (w - 1))
  else vliRshift1 x

def xSideDefault (x : Vli w) (curve : Curve w) : Vli w :=
  let three := (vliClear w curve.numWords).set 0 3
  let result := vliModSquareFast x curve
  let result := vliModSub result three curve.p
  let result := vliModMultFast result x curve
  vliModAdd result curve.b curve.p

structure Curve.Sound (curve : Curve w) (p : Nat) : Prop where
  positive : 0 < w
  some : 0 < curve.numWords
  few : curve.numWords ≤ 2 ^ w
  size : curve.p.length = curve.numWords
  modulus : value curve.p = p
  odd : p % 2 = 1
  mmodFast : ∀ product : Vli w, product.length = 2 * curve.numWords →
    (curve.mmodFast product).length = curve.numWords ∧ value (curve.mmodFast product) = value product % p

structure Is (curve : Curve w) {p : Nat} (x : Vli w) (a : ZMod p) : Prop where
  size : x.length = curve.numWords
  less : value x < p
  image : ((value x : Nat) : ZMod p) = a

section Field

variable {curve : Curve w} {p : Nat} (sound : curve.Sound p) {x y : Vli w} {a b : ZMod p}

theorem Is.value_eq (is : Is curve x a) : value x = a.val := by
  rw [← is.image, ZMod.val_natCast, Nat.mod_eq_of_lt is.less]

theorem Is.of_value (size : x.length = curve.numWords) {number : Nat} (nonzero : p ≠ 0) (reduced : value x = number % p)
    (image : (number : ZMod p) = a) : Is curve x a where
  size := size
  less := by
    rw [reduced]
    exact Nat.mod_lt _ (Nat.pos_of_ne_zero nonzero)
  image := by rw [reduced, ZMod.natCast_mod, image]

theorem Is.unique (is : Is curve x a) (is' : Is curve y a) : x = y :=
  value_injective (is.size.trans is'.size.symm) (is.value_eq.trans is'.value_eq.symm)

theorem Is.unique' (is : Is curve x a) (is' : Is curve x b) : a = b := is.image.symm.trans is'.image

theorem Is.vliIsZero_iff (is : Is curve x a) : vliIsZero x = true ↔ a = 0 := by
  rw [MicroEcc.vliIsZero_iff, is.value_eq, ZMod.val_eq_zero]

include sound

theorem Curve.Sound.nonzero : p ≠ 0 := by
  have odd := sound.odd
  omega

theorem Is.modAdd (isX : Is curve x a) (isY : Is curve y b) : Is curve (vliModAdd x y curve.p) (a + b) := by
  obtain ⟨size, sum⟩ := vliModAdd_value sound.positive isX.size isY.size sound.size
    (sound.modulus ▸ isX.less) (sound.modulus ▸ isY.less)
  rw [sound.modulus] at sum
  refine Is.of_value size sound.nonzero sum ?_
  rw [Nat.cast_add, isX.image, isY.image]

theorem Is.modSub (isX : Is curve x a) (isY : Is curve y b) : Is curve (vliModSub x y curve.p) (a - b) := by
  obtain ⟨size, difference⟩ := vliModSub_value sound.positive isX.size isY.size sound.size
    (sound.modulus ▸ isX.less) (sound.modulus ▸ isY.less)
  rw [sound.modulus] at difference
  refine Is.of_value size sound.nonzero difference ?_
  rw [Nat.cast_add, Nat.cast_sub (Nat.le_of_lt isY.less), isX.image, isY.image, ZMod.natCast_self, zero_sub, sub_eq_add_neg]

theorem Is.modMult (isX : Is curve x a) (isY : Is curve y b) : Is curve (vliModMultFast x y curve) (a * b) := by
  obtain ⟨productSize, product⟩ := vliMult_value x y sound.positive sound.some sound.few isX.size isY.size
  obtain ⟨size, reduced⟩ := sound.mmodFast _ productSize
  rw [product] at reduced
  refine Is.of_value size sound.nonzero reduced ?_
  rw [Nat.cast_mul, isX.image, isY.image]

theorem Is.modSquare (isX : Is curve x a) : Is curve (vliModSquareFast x curve) (a ^ 2) := by
  rw [pow_two]
  exact isX.modMult sound isX

theorem one_is (large : 1 < p) : Is curve ((vliClear w curve.numWords).set 0 1) (1 : ZMod p) where
  size := by rw [vliClear, List.length_set, List.length_replicate]
  less := by rwa [one_value sound.positive sound.some]
  image := by rw [one_value sound.positive sound.some, Nat.cast_one]

variable [Fact p.Prime]

theorem two_ne_zero' : (2 : ZMod p) ≠ 0 := by
  intro zero
  have divides : p ∣ 2 := (ZMod.natCast_eq_zero_iff 2 p).mp (by exact_mod_cast zero)
  have odd := sound.odd
  have least := (Fact.out : p.Prime).two_le
  have two : p = 2 := Nat.le_antisymm (Nat.le_of_dvd Nat.two_pos divides) least
  omega

theorem Is.halve (isX : Is curve x a) : Is curve (halve x curve) (a / 2) := by
  obtain ⟨k, words⟩ : ∃ k, curve.numWords = k + 1 := ⟨curve.numWords - 1, by have some := sound.some; omega⟩
  have bit := vliTestBit_value sound.positive x 0
  rw [Nat.testBit_zero] at bit
  have two := two_ne_zero' sound
  have odd := sound.odd
  have less := isX.less
  -- twice the half is the number again
  have double : ∀ half : Vli w, half.length = curve.numWords → ∀ number, 2 * value half = number → number < 2 * p →
      (number : ZMod p) = a → Is curve half (a / 2) := by
    intro half size number twice small image
    refine ⟨size, by omega, ?_⟩
    rw [eq_div_iff two, ← image, ← twice, Nat.cast_mul, Nat.cast_ofNat, mul_comm]
  rw [MicroEcc.halve, bit]
  by_cases parity : value x % 2 = 1
  · obtain ⟨carried, sum⟩ := vliAdd_value sound.positive x curve.p (isX.size.trans sound.size.symm)
    have sumSize := vliAdd_length isX.size sound.size
    obtain ⟨size, half⟩ := topBit_value sound.positive (vliAdd x curve.p).1 (vliAdd x curve.p).2 (sumSize.trans words)
    rw [isX.size, sound.modulus] at sum
    rw [Nat.mod_eq_of_lt (Nat.lt_succ_of_le carried), ← words, sum] at half
    rw [if_pos (decide_eq_true parity), words, Nat.add_sub_cancel]
    dsimp only
    refine double _ (size.trans words.symm) (value x + p) (by omega) (by omega) ?_
    rw [Nat.cast_add, isX.image, ZMod.natCast_self, add_zero]
  · have half := vliRshift1_value sound.positive x
    rw [if_neg (by simpa using parity)]
    exact double _ ((vliRshift1_length x).trans isX.size) (value x) (by omega) (by omega) isX.image

theorem Is.modInv (isX : Is curve x a) : Is curve (vliModInv x curve.p curve.numWords) a⁻¹ := by
  by_cases zero : a = 0
  · have none : vliIsZero x = true := isX.vliIsZero_iff.mpr zero
    rw [vliModInv, if_pos none, zero, inv_zero]
    refine ⟨List.length_replicate, ?_, ?_⟩
    · rw [vliClear, value_replicate_zero]
      exact Nat.pos_of_ne_zero sound.nonzero
    · rw [vliClear, value_replicate_zero, Nat.cast_zero]
  · have coprime : Nat.Coprime (value x) p := by
      rw [Nat.coprime_comm, (Fact.out : p.Prime).coprime_iff_not_dvd, ← ZMod.natCast_eq_zero_iff, isX.image]
      exact zero
    have inverse := vliModInv_value sound.positive sound.some sound.size isX.size (sound.modulus ▸ sound.odd)
      (sound.modulus ▸ (Fact.out : p.Prime).one_lt) (sound.modulus ▸ coprime)
    rw [sound.modulus] at inverse
    obtain ⟨_, size, less, product⟩ := inverse
    refine ⟨size, less, ?_⟩
    have unit := (ZMod.natCast_eq_natCast_iff _ _ p).mpr product
    rw [Nat.cast_mul, isX.image, Nat.cast_one] at unit
    exact eq_inv_of_mul_eq_one_right unit

end Field

end MicroEcc
