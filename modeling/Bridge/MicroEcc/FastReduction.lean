import Bridge.MicroEcc.Modular
import Mathlib.Algebra.Order.Ring.Int

namespace MicroEcc

open Limbs

structure Reduction (w : Nat) where
  result : Vli w
  carry : Int
deriving DecidableEq

variable {w : Nat}

def Reduction.add (r : Reduction w) (tmp : Vli w) : Reduction w :=
  ⟨(vliAdd r.result tmp).1, r.carry + (vliAdd r.result tmp).2.toNat⟩

def Reduction.sub (r : Reduction w) (tmp : Vli w) : Reduction w :=
  ⟨(vliSub r.result tmp).1, r.carry - (vliSub r.result tmp).2.toNat⟩

def Reduction.addDouble (r : Reduction w) (tmp : Vli w) : Reduction w :=
  ({ r with carry := r.carry + (vliAdd tmp tmp).2.toNat }).add (vliAdd tmp tmp).1

def addBack (p : Vli w) : Nat → Reduction w → Reduction w
  | 0, r => r
  | rounds + 1, r =>
    let next := r.add p
    if next.carry < 0 then addBack p rounds next else next

def takeAway (p : Vli w) : Nat → Reduction w → Reduction w
  | 0, r => r
  | rounds + 1, r => if r.carry ≠ 0 ∨ vliCmpUnsafe p r.result ≠ 1 then takeAway p rounds (r.sub p) else r

/-- The loops at the end. At most 16 rounds are needed: `settle_value`. -/
def settle (p : Vli w) (r : Reduction w) : Vli w :=
  if r.carry < 0 then (addBack p 16 r).result else (takeAway p 16 r).result

/-- The terms of the reduction, by the words of 32 bits. -/
structure Terms (w : Nat) where
  s1 : Vli w
  s2 : Vli w
  s3 : Vli w
  s4 : Vli w
  d1 : Vli w
  d2 : Vli w
  d3 : Vli w
  d4 : Vli w

def Reduction.sum (t : Vli w) (terms : Terms w) : Reduction w :=
  (((((((((⟨t, 0⟩ : Reduction w).addDouble terms.s1).addDouble terms.s2).add terms.s3).add terms.s4).sub terms.d1).sub
    terms.d2).sub terms.d3).sub terms.d4)

def terms32 (product : Vli 32) : Terms 32 :=
  let c := fun i => product.getD i 0
  { s1 := [0, 0, 0, c 11, c 12, c 13, c 14, c 15]
    s2 := [0, 0, 0, c 12, c 13, c 14, c 15, 0]
    s3 := [c 8, c 9, c 10, 0, 0, 0, c 14, c 15]
    s4 := [c 9, c 10, c 11, c 13, c 14, c 15, c 13, c 8]
    d1 := [c 11, c 12, c 13, 0, 0, 0, c 8, c 10]
    d2 := [c 12, c 13, c 14, c 15, 0, 0, c 9, c 11]
    d3 := [c 13, c 14, c 15, c 8, c 9, c 10, 0, c 12]
    d4 := [c 14, c 15, 0, c 9, c 10, c 11, 0, c 13] }

/-- `vli_mmod_fast_secp256r1` where `uECC_WORD_SIZE` is 4. -/
def vliMmodFastSecp256r1Word4 (p product : Vli 32) : Vli 32 :=
  settle p (Reduction.sum (product.take 8) (terms32 product))

def terms64 (product : Vli 64) : Terms 64 :=
  let c := fun i => product.getD i 0
  { s1 := [0, c 5 &&& (0xffffffff00000000 : BitVec 64), c 6, c 7]
    s2 := [0, c 6 <<< 32, c 6 >>> 32 ||| c 7 <<< 32, c 7 >>> 32]
    s3 := [c 4, c 5 &&& (0xffffffff : BitVec 64), 0, c 7]
    s4 := [c 4 >>> 32 ||| c 5 <<< 32, c 5 >>> 32 ||| c 6 &&& (0xffffffff00000000 : BitVec 64), c 7, c 6 >>> 32 ||| c 4 <<< 32]
    d1 := [c 5 >>> 32 ||| c 6 <<< 32, c 6 >>> 32, 0, c 4 &&& (0xffffffff : BitVec 64) ||| c 5 <<< 32]
    d2 := [c 6, c 7, 0, c 4 >>> 32 ||| c 5 &&& (0xffffffff00000000 : BitVec 64)]
    d3 := [c 6 >>> 32 ||| c 7 <<< 32, c 7 >>> 32 ||| c 4 <<< 32, c 4 >>> 32 ||| c 5 <<< 32, c 6 <<< 32]
    d4 := [c 7, c 4 &&& (0xffffffff00000000 : BitVec 64), c 5, c 6 &&& (0xffffffff00000000 : BitVec 64)] }

/-- `vli_mmod_fast_secp256r1` where `uECC_WORD_SIZE` is 8. -/
def vliMmodFastSecp256r1Word8 (p product : Vli 64) : Vli 64 :=
  settle p (Reduction.sum (product.take 4) (terms64 product))

section Settle

def Reduction.total (n : Nat) (r : Reduction w) : Int := value r.result + (2 ^ w) ^ n * r.carry

variable (positive : 0 < w) {n : Nat} {r : Reduction w} {tmp p : Vli w}

include positive

theorem add_total (size : r.result.length = n) (tmpSize : tmp.length = n) :
    (r.add tmp).result.length = n ∧ (r.add tmp).total n = r.total n + value tmp := by
  obtain ⟨_, sum⟩ := vliAdd_value positive r.result tmp (size.trans tmpSize.symm)
  refine ⟨vliAdd_length size tmpSize, ?_⟩
  rw [size] at sum
  have cast : ((value (vliAdd r.result tmp).1 + (2 ^ w) ^ n * (vliAdd r.result tmp).2.toNat : Nat) : Int) =
      (value r.result + value tmp : Nat) := congrArg Nat.cast sum
  push_cast at cast
  rw [Reduction.total, Reduction.total, Reduction.add, mul_add]
  linarith

theorem sub_total (size : r.result.length = n) (tmpSize : tmp.length = n) :
    (r.sub tmp).result.length = n ∧ (r.sub tmp).total n = r.total n - value tmp := by
  obtain ⟨_, difference⟩ := vliSub_value positive r.result tmp (size.trans tmpSize.symm)
  refine ⟨vliSub_length size tmpSize, ?_⟩
  rw [size] at difference
  have cast : ((value (vliSub r.result tmp).1 + value tmp : Nat) : Int) =
      (value r.result + (2 ^ w) ^ n * (vliSub r.result tmp).2.toNat : Nat) := congrArg Nat.cast difference
  push_cast at cast
  rw [Reduction.total, Reduction.total, Reduction.sub, mul_sub]
  linarith

theorem addDouble_total (size : r.result.length = n) (tmpSize : tmp.length = n) :
    (r.addDouble tmp).result.length = n ∧ (r.addDouble tmp).total n = r.total n + 2 * value tmp := by
  obtain ⟨_, sum⟩ := vliAdd_value positive tmp tmp rfl
  have doubledSize := vliAdd_length tmpSize tmpSize
  obtain ⟨length, total⟩ := add_total (r := { r with carry := r.carry + (vliAdd tmp tmp).2.toNat }) positive size doubledSize
  refine ⟨length, ?_⟩
  rw [tmpSize] at sum
  have cast : ((value (vliAdd tmp tmp).1 + (2 ^ w) ^ n * (vliAdd tmp tmp).2.toNat : Nat) : Int) =
      (value tmp + value tmp : Nat) := congrArg Nat.cast sum
  push_cast at cast
  rw [Reduction.addDouble, total, Reduction.total, Reduction.total, mul_add]
  linarith

omit positive in
theorem carry_neg_iff (size : r.result.length = n) : r.carry < 0 ↔ r.total n < 0 := by
  have room : ((value r.result : Nat) : Int) < ((2 ^ w) ^ n : Nat) := by
    exact_mod_cast size ▸ value_lt r.result
  have large : (0 : Int) < ((2 ^ w) ^ n : Nat) := by exact_mod_cast Nat.pow_pos (Nat.two_pow_pos w)
  push_cast at room large
  rw [Reduction.total]
  constructor
  · intro negative
    nlinarith
  · intro below
    by_contra above
    nlinarith [Int.natCast_nonneg (value r.result)]

theorem addBack_total (pSize : p.length = n) (rounds : Nat) (size : r.result.length = n)
    (negative : r.total n < 0) (few : 0 ≤ r.total n + rounds * value p) :
    (addBack p rounds r).result.length = n ∧ 0 ≤ (addBack p rounds r).total n ∧ (addBack p rounds r).total n < value p ∧
      (addBack p rounds r).total n % value p = r.total n % value p := by
  induction rounds generalizing r with
  | zero =>
    rw [Nat.cast_zero, zero_mul, add_zero] at few
    omega
  | succ rounds ih =>
    obtain ⟨nextSize, next⟩ := add_total positive size pSize
    have same : (r.add p).total n % value p = r.total n % value p := by rw [next, Int.add_emod_right]
    rw [addBack]
    simp only [carry_neg_iff nextSize]
    by_cases still : (r.add p).total n < 0
    · push_cast at few
      obtain ⟨length, low, high, kept⟩ := ih nextSize still (by rw [next]; linarith)
      rw [if_pos still]
      exact ⟨length, low, high, kept.trans same⟩
    · rw [if_neg still]
      exact ⟨nextSize, Int.not_lt.mp still, by omega, same⟩

theorem takeAway_total (pSize : p.length = n) (rounds : Nat) (size : r.result.length = n)
    (nonneg : 0 ≤ r.total n) (few : r.total n < (rounds + 1) * value p) :
    (takeAway p rounds r).result.length = n ∧ 0 ≤ (takeAway p rounds r).total n ∧
      (takeAway p rounds r).total n < value p ∧ (takeAway p rounds r).total n % value p = r.total n % value p := by
  induction rounds generalizing r with
  | zero =>
    rw [Nat.cast_zero, zero_add, one_mul] at few
    exact ⟨size, nonneg, few, rfl⟩
  | succ rounds ih =>
    obtain ⟨nextSize, next⟩ := sub_total positive size pSize
    have room : ((value r.result : Nat) : Int) < ((2 ^ w) ^ n : Nat) := by exact_mod_cast size ▸ value_lt r.result
    have pRoom : ((value p : Nat) : Int) < ((2 ^ w) ^ n : Nat) := by exact_mod_cast pSize ▸ value_lt p
    have carried := (carry_neg_iff (r := r) size).not.mpr (Int.not_lt.mpr nonneg)
    push_cast at room pRoom
    have compared : vliCmpUnsafe p r.result ≠ 1 ↔ value p ≤ value r.result := by
      rw [Ne, (vliCmpUnsafe_compares pSize size).one, Nat.not_lt]
    have large : r.carry ≠ 0 ∨ vliCmpUnsafe p r.result ≠ 1 ↔ (value p : Int) ≤ r.total n := by
      rw [compared, Reduction.total]
      by_cases none : r.carry = 0
      · rw [none, mul_zero, add_zero, Nat.cast_le]
        simp
      · have one : 1 ≤ r.carry := by omega
        refine iff_of_true (Or.inl none) ?_
        nlinarith [Int.natCast_nonneg (value r.result)]
    rw [takeAway]
    simp only [large]
    by_cases more : (value p : Int) ≤ r.total n
    · push_cast at few
      obtain ⟨length, low, high, kept⟩ := ih nextSize (by rw [next]; linarith) (by rw [next]; linarith)
      have same : (r.sub p).total n % value p = r.total n % value p := by rw [next, Int.sub_emod_right]
      rw [if_pos more]
      exact ⟨length, low, high, kept.trans same⟩
    · rw [if_neg more]
      exact ⟨size, nonneg, Int.not_le.mp more, rfl⟩

omit positive in
theorem value_of_total (size : r.result.length = n) (nonneg : 0 ≤ r.total n) (room : r.total n < (2 ^ w) ^ n) :
    r.total n = value r.result := by
  have small : ((value r.result : Nat) : Int) < ((2 ^ w) ^ n : Nat) := by exact_mod_cast size ▸ value_lt r.result
  have carried := (carry_neg_iff (r := r) size).not.mpr (Int.not_lt.mpr nonneg)
  push_cast at small
  have none : r.carry = 0 := by
    by_contra some
    have one : 1 ≤ r.carry := by omega
    rw [Reduction.total] at room
    nlinarith [Int.natCast_nonneg (value r.result)]
  rw [Reduction.total, none, mul_zero, add_zero]

theorem settle_value (pSize : p.length = n) (size : r.result.length = n) (low : -16 * (value p : Int) ≤ r.total n)
    (high : r.total n < 17 * value p) :
    (settle p r).length = n ∧ (value (settle p r) : Int) = r.total n % value p := by
  have pRoom : ((value p : Nat) : Int) < ((2 ^ w) ^ n : Nat) := by exact_mod_cast pSize ▸ value_lt p
  push_cast at pRoom
  simp only [settle, carry_neg_iff size]
  by_cases negative : r.total n < 0
  · obtain ⟨length, nonneg, less, kept⟩ := addBack_total positive pSize 16 size negative (by push_cast; linarith)
    rw [if_pos negative, ← kept, Int.emod_eq_of_lt nonneg less]
    exact ⟨length, (value_of_total length nonneg (less.trans pRoom)).symm⟩
  · obtain ⟨length, nonneg, less, kept⟩ := takeAway_total positive pSize 16 size (Int.not_lt.mp negative) (by push_cast; linarith)
    rw [if_neg negative, ← kept, Int.emod_eq_of_lt nonneg less]
    exact ⟨length, (value_of_total length nonneg (less.trans pRoom)).symm⟩

end Settle

section Terms

structure Terms.Sized (n : Nat) (terms : Terms w) : Prop where
  s1 : terms.s1.length = n
  s2 : terms.s2.length = n
  s3 : terms.s3.length = n
  s4 : terms.s4.length = n
  d1 : terms.d1.length = n
  d2 : terms.d2.length = n
  d3 : terms.d3.length = n
  d4 : terms.d4.length = n

def Terms.balance (terms : Terms w) : Int :=
  2 * value terms.s1 + 2 * value terms.s2 + value terms.s3 + value terms.s4 - value terms.d1 - value terms.d2 -
    value terms.d3 - value terms.d4

theorem sum_total (positive : 0 < w) {n : Nat} {t : Vli w} {terms : Terms w} (size : t.length = n) (sized : terms.Sized n) :
    (Reduction.sum t terms).result.length = n ∧ (Reduction.sum t terms).total n = value t + terms.balance := by
  have start : (⟨t, 0⟩ : Reduction w).total n = value t := by rw [Reduction.total, mul_zero, add_zero]
  obtain ⟨size1, total1⟩ := addDouble_total (r := ⟨t, 0⟩) positive size sized.s1
  obtain ⟨size2, total2⟩ := addDouble_total positive size1 sized.s2
  obtain ⟨size3, total3⟩ := add_total positive size2 sized.s3
  obtain ⟨size4, total4⟩ := add_total positive size3 sized.s4
  obtain ⟨size5, total5⟩ := sub_total positive size4 sized.d1
  obtain ⟨size6, total6⟩ := sub_total positive size5 sized.d2
  obtain ⟨size7, total7⟩ := sub_total positive size6 sized.d3
  obtain ⟨size8, total8⟩ := sub_total positive size7 sized.d4
  refine ⟨size8, ?_⟩
  rw [Reduction.sum, total8, total7, total6, total5, total4, total3, total2, total1, start, Terms.balance]
  ring

def horner (base : Int) : List Int → Int
  | [] => 0
  | c :: cs => c + base * horner base cs

theorem value_horner (words : Vli w) : (value words : Int) = horner (2 ^ w) (words.map fun word => (word.toNat : Int)) := by
  induction words with
  | nil => rfl
  | cons word words ih =>
    rw [value_cons, List.map_cons, horner, ← ih]
    push_cast
    rfl

theorem words_eq_getD (words : Vli w) : words = (List.range words.length).map fun i => words.getD i 0 := by
  apply List.ext_getElem
  · rw [List.length_map, List.length_range]
  · intro i inside _
    rw [List.getElem_map, List.getElem_range, List.getD_eq_getElem _ _ inside]

/-- The reduction, for the digits `c` of a number in the base `b`: the powers from the eighth on are replaced by
    their remainders modulo `b ^ 8 - b ^ 7 + b ^ 6 + b ^ 3 - 1`. -/
def reduced (b : Int) (c : Nat → Int) : Int :=
  horner b [c 0, c 1, c 2, c 3, c 4, c 5, c 6, c 7] +
    (2 * horner b [0, 0, 0, c 11, c 12, c 13, c 14, c 15] + 2 * horner b [0, 0, 0, c 12, c 13, c 14, c 15, 0] +
      horner b [c 8, c 9, c 10, 0, 0, 0, c 14, c 15] + horner b [c 9, c 10, c 11, c 13, c 14, c 15, c 13, c 8] -
      horner b [c 11, c 12, c 13, 0, 0, 0, c 8, c 10] - horner b [c 12, c 13, c 14, c 15, 0, 0, c 9, c 11] -
      horner b [c 13, c 14, c 15, c 8, c 9, c 10, 0, c 12] - horner b [c 14, c 15, 0, c 9, c 10, c 11, 0, c 13])

theorem reduced_emod (b : Int) (c : Nat → Int) :
    reduced b c % (b ^ 8 - b ^ 7 + b ^ 6 + b ^ 3 - 1) =
      horner b ((List.range 16).map c) % (b ^ 8 - b ^ 7 + b ^ 6 + b ^ 3 - 1) := by
  have whole : horner b ((List.range 16).map c) = reduced b c + (b ^ 8 - b ^ 7 + b ^ 6 + b ^ 3 - 1) *
      (c 8 + c 9 * (1 + b) + c 10 * (b + b ^ 2) + c 11 * (b ^ 3 + b ^ 2 - 1) + c 12 * (b ^ 4 + b ^ 3 - b - 1) +
        c 13 * (b ^ 5 + b ^ 4 - b ^ 2 - b - 1) + c 14 * (b ^ 6 + b ^ 5 - b ^ 3 - b ^ 2 - b - 1) +
        c 15 * (b ^ 7 + b ^ 6 - b ^ 4 - b ^ 3 - b ^ 2 - b)) := by
    simp only [List.range, List.range.loop, List.map_cons, List.map_nil, reduced, horner]
    ring
  rw [whole, Int.add_mul_emod_self_left]

def secp256r1Modulus : Nat := 2 ^ 256 - 2 ^ 224 + 2 ^ 192 + 2 ^ 96 - 1

variable {n : Nat} {t p : Vli w} {terms : Terms w}

theorem sum_bounds (width : w * n = 256) (size : t.length = n) (sized : terms.Sized n) :
    -16 * (secp256r1Modulus : Int) ≤ value t + terms.balance ∧ value t + terms.balance < 17 * secp256r1Modulus := by
  have room : ∀ words : Vli w, words.length = n → value words < 2 ^ 256 := by
    intro words length
    have bound := value_lt words
    rwa [length, ← Nat.pow_mul, width] at bound
  have tRoom := room t size
  have s1 := room _ sized.s1
  have s2 := room _ sized.s2
  have s3 := room _ sized.s3
  have s4 := room _ sized.s4
  have d1 := room _ sized.d1
  have d2 := room _ sized.d2
  have d3 := room _ sized.d3
  have d4 := room _ sized.d4
  have modulus : secp256r1Modulus = 115792089210356248762697446949407573530086143415290314195533631308867097853951 := by decide
  rw [modulus, Terms.balance]
  omega

theorem settle_reduced (positive : 0 < w) (width : w * n = 256) (size : t.length = n) (sized : terms.Sized n)
    (pSize : p.length = n) (pValue : value p = secp256r1Modulus) (c : Nat → Int) (number : Nat)
    (digits : (number : Int) = horner (2 ^ 32) ((List.range 16).map c))
    (balanced : value t + terms.balance = reduced (2 ^ 32) c) :
    (settle p (Reduction.sum t terms)).length = n ∧
      value (settle p (Reduction.sum t terms)) = number % secp256r1Modulus := by
  obtain ⟨sumSize, total⟩ := sum_total positive size sized
  obtain ⟨low, high⟩ := sum_bounds width size sized
  obtain ⟨length, remainder⟩ := settle_value positive pSize sumSize (by rwa [total, pValue]) (by rwa [total, pValue])
  refine ⟨length, ?_⟩
  have modulus : (secp256r1Modulus : Int) = (2 ^ 32) ^ 8 - (2 ^ 32) ^ 7 + (2 ^ 32) ^ 6 + (2 ^ 32) ^ 3 - 1 := by decide
  have folded := reduced_emod (2 ^ 32) c
  rw [← modulus, ← digits] at folded
  rw [total, balanced, pValue, folded] at remainder
  exact_mod_cast remainder

end Terms

section Word4

theorem vliMmodFastSecp256r1Word4_value {p product : Vli 32} (pSize : p.length = 8) (pValue : value p = secp256r1Modulus)
    (size : product.length = 16) :
    (vliMmodFastSecp256r1Word4 p product).length = 8 ∧
      value (vliMmodFastSecp256r1Word4 p product) = value product % secp256r1Modulus := by
  have low : product.take 8 = (List.range 8).map fun i => product.getD i 0 := by
    conv_lhs => rw [words_eq_getD product, size]
    rfl
  have sized : (terms32 product).Sized 8 := ⟨rfl, rfl, rfl, rfl, rfl, rfl, rfl, rfl⟩
  apply settle_reduced (by decide) (by decide) (by rw [List.length_take, size]; rfl) sized pSize pValue
    (fun i => ((product.getD i 0).toNat : Int))
  · rw [value_horner, words_eq_getD product, size, List.map_map]
    rfl
  · rw [low, Terms.balance]
    simp only [value_horner]
    rfl

end Word4

section Word8

def low (word : BitVec 64) : Nat := word.toNat % 2 ^ 32

def high (word : BitVec 64) : Nat := word.toNat / 2 ^ 32

theorem word_halves (word : BitVec 64) : word.toNat = low word + 2 ^ 32 * high word := (Nat.mod_add_div _ _).symm

theorem high_lt (word : BitVec 64) : high word < 2 ^ 32 := by
  have bound := word.isLt
  rw [high]
  omega

theorem low_lt (word : BitVec 64) : low word < 2 ^ 32 := Nat.mod_lt _ (Nat.two_pow_pos 32)

theorem shiftRight_toNat (word : BitVec 64) : (word >>> 32).toNat = high word := by
  rw [BitVec.toNat_ushiftRight, Nat.shiftRight_eq_div_pow, high]

theorem shiftLeft_toNat (word : BitVec 64) : (word <<< 32).toNat = 2 ^ 32 * low word := by
  rw [BitVec.toNat_shiftLeft, Nat.shiftLeft_eq, low]
  omega

theorem lowMask_toNat (word : BitVec 64) : (word &&& (0xffffffff : BitVec 64)).toNat = low word := by
  have mask : (0xffffffff : BitVec 64).toNat = 2 ^ 32 - 1 := by decide
  rw [BitVec.toNat_and, mask, Nat.and_two_pow_sub_one_eq_mod, low]

theorem and_shiftLeft (word mask : BitVec 64) : word &&& mask <<< 32 = (word >>> 32 &&& mask) <<< 32 := by
  apply BitVec.eq_of_getLsbD_eq
  intro i inside
  by_cases below : i < 32
  · simp [below]
  · simp [below, inside, Nat.add_sub_cancel' (Nat.not_lt.mp below)]

theorem highMask_toNat (word : BitVec 64) : (word &&& (0xffffffff00000000 : BitVec 64)).toNat = 2 ^ 32 * high word := by
  have mask : (0xffffffff00000000 : BitVec 64) = (0xffffffff : BitVec 64) <<< 32 := by decide
  have fits : low (word >>> 32) = high word := by
    rw [low, shiftRight_toNat, Nat.mod_eq_of_lt (high_lt word)]
  have again : low (word >>> 32 &&& (0xffffffff : BitVec 64)) = high word := by
    rw [low, lowMask_toNat, fits, Nat.mod_eq_of_lt (high_lt word)]
  rw [mask, and_shiftLeft, shiftLeft_toNat, again]

theorem join_toNat {bottom top : BitVec 64} {k : Nat} (small : bottom.toNat < 2 ^ 32) (multiple : top.toNat = 2 ^ 32 * k) :
    (bottom ||| top).toNat = bottom.toNat + 2 ^ 32 * k := by
  rw [BitVec.toNat_or, multiple, Nat.or_comm, ← Nat.two_pow_add_eq_or_of_lt small, Nat.add_comm]

theorem shifts_toNat (word word' : BitVec 64) : (word >>> 32 ||| word' <<< 32).toNat = high word + 2 ^ 32 * low word' := by
  rw [join_toNat (by rw [shiftRight_toNat]; exact high_lt word) (shiftLeft_toNat word'), shiftRight_toNat]

theorem shiftMask_toNat (word word' : BitVec 64) :
    (word >>> 32 ||| word' &&& (0xffffffff00000000 : BitVec 64)).toNat = high word + 2 ^ 32 * high word' := by
  rw [join_toNat (by rw [shiftRight_toNat]; exact high_lt word) (highMask_toNat word'), shiftRight_toNat]

theorem maskShift_toNat (word word' : BitVec 64) :
    (word &&& (0xffffffff : BitVec 64) ||| word' <<< 32).toNat = low word + 2 ^ 32 * low word' := by
  rw [join_toNat (by rw [lowMask_toNat]; exact low_lt word) (shiftLeft_toNat word'), lowMask_toNat]

def halfDigit (words : Vli 64) (i : Nat) : Int :=
  if i % 2 = 0 then low (words.getD (i / 2) 0) else high (words.getD (i / 2) 0)

theorem vliMmodFastSecp256r1Word8_value {p product : Vli 64} (pSize : p.length = 4) (pValue : value p = secp256r1Modulus)
    (size : product.length = 8) :
    (vliMmodFastSecp256r1Word8 p product).length = 4 ∧
      value (vliMmodFastSecp256r1Word8 p product) = value product % secp256r1Modulus := by
  have first : product.take 4 = (List.range 4).map fun i => product.getD i 0 := by
    conv_lhs => rw [words_eq_getD product, size]
    rfl
  have halves := fun i => word_halves (product.getD i 0)
  have zero : (0 : BitVec 64).toNat = 0 := rfl
  have sized : (terms64 product).Sized 4 := ⟨rfl, rfl, rfl, rfl, rfl, rfl, rfl, rfl⟩
  apply settle_reduced (by decide) (by decide) (by rw [List.length_take, size]; rfl) sized pSize pValue
    (halfDigit product)
  · conv_lhs => rw [value_horner, words_eq_getD product, size, List.map_map]
    simp only [List.range, List.range.loop, List.map_cons, List.map_nil, horner, Function.comp_apply, halves, halfDigit]
    push_cast
    ring
  · rw [first, Terms.balance]
    simp only [value_horner, terms64, List.range, List.range.loop, List.map_cons, List.map_nil, shifts_toNat,
      shiftMask_toNat, maskShift_toNat, highMask_toNat, lowMask_toNat, shiftRight_toNat, shiftLeft_toNat, halves, zero]
    simp only [horner, reduced, halfDigit]
    push_cast
    ring

end Word8

end MicroEcc
