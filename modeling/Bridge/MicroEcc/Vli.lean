import Bridge.Library.Limbs
import Mathlib.Data.List.GetD
import Mathlib.Data.List.Induction
import Mathlib.Data.Nat.Size

namespace MicroEcc

open Limbs

variable {w : Nat}

abbrev Vli (w : Nat) : Type := List (BitVec w)

def vliClear (w numWords : Nat) : Vli w := List.replicate numWords 0

def vliIsZero (vli : Vli w) : Bool := vli.foldl (fun bits word => bits ||| word) 0 == 0

def vliTestBit (vli : Vli w) (bit : Nat) : Bool := vli.getD (bit / w) 0 &&& ((1 : BitVec w) <<< (bit % w)) != 0

/-- The search goes from the end. -/
def vliNumDigits (vli : Vli w) : Nat := (vli.reverse.dropWhile fun word => word == 0).length

/-- The shifts until the digit is zero; it is after `w` of them. -/
def digitBits : Nat → BitVec w → Nat
  | 0, _ => 0
  | shifts + 1, digit => if digit = 0 then 0 else digitBits shifts (digit >>> 1) + 1

def vliNumBits (vli : Vli w) : Nat :=
  if vliNumDigits vli = 0 then 0
  else (vliNumDigits vli - 1) * w + digitBits w (vli.getD (vliNumDigits vli - 1) 0)

/-- The sign of the first difference from the top. -/
def cmpWords : List (BitVec w) → List (BitVec w) → Int
  | l :: left, r :: right => if l > r then 1 else if l < r then -1 else cmpWords left right
  | _, _ => 0

def vliCmpUnsafe (left right : Vli w) : Int := cmpWords left.reverse right.reverse

def diffWords : BitVec w → List (BitVec w) → List (BitVec w) → BitVec w
  | diff, l :: left, r :: right => diffWords (diff ||| (l ^^^ r)) left right
  | diff, _, _ => diff

def vliEqual (left right : Vli w) : Bool := diffWords 0 left.reverse right.reverse == 0

/-- A sum that equals its left word keeps the carry: the right word and the carry were 0, or all
    ones and 1. -/
def addWords : BitVec w → List (BitVec w) → List (BitVec w) → Vli w × BitVec w
  | carry, l :: left, r :: right =>
    let sum := l + r + carry
    let rest := addWords (if sum ≠ l then (if sum < l then 1 else 0) else carry) left right
    (sum :: rest.1, rest.2)
  | carry, _, _ => ([], carry)

def vliAdd (left right : Vli w) : Vli w × BitVec w := addWords 0 left right

def subWords : BitVec w → List (BitVec w) → List (BitVec w) → Vli w × BitVec w
  | borrow, l :: left, r :: right =>
    let diff := l - r - borrow
    let rest := subWords (if diff ≠ l then (if diff > l then 1 else 0) else borrow) left right
    (diff :: rest.1, rest.2)
  | borrow, _, _ => ([], borrow)

def vliSub (left right : Vli w) : Vli w × BitVec w := subWords 0 left right

def vliCmp (left right : Vli w) : Int :=
  let neg := if (vliSub left right).2 ≠ 0 then 1 else 0
  (if vliIsZero (vliSub left right).1 then 0 else 1) - 2 * neg

/-- From the top word down, each with the bit that fell out of the word above. -/
def rshiftWords : BitVec w → List (BitVec w) → List (BitVec w)
  | _, [] => []
  | carry, temp :: below => (temp >>> 1 ||| carry) :: rshiftWords (temp <<< (w - 1)) below

def vliRshift1 (vli : Vli w) : Vli w := (rshiftWords 0 vli.reverse).reverse

section Lengths

theorem addWords_length (carry : BitVec w) (left right : Vli w) (lengths : left.length = right.length) :
    (addWords carry left right).1.length = left.length := by
  induction left generalizing right carry with
  | nil => cases right <;> rfl
  | cons l left ih =>
    cases right with
    | nil => cases lengths
    | cons r right =>
      rw [addWords, List.length_cons, List.length_cons]
      exact congrArg Nat.succ (ih _ right (Nat.succ.inj lengths))

theorem subWords_length (borrow : BitVec w) (left right : Vli w) (lengths : left.length = right.length) :
    (subWords borrow left right).1.length = left.length := by
  induction left generalizing right borrow with
  | nil => cases right <;> rfl
  | cons l left ih =>
    cases right with
    | nil => cases lengths
    | cons r right =>
      rw [subWords, List.length_cons, List.length_cons]
      exact congrArg Nat.succ (ih _ right (Nat.succ.inj lengths))

theorem vliAdd_length {left right : Vli w} {n : Nat} (leftSize : left.length = n) (rightSize : right.length = n) :
    (vliAdd left right).1.length = n :=
  (addWords_length 0 left right (leftSize.trans rightSize.symm)).trans leftSize

theorem vliSub_length {left right : Vli w} {n : Nat} (leftSize : left.length = n) (rightSize : right.length = n) :
    (vliSub left right).1.length = n :=
  (subWords_length 0 left right (leftSize.trans rightSize.symm)).trans leftSize

theorem rshiftWords_length (carry : BitVec w) (words : List (BitVec w)) :
    (rshiftWords carry words).length = words.length := by
  induction words generalizing carry with
  | nil => rfl
  | cons word below ih => rw [rshiftWords, List.length_cons, ih, List.length_cons]

@[simp]
theorem vliRshift1_length (vli : Vli w) : (vliRshift1 vli).length = vli.length := by
  rw [vliRshift1, List.length_reverse, rshiftWords_length, List.length_reverse]

end Lengths

section Sums

theorem sum_word (positive : 0 < w) (l r carry : BitVec w) (one : carry.toNat ≤ 1) :
    let sum := l + r + carry
    let next : BitVec w := if sum ≠ l then (if sum < l then 1 else 0) else carry
    next.toNat ≤ 1 ∧ sum.toNat + 2 ^ w * next.toNat = l.toNat + r.toNat + carry.toNat := by
  intro sum next
  have lBound := l.isLt
  have rBound := r.isLt
  have unit : (1 : BitVec w).toNat = 1 := BitVec.toNat_one positive
  have zero : (0 : BitVec w).toNat = 0 := BitVec.toNat_ofNat 0 w
  have total : sum.toNat + 2 ^ w * ((l.toNat + r.toNat + carry.toNat) / 2 ^ w) = l.toNat + r.toNat + carry.toNat := by
    rw [BitVec.toNat_add, BitVec.toNat_add, Nat.mod_add_mod, Nat.mod_add_div]
  have turns : (l.toNat + r.toNat + carry.toNat) / 2 ^ w < 2 := (Nat.div_lt_iff_lt_mul (Nat.two_pow_pos w)).mpr (by omega)
  generalize (l.toNat + r.toNat + carry.toNat) / 2 ^ w = turn at total turns
  have cases : turn = 0 ∨ turn = 1 := by omega
  have flag : next.toNat = turn := by
    by_cases same : sum = l
    · -- the right word and the carry add up to 0 or to a whole turn
      have kept : next = carry := if_neg (not_not_intro same)
      rw [same] at total
      rw [kept]
      rcases cases with rfl | rfl <;> omega
    · have differ : sum.toNat ≠ l.toNat := fun alike => same (BitVec.eq_of_toNat_eq alike)
      by_cases less : sum < l
      · have wrapped : next = 1 := by rw [show next = _ from if_pos same, if_pos less]
        have below : sum.toNat < l.toNat := less
        rw [wrapped, unit]
        rcases cases with rfl | rfl <;> omega
      · have kept : next = 0 := by rw [show next = _ from if_pos same, if_neg less]
        have above : l.toNat ≤ sum.toNat := Nat.not_lt.mp less
        rw [kept, zero]
        rcases cases with rfl | rfl <;> omega
  rw [flag]
  exact ⟨by omega, total⟩

theorem addWords_value (positive : 0 < w) (carry : BitVec w) (one : carry.toNat ≤ 1) (left right : Vli w)
    (lengths : left.length = right.length) :
    (addWords carry left right).2.toNat ≤ 1 ∧
      value (addWords carry left right).1 + (2 ^ w) ^ left.length * (addWords carry left right).2.toNat =
        value left + value right + carry.toNat := by
  induction left generalizing right carry with
  | nil =>
    cases right with
    | nil => exact ⟨one, by simp [addWords]⟩
    | cons r right => cases lengths
  | cons l left ih =>
    cases right with
    | nil => cases lengths
    | cons r right =>
      obtain ⟨bit, step⟩ := sum_word positive l r carry one
      obtain ⟨last, sum⟩ := ih _ bit right (Nat.succ.inj lengths)
      refine ⟨last, ?_⟩
      simp only [addWords, value_cons, List.length_cons, Nat.pow_succ']
      have scaled := congrArg (2 ^ w * ·) sum
      simp only [Nat.mul_add] at scaled
      rw [Nat.mul_assoc]
      omega

theorem vliAdd_value (positive : 0 < w) (left right : Vli w) (lengths : left.length = right.length) :
    (vliAdd left right).2.toNat ≤ 1 ∧
      value (vliAdd left right).1 + (2 ^ w) ^ left.length * (vliAdd left right).2.toNat = value left + value right := by
  have zero : (0 : BitVec w).toNat = 0 := BitVec.toNat_ofNat 0 w
  have sum := addWords_value positive 0 (by rw [zero]; exact Nat.zero_le 1) left right lengths
  rwa [zero] at sum

theorem diff_word (positive : 0 < w) (l r borrow : BitVec w) (one : borrow.toNat ≤ 1) :
    let diff := l - r - borrow
    let next : BitVec w := if diff ≠ l then (if diff > l then 1 else 0) else borrow
    next.toNat ≤ 1 ∧ diff.toNat + r.toNat + borrow.toNat = l.toNat + 2 ^ w * next.toNat := by
  intro diff next
  have back : diff + r + borrow = l := by
    change l - r - borrow + r + borrow = l
    rw [BitVec.sub_sub, BitVec.add_assoc, BitVec.sub_add_cancel]
  have turned : next = if l ≠ diff then (if l < diff then 1 else 0) else borrow := if_congr ne_comm rfl rfl
  obtain ⟨bit, total⟩ := sum_word positive diff r borrow one
  rw [back, ← turned] at bit total
  exact ⟨bit, total.symm⟩

theorem subWords_value (positive : 0 < w) (borrow : BitVec w) (one : borrow.toNat ≤ 1) (left right : Vli w)
    (lengths : left.length = right.length) :
    (subWords borrow left right).2.toNat ≤ 1 ∧
      value (subWords borrow left right).1 + value right + borrow.toNat =
        value left + (2 ^ w) ^ left.length * (subWords borrow left right).2.toNat := by
  induction left generalizing right borrow with
  | nil =>
    cases right with
    | nil => exact ⟨one, by simp [subWords]⟩
    | cons r right => cases lengths
  | cons l left ih =>
    cases right with
    | nil => cases lengths
    | cons r right =>
      obtain ⟨bit, step⟩ := diff_word positive l r borrow one
      obtain ⟨last, sum⟩ := ih _ bit right (Nat.succ.inj lengths)
      refine ⟨last, ?_⟩
      simp only [subWords, value_cons, List.length_cons, Nat.pow_succ']
      have scaled := congrArg (2 ^ w * ·) sum
      simp only [Nat.mul_add] at scaled
      rw [Nat.mul_assoc]
      omega

theorem vliSub_value (positive : 0 < w) (left right : Vli w) (lengths : left.length = right.length) :
    (vliSub left right).2.toNat ≤ 1 ∧
      value (vliSub left right).1 + value right = value left + (2 ^ w) ^ left.length * (vliSub left right).2.toNat := by
  have zero : (0 : BitVec w).toNat = 0 := BitVec.toNat_ofNat 0 w
  have sum := subWords_value positive 0 (by rw [zero]; exact Nat.zero_le 1) left right lengths
  rwa [zero] at sum

end Sums

section Comparisons

theorem or_eq_zero (left right : BitVec w) : left ||| right = 0 ↔ left = 0 ∧ right = 0 := BitVec.or_eq_zero_iff

theorem orWords_eq_zero_iff (bits : BitVec w) (words : List (BitVec w)) :
    words.foldl (fun bits word => bits ||| word) bits = 0 ↔ bits = 0 ∧ ∀ word ∈ words, word = 0 := by
  induction words generalizing bits with
  | nil => simp
  | cons word words ih =>
    rw [List.foldl_cons, ih, List.forall_mem_cons, or_eq_zero, and_assoc]

theorem vliIsZero_iff (vli : Vli w) : vliIsZero vli = true ↔ value vli = 0 := by
  rw [vliIsZero, beq_iff_eq, orWords_eq_zero_iff, value_eq_zero_iff]
  exact and_iff_right rfl

theorem diffWords_eq_zero_iff (diff : BitVec w) (left right : List (BitVec w)) (lengths : left.length = right.length) :
    diffWords diff left right = 0 ↔ diff = 0 ∧ left = right := by
  induction left generalizing right diff with
  | nil =>
    cases right with
    | nil => simp [diffWords]
    | cons r right => cases lengths
  | cons l left ih =>
    cases right with
    | nil => cases lengths
    | cons r right =>
      have differ : l ^^^ r = 0 ↔ l = r := BitVec.xor_eq_zero_iff
      rw [diffWords, ih _ right (Nat.succ.inj lengths), or_eq_zero, differ, List.cons_eq_cons, and_assoc]

theorem vliEqual_iff (left right : Vli w) (lengths : left.length = right.length) :
    vliEqual left right = true ↔ value left = value right := by
  rw [vliEqual, beq_iff_eq, diffWords_eq_zero_iff _ _ _ (by simpa using lengths)]
  constructor
  · intro same
    rw [List.reverse_inj.mp same.2]
  · intro same
    exact ⟨rfl, congrArg List.reverse (value_injective lengths same)⟩

theorem value_reverse_cons (word : BitVec w) (words : List (BitVec w)) :
    value (word :: words).reverse = value words.reverse + (2 ^ w) ^ words.length * word.toNat := by
  rw [List.reverse_cons, value_concat, List.length_reverse]

theorem value_reverse_lt (words : List (BitVec w)) : value words.reverse < (2 ^ w) ^ words.length := by
  have bound := value_lt words.reverse
  rwa [List.length_reverse] at bound

theorem top_word_lt {words words' : List (BitVec w)} (lengths : words.length = words'.length) {word word' : BitVec w}
    (less : word < word') : value (word :: words).reverse < value (word' :: words').reverse := by
  have low := value_reverse_lt words
  have scaled : (2 ^ w) ^ words.length * (word.toNat + 1) ≤ (2 ^ w) ^ words.length * word'.toNat :=
    Nat.mul_le_mul_left _ less
  rw [value_reverse_cons, value_reverse_cons, ← lengths]
  rw [Nat.mul_succ] at scaled
  omega

theorem cmpWords_eq (left right : List (BitVec w)) (lengths : left.length = right.length) :
    cmpWords left right = if value left.reverse > value right.reverse then 1
      else if value left.reverse < value right.reverse then -1 else 0 := by
  induction left generalizing right with
  | nil =>
    cases right with
    | nil => rfl
    | cons r right => cases lengths
  | cons l left ih =>
    cases right with
    | nil => cases lengths
    | cons r right =>
      have tails : left.length = right.length := Nat.succ.inj lengths
      rw [cmpWords]
      by_cases more : l > r
      · rw [if_pos more, if_pos (top_word_lt tails.symm more)]
      · by_cases less : l < r
        · have below := top_word_lt tails less
          rw [if_neg more, if_pos less, if_neg (Nat.lt_asymm below), if_pos below]
        · have same : l = r := BitVec.le_antisymm (BitVec.not_lt.mp more) (BitVec.not_lt.mp less)
          rw [if_neg more, if_neg less, ih right tails, value_reverse_cons, value_reverse_cons, same, tails]
          simp only [gt_iff_lt, Nat.add_lt_add_iff_right]

theorem vliCmpUnsafe_eq (left right : Vli w) (lengths : left.length = right.length) :
    vliCmpUnsafe left right = if value left > value right then 1 else if value left < value right then -1 else 0 := by
  have reversed := cmpWords_eq left.reverse right.reverse (by simpa using lengths)
  rwa [List.reverse_reverse, List.reverse_reverse] at reversed

structure Compares (sign : Int) (left right : Nat) : Prop where
  one : sign = 1 ↔ right < left
  above : sign > 0 ↔ right < left
  below : sign < 0 ↔ left < right
  same : sign = 0 ↔ left = right

theorem vliCmpUnsafe_compares {left right : Vli w} {n : Nat} (leftSize : left.length = n) (rightSize : right.length = n) :
    Compares (vliCmpUnsafe left right) (value left) (value right) := by
  rw [vliCmpUnsafe_eq left right (leftSize.trans rightSize.symm)]
  split
  · constructor <;> omega
  · split
    · constructor <;> omega
    · constructor <;> omega

theorem vliCmp_eq (positive : 0 < w) (left right : Vli w) (lengths : left.length = right.length) :
    vliCmp left right = vliCmpUnsafe left right := by
  obtain ⟨bit, difference⟩ := vliSub_value positive left right lengths
  have size : (vliSub left right).1.length = left.length := subWords_length 0 left right lengths
  have room := value_lt (vliSub left right).1
  have zero : vliIsZero (vliSub left right).1 = true ↔ value (vliSub left right).1 = 0 := vliIsZero_iff _
  have high := value_lt right
  rw [size] at room
  rw [← lengths] at high
  have sign : (vliSub left right).2 ≠ 0 ↔ (vliSub left right).2.toNat = 1 := by
    rw [Ne, ← BitVec.toNat_inj, BitVec.ofNat_eq_ofNat, BitVec.toNat_ofNat, Nat.zero_mod]
    omega
  rw [vliCmp, vliCmpUnsafe_eq left right lengths]
  by_cases borrowed : (vliSub left right).2.toNat = 1
  · rw [borrowed, Nat.mul_one] at difference
    have less : value left < value right := by omega
    have nonzero : ¬vliIsZero (vliSub left right).1 = true := by
      rw [zero]
      omega
    rw [if_pos (sign.mpr borrowed), if_neg nonzero, if_neg (Nat.lt_asymm less), if_pos less]
    rfl
  · have none : (vliSub left right).2.toNat = 0 := by omega
    rw [none, Nat.mul_zero] at difference
    rw [if_neg (sign.not.mpr borrowed)]
    by_cases same : value (vliSub left right).1 = 0
    · rw [if_pos (zero.mpr same), if_neg (by omega), if_neg (by omega)]
      rfl
    · rw [if_neg (zero.not.mpr same), if_pos (by omega)]
      rfl

end Comparisons

section Bits

theorem shifted_word (positive : 0 < w) (temp carry : BitVec w) {b : Nat} (held : carry.toNat = 2 ^ (w - 1) * b) :
    (temp >>> 1 ||| carry).toNat = temp.toNat / 2 + 2 ^ (w - 1) * b := by
  have bound := temp.isLt
  have split : 2 ^ w = 2 * 2 ^ (w - 1) := by rw [Nat.mul_comm, Nat.two_pow_pred_mul_two positive]
  have half : temp.toNat / 2 < 2 ^ (w - 1) := by omega
  rw [BitVec.toNat_or, BitVec.toNat_ushiftRight, Nat.shiftRight_eq_div_pow, Nat.pow_one, held, Nat.or_comm,
    ← Nat.two_pow_add_eq_or_of_lt half, Nat.add_comm]

theorem dropped_bit (positive : 0 < w) (temp : BitVec w) :
    (temp <<< (w - 1)).toNat = 2 ^ (w - 1) * (temp.toNat % 2) := by
  have split : 2 ^ w = 2 ^ (w - 1) * 2 := (Nat.two_pow_pred_mul_two positive).symm
  rw [BitVec.toNat_shiftLeft, Nat.shiftLeft_eq, Nat.mul_comm, split, Nat.mul_mod_mul_left]

theorem rshiftWords_value (positive : 0 < w) (carry : BitVec w) {b : Nat} (held : carry.toNat = 2 ^ (w - 1) * b)
    (words : List (BitVec w)) :
    value (rshiftWords carry words).reverse = (value words.reverse + (2 ^ w) ^ words.length * b) / 2 -
      if words = [] then b / 2 else 0 := by
  induction words generalizing carry b with
  | nil => simp [rshiftWords]
  | cons temp below ih =>
    have split : 2 ^ w = 2 * 2 ^ (w - 1) := by rw [Nat.mul_comm, Nat.two_pow_pred_mul_two positive]
    have rest := ih _ (dropped_bit positive temp)
    have small : temp.toNat % 2 / 2 = 0 := by omega
    rw [small, ite_self, Nat.sub_zero] at rest
    rw [rshiftWords, value_reverse_cons, rest, rshiftWords_length, shifted_word positive temp carry held,
      value_reverse_cons, if_neg (List.cons_ne_nil temp below), Nat.sub_zero, List.length_cons, Nat.pow_succ]
    have word := Nat.div_add_mod temp.toNat 2
    have whole : value below.reverse + (2 ^ w) ^ below.length * temp.toNat + (2 ^ w) ^ below.length * 2 ^ w * b =
        2 * ((2 ^ w) ^ below.length * (temp.toNat / 2 + 2 ^ (w - 1) * b)) +
          (value below.reverse + (2 ^ w) ^ below.length * (temp.toNat % 2)) := by
      conv_lhs => rw [← word]
      generalize (2 ^ w) ^ below.length = power
      rw [split]
      ring
    rw [whole, Nat.mul_add_div Nat.two_pos, Nat.add_comm]

theorem vliRshift1_value (positive : 0 < w) (vli : Vli w) : value (vliRshift1 vli) = value vli / 2 := by
  have zero : (0 : BitVec w).toNat = 2 ^ (w - 1) * 0 := by simp
  have shifted := rshiftWords_value positive 0 zero vli.reverse
  rw [List.reverse_reverse, Nat.mul_zero, Nat.add_zero, Nat.zero_div, ite_self, Nat.sub_zero] at shifted
  exact shifted

theorem word_testBit (word : BitVec w) {bit : Nat} (inside : bit < w) :
    (word &&& ((1 : BitVec w) <<< bit) != 0) = word.toNat.testBit bit := by
  have mask : word &&& ((1 : BitVec w) <<< bit) = if word.getLsbD bit then BitVec.twoPow w bit else 0 := BitVec.and_twoPow word bit
  have power : BitVec.twoPow w bit ≠ 0 := by
    intro zero
    have amount := congrArg BitVec.toNat zero
    rw [BitVec.toNat_twoPow_of_lt inside, BitVec.ofNat_eq_ofNat, BitVec.toNat_ofNat, Nat.zero_mod] at amount
    exact absurd amount (Nat.ne_of_gt (Nat.two_pow_pos bit))
  rw [mask, ← BitVec.testBit_toNat]
  cases word.toNat.testBit bit with
  | false => rfl
  | true => exact bne_iff_ne.mpr power

theorem vliTestBit_value (positive : 0 < w) (vli : Vli w) (bit : Nat) :
    vliTestBit vli bit = (value vli).testBit bit := by
  induction vli generalizing bit with
  | nil => simp [vliTestBit]
  | cons word words ih =>
    rw [value_cons, Nat.add_comm, Nat.testBit_two_pow_mul_add _ word.isLt]
    by_cases inside : bit < w
    · rw [if_pos inside, vliTestBit, Nat.div_eq_of_lt inside, Nat.mod_eq_of_lt inside]
      exact word_testBit word inside
    · have later : bit / w = (bit - w) / w + 1 := by
        rw [← Nat.add_div_right _ positive, Nat.sub_add_cancel (Nat.not_lt.mp inside)]
      have same : bit % w = (bit - w) % w := Nat.mod_eq_sub_mod (Nat.not_lt.mp inside)
      rw [if_neg inside, ← ih, vliTestBit, vliTestBit, later, same]
      rfl

theorem size_half {n : Nat} (nonzero : n ≠ 0) : Nat.size n = Nat.size (n / 2) + 1 := by
  have parts : Nat.bit n.bodd n.div2 = n := Nat.bit_bodd_div2 n
  have sized : (Nat.bit n.bodd n.div2).size = n.div2.size + 1 := Nat.size_bit (by rwa [parts])
  rwa [parts, Nat.div2_val] at sized

theorem digitBits_eq (shifts : Nat) (digit : BitVec w) (small : digit.toNat < 2 ^ shifts) :
    digitBits shifts digit = Nat.size digit.toNat := by
  induction shifts generalizing digit with
  | zero =>
    have zero : digit.toNat = 0 := by simpa using small
    rw [digitBits, zero, Nat.size_zero]
  | succ shifts ih =>
    have shifted : (digit >>> 1).toNat = digit.toNat / 2 := by
      rw [BitVec.toNat_ushiftRight, Nat.shiftRight_eq_div_pow, Nat.pow_one]
    have half : digit.toNat / 2 < 2 ^ shifts := by
      rw [Nat.pow_succ] at small
      omega
    rw [digitBits]
    by_cases zero : digit = 0
    · rw [if_pos zero, zero, BitVec.ofNat_eq_ofNat, BitVec.toNat_ofNat, Nat.zero_mod, Nat.size_zero]
    · have nonzero : digit.toNat ≠ 0 := fun none => zero (BitVec.eq_of_toNat_eq (by simpa using none))
      rw [if_neg zero, ih _ (by rwa [shifted]), shifted, ← size_half nonzero]

theorem size_add_mul {low k top : Nat} (small : low < 2 ^ k) (nonzero : top ≠ 0) :
    Nat.size (low + 2 ^ k * top) = k + Nat.size top := by
  apply Nat.le_antisymm
  · rw [Nat.size_le, Nat.pow_add]
    have room : 2 ^ k * (top + 1) ≤ 2 ^ k * 2 ^ Nat.size top := Nat.mul_le_mul_left _ (Nat.lt_size_self top)
    rw [Nat.mul_succ] at room
    omega
  · have positive : 0 < Nat.size top := Nat.size_pos.mpr (Nat.pos_of_ne_zero nonzero)
    have leading : 2 ^ (Nat.size top - 1) ≤ top := Nat.lt_size.mp (by omega)
    have scaled : 2 ^ k * 2 ^ (Nat.size top - 1) ≤ 2 ^ k * top := Nat.mul_le_mul_left _ leading
    have below : k + (Nat.size top - 1) < Nat.size (low + 2 ^ k * top) := by
      rw [Nat.lt_size, Nat.pow_add]
      omega
    omega

theorem vliNumDigits_le (vli : Vli w) : vliNumDigits vli ≤ vli.length := by
  have bound := (List.dropWhile_sublist (l := vli.reverse) fun word => word == 0).length_le
  rwa [List.length_reverse] at bound

theorem vliNumBits_eq (vli : Vli w) : vliNumBits vli = Nat.size (value vli) := by
  induction vli using List.reverseRecOn with
  | nil => rfl
  | append_singleton low top ih =>
    by_cases zero : top = 0
    · -- a leading zero counts for nothing
      have digits : vliNumDigits (low ++ [top]) = vliNumDigits low := by
        rw [vliNumDigits, List.reverse_concat, List.dropWhile_cons_of_pos (by simpa using zero)]
        rfl
      have same : vliNumBits (low ++ [top]) = vliNumBits low := by
        rw [vliNumBits, vliNumBits, digits]
        by_cases none : vliNumDigits low = 0
        · rw [if_pos none, if_pos none]
        · have inside : vliNumDigits low - 1 < low.length := by
            have bound := vliNumDigits_le low
            omega
          rw [if_neg none, if_neg none, List.getD_append _ _ _ _ inside]
      rw [same, ih, value_concat, zero, BitVec.ofNat_eq_ofNat, BitVec.toNat_ofNat, Nat.zero_mod, Nat.mul_zero,
        Nat.add_zero]
    · have nonzero : top.toNat ≠ 0 := fun none => zero (BitVec.eq_of_toNat_eq (by simpa using none))
      have digits : vliNumDigits (low ++ [top]) = low.length + 1 := by
        rw [vliNumDigits, List.reverse_concat, List.dropWhile_cons_of_neg (by simpa using zero), List.length_cons,
          List.length_reverse]
      have bound := value_lt low
      rw [← Nat.pow_mul] at bound
      have found : (low ++ [top]).getD low.length 0 = top := by
        rw [List.getD_append_right _ _ _ _ (Nat.le_refl _), Nat.sub_self]
        rfl
      rw [vliNumBits, digits, if_neg (Nat.succ_ne_zero _), Nat.add_sub_cancel, found, digitBits_eq w top top.isLt,
        value_concat, ← Nat.pow_mul, size_add_mul bound nonzero, Nat.mul_comm w]

end Bits

end MicroEcc
