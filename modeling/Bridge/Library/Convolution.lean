import Bridge.Library.Limbs
import Mathlib.Algebra.Polynomial.Eval.Degree
import Mathlib.Algebra.Polynomial.BigOperators
import Mathlib.Algebra.BigOperators.NatAntidiagonal
import Mathlib.Data.List.GetD

namespace Limbs

open Finset Polynomial

def column (a b : Nat → Nat) (k : Nat) : Nat := ∑ i ∈ range (k + 1), a i * b (k - i)

section Convolution

variable {n : Nat} {a b : Nat → Nat} (aShort : ∀ i, n ≤ i → a i = 0) (bShort : ∀ i, n ≤ i → b i = 0) (base : Nat)

noncomputable def digitPolynomial (n : Nat) (a : Nat → Nat) : ℕ[X] := ∑ i ∈ range n, C (a i) * X ^ i

theorem digitPolynomial_eval (n : Nat) (a : Nat → Nat) :
    (digitPolynomial n a).eval base = ∑ i ∈ range n, a i * base ^ i := by
  simp [digitPolynomial, eval_finsetSum]

include aShort in
theorem digitPolynomial_coeff (i : Nat) : (digitPolynomial n a).coeff i = a i := by
  rw [digitPolynomial, finsetSum_coeff]
  simp only [coeff_C_mul_X_pow, Finset.sum_ite_eq, mem_range]
  split
  · rfl
  · rename_i outside
    exact (aShort i (Nat.not_lt.mp outside)).symm

theorem digitPolynomial_degree (n : Nat) (a : Nat → Nat) : (digitPolynomial n a).natDegree ≤ n - 1 := by
  apply natDegree_sum_le_of_forall_le
  intro i member
  have inside := mem_range.mp member
  exact Nat.le_trans (natDegree_C_mul_X_pow_le _ _) (Nat.le_sub_one_of_lt inside)

include aShort bShort in
/-- Schoolbook multiplication, column by column. -/
theorem sum_mul_sum_eq_columns (positive : 0 < n) :
    (∑ i ∈ range n, a i * base ^ i) * (∑ i ∈ range n, b i * base ^ i) =
      ∑ k ∈ range (2 * n - 1), column a b k * base ^ k := by
  have degree : (digitPolynomial n a * digitPolynomial n b).natDegree < 2 * n - 1 := by
    have left := digitPolynomial_degree n a
    have right := digitPolynomial_degree n b
    have product := natDegree_mul_le (p := digitPolynomial n a) (q := digitPolynomial n b)
    omega
  rw [← digitPolynomial_eval, ← digitPolynomial_eval, ← eval_mul, eval_eq_sum_range' degree]
  apply Finset.sum_congr rfl
  intro k _
  rw [coeff_mul, Finset.Nat.sum_antidiagonal_eq_sum_range_succ_mk, column]
  simp only [digitPolynomial_coeff aShort, digitPolynomial_coeff bShort]

end Convolution

variable {w : Nat}

def digit (words : List (BitVec w)) (i : Nat) : Nat := (words.getD i 0).toNat

theorem digit_outside (words : List (BitVec w)) {i : Nat} (outside : words.length ≤ i) : digit words i = 0 := by
  rw [digit, List.getD_eq_default _ _ outside, BitVec.ofNat_eq_ofNat, BitVec.toNat_ofNat, Nat.zero_mod]

theorem digit_lt (words : List (BitVec w)) (i : Nat) : digit words i < 2 ^ w := (words.getD i 0).isLt

theorem value_eq_sum (words : List (BitVec w)) :
    value words = ∑ i ∈ range words.length, digit words i * (2 ^ w) ^ i := by
  induction words with
  | nil => rfl
  | cons word words ih =>
    rw [value_cons, ih, List.length_cons, Finset.sum_range_succ', Finset.mul_sum, Nat.add_comm]
    have shifted : ∀ i, digit (word :: words) (i + 1) = digit words i := fun i => rfl
    have first : digit (word :: words) 0 = word.toNat := rfl
    simp only [shifted, first, Nat.pow_zero, Nat.mul_one]
    congr 1
    apply Finset.sum_congr rfl
    intro i _
    rw [Nat.pow_succ']
    exact Nat.mul_left_comm _ _ _

theorem value_mul_value {left right : List (BitVec w)} (lengths : left.length = right.length)
    (positive : 0 < left.length) :
    value left * value right =
      ∑ k ∈ range (2 * left.length - 1), column (digit left) (digit right) k * (2 ^ w) ^ k := by
  rw [value_eq_sum left, value_eq_sum right, ← lengths]
  exact sum_mul_sum_eq_columns (fun i => digit_outside left) (fun i outside => digit_outside right (lengths ▸ outside))
    (2 ^ w) positive

end Limbs
