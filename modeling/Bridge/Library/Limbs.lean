import Mathlib.Algebra.Order.Ring.Nat
import Mathlib.Tactic.Linarith
import Mathlib.Tactic.Ring

namespace Limbs

variable {w : Nat}

/-- The number that little-endian words of `w` bits stand for. -/
def value : List (BitVec w) → Nat
  | [] => 0
  | word :: words => word.toNat + 2 ^ w * value words

@[simp]
theorem value_nil : value ([] : List (BitVec w)) = 0 := rfl

theorem value_cons (word : BitVec w) (words : List (BitVec w)) :
    value (word :: words) = word.toNat + 2 ^ w * value words := rfl

theorem value_lt (words : List (BitVec w)) : value words < (2 ^ w) ^ words.length := by
  induction words with
  | nil => exact Nat.one_pos
  | cons word words ih =>
    have low := word.isLt
    have room : 2 ^ w * (value words + 1) ≤ 2 ^ w * (2 ^ w) ^ words.length := Nat.mul_le_mul_left _ ih
    rw [value_cons, List.length_cons, Nat.pow_succ']
    rw [Nat.mul_succ] at room
    omega

theorem value_append (low high : List (BitVec w)) :
    value (low ++ high) = value low + (2 ^ w) ^ low.length * value high := by
  induction low with
  | nil => rw [List.nil_append, value_nil, List.length_nil, Nat.pow_zero, Nat.one_mul, Nat.zero_add]
  | cons word low ih =>
    rw [List.cons_append, value_cons, value_cons, ih, List.length_cons, Nat.pow_succ', Nat.mul_add, Nat.add_assoc,
      Nat.mul_assoc]

theorem value_concat (words : List (BitVec w)) (top : BitVec w) :
    value (words ++ [top]) = value words + (2 ^ w) ^ words.length * top.toNat := by
  rw [value_append, value_cons, value_nil, Nat.mul_zero, Nat.add_zero]

theorem value_replicate_zero (n : Nat) : value (List.replicate n (0 : BitVec w)) = 0 := by
  induction n with
  | zero => rfl
  | succ n ih => rw [List.replicate_succ, value_cons, ih, Nat.mul_zero, Nat.add_zero, BitVec.ofNat_eq_ofNat, BitVec.toNat_ofNat, Nat.zero_mod]

theorem value_split (word : BitVec w) (words : List (BitVec w)) :
    value (word :: words) % 2 ^ w = word.toNat ∧ value (word :: words) / 2 ^ w = value words := by
  have low := word.isLt
  rw [value_cons]
  constructor
  · rw [Nat.add_mul_mod_self_left, Nat.mod_eq_of_lt low]
  · rw [Nat.add_mul_div_left _ _ (Nat.two_pow_pos w), Nat.div_eq_of_lt low, Nat.zero_add]

theorem value_injective {left right : List (BitVec w)} (lengths : left.length = right.length)
    (same : value left = value right) : left = right := by
  induction left generalizing right with
  | nil => exact (List.length_eq_zero_iff.mp lengths.symm).symm
  | cons word words ih =>
    cases right with
    | nil => cases lengths
    | cons word' words' =>
      obtain ⟨low, high⟩ := value_split word words
      obtain ⟨low', high'⟩ := value_split word' words'
      rw [same] at low high
      have heads : word = word' := BitVec.eq_of_toNat_eq (low.symm.trans low')
      have tails : words = words' := ih (Nat.succ.inj lengths) (high.symm.trans high')
      rw [heads, tails]

theorem value_eq_zero_iff (words : List (BitVec w)) : value words = 0 ↔ ∀ word ∈ words, word = 0 := by
  induction words with
  | nil => simp
  | cons word words ih =>
    rw [value_cons, Nat.add_eq_zero_iff, Nat.mul_eq_zero, ih, List.forall_mem_cons]
    have positive := Nat.two_pow_pos w
    constructor
    · intro zero
      obtain ⟨low, high⟩ := zero
      exact ⟨BitVec.eq_of_toNat_eq (by simpa using low), high.resolve_left (by omega)⟩
    · intro zero
      obtain ⟨low, high⟩ := zero
      exact ⟨by simp [low], Or.inr high⟩

def ofNat (w : Nat) : (n : Nat) → Nat → List (BitVec w)
  | 0, _ => []
  | n + 1, value => BitVec.ofNat w value :: ofNat w n (value / 2 ^ w)

@[simp]
theorem ofNat_length (n value : Nat) : (ofNat w n value).length = n := by
  induction n generalizing value with
  | zero => rfl
  | succ n ih => rw [ofNat, List.length_cons, ih]

theorem value_ofNat (n number : Nat) : value (ofNat w n number) = number % (2 ^ w) ^ n := by
  induction n generalizing number with
  | zero => rw [Nat.pow_zero, Nat.mod_one]; rfl
  | succ n ih => rw [ofNat, value_cons, ih, BitVec.toNat_ofNat, Nat.pow_succ', Nat.mod_mul]

end Limbs
