import Mathlib.Algebra.Group.Int.Defs
import Mathlib.Algebra.Group.Nat.Defs
import Mathlib.Data.List.Induction
import Mathlib.Logic.Function.Iterate

namespace ByteCounter

def number (bytes : List UInt8) : Nat :=
  bytes.foldl (fun total byte => 256 * total + byte.toNat) 0

def value {n : Nat} (bytes : Vector UInt8 n) : Nat := number bytes.toList

/-- Add one to the `i` leading bytes, walking from byte `i - 1` down and stopping at the first byte
    that takes the carry. -/
def rippleFrom {n : Nat} (bytes : Vector UInt8 n) : (i : Nat) → i ≤ n → Vector UInt8 n
  | 0, _ => bytes
  | i + 1, bound =>
    if bytes[i] = 255 then rippleFrom (bytes.set i 0) i (by omega)
    else bytes.set i (bytes[i] + 1)

def ripple {n : Nat} (bytes : Vector UInt8 n) : Vector UInt8 n := rippleFrom bytes n (Nat.le_refl n)

@[simp] theorem number_nil : number [] = 0 := rfl

theorem number_append_byte (bytes : List UInt8) (byte : UInt8) :
    number (bytes ++ [byte]) = 256 * number bytes + byte.toNat := by
  simp [number]

theorem number_lt (bytes : List UInt8) : number bytes < 256 ^ bytes.length := by
  induction bytes using List.reverseRecOn with
  | nil => decide
  | append_singleton bytes byte ih =>
    have bound := byte.toNat_lt
    rw [number_append_byte, List.length_append, List.length_singleton, Nat.pow_succ]
    omega

theorem value_lt {n : Nat} (bytes : Vector UInt8 n) : value bytes < 256 ^ n := by
  simpa [value] using number_lt bytes.toList

theorem rippleFrom_above {n : Nat} (bytes : Vector UInt8 n) (i : Nat) (bound : i ≤ n)
    (j : Nat) (above : i ≤ j) (inside : j < n) : (rippleFrom bytes i bound)[j] = bytes[j] := by
  induction i generalizing bytes with
  | zero => rfl
  | succ i ih =>
    unfold rippleFrom
    split
    · rw [ih _ (by omega) (by omega), Vector.getElem_set_ne _ _ (by omega)]
    · rw [Vector.getElem_set_ne _ _ (by omega)]

theorem take_succ {n : Nat} (bytes : Vector UInt8 n) (i : Nat) (inside : i < n) :
    bytes.toList.take (i + 1) = bytes.toList.take i ++ [bytes[i]] := by
  rw [List.take_succ_eq_append_getElem (by simpa using inside)]
  simp

theorem number_rippleFrom {n : Nat} (bytes : Vector UInt8 n) (i : Nat) (bound : i ≤ n) :
    number ((rippleFrom bytes i bound).toList.take i) =
      (number (bytes.toList.take i) + 1) % 256 ^ i := by
  induction i generalizing bytes with
  | zero => simp
  | succ i ih =>
    have below : number (bytes.toList.take i) < 256 ^ i := by
      have lt := number_lt (bytes.toList.take i)
      rwa [List.length_take, Vector.length_toList, Nat.min_eq_left (by omega)] at lt
    rw [take_succ _ i (by omega), take_succ _ i (by omega), number_append_byte, number_append_byte]
    by_cases full : bytes[i] = 255
    · have rest : rippleFrom bytes (i + 1) bound = rippleFrom (bytes.set i 0) i (by omega) := by
        simp [rippleFrom, full]
      have prefixSame : (bytes.set i 0).toList.take i = bytes.toList.take i := by
        rw [Vector.toList_set, List.take_set_of_le (Nat.le_refl i)]
      rw [rest, rippleFrom_above _ _ _ i (Nat.le_refl i) (by omega), ih, prefixSame, full,
        Vector.getElem_set_self, Nat.pow_succ, Nat.mul_comm (256 ^ i)]
      change 256 * ((number (bytes.toList.take i) + 1) % 256 ^ i) + 0 = _
      rw [Nat.add_zero, ← Nat.mul_mod_mul_left]
      congr 1
    · have rest : rippleFrom bytes (i + 1) bound = bytes.set i (bytes[i] + 1) := by
        simp [rippleFrom, full]
      have prefixSame : (bytes.set i (bytes[i] + 1)).toList.take i = bytes.toList.take i := by
        rw [Vector.toList_set, List.take_set_of_le (Nat.le_refl i)]
      have small : bytes[i].toNat < 255 := by
        have lt := bytes[i].toNat_lt
        have ne : bytes[i].toNat ≠ 255 := fun same => full (UInt8.toNat_inj.mp same)
        omega
      have carried : (bytes[i] + 1).toNat = bytes[i].toNat + 1 := by
        rw [UInt8.toNat_add]
        exact Nat.mod_eq_of_lt (by simp; omega)
      rw [rest, prefixSame, Vector.getElem_set_self, carried, Nat.mod_eq_of_lt]
      · omega
      · rw [Nat.pow_succ]; omega

/-- Stepping the counter is addition of one modulo `256 ^ n`, through any number of carries. -/
theorem value_ripple {n : Nat} (bytes : Vector UInt8 n) :
    value (ripple bytes) = (value bytes + 1) % 256 ^ n := by
  have whole := number_rippleFrom bytes n (Nat.le_refl n)
  rwa [List.take_of_length_le (by simp), List.take_of_length_le (by simp)] at whole

theorem value_iterate {n : Nat} (bytes : Vector UInt8 n) (steps : Nat) :
    value (ripple^[steps] bytes) = (value bytes + steps) % 256 ^ n := by
  induction steps with
  | zero => simp [Nat.mod_eq_of_lt (value_lt bytes)]
  | succ steps ih =>
    rw [Function.iterate_succ_apply', value_ripple, ih, Nat.mod_add_mod, Nat.add_assoc]

theorem iterate_ne {n : Nat} (bytes : Vector UInt8 n) (steps : Nat) (moved : 0 < steps)
    (few : steps < 256 ^ n) : ripple^[steps] bytes ≠ bytes := by
  intro same
  have counted := value_iterate bytes steps
  rw [same] at counted
  have start := value_lt bytes
  by_cases wraps : value bytes + steps < 256 ^ n
  · rw [Nat.mod_eq_of_lt wraps] at counted
    omega
  · rw [Nat.mod_eq_sub_mod (by omega), Nat.mod_eq_of_lt (by omega)] at counted
    omega

theorem iterate_distinct {n : Nat} (bytes : Vector UInt8 n) {j k : Nat} (ordered : j < k)
    (few : k < 256 ^ n) : ripple^[j] bytes ≠ ripple^[k] bytes := by
  intro same
  have onward : ripple^[k] bytes = ripple^[k - j] (ripple^[j] bytes) := by
    rw [← Function.iterate_add_apply, Nat.sub_add_cancel (by omega)]
  rw [onward] at same
  exact iterate_ne (ripple^[j] bytes) (k - j) (by omega) (by omega) same.symm

/-- Counter values taken at increasing numbers of steps do not repeat before the counter wraps. -/
theorem nodup_iterates {n : Nat} (bytes : Vector UInt8 n) {steps : List Nat}
    (increasing : steps.Pairwise (· < ·)) (few : ∀ k ∈ steps, k < 256 ^ n) :
    (steps.map fun k => ripple^[k] bytes).Nodup := by
  rw [List.Nodup, List.pairwise_map]
  apply increasing.imp_of_mem
  intro j k _ last ordered
  exact iterate_distinct bytes ordered (few k last)

theorem ripple_ne {n : Nat} (bytes : Vector UInt8 n) (nonempty : 0 < n) : ripple bytes ≠ bytes :=
  iterate_ne bytes 1 (by decide) (Nat.one_lt_pow (by omega) (by decide))

end ByteCounter
