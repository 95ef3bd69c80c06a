import Mathlib.Data.Nat.ModEq
import Mathlib.Algebra.Order.Ring.Nat
import Mathlib.Data.Nat.Prime.Basic
import Mathlib.Tactic.Ring

namespace BinaryInverse

/-- The binary extended algorithm for an odd modulus: `u` and `v` follow the halvings and differences
    of `a` and `b`. -/
structure State where
  a : Nat
  b : Nat
  u : Nat
  v : Nat
deriving DecidableEq, Repr

variable (m : Nat)

def halve (u : Nat) : Nat := (if u % 2 = 0 then u else u + m) / 2

def subMod (u v : Nat) : Nat := (if u < v then u + m else u) - v

def step (s : State) : State :=
  if s.a % 2 = 0 then { s with a := s.a / 2, u := halve m s.u }
  else if s.b % 2 = 0 then { s with b := s.b / 2, v := halve m s.v }
  else if s.b < s.a then { s with a := (s.a - s.b) / 2, u := halve m (subMod m s.u s.v) }
  else { s with b := (s.b - s.a) / 2, v := halve m (subMod m s.v s.u) }

def run : Nat → State → State
  | 0, s => s
  | rounds + 1, s => if s.a = s.b then s else run rounds (step m s)

structure Sound (x : Nat) (s : State) : Prop where
  aPositive : 0 < s.a
  bPositive : 0 < s.b
  coprime : Nat.Coprime s.a s.b
  uLess : s.u < m
  vLess : s.v < m
  uMultiple : x * s.u ≡ s.a [MOD m]
  vMultiple : x * s.v ≡ s.b [MOD m]

variable {m} (odd : m % 2 = 1)

section Steps

include odd

theorem halve_spec {u : Nat} (less : u < m) : halve m u < m ∧ 2 * halve m u ≡ u [MOD m] := by
  by_cases even : u % 2 = 0
  · have twice : 2 * halve m u = u := by rw [halve, if_pos even]; omega
    exact ⟨by omega, by rw [twice]⟩
  · have twice : 2 * halve m u = u + m := by rw [halve, if_neg even]; omega
    refine ⟨by omega, ?_⟩
    rw [twice]
    exact Nat.add_modEq_right

theorem two_cancel {c d : Nat} (same : 2 * c ≡ 2 * d [MOD m]) : c ≡ d [MOD m] := by
  have coprime : Nat.gcd m 2 = 1 := Nat.coprime_two_right.mpr (Nat.odd_iff.mpr odd)
  exact Nat.ModEq.cancel_left_of_coprime coprime same

theorem halve_multiple {x u c : Nat} (less : u < m) (multiple : x * u ≡ 2 * c [MOD m]) : x * halve m u ≡ c [MOD m] := by
  apply two_cancel odd
  have half := (halve_spec odd less).2.mul_left x
  rw [Nat.mul_left_comm] at half
  exact half.trans multiple

omit odd in
theorem subMod_spec {u v : Nat} (uLess : u < m) (vLess : v < m) :
    subMod m u v < m ∧ subMod m u v + v ≡ u [MOD m] := by
  by_cases below : u < v
  · have sum : subMod m u v + v = u + m := by rw [subMod, if_pos below]; omega
    refine ⟨by rw [subMod, if_pos below]; omega, ?_⟩
    rw [sum]
    exact Nat.add_modEq_right
  · have sum : subMod m u v + v = u := by rw [subMod, if_neg below]; omega
    exact ⟨by omega, by rw [sum]⟩

omit odd in
theorem subMod_multiple {x u v a b : Nat} (uLess : u < m) (vLess : v < m) (below : b ≤ a)
    (uMultiple : x * u ≡ a [MOD m]) (vMultiple : x * v ≡ b [MOD m]) : x * subMod m u v ≡ a - b [MOD m] := by
  have total := (subMod_spec uLess vLess).2.mul_left x
  rw [Nat.mul_add] at total
  have whole : x * subMod m u v + x * v ≡ a - b + b [MOD m] := by
    rw [Nat.sub_add_cancel below]
    exact total.trans uMultiple
  exact Nat.ModEq.add_right_cancel vMultiple whole

theorem difference_sound {x a b u v : Nat} (aOdd : a % 2 = 1) (bOdd : b % 2 = 1) (more : b < a)
    (coprime : Nat.Coprime a b) (uLess : u < m) (vLess : v < m) (uMultiple : x * u ≡ a [MOD m])
    (vMultiple : x * v ≡ b [MOD m]) :
    0 < (a - b) / 2 ∧ Nat.Coprime ((a - b) / 2) b ∧ halve m (subMod m u v) < m ∧
      x * halve m (subMod m u v) ≡ (a - b) / 2 [MOD m] ∧ 2 * ((a - b) / 2 * b) ≤ a * b := by
  have twice : 2 * ((a - b) / 2) = a - b := by omega
  have less := (subMod_spec uLess vLess).1
  refine ⟨by omega, ?_, (halve_spec odd less).1, ?_, ?_⟩
  · have reduced : Nat.Coprime (2 * ((a - b) / 2)) b := by
      rw [twice, Nat.coprime_sub_self_left (Nat.le_of_lt more)]
      exact coprime
    exact Nat.Coprime.coprime_mul_left reduced
  · apply halve_multiple odd less
    rw [twice]
    exact subMod_multiple uLess vLess (Nat.le_of_lt more) uMultiple vMultiple
  · rw [← Nat.mul_assoc, twice]
    exact Nat.mul_le_mul_right b (Nat.sub_le a b)

/-- One round keeps the multiples and halves the product at least. -/
theorem step_sound {x : Nat} {s : State} (sound : Sound m x s) (differ : s.a ≠ s.b) :
    Sound m x (step m s) ∧ 2 * ((step m s).a * (step m s).b) ≤ s.a * s.b := by
  obtain ⟨aPositive, bPositive, coprime, uLess, vLess, uMultiple, vMultiple⟩ := sound
  rw [step]
  by_cases aEven : s.a % 2 = 0
  · have twice : 2 * (s.a / 2) = s.a := by omega
    rw [if_pos aEven]
    constructor
    · refine ⟨?_, bPositive, ?_, (halve_spec odd uLess).1, vLess, ?_, vMultiple⟩
      · change 0 < s.a / 2
        omega
      · exact Nat.Coprime.coprime_mul_left (by rwa [twice])
      · exact halve_multiple odd uLess (by rwa [twice])
    · change 2 * (s.a / 2 * s.b) ≤ s.a * s.b
      rw [← Nat.mul_assoc, twice]
  · rw [if_neg aEven]
    by_cases bEven : s.b % 2 = 0
    · have twice : 2 * (s.b / 2) = s.b := by omega
      rw [if_pos bEven]
      constructor
      · refine ⟨aPositive, ?_, ?_, uLess, (halve_spec odd vLess).1, uMultiple, ?_⟩
        · change 0 < s.b / 2
          omega
        · exact Nat.Coprime.coprime_mul_left_right (by rwa [twice])
        · exact halve_multiple odd vLess (by rwa [twice])
      · change 2 * (s.a * (s.b / 2)) ≤ s.a * s.b
        rw [Nat.mul_left_comm, twice]
    · rw [if_neg bEven]
      by_cases more : s.b < s.a
      · obtain ⟨positive, apart, less, multiple, smaller⟩ := difference_sound odd (by omega) (by omega) more coprime uLess
          vLess uMultiple vMultiple
        rw [if_pos more]
        exact ⟨⟨positive, bPositive, apart, less, vLess, multiple, vMultiple⟩, smaller⟩
      · obtain ⟨positive, apart, less, multiple, smaller⟩ := difference_sound odd (by omega) (by omega)
          (Nat.lt_of_le_of_ne (Nat.not_lt.mp more) differ) coprime.symm vLess uLess vMultiple uMultiple
        rw [if_neg more]
        refine ⟨⟨aPositive, positive, apart.symm, uLess, less, uMultiple, multiple⟩, ?_⟩
        rw [Nat.mul_comm] at smaller
        rw [Nat.mul_comm s.a s.b, Nat.mul_comm]
        change (s.a * ((s.b - s.a) / 2)) * 2 ≤ _
        rwa [Nat.mul_comm s.a]

/-- The loop ends with equal numbers, and then `u` is the inverse. -/
theorem run_inverse {x : Nat} (rounds : Nat) {s : State} (sound : Sound m x s) (few : s.a * s.b < 2 ^ rounds) :
    (run m rounds s).a = (run m rounds s).b ∧ (run m rounds s).u < m ∧ x * (run m rounds s).u ≡ 1 [MOD m] := by
  induction rounds generalizing s with
  | zero =>
    have positive := Nat.mul_pos sound.aPositive sound.bPositive
    omega
  | succ rounds ih =>
    rw [run]
    by_cases same : s.a = s.b
    · have one : s.a = 1 := by
        have coprime := sound.coprime
        rwa [← same, Nat.coprime_self] at coprime
      rw [if_pos same]
      exact ⟨same, sound.uLess, one ▸ sound.uMultiple⟩
    · obtain ⟨next, smaller⟩ := step_sound odd sound same
      rw [if_neg same]
      apply ih next
      rw [Nat.pow_succ] at few
      omega

end Steps

end BinaryInverse
