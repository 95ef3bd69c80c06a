import Mathlib.Data.List.Prime
import Mathlib.NumberTheory.LucasPrimality

namespace Lucas

/-- The power by squaring, over the low `bits` bits of the exponent. -/
def powMod (m : Nat) : Nat → Nat → Nat → Nat
  | 0, _, _ => 1 % m
  | bits + 1, a, n =>
    let rest := powMod m bits (a * a % m) (n / 2)
    if n % 2 = 1 then a * rest % m else rest

theorem powMod_eq (m bits a n : Nat) (small : n < 2 ^ bits) : powMod m bits a n = a ^ n % m := by
  induction bits generalizing a n with
  | zero =>
    have none : n = 0 := by simpa using small
    rw [powMod, none, Nat.pow_zero]
  | succ bits ih =>
    have half : n / 2 < 2 ^ bits := by
      rw [Nat.pow_succ] at small
      omega
    have square : (a * a % m) ^ (n / 2) % m = a ^ (2 * (n / 2)) % m := by
      rw [← Nat.pow_mod, Nat.pow_mul, Nat.pow_two]
    simp only [powMod, ih _ _ half, square]
    by_cases odd : n % 2 = 1
    · have whole : n = 2 * (n / 2) + 1 := by omega
      rw [if_pos odd, Nat.mul_mod_mod]
      conv_rhs => rw [whole, Nat.pow_succ, Nat.mul_comm]
    · have whole : n = 2 * (n / 2) := by omega
      rw [if_neg odd]
      conv_rhs => rw [whole]

/-- The test for a number `p` below `2 ^ bits` with the prime factors of `p - 1`. -/
def check (bits p a : Nat) (factors : List Nat) : Bool :=
  1 < p && p < 2 ^ bits && factors.prod + 1 == p && powMod p bits a (p - 1) == 1 &&
    factors.all fun q => powMod p bits a ((p - 1) / q) != 1

theorem cast_pow_eq_one_iff {p : Nat} (large : 1 < p) (a n : Nat) : (a : ZMod p) ^ n = 1 ↔ a ^ n % p = 1 := by
  rw [← Nat.cast_pow, ← Nat.cast_one, ZMod.natCast_eq_natCast_iff', Nat.mod_eq_of_lt large]

theorem prime_of_check (bits : Nat) {p : Nat} (a : Nat) (factors : List Nat) (primes : ∀ q ∈ factors, q.Prime)
    (passed : check bits p a factors = true) : p.Prime := by
  simp only [check, Bool.and_eq_true, decide_eq_true_eq, beq_iff_eq, List.all_eq_true, bne_iff_ne, ne_eq] at passed
  obtain ⟨⟨⟨⟨large, fits⟩, product⟩, full⟩, parts⟩ := passed
  have inside : ∀ n, n ≤ p - 1 → n < 2 ^ bits := fun n below => by omega
  apply lucas_primality p (a : ZMod p)
  · rw [cast_pow_eq_one_iff large, ← powMod_eq p bits a _ (inside _ (Nat.le_refl _))]
    exact full
  · intro q prime divides
    have whole : factors.prod = p - 1 := by omega
    rw [← whole] at divides
    obtain ⟨factor, member, divides⟩ := prime.prime.dvd_prod_iff.mp divides
    have same : q = factor := (Nat.prime_dvd_prime_iff_eq prime (primes factor member)).mp divides
    rw [same, Ne, cast_pow_eq_one_iff large, ← powMod_eq p bits a _ (inside _ (Nat.div_le_self _ _))]
    exact parts factor member

end Lucas
