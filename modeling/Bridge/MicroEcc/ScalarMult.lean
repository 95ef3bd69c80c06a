import Bridge.MicroEcc.Point

namespace MicroEcc

open Limbs CoZ

section Bits

theorem bit_step (number k : Nat) : 2 * (number / 2 ^ (k + 1)) + (number.testBit k).toNat = number / 2 ^ k := by
  have bit := Nat.toNat_testBit number k
  rw [bit, Nat.pow_succ, ← Nat.div_div_eq_div_mul]
  omega

theorem number_loopBits (scalar i : Nat) : number (scalar / 2 ^ (i + 1)) (loopBits scalar i) = scalar / 2 := by
  induction i with
  | zero => rfl
  | succ i ih =>
    rw [loopBits, number, List.foldl_cons, bit_step]
    exact ih

variable {F : Type*} [Field F] [DecidableEq F] {W : WeierstrassCurve.Affine F} {P : W.Point}

theorem clearAll_loopBits (scalar i : Nat) (clear : ∀ k, 2 ≤ k → k ≤ i + 1 → Clear P (scalar / 2 ^ k)) :
    ClearAll P (scalar / 2 ^ (i + 1)) (loopBits scalar i) := by
  induction i with
  | zero => trivial
  | succ i ih =>
    refine ⟨clear (i + 2) (by omega) (Nat.le_refl _), ?_⟩
    rw [bit_step]
    exact ih fun k low high => clear k low (by omega)

theorem loopBits_congr {scalar scalar' : Nat} (i : Nat) (same : ∀ k ≤ i, scalar.testBit k = scalar'.testBit k) :
    loopBits scalar i = loopBits scalar' i := by
  induction i with
  | zero => rfl
  | succ i ih => rw [loopBits, loopBits, same (i + 1) (Nat.le_refl _), ih fun k low => same k (by omega)]

theorem testBit_congr {scalar scalar' bits k : Nat} (same : scalar % 2 ^ bits = scalar' % 2 ^ bits) (inside : k < bits) :
    scalar.testBit k = scalar'.testBit k := by
  have bit := congrArg (·.testBit k) same
  simpa [Nat.testBit_mod_two_pow, inside] using bit

end Bits

variable {w p : Nat} {curve : Curve w} (sound : curve.Sound p) [Fact p.Prime]

section Collision

def distinctLoop (scalar : Vli w) (curve : Curve w) : Nat → Rungs w → Option (Rungs w)
  | 0, r => some r
  | i + 1, r =>
    let nb := !vliTestBit scalar (i + 1)
    let crossed := r.addC nb curve
    if r.r0.x = r.r1.x ∨ crossed.r0.x = crossed.r1.x then none else distinctLoop scalar curve i (crossed.add nb curve)

include sound in
theorem distinctLoop_distinct (scalar : Vli w) (i : Nat)
    {r final : Rungs w} {s : Pair (ZMod p)} (stands : RungsStand curve r s)
    (ran : distinctLoop scalar curve i r = some final) :
    Distinct (loopBits (value scalar) i) s ∧ final = ladderLoop scalar curve i r := by
  have apart : ∀ {r : Rungs w} {s : Pair (ZMod p)}, RungsStand curve r s → r.r0.x ≠ r.r1.x → s.r0.x ≠ s.r1.x := by
    intro r s stands differ same
    have alike := stands.r0.x
    rw [same] at alike
    exact differ (alike.unique stands.r1.x)
  induction i generalizing r s with
  | zero =>
    rw [distinctLoop, Option.some.injEq] at ran
    exact ⟨trivial, ran.symm⟩
  | succ i ih =>
    have crossed := addC_stands sound stands ((value scalar).testBit (i + 1))
    simp only [distinctLoop, vliTestBit_value sound.positive] at ran
    by_cases collided : r.r0.x = r.r1.x ∨ (r.addC (!(value scalar).testBit (i + 1)) curve).r0.x =
        (r.addC (!(value scalar).testBit (i + 1)) curve).r1.x
    · rw [if_pos collided] at ran
      cases ran
    · rw [if_neg collided] at ran
      obtain ⟨differ, differ'⟩ := not_or.mp collided
      obtain ⟨rest, last⟩ := ih (add_stands sound crossed _) ran
      refine ⟨⟨apart stands differ, apart crossed differ', rest⟩, ?_⟩
      rw [ladderLoop, vliTestBit_value sound.positive]
      exact last

include sound in
theorem distinctLoop_collision {b t : ZMod p} {P : (shortCurve (-3) b).Point} {c : Coords (ZMod p)} (atP : IsAt 1 c P)
    (twice : (2 : ℕ) • P ≠ 0) (nonzero : t ≠ 0) {r final : Rungs w} (started : RungsStand curve r (start (-3) c t))
    {scalar : Vli w} {i : Nat} (top : value scalar / 2 ^ (i + 1) = 1) (ran : distinctLoop scalar curve i r = some final)
    (same : final.r0.x = final.r1.x) : (2 * (value scalar / 2) + 1) • P = 0 := by
  have short := shortCurve_short (-3) b (two_ne_zero' sound)
  obtain ⟨distinct, rfl⟩ := distinctLoop_distinct sound scalar i started ran
  have climbed := ladderLoop_stands sound scalar i started
  obtain ⟨z, spans⟩ := start_at short atP nonzero twice
  obtain ⟨z', spans'⟩ := rungs_at short _ spans distinct
  have seen := number_loopBits (value scalar) i
  have alike := climbed.r0.x
  rw [same] at alike
  have collided := spans'.collision atP.ne_zero (alike.unique' climbed.r1.x)
  rw [top] at seen
  rwa [seen] at collided

end Collision

section Mult

variable {b : ZMod p} {P : (shortCurve (-3) b).Point} {point : EccPoint w} {c : Coords (ZMod p)}
  (stands : Stands curve point c) {scalar : Vli w} {initialZ : Option (Vli w)} {t : ZMod p}
  (isZ : Is curve (initialZ.getD ((vliClear w curve.numWords).set 0 1)) t) (nonzero : t ≠ 0)
  {numBits : Nat} (many : 2 ≤ numBits) {k : Nat} (top : k / 2 ^ (numBits - 1) = 1)
  (bits : value scalar % 2 ^ (numBits - 1) = k % 2 ^ (numBits - 1))

include sound stands isZ nonzero

theorem eccPointMult_of_x_zero (x : c.x = 0) : Stands curve (eccPointMult point scalar initialZ numBits curve) (0 : Coords (ZMod p)) := by
  have mult := eccPointMult_stands sound stands scalar initialZ isZ nonzero numBits
  rwa [ladder_of_x_zero _ _ _ _ x] at mult

include many bits

theorem eccPointMult_ladder : Stands curve (eccPointMult point scalar initialZ numBits curve)
    (ladder (-3) c t (loopBits k (numBits - 2)) (k.testBit 0)) := by
  have mult := eccPointMult_stands sound stands scalar initialZ isZ nonzero numBits
  have same : ∀ i ≤ numBits - 2, (value scalar).testBit i = k.testBit i := fun i inside => testBit_congr bits (by omega)
  rwa [loopBits_congr _ same, same 0 (Nat.zero_le _)] at mult

include top

/-- The words hold the multiple of the point where no sum on the way is at infinity. -/
theorem eccPointMult_at (atP : IsAt 1 c P) (x : c.x ≠ 0) (twice : (2 : ℕ) • P ≠ 0)
    (clear : ∀ i, 1 ≤ i → i ≤ numBits - 1 → Clear P (k / 2 ^ i)) :
    ∃ c' : Coords (ZMod p), Stands curve (eccPointMult point scalar initialZ numBits curve) c' ∧ IsAt 1 c' (k • P) := by
  have mult := eccPointMult_ladder sound stands isZ nonzero many bits
  have seen := number_loopBits k (numBits - 2)
  have length : numBits - 2 + 1 = numBits - 1 := by omega
  have clearAll := clearAll_loopBits k (numBits - 2) fun i low high => clear i (by omega) (by omega)
  have last := clear 1 (Nat.le_refl 1) (by omega)
  rw [length, top] at seen clearAll
  rw [Nat.pow_one, ← seen] at last
  have climbed := ladder_at (shortCurve_short (-3) b (two_ne_zero' sound)) atP nonzero x twice
    (loopBits k (numBits - 2)) (k.testBit 0) clearAll last
  have whole := bit_step k 0
  rw [Nat.pow_one, Nat.pow_zero, Nat.div_one] at whole
  rw [seen, whole] at climbed
  exact ⟨_, mult, climbed⟩

theorem eccPointMult_infinity (atP : IsAt 1 c P) (twice : (2 : ℕ) • P ≠ 0) (many' : 3 ≤ numBits)
    (clear : ∀ i, 3 ≤ i → i ≤ numBits - 1 → Clear P (k / 2 ^ i)) (sum : (2 * (k / 4) + 1) • P = 0) :
    Stands curve (eccPointMult point scalar initialZ numBits curve) (0 : Coords (ZMod p)) := by
  have mult := eccPointMult_ladder sound stands isZ nonzero many bits
  obtain ⟨m, rfl⟩ : ∃ m, numBits = m + 3 := ⟨numBits - 3, by omega⟩
  have split : ∀ m, loopBits k (m + 1) = loopBits (k / 2) m ++ [k.testBit 1] := by
    intro m
    induction m with
    | zero => rfl
    | succ m ih =>
      rw [loopBits, ih, loopBits, Nat.testBit_succ]
      rfl
  have seen := number_loopBits (k / 2) m
  have clearAll := clearAll_loopBits (P := P) (k / 2) m fun i low high => by
    rw [Nat.div_div_eq_div_mul, ← Nat.pow_succ']
    exact clear (i + 1) (by omega) (by omega)
  have leading : k / 2 / 2 ^ (m + 1) = 1 := by
    rw [Nat.div_div_eq_div_mul, ← Nat.pow_succ']
    exact top
  rw [leading] at seen clearAll
  have zero := ladder_infinity (shortCurve_short (-3) b (two_ne_zero' sound)) atP nonzero twice (loopBits (k / 2) m)
    (k.testBit 1) (k.testBit 0) clearAll (by rw [seen, Nat.div_div_eq_div_mul]; exact sum)
  rw [show m + 3 - 2 = m + 1 from rfl, split] at mult
  change ladder (-3) c t _ _ = 0 at zero
  rwa [zero] at mult

end Mult

end MicroEcc
