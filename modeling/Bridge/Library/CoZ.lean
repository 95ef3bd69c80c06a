import Mathlib.AlgebraicGeometry.EllipticCurve.Affine.Point
import Mathlib.Tactic.FieldSimp
import Mathlib.Tactic.LinearCombination

namespace CoZ

open WeierstrassCurve.Affine

variable {F : Type*} [Field F]

@[ext]
structure Coords (F : Type*) where
  x : F
  y : F

instance : Zero (Coords F) := ⟨⟨0, 0⟩⟩

@[simp]
theorem zero_x : (0 : Coords F).x = 0 := rfl

@[simp]
theorem zero_y : (0 : Coords F).y = 0 := rfl

def applyZ (c : Coords F) (z : F) : Coords F := ⟨c.x * z ^ 2, c.y * z ^ 3⟩

/-- The first point under the new denominator, and the sum. -/
def add (p q : Coords F) : Coords F × Coords F :=
  let b := p.x * (q.x - p.x) ^ 2
  let c := q.x * (q.x - p.x) ^ 2
  let x := (q.y - p.y) ^ 2 - b - c
  (⟨b, p.y * (c - b)⟩, ⟨x, (q.y - p.y) * (b - x) - p.y * (c - b)⟩)

/-- The difference and the sum. -/
def addC (p q : Coords F) : Coords F × Coords F :=
  let b := p.x * (q.x - p.x) ^ 2
  let c := q.x * (q.x - p.x) ^ 2
  let x := (q.y - p.y) ^ 2 - (b + c)
  let x' := (q.y + p.y) ^ 2 - (b + c)
  (⟨x', (x' - b) * (q.y + p.y) - p.y * (c - b)⟩, ⟨x, (q.y - p.y) * (b - x) - p.y * (c - b)⟩)

/-- The double, and its denominator. -/
def double (a : F) (c : Coords F) (z : F) : Coords F × F :=
  let s := c.x * c.y ^ 2
  let m := (3 * c.x ^ 2 + a * z ^ 4) / 2
  let x := m ^ 2 - s - s
  (⟨x, m * (s - x) - c.y ^ 4⟩, c.y * z)

structure Pair (F : Type*) where
  r0 : Coords F
  r1 : Coords F

/-- The point and its double. -/
def start (a : F) (point : Coords F) (z : F) : Pair F :=
  let doubled := double a (applyZ point z) z
  ⟨applyZ point doubled.2, doubled.1⟩

def cross (bit : Bool) (s : Pair F) : Pair F :=
  match bit with
  | true => ⟨(addC s.r1 s.r0).2, (addC s.r1 s.r0).1⟩
  | false => ⟨(addC s.r0 s.r1).1, (addC s.r0 s.r1).2⟩

def merge (bit : Bool) (s : Pair F) : Pair F :=
  match bit with
  | true => ⟨(add s.r0 s.r1).1, (add s.r0 s.r1).2⟩
  | false => ⟨(add s.r1 s.r0).2, (add s.r1 s.r0).1⟩

def rungs (bits : List Bool) (s : Pair F) : Pair F := bits.foldl (fun s bit => merge bit (cross bit s)) s

def Pair.side (s : Pair F) (bit : Bool) : Coords F :=
  match bit with
  | true => s.r1
  | false => s.r0

/-- The inverse of the last denominator, from the point itself. -/
def finalZ (point : Coords F) (bit : Bool) (s : Pair F) : F :=
  ((s.r1.x - s.r0.x) * (s.side bit).y * point.x)⁻¹ * point.y * (s.side bit).x

def ladder (a : F) (point : Coords F) (z : F) (bits : List Bool) (last : Bool) : Coords F :=
  let s := cross last (rungs bits (start a point z))
  applyZ (merge last s).r0 (finalZ point last s)

section Points

variable {W : WeierstrassCurve.Affine F}

structure Short (W : WeierstrassCurve.Affine F) : Prop where
  a₁ : W.a₁ = 0
  a₂ : W.a₂ = 0
  a₃ : W.a₃ = 0
  two : (2 : F) ≠ 0

def shortCurve (a b : F) : WeierstrassCurve.Affine F := ⟨0, 0, 0, a, b⟩

/-- The curves whose doubling saves a product. -/
abbrev minusThreeCurve (b : F) : WeierstrassCurve.Affine F := shortCurve (-3) b

theorem shortCurve_short (a b : F) (two : (2 : F) ≠ 0) : Short (shortCurve a b) := ⟨rfl, rfl, rfl, two⟩

theorem shortCurve_equation {a b x y : F} : (shortCurve a b).Equation x y ↔ y ^ 2 = x ^ 3 + a * x + b := by
  rw [equation_iff]
  simp only [shortCurve, zero_mul, add_zero]

/-- The coordinates stand for the point under the denominator `z`. -/
def IsAt (z : F) (c : Coords F) (P : W.Point) : Prop :=
  ∃ x y, ∃ on : W.Nonsingular x y, P = .some x y on ∧ c.x = x * z ^ 2 ∧ c.y = y * z ^ 3

variable {P Q : W.Point} {p q : Coords F} {z : F}

theorem IsAt.applyZ (at' : IsAt z p P) (t : F) : IsAt (z * t) (applyZ p t) P := by
  obtain ⟨x, y, on, rfl, px, py⟩ := at'
  refine ⟨x, y, on, rfl, ?_, ?_⟩
  · rw [CoZ.applyZ, px]
    ring
  · rw [CoZ.applyZ, py]
    ring

theorem IsAt.neg (short : Short W) (at' : IsAt z p P) : IsAt z ⟨p.x, -p.y⟩ (-P) := by
  obtain ⟨x, y, on, rfl, px, py⟩ := at'
  refine ⟨x, W.negY x y, (W.nonsingular_neg x y).mpr on, Point.neg_some on, px, ?_⟩
  rw [py, negY, short.a₁, short.a₃]
  ring

theorem IsAt.x_ne (nonzero : z ≠ 0) (atP : IsAt z p P) (atQ : IsAt z q Q) (differ : P ≠ Q) (differ' : P ≠ -Q) :
    p.x ≠ q.x := by
  obtain ⟨x₁, y₁, on₁, rfl, px, py⟩ := atP
  obtain ⟨x₂, y₂, on₂, rfl, qx, qy⟩ := atQ
  rw [px, qx]
  intro same
  have alike := mul_right_cancel₀ (pow_ne_zero 2 nonzero) same
  exact (Point.X_eq_iff.mp alike).elim differ differ'

variable [DecidableEq F]

theorem IsAt.add (short : Short W) (nonzero : z ≠ 0) (atP : IsAt z p P) (atQ : IsAt z q Q) (differ : p.x ≠ q.x) :
    IsAt (z * (q.x - p.x)) (add p q).1 P ∧ IsAt (z * (q.x - p.x)) (add p q).2 (P + Q) := by
  obtain ⟨x₁, y₁, on₁, rfl, px, py⟩ := atP
  obtain ⟨x₂, y₂, on₂, rfl, qx, qy⟩ := atQ
  have apart : x₁ ≠ x₂ := by
    rintro rfl
    exact differ (px.trans qx.symm)
  have apart' : x₁ - x₂ ≠ 0 := sub_ne_zero.mpr apart
  constructor
  · refine ⟨x₁, y₁, on₁, rfl, ?_, ?_⟩
    · simp only [CoZ.add, px, qx]
      ring
    · simp only [CoZ.add, px, py, qx]
      ring
  · refine ⟨_, _, _, Point.add_of_X_ne apart, ?_, ?_⟩
    · simp only [CoZ.add, px, py, qx, qy, addX, slope_of_X_ne apart, short.a₁, short.a₂]
      field_simp
      ring
    · simp only [CoZ.add, px, py, qx, qy, addY, negY, negAddY, addX, slope_of_X_ne apart, short.a₁, short.a₂, short.a₃]
      field_simp
      ring

theorem IsAt.addC (short : Short W) (nonzero : z ≠ 0) (atP : IsAt z p P) (atQ : IsAt z q Q) (differ : p.x ≠ q.x) :
    IsAt (z * (q.x - p.x)) (addC p q).1 (P - Q) ∧ IsAt (z * (q.x - p.x)) (addC p q).2 (P + Q) := by
  have sum := (atP.add short nonzero atQ differ).2
  have difference := (atP.add short nonzero (atQ.neg short) differ).2
  rw [← sub_eq_add_neg] at difference
  have first : (CoZ.addC p q).1 = (CoZ.add p ⟨q.x, -q.y⟩).2 := by
    ext
    · simp only [CoZ.addC, CoZ.add]
      ring
    · simp only [CoZ.addC, CoZ.add]
      ring
  have second : (CoZ.addC p q).2 = (CoZ.add p q).2 := by
    ext
    · simp only [CoZ.addC, CoZ.add]
      ring
    · simp only [CoZ.addC, CoZ.add]
      ring
  rw [first, second]
  exact ⟨difference, sum⟩

theorem IsAt.double (short : Short W) (nonzero : z ≠ 0) (atP : IsAt z p P) (twice : (2 : ℕ) • P ≠ 0) :
    p.y * z ≠ 0 ∧ (double W.a₄ p z).2 = p.y * z ∧ IsAt (p.y * z) (double W.a₄ p z).1 ((2 : ℕ) • P) := by
  obtain ⟨x, y, on, rfl, px, py⟩ := atP
  rw [two_nsmul] at twice ⊢
  have two := short.two
  have upright : y ≠ W.negY x y := fun same => twice (Point.add_self_of_Y_eq same)
  have height : y ≠ 0 := by
    rintro rfl
    apply upright
    rw [negY, short.a₁, short.a₃]
    ring
  have slope : y - W.negY x y = 2 * y := by
    rw [negY, short.a₁, short.a₃]
    ring
  refine ⟨?_, rfl, ?_⟩
  · rw [py]
    exact mul_ne_zero (mul_ne_zero height (pow_ne_zero 3 nonzero)) nonzero
  · refine ⟨_, _, _, Point.add_self_of_Y_ne upright, ?_, ?_⟩
    · simp only [CoZ.double, px, py, addX, slope_of_Y_ne rfl upright, slope, short.a₁, short.a₂]
      field_simp
      ring
    · simp only [CoZ.double, px, py, addY, negAddY, addX, slope_of_Y_ne rfl upright, slope]
      simp only [negY, short.a₁, short.a₂, short.a₃]
      field_simp
      ring

theorem two_nsmul_ne_zero (short : Short W) {x y : F} {on : W.Nonsingular x y} (height : y ≠ 0) :
    (2 : ℕ) • Point.some x y on ≠ 0 := by
  have upright : y ≠ W.negY x y := by
    intro same
    rw [negY, short.a₁, short.a₃, zero_mul, sub_zero, sub_zero, eq_neg_iff_add_eq_zero, ← two_mul] at same
    exact (mul_ne_zero short.two height) same
  rw [two_nsmul, Point.add_self_of_Y_ne upright]
  exact Point.some_ne_zero _

structure Spans (P : W.Point) (z : F) (j : Nat) (s : Pair F) : Prop where
  nonzero : z ≠ 0
  r0 : IsAt z s.r0 (j • P)
  r1 : IsAt z s.r1 ((j + 1) • P)

structure Clear (P : W.Point) (j : Nat) : Prop where
  low : (2 * j) • P ≠ 0
  sum : (2 * j + 1) • P ≠ 0
  high : (2 * j + 2) • P ≠ 0

def signed (bit : Bool) (P : W.Point) : W.Point :=
  match bit with
  | true => P
  | false => -P

def number (j : Nat) (bits : List Bool) : Nat := bits.foldl (fun j bit => 2 * j + bit.toNat) j

def ClearAll (P : W.Point) : Nat → List Bool → Prop
  | _, [] => True
  | j, bit :: bits => Clear P j ∧ ClearAll P (2 * j + bit.toNat) bits

omit [DecidableEq F] in
theorem IsAt.ne_zero (atP : IsAt z p P) : P ≠ 0 := by
  obtain ⟨x, y, on, rfl, _⟩ := atP
  exact Point.some_ne_zero on

theorem total_nsmul (P : W.Point) (j : Nat) : j • P + (j + 1) • P = (2 * j + 1) • P := by
  rw [← add_nsmul]
  congr 1
  omega

theorem Spans.differ {s : Pair F} {j : Nat} (spans : Spans P z j s) (nonzero : P ≠ 0) (sum : (2 * j + 1) • P ≠ 0) :
    s.r0.x ≠ s.r1.x := by
  apply spans.r0.x_ne spans.nonzero spans.r1
  · rw [succ_nsmul]
    intro same
    exact nonzero (left_eq_add.mp same)
  · intro opposite
    rw [eq_neg_iff_add_eq_zero, total_nsmul] at opposite
    exact sum opposite

theorem Spans.collision {s : Pair F} {j : Nat} (spans : Spans P z j s) (nonzero : P ≠ 0) (same : s.r0.x = s.r1.x) :
    (2 * j + 1) • P = 0 := by
  by_contra sum
  exact spans.differ nonzero sum same

theorem cross_at (short : Short W) {s : Pair F} {j : Nat} (spans : Spans P z j s) (differ : s.r0.x ≠ s.r1.x) (bit : Bool) :
    ∃ z', z' ≠ 0 ∧ IsAt z' ((cross bit s).side !bit) ((2 * j + 1) • P) ∧ IsAt z' ((cross bit s).side bit) (signed bit P) := by
  have total := total_nsmul P j
  have step : (j + 1) • P = j • P + P := succ_nsmul P j
  cases bit with
  | true =>
    obtain ⟨first, second⟩ := spans.r1.addC short spans.nonzero spans.r0 differ.symm
    rw [step, add_sub_cancel_left] at first
    rw [add_comm, total] at second
    exact ⟨_, mul_ne_zero spans.nonzero (sub_ne_zero.mpr differ), second, first⟩
  | false =>
    obtain ⟨first, second⟩ := spans.r0.addC short spans.nonzero spans.r1 differ
    rw [step, sub_add_cancel_left] at first
    rw [total] at second
    exact ⟨_, mul_ne_zero spans.nonzero (sub_ne_zero.mpr differ.symm), second, first⟩

theorem up_nsmul (P : W.Point) (j : Nat) : (2 * j + 1) • P + P = (2 * j + 2) • P := (succ_nsmul P (2 * j + 1)).symm

theorem down_nsmul (P : W.Point) (j : Nat) : (2 * j + 1) • P - P = (2 * j) • P := by
  rw [succ_nsmul, add_sub_cancel_right]

theorem sides_differ {s : Pair F} {j : Nat} {bit : Bool} (nonzero : z ≠ 0) (clear : Clear P j)
    (atSum : IsAt z (s.side !bit) ((2 * j + 1) • P)) (atSide : IsAt z (s.side bit) (signed bit P)) :
    (s.side !bit).x ≠ (s.side bit).x := by
  have up := up_nsmul P j
  have down := down_nsmul P j
  have below : (2 * j + 1) • P ≠ P := by
    intro same
    rw [same, sub_self] at down
    exact clear.low down.symm
  have above : (2 * j + 1) • P ≠ -P := by
    intro opposite
    rw [opposite, neg_add_cancel] at up
    exact clear.high up.symm
  cases bit with
  | true => exact atSum.x_ne nonzero atSide below above
  | false => exact atSum.x_ne nonzero atSide above (by rwa [signed, neg_neg])

theorem merge_at (short : Short W) {s : Pair F} {j : Nat} {bit : Bool} (nonzero : z ≠ 0)
    (differ : (s.side !bit).x ≠ (s.side bit).x) (atSum : IsAt z (s.side !bit) ((2 * j + 1) • P))
    (atSide : IsAt z (s.side bit) (signed bit P)) :
    Spans P (z * ((s.side bit).x - (s.side !bit).x)) (2 * j + bit.toNat) (merge bit s) := by
  cases bit with
  | true =>
    obtain ⟨first, second⟩ := atSum.add short nonzero atSide differ
    rw [signed, up_nsmul] at second
    exact ⟨mul_ne_zero nonzero (sub_ne_zero.mpr differ.symm), first, second⟩
  | false =>
    obtain ⟨first, second⟩ := atSum.add short nonzero atSide differ
    rw [signed, ← sub_eq_add_neg, down_nsmul] at second
    exact ⟨mul_ne_zero nonzero (sub_ne_zero.mpr differ.symm), second, first⟩

/-- No two points that the ladder adds have one abscissa. -/
def Distinct : List Bool → Pair F → Prop
  | [], _ => True
  | bit :: bits, s =>
    s.r0.x ≠ s.r1.x ∧ (cross bit s).r0.x ≠ (cross bit s).r1.x ∧ Distinct bits (merge bit (cross bit s))

omit [Field F] [DecidableEq F] in
theorem side_ne {s : Pair F} (differ : s.r0.x ≠ s.r1.x) (bit : Bool) : (s.side !bit).x ≠ (s.side bit).x := by
  cases bit with
  | true => exact differ
  | false => exact differ.symm

theorem rungs_at (short : Short W) (bits : List Bool) {s : Pair F} {j : Nat} (spans : Spans P z j s)
    (distinct : Distinct bits s) : ∃ z', Spans P z' (number j bits) (rungs bits s) := by
  induction bits generalizing s j z with
  | nil => exact ⟨z, spans⟩
  | cons bit bits ih =>
    obtain ⟨differ, differ', rest⟩ := distinct
    obtain ⟨z', nonzero', atSum, atSide⟩ := cross_at short spans differ bit
    exact ih (merge_at short nonzero' (side_ne differ' bit) atSum atSide) rest

theorem distinct_of_clear (short : Short W) (nonzero : P ≠ 0) (bits : List Bool) {s : Pair F} {j : Nat}
    (spans : Spans P z j s) (clear : ClearAll P j bits) : Distinct bits s := by
  induction bits generalizing s j z with
  | nil => trivial
  | cons bit bits ih =>
    have differ := spans.differ nonzero clear.1.sum
    obtain ⟨z', nonzero', atSum, atSide⟩ := cross_at short spans differ bit
    have differ' := sides_differ nonzero' clear.1 atSum atSide
    refine ⟨differ, ?_, ih (merge_at short nonzero' differ' atSum atSide) clear.2⟩
    cases bit with
    | true => exact differ'
    | false => exact differ'.symm

theorem start_at (short : Short W) {point : Coords F} (atP : IsAt 1 point P) (nonzero : z ≠ 0) (twice : (2 : ℕ) • P ≠ 0) :
    ∃ z', Spans P z' 1 (start W.a₄ point z) := by
  have scaled := atP.applyZ z
  rw [one_mul] at scaled
  obtain ⟨nonzero', denominator, doubled⟩ := scaled.double short nonzero twice
  have again := atP.applyZ ((CoZ.applyZ point z).y * z)
  rw [one_mul] at again
  refine ⟨_, nonzero', ?_, doubled⟩
  rw [start, one_nsmul, denominator]
  exact again

omit [DecidableEq F] in
theorem finalZ_eq {point : Coords F} {s : Pair F} {bit : Bool} (atP : IsAt 1 point P) (nonzero : z ≠ 0)
    (atSide : IsAt z (s.side bit) (signed bit P)) (short : Short W) (x : point.x ≠ 0) (y : point.y ≠ 0)
    (differ : (s.side bit).x - (s.side !bit).x ≠ 0) :
    z * ((s.side bit).x - (s.side !bit).x) * finalZ point bit s = 1 := by
  obtain ⟨px, py, on, rfl, pointX, pointY⟩ := atP
  rw [one_pow, mul_one] at pointX pointY
  rw [pointX] at x
  rw [pointY] at y
  cases bit with
  | true =>
    obtain ⟨x', y', on', same, sideX, sideY⟩ := atSide
    obtain ⟨rfl, rfl⟩ := Point.some.inj same
    simp only [finalZ, sideX, sideY, pointX, pointY]
    simp only [Pair.side, Bool.not_true] at differ sideX ⊢
    rw [sideX] at differ ⊢
    generalize px * z ^ 2 - s.r0.x = d at differ ⊢
    field_simp
  | false =>
    obtain ⟨x', y', on', same, sideX, sideY⟩ := atSide
    rw [signed, Point.neg_some] at same
    obtain ⟨rfl, rfl⟩ := Point.some.inj same
    rw [negY, short.a₁, short.a₃] at sideY
    simp only [finalZ, sideX, sideY, pointX, pointY, sub_zero, zero_mul]
    simp only [Pair.side, Bool.not_false] at differ sideX ⊢
    rw [sideX] at differ ⊢
    rw [← neg_sub (px * z ^ 2) s.r1.x]
    generalize px * z ^ 2 - s.r1.x = d at differ ⊢
    field_simp

theorem ladder_at (short : Short W) {point : Coords F} (atP : IsAt 1 point P) (nonzero : z ≠ 0) (x : point.x ≠ 0)
    (twice : (2 : ℕ) • P ≠ 0) (bits : List Bool) (last : Bool) (clear : ClearAll P 1 bits)
    (clearLast : Clear P (number 1 bits)) :
    IsAt 1 (ladder W.a₄ point z bits last) ((2 * number 1 bits + last.toNat) • P) := by
  obtain ⟨z₁, started⟩ := start_at short atP nonzero twice
  obtain ⟨z₂, climbed⟩ := rungs_at short bits started (distinct_of_clear short atP.ne_zero bits started clear)
  obtain ⟨z₃, nonzero₃, atSum, atSide⟩ := cross_at short climbed (climbed.differ atP.ne_zero clearLast.sum) last
  have merged := merge_at short nonzero₃ (sides_differ nonzero₃ clearLast atSum atSide) atSum atSide
  have height : point.y ≠ 0 := by
    obtain ⟨px, py, on, rfl, _, pointY⟩ := atP
    intro zero
    rw [zero, one_pow, mul_one] at pointY
    apply twice
    rw [two_nsmul]
    apply Point.add_self_of_Y_eq
    rw [negY, short.a₁, short.a₃, ← pointY]
    ring
  have differ := right_ne_zero_of_mul merged.nonzero
  have unit := finalZ_eq atP nonzero₃ atSide short x height differ
  have result := merged.r0.applyZ (finalZ point last (cross last (rungs bits (start W.a₄ point z))))
  rw [unit] at result
  exact result

end Points

section Infinity

/-- A pair on its way through the point at infinity: one side is zero, the other has denominator zero. -/
def Collapsed (bit : Bool) (s : Pair F) : Prop :=
  s.side bit = 0 ∧ ∃ e : F, s.side (!bit) = ⟨e ^ 2, e ^ 3⟩

theorem opposite_collapses {s : Pair F} (x : s.r1.x = s.r0.x) (y : s.r1.y = -s.r0.y) (bit : Bool) :
    Collapsed bit (merge bit (cross bit s)) := by
  cases bit with
  | true =>
    refine ⟨?_, (2 * s.r0.y) ^ 3, ?_⟩
    · ext
      · simp only [Pair.side, merge, cross, add, addC, x, y, zero_x]
        ring
      · simp only [Pair.side, merge, cross, add, addC, x, y, zero_y]
        ring
    · ext
      · simp only [Pair.side, Bool.not_true, merge, cross, add, addC, x, y]
        ring
      · simp only [Pair.side, Bool.not_true, merge, cross, add, addC, x, y]
        ring
  | false =>
    refine ⟨?_, (-2 * s.r0.y) ^ 3, ?_⟩
    · ext
      · simp only [Pair.side, merge, cross, add, addC, x, y, zero_x]
        ring
      · simp only [Pair.side, merge, cross, add, addC, x, y, zero_y]
        ring
    · ext
      · simp only [Pair.side, Bool.not_false, merge, cross, add, addC, x, y]
        ring
      · simp only [Pair.side, Bool.not_false, merge, cross, add, addC, x, y]
        ring

theorem collapsed_cross {bit : Bool} {s : Pair F} (collapsed : Collapsed bit s) (last : Bool) :
    (cross last s).r1.x = (cross last s).r0.x := by
  obtain ⟨none, e, other⟩ := collapsed
  have noneX : (s.side bit).x = 0 := by rw [none, zero_x]
  have noneY : (s.side bit).y = 0 := by rw [none, zero_y]
  have otherX : (s.side !bit).x = e ^ 2 := by rw [other]
  have otherY : (s.side !bit).y = e ^ 3 := by rw [other]
  cases bit <;> cases last <;> simp only [Pair.side, Bool.not_true, Bool.not_false] at noneX noneY otherX otherY <;>
    simp only [cross, addC, noneX, noneY, otherX, otherY] <;> ring

theorem ladder_of_finalZ {a : F} {point : Coords F} {z : F} {bits : List Bool} {last : Bool}
    (none : finalZ point last (cross last (rungs bits (start a point z))) = 0) : ladder a point z bits last = 0 := by
  ext
  · simp only [ladder, none, applyZ, zero_x]
    ring
  · simp only [ladder, none, applyZ, zero_y]
    ring

theorem ladder_of_same (a : F) (point : Coords F) (z : F) (bits : List Bool) (last : Bool)
    (same : (cross last (rungs bits (start a point z))).r1.x = (cross last (rungs bits (start a point z))).r0.x) :
    ladder a point z bits last = 0 := by
  apply ladder_of_finalZ
  simp only [finalZ, same, sub_self, zero_mul, inv_zero]

theorem ladder_of_x_zero (a : F) {point : Coords F} (z : F) (bits : List Bool) (last : Bool) (x : point.x = 0) :
    ladder a point z bits last = 0 := by
  have none : finalZ point last (cross last (rungs bits (start a point z))) = 0 := by
    simp only [finalZ, x, mul_zero, inv_zero, zero_mul]
  exact ladder_of_finalZ none

variable [DecidableEq F] {W : WeierstrassCurve.Affine F} {P : W.Point} {z : F}

theorem spans_opposite (short : Short W) {s : Pair F} {j : Nat} (spans : Spans P z j s) (sum : (2 * j + 1) • P = 0) :
    s.r1.x = s.r0.x ∧ s.r1.y = -s.r0.y := by
  have opposite : (j + 1) • P = -(j • P) := by
    rw [eq_neg_iff_add_eq_zero, ← add_nsmul, ← sum]
    congr 1
    omega
  obtain ⟨x, y, on, same, r0x, r0y⟩ := spans.r0
  obtain ⟨x', y', on', same', r1x, r1y⟩ := spans.r1
  rw [opposite, same, Point.neg_some] at same'
  obtain ⟨rfl, rfl⟩ := Point.some.inj same'
  rw [negY, short.a₁, short.a₃] at r1y
  refine ⟨by rw [r0x, r1x], ?_⟩
  rw [r0y, r1y]
  ring

theorem ladder_infinity (short : Short W) {point : Coords F} (atP : IsAt 1 point P) (nonzero : z ≠ 0)
    (twice : (2 : ℕ) • P ≠ 0) (bits : List Bool) (bit last : Bool) (clear : ClearAll P 1 bits)
    (sum : (2 * number 1 bits + 1) • P = 0) : ladder W.a₄ point z (bits ++ [bit]) last = 0 := by
  obtain ⟨z₁, started⟩ := start_at short atP nonzero twice
  obtain ⟨z₂, climbed⟩ := rungs_at short bits started (distinct_of_clear short atP.ne_zero bits started clear)
  obtain ⟨x, y⟩ := spans_opposite short climbed sum
  apply ladder_of_same
  rw [rungs, List.foldl_append]
  exact collapsed_cross (opposite_collapses x y bit) last

end Infinity

end CoZ
