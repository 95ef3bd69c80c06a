import Bridge.Library.CoZ
import Bridge.MicroEcc.Curve

namespace MicroEcc

open Limbs CoZ

variable {w : Nat}

structure EccPoint (w : Nat) where
  x : Vli w
  y : Vli w
deriving DecidableEq, Repr

def eccPointIsZero (point : EccPoint w) : Bool := vliIsZero (point.x ++ point.y)

def applyZ (point : EccPoint w) (z : Vli w) (curve : Curve w) : EccPoint w :=
  let t1 := vliModSquareFast z curve
  let x := vliModMultFast point.x t1 curve
  let t1 := vliModMultFast t1 z curve
  ⟨x, vliModMultFast point.y t1 curve⟩

def doubleJacobianDefault (point : EccPoint w) (z1 : Vli w) (curve : Curve w) : EccPoint w × Vli w :=
  if vliIsZero z1 then (point, z1)
  else
    let t4 := vliModSquareFast point.y curve
    let t5 := vliModMultFast point.x t4 curve
    let t4 := vliModSquareFast t4 curve
    let y1 := vliModMultFast point.y z1 curve
    let z1 := vliModSquareFast z1 curve
    let x1 := vliModAdd point.x z1 curve.p
    let z1 := vliModAdd z1 z1 curve.p
    let z1 := vliModSub x1 z1 curve.p
    let x1 := vliModMultFast x1 z1 curve
    let z1 := vliModAdd x1 x1 curve.p
    let x1 := vliModAdd x1 z1 curve.p
    let x1 := halve x1 curve
    let z1 := vliModSquareFast x1 curve
    let z1 := vliModSub z1 t5 curve.p
    let z1 := vliModSub z1 t5 curve.p
    let t5 := vliModSub t5 z1 curve.p
    let x1 := vliModMultFast x1 t5 curve
    let t4 := vliModSub x1 t4 curve.p
    (⟨z1, t4⟩, y1)

def xyczInitialDouble (point : EccPoint w) (initialZ : Option (Vli w)) (curve : Curve w) : EccPoint w × EccPoint w :=
  let z := initialZ.getD ((vliClear w curve.numWords).set 0 1)
  let doubled := doubleJacobianDefault (applyZ point z curve) z curve
  (doubled.1, applyZ point doubled.2 curve)

def xyczAdd (p q : EccPoint w) (curve : Curve w) : EccPoint w × EccPoint w :=
  let t5 := vliModSub q.x p.x curve.p
  let t5 := vliModSquareFast t5 curve
  let x1 := vliModMultFast p.x t5 curve
  let x2 := vliModMultFast q.x t5 curve
  let y2 := vliModSub q.y p.y curve.p
  let t5 := vliModSquareFast y2 curve
  let t5 := vliModSub t5 x1 curve.p
  let t5 := vliModSub t5 x2 curve.p
  let x2 := vliModSub x2 x1 curve.p
  let y1 := vliModMultFast p.y x2 curve
  let x2 := vliModSub x1 t5 curve.p
  let y2 := vliModMultFast y2 x2 curve
  let y2 := vliModSub y2 y1 curve.p
  (⟨x1, y1⟩, ⟨t5, y2⟩)

def xyczAddC (p q : EccPoint w) (curve : Curve w) : EccPoint w × EccPoint w :=
  let t5 := vliModSub q.x p.x curve.p
  let t5 := vliModSquareFast t5 curve
  let x1 := vliModMultFast p.x t5 curve
  let x2 := vliModMultFast q.x t5 curve
  let t5 := vliModAdd q.y p.y curve.p
  let y2 := vliModSub q.y p.y curve.p
  let t6 := vliModSub x2 x1 curve.p
  let y1 := vliModMultFast p.y t6 curve
  let t6 := vliModAdd x1 x2 curve.p
  let x2 := vliModSquareFast y2 curve
  let x2 := vliModSub x2 t6 curve.p
  let t7 := vliModSub x1 x2 curve.p
  let y2 := vliModMultFast y2 t7 curve
  let y2 := vliModSub y2 y1 curve.p
  let t7 := vliModSquareFast t5 curve
  let t7 := vliModSub t7 t6 curve.p
  let t6 := vliModSub t7 x1 curve.p
  let t6 := vliModMultFast t6 t5 curve
  let y1 := vliModSub t6 y1 curve.p
  (⟨t7, y1⟩, ⟨x2, y2⟩)

structure Rungs (w : Nat) where
  r0 : EccPoint w
  r1 : EccPoint w

def Rungs.other (r : Rungs w) (nb : Bool) : EccPoint w := if nb then r.r0 else r.r1

/-- `XYcZ_addC` of the point `1 - nb` and the point `nb`, in place. -/
def Rungs.addC (r : Rungs w) (nb : Bool) (curve : Curve w) : Rungs w :=
  if nb then ⟨(xyczAddC r.r0 r.r1 curve).1, (xyczAddC r.r0 r.r1 curve).2⟩
  else ⟨(xyczAddC r.r1 r.r0 curve).2, (xyczAddC r.r1 r.r0 curve).1⟩

/-- `XYcZ_add` of the point `nb` and the point `1 - nb`, in place. -/
def Rungs.add (r : Rungs w) (nb : Bool) (curve : Curve w) : Rungs w :=
  if nb then ⟨(xyczAdd r.r1 r.r0 curve).2, (xyczAdd r.r1 r.r0 curve).1⟩
  else ⟨(xyczAdd r.r0 r.r1 curve).1, (xyczAdd r.r0 r.r1 curve).2⟩

def ladderLoop (scalar : Vli w) (curve : Curve w) : Nat → Rungs w → Rungs w
  | 0, r => r
  | i + 1, r =>
    let nb := !vliTestBit scalar (i + 1)
    ladderLoop scalar curve i ((r.addC nb curve).add nb curve)

def eccPointMult (point : EccPoint w) (scalar : Vli w) (initialZ : Option (Vli w)) (numBits : Nat) (curve : Curve w) :
    EccPoint w :=
  let initial := xyczInitialDouble point initialZ curve
  let r := ladderLoop scalar curve (numBits - 2) ⟨initial.2, initial.1⟩
  let nb := !vliTestBit scalar 0
  let r := r.addC nb curve
  let z := vliModSub r.r1.x r.r0.x curve.p
  let z := vliModMultFast z (r.other nb).y curve
  let z := vliModMultFast z point.x curve
  let z := vliModInv z curve.p curve.numWords
  let z := vliModMultFast z point.y curve
  let z := vliModMultFast z (r.other nb).x curve
  let r := r.add nb curve
  applyZ r.r0 z curve

section Simulation

variable {curve : Curve w} {p : Nat}

structure Stands (curve : Curve w) {p : Nat} (point : EccPoint w) (c : Coords (ZMod p)) : Prop where
  x : Is curve point.x c.x
  y : Is curve point.y c.y

structure RungsStand (curve : Curve w) {p : Nat} (r : Rungs w) (s : Pair (ZMod p)) : Prop where
  r0 : Stands curve r.r0 s.r0
  r1 : Stands curve r.r1 s.r1

variable (sound : curve.Sound p) [Fact p.Prime] {point point' : EccPoint w} {c c' : Coords (ZMod p)}
  (stands : Stands curve point c) (stands' : Stands curve point' c') {z : Vli w} {t : ZMod p} (isZ : Is curve z t)

include sound

theorem applyZ_stands (stands : Stands curve point c) (isZ : Is curve z t) :
    Stands curve (applyZ point z curve) (CoZ.applyZ c t) := by
  have square := isZ.modSquare sound
  have cube := square.modMult sound isZ
  rw [← pow_succ] at cube
  exact ⟨stands.x.modMult sound square, stands.y.modMult sound cube⟩

theorem doubleJacobian_stands (stands : Stands curve point c) (isZ : Is curve z t) (nonzero : t ≠ 0) :
    Stands curve (doubleJacobianDefault point z curve).1 (double (-3) c t).1 ∧
      Is curve (doubleJacobianDefault point z curve).2 (double (-3) c t).2 := by
  have running : ¬vliIsZero z = true := isZ.vliIsZero_iff.not.mpr nonzero
  have ySquare := stands.y.modSquare sound
  have s := stands.x.modMult sound ySquare
  have yFourth := ySquare.modSquare sound
  have z3 := stands.y.modMult sound isZ
  have zSquare := isZ.modSquare sound
  have sum := stands.x.modAdd sound zSquare
  have difference := sum.modSub sound (zSquare.modAdd sound zSquare)
  have product := sum.modMult sound difference
  have triple := product.modAdd sound (product.modAdd sound product)
  have m := triple.halve sound
  have x3 := ((m.modSquare sound).modSub sound s).modSub sound s
  have y3 := (m.modMult sound (s.modSub sound x3)).modSub sound yFourth
  have slope : ((c.x + t ^ 2) * (c.x + t ^ 2 - (t ^ 2 + t ^ 2)) +
      ((c.x + t ^ 2) * (c.x + t ^ 2 - (t ^ 2 + t ^ 2)) + (c.x + t ^ 2) * (c.x + t ^ 2 - (t ^ 2 + t ^ 2)))) / 2 =
      (3 * c.x ^ 2 + -3 * t ^ 4) / 2 := by ring
  rw [slope] at x3 y3
  rw [← pow_mul] at y3
  rw [doubleJacobianDefault, if_neg running]
  exact ⟨⟨x3, y3⟩, z3⟩

theorem xyczAdd_stands (stands : Stands curve point c) (stands' : Stands curve point' c') :
    Stands curve (xyczAdd point point' curve).1 (CoZ.add c c').1 ∧
      Stands curve (xyczAdd point point' curve).2 (CoZ.add c c').2 := by
  have square := (stands'.x.modSub sound stands.x).modSquare sound
  have b := stands.x.modMult sound square
  have c := stands'.x.modMult sound square
  have rise := stands'.y.modSub sound stands.y
  have x3 := ((rise.modSquare sound).modSub sound b).modSub sound c
  have e := stands.y.modMult sound (c.modSub sound b)
  have y3 := (rise.modMult sound (b.modSub sound x3)).modSub sound e
  exact ⟨⟨b, e⟩, ⟨x3, y3⟩⟩

theorem xyczAddC_stands (stands : Stands curve point c) (stands' : Stands curve point' c') :
    Stands curve (xyczAddC point point' curve).1 (CoZ.addC c c').1 ∧
      Stands curve (xyczAddC point point' curve).2 (CoZ.addC c c').2 := by
  have square := (stands'.x.modSub sound stands.x).modSquare sound
  have b := stands.x.modMult sound square
  have c := stands'.x.modMult sound square
  have total := stands'.y.modAdd sound stands.y
  have rise := stands'.y.modSub sound stands.y
  have e := stands.y.modMult sound (c.modSub sound b)
  have both := b.modAdd sound c
  have x3 := (rise.modSquare sound).modSub sound both
  have y3 := (rise.modMult sound (b.modSub sound x3)).modSub sound e
  have x3' := (total.modSquare sound).modSub sound both
  have y3' := ((x3'.modSub sound b).modMult sound total).modSub sound e
  exact ⟨⟨x3', y3'⟩, ⟨x3, y3⟩⟩

variable {r : Rungs w} {s : Pair (ZMod p)}

theorem addC_stands (rungs : RungsStand curve r s) (bit : Bool) :
    RungsStand curve (r.addC (!bit) curve) (cross bit s) := by
  cases bit with
  | true =>
    obtain ⟨first, second⟩ := xyczAddC_stands sound rungs.r1 rungs.r0
    exact ⟨second, first⟩
  | false =>
    obtain ⟨first, second⟩ := xyczAddC_stands sound rungs.r0 rungs.r1
    exact ⟨first, second⟩

theorem add_stands (rungs : RungsStand curve r s) (bit : Bool) :
    RungsStand curve (r.add (!bit) curve) (merge bit s) := by
  cases bit with
  | true =>
    obtain ⟨first, second⟩ := xyczAdd_stands sound rungs.r0 rungs.r1
    exact ⟨first, second⟩
  | false =>
    obtain ⟨first, second⟩ := xyczAdd_stands sound rungs.r1 rungs.r0
    exact ⟨second, first⟩

omit sound [Fact p.Prime] in
theorem other_stands (rungs : RungsStand curve r s) (bit : Bool) : Stands curve (r.other !bit) (s.side bit) := by
  cases bit with
  | true => exact rungs.r1
  | false => exact rungs.r0

def loopBits (number : Nat) : Nat → List Bool
  | 0 => []
  | i + 1 => number.testBit (i + 1) :: loopBits number i

theorem ladderLoop_stands (scalar : Vli w) (i : Nat) (stands : RungsStand curve r s) :
    RungsStand curve (ladderLoop scalar curve i r) (rungs (loopBits (value scalar) i) s) := by
  induction i generalizing r s with
  | zero => exact stands
  | succ i ih =>
    have crossed := addC_stands sound stands ((value scalar).testBit (i + 1))
    rw [ladderLoop, vliTestBit_value sound.positive]
    exact ih (add_stands sound crossed _)

theorem initialDouble_stands (stands : Stands curve point c) (initialZ : Option (Vli w))
    (isZ : Is curve (initialZ.getD ((vliClear w curve.numWords).set 0 1)) t) (nonzero : t ≠ 0) :
    RungsStand curve ⟨(xyczInitialDouble point initialZ curve).2, (xyczInitialDouble point initialZ curve).1⟩
      (start (-3) c t) := by
  obtain ⟨doubled, denominator⟩ := doubleJacobian_stands sound (applyZ_stands sound stands isZ) isZ nonzero
  exact ⟨applyZ_stands sound stands denominator, doubled⟩

/-- The multiplication on words is the ladder on elements of the field. -/
theorem eccPointMult_stands (stands : Stands curve point c) (scalar : Vli w) (initialZ : Option (Vli w))
    (isZ : Is curve (initialZ.getD ((vliClear w curve.numWords).set 0 1)) t) (nonzero : t ≠ 0) (numBits : Nat) :
    Stands curve (eccPointMult point scalar initialZ numBits curve)
      (ladder (-3) c t (loopBits (value scalar) (numBits - 2)) ((value scalar).testBit 0)) := by
  have started := initialDouble_stands sound stands initialZ isZ nonzero
  have climbed := ladderLoop_stands sound scalar (numBits - 2) started
  have crossed := addC_stands sound climbed ((value scalar).testBit 0)
  have side := other_stands crossed ((value scalar).testBit 0)
  have difference := crossed.r1.x.modSub sound crossed.r0.x
  have inverse := ((difference.modMult sound side.y).modMult sound stands.x).modInv sound
  have final := (inverse.modMult sound stands.y).modMult sound side.x
  have merged := add_stands sound crossed ((value scalar).testBit 0)
  have result := applyZ_stands sound merged.r0 final
  rw [eccPointMult, vliTestBit_value sound.positive]
  exact result

end Simulation

end MicroEcc
