import Bridge.MicroEcc.Secp256r1

namespace MicroEcc

open Limbs CoZ

variable {w : Nat} {σ : Type}

def bitsToWords (w numBits : Nat) : Nat := (numBits + (w - 1)) / w

def wordsToBytes (words : Vli w) : List (BitVec 8) := words.flatMap fun word => Limbs.ofNat 8 (w / 8) word.toNat

/-- `g_rng_function`: it fills as many bytes as it is asked for, or it fails. -/
structure Rng (σ : Type) where
  fill : σ → (size : Nat) → Option {bytes : List (BitVec 8) // bytes.length = size} × σ

def rngMaxTries : Nat := 64

/-- The random words, without the bits above those of `top`. -/
def maskRandom (random top : Vli w) (numWords : Nat) : Vli w :=
  random.set (numWords - 1)
    (random.getD (numWords - 1) 0 &&& BitVec.allOnes w >>> (numWords * w - vliNumBits top))

def generateRandomLoop (rng : Rng σ) (top : Vli w) (numWords : Nat) : Nat → σ → Option (Vli w) × σ
  | 0, state => (none, state)
  | tries + 1, state =>
    match rng.fill state (numWords * (w / 8)) with
    | (none, state) => (none, state)
    | (some bytes, state) =>
      let random := maskRandom (bytesToWords w numWords bytes.val) top numWords
      if !vliIsZero random ∧ vliCmp top random = 1 then (some random, state)
      else generateRandomLoop rng top numWords tries state

def generateRandomInt (rng : Option (Rng σ)) (top : Vli w) (numWords : Nat) (state : σ) : Option (Vli w) × σ :=
  match rng with
  | none => (none, state)
  | some rng => generateRandomLoop rng top numWords rngMaxTries state

def regularizeK (k : Vli w) (curve : Curve w) : Vli w × Vli w × Bool :=
  let numNWords := bitsToWords w curve.numNBits
  let k0 := vliAdd k curve.n
  let carry := decide (k0.2 ≠ 0 ∨ (curve.numNBits < numNWords * w ∧ vliTestBit k0.1 curve.numNBits = true))
  (k0.1, (vliAdd k0.1 curve.n).1, carry)

def regularScalar (k : Vli w) (curve : Curve w) : Vli w :=
  let (k0, k1, carry) := regularizeK k curve
  if carry then k0 else k1

def Curve.generator (curve : Curve w) : EccPoint w := ⟨curve.g.take curve.numWords, curve.g.drop curve.numWords⟩

def eccPointComputePublicKey (privateKey : Vli w) (curve : Curve w) : EccPoint w × Bool :=
  let result := eccPointMult curve.generator (regularScalar privateKey curve) none (curve.numNBits + 1) curve
  (result, !eccPointIsZero result)

def makeKeyLoop (rng : Option (Rng σ)) (curve : Curve w) : Nat → σ → Option (EccPoint w × Vli w) × σ
  | 0, state => (none, state)
  | tries + 1, state =>
    match generateRandomInt rng curve.n (bitsToWords w curve.numNBits) state with
    | (none, state) => (none, state)
    | (some privateKey, state) =>
      let (publicKey, ok) := eccPointComputePublicKey privateKey curve
      if ok then (some (publicKey, privateKey), state) else makeKeyLoop rng curve tries state

def pointBytes (point : EccPoint w) : List (BitVec 8) := wordsToBytes point.x ++ wordsToBytes point.y

def makeKey (rng : Option (Rng σ)) (curve : Curve w) (state : σ) : Option (List (BitVec 8) × List (BitVec 8)) × σ :=
  let (keys, state) := makeKeyLoop rng curve rngMaxTries state
  (keys.map fun keys => (pointBytes keys.1, wordsToBytes keys.2), state)

def readPoint (publicKey : List (BitVec 8)) (curve : Curve w) : EccPoint w where
  x := bytesToWords w curve.numWords (publicKey.take curve.numBytes)
  y := bytesToWords w curve.numWords (publicKey.drop curve.numBytes)

def sharedSecret (rng : Option (Rng σ)) (publicKey privateKey : List (BitVec 8)) (curve : Curve w) (state : σ) :
    Option (List (BitVec 8)) × σ :=
  let finish := fun initialZ =>
    let result := eccPointMult (readPoint publicKey curve)
      (regularScalar (bytesToWords w curve.numWords privateKey) curve) initialZ (curve.numNBits + 1) curve
    if eccPointIsZero result then none else some ((wordsToBytes result.x).take curve.numBytes)
  match rng with
  | none => (finish none, state)
  | some rng =>
    match generateRandomInt (some rng) curve.p curve.numWords state with
    | (none, state) => (none, state)
    | (some z, state) => (finish (some z), state)

def validPoint (point : EccPoint w) (curve : Curve w) : Bool :=
  if eccPointIsZero point then false
  else if vliCmpUnsafe curve.p point.x ≠ 1 ∨ vliCmpUnsafe curve.p point.y ≠ 1 then false
  else vliEqual (vliModSquareFast point.y curve) (xSideDefault point.x curve)

def validPublicKey (publicKey : List (BitVec 8)) (curve : Curve w) : Bool := validPoint (readPoint publicKey curve) curve

def computePublicKey (privateKey : List (BitVec 8)) (curve : Curve w) : Option (List (BitVec 8)) :=
  let words := bytesToWords w (bitsToWords w curve.numNBits) privateKey
  if vliIsZero words then none
  else if vliCmp curve.n words ≠ 1 then none
  else
    let (publicKey, ok) := eccPointComputePublicKey words curve
    if ok then some (pointBytes publicKey) else none

section Curves

/-- The curve over words of some size. -/
structure IsSecp256r1 (curve : Curve w) : Prop where
  sound : curve.Sound secp256r1Modulus
  octets : 8 ∣ w
  width : curve.numWords * w = 256
  numBytes : curve.numBytes = 32
  numNBits : curve.numNBits = 256
  n : curve.n = bytesToWords w curve.numWords secp256r1N
  g : curve.g = bytesToWords w curve.numWords secp256r1GX ++ bytesToWords w curve.numWords secp256r1GY
  b : curve.b = bytesToWords w curve.numWords secp256r1B

theorem curveSecp256r1Word4_is : IsSecp256r1 curveSecp256r1Word4 where
  sound := by
    have size : curveSecp256r1Word4.p.length = 8 := rfl
    have modulus : value curveSecp256r1Word4.p = secp256r1Modulus := by decide
    exact ⟨by decide, by decide, by decide, size, modulus, by decide, fun product length =>
      vliMmodFastSecp256r1Word4_value size modulus length⟩
  octets := by decide
  width := rfl
  numBytes := rfl
  numNBits := rfl
  n := rfl
  g := rfl
  b := rfl

theorem curveSecp256r1Word8_is : IsSecp256r1 curveSecp256r1Word8 where
  sound := by
    have size : curveSecp256r1Word8.p.length = 4 := rfl
    have modulus : value curveSecp256r1Word8.p = secp256r1Modulus := by decide
    exact ⟨by decide, by decide, by decide, size, modulus, by decide, fun product length =>
      vliMmodFastSecp256r1Word8_value size modulus length⟩
  octets := by decide
  width := rfl
  numBytes := rfl
  numNBits := rfl
  n := rfl
  g := rfl
  b := rfl

theorem Curve.Sound.mmodFast_eq {curve : Curve w} {p : Nat} (sound : curve.Sound p)
    (top : (2 ^ w) ^ (curve.numWords - 1) ≤ p) {product : Vli w} (size : product.length = 2 * curve.numWords) :
    curve.mmodFast product = vliMmod product curve.p curve.numWords := by
  obtain ⟨fastSize, fast⟩ := sound.mmodFast product size
  obtain ⟨plainSize, plain⟩ := vliMmod_value sound.positive sound.some size sound.size (by rwa [sound.modulus])
  apply value_injective (fastSize.trans plainSize.symm)
  rw [fast, plain, sound.modulus]

/-- The fast reductions, by words of 32 and of 64 bits, and the plain one. -/
theorem mmodFast_agrees :
    (∀ product : Vli 32, product.length = 2 * 8 →
      vliMmodFastSecp256r1Word4 curveSecp256r1Word4.p product = vliMmod product curveSecp256r1Word4.p 8) ∧
    ∀ product : Vli 64, product.length = 2 * 4 →
      vliMmodFastSecp256r1Word8 curveSecp256r1Word8.p product = vliMmod product curveSecp256r1Word8.p 4 := by
  have top : (2 ^ 32) ^ (8 - 1) ≤ secp256r1Modulus := by decide
  have top' : (2 ^ 64) ^ (4 - 1) ≤ secp256r1Modulus := by decide
  constructor
  · intro product size
    exact curveSecp256r1Word4_is.sound.mmodFast_eq top size
  · intro product size
    exact curveSecp256r1Word8_is.sound.mmodFast_eq top' size

theorem mmodFast_agrees_ones : vliMmodFastSecp256r1Word4 curveSecp256r1Word4.p (List.replicate 16 (BitVec.allOnes 32)) =
    vliMmod (List.replicate 16 (BitVec.allOnes 32)) curveSecp256r1Word4.p 8 :=
  mmodFast_agrees.1 _ rfl

end Curves

section Regular

variable {curve : Curve w} (is : IsSecp256r1 curve)

include is

theorem word_count : curve.numWords * (w / 8) = 32 ∧ bitsToWords w curve.numNBits = curve.numWords := by
  obtain ⟨octets, rfl⟩ := is.octets
  have width := is.width
  have positive := is.sound.positive
  rw [Nat.mul_left_comm] at width
  refine ⟨by rw [Nat.mul_div_cancel_left _ (by decide)]; omega, ?_⟩
  rw [bitsToWords, is.numNBits]
  have whole : curve.numWords * (8 * octets) = 256 := is.width
  rw [← whole, Nat.add_div_of_dvd_right (Dvd.intro_left _ rfl), Nat.mul_div_cancel _ positive,
    Nat.div_eq_of_lt (by omega), Nat.add_zero]

theorem room_eq : (2 ^ w) ^ curve.numWords = 2 ^ 256 := by rw [← Nat.pow_mul, Nat.mul_comm, is.width]

theorem order_words : curve.n.length = curve.numWords ∧ value curve.n = secp256r1Order := by
  rw [is.n, bytesToWords_value is.octets _ _ (by rw [(word_count is).1]; rfl)]
  exact ⟨bytesToWords_length _ _ _, rfl⟩

theorem regularScalar_value {k : Vli w} (size : k.length = curve.numWords) (less : value k < secp256r1Order) :
    ∃ scalar, (scalar = value k + secp256r1Order ∨ scalar = value k + 2 * secp256r1Order ∧ value k + secp256r1Order < 2 ^ 256) ∧
      scalar / 2 ^ 256 = 1 ∧ value (regularScalar k curve) % 2 ^ 256 = scalar % 2 ^ 256 := by
  obtain ⟨nSize, nValue⟩ := order_words is
  obtain ⟨carried, sum⟩ := vliAdd_value is.sound.positive k curve.n (size.trans nSize.symm)
  have sumSize := vliAdd_length size nSize
  obtain ⟨carried', sum'⟩ := vliAdd_value is.sound.positive (vliAdd k curve.n).1 curve.n (sumSize.trans nSize.symm)
  have sumRoom := value_lt (vliAdd k curve.n).1
  have sumRoom' := value_lt (vliAdd (vliAdd k curve.n).1 curve.n).1
  have wide : ¬256 < curve.numWords * w := by
    rw [is.width]
    exact Nat.lt_irrefl 256
  have order : secp256r1Order = 115792089210356248762697446949407573529996955224135760342422259061068512044369 := by decide
  rw [size, room_eq is, nValue] at sum
  rw [sumSize, room_eq is, nValue] at sum'
  rw [sumSize, room_eq is] at sumRoom
  rw [vliAdd_length sumSize nSize, room_eq is] at sumRoom'
  have count := (word_count is).2
  rw [is.numNBits] at count
  simp only [regularScalar, regularizeK, count, is.numNBits, wide, false_and, or_false, flag_ne_zero_iff, decide_eq_true_eq]
  rw [order] at less sum sum' ⊢
  by_cases full : (vliAdd k curve.n).2.toNat = 0
  · rw [if_neg (not_not_intro full)]
    refine ⟨_, Or.inr ⟨rfl, by omega⟩, by omega, by omega⟩
  · rw [if_pos full]
    refine ⟨_, Or.inl rfl, by omega, by omega⟩

end Regular

section Orders

theorem multiple_below {n m : Nat} (divides : n ∣ m) (below : m < 3 * n) : m = 0 ∨ m = n ∨ m = 2 * n := by
  obtain ⟨q, rfl⟩ := divides
  rw [Nat.mul_comm] at below ⊢
  have few := Nat.lt_of_mul_lt_mul_right below
  have cases : q = 0 ∨ q = 1 ∨ q = 2 := by omega
  rcases cases with rfl | rfl | rfl
  · exact Or.inl (Nat.zero_mul n)
  · exact Or.inr (Or.inl (Nat.one_mul n))
  · exact Or.inr (Or.inr rfl)

variable {P : secp256r1.Point} (order : addOrderOf P = secp256r1Order)

include order

theorem nsmul_eq_zero_iff (m : Nat) : m • P = 0 ↔ secp256r1Order ∣ m := by
  rw [← order]
  exact addOrderOf_dvd_iff_nsmul_eq_zero.symm

theorem twice_ne_zero : (2 : ℕ) • P ≠ 0 := by
  rw [Ne, nsmul_eq_zero_iff order]
  decide

theorem clear_small {j : Nat} (positive : 0 < j) (small : 2 * j + 2 < secp256r1Order) : Clear P j where
  low := by
    rw [Ne, nsmul_eq_zero_iff order]
    exact Nat.not_dvd_of_pos_of_lt (by omega) (by omega)
  sum := by
    rw [Ne, nsmul_eq_zero_iff order]
    exact Nat.not_dvd_of_pos_of_lt (by omega) (by omega)
  high := by
    rw [Ne, nsmul_eq_zero_iff order]
    exact Nat.not_dvd_of_pos_of_lt (by omega) (by omega)

variable {scalar : Nat} (leading : scalar / 2 ^ 256 = 1)

include leading

theorem clear_from_third (i : Nat) (low : 3 ≤ i) (high : i ≤ 256) : Clear P (scalar / 2 ^ i) := by
  have value : secp256r1Order = 115792089210356248762697446949407573529996955224135760342422259061068512044369 := by decide
  have part : 2 ^ i * 2 ^ (256 - i) = 2 ^ 256 := by rw [← Nat.pow_add, Nat.add_sub_cancel' high]
  have eighth : 2 ^ 3 ≤ 2 ^ i := Nat.pow_le_pow_right (by decide) low
  have below : scalar / 2 ^ i ≤ scalar / 2 ^ 3 := Nat.div_le_div_left eighth (by decide)
  have above : 2 ^ i ≤ scalar := by
    have whole : 2 ^ i ≤ 2 ^ 256 := Nat.pow_le_pow_right (by decide) high
    omega
  exact clear_small order (Nat.div_pos above (Nat.two_pow_pos i)) (by rw [value]; omega)

theorem clear_all (regular : scalar / 4 ≠ (secp256r1Order - 1) / 2) (i : Nat) (low : 1 ≤ i) (high : i ≤ 256) :
    Clear P (scalar / 2 ^ i) := by
  have value : secp256r1Order = 115792089210356248762697446949407573529996955224135760342422259061068512044369 := by decide
  have away : ∀ m, m < 3 * secp256r1Order → m ≠ 0 → m ≠ secp256r1Order → m ≠ 2 * secp256r1Order → m • P ≠ 0 := by
    intro m below zero one two
    rw [Ne, nsmul_eq_zero_iff order]
    intro divides
    obtain none | single | double := multiple_below divides below
    · exact zero none
    · exact one single
    · exact two double
  rw [value] at regular away
  rcases Nat.lt_or_ge 2 i with large | small
  · exact clear_from_third order leading i large high
  · have nearest : i = 1 ∨ i = 2 := by omega
    rcases nearest with rfl | rfl
    · rw [Nat.pow_one]
      exact ⟨away _ (by omega) (by omega) (by omega) (by omega), away _ (by omega) (by omega) (by omega) (by omega),
        away _ (by omega) (by omega) (by omega) (by omega)⟩
    · exact ⟨away _ (by omega) (by omega) (by omega) (by omega), away _ (by omega) (by omega) (by omega) (by omega),
        away _ (by omega) (by omega) (by omega) (by omega)⟩

end Orders

section Mult

/-- The keys whose regular scalar leads the ladder through the point at infinity. -/
def Degenerate (k : Nat) : Prop := k = 1 ∨ k = secp256r1Order - 2 ∨ k = secp256r1Order - 1

instance (k : Nat) : Decidable (Degenerate k) := inferInstanceAs (Decidable (_ ∨ _ ∨ _))

theorem degenerate_iff {k scalar : Nat} (positive : 0 < k) (less : k < secp256r1Order)
    (shape : scalar = k + secp256r1Order ∨ scalar = k + 2 * secp256r1Order ∧ k + secp256r1Order < 2 ^ 256)
    (leading : scalar / 2 ^ 256 = 1) : scalar / 4 = (secp256r1Order - 1) / 2 ↔ Degenerate k := by
  have value : secp256r1Order = 115792089210356248762697446949407573529996955224135760342422259061068512044369 := by decide
  rw [Degenerate]
  rw [value] at less shape ⊢
  omega

variable {curve : Curve w} (is : IsSecp256r1 curve) {point : EccPoint w} {c : Coords SecpField} {P : secp256r1.Point}
  {k : Vli w} {initialZ : Option (Vli w)} {t : SecpField}

include is

theorem keyMult (stands : Stands curve point c) (atP : IsAt 1 c P) (order : addOrderOf P = secp256r1Order)
    (size : k.length = curve.numWords) (positive : 0 < value k) (less : value k < secp256r1Order)
    (isZ : Is curve (initialZ.getD ((vliClear w curve.numWords).set 0 1)) t) (nonzero : t ≠ 0) :
    let result := eccPointMult point (regularScalar k curve) initialZ (curve.numNBits + 1) curve
    if c.x = 0 ∨ Degenerate (value k) then Stands curve result (0 : Coords SecpField)
    else ∃ c' : Coords SecpField, Stands curve result c' ∧ IsAt 1 c' (value k • P) := by
  intro result
  obtain ⟨scalar, shape, leading, bits⟩ := regularScalar_value is size less
  have weak := degenerate_iff positive less shape leading
  have twice := twice_ne_zero order
  have numBits : curve.numNBits + 1 - 1 = 256 := by rw [Nat.add_sub_cancel, is.numNBits]
  have many : 3 ≤ curve.numNBits + 1 := by
    rw [is.numNBits]
    decide
  by_cases axis : c.x = 0
  · rw [if_pos (Or.inl axis)]
    exact eccPointMult_of_x_zero is.sound stands isZ nonzero axis
  · by_cases degenerate : Degenerate (value k)
    · rw [if_pos (Or.inr degenerate)]
      have half := weak.mpr degenerate
      have whole : 2 * ((secp256r1Order - 1) / 2) + 1 = secp256r1Order := by decide
      have sum : (2 * (scalar / 4) + 1) • P = 0 := by rw [half, whole, nsmul_eq_zero_iff order]
      exact eccPointMult_infinity is.sound stands isZ nonzero (Nat.le_of_succ_le many) (by rwa [numBits])
        (by rwa [numBits]) atP twice many (fun i low high => clear_from_third order leading i low (by omega)) sum
    · rw [if_neg (not_or.mpr ⟨axis, degenerate⟩)]
      obtain ⟨c', stands', at'⟩ := eccPointMult_at is.sound stands isZ nonzero (Nat.le_of_succ_le many) (by rwa [numBits])
        (by rwa [numBits]) atP axis twice fun i low high => clear_all order leading (weak.not.mpr degenerate) i low (by omega)
      have reached : IsAt (W := secp256r1) 1 c' (scalar • P) := at'
      have turn : secp256r1Order • P = 0 := (nsmul_eq_zero_iff order _).mpr (dvd_refl _)
      have same : scalar • P = value k • P := by
        rcases shape with rfl | ⟨rfl, _⟩
        · rw [add_nsmul, turn, add_zero]
        · rw [add_nsmul, mul_nsmul', turn, nsmul_zero, add_zero]
      rw [same] at reached
      exact ⟨c', stands', reached⟩

omit is in
theorem isZero_append (x y : Vli w) : vliIsZero (x ++ y) = true ↔ value x = 0 ∧ value y = 0 := by
  rw [vliIsZero_iff, value_append, Nat.add_eq_zero_iff, Nat.mul_eq_zero]
  have nonzero : (2 ^ w) ^ x.length ≠ 0 := Nat.ne_of_gt (Nat.pow_pos (Nat.two_pow_pos w))
  rw [or_iff_right nonzero]

omit is in
theorem stands_isZero_iff (stands : Stands curve point c) : eccPointIsZero point = true ↔ c = 0 := by
  have x := stands.x.vliIsZero_iff
  have y := stands.y.vliIsZero_iff
  rw [vliIsZero_iff] at x y
  rw [eccPointIsZero, isZero_append, x, y, Coords.ext_iff]
  rfl

omit is in
theorem coords_ne_zero (atP : IsAt 1 c P) : c ≠ 0 := by
  obtain ⟨x, y, on, rfl, cx, cy⟩ := atP
  rintro rfl
  rw [one_pow, mul_one] at cx cy
  have equation := shortCurve_equation.mp on.1
  rw [← cx, ← cy] at equation
  have none : secp256r1Coefficient = 0 := by simpa using equation.symm
  exact absurd ((ZMod.natCast_eq_zero_iff _ _).mp none) (by decide)

end Mult

end MicroEcc
