import Bridge.MicroEcc.Keys

namespace MicroEcc

open Limbs CoZ

variable {w : Nat} {σ : Type}

section Bytes

theorem wordsToBytes_value (octets : 8 ∣ w) (words : Vli w) :
    (wordsToBytes words).length = words.length * (w / 8) ∧ value (wordsToBytes words) = value words := by
  have power : (2 ^ 8) ^ (w / 8) = 2 ^ w := by rw [← Nat.pow_mul, Nat.mul_div_cancel' octets]
  induction words with
  | nil => exact ⟨(Nat.zero_mul _).symm, rfl⟩
  | cons word words ih =>
    have head : wordsToBytes (word :: words) = Limbs.ofNat 8 (w / 8) word.toNat ++ wordsToBytes words := rfl
    rw [head, List.length_append, Limbs.ofNat_length, ih.1, List.length_cons, value_append, Limbs.ofNat_length, ih.2,
      value_ofNat, power, Nat.mod_eq_of_lt word.isLt, value_cons]
    exact ⟨by ring, rfl⟩

def numberBytes (number : Nat) : List (BitVec 8) := Limbs.ofNat 8 32 number

theorem bytes_eq_numberBytes {bytes : List (BitVec 8)} (size : bytes.length = 32) : bytes = numberBytes (value bytes) := by
  have room := value_lt bytes
  rw [size] at room
  apply value_injective
  · rw [size, numberBytes, Limbs.ofNat_length]
  · rw [numberBytes, value_ofNat, Nat.mod_eq_of_lt room]

end Bytes

structure PublicBytes (bytes : List (BitVec 8)) (P : secp256r1.Point) (c : Coords SecpField) : Prop where
  at_ : IsAt 1 c P
  x : bytes.take 32 = numberBytes c.x.val
  y : bytes.drop 32 = numberBytes c.y.val

def encodePoint : secp256r1.Point → List (BitVec 8)
  | .zero => List.replicate 64 0
  | .some x y _ => numberBytes x.val ++ numberBytes y.val

theorem PublicBytes.eq_encodePoint {bytes : List (BitVec 8)} {P : secp256r1.Point} {c : Coords SecpField}
    (key : PublicBytes bytes P c) : bytes = encodePoint P := by
  obtain ⟨x, y, on, rfl, cx, cy⟩ := key.at_
  rw [one_pow, mul_one] at cx cy
  rw [encodePoint, ← cx, ← cy, ← key.x, ← key.y, List.take_append_drop]

theorem encodePoint_publicBytes {P : secp256r1.Point} (some : P ≠ 0) : ∃ c, PublicBytes (encodePoint P) P c := by
  cases P with
  | zero => exact absurd rfl some
  | some x y on =>
    have size : (numberBytes x.val).length = 32 := Limbs.ofNat_length _ _
    exact ⟨⟨x, y⟩, ⟨_, _, on, rfl, by rw [one_pow, mul_one], by rw [one_pow, mul_one]⟩, List.take_left' size, List.drop_left' size⟩

section Curves

variable {curve : Curve w} (is : IsSecp256r1 curve)

include is

theorem words_bytes {words : Vli w} (size : words.length = curve.numWords) :
    (wordsToBytes words).length = 32 ∧ wordsToBytes words = numberBytes (value words) := by
  obtain ⟨length, same⟩ := wordsToBytes_value is.octets words
  rw [size, (word_count is).1] at length
  refine ⟨length, ?_⟩
  rw [← same]
  exact bytes_eq_numberBytes length

theorem bytesToWords_numberBytes {number : Nat} (fits : number < 2 ^ 256) :
    value (bytesToWords w curve.numWords (numberBytes number)) = number := by
  have room : (2 ^ 8) ^ 32 = 2 ^ 256 := by decide
  rw [bytesToWords_value is.octets _ _ (by rw [(word_count is).1, numberBytes, Limbs.ofNat_length]), numberBytes, value_ofNat,
    room, Nat.mod_eq_of_lt fits]

theorem Stands.publicBytes {point : EccPoint w} {c : Coords SecpField} {P : secp256r1.Point} (stands : Stands curve point c)
    (atP : IsAt 1 c P) : PublicBytes (pointBytes point) P c := by
  obtain ⟨xSize, xBytes⟩ := words_bytes is stands.x.size
  obtain ⟨ySize, yBytes⟩ := words_bytes is stands.y.size
  refine ⟨atP, ?_, ?_⟩
  · rw [pointBytes, List.take_left' xSize, xBytes, stands.x.value_eq]
  · rw [pointBytes, List.drop_left' xSize, yBytes, stands.y.value_eq]

theorem numberBytes_is (a : SecpField) : Is curve (bytesToWords w curve.numWords (numberBytes a.val)) a := by
  have less := ZMod.val_lt a
  have fits : a.val < 2 ^ 256 := Nat.lt_trans less (by decide)
  have same := bytesToWords_numberBytes is fits
  exact ⟨bytesToWords_length _ _ _, by rwa [same], by rw [same, ZMod.natCast_zmod_val]⟩

theorem PublicBytes.readPoint {bytes : List (BitVec 8)} {P : secp256r1.Point} {c : Coords SecpField}
    (key : PublicBytes bytes P c) : Stands curve (readPoint bytes curve) c := by
  rw [MicroEcc.readPoint, is.numBytes, key.x, key.y]
  exact ⟨numberBytes_is is c.x, numberBytes_is is c.y⟩

theorem generator_stands : Stands curve curve.generator baseCoords := by
  have size := bytesToWords_length w curve.numWords secp256r1GX
  have room := (word_count is).1
  have words : ∀ bytes : List (BitVec 8), bytes.length = 32 → value bytes < secp256r1Modulus →
      Is curve (bytesToWords w curve.numWords bytes) ((value bytes : Nat) : SecpField) := by
    intro bytes length less
    have same := bytesToWords_value is.octets curve.numWords bytes (by rw [length, room])
    exact ⟨bytesToWords_length _ _ _, by rwa [same], by rw [same]⟩
  rw [Curve.generator, is.g, List.take_left' size, List.drop_left' size]
  exact ⟨words _ rfl (by decide), words _ rfl (by decide)⟩

theorem unit_is : Is curve ((none : Option (Vli w)).getD ((vliClear w curve.numWords).set 0 1)) (1 : SecpField) :=
  one_is is.sound (by decide)

theorem eccPointComputePublicKey_spec {k : Vli w} (size : k.length = curve.numWords) (positive : 0 < value k)
    (less : value k < secp256r1Order) :
    ((eccPointComputePublicKey k curve).2 = true ↔ ¬Degenerate (value k)) ∧
      ((eccPointComputePublicKey k curve).2 = true → ∃ c : Coords SecpField,
        Stands curve (eccPointComputePublicKey k curve).1 c ∧ IsAt 1 c (value k • basePoint)) := by
  have mult := keyMult is (generator_stands is) baseCoords_at basePoint_order size positive less (unit_is is) one_ne_zero
  have axis : ¬baseCoords.x = 0 := baseCoords_x
  simp only [axis, false_or] at mult
  have flag : (eccPointComputePublicKey k curve).2 = true ↔
      ¬eccPointIsZero (eccPointComputePublicKey k curve).1 = true := by
    rw [eccPointComputePublicKey, Bool.not_eq_true', Bool.not_eq_true]
  by_cases degenerate : Degenerate (value k)
  · rw [if_pos degenerate] at mult
    have zero := (stands_isZero_iff mult).mpr rfl
    have off : ¬(eccPointComputePublicKey k curve).2 = true := by
      rw [flag]
      exact not_not_intro zero
    exact ⟨iff_of_false off (not_not_intro degenerate), fun on => absurd on off⟩
  · rw [if_neg degenerate] at mult
    obtain ⟨c, stands, atP⟩ := mult
    have some := (stands_isZero_iff stands).not.mpr (coords_ne_zero atP)
    exact ⟨iff_of_true (flag.mpr some) degenerate, fun _ => ⟨c, stands, atP⟩⟩

theorem vliCmp_above_iff {top random : Vli w} (topSize : top.length = curve.numWords) (size : random.length = curve.numWords) :
    vliCmp top random = 1 ↔ value random < value top := by
  rw [vliCmp_eq is.sound.positive top random (topSize.trans size.symm), (vliCmpUnsafe_compares topSize size).one]

theorem generateRandomLoop_range {rng : Rng σ} {top : Vli w} (topSize : top.length = curve.numWords) (tries : Nat) {state : σ}
    {random : Vli w} (drawn : (generateRandomLoop rng top curve.numWords tries state).1 = some random) :
    random.length = curve.numWords ∧ 0 < value random ∧ value random < value top := by
  induction tries generalizing state with
  | zero => cases drawn
  | succ tries ih =>
    rw [generateRandomLoop] at drawn
    cases filled : rng.fill state (curve.numWords * (w / 8)) with
    | mk outcome next =>
      rw [filled] at drawn
      cases outcome with
      | none => cases drawn
      | some bytes =>
        have size : (maskRandom (bytesToWords w curve.numWords bytes.val) top curve.numWords).length = curve.numWords := by
          rw [maskRandom, List.length_set, bytesToWords_length]
        simp only [vliCmp_above_iff is topSize size, Bool.not_eq_true'] at drawn
        split at drawn
        · rename_i accepted
          obtain ⟨nonzero, below⟩ := accepted
          rw [Option.some.injEq] at drawn
          rw [← drawn]
          have some := (vliIsZero_iff _).not.mp (Bool.not_eq_true _ ▸ nonzero)
          exact ⟨size, Nat.pos_of_ne_zero some, below⟩
        · exact ih drawn

theorem generateRandomInt_range {rng : Option (Rng σ)} {top : Vli w} (topSize : top.length = curve.numWords) {state : σ}
    {random : Vli w} (drawn : (generateRandomInt rng top curve.numWords state).1 = some random) :
    random.length = curve.numWords ∧ 0 < value random ∧ value random < value top := by
  cases rng with
  | none => cases drawn
  | some rng => exact generateRandomLoop_range is topSize _ drawn

omit is in
theorem multiple_order {k : Nat} (positive : 0 < k) (less : k < secp256r1Order) :
    addOrderOf (k • basePoint) = secp256r1Order := by
  have : Fact secp256r1Order.Prime := ⟨secp256r1Order_prime⟩
  apply addOrderOf_eq_prime
  · rw [smul_comm, (nsmul_eq_zero_iff basePoint_order secp256r1Order).mpr (dvd_refl _), nsmul_zero]
  · rw [Ne, nsmul_eq_zero_iff basePoint_order]
    exact Nat.not_dvd_of_pos_of_lt positive less

structure PrivateKey (k : Nat) : Prop where
  positive : 0 < k
  less : k < secp256r1Order
  regular : ¬Degenerate k

theorem makeKeyLoop_keys {rng : Option (Rng σ)} (tries : Nat) {state : σ} {publicKey : EccPoint w} {privateKey : Vli w}
    (made : (makeKeyLoop rng curve tries state).1 = some (publicKey, privateKey)) :
    privateKey.length = curve.numWords ∧ PrivateKey (value privateKey) ∧
      eccPointComputePublicKey privateKey curve = (publicKey, true) := by
  induction tries generalizing state with
  | zero => cases made
  | succ tries ih =>
    rw [makeKeyLoop, (word_count is).2] at made
    cases drawn : generateRandomInt rng curve.n curve.numWords state with
    | mk outcome next =>
      rw [drawn] at made
      cases outcome with
      | none => cases made
      | some key =>
        obtain ⟨nSize, nValue⟩ := order_words is
        obtain ⟨size, positive, less⟩ := generateRandomInt_range is nSize (congrArg Prod.fst drawn)
        rw [nValue] at less
        have regular := (eccPointComputePublicKey_spec is size positive less).1
        cases computed : eccPointComputePublicKey key curve with
        | mk point ok =>
          simp only [computed] at made
          rw [computed] at regular
          cases ok with
          | true =>
            rw [if_pos rfl, Option.some.injEq, Prod.mk.injEq] at made
            obtain ⟨rfl, rfl⟩ := made
            exact ⟨size, ⟨positive, less, regular.mp rfl⟩, computed⟩
          | false => exact ih made

theorem computePublicKey_spec {k : Nat} (fits : k < 2 ^ 256) :
    ((computePublicKey (numberBytes k) curve).isSome = true ↔ PrivateKey k) ∧
      ∀ publicKey, computePublicKey (numberBytes k) curve = some publicKey →
        ∃ c, PublicBytes publicKey (k • basePoint) c := by
  obtain ⟨nSize, nValue⟩ := order_words is
  have number := bytesToWords_numberBytes is fits
  have size := bytesToWords_length w curve.numWords (numberBytes k)
  have zero := vliIsZero_iff (bytesToWords w curve.numWords (numberBytes k))
  have above := vliCmp_above_iff is nSize size
  rw [number] at zero
  rw [number, nValue] at above
  simp only [computePublicKey, (word_count is).2, zero, Ne, above]
  by_cases none : k = 0
  · rw [if_pos none]
    exact ⟨iff_of_false (by simp) fun key => absurd none (Nat.ne_of_gt key.positive), fun _ impossible => by cases impossible⟩
  · rw [if_neg none]
    by_cases less : k < secp256r1Order
    · have positive : 0 < value (bytesToWords w curve.numWords (numberBytes k)) := by
        rw [number]
        exact Nat.pos_of_ne_zero none
      obtain ⟨flag, point⟩ := eccPointComputePublicKey_spec is size positive (by rwa [number])
      rw [number] at flag point
      rw [if_neg (not_not_intro less)]
      by_cases ok : (eccPointComputePublicKey (bytesToWords w curve.numWords (numberBytes k)) curve).2 = true
      · obtain ⟨c, stands, atP⟩ := point ok
        rw [if_pos ok]
        refine ⟨iff_of_true rfl ⟨Nat.pos_of_ne_zero none, less, flag.mp ok⟩, ?_⟩
        intro publicKey same
        rw [Option.some.injEq] at same
        rw [← same]
        exact ⟨c, stands.publicBytes is atP⟩
      · rw [if_neg ok]
        exact ⟨iff_of_false (by simp) fun key => ok (flag.mpr key.regular), fun _ impossible => by cases impossible⟩
    · rw [if_pos less]
      exact ⟨iff_of_false (by simp) fun key => less key.less, fun _ impossible => by cases impossible⟩

omit is in
theorem privateKey_iff (k : Nat) : PrivateKey k ↔ 2 ≤ k ∧ k + 3 ≤ secp256r1Order := by
  have order : secp256r1Order = 115792089210356248762697446949407573529996955224135760342422259061068512044369 := by decide
  constructor
  · rintro ⟨positive, less, regular⟩
    rw [Degenerate] at regular
    rw [order] at less regular ⊢
    omega
  · rintro ⟨low, high⟩
    refine ⟨by omega, by omega, ?_⟩
    rw [Degenerate]
    rw [order] at high ⊢
    omega

/-- What `uECC_compute_public_key` gives for any 32 bytes. -/
theorem computePublicKey_exact {privateKey : List (BitVec 8)} (size : privateKey.length = 32) :
    computePublicKey privateKey curve =
      if 2 ≤ value privateKey ∧ value privateKey + 3 ≤ secp256r1Order then
        some (encodePoint (value privateKey • basePoint))
      else none := by
  have fits := value_lt privateKey
  rw [size] at fits
  obtain ⟨succeeds, key⟩ := computePublicKey_spec is (Nat.lt_of_lt_of_le fits (by decide))
  rw [← bytes_eq_numberBytes size, privateKey_iff] at succeeds
  rw [← bytes_eq_numberBytes size] at key
  cases computed : computePublicKey privateKey curve with
  | none =>
    rw [computed] at succeeds
    rw [if_neg (succeeds.not.mp Bool.false_ne_true)]
  | some publicKey =>
    obtain ⟨c, point⟩ := key publicKey computed
    rw [computed] at succeeds
    rw [if_pos (succeeds.mp rfl), point.eq_encodePoint]

omit is in
theorem computePublicKey_exact_two :
    computePublicKey (numberBytes 2) curveSecp256r1Word4 = some (encodePoint (value (numberBytes 2) • basePoint)) := by
  rw [computePublicKey_exact curveSecp256r1Word4_is rfl, if_pos (by decide)]

theorem makeKey_spec {rng : Option (Rng σ)} {state : σ} {publicKey privateKey : List (BitVec 8)}
    (made : (makeKey rng curve state).1 = some (publicKey, privateKey)) :
    ∃ k, PrivateKey k ∧ privateKey = numberBytes k ∧ computePublicKey privateKey curve = some publicKey := by
  obtain ⟨keys, loop, same⟩ := Option.map_eq_some_iff.mp made
  obtain ⟨size, key, computed⟩ := makeKeyLoop_keys is rngMaxTries loop
  obtain ⟨rfl, rfl⟩ := Prod.mk.inj same
  obtain ⟨length, bytes⟩ := words_bytes is size
  obtain ⟨nSize, nValue⟩ := order_words is
  have fits : value keys.2 < 2 ^ 256 := Nat.lt_trans key.less (by decide)
  have back : bytesToWords w curve.numWords (wordsToBytes keys.2) = keys.2 := by
    apply value_injective
    · rw [bytesToWords_length, size]
    · rw [bytes, bytesToWords_numberBytes is fits]
  have zero : ¬vliIsZero keys.2 = true := (vliIsZero_iff _).not.mpr (Nat.ne_of_gt key.positive)
  have above := (vliCmp_above_iff is nSize size).mpr (by rw [nValue]; exact key.less)
  refine ⟨value keys.2, key, bytes, ?_⟩
  rw [computePublicKey]
  simp only [(word_count is).2, back, computed]
  rw [if_neg zero, if_neg (not_not_intro above), if_pos trivial]

theorem makeKey_drawn {rng : Option (Rng σ)} {state next : σ} {key : Vli w}
    (drawn : generateRandomInt rng curve.n curve.numWords state = (some key, next)) (private' : PrivateKey (value key)) :
    ∃ publicKey, makeKey rng curve state = (some (publicKey, wordsToBytes key), next) := by
  obtain ⟨nSize, _⟩ := order_words is
  obtain ⟨size, _⟩ := generateRandomInt_range is nSize (congrArg Prod.fst drawn)
  have ok := (eccPointComputePublicKey_spec is size private'.positive private'.less).1.mpr private'.regular
  have tries : rngMaxTries = 63 + 1 := rfl
  rw [makeKey, tries, makeKeyLoop, (word_count is).2, drawn]
  simp only [ok, if_true]
  exact ⟨_, rfl⟩

omit is in
def abscissa : secp256r1.Point → SecpField
  | .zero => 0
  | .some x _ _ => x

omit is in
theorem abscissa_eq {c : Coords SecpField} {P : secp256r1.Point} (atP : IsAt 1 c P) : abscissa P = c.x := by
  obtain ⟨x, y, on, rfl, cx, _⟩ := atP
  rw [cx, one_pow, mul_one]
  rfl

theorem sharedSecret_finish {publicKey : List (BitVec 8)} {P : secp256r1.Point} {c : Coords SecpField}
    (key : PublicBytes publicKey P c) (order : addOrderOf P = secp256r1Order) {k : Nat} (private' : PrivateKey k)
    (initialZ : Option (Vli w)) {t : SecpField} (isZ : Is curve (initialZ.getD ((vliClear w curve.numWords).set 0 1)) t)
    (nonzero : t ≠ 0) :
    let result := eccPointMult (readPoint publicKey curve)
      (regularScalar (bytesToWords w curve.numWords (numberBytes k)) curve) initialZ (curve.numNBits + 1) curve
    (if eccPointIsZero result then none else some ((wordsToBytes result.x).take curve.numBytes)) =
      if abscissa P = 0 then none else some (numberBytes (abscissa (k • P)).val) := by
  have number := bytesToWords_numberBytes is (Nat.lt_trans private'.less (by decide))
  have mult := keyMult is (key.readPoint is) key.at_ order (bytesToWords_length w curve.numWords (numberBytes k))
    (by rw [number]; exact private'.positive) (by rw [number]; exact private'.less) isZ nonzero
  simp only [number, private'.regular, or_false, ← abscissa_eq key.at_] at mult
  intro result
  by_cases axis : abscissa P = 0
  · rw [if_pos axis] at mult ⊢
    rw [if_pos ((stands_isZero_iff mult).mpr rfl)]
  · rw [if_neg axis] at mult ⊢
    obtain ⟨c', stands, at'⟩ := mult
    obtain ⟨length, bytes⟩ := words_bytes is stands.x.size
    rw [if_neg ((stands_isZero_iff stands).not.mpr (coords_ne_zero at')), is.numBytes,
      List.take_of_length_le (Nat.le_of_eq length), bytes, stands.x.value_eq, abscissa_eq at']

theorem sharedSecret_drawn {rng : Rng σ} {state next : σ} {z : Vli w}
    (drawn : generateRandomInt (some rng) curve.p curve.numWords state = (some z, next)) {publicKey : List (BitVec 8)}
    {P : secp256r1.Point} {c : Coords SecpField} (key : PublicBytes publicKey P c) (order : addOrderOf P = secp256r1Order)
    {k : Nat} (private' : PrivateKey k) :
    sharedSecret (some rng) publicKey (numberBytes k) curve state =
      (if abscissa P = 0 then none else some (numberBytes (abscissa (k • P)).val), next) := by
  obtain ⟨zSize, positive, less⟩ := generateRandomInt_range is is.sound.size (congrArg Prod.fst drawn)
  rw [is.sound.modulus] at less
  have isZ : Is curve z ((value z : Nat) : SecpField) := ⟨zSize, less, rfl⟩
  have nonzero : ((value z : Nat) : SecpField) ≠ 0 := by
    rw [Ne, ZMod.natCast_eq_zero_iff]
    exact Nat.not_dvd_of_pos_of_lt positive less
  have finish := sharedSecret_finish is key order private' (some z) isZ nonzero
  rw [sharedSecret, drawn]
  exact congrArg (·, next) finish

theorem sharedSecret_spec {rng : Option (Rng σ)} {state : σ} {publicKey : List (BitVec 8)} {P : secp256r1.Point}
    {c : Coords SecpField} (key : PublicBytes publicKey P c) (order : addOrderOf P = secp256r1Order) {k : Nat}
    (private' : PrivateKey k) :
    let secret := if abscissa P = 0 then none else some (numberBytes (abscissa (k • P)).val)
    ((sharedSecret rng publicKey (numberBytes k) curve state).1 = secret ∨
      rng ≠ none ∧ (sharedSecret rng publicKey (numberBytes k) curve state).1 = none) := by
  intro secret
  cases rng with
  | none => exact Or.inl (sharedSecret_finish is key order private' none (unit_is is) one_ne_zero)
  | some rng =>
    cases drawn : generateRandomInt (some rng) curve.p curve.numWords state with
    | mk outcome next =>
      cases outcome with
      | none =>
        rw [sharedSecret, drawn]
        exact Or.inr ⟨Option.some_ne_none rng, rfl⟩
      | some z =>
        rw [sharedSecret_drawn is drawn key order private']
        exact Or.inl rfl

end Curves

/-- Two parties come to one secret, whatever the sizes of their words and their random denominators. -/
theorem sharedSecret_agrees {w' : Nat} {σ' : Type} {curve : Curve w} {curve' : Curve w'} (is : IsSecp256r1 curve)
    (is' : IsSecp256r1 curve') {k k' : Nat} (key : PrivateKey k) (key' : PrivateKey k') {publicKey publicKey' : List (BitVec 8)}
    (made : computePublicKey (numberBytes k) curve = some publicKey)
    (made' : computePublicKey (numberBytes k') curve' = some publicKey') (rng : Option (Rng σ)) (rng' : Option (Rng σ'))
    (state : σ) (state' : σ') {secret secret' : List (BitVec 8)}
    (shared : (sharedSecret rng publicKey' (numberBytes k) curve state).1 = some secret)
    (shared' : (sharedSecret rng' publicKey (numberBytes k') curve' state').1 = some secret') : secret = secret' := by
  obtain ⟨c, point⟩ := (computePublicKey_spec is (Nat.lt_trans key.less (by decide))).2 _ made
  obtain ⟨c', point'⟩ := (computePublicKey_spec is' (Nat.lt_trans key'.less (by decide))).2 _ made'
  have spec := @sharedSecret_spec w σ curve is rng state _ _ _ point' (multiple_order key'.positive key'.less) _ key
  have spec' := @sharedSecret_spec w' σ' curve' is' rng' state' _ _ _ point (multiple_order key.positive key.less) _ key'
  simp only [shared, shared', reduceCtorEq, and_false, or_false] at spec spec'
  split at spec
  · cases spec
  · split at spec'
    · cases spec'
    · rw [Option.some.injEq] at spec spec'
      rw [spec, spec', smul_comm]

/-- Two key pairs that `uECC_make_key` made share one secret. -/
theorem keyExchange_agrees {w' : Nat} {σ' : Type} {curve : Curve w} {curve' : Curve w'} (is : IsSecp256r1 curve)
    (is' : IsSecp256r1 curve') (rng : Option (Rng σ)) (rng' : Option (Rng σ')) (state shareState : σ) (state' shareState' : σ')
    {publicKey privateKey publicKey' privateKey' secret secret' : List (BitVec 8)}
    (made : (makeKey rng curve state).1 = some (publicKey, privateKey))
    (made' : (makeKey rng' curve' state').1 = some (publicKey', privateKey'))
    (shared : (sharedSecret rng publicKey' privateKey curve shareState).1 = some secret)
    (shared' : (sharedSecret rng' publicKey privateKey' curve' shareState').1 = some secret') : secret = secret' := by
  obtain ⟨k, key, rfl, computed⟩ := makeKey_spec is made
  obtain ⟨k', key', rfl, computed'⟩ := makeKey_spec is' made'
  exact sharedSecret_agrees is is' key key' computed computed' rng rng' shareState shareState' shared shared'

section Steady

def steadyRng : Rng Unit where
  fill := fun state size => (some ⟨List.ofFn fun i : Fin size => if i.val = 0 then 2 else 0, List.length_ofFn⟩, state)

theorem baseCoords_double : (double (-3) baseCoords 1).1.x ≠ 0 := by
  have differ : (((3 * value secp256r1GX ^ 2) ^ 2 + 9 : Nat) : SecpField) ≠
      ((8 * value secp256r1GX * value secp256r1GY ^ 2 + 18 * value secp256r1GX ^ 2 : Nat) : SecpField) := by
    rw [Ne, ZMod.natCast_eq_natCast_iff']
    decide
  intro zero
  apply differ
  have two := secpField_two
  have four : ((3 * baseCoords.x ^ 2 + -3 * 1 ^ 4) / 2) ^ 2 * 4 = (3 * baseCoords.x ^ 2 - 3) ^ 2 := by
    field_simp
    ring
  simp only [double] at zero
  push_cast
  change (3 * baseCoords.x ^ 2) ^ 2 + 9 = 8 * baseCoords.x * baseCoords.y ^ 2 + 18 * baseCoords.x ^ 2
  linear_combination 4 * zero - four

theorem abscissa_two : abscissa ((2 : ℕ) • basePoint) ≠ 0 := by
  obtain ⟨nonzero, _, x, y, on, same, cx, cy⟩ := baseCoords_at.double secp256r1_short one_ne_zero
    (two_nsmul_ne_zero secp256r1_short baseCoords_y)
  intro zero
  rw [same] at zero
  have none : x = 0 := zero
  rw [none, zero_mul] at cx
  exact baseCoords_double cx

variable {curve : Curve w} (is : IsSecp256r1 curve)

theorem privateKey_two : PrivateKey 2 := (privateKey_iff 2).mpr (by decide)

include is

theorem steadyRng_makes {key : Vli w} (drawn : generateRandomInt (some steadyRng) curve.n curve.numWords () = (some key, ()))
    (two : value key = 2) : ∃ publicKey c, (makeKey (some steadyRng) curve ()).1 = some (publicKey, numberBytes 2) ∧
      PublicBytes publicKey ((2 : ℕ) • basePoint) c := by
  obtain ⟨publicKey, made⟩ := makeKey_drawn is drawn (by rw [two]; exact privateKey_two)
  obtain ⟨nSize, _⟩ := order_words is
  obtain ⟨size, _⟩ := generateRandomInt_range is nSize (congrArg Prod.fst drawn)
  have bytes := (words_bytes is size).2
  rw [two] at bytes
  have computed := congrArg Prod.fst made
  obtain ⟨k, _, same, published⟩ := makeKey_spec is computed
  rw [bytes] at made published
  obtain ⟨c, key⟩ := (computePublicKey_spec is (by decide : 2 < 2 ^ 256)).2 publicKey published
  exact ⟨publicKey, c, congrArg Prod.fst made, key⟩

theorem steadyRng_shares {z : Vli w} (drawn : generateRandomInt (some steadyRng) curve.p curve.numWords () = (some z, ()))
    {publicKey : List (BitVec 8)} {c : Coords SecpField} (key : PublicBytes publicKey ((2 : ℕ) • basePoint) c) :
    ∃ secret, (sharedSecret (some steadyRng) publicKey (numberBytes 2) curve ()).1 = some secret := by
  have less : 2 < secp256r1Order := by decide
  have shared := sharedSecret_drawn is drawn key (multiple_order (by decide : 0 < 2) less) privateKey_two
  rw [if_neg abscissa_two] at shared
  exact ⟨_, congrArg Prod.fst shared⟩

end Steady

theorem keyExchange_agrees_steady : ∃ publicKey privateKey publicKey' privateKey' secret secret' : List (BitVec 8),
    (makeKey (some steadyRng) curveSecp256r1Word4 ()).1 = some (publicKey, privateKey) ∧
      (makeKey (some steadyRng) curveSecp256r1Word8 ()).1 = some (publicKey', privateKey') ∧
      (sharedSecret (some steadyRng) publicKey' privateKey curveSecp256r1Word4 ()).1 = some secret ∧
      (sharedSecret (some steadyRng) publicKey privateKey' curveSecp256r1Word8 ()).1 = some secret' ∧ secret = secret' := by
  have is := curveSecp256r1Word4_is
  have is' := curveSecp256r1Word8_is
  have drawn : generateRandomInt (some steadyRng) curveSecp256r1Word4.n 8 () = (some [2, 0, 0, 0, 0, 0, 0, 0], ()) := by
    decide +kernel
  have drawn' : generateRandomInt (some steadyRng) curveSecp256r1Word8.n 4 () = (some [2, 0, 0, 0], ()) := by decide +kernel
  have masked : generateRandomInt (some steadyRng) curveSecp256r1Word4.p 8 () = (some [2, 0, 0, 0, 0, 0, 0, 0], ()) := by
    decide +kernel
  have masked' : generateRandomInt (some steadyRng) curveSecp256r1Word8.p 4 () = (some [2, 0, 0, 0], ()) := by decide +kernel
  obtain ⟨publicKey, c, made, key⟩ := steadyRng_makes is drawn (by decide)
  obtain ⟨publicKey', c', made', key'⟩ := steadyRng_makes is' drawn' (by decide)
  obtain ⟨secret, shared⟩ := steadyRng_shares is masked key'
  obtain ⟨secret', shared'⟩ := steadyRng_shares is' masked' key
  exact ⟨publicKey, _, publicKey', _, secret, secret', made, made', shared, shared',
    keyExchange_agrees is is' _ _ () () () () made made' shared shared'⟩

end MicroEcc
