import Bridge.MicroEcc.Product

namespace MicroEcc

open Limbs

variable {w : Nat}

def vliModAdd (left right mod : Vli w) : Vli w :=
  let sum := vliAdd left right
  if sum.2 ≠ 0 ∨ vliCmpUnsafe mod sum.1 ≠ 1 then (vliSub sum.1 mod).1 else sum.1

def vliModSub (left right mod : Vli w) : Vli w :=
  let diff := vliSub left right
  if diff.2 ≠ 0 then (vliAdd diff.1 mod).1 else diff.1

def shiftWords (bitShift : Nat) : BitVec w → List (BitVec w) → List (BitVec w)
  | _, [] => []
  | carry, word :: words => (word <<< bitShift ||| carry) :: shiftWords bitShift (word >>> (w - bitShift)) words

/-- The modulus with its highest bit at the highest position of twice as many words. -/
def modMultiple (mod : Vli w) (shift : Nat) : Vli w :=
  vliClear w (shift / w) ++ if shift % w > 0 then shiftWords (shift % w) 0 mod else mod

/-- One shift to the right in two halves, with the bit that passes from one to the other. -/
def halveMultiple (numWords : Nat) (multiple : Vli w) : Vli w :=
  let low := vliRshift1 (multiple.take numWords)
  let carry := multiple.getD numWords 0 <<< (w - 1)
  low.set (numWords - 1) (low.getD (numWords - 1) 0 ||| carry) ++ vliRshift1 (multiple.drop numWords)

/-- The difference takes the place of the number where there is no borrow. -/
def mmodLoop (numWords : Nat) : Nat → Vli w → Vli w → Vli w
  | 0, v, _ => v
  | rounds + 1, v, multiple =>
    let diff := vliSub v multiple
    mmodLoop numWords rounds (if diff.2 ≠ 0 then v else diff.1) (halveMultiple numWords multiple)

def vliMmod (product mod : Vli w) (numWords : Nat) : Vli w :=
  let shift := numWords * 2 * w - vliNumBits mod
  (mmodLoop numWords (shift + 1) product (modMultiple mod shift)).take numWords

def vliModMult (left right mod : Vli w) (numWords : Nat) : Vli w :=
  vliMmod (vliMult left right numWords) mod numWords

section Sums

variable (positive : 0 < w) {left right mod : Vli w} {n : Nat} (leftSize : left.length = n) (rightSize : right.length = n)
  (modSize : mod.length = n)

theorem flag_ne_zero_iff {flag : BitVec w} : flag ≠ 0 ↔ flag.toNat ≠ 0 := by
  rw [Ne, ← BitVec.toNat_inj, BitVec.ofNat_eq_ofNat, BitVec.toNat_ofNat, Nat.zero_mod]

include positive in
theorem vliSub_wrapped {sum words : Vli w} (sumSize : sum.length = n) (size : words.length = n) {turn total : Nat}
    (few : turn ≤ 1) (whole : value sum + (2 ^ w) ^ n * turn = total) (enough : value words ≤ total)
    (fits : total < value words + (2 ^ w) ^ n) :
    (vliSub sum words).1.length = n ∧ value (vliSub sum words).1 = total - value words := by
  have length := vliSub_length sumSize size
  have room := value_lt (vliSub sum words).1
  have space := value_lt sum
  obtain ⟨bit, difference⟩ := vliSub_value positive sum words (sumSize.trans size.symm)
  rw [length] at room
  rw [sumSize] at space difference
  refine ⟨length, ?_⟩
  rcases Nat.le_one_iff_eq_zero_or_eq_one.mp few with rfl | rfl <;>
    rcases Nat.le_one_iff_eq_zero_or_eq_one.mp bit with borrowed | borrowed
  all_goals
    rw [borrowed] at difference
    omega

include positive leftSize rightSize modSize

theorem vliModAdd_value (less : value left < value mod) (less' : value right < value mod) :
    (vliModAdd left right mod).length = n ∧ value (vliModAdd left right mod) = (value left + value right) % value mod := by
  obtain ⟨bit, total⟩ := vliAdd_value positive left right (leftSize.trans rightSize.symm)
  have sumSize := vliAdd_length leftSize rightSize
  have modRoom := value_lt mod
  have room := value_lt (vliAdd left right).1
  rw [modSize] at modRoom
  rw [sumSize] at room
  rw [leftSize] at total
  simp only [vliModAdd, flag_ne_zero_iff, Ne, (vliCmpUnsafe_compares modSize sumSize).one, Nat.not_lt]
  by_cases large : ¬(vliAdd left right).2.toNat = 0 ∨ value mod ≤ value (vliAdd left right).1
  · have enough : value mod ≤ value left + value right := by
      rcases Nat.le_one_iff_eq_zero_or_eq_one.mp bit with carried | carried
      all_goals
        rw [carried] at total large
        omega
    rw [if_pos large, Nat.mod_eq_sub_mod enough, Nat.mod_eq_of_lt (by omega)]
    exact vliSub_wrapped positive sumSize modSize bit total enough (by omega)
  · obtain ⟨carried, small⟩ := not_or.mp large
    rw [not_not.mp carried, Nat.mul_zero, Nat.add_zero] at total
    rw [if_neg large, ← total, Nat.mod_eq_of_lt (Nat.not_le.mp small)]
    exact ⟨sumSize, rfl⟩

theorem vliModSub_value (less : value left < value mod) (less' : value right < value mod) :
    (vliModSub left right mod).length = n ∧
      value (vliModSub left right mod) = (value left + (value mod - value right)) % value mod := by
  obtain ⟨bit, difference⟩ := vliSub_value positive left right (leftSize.trans rightSize.symm)
  have diffSize := vliSub_length leftSize rightSize
  obtain ⟨bit', total⟩ := vliAdd_value positive (vliSub left right).1 mod (diffSize.trans modSize.symm)
  have size := vliAdd_length diffSize modSize
  have room := value_lt (vliSub left right).1
  have space := value_lt (vliAdd (vliSub left right).1 mod).1
  have modRoom := value_lt mod
  rw [diffSize] at room
  rw [size] at space
  rw [modSize] at modRoom
  rw [leftSize] at difference
  rw [diffSize] at total
  simp only [vliModSub, flag_ne_zero_iff]
  by_cases borrowed : (vliSub left right).2.toNat = 0
  · rw [borrowed, Nat.mul_zero, Nat.add_zero] at difference
    rw [if_neg (not_not_intro borrowed), Nat.mod_eq_sub_mod (by omega), Nat.mod_eq_of_lt (by omega)]
    exact ⟨diffSize, by omega⟩
  · have one : (vliSub left right).2.toNat = 1 := by omega
    rw [one, Nat.mul_one] at difference
    have carried : (vliAdd (vliSub left right).1 mod).2.toNat = 1 := by
      by_contra none
      have zero : (vliAdd (vliSub left right).1 mod).2.toNat = 0 := by omega
      rw [zero, Nat.mul_zero] at total
      omega
    rw [carried, Nat.mul_one] at total
    rw [if_pos borrowed, Nat.mod_eq_of_lt (by omega)]
    exact ⟨size, by omega⟩

end Sums

section Reduction

theorem shiftWords_length (bitShift : Nat) (carry : BitVec w) (words : List (BitVec w)) :
    (shiftWords bitShift carry words).length = words.length := by
  induction words generalizing carry with
  | nil => rfl
  | cons word words ih => rw [shiftWords, List.length_cons, ih, List.length_cons]

theorem shiftWords_value {bitShift : Nat} (inside : bitShift < w) (carry : BitVec w) (small : carry.toNat < 2 ^ bitShift)
    (words : List (BitVec w)) :
    value (shiftWords bitShift carry words) = (carry.toNat + 2 ^ bitShift * value words) % (2 ^ w) ^ words.length := by
  induction words generalizing carry with
  | nil => rw [List.length_nil, Nat.pow_zero, Nat.mod_one]; rfl
  | cons word words ih =>
    have split : 2 ^ w = 2 ^ bitShift * 2 ^ (w - bitShift) := by
      rw [← Nat.pow_add, Nat.add_sub_cancel' (Nat.le_of_lt inside)]
    have below : word.toNat / 2 ^ (w - bitShift) < 2 ^ bitShift := by
      rw [Nat.div_lt_iff_lt_mul (Nat.two_pow_pos _), ← split]
      exact word.isLt
    have fallen : (word >>> (w - bitShift)).toNat = word.toNat / 2 ^ (w - bitShift) := by
      rw [BitVec.toNat_ushiftRight, Nat.shiftRight_eq_div_pow]
    have head : (word <<< bitShift ||| carry).toNat = 2 ^ bitShift * (word.toNat % 2 ^ (w - bitShift)) + carry.toNat := by
      rw [BitVec.toNat_or, BitVec.toNat_shiftLeft, Nat.shiftLeft_eq, Nat.mul_comm, split, Nat.mul_mod_mul_left,
        Nat.two_pow_add_eq_or_of_lt small]
    have whole : carry.toNat + 2 ^ bitShift * value (word :: words) =
        (word <<< bitShift ||| carry).toNat + 2 ^ w * ((word >>> (w - bitShift)).toNat + 2 ^ bitShift * value words) := by
      have parts := Nat.mod_add_div word.toNat (2 ^ (w - bitShift))
      have scaled := congrArg (2 ^ bitShift * ·) parts
      simp only [Nat.mul_add, ← Nat.mul_assoc, ← split] at scaled
      rw [head, fallen, value_cons, Nat.mul_add, Nat.mul_add, Nat.mul_left_comm]
      omega
    rw [shiftWords, value_cons, ih _ (by rwa [fallen]), List.length_cons, Nat.pow_succ', whole, Nat.mod_mul,
      Nat.add_mul_mod_self_left, Nat.mod_eq_of_lt (word <<< bitShift ||| carry).isLt,
      Nat.add_mul_div_left _ _ (Nat.two_pow_pos w), Nat.div_eq_of_lt (word <<< bitShift ||| carry).isLt, Nat.zero_add]

theorem modMultiple_value (positive : 0 < w) {mod : Vli w} {shift : Nat}
    (fits : value mod * 2 ^ shift < (2 ^ w) ^ (shift / w + mod.length)) :
    (modMultiple mod shift).length = shift / w + mod.length ∧ value (modMultiple mod shift) = value mod * 2 ^ shift := by
  have power : 2 ^ shift = (2 ^ w) ^ (shift / w) * 2 ^ (shift % w) := by
    rw [← Nat.pow_mul, ← Nat.pow_add, Nat.div_add_mod]
  have clear : value (vliClear w (shift / w)) = 0 := value_replicate_zero _
  have cleared : (vliClear w (shift / w)).length = shift / w := List.length_replicate
  have scaled : 2 ^ (shift % w) * value mod < (2 ^ w) ^ mod.length := by
    rw [power, Nat.pow_add, Nat.mul_left_comm] at fits
    rw [Nat.mul_comm]
    exact Nat.lt_of_mul_lt_mul_left fits
  rw [modMultiple, List.length_append, value_append, clear, cleared, Nat.zero_add]
  by_cases shifted : shift % w > 0
  · have zero : (0 : BitVec w).toNat = 0 := BitVec.toNat_ofNat 0 w
    rw [if_pos shifted, shiftWords_length, shiftWords_value (Nat.mod_lt _ positive) 0 (by rw [zero]; exact Nat.two_pow_pos _),
      zero, Nat.zero_add, Nat.mod_eq_of_lt scaled, power]
    exact ⟨rfl, by ring⟩
  · have none : shift % w = 0 := Nat.eq_zero_of_not_pos shifted
    rw [if_neg shifted, power, none, Nat.pow_zero, Nat.mul_one, Nat.mul_comm]
    exact ⟨rfl, rfl⟩

theorem topBit_value (positive : 0 < w) (words : Vli w) (bit : BitVec w) {n : Nat} (size : words.length = n + 1) :
    ((vliRshift1 words).set n ((vliRshift1 words).getD n 0 ||| bit <<< (w - 1))).length = n + 1 ∧
      value ((vliRshift1 words).set n ((vliRshift1 words).getD n 0 ||| bit <<< (w - 1))) =
        (value words + (2 ^ w) ^ (n + 1) * (bit.toNat % 2)) / 2 := by
  have length : (vliRshift1 words).length = n + 1 := by rw [vliRshift1_length, size]
  have half : 2 ^ w = 2 * 2 ^ (w - 1) := by rw [Nat.mul_comm, Nat.two_pow_pred_mul_two positive]
  obtain ⟨init, top, split⟩ : ∃ init top, vliRshift1 words = init ++ [top] :=
    ⟨_, _, (List.dropLast_append_getLast (List.ne_nil_of_length_eq_add_one length)).symm⟩
  have initSize : init.length = n := by
    rw [split, List.length_append, List.length_singleton] at length
    exact Nat.succ.inj length
  have shifted := vliRshift1_value positive words
  rw [split, value_concat, initSize] at shifted
  have bound := value_lt words
  rw [size, Nat.pow_succ] at bound
  -- the shift has left the highest bit clear
  have clear : top.toNat < 2 ^ (w - 1) := by
    by_contra large
    have scaled := Nat.mul_le_mul_left ((2 ^ w) ^ n) (Nat.not_lt.mp large)
    have whole : (2 ^ w) ^ n * 2 ^ w = 2 * ((2 ^ w) ^ n * 2 ^ (w - 1)) := by
      rw [← Nat.mul_left_comm, ← half]
    omega
  have merged : (top ||| bit <<< (w - 1)).toNat = top.toNat + 2 ^ (w - 1) * (bit.toNat % 2) := by
    rw [BitVec.toNat_or, dropped_bit positive, Nat.or_comm, ← Nat.two_pow_add_eq_or_of_lt clear, Nat.add_comm]
  have found : (init ++ [top]).getD n 0 = top := by
    rw [List.getD_append_right _ _ _ _ (Nat.le_of_eq initSize), initSize, Nat.sub_self]
    rfl
  have put : (init ++ [top]).set n (top ||| bit <<< (w - 1)) = init ++ [top ||| bit <<< (w - 1)] := by
    rw [List.set_append_right _ _ (Nat.le_of_eq initSize), initSize, Nat.sub_self]
    rfl
  rw [split, found, put]
  constructor
  · rw [List.length_append, initSize, List.length_singleton]
  · have regroup : value words + (2 ^ w) ^ (n + 1) * (bit.toNat % 2) =
        value words + 2 * ((2 ^ w) ^ n * (2 ^ (w - 1) * (bit.toNat % 2))) := by
      rw [Nat.pow_succ]
      generalize (2 ^ w) ^ n = power
      rw [half]
      ring
    rw [value_concat, initSize, merged, regroup, Nat.add_mul_div_left _ _ Nat.two_pos, ← shifted, Nat.mul_add,
      Nat.add_assoc]

theorem halveMultiple_value (positive : 0 < w) {n : Nat} (some : 0 < n) {multiple : Vli w} (size : multiple.length = 2 * n) :
    (halveMultiple n multiple).length = 2 * n ∧ value (halveMultiple n multiple) = value multiple / 2 := by
  obtain ⟨n, rfl⟩ : ∃ k, n = k + 1 := ⟨n - 1, by omega⟩
  have lowSize : (multiple.take (n + 1)).length = n + 1 := by rw [List.length_take, size]; omega
  have highSize : (multiple.drop (n + 1)).length = n + 1 := by rw [List.length_drop, size]; omega
  obtain ⟨length, low⟩ := topBit_value positive (multiple.take (n + 1)) (multiple.getD (n + 1) 0) lowSize
  have high := vliRshift1_value positive (multiple.drop (n + 1))
  have split : value multiple = value (multiple.take (n + 1)) + (2 ^ w) ^ (n + 1) * value (multiple.drop (n + 1)) := by
    conv_lhs => rw [← List.take_append_drop (n + 1) multiple, value_append, lowSize]
  have parity : (multiple.getD (n + 1) 0).toNat % 2 = value (multiple.drop (n + 1)) % 2 := by
    have even : 2 ∣ 2 ^ w := dvd_pow_self 2 (Nat.ne_of_gt positive)
    have inside : n + 1 < multiple.length := by omega
    rw [List.drop_eq_getElem_cons inside, value_cons, List.getD_eq_getElem _ _ inside]
    generalize multiple[n + 1] = bottom
    rw [Nat.add_mod, Nat.mod_eq_zero_of_dvd (Dvd.dvd.mul_right even _), Nat.add_zero, Nat.mod_mod]
  rw [parity] at low
  rw [halveMultiple, Nat.add_sub_cancel]
  constructor
  · rw [List.length_append, length, vliRshift1_length, highSize]
    omega
  · rw [value_append, length, low, high, split]
    have whole := Nat.div_add_mod (value (multiple.drop (n + 1))) 2
    generalize value (multiple.drop (n + 1)) / 2 = half at whole ⊢
    have regroup : value (multiple.take (n + 1)) + (2 ^ w) ^ (n + 1) * value (multiple.drop (n + 1)) =
        value (multiple.take (n + 1)) + (2 ^ w) ^ (n + 1) * (value (multiple.drop (n + 1)) % 2) +
          2 * ((2 ^ w) ^ (n + 1) * half) := by
      conv_lhs => rw [← whole]
      ring
    rw [regroup, Nat.add_mul_div_left _ _ Nat.two_pos]

theorem mmodStep_value (positive : 0 < w) {n : Nat} {v multiple : Vli w} (vSize : v.length = n)
    (multipleSize : multiple.length = n) (below : value v < 2 * value multiple) {modulus : Nat}
    (divides : modulus ∣ value multiple) :
    let next := if (vliSub v multiple).2 ≠ 0 then v else (vliSub v multiple).1
    next.length = n ∧ value next < value multiple ∧ value next % modulus = value v % modulus := by
  intro next
  obtain ⟨bit, difference⟩ := vliSub_value positive v multiple (vSize.trans multipleSize.symm)
  have size := vliSub_length vSize multipleSize
  have room := value_lt (vliSub v multiple).1
  have bound := value_lt multiple
  rw [size] at room
  rw [multipleSize] at bound
  rw [vSize] at difference
  by_cases borrowed : (vliSub v multiple).2 = 0
  · have kept : next = (vliSub v multiple).1 := if_neg (not_not_intro borrowed)
    have none : (vliSub v multiple).2.toNat = 0 := by rw [borrowed, BitVec.ofNat_eq_ofNat, BitVec.toNat_ofNat, Nat.zero_mod]
    rw [none, Nat.mul_zero, Nat.add_zero] at difference
    rw [kept, ← difference, Nat.add_mod, Nat.mod_eq_zero_of_dvd divides, Nat.add_zero, Nat.mod_mod]
    exact ⟨size, by omega, rfl⟩
  · have kept : next = v := if_pos borrowed
    have one : (vliSub v multiple).2.toNat = 1 := by
      have nonzero := flag_ne_zero_iff.mp borrowed
      omega
    rw [one, Nat.mul_one] at difference
    rw [kept]
    exact ⟨vSize, by omega, rfl⟩

/-- Each round keeps the number below twice the multiple, and its remainder. -/
theorem mmodLoop_value (positive : 0 < w) {n : Nat} (some : 0 < n) {modulus : Nat} (rounds : Nat) {v multiple : Vli w}
    (vSize : v.length = 2 * n) (multipleSize : multiple.length = 2 * n)
    (scaled : value multiple = modulus * 2 ^ rounds) (below : value v < 2 * value multiple) :
    (mmodLoop n (rounds + 1) v multiple).length = 2 * n ∧
      value (mmodLoop n (rounds + 1) v multiple) = value v % modulus := by
  induction rounds generalizing v multiple with
  | zero =>
    rw [Nat.pow_zero, Nat.mul_one] at scaled
    obtain ⟨size, less, same⟩ := mmodStep_value positive vSize multipleSize below (dvd_of_eq scaled.symm)
    rw [scaled] at less
    rw [Nat.mod_eq_of_lt less] at same
    exact ⟨size, same⟩
  | succ rounds ih =>
    have divides : modulus ∣ value multiple := scaled ▸ Dvd.intro _ rfl
    obtain ⟨size, less, same⟩ := mmodStep_value positive vSize multipleSize below divides
    obtain ⟨halfSize, half⟩ := halveMultiple_value positive some multipleSize
    have twice : value multiple = 2 * (modulus * 2 ^ rounds) := by rw [scaled, Nat.pow_succ']; ring
    rw [twice, Nat.mul_div_cancel_left _ Nat.two_pos] at half
    rw [twice, ← half] at less
    rw [mmodLoop, ← same]
    exact ih size halfSize half less

theorem value_take {n : Nat} {words : Vli w} (size : n ≤ words.length) (less : value words < (2 ^ w) ^ n) :
    (words.take n).length = n ∧ value (words.take n) = value words := by
  have length : (words.take n).length = n := by rw [List.length_take, Nat.min_eq_left size]
  have split : value words = value (words.take n) + (2 ^ w) ^ n * value (words.drop n) := by
    conv_lhs => rw [← List.take_append_drop n words, value_append, length]
  have nothing : value (words.drop n) = 0 := by
    by_contra more
    have scaled := Nat.mul_le_mul_left ((2 ^ w) ^ n) (Nat.pos_of_ne_zero more)
    omega
  rw [split, nothing, Nat.mul_zero]
  exact ⟨length, rfl⟩

theorem topMultiple_value (positive : 0 < w) {n : Nat} (some : 0 < n) {mod : Vli w} (modSize : mod.length = n)
    (top : (2 ^ w) ^ (n - 1) ≤ value mod) {shift : Nat} (shiftIs : shift = n * 2 * w - (value mod).size) :
    (modMultiple mod shift).length = 2 * n ∧ value (modMultiple mod shift) = value mod * 2 ^ shift ∧
      (2 ^ w) ^ (2 * n) ≤ 2 * value (modMultiple mod shift) := by
  have modBound := value_lt mod
  rw [modSize] at modBound
  have few : (value mod).size ≤ n * w := by
    rw [Nat.size_le, Nat.mul_comm, Nat.pow_mul]
    exact modBound
  have many : (n - 1) * w < (value mod).size := by
    rw [Nat.lt_size, Nat.mul_comm, Nat.pow_mul]
    exact top
  have whole : n * 2 * w = n * w + n * w := by ring
  have less : (n - 1) * w + w = n * w := by rw [← Nat.succ_mul, Nat.succ_eq_add_one, Nat.sub_add_cancel some]
  have words : shift / w = n := by
    rw [Nat.div_eq_iff positive]
    omega
  have range : (value mod).size + shift = n * w + n * w := by omega
  have high : value mod * 2 ^ shift < (2 ^ w) ^ (2 * n) := by
    have scaled := Nat.mul_lt_mul_of_pos_right (Nat.lt_size_self (value mod)) (Nat.two_pow_pos shift)
    rw [← Nat.pow_add, range] at scaled
    rwa [← Nat.pow_mul, Nat.mul_comm w, Nat.two_mul, Nat.add_mul]
  have fits : value mod * 2 ^ shift < (2 ^ w) ^ (shift / w + mod.length) := by rwa [words, modSize, ← Nat.two_mul]
  obtain ⟨size, multiple⟩ := modMultiple_value positive fits
  rw [words, modSize, ← Nat.two_mul] at size
  refine ⟨size, multiple, ?_⟩
  have leading : 2 ^ ((value mod).size - 1) ≤ value mod := Nat.lt_size.mp (by omega)
  have scaled := Nat.mul_le_mul_right (2 * 2 ^ shift) leading
  have exponent : 2 ^ ((value mod).size - 1) * (2 * 2 ^ shift) = (2 ^ w) ^ (2 * n) := by
    rw [← Nat.pow_succ', ← Nat.pow_add, ← Nat.pow_mul]
    congr 1
    have twice : w * (2 * n) = n * w + n * w := by ring
    omega
  rwa [exponent, Nat.mul_left_comm, ← multiple] at scaled

/-- The remainder of a number of twice as many words, for a modulus whose top word is not 0. -/
theorem vliMmod_value (positive : 0 < w) {n : Nat} (some : 0 < n) {product mod : Vli w} (productSize : product.length = 2 * n)
    (modSize : mod.length = n) (top : (2 ^ w) ^ (n - 1) ≤ value mod) :
    (vliMmod product mod n).length = n ∧ value (vliMmod product mod n) = value product % value mod := by
  have modBound := value_lt mod
  have productBound := value_lt product
  rw [modSize] at modBound
  rw [productSize] at productBound
  obtain ⟨multipleSize, multiple, half⟩ := topMultiple_value positive some modSize top rfl
  obtain ⟨size, reduced⟩ := mmodLoop_value positive some _ productSize multipleSize multiple
    (Nat.lt_of_lt_of_le productBound half)
  have positiveMod : 0 < value mod := Nat.lt_of_lt_of_le (Nat.pow_pos (Nat.two_pow_pos w)) top
  have bound := Nat.mod_lt (value product) positiveMod
  rw [vliMmod, vliNumBits_eq, ← reduced]
  exact value_take (by omega) (by omega)

theorem vliModMult_value (positive : 0 < w) {n : Nat} (some : 0 < n) (few : n ≤ 2 ^ w) {left right mod : Vli w}
    (leftSize : left.length = n) (rightSize : right.length = n) (modSize : mod.length = n)
    (top : (2 ^ w) ^ (n - 1) ≤ value mod) :
    (vliModMult left right mod n).length = n ∧
      value (vliModMult left right mod n) = value left * value right % value mod := by
  obtain ⟨size, product⟩ := vliMult_value left right positive some few leftSize rightSize
  rw [vliModMult, ← product]
  exact vliMmod_value positive some size modSize top

theorem vliModMult_value_sample :
    value (vliModMult [0x34#8, 0x12] [0x78, 0x56] [0xf1, 0xff] 2) = 0x1234 * 0x5678 % 0xfff1 := by
  have reduced : (vliModMult [0x34#8, 0x12] [0x78, 0x56] [0xf1, 0xff] 2).length = 2 ∧
      value (vliModMult [0x34#8, 0x12] [0x78, 0x56] [0xf1, 0xff] 2) =
        value [0x34#8, 0x12] * value [0x78#8, 0x56] % value [0xf1#8, 0xff] :=
    vliModMult_value (by decide) (by decide) (by decide) rfl rfl rfl (by decide)
  exact reduced.2

end Reduction

end MicroEcc
