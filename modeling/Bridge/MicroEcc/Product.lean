import Bridge.Library.Convolution
import Bridge.MicroEcc.Vli

namespace MicroEcc

open Limbs

variable {w : Nat}

structure Acc (w : Nat) where
  r0 : BitVec w
  r1 : BitVec w
  r2 : BitVec w
deriving DecidableEq, Repr

def muladd (a b : BitVec w) (r : Acc w) : Acc w :=
  let p : BitVec (2 * w) := a.setWidth (2 * w) * b.setWidth (2 * w)
  let r01 : BitVec (2 * w) := (r.r1.setWidth (2 * w) <<< w ||| r.r0.setWidth (2 * w)) + p
  { r0 := r01.setWidth w
    r1 := (r01 >>> w).setWidth w
    r2 := r.r2 + if r01 < p then 1 else 0 }

def multColumn (left right : Vli w) (k : Nat) (is : List Nat) (r : Acc w) : Acc w :=
  is.foldl (fun r i => muladd (left.getD i 0) (right.getD (k - i) 0) r) r

def multColumns (left right : Vli w) (indices : Nat → List Nat) : List Nat → Acc w → Vli w × Acc w
  | [], r => ([], r)
  | k :: ks, r =>
    let r := multColumn left right k (indices k) r
    let rest := multColumns left right indices ks ⟨r.r1, r.r2, 0⟩
    (r.r0 :: rest.1, rest.2)

/-- Each word of the result in sequence, first with the columns that grow, then with those that
    shrink. -/
def vliMult (left right : Vli w) (numWords : Nat) : Vli w :=
  let low := multColumns left right (fun k => List.range (k + 1)) (List.range numWords) ⟨0, 0, 0⟩
  let high := multColumns left right (fun k => List.range' (k + 1 - numWords) (2 * numWords - 1 - k))
    (List.range' numWords (numWords - 1)) low.2
  low.1 ++ high.1 ++ [high.2.r0]

def Acc.value (r : Acc w) : Nat := r.r0.toNat + 2 ^ w * (r.r1.toNat + 2 ^ w * r.r2.toNat)

theorem double_width (w : Nat) : 2 ^ (2 * w) = 2 ^ w * 2 ^ w := by rw [Nat.two_mul, Nat.pow_add]

theorem double_cast (x : BitVec w) : (x.setWidth (2 * w)).toNat = x.toNat := by
  have wide : 2 ^ w ≤ 2 ^ w * 2 ^ w := Nat.le_mul_of_pos_left _ (Nat.two_pow_pos w)
  rw [BitVec.toNat_setWidth, double_width, Nat.mod_eq_of_lt (Nat.lt_of_lt_of_le x.isLt wide)]

theorem double_mul (a b : BitVec w) : (a.setWidth (2 * w) * b.setWidth (2 * w)).toNat = a.toNat * b.toNat := by
  have product : a.toNat * b.toNat < 2 ^ w * 2 ^ w := Nat.mul_lt_mul'' a.isLt b.isLt
  rw [BitVec.toNat_mul, double_cast, double_cast, double_width, Nat.mod_eq_of_lt product]

theorem double_word (top bottom : BitVec w) :
    (top.setWidth (2 * w) <<< w ||| bottom.setWidth (2 * w)).toNat = 2 ^ w * top.toNat + bottom.toNat := by
  have room : 2 ^ w * top.toNat < 2 ^ w * 2 ^ w := Nat.mul_lt_mul_of_pos_left top.isLt (Nat.two_pow_pos w)
  rw [BitVec.toNat_or, BitVec.toNat_shiftLeft, double_cast, double_cast, double_width, Nat.shiftLeft_eq,
    Nat.mul_comm top.toNat, Nat.mod_eq_of_lt room, Nat.two_pow_add_eq_or_of_lt bottom.isLt]

theorem double_parts (sum : BitVec (2 * w)) :
    (sum.setWidth w).toNat + 2 ^ w * ((sum >>> w).setWidth w).toNat = sum.toNat := by
  have room : sum.toNat < 2 ^ w * 2 ^ w := double_width w ▸ sum.isLt
  have quotient : sum.toNat / 2 ^ w < 2 ^ w := (Nat.div_lt_iff_lt_mul (Nat.two_pow_pos w)).mpr room
  rw [BitVec.toNat_setWidth, BitVec.toNat_setWidth, BitVec.toNat_ushiftRight, Nat.shiftRight_eq_div_pow,
    Nat.mod_eq_of_lt quotient, Nat.mod_add_div]

theorem muladd_value (positive : 0 < w) (a b : BitVec w) (r : Acc w)
    (fits : r.value + a.toNat * b.toNat < 2 ^ w * (2 ^ w * 2 ^ w)) :
    (muladd a b r).value = r.value + a.toNat * b.toNat := by
  have aBound := a.isLt
  have bBound := b.isLt
  have r0Bound := r.r0.isLt
  have r1Bound := r.r1.isLt
  have r2Bound := r.r2.isLt
  have width := double_width w
  have product : a.toNat * b.toNat < 2 ^ w * 2 ^ w := Nat.mul_lt_mul'' aBound bBound
  have p := double_mul a b
  have low := double_word r.r1 r.r0
  have high : 2 ^ w * (r.r1.toNat + 1) ≤ 2 ^ w * 2 ^ w := Nat.mul_le_mul_left _ r1Bound
  rw [Nat.mul_succ] at high
  generalize sumIs : (r.r1.setWidth (2 * w) <<< w ||| r.r0.setWidth (2 * w)) + a.setWidth (2 * w) * b.setWidth (2 * w) = sum
  have total : sum.toNat = (2 ^ w * r.r1.toNat + r.r0.toNat + a.toNat * b.toNat) % (2 ^ w * 2 ^ w) := by
    rw [← sumIs, BitVec.toNat_add, low, p, width]
  have unit : (1 : BitVec w).toNat = 1 := BitVec.toNat_one positive
  have zero : (0 : BitVec w).toNat = 0 := BitVec.toNat_ofNat 0 w
  have sumBound : sum.toNat < 2 ^ w * 2 ^ w := width ▸ sum.isLt
  have parts := double_parts sum
  have less : sum < a.setWidth (2 * w) * b.setWidth (2 * w) ↔ sum.toNat < a.toNat * b.toNat := by
    rw [BitVec.lt_def, p]
  simp only [Acc.value, muladd, sumIs, Nat.mul_add] at fits ⊢
  have regroup : 2 ^ w * (2 ^ w * r.r2.toNat) = 2 ^ w * 2 ^ w * r.r2.toNat := (Nat.mul_assoc _ _ _).symm
  have turn : 2 ^ w * (2 ^ w * 2 ^ w) = 2 ^ w * 2 ^ w * 2 ^ w := (Nat.mul_assoc _ _ _).symm
  rw [regroup, turn] at fits
  rw [regroup]
  by_cases below : 2 ^ w * r.r1.toNat + r.r0.toNat + a.toNat * b.toNat < 2 ^ w * 2 ^ w
  · rw [Nat.mod_eq_of_lt below] at total
    have kept : ¬sum < a.setWidth (2 * w) * b.setWidth (2 * w) := by
      rw [less]
      omega
    have same : r.r2 + 0 = r.r2 := BitVec.add_zero r.r2
    rw [if_neg kept, same, ← Nat.mul_assoc]
    omega
  · rw [Nat.mod_eq_sub_mod (by omega), Nat.mod_eq_of_lt (by omega)] at total
    have carried : sum < a.setWidth (2 * w) * b.setWidth (2 * w) := by
      rw [less]
      omega
    have room : r.r2.toNat + 1 < 2 ^ w := by
      by_contra full
      have top : 2 ^ w * 2 ^ w * 2 ^ w ≤ 2 ^ w * 2 ^ w * (r.r2.toNat + 1) := Nat.mul_le_mul_left _ (by omega)
      rw [Nat.mul_succ] at top
      omega
    rw [if_pos carried, BitVec.toNat_add, unit, Nat.mod_eq_of_lt room, ← Nat.mul_assoc, Nat.mul_succ]
    omega

section Columns

variable (left right : Vli w)

theorem digit_mul_le (i j : Nat) : digit left i * digit right j ≤ (2 ^ w - 1) * (2 ^ w - 1) := by
  have a := digit_lt left i
  have b := digit_lt right j
  exact Nat.mul_le_mul (by omega) (by omega)

theorem multColumn_value (positive : 0 < w) (k : Nat) (is : List Nat) (r : Acc w)
    (fits : r.value + is.length * ((2 ^ w - 1) * (2 ^ w - 1)) < 2 ^ w * (2 ^ w * 2 ^ w)) :
    (multColumn left right k is r).value = r.value + (is.map fun i => digit left i * digit right (k - i)).sum := by
  induction is generalizing r with
  | nil => rfl
  | cons i is ih =>
    have bound := digit_mul_le left right i (k - i)
    rw [List.length_cons, Nat.succ_mul] at fits
    have step : (muladd (left.getD i 0) (right.getD (k - i) 0) r).value = r.value + digit left i * digit right (k - i) := by
      apply muladd_value positive
      change r.value + digit left i * digit right (k - i) < _
      omega
    have rest := ih (muladd (left.getD i 0) (right.getD (k - i) 0) r) (by omega)
    rw [List.map_cons, List.sum_cons, ← Nat.add_assoc, ← step]
    exact rest

def columnsSum (indices : Nat → List Nat) : List Nat → Nat
  | [] => 0
  | k :: ks => ((indices k).map fun i => digit left i * digit right (k - i)).sum + 2 ^ w * columnsSum indices ks

theorem square_room {n : Nat} (few : n ≤ 2 ^ w) {carry : Nat} (small : carry < n * 2 ^ w) :
    carry + n * ((2 ^ w - 1) * (2 ^ w - 1)) < n * 2 ^ w * 2 ^ w ∧
      carry + n * ((2 ^ w - 1) * (2 ^ w - 1)) < 2 ^ w * (2 ^ w * 2 ^ w) := by
  have word := Nat.two_pow_pos w
  obtain ⟨b, size⟩ : ∃ b, 2 ^ w = b + 1 := ⟨2 ^ w - 1, by omega⟩
  rw [size] at few small ⊢
  rw [Nat.add_sub_cancel]
  have expand : n * (b + 1) * (b + 1) = n * (b * b) + (n * b + n * (b + 1)) := by ring
  have whole : n * (b + 1) * (b + 1) ≤ (b + 1) * ((b + 1) * (b + 1)) := by
    rw [Nat.mul_assoc]
    exact Nat.mul_le_mul_right _ few
  have first : carry + n * (b * b) < n * (b + 1) * (b + 1) := by
    rw [expand]
    omega
  exact ⟨first, Nat.lt_of_lt_of_le first whole⟩

theorem multColumns_value (positive : 0 < w) {n : Nat} (few : n ≤ 2 ^ w) (indices : Nat → List Nat)
    (ks : List Nat) (short : ∀ k ∈ ks, (indices k).length ≤ n) (r : Acc w) (small : r.value < n * 2 ^ w) :
    (multColumns left right indices ks r).1.length = ks.length ∧
      (multColumns left right indices ks r).2.value < n * 2 ^ w ∧
      value (multColumns left right indices ks r).1 + (2 ^ w) ^ ks.length * (multColumns left right indices ks r).2.value =
        r.value + columnsSum left right indices ks := by
  induction ks generalizing r with
  | nil =>
    refine ⟨rfl, small, ?_⟩
    simp [multColumns, columnsSum]
  | cons k ks ih =>
    have products := Nat.mul_le_mul_right ((2 ^ w - 1) * (2 ^ w - 1)) (short k List.mem_cons_self)
    obtain ⟨room, whole⟩ := square_room few small
    have summed := multColumn_value left right positive k (indices k) r (by omega)
    have bound : (multColumn left right k (indices k) r).value < n * 2 ^ w * 2 ^ w := by
      have terms : ((indices k).map fun i => digit left i * digit right (k - i)).sum ≤
          (indices k).length * ((2 ^ w - 1) * (2 ^ w - 1)) := by
        have each := List.sum_le_card_nsmul ((indices k).map fun i => digit left i * digit right (k - i))
          ((2 ^ w - 1) * (2 ^ w - 1)) (by
            intro product member
            obtain ⟨i, _, rfl⟩ := List.mem_map.mp member
            exact digit_mul_le left right i (k - i))
        rwa [List.length_map, smul_eq_mul] at each
      omega
    generalize columnIs : multColumn left right k (indices k) r = column at summed bound
    have shift : column.value = column.r0.toNat + 2 ^ w * (Acc.mk column.r1 column.r2 0).value := by
      have zero : (0 : BitVec w).toNat = 0 := BitVec.toNat_ofNat 0 w
      rw [Acc.value, Acc.value, zero, Nat.mul_zero, Nat.add_zero]
    have next : (Acc.mk column.r1 column.r2 0).value < n * 2 ^ w := by
      by_contra large
      have scaled := Nat.mul_le_mul_left (2 ^ w) (Nat.not_lt.mp large)
      rw [Nat.mul_comm (2 ^ w) (n * 2 ^ w)] at scaled
      omega
    obtain ⟨length, last, total⟩ := ih (fun k inside => short k (List.mem_cons_of_mem _ inside)) (Acc.mk column.r1 column.r2 0) next
    simp only [multColumns, columnIs, columnsSum, value_cons, List.length_cons, Nat.pow_succ']
    refine ⟨by rw [length], last, ?_⟩
    have scaled := congrArg (2 ^ w * ·) total
    simp only [Nat.mul_add] at scaled
    rw [Nat.mul_assoc]
    omega

theorem sum_range' (s m : Nat) (f : Nat → Nat) : ((List.range' s m).map f).sum = ∑ j ∈ Finset.range m, f (s + j) := by
  induction m with
  | zero => rfl
  | succ m ih =>
    rw [List.range'_concat, List.map_append, List.sum_append, ih, Finset.sum_range_succ, Nat.one_mul]
    rfl

theorem columnsSum_range' (indices : Nat → List Nat) (s m : Nat)
    (exact : ∀ k, s ≤ k → k < s + m →
      ((indices k).map fun i => digit left i * digit right (k - i)).sum = column (digit left) (digit right) k) :
    columnsSum left right indices (List.range' s m) =
      ∑ j ∈ Finset.range m, column (digit left) (digit right) (s + j) * (2 ^ w) ^ j := by
  induction m generalizing s with
  | zero => rfl
  | succ m ih =>
    rw [List.range'_succ, columnsSum, exact s (Nat.le_refl s) (by omega), ih (s + 1) fun k low high => exact k (by omega) (by omega),
      Finset.sum_range_succ', Finset.mul_sum, Nat.pow_zero, Nat.mul_one, Nat.add_zero, Nat.add_comm]
    congr 1
    apply Finset.sum_congr rfl
    intro j _
    rw [Nat.pow_succ', Nat.add_assoc, Nat.add_comm 1 j]
    exact Nat.mul_left_comm _ _ _

theorem shrinking_column {n : Nat} (leftSize : left.length = n) (rightSize : right.length = n) {k : Nat} (low : n ≤ k)
    (high : k < 2 * n - 1) :
    ((List.range' (k + 1 - n) (2 * n - 1 - k)).map fun i => digit left i * digit right (k - i)).sum =
      column (digit left) (digit right) k := by
  have size : k + 1 = (k + 1 - n) + ((2 * n - 1 - k) + (k + 1 - n)) := by omega
  rw [sum_range', column, size, Finset.sum_range_add, Finset.sum_range_add, ← size]
  have before : ∑ i ∈ Finset.range (k + 1 - n), digit left i * digit right (k - i) = 0 := by
    apply Finset.sum_eq_zero
    intro i member
    have inside := Finset.mem_range.mp member
    rw [digit_outside right (by omega), Nat.mul_zero]
  have behind : ∑ i ∈ Finset.range (k + 1 - n), digit left (k + 1 - n + (2 * n - 1 - k + i)) *
      digit right (k - (k + 1 - n + (2 * n - 1 - k + i))) = 0 := by
    apply Finset.sum_eq_zero
    intro i _
    rw [digit_outside left (by omega), Nat.zero_mul]
  rw [before, behind, Nat.zero_add]
  rfl

theorem emptyAcc_value : (Acc.mk (0 : BitVec w) 0 0).value = 0 := by
  have zero : (0 : BitVec w).toNat = 0 := BitVec.toNat_ofNat 0 w
  rw [Acc.value, zero, Nat.mul_zero, Nat.add_zero, Nat.mul_zero]

theorem Acc.value_of_lt {r : Acc w} (last : r.value < 2 ^ w) : r.value = r.r0.toNat := by
  rw [Acc.value] at last ⊢
  have none : r.r1.toNat + 2 ^ w * r.r2.toNat = 0 := by
    by_contra more
    have scaled := Nat.mul_le_mul_left (2 ^ w) (Nat.pos_of_ne_zero more)
    omega
  rw [none, Nat.mul_zero, Nat.add_zero]

theorem product_lt {n : Nat} (leftSize : left.length = n) (rightSize : right.length = n) :
    value left * value right < (2 ^ w) ^ (2 * n) := by
  have leftBound := value_lt left
  have rightBound := value_lt right
  rw [leftSize] at leftBound
  rw [rightSize] at rightBound
  rw [Nat.two_mul, Nat.pow_add]
  exact Nat.mul_lt_mul'' leftBound rightBound

theorem columnsSum_product {n : Nat} (some : 0 < n) (leftSize : left.length = n) (rightSize : right.length = n) :
    columnsSum left right (fun k => List.range (k + 1)) (List.range n) +
        (2 ^ w) ^ n * columnsSum left right (fun k => List.range' (k + 1 - n) (2 * n - 1 - k)) (List.range' n (n - 1)) =
      value left * value right := by
  have lowColumns := columnsSum_range' left right (fun k => List.range (k + 1)) 0 n fun k _ _ => by
    rw [List.range_eq_range', sum_range', column]
    simp only [Nat.zero_add]
  have highColumns := columnsSum_range' left right _ n (n - 1) fun k before behind =>
    shrinking_column left right leftSize rightSize before (by omega)
  have product := value_mul_value (leftSize.trans rightSize.symm) (leftSize ▸ some)
  have columns : 2 * n - 1 = n + (n - 1) := by omega
  simp only [Nat.zero_add, ← List.range_eq_range'] at lowColumns
  rw [leftSize, columns, Finset.sum_range_add] at product
  rw [lowColumns, highColumns, product, Finset.mul_sum]
  congr 1
  apply Finset.sum_congr rfl
  intro x _
  rw [Nat.pow_add]
  exact Nat.mul_left_comm _ _ _

theorem columns_value (positive : 0 < w) {n : Nat} (some : 0 < n) (few : n ≤ 2 ^ w) (leftSize : left.length = n)
    (rightSize : right.length = n) :
    let low := multColumns left right (fun k => List.range (k + 1)) (List.range n) ⟨0, 0, 0⟩
    let high := multColumns left right (fun k => List.range' (k + 1 - n) (2 * n - 1 - k)) (List.range' n (n - 1)) low.2
    (low.1 ++ high.1).length = 2 * n - 1 ∧
      value (low.1 ++ high.1) + (2 ^ w) ^ (2 * n - 1) * high.2.value = value left * value right := by
  intro low high
  have empty : (Acc.mk (0 : BitVec w) 0 0).value < n * 2 ^ w := by
    rw [emptyAcc_value]
    exact Nat.mul_pos some (Nat.two_pow_pos w)
  have lowShort : ∀ k ∈ List.range n, (List.range (k + 1)).length ≤ n := by
    intro k member
    rw [List.length_range]
    exact List.mem_range.mp member
  have highShort : ∀ k ∈ List.range' n (n - 1), (List.range' (k + 1 - n) (2 * n - 1 - k)).length ≤ n := by
    intro k member
    have inside := List.mem_range'_1.mp member
    rw [List.length_range']
    omega
  obtain ⟨lowLength, lowSmall, lowTotal⟩ := multColumns_value left right positive few _ (List.range n) lowShort ⟨0, 0, 0⟩ empty
  obtain ⟨highLength, _, highTotal⟩ := multColumns_value left right positive few _ (List.range' n (n - 1)) highShort low.2 lowSmall
  have columns : 2 * n - 1 = n + (n - 1) := by omega
  have product := columnsSum_product left right some leftSize rightSize
  rw [List.length_range] at lowLength lowTotal
  rw [List.length_range'] at highLength highTotal
  rw [emptyAcc_value] at lowTotal
  have rest := congrArg ((2 ^ w) ^ n * ·) highTotal
  simp only [Nat.mul_add, ← Nat.mul_assoc, ← Nat.pow_add, ← columns] at rest
  constructor
  · rw [List.length_append, lowLength, highLength, columns]
  · rw [value_append, lowLength]
    dsimp only [low, high] at rest lowTotal ⊢
    omega

/-- The product in twice as many words. -/
theorem vliMult_value (positive : 0 < w) {n : Nat} (some : 0 < n) (few : n ≤ 2 ^ w) (leftSize : left.length = n)
    (rightSize : right.length = n) :
    (vliMult left right n).length = 2 * n ∧ value (vliMult left right n) = value left * value right := by
  obtain ⟨size, whole⟩ := columns_value left right positive some few leftSize rightSize
  have bound := product_lt left right leftSize rightSize
  have next : 2 * n = (2 * n - 1) + 1 := by omega
  rw [vliMult]
  generalize multColumns left right (fun k => List.range (k + 1)) (List.range n) ⟨0, 0, 0⟩ = low at *
  generalize multColumns left right (fun k => List.range' (k + 1 - n) (2 * n - 1 - k)) (List.range' n (n - 1)) low.2 = high at *
  -- the product fits, so that the accumulator is down to its last word
  have last : high.2.value < 2 ^ w := by
    by_contra large
    have top := Nat.mul_le_mul_left ((2 ^ w) ^ (2 * n - 1)) (Nat.not_lt.mp large)
    rw [← Nat.pow_succ, Nat.succ_eq_add_one, ← next] at top
    omega
  constructor
  · rw [List.length_append, size, List.length_singleton]
    exact next.symm
  · rw [value_concat, size, ← Acc.value_of_lt last]
    exact whole

end Columns

end MicroEcc
