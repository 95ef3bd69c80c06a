import Bridge.Library.BinaryInverse
import Bridge.MicroEcc.Modular

namespace MicroEcc

open Limbs

variable {w : Nat}

def isEven (vli : Vli w) : Bool := vli.getD 0 0 &&& 1 == 0

def vliModInvUpdate (uv mod : Vli w) (numWords : Nat) : Vli w :=
  let sum := if isEven uv then (uv, 0) else vliAdd uv mod
  let half := vliRshift1 sum.1
  if sum.2 ≠ 0 then half.set (numWords - 1) (half.getD (numWords - 1) 0 ||| (1 : BitVec w) <<< (w - 1)) else half

structure InvState (w : Nat) where
  a : Vli w
  b : Vli w
  u : Vli w
  v : Vli w
deriving DecidableEq, Repr

/-- A carry of the addition is lost, and the subtraction takes it back. -/
def subReduced (u v mod : Vli w) : Vli w :=
  (vliSub (if vliCmpUnsafe u v < 0 then (vliAdd u mod).1 else u) v).1

def modInvStep (mod : Vli w) (numWords : Nat) (s : InvState w) : InvState w :=
  if isEven s.a then { s with a := vliRshift1 s.a, u := vliModInvUpdate s.u mod numWords }
  else if isEven s.b then { s with b := vliRshift1 s.b, v := vliModInvUpdate s.v mod numWords }
  else if vliCmpUnsafe s.a s.b > 0 then
    { s with
      a := vliRshift1 (vliSub s.a s.b).1
      u := vliModInvUpdate (subReduced s.u s.v mod) mod numWords }
  else
    { s with
      b := vliRshift1 (vliSub s.b s.a).1
      v := vliModInvUpdate (subReduced s.v s.u mod) mod numWords }

/-- The loop while `a` and `b` differ. -/
def modInvRun (mod : Vli w) (numWords : Nat) : Nat → InvState w → InvState w
  | 0, s => s
  | rounds + 1, s =>
    if vliCmpUnsafe s.a s.b = 0 then s else modInvRun mod numWords rounds (modInvStep mod numWords s)

def modInvStart (input mod : Vli w) (numWords : Nat) : InvState w where
  a := input
  b := mod
  u := (vliClear w numWords).set 0 1
  v := vliClear w numWords

def vliModInv (input mod : Vli w) (numWords : Nat) : Vli w :=
  if vliIsZero input then vliClear w numWords
  else (modInvRun mod numWords (2 * numWords * w) (modInvStart input mod numWords)).u

def InvState.abs (s : InvState w) : BinaryInverse.State := ⟨value s.a, value s.b, value s.u, value s.v⟩

structure InvState.Sized (n : Nat) (s : InvState w) : Prop where
  a : s.a.length = n
  b : s.b.length = n
  u : s.u.length = n
  v : s.v.length = n

section Simulation

variable (positive : 0 < w)

include positive

theorem isEven_iff (vli : Vli w) : isEven vli = true ↔ value vli % 2 = 0 := by
  have unit : (1 : BitVec w).toNat = 1 := BitVec.toNat_one positive
  have mask : ∀ word : BitVec w, (word &&& 1 == 0) = true ↔ word.toNat % 2 = 0 := by
    intro word
    rw [beq_iff_eq, ← BitVec.toNat_inj, BitVec.toNat_and, unit, Nat.and_one_is_mod, BitVec.ofNat_eq_ofNat,
      BitVec.toNat_ofNat, Nat.zero_mod]
  rw [isEven, mask]
  cases vli with
  | nil => simp
  | cons word words =>
    have even : 2 ∣ 2 ^ w := dvd_pow_self 2 (Nat.ne_of_gt positive)
    change word.toNat % 2 = 0 ↔ _
    rw [value_cons, Nat.add_mod, Nat.mod_eq_zero_of_dvd (Dvd.dvd.mul_right even _), Nat.add_zero, Nat.mod_mod]

variable {n : Nat} (some : 0 < n) {mod : Vli w} (modSize : mod.length = n)

include some modSize

theorem vliModInvUpdate_value {uv : Vli w} (uvSize : uv.length = n) :
    (vliModInvUpdate uv mod n).length = n ∧
      value (vliModInvUpdate uv mod n) = BinaryInverse.halve (value mod) (value uv) := by
  obtain ⟨n, rfl⟩ : ∃ k, n = k + 1 := ⟨n - 1, by omega⟩
  have zero : (0 : BitVec w).toNat = 0 := BitVec.toNat_ofNat 0 w
  have unit : (1 : BitVec w).toNat = 1 := BitVec.toNat_one positive
  obtain ⟨bit, total⟩ := vliAdd_value positive uv mod (uvSize.trans modSize.symm)
  have sumSize := vliAdd_length uvSize modSize
  simp only [vliModInvUpdate, BinaryInverse.halve, isEven_iff positive, Nat.add_sub_cancel]
  by_cases even : value uv % 2 = 0
  · simp only [if_pos even, ne_eq, not_true_eq_false, if_false]
    exact ⟨by rw [vliRshift1_length, uvSize], vliRshift1_value positive uv⟩
  · simp only [if_neg even, flag_ne_zero_iff]
    rw [uvSize] at total
    by_cases carried : (vliAdd uv mod).2.toNat = 0
    · rw [carried, Nat.mul_zero, Nat.add_zero] at total
      rw [if_neg (not_not_intro carried), vliRshift1_value positive, total]
      exact ⟨by rw [vliRshift1_length, sumSize], rfl⟩
    · have one : (vliAdd uv mod).2.toNat = 1 := by omega
      obtain ⟨size, top⟩ := topBit_value positive (vliAdd uv mod).1 1 sumSize
      rw [one, Nat.mul_one] at total
      rw [unit, Nat.one_mod, Nat.mul_one, total] at top
      rw [if_pos carried]
      exact ⟨size, top⟩

omit some modSize in
theorem vliSub_below {left right : Vli w} (leftSize : left.length = n) (rightSize : right.length = n)
    (below : value right ≤ value left) :
    (vliSub left right).1.length = n ∧ value (vliSub left right).1 = value left - value right := by
  have room := value_lt left
  rw [leftSize] at room
  exact vliSub_wrapped positive leftSize rightSize (Nat.zero_le 1) (by rw [Nat.mul_zero, Nat.add_zero]) below (by omega)

omit some in
theorem subReduced_value {u v : Vli w} (uSize : u.length = n) (vSize : v.length = n) (vLess : value v < value mod) :
    (subReduced u v mod).length = n ∧ value (subReduced u v mod) = BinaryInverse.subMod (value mod) (value u) (value v) := by
  simp only [subReduced, (vliCmpUnsafe_compares uSize vSize).below, BinaryInverse.subMod]
  by_cases below : value u < value v
  · have sumSize := vliAdd_length uSize modSize
    have modRoom := value_lt mod
    obtain ⟨bit, total⟩ := vliAdd_value positive u mod (uSize.trans modSize.symm)
    rw [modSize] at modRoom
    rw [uSize] at total
    rw [if_pos below, if_pos below]
    exact vliSub_wrapped positive sumSize vSize bit total (by omega) (by omega)
  · rw [if_neg below, if_neg below]
    exact vliSub_below positive uSize vSize (Nat.not_lt.mp below)

/-- A round on words is a round of the algorithm on numbers. -/
theorem modInvStep_abs {s : InvState w} (sized : s.Sized n) (uLess : value s.u < value mod) (vLess : value s.v < value mod) :
    (modInvStep mod n s).Sized n ∧ (modInvStep mod n s).abs = BinaryInverse.step (value mod) s.abs := by
  obtain ⟨aSize, bSize, uSize, vSize⟩ := sized
  obtain ⟨uHalf, uValue⟩ := vliModInvUpdate_value positive some modSize uSize
  obtain ⟨vHalf, vValue⟩ := vliModInvUpdate_value positive some modSize vSize
  have more := (vliCmpUnsafe_compares aSize bSize).above
  rw [show s.abs = ⟨value s.a, value s.b, value s.u, value s.v⟩ from rfl]
  simp only [modInvStep, isEven_iff positive, more, BinaryInverse.step, InvState.abs]
  by_cases aEven : value s.a % 2 = 0
  · simp only [if_pos aEven]
    refine ⟨⟨by rw [vliRshift1_length, aSize], bSize, uHalf, vSize⟩, ?_⟩
    rw [vliRshift1_value positive, uValue]
  · simp only [if_neg aEven]
    by_cases bEven : value s.b % 2 = 0
    · simp only [if_pos bEven]
      refine ⟨⟨aSize, by rw [vliRshift1_length, bSize], uSize, vHalf⟩, ?_⟩
      rw [vliRshift1_value positive, vValue]
    · simp only [if_neg bEven]
      by_cases above : value s.b < value s.a
      · obtain ⟨diffSize, diff⟩ := vliSub_below positive aSize bSize (Nat.le_of_lt above)
        obtain ⟨reducedSize, reduced⟩ := subReduced_value positive modSize uSize vSize vLess
        obtain ⟨halfSize, half⟩ := vliModInvUpdate_value positive some modSize reducedSize
        simp only [if_pos above]
        refine ⟨⟨by rw [vliRshift1_length, diffSize], bSize, halfSize, vSize⟩, ?_⟩
        rw [vliRshift1_value positive, diff, half, reduced]
      · obtain ⟨diffSize, diff⟩ := vliSub_below positive bSize aSize (Nat.not_lt.mp above)
        obtain ⟨reducedSize, reduced⟩ := subReduced_value positive modSize vSize uSize uLess
        obtain ⟨halfSize, half⟩ := vliModInvUpdate_value positive some modSize reducedSize
        simp only [if_neg above]
        refine ⟨⟨aSize, by rw [vliRshift1_length, diffSize], uSize, halfSize⟩, ?_⟩
        rw [vliRshift1_value positive, diff, half, reduced]

theorem modInvRun_abs (odd : value mod % 2 = 1) {x : Nat} (rounds : Nat) {s : InvState w} (sized : s.Sized n)
    (sound : BinaryInverse.Sound (value mod) x s.abs) :
    (modInvRun mod n rounds s).Sized n ∧
      (modInvRun mod n rounds s).abs = BinaryInverse.run (value mod) rounds s.abs := by
  induction rounds generalizing s with
  | zero => exact ⟨sized, rfl⟩
  | succ rounds ih =>
    have same : vliCmpUnsafe s.a s.b = 0 ↔ s.abs.a = s.abs.b := by
      exact (vliCmpUnsafe_compares sized.a sized.b).same
    rw [modInvRun, BinaryInverse.run]
    simp only [same]
    by_cases ends : s.abs.a = s.abs.b
    · rw [if_pos ends, if_pos ends]
      exact ⟨sized, rfl⟩
    · obtain ⟨nextSized, next⟩ := modInvStep_abs positive some modSize sized sound.uLess sound.vLess
      have kept := (BinaryInverse.step_sound odd sound ends).1
      rw [if_neg ends, if_neg ends]
      rw [← next] at kept ⊢
      exact ih nextSized kept

variable {input : Vli w} (inputSize : input.length = n)

include inputSize

omit positive some in
theorem modInvStart_sized : (modInvStart input mod n).Sized n where
  a := inputSize
  b := modSize
  u := by rw [modInvStart, vliClear, List.length_set, List.length_replicate]
  v := List.length_replicate

omit modSize inputSize in
theorem one_value : value ((vliClear w n).set 0 1) = 1 := by
  obtain ⟨n, rfl⟩ : ∃ k, n = k + 1 := ⟨n - 1, by omega⟩
  rw [vliClear, List.replicate_succ, List.set_cons_zero, value_cons, value_replicate_zero, Nat.mul_zero, Nat.add_zero]
  exact BitVec.toNat_one positive

omit modSize inputSize in
theorem modInvStart_sound (large : 1 < value mod) (coprime : Nat.Coprime (value input) (value mod))
    (nonzero : value input ≠ 0) : BinaryInverse.Sound (value mod) (value input) (modInvStart input mod n).abs where
  aPositive := Nat.pos_of_ne_zero nonzero
  bPositive := Nat.lt_trans Nat.one_pos large
  coprime := coprime
  uLess := by
    change value ((vliClear w n).set 0 1) < _
    rwa [one_value positive some]
  vLess := by
    change value (vliClear w n) < _
    rw [vliClear, value_replicate_zero]
    exact Nat.lt_trans Nat.one_pos large
  uMultiple := by
    change value input * value ((vliClear w n).set 0 1) ≡ value input [MOD value mod]
    rw [one_value positive some, Nat.mul_one]
  vMultiple := by
    change value input * value (vliClear w n) ≡ value mod [MOD value mod]
    rw [vliClear, value_replicate_zero, Nat.mul_zero]
    exact (Nat.mod_self (value mod)).symm

/-- The loop has come to its end within the rounds, and the result is the inverse. -/
theorem vliModInv_value (odd : value mod % 2 = 1) (large : 1 < value mod) (coprime : Nat.Coprime (value input) (value mod)) :
    vliCmpUnsafe (modInvRun mod n (2 * n * w) (modInvStart input mod n)).a
        (modInvRun mod n (2 * n * w) (modInvStart input mod n)).b = 0 ∧
      (vliModInv input mod n).length = n ∧ value (vliModInv input mod n) < value mod ∧
      value input * value (vliModInv input mod n) ≡ 1 [MOD value mod] := by
  have nonzero : value input ≠ 0 := by
    intro zero
    rw [zero, Nat.coprime_zero_left] at coprime
    omega
  have inputRoom := value_lt input
  have modRoom := value_lt mod
  rw [inputSize] at inputRoom
  rw [modSize] at modRoom
  have few : value input * value mod < 2 ^ (2 * n * w) := by
    have product := Nat.mul_lt_mul'' inputRoom modRoom
    have exponent : 2 * n * w = w * n + w * n := by ring
    rwa [exponent, Nat.pow_add, Nat.pow_mul]
  have start := modInvStart_sound positive some large coprime nonzero
  obtain ⟨sized, abs⟩ := modInvRun_abs positive some modSize odd (2 * n * w) (modInvStart_sized modSize inputSize) start
  obtain ⟨ends, less, inverse⟩ := BinaryInverse.run_inverse odd (2 * n * w) start few
  rw [← abs] at ends less inverse
  have different : ¬vliIsZero input = true := by
    rw [vliIsZero_iff]
    exact nonzero
  rw [vliModInv, if_neg different]
  refine ⟨?_, sized.u, less, inverse⟩
  have same : value (modInvRun mod n (2 * n * w) (modInvStart input mod n)).a =
      value (modInvRun mod n (2 * n * w) (modInvStart input mod n)).b := ends
  exact (vliCmpUnsafe_compares sized.a sized.b).same.mpr same

end Simulation

end MicroEcc
