import Bridge.Cifra.Blockwise
import Bridge.Cifra.KeyStream
import Bridge.Library.CcmHeader

namespace Cifra

open Blockwise

structure Prp where
  blocksz : Nat
  encrypt : List UInt8 → List UInt8
  positive : 0 < blocksz
  small : blocksz ≤ 16
  sized : ∀ block, (encrypt block).length = blocksz

def Prp.ofCipher {Key : Type} (cipher : Ccm.BlockCipher Key) (key : Key) : Prp where
  blocksz := 16
  encrypt block := (cipher key (Ccm.toBlock block)).toList
  positive := Nat.zero_lt_succ 15
  small := Nat.le_refl 16
  sized _ := Vector.length_toList

def xorBb (x y : List UInt8) : List UInt8 := List.zipWith (· ^^^ ·) x y

section Modes

variable (prp : Prp)

/-- One round of `cf_cbc_encrypt`: the block that is both the output and the next chaining value. -/
def cbcEncryptBlock (block input : List UInt8) : List UInt8 := prp.encrypt (xorBb input block)

/-- The context of `cf_cbcmac_stream`: the chaining value, the buffer and its fill. -/
abbrev CbcmacStream := Accumulator (List UInt8)

def cbcmacStreamInit : CbcmacStream where
  ctx := List.replicate prp.blocksz 0
  partialBlock := List.replicate prp.blocksz 0
  nPartial := 0

def cbcmacStreamUpdate (data : List UInt8) (s : CbcmacStream) : Option CbcmacStream :=
  blockwiseAccumulate prp.blocksz (cbcEncryptBlock prp) data s

def cbcmacStreamFinishBlockZero (s : CbcmacStream) : CbcmacStream :=
  if s.nPartial = 0 then s
  else
    let buffer := Memory.place s.partialBlock s.nPartial (List.replicate (prp.blocksz - s.nPartial) 0)
    { ctx := cbcEncryptBlock prp s.ctx buffer, partialBlock := buffer, nPartial := 0 }

def cbcmacStreamNopadFinal (s : CbcmacStream) : Option (List UInt8) := if s.nPartial = 0 then some s.ctx else none

def cbcmacStreamPadFinal (s : CbcmacStream) : Option (List UInt8) :=
  let npad := UInt8.ofNat (prp.blocksz - s.nPartial)
  cbcmacStreamNopadFinal (blockwiseAccByte prp.blocksz (cbcEncryptBlock prp) npad npad.toNat s)

structure Counter where
  nonce : List UInt8
  counterOffset : Nat
  counterWidth : Nat

/-- The loop of `incr_be` at byte `i` of the `counterWidth` bytes from `offset` on. -/
def incrBe (offset : Nat) : Nat → List UInt8 → List UInt8
  | i, v =>
    let next := v.getD (offset + i) 0 + 1
    match i with
    | 0 => v.set offset next
    | i + 1 => if next ≠ 0 then v.set (offset + (i + 1)) next else incrBe offset i (v.set (offset + (i + 1)) next)

def ctrNextBlock (c : Counter) : Counter × List UInt8 :=
  ({ c with nonce := incrBe c.counterOffset (c.counterWidth - 1) c.nonce }, prp.encrypt c.nonce)

abbrev Ctr := KeyStream Counter

def ctrInit (nonce : List UInt8) : Ctr where
  ctx := { nonce := nonce.take prp.blocksz, counterOffset := 0, counterWidth := prp.blocksz }
  keymat := List.replicate prp.blocksz 0
  nPartial := 0

def ctrCustomCounter (offset width : Nat) (ctr : Ctr) : Option Ctr :=
  if prp.blocksz ≤ offset + width then
    some { ctr with ctx := { ctr.ctx with counterOffset := offset, counterWidth := width } }
  else none

def ctrCipher (input : List UInt8) (ctr : Ctr) : Option (List UInt8 × Ctr) :=
  blockwiseXor prp.blocksz (ctrNextBlock prp) input ctr

def ctrDiscardBlock (ctr : Ctr) : Ctr := { ctr with nPartial := 0 }

theorem cbcmacStreamInit_absorbed :
    Absorbed prp.blocksz (cbcEncryptBlock prp) (List.replicate prp.blocksz 0) [] (cbcmacStreamInit prp) where
  ctx := by
    rw [whole_nil]
    rfl
  holding := by
    rw [rest_nil]
    exact Holding.empty List.length_replicate rfl

variable {prp}

theorem cbcmacStreamUpdate_absorbed {start seen : List UInt8} {s : CbcmacStream}
    (absorbed : Absorbed prp.blocksz (cbcEncryptBlock prp) start seen s) (data : List UInt8) :
    ∃ after, cbcmacStreamUpdate prp data s = some after ∧
      Absorbed prp.blocksz (cbcEncryptBlock prp) start (seen ++ data) after :=
  blockwiseAccumulate_absorbed (cbcEncryptBlock prp) prp.positive absorbed data

theorem cbcmacStreamFinishBlockZero_absorbed {start seen : List UInt8} {s : CbcmacStream}
    (absorbed : Absorbed prp.blocksz (cbcEncryptBlock prp) start seen s) :
    Absorbed prp.blocksz (cbcEncryptBlock prp) start (pad prp.blocksz 0 seen) (cbcmacStreamFinishBlockZero prp s) := by
  have fill := absorbed.holding.nPartial
  rw [cbcmacStreamFinishBlockZero]
  split
  · rename_i aligned
    rw [aligned, rest_length] at fill
    rw [pad_of_aligned fill.symm]
    exact absorbed
  · rename_i begun
    have unaligned : seen.length % prp.blocksz ≠ 0 := by rwa [← rest_length, ← fill]
    have room := rest_lt prp.positive seen
    have full : (rest prp.blocksz seen).length +
        (List.replicate (prp.blocksz - (rest prp.blocksz seen).length) (0 : UInt8)).length = prp.blocksz := by
      rw [List.length_replicate]
      omega
    rw [pad_of_open prp.positive unaligned, fill, ← fill, absorbed.holding.place_full (by rw [fill]; exact full), fill]
    exact absorbed.complete _ prp.positive (by rw [List.length_append]; exact full)

theorem cbcmacStreamNopadFinal_eq {start seen : List UInt8} {s : CbcmacStream}
    (absorbed : Absorbed prp.blocksz (cbcEncryptBlock prp) start seen s) (aligned : prp.blocksz ∣ seen.length) :
    cbcmacStreamNopadFinal s = some ((whole prp.blocksz seen).foldl (cbcEncryptBlock prp) start) := by
  have none : s.nPartial = 0 := by rw [absorbed.holding.nPartial, rest_eq_nil aligned, List.length_nil]
  rw [cbcmacStreamNopadFinal, if_pos none, absorbed.ctx]

theorem cbcmacStreamPadFinal_eq {start seen : List UInt8} {s : CbcmacStream}
    (absorbed : Absorbed prp.blocksz (cbcEncryptBlock prp) start seen s) :
    cbcmacStreamPadFinal prp s = some ((whole prp.blocksz (seen ++
      List.replicate (prp.blocksz - seen.length % prp.blocksz) (UInt8.ofNat (prp.blocksz - seen.length % prp.blocksz)))).foldl
        (cbcEncryptBlock prp) start) := by
  have small := prp.small
  have positive := prp.positive
  have fill : s.nPartial = seen.length % prp.blocksz := by rw [absorbed.holding.nPartial, rest_length]
  have inside := Nat.mod_lt seen.length positive
  have count : (UInt8.ofNat (prp.blocksz - seen.length % prp.blocksz)).toNat = prp.blocksz - seen.length % prp.blocksz :=
    UInt8.toNat_ofNat_of_lt' (by rw [show UInt8.size = 256 from rfl]; omega)
  have added := accByteLoop_absorbed (cbcEncryptBlock prp) positive
    (UInt8.ofNat (prp.blocksz - seen.length % prp.blocksz)) (prp.blocksz - seen.length % prp.blocksz) false absorbed
    fun filled => absurd filled Bool.false_ne_true
  rw [cbcmacStreamPadFinal, fill, count, blockwiseAccByte]
  apply cbcmacStreamNopadFinal_eq added
  rw [List.length_append, List.length_replicate]
  have whole_ := Nat.div_add_mod seen.length prp.blocksz
  exact ⟨seen.length / prp.blocksz + 1, by rw [Nat.mul_succ]; omega⟩

end Modes

section Counter

theorem byte_carries (b : UInt8) : b + 1 = 0 ↔ b = 255 := by
  have bound := b.toNat_lt
  rw [← UInt8.toNat_inj, ← UInt8.toNat_inj, UInt8.toNat_add]
  change (b.toNat + 1) % 256 = 0 ↔ b.toNat = 255
  omega

theorem incrBe_append {n : Nat} (front : List UInt8) (i : Nat) (bound : i + 1 ≤ n) (start : Vector UInt8 n) :
    incrBe front.length i (front ++ start.toList) = front ++ (ByteCounter.rippleFrom start (i + 1) bound).toList := by
  have byte : ∀ (v : Vector UInt8 n) (k : Nat) (inside : k < n), (front ++ v.toList).getD (front.length + k) 0 = v[k] := by
    intro v k inside
    rw [List.getD_eq_getElem?_getD, List.getElem?_append_right (Nat.le_add_right _ _), Nat.add_sub_cancel_left,
      List.getElem?_eq_getElem (by rwa [Vector.length_toList]), Option.getD_some, Vector.getElem_toList]
  have put : ∀ (v : Vector UInt8 n) (k : Nat) (inside : k < n) (b : UInt8),
      (front ++ v.toList).set (front.length + k) b = front ++ (v.set k b).toList := by
    intro v k inside b
    rw [List.set_append_right _ _ (Nat.le_add_right _ _), Nat.add_sub_cancel_left, Vector.toList_set]
  induction i generalizing start with
  | zero =>
    have same := put start 0 (by omega)
    rw [Nat.add_zero] at same
    rw [incrBe, byte start 0 (by omega), ByteCounter.rippleFrom, same]
    split
    · rename_i full
      rw [full]
      rfl
    · rfl
  | succ i ih =>
    rw [incrBe, byte start (i + 1) (by omega), put, ByteCounter.rippleFrom]
    by_cases full : start[i + 1] = 255
    · rw [if_neg (not_not_intro ((byte_carries _).mpr full)), if_pos full, (byte_carries _).mpr full]
      exact ih (by omega) _
    · rw [if_pos fun carry => full ((byte_carries _).mp carry), if_neg full]

theorem incrBe_ripple {n : Nat} (positive : 0 < n) (front : List UInt8) (start : Vector UInt8 n) :
    incrBe front.length (n - 1) (front ++ start.toList) = front ++ (ByteCounter.ripple start).toList := by
  cases n with
  | zero => exact absurd positive (Nat.lt_irrefl 0)
  | succ n => exact incrBe_append front n (Nat.le_refl _) start

theorem counter_iterate {n : Nat} (positive : 0 < n) (prp : Prp) (front : List UInt8) (start : Vector UInt8 n) (k : Nat) :
    (fun c => (ctrNextBlock prp c).1)^[k] ⟨front ++ start.toList, front.length, n⟩ =
      ⟨front ++ (ByteCounter.ripple^[k] start).toList, front.length, n⟩ := by
  induction k with
  | zero => rfl
  | succ k ih => rw [Function.iterate_succ_apply', ih, Function.iterate_succ_apply', ctrNextBlock, incrBe_ripple positive]

end Counter

end Cifra
