import Bridge.Library.Blockwise

namespace Cifra

open Blockwise

variable {σ : Type}

/-- What `cf_blockwise_xor` keeps: the context that makes key material, the block of it in use
    (`partial`) and the number of bytes at its end that are unused. -/
structure KeyStream (σ : Type) where
  ctx : σ
  keymat : List UInt8
  nPartial : Nat

variable (nblock : Nat) (process : σ → σ × List UInt8)

def refill (s : KeyStream σ) : KeyStream σ :=
  if s.nPartial = 0 then { ctx := (process s.ctx).1, keymat := (process s.ctx).2, nPartial := nblock } else s

def xorLoop (inp : List UInt8) (s : KeyStream σ) : List UInt8 × KeyStream σ :=
  if inp ≠ [] ∧ 0 < (refill nblock process s).nPartial then
    let s := refill nblock process s
    let offset := nblock - s.nPartial
    let taken := min s.nPartial inp.length
    let out := List.zipWith (· ^^^ ·) (inp.take taken) ((s.keymat.drop offset).take taken)
    let (outs, s) := xorLoop (inp.drop taken) { s with nPartial := s.nPartial - taken }
    (out ++ outs, s)
  else ([], s)
termination_by inp.length
decreasing_by
  rename_i more
  have nonempty := List.length_pos_iff.mpr more.1
  rw [List.length_drop]
  omega

/-- `cf_blockwise_xor`: the output and the state; `none` where an assertion aborts the program. -/
def blockwiseXor (inp : List UInt8) (s : KeyStream σ) : Option (List UInt8 × KeyStream σ) :=
  if s.nPartial < nblock then some (xorLoop nblock process inp s) else none

/-- The calls of `cf_blockwise_xor` on the pieces of a text, and what they put out together. -/
def xorPieces : List (List UInt8) → KeyStream σ → Option (List UInt8)
  | [], _ => some []
  | piece :: pieces, s =>
    (blockwiseXor nblock process piece s).bind fun call => (xorPieces pieces call.2).map (call.1 ++ ·)

def KeyStream.key (s : KeyStream σ) (i : Nat) : UInt8 :=
  if i < s.nPartial then (s.keymat.drop (nblock - s.nPartial)).getD i 0 else drawn nblock process s.ctx (i - s.nPartial)

def KeyStream.needed (s : KeyStream σ) (n : Nat) : Nat := (n - s.nPartial + (nblock - 1)) / nblock

def withKey (key : Nat → UInt8) (inp : List UInt8) : List UInt8 := inp.mapIdx fun i byte => byte ^^^ key i

theorem withKey_append (key : Nat → UInt8) (front back : List UInt8) :
    withKey key (front ++ back) = withKey key front ++ withKey (fun i => key (i + front.length)) back := List.mapIdx_append

variable {nblock}

theorem key_refill (positive : 0 < nblock) (s : KeyStream σ) (i : Nat) :
    (refill nblock process s).key nblock process i = s.key nblock process i := by
  rw [refill]
  split
  · rename_i empty
    rw [KeyStream.key, KeyStream.key, empty, Nat.sub_zero, Nat.sub_self, List.drop_zero, if_neg (Nat.not_lt_zero i)]
    split
    · rename_i first
      exact (drawn_first process s.ctx first).symm
    · rename_i later
      have onward := drawn_later positive process s.ctx (i - nblock)
      rw [Nat.sub_add_cancel (Nat.le_of_not_lt later)] at onward
      exact onward.symm
  · rfl

theorem key_fresh (ctx : σ) (keymat : List UInt8) :
    KeyStream.key nblock process ⟨ctx, keymat, 0⟩ = drawn nblock process ctx := by
  funext i
  rw [KeyStream.key, if_neg (Nat.not_lt_zero i), Nat.sub_zero]

theorem key_used {s : KeyStream σ} {taken : Nat} (some : taken ≤ s.nPartial) (bound : s.nPartial ≤ nblock) (i : Nat) :
    KeyStream.key nblock process { s with nPartial := s.nPartial - taken } i = s.key nblock process (i + taken) := by
  rw [KeyStream.key, KeyStream.key]
  dsimp only
  by_cases inside : i + taken < s.nPartial
  · rw [if_pos inside, if_pos (by omega), List.getD_eq_getElem?_getD, List.getD_eq_getElem?_getD, List.getElem?_drop,
      List.getElem?_drop]
    congr 2
    omega
  · rw [if_neg inside, if_neg (by omega)]
    congr 1
    omega

theorem key_output {s : KeyStream σ} (sized : s.keymat.length = nblock) (bound : s.nPartial ≤ nblock) {inp : List UInt8}
    (short : inp.length ≤ s.nPartial) :
    List.zipWith (· ^^^ ·) inp ((s.keymat.drop (nblock - s.nPartial)).take inp.length) =
      withKey (s.key nblock process) inp := by
  apply List.ext_getElem
  · rw [List.length_zipWith, withKey, List.length_mapIdx, List.length_take, List.length_drop, sized]
    omega
  · intro i inside _
    have early : i < inp.length := by
      rw [List.length_zipWith] at inside
      omega
    have unused : i < s.nPartial := by omega
    simp only [withKey, List.getElem_zipWith, List.getElem_mapIdx, List.getElem_take]
    rw [KeyStream.key, if_pos unused, ← List.getElem_eq_getD 0]

/-- `n` bytes of key further on: the key goes on where it was, and as many blocks have been made as
    were needed. -/
structure Drained (nblock : Nat) (process : σ → σ × List UInt8) (s : KeyStream σ) (n : Nat) (after : KeyStream σ) :
    Prop where
  key : ∀ i, after.key nblock process i = s.key nblock process (i + n)
  ready : after.nPartial < nblock
  sized : after.keymat.length = nblock
  ctx : after.ctx = (fun ctx => (process ctx).1)^[s.needed nblock n] s.ctx

theorem needed_round (positive : 0 < nblock) (s : KeyStream σ) {n taken : Nat} (some : 0 < n)
    (round : taken = min (refill nblock process s).nPartial n) :
    (fun ctx => (process ctx).1)^[s.needed nblock n] s.ctx =
      (fun ctx => (process ctx).1)^[KeyStream.needed nblock
        { refill nblock process s with nPartial := (refill nblock process s).nPartial - taken } (n - taken)]
          (refill nblock process s).ctx := by
  rw [round, KeyStream.needed, KeyStream.needed, refill]
  split
  · rename_i empty
    have fewer : n - min nblock n - (nblock - min nblock n) = n - nblock := by omega
    have one : (n - s.nPartial + (nblock - 1)) / nblock = (n - nblock + (nblock - 1)) / nblock + 1 := by
      by_cases short : n < nblock
      · rw [empty, Nat.sub_zero, Nat.sub_eq_zero_of_le (Nat.le_of_lt short), Nat.zero_add,
          Nat.div_eq_of_lt (Nat.sub_one_lt (Nat.pos_iff_ne_zero.mp positive)),
          show n + (nblock - 1) = n - 1 + nblock by omega, Nat.add_div_right _ positive, Nat.div_eq_of_lt (by omega)]
      · rw [empty, Nat.sub_zero, ← Nat.add_div_right _ positive]
        congr 1
        omega
    dsimp only
    rw [fewer, one, Function.iterate_succ_apply]
  · have same : n - min s.nPartial n - (s.nPartial - min s.nPartial n) = n - s.nPartial := by omega
    dsimp only
    rw [same]

theorem xorLoop_round {inp : List UInt8} (more : inp ≠ []) {s r : KeyStream σ} (filled : r = refill nblock process s)
    (stock : 0 < r.nPartial) {taken : Nat} (round : taken = min r.nPartial inp.length) :
    xorLoop nblock process inp s =
      (List.zipWith (· ^^^ ·) (inp.take taken) ((r.keymat.drop (nblock - r.nPartial)).take taken) ++
          (xorLoop nblock process (inp.drop taken) { r with nPartial := r.nPartial - taken }).1,
        (xorLoop nblock process (inp.drop taken) { r with nPartial := r.nPartial - taken }).2) := by
  rw [xorLoop, ← filled, if_pos ⟨more, stock⟩, round]

section Made

variable (made : ∀ ctx, (process ctx).2.length = nblock)
include made

theorem refill_sized {s : KeyStream σ} (sized : s.keymat.length = nblock) :
    (refill nblock process s).keymat.length = nblock := by
  rw [refill]
  split
  · exact made s.ctx
  · exact sized

theorem xorLoop_eq (positive : 0 < nblock) (inp : List UInt8) {s : KeyStream σ} (ready : s.nPartial < nblock)
    (sized : s.keymat.length = nblock) :
    (xorLoop nblock process inp s).1 = withKey (s.key nblock process) inp ∧
      Drained nblock process s inp.length (xorLoop nblock process inp s).2 := by
  induction length : inp.length using Nat.strong_induction_on generalizing inp s with
  | _ length_ ih =>
    by_cases nothing : inp = []
    · have none : s.needed nblock 0 = 0 := by
        rw [KeyStream.needed, Nat.zero_sub, Nat.zero_add, Nat.div_eq_of_lt (Nat.sub_one_lt (Nat.pos_iff_ne_zero.mp positive))]
      rw [xorLoop, if_neg fun more => more.1 nothing, ← length, nothing]
      refine ⟨rfl, fun i => rfl, ready, sized, ?_⟩
      rw [List.length_nil, none, Function.iterate_zero_apply]
    · have nonempty := List.length_pos_iff.mpr nothing
      have key := funext (key_refill process positive s)
      have fresh := refill_sized process made sized
      have ctx := needed_round process positive s nonempty rfl
      have stock : 0 < (refill nblock process s).nPartial ∧ (refill nblock process s).nPartial ≤ nblock := by
        rw [refill]
        split
        · exact ⟨positive, Nat.le_refl nblock⟩
        · omega
      generalize filled : refill nblock process s = r at key fresh stock ctx
      generalize round : min r.nPartial inp.length = taken at ctx
      have onward := ih (inp.drop taken).length (by rw [List.length_drop]; omega) (inp.drop taken)
        (s := { r with nPartial := r.nPartial - taken }) (by dsimp only; omega) fresh rfl
      have bytes : (inp.take taken).length = taken := List.length_take_of_le (by omega)
      have used := fun i => key_used process (show taken ≤ r.nPartial by omega) stock.2 i
      rw [xorLoop_round process nothing filled.symm stock.1 round.symm]
      constructor
      · have out := key_output process fresh stock.2 (show (inp.take taken).length ≤ r.nPartial by omega)
        rw [bytes] at out
        rw [out, onward.1, ← key]
        conv => rhs; rw [← List.take_append_drop taken inp, withKey_append, bytes]
        rw [funext used]
      · constructor
        · intro i
          rw [onward.2.key, used, key, List.length_drop]
          congr 1
          omega
        · exact onward.2.ready
        · exact onward.2.sized
        · rw [onward.2.ctx, ← length, ctx, List.length_drop]

/-- One call: it never aborts, its output is the input under the next bytes of the key. -/
theorem blockwiseXor_eq (positive : 0 < nblock) (inp : List UInt8) {s : KeyStream σ} (ready : s.nPartial < nblock)
    (sized : s.keymat.length = nblock) :
    ∃ after, blockwiseXor nblock process inp s = some (withKey (s.key nblock process) inp, after) ∧
      Drained nblock process s inp.length after := by
  have loop := xorLoop_eq process made positive inp ready sized
  use (xorLoop nblock process inp s).2
  rw [blockwiseXor, if_pos ready, ← loop.1]
  exact ⟨rfl, loop.2⟩

theorem xorPieces_eq (positive : 0 < nblock) (pieces : List (List UInt8)) {s : KeyStream σ} (ready : s.nPartial < nblock)
    (sized : s.keymat.length = nblock) :
    xorPieces nblock process pieces s = some (withKey (s.key nblock process) pieces.flatten) := by
  induction pieces generalizing s with
  | nil => rfl
  | cons piece pieces ih =>
    obtain ⟨after, call, drained⟩ := blockwiseXor_eq process made positive piece ready sized
    rw [xorPieces, call, Option.bind_some, ih drained.ready drained.sized, List.flatten_cons, withKey_append, funext drained.key]
    rfl

/-- A text that is encrypted in pieces, cut anywhere, comes out as if it had been encrypted at once:
    under the bytes of the key blocks in their order. -/
theorem xorPieces_once (positive : 0 < nblock) (start : σ) (keymat : List UInt8) (sized : keymat.length = nblock)
    (pieces : List (List UInt8)) :
    xorPieces nblock process pieces ⟨start, keymat, 0⟩ = some (withKey (drawn nblock process start) pieces.flatten) ∧
      (blockwiseXor nblock process pieces.flatten ⟨start, keymat, 0⟩).map Prod.fst =
        some (withKey (drawn nblock process start) pieces.flatten) := by
  have split := xorPieces_eq process made positive pieces (s := ⟨start, keymat, 0⟩) positive sized
  obtain ⟨after, call, _⟩ := blockwiseXor_eq process made positive pieces.flatten (s := ⟨start, keymat, 0⟩) positive sized
  rw [key_fresh] at split call
  exact ⟨split, by rw [call]; rfl⟩

end Made

theorem xorPieces_once_sample :
    xorPieces 4 (fun n : UInt8 => (n + 1, [n, n, n, n])) [[1, 2, 3], [4, 5, 6, 7]] ⟨16, [0, 0, 0, 0], 0⟩ =
        some (withKey (drawn 4 (fun n : UInt8 => (n + 1, [n, n, n, n])) 16) [1, 2, 3, 4, 5, 6, 7]) ∧
      (blockwiseXor 4 (fun n : UInt8 => (n + 1, [n, n, n, n])) [1, 2, 3, 4, 5, 6, 7] ⟨16, [0, 0, 0, 0], 0⟩).map Prod.fst =
        some (withKey (drawn 4 (fun n : UInt8 => (n + 1, [n, n, n, n])) 16) [1, 2, 3, 4, 5, 6, 7]) :=
  xorPieces_once (fun n : UInt8 => (n + 1, [n, n, n, n])) (fun _ => rfl) (by decide) 16 [0, 0, 0, 0] rfl
    [[1, 2, 3], [4, 5, 6, 7]]

end Cifra
