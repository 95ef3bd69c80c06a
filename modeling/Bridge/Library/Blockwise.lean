import Mathlib.Algebra.Order.Group.Nat
import Mathlib.Data.List.Basic
import Mathlib.Logic.Function.Iterate

namespace Blockwise

variable {α σ : Type}

/-- The full blocks of `n` elements at the front of a stream. -/
def whole (n : Nat) (stream : List α) : List (List α) :=
  (List.range (stream.length / n)).map fun k => (stream.drop (n * k)).take n

def rest (n : Nat) (stream : List α) : List α := stream.drop (n * (stream.length / n))

theorem whole_short {n : Nat} {stream : List α} (short : stream.length < n) : whole n stream = [] := by
  rw [whole, Nat.div_eq_of_lt short, List.range_zero, List.map_nil]

theorem rest_short {n : Nat} {stream : List α} (short : stream.length < n) : rest n stream = stream := by
  rw [rest, Nat.div_eq_of_lt short, Nat.mul_zero, List.drop_zero]

@[simp] theorem whole_nil (n : Nat) : whole n ([] : List α) = [] := by
  rw [whole, List.length_nil, Nat.zero_div, List.range_zero, List.map_nil]

@[simp] theorem rest_nil (n : Nat) : rest n ([] : List α) = [] := List.drop_nil

theorem rest_length (n : Nat) (stream : List α) : (rest n stream).length = stream.length % n := by
  rw [rest, List.length_drop, Nat.mod_eq_sub_mul_div]

theorem rest_lt {n : Nat} (positive : 0 < n) (stream : List α) : (rest n stream).length < n := by
  rw [rest_length]
  exact Nat.mod_lt _ positive

theorem whole_block {n : Nat} (positive : 0 < n) {block : List α} (full : block.length = n) (stream : List α) :
    whole n (block ++ stream) = block :: whole n stream := by
  have more : (block ++ stream).length / n = stream.length / n + 1 := by
    rw [List.length_append, full, Nat.add_div_left _ positive]
  rw [whole, more, List.range_succ_eq_map, List.map_cons, Nat.mul_zero, List.drop_zero, List.take_left' full, List.map_map,
    whole]
  congr 1
  apply List.map_congr_left
  intro k _
  rw [Function.comp_apply, Nat.mul_succ, Nat.add_comm, ← List.drop_drop, List.drop_left' full]

theorem rest_block {n : Nat} (positive : 0 < n) {block : List α} (full : block.length = n) (stream : List α) :
    rest n (block ++ stream) = rest n stream := by
  have more : (block ++ stream).length / n = stream.length / n + 1 := by
    rw [List.length_append, full, Nat.add_div_left _ positive]
  rw [rest, more, Nat.mul_succ, Nat.add_comm, ← List.drop_drop, List.drop_left' full, rest]

/-- A stream is its full blocks and what is left behind them. -/
theorem whole_rest {n : Nat} (positive : 0 < n) (stream : List α) : (whole n stream).flatten ++ rest n stream = stream := by
  induction length : stream.length using Nat.strong_induction_on generalizing stream with
  | _ length_ ih =>
    by_cases short : stream.length < n
    · rw [whole_short short, rest_short short, List.flatten_nil, List.nil_append]
    · have full : (stream.take n).length = n := List.length_take_of_le (by omega)
      have again := ih (stream.drop n).length (by rw [List.length_drop]; omega) (stream.drop n) rfl
      rw [← List.take_append_drop n stream, whole_block positive full, rest_block positive full, List.flatten_cons,
        List.append_assoc, again]

theorem whole_length (n : Nat) (stream : List α) : (whole n stream).length = stream.length / n := by
  rw [whole, List.length_map, List.length_range]

/-- Blocks of a stream that goes on: those it had, then those of what was left over with what comes. -/
theorem whole_append {n : Nat} (positive : 0 < n) (front back : List α) :
    whole n (front ++ back) = whole n front ++ whole n (rest n front ++ back) := by
  induction length : front.length using Nat.strong_induction_on generalizing front with
  | _ length_ ih =>
    by_cases short : front.length < n
    · rw [whole_short short, rest_short short, List.nil_append]
    · have full : (front.take n).length = n := List.length_take_of_le (by omega)
      have again := ih (front.drop n).length (by rw [List.length_drop]; omega) (front.drop n) rfl
      rw [← List.take_append_drop n front, List.append_assoc, whole_block positive full, whole_block positive full,
        rest_block positive full, again, List.cons_append]

theorem rest_append {n : Nat} (positive : 0 < n) (front back : List α) :
    rest n (front ++ back) = rest n (rest n front ++ back) := by
  induction length : front.length using Nat.strong_induction_on generalizing front with
  | _ length_ ih =>
    by_cases short : front.length < n
    · rw [rest_short short]
    · have full : (front.take n).length = n := List.length_take_of_le (by omega)
      have again := ih (front.drop n).length (by rw [List.length_drop]; omega) (front.drop n) rfl
      rw [← List.take_append_drop n front, List.append_assoc, rest_block positive full, rest_block positive full, again]

theorem rest_eq_nil {n : Nat} {stream : List α} (aligned : n ∣ stream.length) : rest n stream = [] := by
  rw [← List.length_eq_zero_iff, rest_length, Nat.mod_eq_zero_of_dvd aligned]

theorem whole_fill {n : Nat} (positive : 0 < n) {block : List α} (full : block.length = n) : whole n block = [block] := by
  have alone := whole_block positive full []
  rwa [List.append_nil, whole_nil] at alone

theorem fold_append {n : Nat} (positive : 0 < n) (process : σ → List α → σ) (start : σ) (front back : List α) :
    (whole n (front ++ back)).foldl process start =
      (whole n (rest n front ++ back)).foldl process ((whole n front).foldl process start) := by
  rw [whole_append positive, List.foldl_append]

theorem whole_flatten {n : Nat} (positive : 0 < n) {blocks : List (List α)} (full : ∀ block ∈ blocks, block.length = n)
    (back : List α) : whole n (blocks.flatten ++ back) = blocks ++ whole n back := by
  induction blocks with
  | nil => rfl
  | cons block blocks ih =>
    rw [List.flatten_cons, List.append_assoc, whole_block positive (full block List.mem_cons_self),
      ih fun other inside => full other (List.mem_cons_of_mem block inside), List.cons_append]

theorem flatten_aligned {n : Nat} {blocks : List (List α)} (full : ∀ block ∈ blocks, block.length = n) :
    n ∣ blocks.flatten.length := by
  rw [List.length_flatten, List.map_congr_left full, List.map_const', List.sum_replicate_nat]
  exact Nat.dvd_mul_left n _

/-- The run of a block function with its own treatment of the last block. -/
def foldLast (process last : σ → List α → σ) : σ → List (List α) → σ
  | start, [] => start
  | start, [block] => last start block
  | start, block :: next :: blocks => foldLast process last (process start block) (next :: blocks)

theorem foldLast_same (process : σ → List α → σ) (start : σ) (blocks : List (List α)) :
    foldLast process process start blocks = blocks.foldl process start := by
  induction start, blocks using foldLast.induct process with
  | case1 start => rfl
  | case2 start block => rfl
  | case3 start block next blocks ih => exact ih

theorem foldLast_cons {blocks : List (List α)} (more : blocks ≠ []) (process last : σ → List α → σ) (start : σ)
    (block : List α) : foldLast process last start (block :: blocks) = foldLast process last (process start block) blocks := by
  cases blocks with
  | nil => exact absurd rfl more
  | cons next blocks => rfl

/-- What a stream leaves of `start`; a block that ends the stream goes to `last`. -/
def consume (n : Nat) (process last : σ → List α → σ) (start : σ) (stream : List α) : σ :=
  if (rest n stream).isEmpty then foldLast process last start (whole n stream) else (whole n stream).foldl process start

theorem consume_same (n : Nat) (process : σ → List α → σ) (start : σ) (stream : List α) :
    consume n process process start stream = (whole n stream).foldl process start := by
  rw [consume, foldLast_same, ite_self]

theorem consume_short {n : Nat} (process last : σ → List α → σ) (start : σ) {stream : List α} (short : stream.length < n) :
    consume n process last start stream = start := by
  rw [consume, whole_short short, foldLast, List.foldl_nil, ite_self]

@[simp] theorem consume_nil (n : Nat) (process last : σ → List α → σ) (start : σ) : consume n process last start [] = start := by
  rw [consume, whole_nil, foldLast, List.foldl_nil, ite_self]

theorem consume_block {n : Nat} (positive : 0 < n) (process last : σ → List α → σ) (start : σ) {block : List α}
    (full : block.length = n) (stream : List α) : consume n process last start (block ++ stream) =
      if stream.isEmpty then last start block else consume n process last (process start block) stream := by
  rw [consume, whole_block positive full, rest_block positive full]
  cases stream with
  | nil => rw [whole_nil, rest_nil]; rfl
  | cons head tail =>
    rw [List.isEmpty_cons, if_neg Bool.false_ne_true, consume]
    by_cases done : (rest n (head :: tail)).isEmpty
    · have more : whole n (head :: tail) ≠ [] := by
        intro none
        have back := whole_rest positive (head :: tail)
        rw [none, List.isEmpty_iff.mp done] at back
        cases back
      rw [if_pos done, if_pos done, foldLast_cons more]
    · rw [if_neg done, if_neg done, List.foldl_cons]

/-- A stream that is filled up to a full block. -/
def pad (n : Nat) (fill : α) (stream : List α) : List α :=
  stream ++ List.replicate ((n - stream.length % n) % n) fill

theorem pad_aligned {n : Nat} (positive : 0 < n) (fill : α) (stream : List α) : n ∣ (pad n fill stream).length := by
  have small := Nat.mod_lt stream.length positive
  have whole_ := Nat.div_add_mod stream.length n
  rw [pad, List.length_append, List.length_replicate]
  by_cases aligned : stream.length % n = 0
  · rw [aligned, Nat.sub_zero, Nat.mod_self, Nat.add_zero]
    exact Nat.dvd_of_mod_eq_zero aligned
  · rw [Nat.mod_eq_of_lt (show n - stream.length % n < n by omega)]
    exact ⟨stream.length / n + 1, by rw [Nat.mul_succ]; omega⟩

theorem pad_of_aligned {n : Nat} {stream : List α} (aligned : stream.length % n = 0) (fill : α) : pad n fill stream = stream := by
  rw [pad, aligned, Nat.sub_zero, Nat.mod_self, List.replicate_zero, List.append_nil]

theorem pad_of_open {n : Nat} {stream : List α} (positive : 0 < n) (unaligned : stream.length % n ≠ 0) (fill : α) :
    pad n fill stream = stream ++ List.replicate (n - (rest n stream).length) fill := by
  rw [pad, rest_length, Nat.mod_eq_of_lt (Nat.sub_lt positive (Nat.pos_iff_ne_zero.mpr unaligned))]

theorem pad_append {n : Nat} {front : List α} (aligned : n ∣ front.length) (fill : α) (back : List α) :
    pad n fill (front ++ back) = front ++ pad n fill back := by
  obtain ⟨k, length⟩ := aligned
  rw [pad, pad, List.length_append, length, Nat.mul_add_mod, List.append_assoc]

/-- Element `i` of the stream that a source of blocks of `n` gives from `start` on. -/
def drawn [Inhabited α] (n : Nat) (next : σ → σ × List α) (start : σ) (i : Nat) : α :=
  (next ((fun s => (next s).1)^[i / n] start)).2.getD (i % n) default

theorem drawn_first [Inhabited α] {n : Nat} (next : σ → σ × List α) (start : σ) {i : Nat} (first : i < n) :
    drawn n next start i = (next start).2.getD i default := by
  rw [drawn, Nat.div_eq_of_lt first, Nat.mod_eq_of_lt first, Function.iterate_zero_apply]

theorem drawn_later [Inhabited α] {n : Nat} (positive : 0 < n) (next : σ → σ × List α) (start : σ) (i : Nat) :
    drawn n next start (i + n) = drawn n next (next start).1 i := by
  rw [drawn, drawn, Nat.add_div_right _ positive, Nat.add_mod_right, Function.iterate_succ_apply]

theorem flatMap_getElem? {n : Nat} (positive : 0 < n) {block : Nat → List α} (sized : ∀ k, (block k).length = n) {m i : Nat}
    (inside : i < n * m) : ((List.range m).flatMap block)[i]? = (block (i / n))[i % n]? := by
  induction m with
  | zero => exact absurd inside (Nat.not_lt_zero i)
  | succ m ih =>
    have length : ((List.range m).flatMap block).length = n * m := by
      rw [List.length_flatMap, List.map_congr_left fun k _ => sized k, List.map_const', List.length_range, List.sum_replicate_nat,
        Nat.mul_comm]
    rw [List.range_succ, List.flatMap_append, List.flatMap_singleton]
    by_cases early : i < n * m
    · rw [List.getElem?_append_left (by rwa [length]), ih early]
    · have place : i = n * m + (i - n * m) := by omega
      have last : i - n * m < n := by
        rw [Nat.mul_succ] at inside
        omega
      rw [List.getElem?_append_right (by rw [length]; omega), length, place, Nat.mul_add_div positive, Nat.mul_add_mod,
        Nat.div_eq_of_lt last, Nat.mod_eq_of_lt last, Nat.add_zero, Nat.add_sub_cancel_left]

end Blockwise
