import Mathlib.Data.List.Basic

namespace Pieces

variable {α : Type}

def count (size length : Nat) : Nat := (length + (size - 1)) / size

/-- Consecutive pieces of `size` elements, the last one possibly shorter. -/
def cut (size : Nat) (whole : List α) : List (List α) :=
  (List.range (count size whole.length)).map fun k => (whole.drop (size * k)).take size

@[simp] theorem cut_length (size : Nat) (whole : List α) :
    (cut size whole).length = count size whole.length := by
  simp [cut]

theorem count_mul (size length : Nat) (positive : 0 < size) : length ≤ size * count size length := by
  have division := Nat.div_add_mod (length + (size - 1)) size
  have rest := Nat.mod_lt (length + (size - 1)) positive
  unfold count
  omega

theorem count_positive {size length : Nat} (positive : 0 < size) (nonempty : 0 < length) :
    0 < count size length := by
  rcases Nat.eq_zero_or_pos (count size length) with none | some
  · have bound := count_mul size length positive
    rw [none] at bound
    omega
  · exact some

theorem cut_cons {size : Nat} (positive : 0 < size) {whole : List α} (nonempty : 0 < whole.length) :
    ∃ rest, cut size whole = whole.take size :: rest := by
  obtain ⟨n, several⟩ := Nat.exists_eq_add_of_lt (count_positive positive nonempty)
  refine ⟨(List.range n).map fun k => (whole.drop (size * (k + 1))).take size, ?_⟩
  rw [cut, several, Nat.zero_add, List.range_succ_eq_map, List.map_cons, List.map_map]
  rfl

theorem mul_lt (size length k : Nat) (early : k < count size length) : size * k < length := by
  unfold count at early
  have bound := Nat.mul_le_of_le_div size (k + 1) (length + (size - 1)) early
  have positive : 0 < size := by
    rcases Nat.eq_zero_or_pos size with rfl | positive
    · simp at early
    · exact positive
  rw [Nat.mul_comm, Nat.mul_succ] at bound
  omega

theorem cut_piece {size : Nat} (positive : 0 < size) {whole piece : List α} (inside : piece ∈ cut size whole) :
    piece ≠ [] ∧ piece.length ≤ size := by
  obtain ⟨k, early, rfl⟩ := List.mem_map.mp inside
  have before := mul_lt size whole.length k (List.mem_range.mp early)
  constructor
  · rw [← List.length_pos_iff, List.length_take, List.length_drop]
    omega
  · rw [List.length_take]
    omega

theorem flatten_take_cut (size : Nat) (whole : List α) (k : Nat)
    (bound : k ≤ count size whole.length) :
    ((cut size whole).take k).flatten = whole.take (size * k) := by
  induction k with
  | zero => simp
  | succ k ih =>
    have inside : k < (cut size whole).length := by rwa [cut_length]
    rw [List.take_succ_eq_append_getElem inside, List.flatten_append, ih (by omega), Nat.mul_succ,
      List.take_add]
    simp [cut]

end Pieces
