import Mathlib.Data.List.Basic

namespace Window

variable {α σ : Type} [Inhabited α] {n : Nat}

/-- A sequence whose first `n` terms are given, and of which each later term is made from the `n`
    before it; `back i` is the term `i + 1` places back. -/
def sequence (first : Nat → α) (next : (Fin n → α) → α) (t : Nat) : α :=
  if t < n then first t else next fun i => sequence first next (t - (i.val + 1))
termination_by t
decreasing_by
  have := i.isLt
  omega

/-- Term `t` as it is made from a window of `n` terms, in which term `k` is at place `k % n`. -/
def windowTerm (first : Nat → α) (next : (Fin n → α) → α) (window : List α) (t : Nat) : α :=
  if t < n then first t else next fun i => window.getD ((t - (i.val + 1)) % n) default

def windowStep (first : Nat → α) (next : (Fin n → α) → α) (round : σ → Nat → α → σ) (s : List α × σ) (t : Nat) :
    List α × σ :=
  let term := windowTerm first next s.1 t
  (s.1.set (t % n) term, round s.2 t term)

theorem window_run (positive : 0 < n) (first : Nat → α) (next : (Fin n → α) → α) (round : σ → Nat → α → σ)
    (window : List α) (sized : window.length = n) (start : σ) (rounds : Nat) :
    let last := (List.range rounds).foldl (windowStep first next round) (window, start)
    last.2 = (List.range rounds).foldl (fun s t => round s t (sequence first next t)) start ∧ last.1.length = n ∧
      ∀ k, k < rounds → rounds ≤ k + n → last.1.getD (k % n) default = sequence first next k := by
  induction rounds with
  | zero => exact ⟨rfl, sized, fun k early => absurd early (Nat.not_lt_zero k)⟩
  | succ rounds ih =>
    simp only [List.range_succ, List.foldl_append, List.foldl_cons, List.foldl_nil] at ih ⊢
    generalize (List.range rounds).foldl (windowStep first next round) (window, start) = last at ih ⊢
    obtain ⟨same, length, held⟩ := ih
    have term : windowTerm first next last.1 rounds = sequence first next rounds := by
      rw [windowTerm, sequence]
      by_cases early : rounds < n
      · rw [if_pos early, if_pos early]
      · rw [if_neg early, if_neg early]
        congr 1
        funext i
        have inside := i.isLt
        exact held _ (by omega) (by omega)
    refine ⟨?_, ?_, ?_⟩
    · rw [windowStep, term, same]
    · rw [windowStep, List.length_set, length]
    · intro k early recent
      rw [windowStep, term, List.getD_eq_getElem?_getD, List.getElem?_set]
      by_cases newest : k = rounds
      · rw [newest, if_pos rfl, if_pos (by rw [length]; exact Nat.mod_lt _ positive), Option.getD_some]
      · have apart : rounds % n ≠ k % n := by
          intro equal
          have gap := Nat.sub_mod_eq_zero_of_mod_eq equal
          rw [Nat.mod_eq_of_lt (by omega)] at gap
          omega
        rw [if_neg apart, ← List.getD_eq_getElem?_getD]
        exact held k (by omega) (by omega)

end Window
