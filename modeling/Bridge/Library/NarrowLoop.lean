import Mathlib.Algebra.Order.Ring.Int
import Mathlib.Data.List.Basic

namespace NarrowLoop

variable {State : Type}

/-- A `for` loop with a signed index of `2 * half` values, which goes up by `step` and wraps; `none` where a
    round has no result, or where the fuel is used up. -/
def run (half step : Nat) (limit : Int) (round : Int → State → Option State) : Nat → Int → State → Option State
  | 0, _, _ => none
  | fuel + 1, i, state =>
    if i < limit then
      (round i state).bind fun state => run half step limit round fuel (Int.bmod (i + step) (2 * half)) state
    else some state

section Rules

variable {half step : Nat} {limit : Int} {round : Int → State → Option State} {fuel : Nat} {state : State}

theorem run_done {i : Int} (ended : limit ≤ i) : run half step limit round (fuel + 1) i state = some state := by
  rw [run, if_neg (by omega)]

theorem run_round {i : Int} {after : State} (below : i < limit) (done : round i state = some after) :
    run half step limit round (fuel + 1) i state = run half step limit round fuel (Int.bmod (i + step) (2 * half)) after := by
  rw [run, if_pos below, done, Option.bind_some]

theorem next_index {k : Nat} (inside : step * (k + 1) < half) :
    Int.bmod (((step * k : Nat) : Int) + step) (2 * half) = ((step * (k + 1) : Nat) : Int) := by
  rw [Nat.mul_succ] at inside ⊢
  rw [Int.bmod_eq_of_le_mul_two (by omega) (by omega)]
  push_cast
  rfl

theorem run_invariant (Inv : Nat → State → Prop) {rounds : Nat} (inside : step * rounds < half)
    (short : ∀ k, k < rounds → ((step * k : Nat) : Int) < limit) (ended : limit ≤ ((step * rounds : Nat) : Int))
    (kept : ∀ k state, k < rounds → Inv k state →
      ∃ after, round ((step * k : Nat) : Int) state = some after ∧ Inv (k + 1) after)
    {k : Nat} (early : k ≤ rounds) (holds : Inv k state) (enough : rounds < fuel + k) :
    ∃ final, run half step limit round fuel ((step * k : Nat) : Int) state = some final ∧ Inv rounds final := by
  induction fuel generalizing k state with
  | zero => omega
  | succ fuel ih =>
    rcases Nat.eq_or_lt_of_le early with rfl | more
    · exact ⟨state, run_done ended, holds⟩
    · rcases kept k state more holds with ⟨after, done, holds'⟩
      have moved : step * (k + 1) < half := Nat.lt_of_le_of_lt (Nat.mul_le_mul_left step more) inside
      rw [run_round (short k more) done, next_index moved]
      exact ih more holds' (by omega)

/-- No index of the type is at the limit, or past it: the loop never ends by its condition. -/
theorem run_never {i : Int} (positive : 0 < half) (far : (half : Int) ≤ limit) (below : i < half) :
    run half step limit round fuel i state = none := by
  induction fuel generalizing i state with
  | zero => rfl
  | succ fuel ih =>
    rw [run, if_pos (by omega)]
    cases round i state with
    | none => rfl
    | some after =>
      have wrapped := @Int.bmod_lt (i + step) (2 * half) (by omega)
      exact ih (by omega)

end Rules

end NarrowLoop
