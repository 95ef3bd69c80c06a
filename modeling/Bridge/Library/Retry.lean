import Mathlib.Data.Nat.Notation
import Mathlib.Order.Basic

namespace Retry

structure Tally where
  failures : Nat
  passed : Bool
deriving DecidableEq

def Tally.attempts (tally : Tally) : Nat := tally.failures + tally.passed.toNat

variable {State : Type} (succeeds : Nat → Bool) (failed : State → Option State)

/-- Attempts until one succeeds, or until there is no state to go on with behind a failure. -/
def run : Nat → Nat → State → Option Tally
  | 0, _, _ => none
  | fuel + 1, failures, state =>
    if succeeds failures then some ⟨failures, true⟩
    else match failed state with
    | some state => run fuel (failures + 1) state
    | none => some ⟨failures + 1, false⟩

/-- A state that takes so many failures, the last of which ends the loop. -/
inductive Allows : State → Nat → Prop
  | last {state : State} (ends : failed state = none) : Allows state 1
  | more {state state' : State} {n : Nat} (goes : failed state = some state') (rest : Allows state' n) :
      Allows state (n + 1)

variable {succeeds failed} {fuel failures : Nat} {state : State} {tally : Tally}

theorem run_success (success : succeeds failures = true) :
    run succeeds failed (fuel + 1) failures state = some ⟨failures, true⟩ := by
  rw [run, if_pos success]

theorem run_failure (failure : ¬succeeds failures = true) :
    run succeeds failed (fuel + 1) failures state =
      match failed state with
      | some state => run succeeds failed fuel (failures + 1) state
      | none => some ⟨failures + 1, false⟩ := by
  rw [run, if_neg failure]

theorem run_fuel (done : run succeeds failed fuel failures state = some tally) {more : Nat} (enough : fuel ≤ more) :
    run succeeds failed more failures state = some tally := by
  induction fuel generalizing failures state more with
  | zero => cases done
  | succ fuel ih =>
    cases more with
    | zero => exact absurd enough (Nat.not_succ_le_zero fuel)
    | succ more =>
      by_cases success : succeeds failures = true
      · rw [run_success success] at done ⊢
        exact done
      · rw [run_failure success] at done ⊢
        cases goes : failed state with
        | none =>
          rw [goes] at done
          exact done
        | some state' =>
          rw [goes] at done
          exact ih done (Nat.le_of_succ_le_succ enough)

theorem run_tally (done : run succeeds failed fuel failures state = some tally) :
    failures ≤ tally.failures ∧ (∀ k, failures ≤ k → k < tally.failures → succeeds k = false) ∧
      (tally.passed = true → succeeds tally.failures = true) := by
  induction fuel generalizing failures state with
  | zero => cases done
  | succ fuel ih =>
    by_cases success : succeeds failures = true
    · rw [run_success success] at done
      cases done
      exact ⟨Nat.le_refl _, fun k from' below => absurd from' (Nat.not_le.mpr below), fun _ => success⟩
    · rw [run_failure success] at done
      rw [Bool.not_eq_true] at success
      cases goes : failed state with
      | none =>
        rw [goes] at done
        cases done
        refine ⟨Nat.le_succ _, ?_, fun passed => Bool.noConfusion passed⟩
        intro k from' below
        rw [Nat.le_antisymm (Nat.le_of_lt_succ below) from']
        exact success
      | some state' =>
        rw [goes] at done
        rcases ih done with ⟨later, between, last⟩
        refine ⟨Nat.le_of_succ_le later, ?_, last⟩
        intro k from' below
        rcases Nat.eq_or_lt_of_le from' with rfl | beyond
        · exact success
        · exact between k beyond below

theorem run_patient {kept : State → Prop} (patient : ∀ state, kept state → ∃ state', failed state = some state' ∧ kept state')
    (start : kept state) (done : run succeeds failed fuel failures state = some tally) : tally.passed = true := by
  induction fuel generalizing failures state with
  | zero => cases done
  | succ fuel ih =>
    by_cases success : succeeds failures = true
    · rw [run_success success] at done
      cases done
      rfl
    · rcases patient state start with ⟨state', goes, kept'⟩
      rw [run_failure success, goes] at done
      exact ih kept' done

theorem run_reaches (patient : ∀ state, failed state ≠ none) {n : Nat} (success : succeeds (failures + n) = true) :
    ∃ tally, run succeeds failed (n + 1) failures state = some tally ∧ tally.passed = true ∧
      tally.failures ≤ failures + n := by
  induction n generalizing failures state with
  | zero => exact ⟨⟨failures, true⟩, run_success success, rfl, Nat.le_refl _⟩
  | succ n ih =>
    by_cases now : succeeds failures = true
    · exact ⟨_, run_success now, rfl, Nat.le_add_right _ _⟩
    · rw [run_failure now]
      cases goes : failed state with
      | none => exact absurd goes (patient state)
      | some state' =>
        have shift : failures + (n + 1) = failures + 1 + n := (Nat.succ_add_eq_add_succ failures n).symm
        rw [shift] at success ⊢
        exact ih success

/-- A loop that takes so many failures ends within as many attempts: with a success among them, or when all have failed. -/
theorem run_allows {n : Nat} (allows : Allows failed state n) :
    ∃ tally, run succeeds failed n failures state = some tally ∧
      (tally.passed = true ∧ tally.failures < failures + n ∨ tally = ⟨failures + n, false⟩) := by
  induction allows generalizing failures with
  | last ends =>
    by_cases success : succeeds failures = true
    · exact ⟨_, run_success success, .inl ⟨rfl, Nat.lt_succ_self _⟩⟩
    · rw [run_failure success, ends]
      exact ⟨_, rfl, .inr rfl⟩
  | @more state state' n goes _ ih =>
    by_cases success : succeeds failures = true
    · exact ⟨_, run_success success, .inl ⟨rfl, Nat.lt_add_of_pos_right (Nat.succ_pos n)⟩⟩
    · have shift : failures + (n + 1) = failures + 1 + n := (Nat.succ_add_eq_add_succ failures n).symm
      rw [run_failure success, goes, shift]
      exact ih

end Retry
