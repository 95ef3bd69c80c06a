import Mathlib.Data.List.Nodup

namespace Transitions

variable {Row State : Type} (source target : Row → State)

/-- One transition for each state at most, and each before the one of the state that it leads to. -/
structure Ordered (table : List Row) : Prop where
  sources : (table.map source).Nodup
  moving : ∀ row ∈ table, source row ≠ target row
  successors : table.Pairwise fun earlier later => source earlier ≠ target later

/-- From a state on, the transitions that follow one another up to a state that has none. -/
inductive Path (table : List Row) : State → List Row → State → Prop
  | stop {state : State} (none : ∀ row ∈ table, source row ≠ state) : Path table state [] state
  | step {row : Row} {rows : List Row} {final : State} (inside : row ∈ table) (rest : Path table (target row) rows final) :
      Path table (source row) (row :: rows) final

section Path

variable {source target} {table rows : List Row} {state final : State}

theorem Path.nil (path : Path source target table state [] final) :
    state = final ∧ ∀ row ∈ table, source row ≠ state := by
  cases path with
  | stop none => exact ⟨rfl, none⟩

theorem Path.cons {row : Row} (path : Path source target table state (row :: rows) final) :
    state = source row ∧ row ∈ table ∧ Path source target table (target row) rows final := by
  cases path with
  | step inside rest => exact ⟨rfl, inside, rest⟩

theorem Path.rest {done left : List Row} {row : Row}
    (path : Path source target table state (done ++ row :: left) final) :
    Path source target table (source row) (row :: left) final := by
  induction done generalizing state with
  | nil =>
    rcases path.cons with ⟨rfl, _⟩
    exact path
  | cons first done ih => exact ih path.cons.2.2

theorem Path.stops (path : Path source target table state rows final) : Path source target table final [] final := by
  induction path with
  | stop none => exact .stop none
  | step _ _ ih => exact ih

theorem Path.unique (sources : (table.map source).Nodup) (path : Path source target table state rows final)
    {other : List Row} {last : State} (path' : Path source target table state other last) :
    other = rows ∧ last = final := by
  induction rows generalizing state other with
  | nil =>
    rcases path.nil with ⟨rfl, none⟩
    cases other with
    | nil => exact ⟨rfl, path'.nil.1.symm⟩
    | cons row rest => exact absurd path'.cons.1.symm (none row path'.cons.2.1)
  | cons row rows ih =>
    rcases path.cons with ⟨rfl, inside, rest⟩
    cases other with
    | nil => exact absurd rfl (path'.nil.2 row inside)
    | cons first others =>
      rcases path'.cons with ⟨same, inside', rest'⟩
      cases List.inj_on_of_nodup_map sources inside inside' same
      rcases ih rest rest' with ⟨rfl, rfl⟩
      exact ⟨rfl, rfl⟩

end Path

variable [DecidableEq State]

/-- What one pass over a table takes of it. -/
def pass : List Row → State → List Row
  | [], _ => []
  | row :: rest, state => if state = source row then row :: pass rest (target row) else pass rest state

theorem pass_sublist (table : List Row) (state : State) : (pass source target table state).Sublist table := by
  induction table generalizing state with
  | nil => exact List.Sublist.refl []
  | cons row rest ih =>
    rw [pass]
    split
    · exact (ih _).cons_cons row
    · exact (ih _).cons row

/-- In an ordered table one pass takes the path: what it has left behind is for no state to come. -/
theorem pass_path {table : List Row} (ordered : Ordered source target table) (state : State) :
    ∃ final, Path source target table state (pass source target table state) final := by
  suffices ∀ before after state, table = before ++ after → (∀ row ∈ before, source row ≠ state) →
      ∃ final, Path source target table state (pass source target after state) final from
    this [] table state rfl (List.forall_mem_nil _)
  intro before after state split missed
  induction after generalizing before state with
  | nil =>
    rw [List.append_nil] at split
    exact ⟨state, .stop (split ▸ missed)⟩
  | cons row rest ih =>
    have inside : row ∈ table := by simp [split]
    have split' : table = (before ++ [row]) ++ rest := by simp [split]
    rw [pass]
    by_cases here : state = source row
    · subst here
      have later : ∀ other ∈ before ++ [row], source other ≠ target row := by
        have successors := ordered.successors
        rw [split, List.pairwise_append] at successors
        simp only [List.mem_append, List.mem_singleton]
        rintro other (earlier | rfl)
        · exact successors.2.2 other earlier row List.mem_cons_self
        · exact ordered.moving other inside
      rcases ih (before ++ [row]) (target row) split' later with ⟨final, path⟩
      rw [if_pos rfl]
      exact ⟨final, .step inside path⟩
    · rw [if_neg here]
      apply ih (before ++ [row]) state split'
      simp only [List.mem_append, List.mem_singleton]
      rintro other (earlier | rfl)
      · exact missed other earlier
      · exact Ne.symm here

end Transitions
