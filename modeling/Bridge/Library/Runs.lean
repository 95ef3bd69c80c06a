import Mathlib.Data.List.Basic

namespace Runs

variable {State Step : Type} (next : State → Step → Option State)

/-- Steps taken one after the other; `none` as soon as one of them does not return. -/
def run : State → List Step → Option State
  | s, [] => some s
  | s, step :: rest => (next s step).bind fun s' => run s' rest

/-- A system that records more runs as the one that it records. -/
theorem run_project {Record : Type} (project : Record → State) {record : Record → Step → Option Record}
    (same : ∀ r step, (record r step).map project = next (project r) step) (r : Record) (steps : List Step) :
    (run record r steps).map project = run next (project r) steps := by
  induction steps generalizing r with
  | nil => rfl
  | cons step rest ih =>
    have stepped := same r step
    cases recorded : record r step with
    | none =>
      rw [recorded] at stepped
      simp [run, recorded, ← stepped]
    | some middle =>
      rw [recorded] at stepped
      simp [run, recorded, ← stepped, ih]

def Along (meets : State → Step → Prop) : State → List Step → Prop
  | _, [] => True
  | s, step :: rest => meets s step ∧ ∀ s', next s step = some s' → Along meets s' rest

theorem along_project {Record : Type} (project : Record → State) {record : Record → Step → Option Record}
    (same : ∀ r step, (record r step).map project = next (project r) step) {meets : State → Step → Prop} {r : Record}
    {steps : List Step} (along : Along next meets (project r) steps) :
    Along record (fun r step => meets (project r) step) r steps := by
  induction steps generalizing r with
  | nil => trivial
  | cons step rest ih =>
    refine ⟨along.1, ?_⟩
    intro r' recorded
    have stepped := same r step
    rw [recorded] at stepped
    exact ih (along.2 (project r') stepped.symm)

/-- Where a record meets its condition exactly if the state in it meets the other one, so does a run. -/
theorem along_record_iff {Record : Type} (project : Record → State) {record : Record → Step → Option Record}
    (same : ∀ r step, (record r step).map project = next (project r) step) (kept : Record → Prop)
    {recorded : Record → Step → Prop} {meets : State → Step → Prop}
    (keeps : ∀ r step r', kept r → meets (project r) step → record r step = some r' → kept r')
    (sharp : ∀ r step, kept r → (recorded r step ↔ meets (project r) step)) {r : Record} (start : kept r)
    (steps : List Step) : Along record recorded r steps ↔ Along next meets (project r) steps := by
  induction steps generalizing r with
  | nil => exact Iff.rfl
  | cons step rest ih =>
    show _ ∧ _ ↔ _ ∧ _
    rw [sharp r step start]
    apply and_congr_right
    intro met
    constructor
    · intro along s' stepped
      rw [← same r step] at stepped
      rcases Option.map_eq_some_iff.mp stepped with ⟨r', moved, rfl⟩
      exact (ih (keeps r step r' start met moved)).mp (along r' moved)
    · intro along r' moved
      apply (ih (keeps r step r' start met moved)).mpr
      apply along
      rw [← same r step, moved, Option.map_some]

theorem along_iff_of_kept (kept : State → Prop) {first second : State → Step → Prop}
    (keeps : ∀ s step s', kept s → second s step → next s step = some s' → kept s')
    (sharp : ∀ s step, kept s → (first s step ↔ second s step)) {s : State} (start : kept s) (steps : List Step) :
    Along next first s steps ↔ Along next second s steps :=
  along_record_iff next id (fun s step => by rw [Option.map_id]; rfl) kept keeps sharp start steps

theorem along_of_forall {meets : State → Step → Prop} (s : State) (steps : List Step)
    (met : ∀ step ∈ steps, ∀ s, meets s step) : Along next meets s steps := by
  induction steps generalizing s with
  | nil => trivial
  | cons step rest ih =>
    rw [List.forall_mem_cons] at met
    exact ⟨met.1 s, fun s' _ => ih s' met.2⟩

theorem run_cons {s s' : State} {step : Step} {rest : List Step}
    (done : run next s (step :: rest) = some s') :
    ∃ middle, next s step = some middle ∧ run next middle rest = some s' :=
  Option.bind_eq_some_iff.mp done

theorem run_append (s : State) (steps more : List Step) :
    run next s (steps ++ more) = (run next s steps).bind fun s' => run next s' more := by
  induction steps generalizing s with
  | nil => rfl
  | cons step rest ih =>
    cases stepped : next s step with
    | none => simp [run, stepped]
    | some middle => simp [run, stepped, ih]

theorem run_invariant {holds : State → Prop} {meets : State → Step → Prop}
    (kept : ∀ s step s', holds s → meets s step → next s step = some s' → holds s')
    {s s' : State} {steps : List Step} (start : holds s) (along : Along next meets s steps)
    (done : run next s steps = some s') : holds s' := by
  induction steps generalizing s with
  | nil =>
    cases done
    exact start
  | cons step rest ih =>
    obtain ⟨middle, stepped, done⟩ := run_cons next done
    exact ih (kept s step middle start along.1 stepped) (along.2 middle stepped) done

theorem run_preserves {holds : State → Prop}
    (kept : ∀ s step s', holds s → next s step = some s' → holds s')
    {s s' : State} {steps : List Step} (start : holds s) (done : run next s steps = some s') :
    holds s' := by
  induction steps generalizing s with
  | nil =>
    cases done
    exact start
  | cons step rest ih =>
    obtain ⟨middle, stepped, done⟩ := run_cons next done
    exact ih (kept s step middle start stepped) done

/-- Where each step keeps `holds` exactly if it meets `meets`, a run that starts with `holds` keeps
    it exactly if all its steps do. -/
theorem run_iff_along {kept holds : State → Prop} {meets : State → Step → Prop}
    (keeps : ∀ s step s', kept s → next s step = some s' → kept s')
    (sharp : ∀ s step s', kept s → next s step = some s' → (holds s' ↔ holds s ∧ meets s step))
    {s s' : State} {steps : List Step} (start : kept s) (done : run next s steps = some s') :
    holds s' ↔ holds s ∧ Along next meets s steps := by
  induction steps generalizing s with
  | nil =>
    cases done
    exact (and_iff_left trivial).symm
  | cons step rest ih =>
    obtain ⟨middle, stepped, done⟩ := run_cons next done
    have along : Along next meets s (step :: rest) ↔ meets s step ∧ Along next meets middle rest := by
      simp only [Along, stepped, Option.some.injEq, forall_eq']
    rw [ih (keeps s step middle start stepped) done, sharp s step middle start stepped, along, and_assoc]

/-- Every state that a run comes through, the first and the last included. -/
def Always (holds : State → Prop) : State → List Step → Prop
  | s, [] => holds s
  | s, step :: rest => holds s ∧ ∀ s', next s step = some s' → Always holds s' rest

theorem Always.head {holds : State → Prop} {s : State} {steps : List Step} (always : Always next holds s steps) :
    holds s := by
  cases steps with
  | nil => exact always
  | cons step rest => exact always.1

theorem Always.last {holds : State → Prop} {s s' : State} {steps : List Step} (always : Always next holds s steps)
    (done : run next s steps = some s') : holds s' := by
  induction steps generalizing s with
  | nil =>
    cases done
    exact always
  | cons step rest ih =>
    obtain ⟨middle, stepped, done⟩ := run_cons next done
    exact ih (always.2 middle stepped) done

theorem along_iff {meets : Step → Prop} {s s' : State} {steps : List Step} (done : run next s steps = some s') :
    Along next (fun _ step => meets step) s steps ↔ ∀ step ∈ steps, meets step := by
  induction steps generalizing s with
  | nil => simp [Along]
  | cons step rest ih =>
    obtain ⟨middle, stepped, done⟩ := run_cons next done
    simp only [Along, stepped, Option.some.injEq, forall_eq', ih done, List.forall_mem_cons]

/-- Where `kept` implies `holds` and is kept by the steps that meet `meets`, and every other step
    breaks `holds`, a run holds throughout exactly if all its steps meet `meets`. -/
theorem always_iff_along {kept holds : State → Prop} {meets : State → Step → Prop}
    (keeps : ∀ s step s', kept s → meets s step → next s step = some s' → kept s')
    (sound : ∀ s, kept s → holds s)
    (breaks : ∀ s step s', kept s → ¬meets s step → next s step = some s' → ¬holds s')
    {s s' : State} {steps : List Step} (start : kept s) (done : run next s steps = some s') :
    Always next holds s steps ↔ Along next meets s steps := by
  induction steps generalizing s with
  | nil => exact iff_of_true (sound s start) trivial
  | cons step rest ih =>
    obtain ⟨middle, stepped, done⟩ := run_cons next done
    simp only [Always, Along, stepped, Option.some.injEq, forall_eq']
    by_cases met : meets s step
    · rw [ih (keeps s step middle start met stepped) done]
      exact ⟨fun always => ⟨met, always.2⟩, fun along => ⟨sound s start, along.2⟩⟩
    · constructor
      · intro always
        exact absurd (Always.head next always.2) (breaks s step middle start met stepped)
      · intro along
        exact absurd along.1 met

/-- The same for any list of steps, where a step that does not meet `meets` is always possible. -/
theorem always_iff_along_any {kept holds : State → Prop} {meets : State → Step → Prop}
    (keeps : ∀ s step s', kept s → meets s step → next s step = some s' → kept s')
    (sound : ∀ s, kept s → holds s)
    (breaks : ∀ s step, kept s → ¬meets s step → ∃ s', next s step = some s' ∧ ¬holds s')
    {s : State} (start : kept s) (steps : List Step) :
    Always next holds s steps ↔ Along next meets s steps := by
  induction steps generalizing s with
  | nil => exact iff_of_true (sound s start) trivial
  | cons step rest ih =>
    by_cases met : meets s step
    · constructor
      · intro always
        exact ⟨met, fun s' stepped => (ih (keeps s step s' start met stepped)).mp (always.2 s' stepped)⟩
      · intro along
        exact ⟨sound s start, fun s' stepped => (ih (keeps s step s' start met stepped)).mpr (along.2 s' stepped)⟩
    · obtain ⟨s', stepped, broken⟩ := breaks s step start met
      constructor
      · intro always
        exact absurd (Always.head next (always.2 s' stepped)) broken
      · intro along
        exact absurd along.1 met

/-- Where a step returns and keeps `holds` exactly if it meets `meets`, a run returns and holds
    throughout exactly if all its steps meet `meets`. -/
theorem completes_iff_along {kept holds : State → Prop} {meets : State → Step → Prop} (sound : ∀ s, kept s → holds s)
    (sharp : ∀ s step, kept s → (meets s step ↔ ∃ s', next s step = some s' ∧ holds s'))
    (keeps : ∀ s step s', kept s → next s step = some s' → holds s' → kept s')
    {s : State} (start : kept s) (steps : List Step) :
    ((run next s steps).isSome = true ∧ Always next holds s steps) ↔ Along next meets s steps := by
  induction steps generalizing s with
  | nil => exact iff_of_true ⟨rfl, sound s start⟩ trivial
  | cons step rest ih =>
    constructor
    · rintro ⟨returns, always⟩
      obtain ⟨last, done⟩ := Option.isSome_iff_exists.mp returns
      obtain ⟨middle, stepped, done⟩ := run_cons next done
      have holds' := Always.head next (always.2 middle stepped)
      refine ⟨(sharp s step start).mpr ⟨middle, stepped, holds'⟩, ?_⟩
      intro s' stepped'
      cases stepped.symm.trans stepped'
      exact (ih (keeps s step middle start stepped holds')).mp
        ⟨Option.isSome_iff_exists.mpr ⟨last, done⟩, always.2 middle stepped⟩
    · rintro ⟨met, along⟩
      obtain ⟨middle, stepped, holds'⟩ := (sharp s step start).mp met
      have others := (ih (keeps s step middle start stepped holds')).mpr (along middle stepped)
      have whole : run next s (step :: rest) = run next middle rest := by rw [run, stepped, Option.bind_some]
      refine ⟨by rw [whole]; exact others.1, sound s start, ?_⟩
      intro s' stepped'
      cases stepped.symm.trans stepped'
      exact others.2

end Runs
