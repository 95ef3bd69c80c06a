import Mathlib.Data.List.Basic

namespace Tracing

/-- A computation over a state that notes events on its way; it has no result from where its behaviour
    is undefined. -/
def Traced (State Event α : Type) : Type := State → List Event × Option (State × α)

namespace Traced

variable {State Event α β : Type}

def events (x : Traced State Event α) (s : State) : List Event := (x s).1

def result (x : Traced State Event α) (s : State) : Option (State × α) := (x s).2

instance : Monad (Traced State Event) where
  pure a := fun s => ([], some (s, a))
  bind x f := fun s =>
    match x s with
    | (noted, none) => (noted, none)
    | (noted, some done) => (noted ++ (f done.2 done.1).1, (f done.2 done.1).2)

def note (event : Event) : Traced State Event Unit := fun s => ([event], some (s, ()))

def read : Traced State Event State := fun s => ([], some (s, s))

def modify (f : State → State) : Traced State Event Unit := fun s => ([], some (f s, ()))

def undefined : Traced State Event α := fun _ => ([], none)

@[simp] theorem result_pure (a : α) (s : State) : (pure a : Traced State Event α).result s = some (s, a) := rfl

@[simp] theorem result_note (event : Event) (s : State) : (note event).result s = some (s, ()) := rfl

@[simp] theorem result_read (s : State) : (read : Traced State Event State).result s = some (s, s) := rfl

@[simp] theorem result_modify (f : State → State) (s : State) :
    (modify f : Traced State Event Unit).result s = some (f s, ()) := rfl

@[simp] theorem result_undefined (s : State) : (undefined : Traced State Event α).result s = none := rfl

@[simp] theorem events_pure (a : α) (s : State) : (pure a : Traced State Event α).events s = [] := rfl

@[simp] theorem events_note (event : Event) (s : State) : (note event).events s = [event] := rfl

@[simp] theorem events_read (s : State) : (read : Traced State Event State).events s = [] := rfl

@[simp] theorem events_modify (f : State → State) (s : State) : (modify f : Traced State Event Unit).events s = [] := rfl

@[simp] theorem events_undefined (s : State) : (undefined : Traced State Event α).events s = [] := rfl

@[simp] theorem result_bind (x : Traced State Event α) (f : α → Traced State Event β) (s : State) :
    (x >>= f).result s = (x.result s).bind fun done => (f done.2).result done.1 := by
  simp only [result, Bind.bind]
  cases x s with
  | mk noted done => cases done <;> rfl

theorem events_bind_some {x : Traced State Event α} {s s' : State} {a : α} (done : x.result s = some (s', a))
    (f : α → Traced State Event β) : (x >>= f).events s = x.events s ++ (f a).events s' := by
  simp only [events, result, Bind.bind] at done ⊢
  rw [show x s = ((x s).1, some (s', a)) from Prod.ext rfl done]

theorem events_bind_none {x : Traced State Event α} {s : State} (stopped : x.result s = none)
    (f : α → Traced State Event β) : (x >>= f).events s = x.events s := by
  simp only [events, result, Bind.bind] at stopped ⊢
  rw [show x s = ((x s).1, none) from Prod.ext rfl stopped]

theorem mem_events_bind {x : Traced State Event α} {f : α → Traced State Event β} {s : State} {event : Event}
    (noted : event ∈ (x >>= f).events s) :
    event ∈ x.events s ∨ ∃ s' a, x.result s = some (s', a) ∧ event ∈ (f a).events s' := by
  cases done : x.result s with
  | none =>
    rw [events_bind_none done] at noted
    exact .inl noted
  | some after =>
    rw [events_bind_some done] at noted
    exact (List.mem_append.mp noted).imp_right fun later => ⟨after.1, after.2, rfl, later⟩

end Traced

end Tracing
