import Mathlib.Algebra.Group.Nat.Defs
import Mathlib.Data.List.Basic
import Mathlib.Logic.Function.Basic

namespace Bridge

/-- The next atomic step of a thread in `GetMsgID`. A thread outside of the call is before its next `INC`. -/
inductive MsgIdStep
  | INC
  | test
  | result
  deriving DecidableEq, Repr

inductive MsgIdEvent
  | fetchAdd (thread : Nat)
  | returns (thread : Nat) (id : UInt32)
  deriving DecidableEq, Repr

/-- The bits of the atomic counter, the place of each thread, and what the threads did in order. -/
structure MsgIds where
  g_msg_id : UInt32
  next : Nat → MsgIdStep
  trace : List MsgIdEvent

def MsgIds.init : MsgIds := ⟨0, fun _ => .INC, []⟩

def getMsgID (s : MsgIds) (thread : Nat) : MsgIds :=
  match s.next thread with
  | .INC =>
    { g_msg_id := s.g_msg_id + 1
      next := Function.update s.next thread .test
      trace := s.trace ++ [.fetchAdd thread] }
  | .test =>
    -- the counter is read again; a C int is even exactly if its bits are
    { s with next := Function.update s.next thread (if s.g_msg_id % 2 = 0 then .INC else .result) }
  | .result =>
    -- and once more for the value that is returned
    { s with
      next := Function.update s.next thread .INC
      trace := s.trace ++ [.returns thread s.g_msg_id] }

def MsgIds.run (s : MsgIds) (threads : List Nat) : MsgIds := threads.foldl getMsgID s

namespace MsgIdEvent

def adds : List MsgIdEvent → Nat
  | [] => 0
  | .fetchAdd _ :: rest => adds rest + 1
  | .returns _ _ :: rest => adds rest

def ids : List MsgIdEvent → List UInt32
  | [] => []
  | .fetchAdd _ :: rest => ids rest
  | .returns _ id :: rest => id :: ids rest

/-- Every two return reads have a fetch-and-add between them. -/
def Separated (trace : List MsgIdEvent) : Prop :=
  ∀ earlier t id between t' id' later,
    trace = earlier ++ .returns t id :: (between ++ .returns t' id' :: later) → ∃ u, .fetchAdd u ∈ between

/-- The ids returned are the values of a counter that stood at `n` before the trace. -/
def Counts : Nat → List MsgIdEvent → Prop
  | _, [] => True
  | n, .fetchAdd _ :: rest => Counts (n + 1) rest
  | n, .returns _ id :: rest => id = UInt32.ofNat n ∧ Counts n rest

@[simp] theorem adds_append (trace more : List MsgIdEvent) : adds (trace ++ more) = adds trace + adds more := by
  induction trace with
  | nil => simp [adds]
  | cons event rest ih =>
    cases event with
    | fetchAdd t =>
      simp only [List.cons_append, adds, ih]
      omega
    | returns t id => exact ih

theorem adds_eq_zero (trace : List MsgIdEvent) : adds trace = 0 ↔ ∀ u, .fetchAdd u ∉ trace := by
  induction trace with
  | nil => simp [adds]
  | cons event rest ih =>
    cases event with
    | fetchAdd t =>
      apply iff_of_false (Nat.succ_ne_zero _)
      intro none
      exact none t List.mem_cons_self
    | returns t id => simp [adds, ih]

theorem mem_ids {id : UInt32} {trace : List MsgIdEvent} :
    id ∈ ids trace ↔ ∃ earlier t later, trace = earlier ++ .returns t id :: later := by
  constructor
  · intro member
    have event : ∃ t, .returns t id ∈ trace := by
      induction trace with
      | nil => cases member
      | cons event rest ih =>
        cases event with
        | fetchAdd t =>
          obtain ⟨u, found⟩ := ih member
          exact ⟨u, List.mem_cons_of_mem _ found⟩
        | returns t other =>
          rcases List.mem_cons.mp member with rfl | member
          · exact ⟨t, List.mem_cons_self⟩
          · obtain ⟨u, found⟩ := ih member
            exact ⟨u, List.mem_cons_of_mem _ found⟩
    obtain ⟨t, found⟩ := event
    obtain ⟨earlier, later, split⟩ := List.append_of_mem found
    exact ⟨earlier, t, later, split⟩
  · rintro ⟨earlier, t, later, rfl⟩
    induction earlier with
    | nil => exact List.mem_cons_self
    | cons event rest ih =>
      cases event with
      | fetchAdd u => exact ih
      | returns u other => exact List.mem_cons_of_mem _ ih

theorem Counts.append {n : Nat} {trace more : List MsgIdEvent} :
    Counts n (trace ++ more) ↔ Counts n trace ∧ Counts (n + adds trace) more := by
  induction trace generalizing n with
  | nil => simp [Counts, adds]
  | cons event rest ih =>
    cases event with
    | fetchAdd t => simp only [List.cons_append, Counts, ih, adds, Nat.add_assoc, Nat.add_comm 1]
    | returns t id => simp only [List.cons_append, Counts, ih, adds, and_assoc]

theorem Counts.id_eq {n : Nat} {earlier later : List MsgIdEvent} {t : Nat} {id : UInt32}
    (counts : Counts n (earlier ++ .returns t id :: later)) : id = UInt32.ofNat (n + adds earlier) :=
  (Counts.append.mp counts).2.1

theorem separated_fetchAdd (u : Nat) (rest : List MsgIdEvent) : Separated (.fetchAdd u :: rest) ↔ Separated rest := by
  constructor
  · intro separated earlier t id between t' id' later split
    exact separated (.fetchAdd u :: earlier) t id between t' id' later (by rw [split]; rfl)
  · intro separated earlier t id between t' id' later split
    cases earlier with
    | nil => cases split
    | cons event earlier =>
      apply separated earlier t id between t' id' later
      exact (List.cons.inj split).2

theorem separated_returns (t : Nat) (id : UInt32) (rest : List MsgIdEvent) :
    Separated (.returns t id :: rest) ↔
      (∀ between t' id' later, rest = between ++ .returns t' id' :: later → ∃ u, .fetchAdd u ∈ between) ∧
        Separated rest := by
  constructor
  · intro separated
    constructor
    · intro between t' id' later split
      exact separated [] t id between t' id' later (by rw [split]; rfl)
    · intro earlier v other between t' id' later split
      exact separated (.returns t id :: earlier) v other between t' id' later (by rw [split]; rfl)
  · rintro ⟨first, others⟩ earlier v other between t' id' later split
    cases earlier with
    | nil => exact first between t' id' later (List.cons.inj split).2
    | cons event earlier => exact others earlier v other between t' id' later (List.cons.inj split).2

theorem nodup_ids_iff {n : Nat} {trace : List MsgIdEvent} (counts : Counts n trace) (few : n + adds trace < 2 ^ 32) :
    (ids trace).Nodup ↔ Separated trace := by
  induction trace generalizing n with
  | nil =>
    apply iff_of_true List.nodup_nil
    intro earlier t id between t' id' later split
    cases earlier <;> cases split
  | cons event rest ih =>
    cases event with
    | fetchAdd u =>
      rw [separated_fetchAdd]
      apply ih counts
      simp only [adds] at few
      omega
    | returns t id =>
      obtain ⟨rfl, counts⟩ := counts
      change n + adds rest < 2 ^ 32 at few
      have fresh : UInt32.ofNat n ∉ ids rest ↔
          ∀ between t' id' later, rest = between ++ .returns t' id' :: later → ∃ u, .fetchAdd u ∈ between := by
        constructor
        · intro absent between t' id' later split
          by_contra still
          have unmoved : adds between = 0 := (adds_eq_zero between).mpr (not_exists.mp still)
          rw [split] at counts
          have same : id' = UInt32.ofNat n := by rw [counts.id_eq, unmoved, Nat.add_zero]
          exact absent (mem_ids.mpr ⟨between, t', later, by rw [split, same]⟩)
        · intro moved member
          obtain ⟨between, t', later, split⟩ := mem_ids.mp member
          rw [split] at counts few
          have same := counts.id_eq
          obtain ⟨u, add⟩ := moved between t' _ later split
          have positive : adds between ≠ 0 := fun zero => (adds_eq_zero between).mp zero u add
          have numbers := congrArg UInt32.toNat same
          rw [adds_append] at few
          rw [UInt32.toNat_ofNat_of_lt' (by simp [UInt32.size]; omega),
            UInt32.toNat_ofNat_of_lt' (by simp [UInt32.size]; omega)] at numbers
          omega
      rw [separated_returns, ← fresh, ← ih counts few]
      exact List.nodup_cons

end MsgIdEvent

namespace MsgIds

open MsgIdEvent

def Counted (s : MsgIds) : Prop := s.g_msg_id = UInt32.ofNat (adds s.trace) ∧ Counts 0 s.trace

theorem counted_init : Counted init := ⟨rfl, trivial⟩

theorem getMsgID_counted {s : MsgIds} (counted : Counted s) (thread : Nat) : Counted (getMsgID s thread) := by
  obtain ⟨value, counts⟩ := counted
  unfold getMsgID
  cases s.next thread with
  | INC =>
    constructor
    · change s.g_msg_id + 1 = _
      rw [value, adds_append]
      exact (UInt32.ofNat_add _ 1).symm
    · exact Counts.append.mpr ⟨counts, trivial⟩
  | test => exact ⟨value, counts⟩
  | result =>
    constructor
    · change s.g_msg_id = _
      rw [value, adds_append]
      rfl
    · apply Counts.append.mpr
      rw [Nat.zero_add]
      exact ⟨counts, value, trivial⟩

theorem run_counted {s : MsgIds} (counted : Counted s) (threads : List Nat) : Counted (s.run threads) := by
  induction threads generalizing s with
  | nil => exact counted
  | cons thread rest ih => exact ih (getMsgID_counted counted thread)

/-- The ids that the calls return are distinct exactly in the interleavings that have an increment of
    some thread between any two return reads. -/
theorem ids_distinct_iff_separated (threads : List Nat) (few : adds (init.run threads).trace < 2 ^ 31) :
    (ids (init.run threads).trace).Nodup ↔ Separated (init.run threads).trace := by
  have counted := run_counted counted_init threads
  apply nodup_ids_iff counted.2
  omega

theorem ids_distinct_in_turn :
    (ids (init.run [1, 1, 1, 2, 2, 2, 2, 2]).trace).Nodup ↔ Separated (init.run [1, 1, 1, 2, 2, 2, 2, 2]).trace :=
  ids_distinct_iff_separated _ (by decide)

/-- The first thread has passed its test when the second makes both of its increments, and both
    return the third value. -/
theorem ids_repeat :
    adds (init.run [1, 1, 2, 2, 2, 2, 1, 2]).trace < 2 ^ 31 ∧
      ¬(ids (init.run [1, 1, 2, 2, 2, 2, 1, 2]).trace).Nodup := by
  decide

end MsgIds

end Bridge
