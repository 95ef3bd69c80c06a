import Bridge.Library.Runs
import Bridge.WifiService.Fsm
import Mathlib.Logic.Function.Basic

namespace Bridge

variable {Action World : Type}

/-- What `handleEvent` leaves and returns, with the action that it has run. -/
structure EventResult (Action World : Type) where
  fsm : FSM Action
  world : World
  ret : Int
  ran : Option Action

/-- In memory `eventActFunc` is a pointer, which is `none` where it is NULL. -/
def takeTransition (act : Action → World → Option (World × Int)) (fsm : FSM Action) (world : World)
    (item : FSMTransform Action) : Option (EventResult Action World) :=
  match item.eventActFunc with
  | none => some ⟨fsm, world, 1, none⟩
  | some eventActFunc => (act eventActFunc world).map fun done =>
    ⟨if done.2 = 0 then fsm.transState item.nextState else fsm, done.1, done.2, some eventActFunc⟩

/-- `handleEvent` over memory of any contents; `act` knows what lies at an address, if anything. -/
def handleEventMemory (act : Action → World → Option (World × Int)) (fsm : FSM Action) (event : UInt8) (world : World) :
    Option (EventResult Action World) :=
  if event = errorEvent then some ⟨fsm, world, 1, none⟩
  else match fsm.find event with
  | none => some ⟨fsm, world, 1, none⟩
  | some item => takeTransition act fsm world item

/-- A machine, with the transition that was filled last for each event. -/
structure FSMRecord (Action World : Type) where
  fsm : FSM Action
  world : World
  filled : UInt8 → Option (FSMTransform Action)

def FSMRecord.start (heap : Nat → FSMTransform Action) (maxTransNum : UInt8) (curState : UInt8) (world : World) :
    FSMRecord Action World where
  fsm := ⟨(List.range maxTransNum.toNat).map heap, curState⟩
  world := world
  filled _ := none

inductive FSMCall (Action : Type)
  | fillFSMTransItem (transItem : FSMTransform Action)
  | initFSMCurState (curState : UInt8)
  | handleEvent (event : UInt8)

def FSMRecord.fill (s : FSMRecord Action World) (transItem : FSMTransform Action) : FSMRecord Action World :=
  { s with
    fsm := fillFSMTransItem s.fsm transItem
    filled := Function.update s.filled transItem.event (some transItem) }

def FSMRecord.next (act : Action → World → Option (World × Int)) (s : FSMRecord Action World) :
    FSMCall Action → Option (FSMRecord Action World)
  | .fillFSMTransItem transItem => some (s.fill transItem)
  | .initFSMCurState curState => some { s with fsm := s.fsm.transState curState }
  | .handleEvent event => (handleEventMemory act s.fsm event s.world).map fun done =>
      { s with fsm := done.fsm, world := done.world }

/-- The transition that was filled for this event in the state that the machine is in. -/
def FSMRecord.transition (s : FSMRecord Action World) (event : UInt8) : Option (FSMTransform Action) :=
  (s.filled event).filter fun item => item.curState == s.fsm.curState

def FSMRecord.Faithful (s : FSMRecord Action World) : FSMCall Action → Prop
  | .fillFSMTransItem transItem => transItem.event.toNat < s.fsm.fsmTransTable.length
  | .initFSMCurState _ => True
  | .handleEvent event => ∀ (act : Action → World → Option (World × Int)) (world : World),
    match s.transition event with
    | some item => handleEventMemory act s.fsm event world = takeTransition act s.fsm world item
    | none => ∃ ret, ret ≠ 0 ∧ handleEventMemory act s.fsm event world = some ⟨s.fsm, world, ret, none⟩

def FSMTransform.shows (item : FSMTransform Action) (event curState : UInt8) : Prop :=
  item.event = event ∧ item.curState = curState

/-- The function of a transition and where it leads, `none` where there is no function. -/
def FSMTransform.effect (item : FSMTransform Action) : Option (Action × UInt8) :=
  item.eventActFunc.map fun eventActFunc => (eventActFunc, item.nextState)

/-- A fill is for an event below the size of the table. The first slot that shows the pair of an event has the
    effect of the transition that was filled for it, or none where nothing was. -/
def FSMRecord.Safe (s : FSMRecord Action World) : FSMCall Action → Prop
  | .fillFSMTransItem transItem => transItem.event.toNat < s.fsm.fsmTransTable.length
  | .initFSMCurState _ => True
  | .handleEvent event => event ≠ errorEvent → ∀ (slot : Nat) (item : FSMTransform Action), s.fsm.fsmTransTable[slot]? = some item →
      item.shows event s.fsm.curState →
      (∀ (earlier : Nat) (other : FSMTransform Action), earlier < slot → s.fsm.fsmTransTable[earlier]? = some other → ¬other.shows event s.fsm.curState) →
      item.effect = (s.transition event).bind FSMTransform.effect

/-- The slots hold what was filled last for their event, or what the memory held; no fill went elsewhere. -/
structure FSMRecord.Kept (heap : Nat → FSMTransform Action) (maxTransNum : UInt8) (s : FSMRecord Action World) : Prop where
  slots : ∀ slot < maxTransNum.toNat,
    s.fsm.fsmTransTable[slot]? = some ((s.filled (UInt8.ofNat slot)).getD (heap slot))
  size : s.fsm.fsmTransTable.length = maxTransNum.toNat
  inside : ∀ event item, s.filled event = some item → item.event = event ∧ event.toNat < maxTransNum.toNat

theorem takeTransition_effect {item other : FSMTransform Action} (same : item.effect = other.effect)
    (act : Action → World → Option (World × Int)) (fsm : FSM Action) (world : World) :
    takeTransition act fsm world item = takeTransition act fsm world other := by
  unfold FSMTransform.effect at same
  unfold takeTransition
  cases held : item.eventActFunc with
  | none =>
    rw [held] at same
    rw [Option.map_eq_none_iff.mp same.symm]
  | some eventActFunc =>
    rw [held] at same
    rcases Option.map_eq_some_iff.mp same.symm with ⟨otherFunc, held', equal⟩
    rcases Prod.mk.inj equal with ⟨rfl, next⟩
    rw [held']
    simp only [next]

theorem takeTransition_none {item : FSMTransform Action} (nothing : item.effect = none)
    (act : Action → World → Option (World × Int)) (fsm : FSM Action) (world : World) :
    takeTransition act fsm world item = some ⟨fsm, world, 1, none⟩ := by
  rw [takeTransition, Option.map_eq_none_iff.mp nothing]

theorem effect_eq_of_take {item other : FSMTransform Action} {fsm : FSM Action} {world : World}
    (same : takeTransition (fun _ world => some (world, 0)) fsm world item =
      takeTransition (fun _ world => some (world, 0)) fsm world other) : item.effect = other.effect := by
  unfold takeTransition at same
  unfold FSMTransform.effect
  cases held : item.eventActFunc with
  | none =>
    cases held' : other.eventActFunc with
    | none => rfl
    | some otherFunc => simp [held, held'] at same
  | some eventActFunc =>
    cases held' : other.eventActFunc with
    | none => simp [held, held'] at same
    | some otherFunc =>
      simp only [held, held', Option.map_some, if_true, Option.some.injEq, EventResult.mk.injEq, FSM.transState,
        FSM.mk.injEq] at same
      rw [Option.map_some, Option.map_some, same.1.2, same.2.2.2]

theorem effect_none_of_take {item : FSMTransform Action} {fsm after : FSM Action} {world world' : World} {ret : Int}
    (done : takeTransition (fun _ world => some (world, 0)) fsm world item = some ⟨after, world', ret, none⟩) :
    item.effect = none := by
  unfold takeTransition at done
  unfold FSMTransform.effect
  cases held : item.eventActFunc with
  | none => rfl
  | some eventActFunc => simp [held] at done

theorem shows_iff {item : FSMTransform Action} {event curState : UInt8} :
    (event == item.event && curState == item.curState) = true ↔ item.shows event curState := by
  rw [Bool.and_eq_true, beq_iff_eq, beq_iff_eq, FSMTransform.shows, eq_comm, @eq_comm _ curState]

theorem find_none_iff {fsm : FSM Action} {event : UInt8} :
    fsm.find event = none ↔ ∀ item ∈ fsm.fsmTransTable, ¬item.shows event fsm.curState := by
  simp only [FSM.find, List.find?_eq_none, shows_iff]

theorem find_first {fsm : FSM Action} {event : UInt8} {item : FSMTransform Action} (found : fsm.find event = some item) :
    item.shows event fsm.curState ∧ ∃ slot, fsm.fsmTransTable[slot]? = some item ∧
      ∀ (earlier : Nat) (other : FSMTransform Action), earlier < slot → fsm.fsmTransTable[earlier]? = some other →
        ¬other.shows event fsm.curState := by
  rw [FSM.find, List.find?_eq_some_iff_getElem] at found
  rcases found with ⟨shown, slot, inside, held, before⟩
  refine ⟨shows_iff.mp shown, slot, ?_, ?_⟩
  · rw [List.getElem?_eq_getElem inside, held]
  · intro earlier other less there showing
    rcases List.getElem?_eq_some_iff.mp there with ⟨within, rfl⟩
    have missed := before earlier less
    rw [shows_iff.mpr showing] at missed
    cases missed

theorem find_first_iff {fsm : FSM Action} {event : UInt8} {item : FSMTransform Action} (found : fsm.find event = some item)
    {slot : Nat} {other : FSMTransform Action} (there : fsm.fsmTransTable[slot]? = some other)
    (showing : other.shows event fsm.curState)
    (first : ∀ (earlier : Nat) (before : FSMTransform Action), earlier < slot →
      fsm.fsmTransTable[earlier]? = some before → ¬before.shows event fsm.curState) : other = item := by
  rcases find_first found with ⟨shown, slot', there', first'⟩
  rcases Nat.lt_trichotomy slot slot' with less | rfl | more
  · exact absurd showing (first' slot other less there)
  · exact Option.some.inj (there.symm.trans there')
  · exact absurd shown (first slot' item more there')

theorem safe_iff_found {s : FSMRecord Action World} {event : UInt8} {item : FSMTransform Action} (proper : event ≠ errorEvent)
    (found : s.fsm.find event = some item) :
    s.Safe (.handleEvent event) ↔ item.effect = (s.transition event).bind FSMTransform.effect := by
  constructor
  · intro safe
    rcases find_first found with ⟨shown, slot, there, first⟩
    exact safe proper slot item there shown first
  · intro same _ slot other there showing first
    rw [find_first_iff found there showing first]
    exact same

theorem handleEventMemory_table {act : Action → World → Option (World × Int)} {fsm : FSM Action} {event : UInt8}
    {world : World} {result : EventResult Action World} (done : handleEventMemory act fsm event world = some result) :
    result.fsm.fsmTransTable = fsm.fsmTransTable := by
  unfold handleEventMemory takeTransition at done
  split at done
  · cases done
    rfl
  · split at done
    · cases done
      rfl
    · split at done
      · cases done
        rfl
      · rcases Option.map_eq_some_iff.mp done with ⟨after, acted, rfl⟩
        simp only
        split
        · rfl
        · rfl

theorem fill_filled_self (s : FSMRecord Action World) (transItem : FSMTransform Action) :
    (s.fill transItem).filled transItem.event = some transItem := Function.update_self _ _ _

theorem fill_filled_ne (s : FSMRecord Action World) {transItem : FSMTransform Action} {event : UInt8}
    (other : event ≠ transItem.event) : (s.fill transItem).filled event = s.filled event := Function.update_of_ne other _ _

section Kept

variable {heap : Nat → FSMTransform Action} {maxTransNum : UInt8} {s s' : FSMRecord Action World}
  (kept : s.Kept heap maxTransNum)
include kept

theorem transition_slot {event : UInt8} {item : FSMTransform Action} (own : s.transition event = some item) :
    s.fsm.fsmTransTable[event.toNat]? = some item ∧ item.shows event s.fsm.curState := by
  rcases Option.filter_eq_some_iff.mp own with ⟨filled, state⟩
  rcases kept.inside event item filled with ⟨same, inside⟩
  have slot := kept.slots event.toNat inside
  rw [UInt8.ofNat_toNat, filled, Option.getD_some] at slot
  exact ⟨slot, same, beq_iff_eq.mp state⟩

theorem error_transition : s.transition errorEvent = none := by
  cases own : s.transition errorEvent with
  | none => rfl
  | some item =>
    have inside := (kept.inside errorEvent item (Option.filter_eq_some_iff.mp own).1).2
    have small := maxTransNum.toNat_lt
    have last : errorEvent.toNat = 255 := rfl
    omega

theorem event_faithful_iff (event : UInt8) : s.Faithful (.handleEvent event) ↔ s.Safe (.handleEvent event) := by
  by_cases proper : event = errorEvent
  · subst proper
    simp only [FSMRecord.Faithful, FSMRecord.Safe, error_transition kept]
    apply iff_of_true
    · intro act world
      exact ⟨1, by decide, if_pos rfl⟩
    · exact fun improper => absurd rfl improper
  · cases found : s.fsm.find event with
    | none =>
      have hidden := find_none_iff.mp found
      have own : s.transition event = none := by
        cases own : s.transition event with
        | none => rfl
        | some item =>
          have shown := transition_slot kept own
          exact absurd shown.2 (hidden item (List.mem_of_getElem? shown.1))
      simp only [FSMRecord.Faithful, FSMRecord.Safe, own]
      apply iff_of_true
      · intro act world
        refine ⟨1, by decide, ?_⟩
        rw [handleEventMemory, if_neg proper, found]
      · intro _ slot item there showing
        exact absurd showing (hidden item (List.mem_of_getElem? there))
    | some item =>
      have taken : ∀ (act : Action → World → Option (World × Int)) (world : World),
          handleEventMemory act s.fsm event world = takeTransition act s.fsm world item := by
        intro act world
        rw [handleEventMemory, if_neg proper, found]
      rw [safe_iff_found proper found]
      cases own : s.transition event with
      | none =>
        simp only [FSMRecord.Faithful, own, taken, Option.bind_none]
        constructor
        · intro faithful
          rcases faithful (fun _ world => some (world, 0)) s.world with ⟨ret, failed, done⟩
          exact effect_none_of_take done
        · intro nothing act world
          exact ⟨1, by decide, takeTransition_none nothing act s.fsm world⟩
      | some mine =>
        simp only [FSMRecord.Faithful, own, taken, Option.bind_some]
        constructor
        · intro faithful
          exact effect_eq_of_take (faithful _ s.world)
        · intro same act world
          exact takeTransition_effect same act s.fsm world

theorem fill_kept {transItem : FSMTransform Action} (inside : transItem.event.toNat < maxTransNum.toNat) :
    (s.fill transItem).Kept heap maxTransNum := by
  apply FSMRecord.Kept.mk
  · intro slot small
    have byte : maxTransNum.toNat < UInt8.size := maxTransNum.toNat_lt
    have index : (UInt8.ofNat slot).toNat = slot := UInt8.toNat_ofNat_of_lt' (Nat.lt_trans small byte)
    by_cases own : slot = transItem.event.toNat
    · have room : slot < s.fsm.fsmTransTable.length := by rw [kept.size]; exact small
      rw [own, UInt8.ofNat_toNat, fill_filled_self, Option.getD_some]
      exact List.getElem?_set_self (own ▸ room)
    · have other : UInt8.ofNat slot ≠ transItem.event := by
        intro same
        rw [same] at index
        exact own index.symm
      rw [fill_filled_ne s other, ← kept.slots slot small]
      exact List.getElem?_set_ne (Ne.symm own)
  · exact List.length_set.trans kept.size
  · intro event item filled
    by_cases own : event = transItem.event
    · rw [own, fill_filled_self] at filled
      cases filled
      exact ⟨own.symm, own ▸ inside⟩
    · rw [fill_filled_ne s own] at filled
      exact kept.inside event item filled

theorem next_kept {act : Action → World → Option (World × Int)} {call : FSMCall Action} (safe : s.Safe call)
    (done : s.next act call = some s') : s'.Kept heap maxTransNum := by
  cases call with
  | fillFSMTransItem transItem =>
    cases done
    have inside : transItem.event.toNat < s.fsm.fsmTransTable.length := safe
    rw [kept.size] at inside
    exact fill_kept kept inside
  | initFSMCurState curState =>
    cases done
    exact ⟨kept.slots, kept.size, kept.inside⟩
  | handleEvent event =>
    rcases Option.map_eq_some_iff.mp done with ⟨result, handled, rfl⟩
    have table := handleEventMemory_table handled
    exact ⟨by rw [table]; exact kept.slots, by rw [table]; exact kept.size, kept.inside⟩

end Kept

theorem faithful_iff_safe {heap : Nat → FSMTransform Action} {maxTransNum : UInt8} {s : FSMRecord Action World}
    (kept : s.Kept heap maxTransNum) (call : FSMCall Action) : s.Faithful call ↔ s.Safe call := by
  cases call with
  | fillFSMTransItem transItem => exact Iff.rfl
  | initFSMCurState state => exact Iff.rfl
  | handleEvent event => exact event_faithful_iff kept event

theorem start_kept (heap : Nat → FSMTransform Action) (maxTransNum curState : UInt8) (world : World) :
    (FSMRecord.start heap maxTransNum curState world).Kept heap maxTransNum := by
  apply FSMRecord.Kept.mk
  · intro slot small
    rw [FSMRecord.start, List.getElem?_map, List.getElem?_range small]
    rfl
  · rw [FSMRecord.start, List.length_map, List.length_range]
  · intro event item filled
    cases filled

/-- Over any fills and events the machine is faithful exactly if each of them is safe. -/
theorem events_faithful_iff (act : Action → World → Option (World × Int)) (heap : Nat → FSMTransform Action)
    (maxTransNum curState : UInt8) (world : World) (calls : List (FSMCall Action)) :
    Runs.Along (FSMRecord.next act) FSMRecord.Faithful (.start heap maxTransNum curState world) calls ↔
      Runs.Along (FSMRecord.next act) FSMRecord.Safe (.start heap maxTransNum curState world) calls := by
  apply Runs.along_iff_of_kept (FSMRecord.next act) (FSMRecord.Kept heap maxTransNum)
  · exact fun s call s' kept safe done => next_kept kept safe done
  · exact fun s call kept => faithful_iff_safe kept call
  · exact start_kept heap maxTransNum curState world

def FSMCall.Fits (maxTransNum : UInt8) : FSMCall Action → Prop
  | .fillFSMTransItem transItem => transItem.event.toNat < maxTransNum.toNat
  | .initFSMCurState _ | .handleEvent _ => True

def zeroedSlot (_slot : Nat) : FSMTransform Action := ⟨0, 0, none, 0⟩

theorem zeroed_safe {maxTransNum : UInt8} {s : FSMRecord Action World} (kept : s.Kept zeroedSlot maxTransNum)
    (event : UInt8) : s.Safe (.handleEvent event) := by
  intro _ slot item there shown first
  have inside : slot < maxTransNum.toNat := by
    rw [← kept.size]
    exact (List.getElem?_eq_some_iff.mp there).1
  have held := kept.slots slot inside
  rw [there] at held
  cases filled : s.filled (UInt8.ofNat slot) with
  | some own =>
    rw [filled, Option.getD_some] at held
    cases held
    have same := (kept.inside _ item filled).1
    have transition : s.transition event = some item := by
      apply Option.filter_eq_some_iff.mpr
      refine ⟨?_, beq_iff_eq.mpr shown.2⟩
      rw [← shown.1, same]
      exact filled
    rw [transition, Option.bind_some]
  | none =>
    rw [filled, Option.getD_none] at held
    cases held
    cases own : s.transition event with
    | none => rfl
    | some other =>
      -- the slot of event 0 comes first, so the slot that shows it is that one and was filled
      have zero : event = 0 := shown.1.symm
      subst zero
      rcases transition_slot kept own with ⟨here, showing⟩
      cases slot with
      | zero =>
        have none : s.filled 0 = none := filled
        rw [FSMRecord.transition, none] at own
        cases own
      | succ later => exact absurd showing (first 0 other (Nat.succ_pos later) here)

/-- In memory of zeros a machine is faithful exactly if the fills fit its table. -/
theorem zeroed_faithful_iff (act : Action → World → Option (World × Int)) (maxTransNum curState : UInt8) (world : World)
    (calls : List (FSMCall Action)) :
    Runs.Along (FSMRecord.next act) FSMRecord.Faithful (.start zeroedSlot maxTransNum curState world) calls ↔
      Runs.Along (FSMRecord.next act) (fun _ call => call.Fits maxTransNum) (.start zeroedSlot maxTransNum curState world)
        calls := by
  have safe : ∀ (s : FSMRecord Action World) call, s.Kept zeroedSlot maxTransNum → (s.Safe call ↔ call.Fits maxTransNum) := by
    intro s call kept
    cases call with
    | fillFSMTransItem transItem =>
      show _ < s.fsm.fsmTransTable.length ↔ _
      rw [kept.size]
      exact Iff.rfl
    | initFSMCurState state => exact Iff.rfl
    | handleEvent event => exact iff_of_true (zeroed_safe kept event) trivial
  apply Runs.along_iff_of_kept (FSMRecord.next act) (FSMRecord.Kept zeroedSlot maxTransNum)
  · exact fun s call s' kept fits done => next_kept kept ((safe s call kept).mpr fits) done
  · exact fun s call kept => (faithful_iff_safe kept call).trans (safe s call kept)
  · exact start_kept zeroedSlot maxTransNum curState world

def sampleHeap (_slot : Nat) : FSMTransform Bool := ⟨1, 0, some false, 3⟩

def sampleSteps (calls : List (FSMCall Bool)) : Prop :=
  Runs.Along (FSMRecord.next fun _ world => some (world, 0)) FSMRecord.Faithful (.start sampleHeap 7 0 ()) calls

/-- Slots that show event 1 in state 0: the event with nothing filled, and with a transition filled for it; and a
    transition filled for event 9 in a table of 7. -/
theorem leftover_transition_runs : ¬sampleSteps [.handleEvent 1] ∧
    ¬sampleSteps [.fillFSMTransItem ⟨1, 0, some true, 1⟩, .handleEvent 1] ∧
    ¬sampleSteps [.fillFSMTransItem ⟨9, 8, some true, 9⟩] := by
  refine ⟨?_, ?_, ?_⟩
  · intro along
    rcases along.1 (fun _ world => some (world, 0)) () with ⟨ret, _, done⟩
    cases congrArg (Option.map EventResult.ran) done
  · intro along
    have same := (along.2 _ rfl).1 (fun _ world => some (world, 0)) ()
    cases congrArg (Option.map EventResult.ran) same
  · intro along
    have inside : 9 < ((List.range 7).map sampleHeap).length := along.1
    rw [List.length_map, List.length_range] at inside
    omega

/-- The same machine with the functions of some slots unknown. -/
structure FSM.Forgets (fsm known : FSM Action) : Prop where
  state : fsm.curState = known.curState
  slots : List.Forall₂ (fun item other => item.event = other.event ∧ item.curState = other.curState ∧
    item.nextState = other.nextState ∧ ∀ eventActFunc, other.eventActFunc = some eventActFunc →
      item.eventActFunc = some eventActFunc) fsm.fsmTransTable known.fsmTransTable

theorem find_forgets {fsm known : FSM Action} (forgets : fsm.Forgets known) (event : UInt8) :
    (known.find event = none → fsm.find event = none) ∧
      ∀ other, known.find event = some other → ∃ item, fsm.find event = some item ∧ item.nextState = other.nextState ∧
        ∀ eventActFunc, other.eventActFunc = some eventActFunc → item.eventActFunc = some eventActFunc := by
  rcases fsm with ⟨table, curState⟩
  rcases known with ⟨knownTable, knownState⟩
  rcases forgets with ⟨rfl, slots⟩
  simp only [FSM.find] at slots ⊢
  induction slots with
  | nil => exact ⟨id, nofun⟩
  | @cons item other items others same _ ih =>
    rcases same with ⟨sameEvent, sameState, next, func⟩
    rw [List.find?_cons, List.find?_cons, sameEvent, sameState]
    cases event == other.event && curState == other.curState with
    | true =>
      refine ⟨nofun, ?_⟩
      intro found same
      cases same
      exact ⟨item, rfl, next, func⟩
    | false => exact ih

/-- What is known of an event without the functions that the memory held is so for any such functions. -/
theorem handleEvent_memory {act : Action → World → Option (World × Int)} {fsm known known' : FSM Action}
    (forgets : fsm.Forgets known) {event : UInt8} {world world' : World} {ret : Int}
    (done : handleEvent act known event world = some (known', world', ret)) :
    ∃ result, handleEventMemory act fsm event world = some result ∧ result.fsm.Forgets known' ∧
      result.world = world' ∧ result.ret = ret := by
  unfold handleEvent at done
  unfold handleEventMemory
  by_cases improper : event = errorEvent
  · rw [if_pos improper] at done ⊢
    cases done
    exact ⟨_, rfl, forgets, rfl, rfl⟩
  · rw [if_neg improper] at done ⊢
    have lookup := find_forgets forgets event
    cases found : known.find event with
    | none =>
      rw [found] at done
      cases done
      rw [lookup.1 found]
      exact ⟨_, rfl, forgets, rfl, rfl⟩
    | some other =>
      rcases lookup.2 other found with ⟨item, found', next, func⟩
      rw [found] at done
      rcases Option.bind_eq_some_iff.mp done with ⟨eventActFunc, held, acted⟩
      rcases Option.map_eq_some_iff.mp acted with ⟨⟨after, code⟩, ran, moved⟩
      cases moved
      refine ⟨⟨if ret = 0 then fsm.transState item.nextState else fsm, world', ret, some eventActFunc⟩, ?_, ?_, rfl, rfl⟩
      · simp only [found', takeTransition, func eventActFunc held, ran, Option.map_some]
      · show FSM.Forgets (if ret = 0 then fsm.transState item.nextState else fsm) _
        split
        · exact ⟨next, forgets.slots⟩
        · exact forgets

end Bridge
