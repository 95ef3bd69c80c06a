import Mathlib.Data.List.Basic

namespace Bridge

def errorEvent : UInt8 := 255

/-- `eventActFunc` is `none` in an entry that was never filled: the address is what `malloc` left. -/
structure FSMTransform (Action : Type) where
  event : UInt8
  curState : UInt8
  eventActFunc : Option Action
  nextState : UInt8
deriving DecidableEq, Repr

structure FSM (Action : Type) where
  fsmTransTable : List (FSMTransform Action)
  curState : UInt8
deriving DecidableEq, Repr

variable {Action World : Type}

def FSM.transState (fsm : FSM Action) (state : UInt8) : FSM Action := { fsm with curState := state }

def getFSMTransTable (leftover : Nat → UInt8 × UInt8 × UInt8) (maxTransNum : Nat) : FSM Action where
  fsmTransTable := (List.range maxTransNum).map fun k =>
    ⟨(leftover k).1, (leftover k).2.1, none, (leftover k).2.2⟩
  curState := 0

def fillTransItem (event curState : UInt8) (eventActFunc : Action) (nextState : UInt8) :
    FSMTransform Action := ⟨event, curState, some eventActFunc, nextState⟩

def fillFSMTransItem (fsm : FSM Action) (transItem : FSMTransform Action) : FSM Action :=
  { fsm with fsmTransTable := fsm.fsmTransTable.set transItem.event.toNat transItem }

def FSM.find (fsm : FSM Action) (event : UInt8) : Option (FSMTransform Action) :=
  fsm.fsmTransTable.find? fun item => event == item.event && fsm.curState == item.curState

/-- `act` runs an action: what it leaves, and the value it returns. Nothing is known of the run when
    the event matches an entry that was never filled. -/
def handleEvent (act : Action → World → Option (World × Int)) (fsm : FSM Action) (event : UInt8)
    (world : World) : Option (FSM Action × World × Int) :=
  if event = errorEvent then some (fsm, world, 1)
  else match fsm.find event with
  | none => some (fsm, world, 1)
  | some item => item.eventActFunc.bind fun eventActFunc =>
    (act eventActFunc world).map fun (world, ret) =>
      (if ret = 0 then fsm.transState item.nextState else fsm, world, ret)

theorem handleEvent_found {act : Action → World → Option (World × Int)} {fsm fsm' : FSM Action}
    {event : UInt8} {world world' : World} {ret : Int} {item : FSMTransform Action}
    (proper : event ≠ errorEvent) (found : fsm.find event = some item)
    (done : handleEvent act fsm event world = some (fsm', world', ret)) :
    ∃ eventActFunc, item.eventActFunc = some eventActFunc ∧
      act eventActFunc world = some (world', ret) ∧
      fsm' = if ret = 0 then fsm.transState item.nextState else fsm := by
  simp only [handleEvent, if_neg proper, found, Option.bind_eq_some_iff, Option.map_eq_some_iff] at done
  obtain ⟨eventActFunc, filled, ⟨after, code⟩, acted, same⟩ := done
  cases same
  exact ⟨eventActFunc, filled, acted, rfl⟩

end Bridge
