import Bridge.BridgeMain.MainLoop
import Bridge.Library.Transitions

namespace Bridge

open Transitions (Ordered Path)

variable {Action World : Type}

/-- A task under `FSMHandle`, with the world that its actions act on and the calls that were made of them. -/
structure FsmRun (Action World : Type) where
  task : TaskNode Action
  world : World
  calls : List (FsmTable Action × Int)

/-- What an action does to the world and to the `ble_data` of its task, and what it returns. -/
abbrev WorldActFun (Action World : Type) := Action → TaskNode Action → World → World × List UInt8 × Int

/-- The actions of `FSMHandle` where there is no world. -/
def EventActFun.lift (act : EventActFun Action) : WorldActFun Action Unit := fun action tn _ => ((), act action tn)

def FsmRun.call (act : WorldActFun Action World) (run : FsmRun Action World) (row : FsmTable Action) :
    FsmRun Action World × Int :=
  let (world, bleData, eventResult) := act row.eventActFun run.task run.world
  (⟨{ run.task with bleData }, world, run.calls ++ [(row, eventResult)]⟩, eventResult)

def FsmRun.transState (run : FsmRun Action World) (curState : UInt8) : FsmRun Action World :=
  { run with task := { run.task with curState } }

/-- The loop of `FSMHandle`, with its calls. -/
def FsmRun.handleRows (act : WorldActFun Action World) :
    List (FsmTable Action) → FsmRun Action World → FsmRun Action World × Int
  | [], run => (run, 0)
  | row :: rest, run =>
    if run.task.curState = row.curState then
      let (called, eventResult) := run.call act row
      if eventResult ≠ 0 then (called, -1) else handleRows act rest (called.transState row.nextState)
    else handleRows act rest run

def FsmRun.handle (act : WorldActFun Action World) (run : FsmRun Action World) : FsmRun Action World × Int :=
  if run.task.taskSmTable.isEmpty then (run, -1) else run.handleRows act run.task.taskSmTable

def FsmRun.succeeded (run : FsmRun Action World) : List (FsmTable Action) :=
  (run.calls.filter fun call => call.2 == 0).map Prod.fst

def IsPath (table : List (FsmTable Action)) (state : UInt8) (path : List (FsmTable Action)) (final : UInt8) : Prop :=
  Path FsmTable.curState FsmTable.nextState table state path final

/-- The actions of the path are called one after the other, up to the end or to the first that fails. -/
inductive Handles (path : List (FsmTable Action)) (final : UInt8) (run after : FsmRun Action World) (ret : Int) : Prop
  | finished (calls : after.calls = run.calls ++ path.map fun row => (row, 0)) (state : after.task.curState = final)
      (returned : run.task.taskSmTable = [] ∨ ret = 0)
  | failed {done rest : List (FsmTable Action)} {row : FsmTable Action} {eventResult : Int} (split : path = done ++ row :: rest)
      (error : eventResult ≠ 0) (calls : after.calls = run.calls ++ done.map (fun row => (row, 0)) ++ [(row, eventResult)])
      (state : after.task.curState = row.curState) (returned : ret = -1)

def FsmRun.handleIn (act : WorldActFun Action World) (run : FsmRun Action World) (world : World) :
    FsmRun Action World × Int :=
  FsmRun.handle act { run with world }

def FsmRun.handledIn (act : WorldActFun Action World) (run : FsmRun Action World) (worlds : List World) : FsmRun Action World :=
  worlds.foldl (fun run world => (run.handleIn act world).1) run

/-- A task on its way along a path: what it has done, what is left of it, and what the next call does. -/
def FollowsPath (act : WorldActFun Action World) (table path : List (FsmTable Action)) (final : UInt8)
    (run : FsmRun Action World) : Prop := ∃ left, path = run.succeeded ++ left ∧ IsPath table run.task.curState left final ∧
  ∀ world, Handles left final run (run.handleIn act world).1 (run.handleIn act world).2

section Calls

variable (act : WorldActFun Action World) {run : FsmRun Action World} {row : FsmTable Action} {rest : List (FsmTable Action)}

theorem handleRows_skip (other : run.task.curState ≠ row.curState) :
    run.handleRows act (row :: rest) = run.handleRows act rest :=
  if_neg other

theorem handleRows_fail (here : run.task.curState = row.curState) (error : (run.call act row).2 ≠ 0) :
    run.handleRows act (row :: rest) = ((run.call act row).1, -1) := by
  rw [FsmRun.handleRows, if_pos here]
  exact if_pos error

theorem handleRows_goOn (here : run.task.curState = row.curState) (done : (run.call act row).2 = 0) :
    run.handleRows act (row :: rest) = ((run.call act row).1.transState row.nextState).handleRows act rest := by
  rw [FsmRun.handleRows, if_pos here]
  exact if_neg (not_not.mpr done)

theorem handleRows_task (act : EventActFun Action) (rows : List (FsmTable Action)) (run : FsmRun Action Unit) :
    ((run.handleRows act.lift rows).1.task, (run.handleRows act.lift rows).2) = fsmHandleRows act run.task rows := by
  induction rows generalizing run with
  | nil => rfl
  | cons row rest ih =>
    by_cases here : run.task.curState = row.curState
    · rw [fsmHandleRows, if_pos here]
      by_cases done : (act row.eventActFun run.task).2 = 0
      · rw [handleRows_goOn act.lift here done, ih]
        exact (if_neg (not_not.mpr done)).symm
      · rw [handleRows_fail act.lift here done]
        exact (if_pos done).symm
    · rw [fsmHandleRows, if_neg here, handleRows_skip act.lift here, ih]

theorem handle_task (act : EventActFun Action) (run : FsmRun Action Unit) :
    ((run.handle act.lift).1.task, (run.handle act.lift).2) = fsmHandle act run.task := by
  unfold FsmRun.handle fsmHandle
  split
  · rfl
  · exact handleRows_task act _ run

theorem handleRows_table (rows : List (FsmTable Action)) (run : FsmRun Action World) :
    (run.handleRows act rows).1.task.taskSmTable = run.task.taskSmTable := by
  induction rows generalizing run with
  | nil => rfl
  | cons row rest ih =>
    by_cases here : run.task.curState = row.curState
    · by_cases done : (run.call act row).2 = 0
      · rw [handleRows_goOn act here done, ih]
        rfl
      · rw [handleRows_fail act here done]
        rfl
    · rw [handleRows_skip _ here, ih]

theorem handleRows_pass (rows : List (FsmTable Action)) (run : FsmRun Action World) {table : List (FsmTable Action)}
    {final : UInt8}
    (path : IsPath table run.task.curState (Transitions.pass FsmTable.curState FsmTable.nextState rows run.task.curState) final) :
    Handles (Transitions.pass FsmTable.curState FsmTable.nextState rows run.task.curState) final run
      (run.handleRows act rows).1 (run.handleRows act rows).2 := by
  induction rows generalizing run with
  | nil => exact .finished (List.append_nil _).symm path.nil.1 (.inr rfl)
  | cons row rest ih =>
    by_cases here : run.task.curState = row.curState
    · have taken : Transitions.pass FsmTable.curState FsmTable.nextState (row :: rest) run.task.curState =
          row :: Transitions.pass FsmTable.curState FsmTable.nextState rest row.nextState := if_pos here
      rw [taken] at path ⊢
      by_cases done : (run.call act row).2 = 0
      · rw [handleRows_goOn act here done]
        have called : ((run.call act row).1.transState row.nextState).calls = run.calls ++ [(row, 0)] := by
          rw [← done]
          rfl
        cases ih ((run.call act row).1.transState row.nextState) path.cons.2.2 with
        | finished calls state returned =>
          refine .finished ?_ state returned
          rw [calls, called]
          simp [FsmRun.transState]
        | @failed done rest failing eventResult split error calls state returned =>
          refine .failed (show _ = (row :: done) ++ failing :: rest from congrArg (row :: ·) split) error ?_ state returned
          rw [calls, called]
          simp
      · rw [handleRows_fail act here done]
        exact .failed (List.nil_append _).symm done (by simp [FsmRun.call]) here rfl
    · have missed : Transitions.pass FsmTable.curState FsmTable.nextState (row :: rest) run.task.curState =
          Transitions.pass FsmTable.curState FsmTable.nextState rest run.task.curState := if_neg here
      rw [missed] at path ⊢
      rw [handleRows_skip act here]
      exact ih run path

theorem handle_path {path : List (FsmTable Action)} {final : UInt8}
    (ordered : Ordered FsmTable.curState FsmTable.nextState run.task.taskSmTable)
    (isPath : IsPath run.task.taskSmTable run.task.curState path final) :
    Handles path final run (run.handle act).1 (run.handle act).2 := by
  rcases Transitions.pass_path _ _ ordered run.task.curState with ⟨final', passed⟩
  rcases isPath.unique ordered.sources passed with ⟨taken, rfl⟩
  unfold FsmRun.handle
  by_cases empty : run.task.taskSmTable = []
  · have nothing : path = [] := by rw [← taken, empty]; rfl
    subst nothing
    rw [if_pos (List.isEmpty_iff.mpr empty)]
    exact .finished (List.append_nil _).symm isPath.nil.1 (.inl empty)
  · rw [if_neg (mt List.isEmpty_iff.mp empty)]
    rw [← taken]
    exact handleRows_pass act _ run passed

theorem handle_table : (run.handle act).1.task.taskSmTable = run.task.taskSmTable := by
  unfold FsmRun.handle
  split
  · rfl
  · exact handleRows_table act _ run

theorem succeeded_all (rows : List (FsmTable Action)) :
    ((rows.map fun row => (row, (0 : Int))).filter fun call => call.2 == 0).map Prod.fst = rows := by
  induction rows with
  | nil => rfl
  | cons row rest ih => simp [ih]

structure Progress (table path : List (FsmTable Action)) (final : UInt8) (run : FsmRun Action World)
    (left : List (FsmTable Action)) : Prop where
  kept : run.task.taskSmTable = table
  done : path = run.succeeded ++ left
  left : IsPath table run.task.curState left final

section Progress

variable {act} {table path left : List (FsmTable Action)} {final : UInt8}

theorem Progress.handles (ordered : Ordered FsmTable.curState FsmTable.nextState table)
    (progress : Progress table path final run left) (world : World) :
    Handles left final run (run.handleIn act world).1 (run.handleIn act world).2 := by
  rcases progress with ⟨rfl, _, left⟩
  have called : Handles _ final { run with world } _ _ := handle_path act ordered left
  cases called with
  | finished calls state returned => exact .finished calls state returned
  | failed split error calls state returned => exact .failed split error calls state returned

theorem Progress.next (progress : Progress table path final run left) {after : FsmRun Action World} {ret : Int}
    (kept : after.task.taskSmTable = table) (handles : Handles left final run after ret) :
    ∃ left', Progress table path final after left' := by
  cases handles with
  | finished calls state returned =>
    refine ⟨[], kept, ?_, ?_⟩
    · have all : after.succeeded = run.succeeded ++ left := by
        simp only [FsmRun.succeeded, calls, List.filter_append, List.map_append, succeeded_all]
      rw [progress.done, all, List.append_nil]
    · rw [state]
      exact progress.left.stops
  | @failed done rest row eventResult split error calls state returned =>
    refine ⟨row :: rest, kept, ?_, ?_⟩
    · have all : after.succeeded = run.succeeded ++ done := by
        simp [FsmRun.succeeded, calls, succeeded_all, error]
      rw [progress.done, all, split, List.append_assoc]
    · rw [state]
      have path := progress.left
      rw [split] at path
      exact path.rest

theorem handledIn_progress (ordered : Ordered FsmTable.curState FsmTable.nextState table)
    (progress : Progress table path final run left) (worlds : List World) :
    ∃ left', Progress table path final (run.handledIn act worlds) left' := by
  induction worlds generalizing run left with
  | nil => exact ⟨left, progress⟩
  | cons world worlds ih =>
    have kept : (run.handleIn act world).1.task.taskSmTable = table := (handle_table act).trans progress.kept
    rcases progress.next kept (progress.handles ordered world) with ⟨left', later⟩
    exact ih later

end Progress

end Calls

/-- However often `FSMHandle` is called on a task, and whatever its actions return, it goes along the path of
    the task: no action that has succeeded is called again, and the next call goes on from there. -/
theorem task_follows_path (act : WorldActFun Action World) (tn : TaskNode Action)
    (ordered : Ordered FsmTable.curState FsmTable.nextState tn.taskSmTable) :
    ∃ path final, IsPath tn.taskSmTable tn.curState path final ∧ path.Sublist tn.taskSmTable ∧
      (path.map FsmTable.curState).Nodup ∧ ∀ (world : World) (worlds : List World),
        FollowsPath act tn.taskSmTable path final (FsmRun.handledIn act ⟨tn, world, []⟩ worlds) := by
  rcases Transitions.pass_path _ _ ordered tn.curState with ⟨final, path⟩
  have listed := Transitions.pass_sublist FsmTable.curState FsmTable.nextState tn.taskSmTable tn.curState
  refine ⟨_, final, path, listed, ordered.sources.sublist (listed.map _), ?_⟩
  intro world worlds
  have start : Progress tn.taskSmTable _ final (⟨tn, world, []⟩ : FsmRun Action World) _ := ⟨rfl, rfl, path⟩
  rcases handledIn_progress ordered start worlds with ⟨left, progress⟩
  exact ⟨left, progress.done, progress.left, progress.handles ordered⟩

inductive BlePairingAction
  | registerPairingNotfication
  | writePairingStep1
  | waitingPairingStep2
  | writePairingStep3
  | waitingPairingStep4
  | writePairingCommit
deriving DecidableEq, Repr

def pairingFsmTable : List (FsmTable BlePairingAction) :=
  [⟨0, .registerPairingNotfication, 1⟩, ⟨1, .writePairingStep1, 2⟩, ⟨2, .waitingPairingStep2, 3⟩, ⟨3, .writePairingStep3, 5⟩,
    ⟨5, .waitingPairingStep4, 6⟩, ⟨6, .writePairingCommit, 8⟩]

def samplePairingTask : TaskNode BlePairingAction := ⟨1, 2, [], [], [], 0, pairingFsmTable⟩

def returnNext : WorldActFun BlePairingAction (List Int) := fun _ tn world => (world.tail, tn.bleData, world.headD 0)

theorem task_follows_path_pairing : ∃ path final,
    IsPath pairingFsmTable 0 path final ∧ path.Sublist pairingFsmTable ∧ (path.map FsmTable.curState).Nodup ∧
      ∀ (world : List Int) (worlds : List (List Int)),
        FollowsPath returnNext pairingFsmTable path final (FsmRun.handledIn returnNext ⟨samplePairingTask, world, []⟩ worlds) :=
  task_follows_path returnNext samplePairingTask ⟨by decide, by decide, by decide⟩

end Bridge
