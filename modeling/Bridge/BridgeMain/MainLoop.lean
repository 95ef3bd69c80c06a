import Bridge.BridgeMain.TaskQueue

namespace Bridge

variable {Action : Type} (heads : QueueHeads)

/-- What an action leaves in the `ble_data` of its task, and what it returns. -/
abbrev EventActFun (Action : Type) := Action → TaskNode Action → List UInt8 × Int

def fsmHandleRows (act : EventActFun Action) (tn : TaskNode Action) : List (FsmTable Action) → TaskNode Action × Int
  | [] => (tn, 0)
  | row :: rest =>
    if tn.curState = row.curState then
      let (bleData, eventResult) := act row.eventActFun tn
      if eventResult ≠ 0 then ({ tn with bleData }, -1)
      else fsmHandleRows act { tn with bleData, curState := row.nextState } rest
    else fsmHandleRows act tn rest

def fsmHandle (act : EventActFun Action) (tn : TaskNode Action) : TaskNode Action × Int :=
  if tn.taskSmTable.isEmpty then (tn, -1) else fsmHandleRows act tn tn.taskSmTable

inductive MainPoint
  | isDEmpty
  | getDHeadNode
  | fsmHandle (ptn : Nat)
  | saveTaskData (ptn : Nat)
  | deleteDTask (ptn : Nat)
  | nextDTask (ptn : Option Nat)
deriving DecidableEq, Repr

def MainPoint.while : Option Nat → MainPoint
  | none => .isDEmpty
  | some ptn => .fsmHandle ptn

/-- The loop at one of its calls, with the tasks that `FSMHandle` was called on and those inserted
    meanwhile. -/
structure MainLoop (Action : Type) where
  queues : TaskQueues Action
  point : MainPoint
  handled : List Nat
  inserted : List Nat

/-- The loop goes on, or another thread inserts a task. -/
inductive LoopStep (Action : Type)
  | main
  | insertDTaskFront (new : Nat) (leftover task : TaskNode Action)
  | insertDTaskTail (new : Nat) (leftover task : TaskNode Action)

variable (act : EventActFun Action)

/-- `none` is an access to a task that is not allocated. -/
def MainLoop.main (loop : MainLoop Action) : Option (MainLoop Action) :=
  match loop.point with
  | .isDEmpty => some { loop with point := if isDEmpty heads loop.queues then .isDEmpty else .getDHeadNode }
  | .getDHeadNode => some { loop with point := .while (getDHeadNode heads loop.queues) }
  | .fsmHandle ptn => (loop.queues.tasks ptn).map fun tn =>
      { loop with
        queues := { loop.queues with tasks := Function.update loop.queues.tasks ptn (some (fsmHandle act tn).1) }
        point := .saveTaskData ptn
        handled := loop.handled ++ [ptn] }
  | .saveTaskData ptn => (loop.queues.tasks ptn).map fun _ => { loop with point := .deleteDTask ptn }
  | .deleteDTask ptn => (loop.queues.tasks ptn).map fun _ =>
      -- the call leaves a null pointer for NextDTask
      { loop with queues := deleteDTask loop.queues ptn, point := .nextDTask none }
  | .nextDTask ptn => some { loop with point := .while (nextDTask heads loop.queues ptn) }

def MainLoop.next (loop : MainLoop Action) : LoopStep Action → Option (MainLoop Action)
  | .main => loop.main heads act
  | .insertDTaskFront new leftover task =>
    if new ≠ heads.doingTaskHead ∧ new ≠ heads.waitingTaskHead ∧ (loop.queues.tasks new).isNone = true then
      some { loop with
        queues := insertDTaskFront heads loop.queues new leftover task, inserted := loop.inserted ++ [new] }
    else none
  | .insertDTaskTail new leftover task =>
    if new ≠ heads.doingTaskHead ∧ new ≠ heads.waitingTaskHead ∧ (loop.queues.tasks new).isNone = true then
      some { loop with
        queues := insertDTaskTail heads loop.queues new leftover task, inserted := loop.inserted ++ [new] }
    else none

def MainLoop.start (queues : TaskQueues Action) : MainLoop Action := ⟨queues, .isDEmpty, [], []⟩

/-- Both rings read from their heads, with every allocated task on one of them once. -/
structure Integrity (queues : TaskQueues Action) (lists : TaskLists) : Prop where
  doingForward : List.iterate queues.links.next heads.doingTaskHead (lists.doing.length + 2) =
    heads.doingTaskHead :: (lists.doing ++ [heads.doingTaskHead])
  doingBackward : List.iterate queues.links.prev heads.doingTaskHead (lists.doing.length + 2) =
    heads.doingTaskHead :: (lists.doing.reverse ++ [heads.doingTaskHead])
  waitingForward : List.iterate queues.links.next heads.waitingTaskHead (lists.waiting.length + 2) =
    heads.waitingTaskHead :: (lists.waiting ++ [heads.waitingTaskHead])
  waitingBackward : List.iterate queues.links.prev heads.waitingTaskHead (lists.waiting.length + 2) =
    heads.waitingTaskHead :: (lists.waiting.reverse ++ [heads.waitingTaskHead])
  once : (heads.doingTaskHead :: lists.doing ++ heads.waitingTaskHead :: lists.waiting).Nodup
  allocated : ∀ tn, queues.tasks tn ≠ none ↔ tn ∈ lists.live
  unreachable : ∀ tn, queues.tasks tn = none → tn ≠ heads.doingTaskHead → tn ≠ heads.waitingTaskHead → ∀ steps,
    queues.links.next^[steps] heads.doingTaskHead ≠ tn ∧ queues.links.next^[steps] heads.waitingTaskHead ≠ tn

/-- Left alone, the loop handles the tasks in the order of the list, and all are gone. -/
def DrainsInOrder (queues : TaskQueues Action) (lists : TaskLists) : Prop := ∃ loop,
  Runs.run (MainLoop.next heads act) (.start queues) (List.replicate (6 * lists.doing.length) .main) = some loop ∧
    loop.point = .isDEmpty ∧ loop.handled = lists.doing ∧ Integrity heads loop.queues ⟨[], lists.waiting⟩

/-- However the inserts of other threads fall between its calls, the loop never touches a task that is
    freed, and has handled each of the tasks that are no longer on the list once. -/
def HandlesOnce (queues : TaskQueues Action) (lists : TaskLists) : Prop := ∀ steps loop,
  Runs.run (MainLoop.next heads act) (.start queues) steps = some loop →
    (loop.main heads act).isSome = true ∧
      (loop.point = .isDEmpty → ∃ doing, Integrity heads loop.queues ⟨doing, lists.waiting⟩ ∧
        (lists.doing ++ loop.inserted).Perm (loop.handled ++ doing))

section Loop

variable {heads} {queues : TaskQueues Action} {lists : TaskLists}

theorem Intact.integrity (intact : Intact heads queues lists) : Integrity heads queues lists where
  doingForward := intact.rings.left.forward
  doingBackward := intact.rings.left.backward
  waitingForward := intact.rings.right.forward
  waitingBackward := intact.rings.right.backward
  once := by
    apply List.nodup_append.mpr
    refine ⟨intact.rings.left.distinct, intact.rings.right.distinct, ?_⟩
    rintro x left y right rfl
    exact intact.rings.apart left right
  allocated := intact.live
  unreachable := by
    intro tn freed notDoing notWaiting steps
    have dead : tn ∉ lists.live := fun inside => (intact.live tn).mpr inside freed
    simp only [TaskLists.live, List.mem_append, not_or] at dead
    constructor
    · rintro rfl
      exact (List.mem_cons.mp (intact.rings.left.reaches steps)).elim notDoing dead.1
    · rintro rfl
      exact (List.mem_cons.mp (intact.rings.right.reaches steps)).elim notWaiting dead.2

theorem Intact.isDEmpty_iff (intact : Intact heads queues lists) : isDEmpty heads queues = true ↔ lists.doing = [] := by
  unfold isDEmpty listEmpty
  rw [beq_iff_eq]
  exact intact.rings.left.empty_iff

theorem Intact.getDHeadNode_eq (intact : Intact heads queues lists) : getDHeadNode heads queues = lists.doing.head? := by
  unfold getDHeadNode
  have empty := intact.isDEmpty_iff
  cases doing : lists.doing with
  | nil => rw [if_pos (empty.mpr doing), List.head?_nil]
  | cons tn rest =>
    have busy : ¬isDEmpty heads queues = true := by
      rw [empty, doing]
      exact List.cons_ne_nil tn rest
    rw [if_neg busy, List.head?_cons, intact.rings.left.next_head]
    simp only [doing, List.cons_append, List.head_cons]

theorem Intact.retask (intact : Intact heads queues lists) {tn : Nat} (inside : tn ∈ lists.live) (task : TaskNode Action) :
    Intact heads { queues with tasks := Function.update queues.tasks tn (some task) } lists := by
  refine ⟨intact.rings, ?_⟩
  intro other
  refine (live_update intact.live tn task other).trans ?_
  exact ⟨fun either => either.elim (fun same => same ▸ inside) id, .inr⟩

theorem Intact.free (intact : Intact heads queues lists) {new : Nat}
    (fresh : new ≠ heads.doingTaskHead ∧ new ≠ heads.waitingTaskHead ∧ (queues.tasks new).isNone = true) :
    lists.Free heads new := by
  refine ⟨fresh.1, fresh.2.1, ?_⟩
  intro inside
  exact (intact.live new).mpr inside (Option.isNone_iff_eq_none.mp fresh.2.2)

theorem Intact.task (intact : Intact heads queues lists) {tn : Nat} (inside : tn ∈ lists.doing) :
    ∃ task, queues.tasks tn = some task :=
  Option.ne_none_iff_exists'.mp ((intact.live tn).mpr (List.mem_append_left _ inside))

/-- What the loop has handled, by the call that it is at: all that is no longer on the list, and from
    `FSMHandle` to `DeleteDTask` the current task as well. -/
def Handled (point : MainPoint) (doing removed handled : List Nat) : Prop :=
  match point with
  | .isDEmpty | .getDHeadNode | .nextDTask none => handled = removed
  | .fsmHandle ptn => ptn ∈ doing ∧ handled = removed
  | .saveTaskData ptn | .deleteDTask ptn => ptn ∈ doing ∧ handled = removed ++ [ptn]
  | .nextDTask (some _) => False

structure Accounts (heads : QueueHeads) (lists : TaskLists) (loop : MainLoop Action) (doing removed : List Nat) : Prop where
  intact : Intact heads loop.queues ⟨doing, lists.waiting⟩
  handled : Handled loop.point doing removed loop.handled
  all : (lists.doing ++ loop.inserted).Perm (removed ++ doing)

theorem Handled.mono {point : MainPoint} {doing doing' removed handled : List Nat}
    (was : Handled point doing removed handled) (more : ∀ tn ∈ doing, tn ∈ doing') : Handled point doing' removed handled := by
  cases point with
  | isDEmpty | getDHeadNode => exact was
  | fsmHandle ptn | saveTaskData ptn | deleteDTask ptn => exact ⟨more _ was.1, was.2⟩
  | nextDTask ptn =>
    cases ptn with
    | none => exact was
    | some ptn => exact was

theorem main_accounts {loop : MainLoop Action} {doing removed : List Nat} (accounts : Accounts heads lists loop doing removed) :
    ∃ loop' doing' removed', loop.main heads act = some loop' ∧ Accounts heads lists loop' doing' removed' := by
  obtain ⟨queues, point, handled, inserted⟩ := loop
  obtain ⟨intact, was, all⟩ := accounts
  cases point with
  | isDEmpty =>
    refine ⟨_, doing, removed, rfl, intact, ?_, all⟩
    show Handled (if isDEmpty heads queues then .isDEmpty else .getDHeadNode) doing removed handled
    split <;> exact was
  | getDHeadNode =>
    refine ⟨_, doing, removed, rfl, intact, ?_, all⟩
    show Handled (.while (getDHeadNode heads queues)) doing removed handled
    rw [intact.getDHeadNode_eq]
    cases doing with
    | nil => exact was
    | cons tn rest => exact ⟨List.mem_cons_self, was⟩
  | fsmHandle ptn =>
    obtain ⟨inside, rfl⟩ := was
    obtain ⟨task, held⟩ := intact.task inside
    change queues.tasks ptn = some task at held
    refine ⟨⟨{ queues with tasks := Function.update queues.tasks ptn (some (fsmHandle act task).1) }, .saveTaskData ptn,
      handled ++ [ptn], inserted⟩, doing, handled, by simp only [MainLoop.main, held, Option.map_some], ?_, ⟨inside, rfl⟩, all⟩
    exact intact.retask (List.mem_append_left _ inside) _
  | saveTaskData ptn =>
    obtain ⟨task, held⟩ := intact.task was.1
    change queues.tasks ptn = some task at held
    exact ⟨⟨queues, .deleteDTask ptn, handled, inserted⟩, doing, removed, by simp only [MainLoop.main, held, Option.map_some],
      intact, was, all⟩
  | deleteDTask ptn =>
    obtain ⟨inside, rfl⟩ := was
    obtain ⟨task, held⟩ := intact.task inside
    change queues.tasks ptn = some task at held
    refine ⟨⟨deleteDTask queues ptn, .nextDTask none, removed ++ [ptn], inserted⟩, doing.erase ptn, removed ++ [ptn],
      by simp only [MainLoop.main, held, Option.map_some], ?_, rfl, ?_⟩
    · exact deleteDTask_intact intact inside
    · apply all.trans
      rw [List.append_assoc, List.singleton_append]
      exact (List.perm_cons_erase inside).append_left removed
  | nextDTask ptn =>
    cases ptn with
    | none => exact ⟨_, doing, removed, rfl, intact, was, all⟩
    | some ptn => exact was.elim

theorem next_accounts {loop loop' : MainLoop Action} {doing removed : List Nat}
    (accounts : Accounts heads lists loop doing removed) {step : LoopStep Action}
    (next : loop.next heads act step = some loop') : ∃ doing' removed', Accounts heads lists loop' doing' removed' := by
  cases step with
  | main =>
    obtain ⟨_, doing', removed', done, kept⟩ := main_accounts act accounts
    cases done.symm.trans next
    exact ⟨doing', removed', kept⟩
  | insertDTaskFront new leftover task =>
    obtain ⟨fresh, ⟨⟩⟩ := Option.ite_none_right_eq_some.mp next
    refine ⟨new :: doing, removed, insertFront_intact accounts.intact (accounts.intact.free fresh) leftover task,
      accounts.handled.mono fun _ => List.mem_cons_of_mem _, ?_⟩
    show (lists.doing ++ (loop.inserted ++ [new])).Perm (removed ++ new :: doing)
    rw [← List.append_assoc]
    apply (accounts.all.append_right [new]).trans
    rw [List.append_assoc]
    exact (List.perm_append_singleton new doing).append_left removed
  | insertDTaskTail new leftover task =>
    obtain ⟨fresh, ⟨⟩⟩ := Option.ite_none_right_eq_some.mp next
    refine ⟨doing ++ [new], removed, insertTail_intact accounts.intact (accounts.intact.free fresh) leftover task,
      accounts.handled.mono fun _ => List.mem_append_left _, ?_⟩
    show (lists.doing ++ (loop.inserted ++ [new])).Perm (removed ++ (doing ++ [new]))
    rw [← List.append_assoc, ← List.append_assoc]
    exact accounts.all.append_right [new]

theorem handles_once (intact : Intact heads queues lists) : HandlesOnce heads act queues lists := by
  intro steps loop ran
  have kept : ∃ doing removed, Accounts heads lists loop doing removed := by
    refine @Runs.run_preserves _ _ (MainLoop.next heads act) (fun loop => ∃ doing removed, Accounts heads lists loop doing removed)
      ?_ _ _ _ ?_ ran
    · rintro s step s' ⟨doing, removed, accounts⟩ next
      exact next_accounts act accounts next
    · exact ⟨lists.doing, [], intact, rfl, by simp [MainLoop.start]⟩
  obtain ⟨doing, removed, accounts⟩ := kept
  constructor
  · obtain ⟨_, _, _, done, _⟩ := main_accounts act accounts
    rw [done]
    rfl
  · intro top
    have handled := accounts.handled
    rw [top] at handled
    exact ⟨doing, accounts.intact.integrity, handled ▸ accounts.all⟩

theorem drain_round {tn : Nat} {rest handled inserted : List Nat} (intact : Intact heads queues ⟨tn :: rest, lists.waiting⟩) :
    ∃ queues', Runs.run (MainLoop.next heads act) ⟨queues, .isDEmpty, handled, inserted⟩ (List.replicate 6 .main) =
        some ⟨queues', .isDEmpty, handled ++ [tn], inserted⟩ ∧ Intact heads queues' ⟨rest, lists.waiting⟩ := by
  have inside : tn ∈ tn :: rest := List.mem_cons_self
  obtain ⟨task, held⟩ := intact.task inside
  have busy : isDEmpty heads queues = false := by
    rw [Bool.eq_false_iff, ne_eq, intact.isDEmpty_iff]
    exact List.cons_ne_nil tn rest
  have first : getDHeadNode heads queues = some tn := intact.getDHeadNode_eq
  have retasked := intact.retask (List.mem_append_left _ inside) (fsmHandle act task).1
  have deleted := deleteDTask_intact retasked inside
  change Intact heads _ ⟨(tn :: rest).erase tn, lists.waiting⟩ at deleted
  rw [List.erase_cons_head] at deleted
  refine ⟨_, ?_, deleted⟩
  simp [Runs.run, List.replicate, MainLoop.next, MainLoop.main, busy, first, MainPoint.while, held, nextDTask]

theorem drains {doing : List Nat} (intact : Intact heads queues ⟨doing, lists.waiting⟩) (handled inserted : List Nat) :
    ∃ queues', Runs.run (MainLoop.next heads act) ⟨queues, .isDEmpty, handled, inserted⟩
        (List.replicate (6 * doing.length) .main) = some ⟨queues', .isDEmpty, handled ++ doing, inserted⟩ ∧
      Intact heads queues' ⟨[], lists.waiting⟩ := by
  induction doing generalizing queues handled with
  | nil => exact ⟨queues, by rw [List.append_nil]; rfl, intact⟩
  | cons tn rest ih =>
    obtain ⟨queues', round, intact'⟩ := @drain_round _ _ act _ _ _ _ handled inserted intact
    obtain ⟨queues'', others, empty⟩ := ih intact' (handled ++ [tn])
    refine ⟨queues'', ?_, empty⟩
    have steps : 6 * (tn :: rest).length = 6 + 6 * rest.length := by
      rw [List.length_cons]
      omega
    rw [steps, List.replicate_add, Runs.run_append, round, Option.bind_some, others, List.append_assoc, List.singleton_append]

end Loop

/-- After any operations on tasks that are on the list concerned, both lists are rings with the tasks in
    the specified order, and `main` handles and removes each task on the doing list once. -/
theorem task_queue_integrity (queues : TaskQueues Action) (started : queues.Started heads) (ops : List (QueueOp Action))
    (lists : TaskLists) (ran : Runs.run (TaskLists.next heads) ⟨[], []⟩ ops = some lists) :
    Integrity heads (ops.foldl (TaskQueues.apply heads) queues) lists ∧
      DrainsInOrder heads act (ops.foldl (TaskQueues.apply heads) queues) lists ∧
      HandlesOnce heads act (ops.foldl (TaskQueues.apply heads) queues) lists := by
  have intact := run_intact (started_intact started) ran
  refine ⟨intact.integrity, ?_, handles_once act intact⟩
  obtain ⟨queues', done, empty⟩ := drains act intact [] []
  exact ⟨_, done, rfl, rfl, empty.integrity⟩

def sampleHeads : QueueHeads := ⟨1, 2, by decide⟩

def sampleTask : TaskNode Unit := ⟨1, 12, [], [], [], 0, [⟨0, (), 1⟩]⟩

def sampleOps : List (QueueOp Unit) :=
  [.insertDTaskFront 10 sampleTask sampleTask, .insertDTaskTail 11 sampleTask sampleTask,
    .insertDTaskFront 12 sampleTask sampleTask, .dTask2Waiting 10, .wTask2Doing 10, .deleteDTask 11]

def sampleQueues : TaskQueues Unit := ⟨⟨id, id⟩, fun _ => none⟩

theorem task_queue_integrity_sample :
    Integrity sampleHeads (sampleOps.foldl (TaskQueues.apply sampleHeads) sampleQueues) ⟨[10, 12], []⟩ ∧
      DrainsInOrder sampleHeads (fun _ tn => (tn.bleData, 0))
        (sampleOps.foldl (TaskQueues.apply sampleHeads) sampleQueues) ⟨[10, 12], []⟩ ∧
      HandlesOnce sampleHeads (fun _ tn => (tn.bleData, 0))
        (sampleOps.foldl (TaskQueues.apply sampleHeads) sampleQueues) ⟨[10, 12], []⟩ :=
  task_queue_integrity sampleHeads _ sampleQueues ⟨⟨rfl, rfl⟩, ⟨rfl, rfl⟩, fun _ => rfl⟩ sampleOps ⟨[10, 12], []⟩
    (by decide)

end Bridge
