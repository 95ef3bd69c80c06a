import Bridge.Library.Ring
import Bridge.Library.Runs

namespace Bridge

open Ring (Links)

/-- `fsm_table_t`; the action is the function that its pointer stands for. -/
structure FsmTable (Action : Type) where
  curState : UInt8
  eventActFun : Action
  nextState : UInt8

/-- `task_node_t` without its links: what the queue sets, and what `FSMHandle` reads. An empty list is a
    null pointer. -/
structure TaskNode (Action : Type) where
  msgId : UInt32
  taskType : Int
  lockCmd : List UInt8
  bleData : List UInt8
  mqttData : List UInt8
  curState : UInt8
  taskSmTable : List (FsmTable Action)

/-- The addresses of the two list heads. -/
structure QueueHeads where
  waitingTaskHead : Nat
  doingTaskHead : Nat
  apart : doingTaskHead ≠ waitingTaskHead

/-- The links of all memory, and the tasks that are allocated. A task has the address of its links. -/
structure TaskQueues (Action : Type) where
  links : Links Nat
  tasks : Nat → Option (TaskNode Action)

def listPoison1 : Nat := 0x00100100

def listPoison2 : Nat := 0x00200200

def listAdd (links : Links Nat) (new head : Nat) : Links Nat := Ring.link links new head (links.next head)

def listAddTail (links : Links Nat) (new head : Nat) : Links Nat := Ring.link links new (links.prev head) head

def listDelEntry (links : Links Nat) (entry : Nat) : Links Nat :=
  Ring.unlink links (links.prev entry) (links.next entry)

def listDel (links : Links Nat) (entry : Nat) : Links Nat :=
  ((listDelEntry links entry).setNext entry listPoison1).setPrev entry listPoison2

def listMove (links : Links Nat) (list head : Nat) : Links Nat := listAdd (listDelEntry links list) list head

def listEmpty (links : Links Nat) (head : Nat) : Bool := links.next head == head

def listIsLast (links : Links Nat) (list head : Nat) : Bool := links.next list == head

variable {Action : Type} (heads : QueueHeads)

/-- A field is set where its argument has a length; otherwise it is what `malloc` has left. -/
def orLeftover {α : Type} : List α → List α → List α
  | [], leftover => leftover
  | value, _ => value

def fillTask (leftover task : TaskNode Action) : TaskNode Action :=
  { task with
    lockCmd := orLeftover task.lockCmd leftover.lockCmd
    bleData := orLeftover task.bleData leftover.bleData
    mqttData := orLeftover task.mqttData leftover.mqttData
    taskSmTable := orLeftover task.taskSmTable leftover.taskSmTable }

/-- `new` is the block from `malloc`, with `leftover` in it. -/
def insertDTaskFront (queues : TaskQueues Action) (new : Nat) (leftover task : TaskNode Action) : TaskQueues Action where
  links := listAdd queues.links new heads.doingTaskHead
  tasks := Function.update queues.tasks new (some (fillTask leftover task))

/-- The one without an argument for `lock_cmd`. -/
def insertDTaskTail (queues : TaskQueues Action) (new : Nat) (leftover task : TaskNode Action) : TaskQueues Action where
  links := listAddTail queues.links new heads.doingTaskHead
  tasks := Function.update queues.tasks new (some (fillTask leftover { task with lockCmd := [] }))

def deleteDTask (queues : TaskQueues Action) (tn : Nat) : TaskQueues Action where
  links := listDel queues.links tn
  tasks := Function.update queues.tasks tn none

def deleteWTask (queues : TaskQueues Action) (tn : Nat) : TaskQueues Action where
  links := listDel queues.links tn
  tasks := Function.update queues.tasks tn none

def dTask2Waiting (queues : TaskQueues Action) (tn : Nat) : TaskQueues Action :=
  { queues with links := listMove queues.links tn heads.waitingTaskHead }

def wTask2Doing (queues : TaskQueues Action) (tn : Nat) : TaskQueues Action :=
  { queues with links := listMove queues.links tn heads.doingTaskHead }

def isDEmpty (queues : TaskQueues Action) : Bool := listEmpty queues.links heads.doingTaskHead

def getDHeadNode (queues : TaskQueues Action) : Option Nat :=
  if isDEmpty heads queues then none else some (queues.links.next heads.doingTaskHead)

def nextDTask (queues : TaskQueues Action) : Option Nat → Option Nat
  | none => none
  | some cur => if listIsLast queues.links cur heads.doingTaskHead then none else some (queues.links.next cur)

inductive QueueOp (Action : Type)
  | insertDTaskFront (new : Nat) (leftover task : TaskNode Action)
  | insertDTaskTail (new : Nat) (leftover task : TaskNode Action)
  | deleteDTask (tn : Nat)
  | dTask2Waiting (tn : Nat)
  | wTask2Doing (tn : Nat)
  | deleteWTask (tn : Nat)

def TaskQueues.apply (queues : TaskQueues Action) : QueueOp Action → TaskQueues Action
  | .insertDTaskFront new leftover task => Bridge.insertDTaskFront heads queues new leftover task
  | .insertDTaskTail new leftover task => Bridge.insertDTaskTail heads queues new leftover task
  | .deleteDTask tn => Bridge.deleteDTask queues tn
  | .dTask2Waiting tn => Bridge.dTask2Waiting heads queues tn
  | .wTask2Doing tn => Bridge.wTask2Doing heads queues tn
  | .deleteWTask tn => Bridge.deleteWTask queues tn

/-- The specification: which tasks are on which list, in which order. -/
structure TaskLists where
  doing : List Nat
  waiting : List Nat
deriving DecidableEq, Repr

def TaskLists.live (lists : TaskLists) : List Nat := lists.doing ++ lists.waiting

def TaskLists.Free (lists : TaskLists) (new : Nat) : Prop :=
  new ≠ heads.doingTaskHead ∧ new ≠ heads.waitingTaskHead ∧ new ∉ lists.live

instance (lists : TaskLists) (new : Nat) : Decidable (lists.Free heads new) :=
  inferInstanceAs (Decidable (_ ∧ _ ∧ _))

/-- `none` where `malloc` does not do this, or where the task is not on the list concerned. -/
def TaskLists.next (lists : TaskLists) : QueueOp Action → Option TaskLists
  | .insertDTaskFront new _ _ => if lists.Free heads new then some { lists with doing := new :: lists.doing } else none
  | .insertDTaskTail new _ _ => if lists.Free heads new then some { lists with doing := lists.doing ++ [new] } else none
  | .deleteDTask tn => if tn ∈ lists.doing then some { lists with doing := lists.doing.erase tn } else none
  | .dTask2Waiting tn =>
    if tn ∈ lists.doing then some ⟨lists.doing.erase tn, tn :: lists.waiting⟩ else none
  | .wTask2Doing tn =>
    if tn ∈ lists.waiting then some ⟨tn :: lists.doing, lists.waiting.erase tn⟩ else none
  | .deleteWTask tn => if tn ∈ lists.waiting then some { lists with waiting := lists.waiting.erase tn } else none

/-- The static initialisers, before any task. -/
structure TaskQueues.Started (queues : TaskQueues Action) : Prop where
  doing : queues.links.next heads.doingTaskHead = heads.doingTaskHead ∧
    queues.links.prev heads.doingTaskHead = heads.doingTaskHead
  waiting : queues.links.next heads.waitingTaskHead = heads.waitingTaskHead ∧
    queues.links.prev heads.waitingTaskHead = heads.waitingTaskHead
  tasks : ∀ tn, queues.tasks tn = none

/-- The queues in memory are the lists. -/
structure Intact (queues : TaskQueues Action) (lists : TaskLists) : Prop where
  rings : Ring.Beside queues.links heads.doingTaskHead lists.doing heads.waitingTaskHead lists.waiting
  live : ∀ tn, queues.tasks tn ≠ none ↔ tn ∈ lists.live

section Steps

variable {heads} {queues : TaskQueues Action} {lists lists' : TaskLists}

theorem started_intact (started : queues.Started heads) : Intact heads queues ⟨[], []⟩ := by
  refine ⟨⟨⟨?_, List.nodup_singleton _⟩, ⟨?_, List.nodup_singleton _⟩, ?_⟩, ?_⟩
  · exact List.isChain_cons_cons.mpr ⟨started.doing, .singleton _⟩
  · exact List.isChain_cons_cons.mpr ⟨started.waiting, .singleton _⟩
  · intro x left right
    exact heads.apart ((List.mem_singleton.mp left).symm.trans (List.mem_singleton.mp right))
  · intro tn
    exact iff_of_false (not_not.mpr (started.tasks tn)) List.not_mem_nil

theorem TaskLists.Free.outside {new : Nat} (free : lists.Free heads new) :
    new ∉ heads.doingTaskHead :: lists.doing ∧ new ∉ heads.waitingTaskHead :: lists.waiting := by
  obtain ⟨notDoing, notWaiting, dead⟩ := free
  simp only [TaskLists.live, List.mem_append, not_or] at dead
  simp only [List.mem_cons, not_or]
  exact ⟨⟨notDoing, dead.1⟩, notWaiting, dead.2⟩

theorem live_update {tasks : Nat → Option (TaskNode Action)} {live : List Nat}
    (same : ∀ tn, tasks tn ≠ none ↔ tn ∈ live) (new : Nat) (task : TaskNode Action) (tn : Nat) :
    Function.update tasks new (some task) tn ≠ none ↔ tn = new ∨ tn ∈ live := by
  by_cases here : tn = new
  · simp [here]
  · simp [here, same]

theorem live_erase {tasks : Nat → Option (TaskNode Action)} {live : List Nat}
    (same : ∀ tn, tasks tn ≠ none ↔ tn ∈ live) (freed tn : Nat) :
    Function.update tasks freed none tn ≠ none ↔ tn ≠ freed ∧ tn ∈ live := by
  by_cases here : tn = freed
  · simp [here]
  · simp [here, same]

theorem Intact.doing_nodup (intact : Intact heads queues lists) : lists.doing.Nodup :=
  (List.nodup_cons.mp intact.rings.left.distinct).2

theorem Intact.waiting_nodup (intact : Intact heads queues lists) : lists.waiting.Nodup :=
  (List.nodup_cons.mp intact.rings.right.distinct).2

theorem Intact.not_both (intact : Intact heads queues lists) {tn : Nat} (doing : tn ∈ lists.doing) : tn ∉ lists.waiting :=
  fun waiting => intact.rings.apart (List.mem_cons_of_mem _ doing) (List.mem_cons_of_mem _ waiting)

theorem insertFront_intact (intact : Intact heads queues lists) {new : Nat} (free : lists.Free heads new)
    (leftover task : TaskNode Action) :
    Intact heads (insertDTaskFront heads queues new leftover task) { lists with doing := new :: lists.doing } := by
  obtain ⟨left, right⟩ := free.outside
  refine ⟨intact.rings.addFront left right, ?_⟩
  intro tn
  refine (live_update intact.live new _ tn).trans ?_
  simp only [TaskLists.live, List.cons_append, List.mem_cons]

theorem insertTail_intact (intact : Intact heads queues lists) {new : Nat} (free : lists.Free heads new)
    (leftover task : TaskNode Action) :
    Intact heads (insertDTaskTail heads queues new leftover task) { lists with doing := lists.doing ++ [new] } := by
  obtain ⟨left, right⟩ := free.outside
  refine ⟨intact.rings.addTail left right, ?_⟩
  intro tn
  refine (live_update intact.live new _ tn).trans ?_
  simp only [TaskLists.live, List.mem_append, List.mem_singleton]
  tauto

theorem deleteDTask_intact (intact : Intact heads queues lists) {tn : Nat} (doing : tn ∈ lists.doing) :
    Intact heads (deleteDTask queues tn) { lists with doing := lists.doing.erase tn } := by
  have away := intact.rings.outside (List.mem_cons_of_mem _ doing)
  refine ⟨(intact.rings.remove doing).poison (intact.rings.left.erase_fresh doing) away _ _, ?_⟩
  intro other
  refine (live_erase intact.live tn other).trans ?_
  simp only [TaskLists.live, List.mem_append, intact.doing_nodup.mem_erase_iff]
  have apart := intact.not_both doing
  constructor
  · tauto
  · rintro (⟨ne, inside⟩ | inside)
    · exact ⟨ne, .inl inside⟩
    · exact ⟨fun same => apart (same ▸ inside), .inr inside⟩

theorem deleteWTask_intact (intact : Intact heads queues lists) {tn : Nat} (waiting : tn ∈ lists.waiting) :
    Intact heads (deleteWTask queues tn) { lists with waiting := lists.waiting.erase tn } := by
  have away := intact.rings.symm.outside (List.mem_cons_of_mem _ waiting)
  refine ⟨((intact.rings.symm.remove waiting).poison (intact.rings.right.erase_fresh waiting) away _ _).symm, ?_⟩
  intro other
  refine (live_erase intact.live tn other).trans ?_
  simp only [TaskLists.live, List.mem_append, intact.waiting_nodup.mem_erase_iff]
  constructor
  · tauto
  · rintro (inside | ⟨ne, inside⟩)
    · exact ⟨fun same => intact.not_both (same ▸ inside) waiting, .inl inside⟩
    · exact ⟨ne, .inr inside⟩

theorem dTask2Waiting_intact (intact : Intact heads queues lists) {tn : Nat} (doing : tn ∈ lists.doing) :
    Intact heads (dTask2Waiting heads queues tn) ⟨lists.doing.erase tn, tn :: lists.waiting⟩ := by
  refine ⟨intact.rings.move doing, ?_⟩
  intro other
  refine (intact.live other).trans ?_
  simp only [TaskLists.live, List.mem_append, List.mem_cons, intact.doing_nodup.mem_erase_iff]
  by_cases same : other = tn
  · simp [same, doing]
  · simp [same]

theorem wTask2Doing_intact (intact : Intact heads queues lists) {tn : Nat} (waiting : tn ∈ lists.waiting) :
    Intact heads (wTask2Doing heads queues tn) ⟨tn :: lists.doing, lists.waiting.erase tn⟩ := by
  refine ⟨(intact.rings.symm.move waiting).symm, ?_⟩
  intro other
  refine (intact.live other).trans ?_
  simp only [TaskLists.live, List.mem_append, List.mem_cons, intact.waiting_nodup.mem_erase_iff]
  by_cases same : other = tn
  · simp [same, waiting]
  · simp [same]

theorem apply_intact (intact : Intact heads queues lists) {op : QueueOp Action} (next : lists.next heads op = some lists') :
    Intact heads (queues.apply heads op) lists' := by
  cases op with
  | insertDTaskFront new leftover task =>
    obtain ⟨free, ⟨⟩⟩ := Option.ite_none_right_eq_some.mp next
    exact insertFront_intact intact free leftover task
  | insertDTaskTail new leftover task =>
    obtain ⟨free, ⟨⟩⟩ := Option.ite_none_right_eq_some.mp next
    exact insertTail_intact intact free leftover task
  | deleteDTask tn =>
    obtain ⟨doing, ⟨⟩⟩ := Option.ite_none_right_eq_some.mp next
    exact deleteDTask_intact intact doing
  | dTask2Waiting tn =>
    obtain ⟨doing, ⟨⟩⟩ := Option.ite_none_right_eq_some.mp next
    exact dTask2Waiting_intact intact doing
  | wTask2Doing tn =>
    obtain ⟨waiting, ⟨⟩⟩ := Option.ite_none_right_eq_some.mp next
    exact wTask2Doing_intact intact waiting
  | deleteWTask tn =>
    obtain ⟨waiting, ⟨⟩⟩ := Option.ite_none_right_eq_some.mp next
    exact deleteWTask_intact intact waiting

theorem run_intact {ops : List (QueueOp Action)} (intact : Intact heads queues lists)
    (ran : Runs.run (TaskLists.next heads) lists ops = some lists') :
    Intact heads (ops.foldl (TaskQueues.apply heads) queues) lists' := by
  induction ops generalizing queues lists with
  | nil =>
    cases ran
    exact intact
  | cons op rest ih =>
    obtain ⟨middle, next, ran⟩ := Runs.run_cons _ ran
    exact ih (apply_intact intact next) ran

end Steps

end Bridge
