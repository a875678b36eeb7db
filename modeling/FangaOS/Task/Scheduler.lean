import Mathlib.Logic.Function.Basic
import FangaOS.Lib.Run
import FangaOS.Task.Tcb

/-! The priority round-robin scheduler of `task/scheduler.rs`.  Queue membership
is lazy: `schedule` drops the entries of tasks no longer ready. -/

namespace FangaOS.Sched

open StepMachine FangaOS.Tcb

def maxTasks : Nat := 32

structure Scheduler where
  tasks : List (Option Task)
  readyQueues : Fin 4 → List TaskId
  currentTask : Option TaskId
  nextTaskId : Nat

def Scheduler.new : Scheduler :=
  { tasks := [], readyQueues := fun _ => [], currentTask := none, nextTaskId := 1 }

/-- `Scheduler::init`: `MAX_TASKS` empty slots and empty queues. -/
def Scheduler.init (scheduler : Scheduler) : Scheduler :=
  { scheduler with tasks := List.replicate maxTasks none, readyQueues := fun _ => [] }

/-- `get_task`: the task in the id's slot, if the slot exists and is filled. -/
def Scheduler.getTask (scheduler : Scheduler) (taskId : TaskId) : Option Task :=
  (scheduler.tasks[taskId.val]?).join

/-- `if let Some(task) = self.get_task_mut(task_id) { ... }`. -/
def Scheduler.updateTask (scheduler : Scheduler) (taskId : TaskId) (update : Task → Task) :
    Scheduler :=
  { scheduler with tasks := scheduler.tasks.modify taskId.val (Option.map update) }

/-- `ready_queues[priority as usize].push_back(task_id)`. -/
def Scheduler.enqueue (scheduler : Scheduler) (priority : TaskPriority) (taskId : TaskId) :
    Scheduler :=
  { scheduler with
    readyQueues := Function.update scheduler.readyQueues priority.index
      (scheduler.readyQueues priority.index ++ [taskId]) }

/-- `add_task`: the next id, a ready task in its slot, and the id queued at
the task's priority. -/
def Scheduler.addTask (scheduler : Scheduler) (task : Task) : Except String (TaskId × Scheduler) :=
  if scheduler.nextTaskId ≥ maxTasks then .error "Maximum number of tasks reached"
  else
    let taskId : TaskId := ⟨scheduler.nextTaskId⟩
    let task := { task with id := taskId, state := .ready }
    let scheduler := { scheduler with
      nextTaskId := scheduler.nextTaskId + 1
      tasks := scheduler.tasks.set taskId.val (some task) }
    .ok (taskId, scheduler.enqueue task.priority taskId)

/-- The `is_ready` test of `schedule`. -/
def isReady (tasks : List (Option Task)) (taskId : TaskId) : Bool :=
  ((tasks[taskId.val]?).join.map fun task : Task => decide (task.state = TaskState.ready)).getD false

/-- The `while let Some(task_id) = priority_queue.pop_front()` loop: entries of
tasks that are not ready are popped and dropped. -/
def popReady (tasks : List (Option Task)) : List TaskId → Option TaskId × List TaskId
  | [] => (none, [])
  | taskId :: rest => if isReady tasks taskId then (some taskId, rest) else popReady tasks rest

/-- The loop over `ready_queues.iter_mut().rev()`: the queues from the highest
priority down, until one yields a ready task. -/
def selectNext (tasks : List (Option Task)) (queues : Fin 4 → List TaskId) :
    List (Fin 4) → Option TaskId × (Fin 4 → List TaskId)
  | [] => (none, queues)
  | priority :: lower =>
      match popReady tasks (queues priority) with
      | (some taskId, rest) => (some taskId, Function.update queues priority rest)
      | (none, rest) => selectNext tasks (Function.update queues priority rest) lower

/-- `schedule`: a running current task is requeued, and `(prev, next, prev != next)`
is returned. -/
def Scheduler.schedule (scheduler : Scheduler) :
    (Option TaskId × Option TaskId × Bool) × Scheduler :=
  let prevTask := scheduler.currentTask
  let scheduler :=
    match scheduler.currentTask with
    | some taskId =>
        match scheduler.getTask taskId with
        | some task =>
            if task.state = TaskState.running then
              (scheduler.updateTask taskId fun task => { task with state := .ready }).enqueue
                task.priority taskId
            else scheduler
        | none => scheduler
    | none => scheduler
  let (nextTask, readyQueues) :=
    selectNext scheduler.tasks scheduler.readyQueues (List.finRange 4).reverse
  let scheduler := { scheduler with readyQueues := readyQueues }
  let scheduler :=
    match nextTask with
    | some taskId =>
        { scheduler.updateTask taskId (fun task => { task with state := .running }) with
          currentTask := some taskId }
    | none => { scheduler with currentTask := none }
  ((prevTask, nextTask, prevTask != nextTask), scheduler)

def Scheduler.terminateTask (scheduler : Scheduler) (taskId : TaskId) :
    Except String (Unit × Scheduler) :=
  match scheduler.getTask taskId with
  | some _ =>
      let scheduler := scheduler.updateTask taskId fun task => { task with state := .terminated }
      .ok ((), if scheduler.currentTask = some taskId then { scheduler with currentTask := none }
        else scheduler)
  | none => .error "Task not found"

/-- `block_task`: the id stays in whatever queue holds it. -/
def Scheduler.blockTask (scheduler : Scheduler) (taskId : TaskId) :
    Except String (Unit × Scheduler) :=
  match scheduler.getTask taskId with
  | some _ => .ok ((), scheduler.updateTask taskId fun task => { task with state := .blocked })
  | none => .error "Task not found"

/-- `unblock_task`: the task becomes ready and is queued, whatever its state. -/
def Scheduler.unblockTask (scheduler : Scheduler) (taskId : TaskId) :
    Except String (Unit × Scheduler) :=
  match scheduler.getTask taskId with
  | some task =>
      .ok ((), (scheduler.updateTask taskId fun task => { task with state := .ready }).enqueue
        task.priority taskId)
  | none => .error "Task not found"

inductive SchedulerOp
  | addTask (task : Task)
  | schedule
  | blockTask (taskId : TaskId)
  | unblockTask (taskId : TaskId)
  | terminateTask (taskId : TaskId)

def Scheduler.step (scheduler : Scheduler) : SchedulerOp → Scheduler
  | .addTask task => afterCall scheduler (scheduler.addTask task)
  | .schedule => scheduler.schedule.2
  | .blockTask taskId => afterCall scheduler (scheduler.blockTask taskId)
  | .unblockTask taskId => afterCall scheduler (scheduler.unblockTask taskId)
  | .terminateTask taskId => afterCall scheduler (scheduler.terminateTask taskId)

/-! ### Slots and queues -/

theorem Scheduler.getTask_updateTask (scheduler : Scheduler) (taskId other : TaskId)
    (update : Task → Task) :
    (scheduler.updateTask taskId update).getTask other =
      if other = taskId then (scheduler.getTask taskId).map update else scheduler.getTask other := by
  unfold Scheduler.getTask Scheduler.updateTask
  rw [List.getElem?_modify]
  by_cases same : other = taskId
  · subst same
    cases scheduler.tasks[other.val]? with
    | none => simp
    | some slot => cases slot <;> simp
  · have differentVal : taskId.val ≠ other.val := fun equal => same (by
      cases taskId
      cases other
      simp_all)
    cases scheduler.tasks[other.val]? <;> simp [same, differentVal]

@[simp] theorem Scheduler.tasks_length_updateTask (scheduler : Scheduler) (taskId : TaskId)
    (update : Task → Task) :
    (scheduler.updateTask taskId update).tasks.length = scheduler.tasks.length :=
  List.length_modify _ _ _

@[simp] theorem Scheduler.getTask_enqueue (scheduler : Scheduler) (priority : TaskPriority)
    (taskId other : TaskId) : (scheduler.enqueue priority taskId).getTask other = scheduler.getTask other :=
  rfl

theorem Scheduler.mem_enqueue {scheduler : Scheduler} {priority : TaskPriority}
    {taskId other : TaskId} {queue : Fin 4} :
    other ∈ (scheduler.enqueue priority taskId).readyQueues queue ↔
      other ∈ scheduler.readyQueues queue ∨ (queue = priority.index ∧ other = taskId) := by
  unfold Scheduler.enqueue
  by_cases same : queue = priority.index
  · subst same
    simp
  · simp [same]

/-- A ready task is queued at its priority, a queued id names a task, a
running task is the current one, and the current task is a live task. -/
structure Scheduler.WellFormed (scheduler : Scheduler) : Prop where
  slots : scheduler.tasks.length = maxTasks
  fresh : ∀ taskId, scheduler.nextTaskId ≤ taskId.val → scheduler.getTask taskId = none
  readyQueued : ∀ taskId task, scheduler.getTask taskId = some task → task.state = .ready →
    taskId ∈ scheduler.readyQueues task.priority.index
  queuedExists : ∀ queue taskId, taskId ∈ scheduler.readyQueues queue →
    (scheduler.getTask taskId).isSome
  runningCurrent : ∀ taskId task, scheduler.getTask taskId = some task → task.state = .running →
    scheduler.currentTask = some taskId
  currentLive : ∀ taskId, scheduler.currentTask = some taskId →
    ∃ task, scheduler.getTask taskId = some task ∧ task.state ≠ .terminated

theorem Scheduler.WellFormed.setState {scheduler : Scheduler} (wellFormed : scheduler.WellFormed)
    {taskId : TaskId} {task : Task} (found : scheduler.getTask taskId = some task)
    (state : TaskState) (current : Option TaskId)
    (queuedIfReady : state = .ready → taskId ∈ scheduler.readyQueues task.priority.index)
    (currentIfRunning : state = .running → current = some taskId)
    (othersRunning : ∀ other running, other ≠ taskId → scheduler.getTask other = some running →
      running.state = .running → current = some other)
    (currentLive : ∀ other, current = some other →
      (other = taskId → state ≠ .terminated) ∧ (other ≠ taskId → scheduler.currentTask = some other)) :
    { scheduler.updateTask taskId (fun task => { task with state := state }) with
      currentTask := current }.WellFormed := by
  obtain ⟨slots, fresh, readyQueued, queuedExists, -, wasLive⟩ := wellFormed
  have getAfter := scheduler.getTask_updateTask taskId
  refine ⟨by simpa using slots, ?_, ?_, ?_, ?_, ?_⟩
  · intro other beyond
    show (scheduler.updateTask _ _).getTask other = none
    rw [getAfter]
    split_ifs with same
    · rw [same] at beyond
      rw [fresh taskId beyond, Option.map_none]
    · exact fresh other beyond
  · intro other updated foundAfter ready
    change (scheduler.updateTask _ _).getTask other = some updated at foundAfter
    rw [getAfter] at foundAfter
    split_ifs at foundAfter with same
    · subst same
      rw [found, Option.map_some, Option.some.injEq] at foundAfter
      subst foundAfter
      exact queuedIfReady ready
    · exact readyQueued other updated foundAfter ready
  · intro queue other queued
    show ((scheduler.updateTask _ _).getTask other).isSome
    rw [getAfter]
    split_ifs with same
    · rw [found]
      rfl
    · exact queuedExists queue other queued
  · intro other updated foundAfter running
    change (scheduler.updateTask _ _).getTask other = some updated at foundAfter
    rw [getAfter] at foundAfter
    split_ifs at foundAfter with same
    · subst same
      rw [found, Option.map_some, Option.some.injEq] at foundAfter
      subst foundAfter
      exact currentIfRunning running
    · exact othersRunning other updated same foundAfter running
  · intro other isCurrent
    show ∃ task, (scheduler.updateTask _ _).getTask other = some task ∧ _
    obtain ⟨liveIfUpdated, wasCurrent⟩ := currentLive other isCurrent
    rw [getAfter]
    split_ifs with same
    · subst same
      exact ⟨{ task with state := state }, by rw [found, Option.map_some], liveIfUpdated rfl⟩
    · exact wasLive other (wasCurrent same)

theorem Scheduler.WellFormed.enqueue {scheduler : Scheduler} (wellFormed : scheduler.WellFormed)
    {taskId : TaskId} (exists_ : (scheduler.getTask taskId).isSome) (priority : TaskPriority) :
    (scheduler.enqueue priority taskId).WellFormed := by
  obtain ⟨slots, fresh, readyQueued, queuedExists, runningCurrent, currentLive⟩ := wellFormed
  refine ⟨slots, fresh, ?_, ?_, runningCurrent, currentLive⟩
  · intro other task found ready
    exact Scheduler.mem_enqueue.mpr (Or.inl (readyQueued other task found ready))
  · intro queue other queued
    rcases Scheduler.mem_enqueue.mp queued with old | ⟨_, rfl⟩
    · exact queuedExists queue other old
    · exact exists_

theorem Scheduler.WellFormed.requeue {scheduler : Scheduler} (wellFormed : scheduler.WellFormed) :
    let requeued : Scheduler :=
      match scheduler.currentTask with
      | some taskId =>
          match scheduler.getTask taskId with
          | some task =>
              if task.state = TaskState.running then
                (scheduler.updateTask taskId fun task => { task with state := .ready }).enqueue
                  task.priority taskId
              else scheduler
          | none => scheduler
      | none => scheduler
    requeued.WellFormed ∧
      ∀ taskId task, requeued.getTask taskId = some task → task.state ≠ .running := by
  intro requeued
  -- Any running task is the current one, so it is enough to look at that one.
  have onlyCurrent : ∀ taskId task, scheduler.getTask taskId = some task →
      task.state = .running → scheduler.currentTask = some taskId :=
    wellFormed.runningCurrent
  rcases isCurrent : scheduler.currentTask with _ | current
  · refine ⟨by simpa [requeued, isCurrent] using wellFormed, fun taskId task found running => ?_⟩
    simp only [requeued, isCurrent] at found
    simpa [isCurrent] using onlyCurrent taskId task found running
  rcases found : scheduler.getTask current with _ | task
  · refine ⟨by simpa [requeued, isCurrent, found] using wellFormed,
      fun taskId other foundOther running => ?_⟩
    simp only [requeued, isCurrent, found] at foundOther
    have := onlyCurrent taskId other foundOther running
    rw [isCurrent, Option.some.injEq] at this
    subst this
    rw [found] at foundOther
    cases foundOther
  by_cases running : task.state = .running
  · have queued := wellFormed.enqueue (by rw [found]; rfl) task.priority
    have reset := queued.setState found .ready scheduler.currentTask
      (fun _ => Scheduler.mem_enqueue.mpr (Or.inr ⟨rfl, rfl⟩)) nofun
      (fun other running _ => queued.runningCurrent other running)
      (fun _ current => ⟨fun _ => nofun, fun _ => current⟩)
    simp only [requeued, isCurrent, found, if_pos running]
    refine ⟨reset, fun taskId other foundOther otherRunning => ?_⟩
    change ((scheduler.enqueue task.priority current).updateTask current _).getTask taskId = _
      at foundOther
    rw [Scheduler.getTask_updateTask] at foundOther
    split_ifs at foundOther with same
    · rw [Scheduler.getTask_enqueue, found, Option.map_some, Option.some.injEq] at foundOther
      subst foundOther
      cases otherRunning
    · have := onlyCurrent taskId other foundOther otherRunning
      rw [isCurrent, Option.some.injEq] at this
      exact same this.symm
  · simp only [requeued, isCurrent, found, if_neg running]
    refine ⟨wellFormed, fun taskId other foundOther otherRunning => ?_⟩
    have := onlyCurrent taskId other foundOther otherRunning
    rw [isCurrent, Option.some.injEq] at this
    subst this
    rw [found, Option.some.injEq] at foundOther
    subst foundOther
    exact running otherRunning

end FangaOS.Sched
