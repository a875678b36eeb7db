import Mathlib
import FangaOS.Lib.Fifo
import FangaOS.Lib.Run
import FangaOS.Task.Tcb

/-! The condition variable and the barrier of `task/sync.rs`.  `usize` counters
are `Nat`: the waiting count stays below the thread count and the generation
would wrap only after `2 ^ 64` releases. -/

namespace FangaOS.Sync

open StepMachine FangaOS.Tcb

/-! ### The condition variable -/

structure ConditionVariable where
  waitingThreads : List TaskId
  deriving DecidableEq, Repr

def ConditionVariable.new : ConditionVariable :=
  ⟨[]⟩

def ConditionVariable.wait (cv : ConditionVariable) (taskId : TaskId) :
    TaskId × ConditionVariable :=
  (taskId, ⟨cv.waitingThreads ++ [taskId]⟩)

def ConditionVariable.signal (cv : ConditionVariable) : Option TaskId × ConditionVariable :=
  match cv.waitingThreads with
  | [] => (none, cv)
  | taskId :: rest => (some taskId, ⟨rest⟩)

/-- The loop of `broadcast`: pop the front of the queue onto `tasks` until the
queue is empty. -/
def ConditionVariable.broadcastLoop (tasks : List TaskId) : List TaskId → List TaskId × List TaskId
  | [] => (tasks, [])
  | taskId :: rest => broadcastLoop (tasks ++ [taskId]) rest

def ConditionVariable.broadcast (cv : ConditionVariable) : List TaskId × ConditionVariable :=
  let (tasks, waitingThreads) := broadcastLoop [] cv.waitingThreads
  (tasks, ⟨waitingThreads⟩)

def ConditionVariable.waitingCount (cv : ConditionVariable) : Nat :=
  cv.waitingThreads.length

def ConditionVariable.hasWaiters (cv : ConditionVariable) : Bool :=
  !cv.waitingThreads.isEmpty

/-! ### The barrier -/

structure Barrier where
  threadCount : Nat
  waitingCount : Nat
  waitingTasks : List TaskId
  generation : Nat
  deriving DecidableEq, Repr

def Barrier.new (threadCount : Nat) : Barrier :=
  ⟨threadCount, 0, [], 0⟩

/-- `wait`: `(should_block, tasks_to_wake)` and the barrier after the call. -/
def Barrier.wait (barrier : Barrier) (taskId : TaskId) : (Bool × List TaskId) × Barrier :=
  let waitingCount := barrier.waitingCount + 1
  let waitingTasks := barrier.waitingTasks ++ [taskId]
  if waitingCount ≥ barrier.threadCount then
    ((false, waitingTasks),
      { barrier with waitingCount := 0, waitingTasks := [], generation := barrier.generation + 1 })
  else
    ((true, []), { barrier with waitingCount, waitingTasks })

section BarrierWait

variable {barrier : Barrier} {taskId : TaskId}

theorem Barrier.wait_of_complete (complete : barrier.threadCount ≤ barrier.waitingCount + 1) :
    barrier.wait taskId =
      ((false, barrier.waitingTasks ++ [taskId]),
        { barrier with waitingCount := 0, waitingTasks := [],
                       generation := barrier.generation + 1 }) := by
  simp [Barrier.wait, complete]

theorem Barrier.wait_of_incomplete (incomplete : barrier.waitingCount + 1 < barrier.threadCount) :
    barrier.wait taskId =
      ((true, []),
        { barrier with waitingCount := barrier.waitingCount + 1,
                       waitingTasks := barrier.waitingTasks ++ [taskId] }) := by
  simp [Barrier.wait, Nat.not_le.mpr incomplete]

end BarrierWait

/-- A barrier with the groups of tasks that its calls have released, in order. -/
structure BarrierSession where
  barrier : Barrier
  released : List (List TaskId)

def BarrierSession.start (threadCount : Nat) : BarrierSession :=
  ⟨Barrier.new threadCount, []⟩

def BarrierSession.step (session : BarrierSession) (taskId : TaskId) : BarrierSession :=
  let ((shouldBlock, tasksToWake), barrier) := session.barrier.wait taskId
  { barrier
    released := if shouldBlock then session.released else session.released ++ [tasksToWake] }

def BarrierSession.run (session : BarrierSession) (arrivals : List TaskId) : BarrierSession :=
  StepMachine.run BarrierSession.step session arrivals

/-- What a barrier built by `new threadCount` holds after `arrivals`. -/
structure BarrierSession.Groups (threadCount : Nat) (arrivals : List TaskId)
    (session : BarrierSession) : Prop where
  threadCount_eq : session.barrier.threadCount = threadCount
  arrivals_eq : session.released.flatten ++ session.barrier.waitingTasks = arrivals
  sized : ∀ group ∈ session.released, group.length = max threadCount 1
  waitingCount_eq : session.barrier.waitingCount = session.barrier.waitingTasks.length
  waiting_lt : session.barrier.waitingTasks.length < max threadCount 1
  generation_eq : session.barrier.generation = session.released.length

theorem BarrierSession.groups_start (threadCount : Nat) :
    (BarrierSession.start threadCount).Groups threadCount [] where
  threadCount_eq := rfl
  arrivals_eq := rfl
  sized := by simp [start]
  waitingCount_eq := rfl
  waiting_lt := by simp [start, Barrier.new]
  generation_eq := rfl

theorem BarrierSession.Groups.step {threadCount : Nat} {arrivals : List TaskId}
    {session : BarrierSession} (groups : session.Groups threadCount arrivals) (taskId : TaskId) :
    (session.step taskId).Groups threadCount (arrivals ++ [taskId]) := by
  have below := groups.waiting_lt
  have counted := groups.waitingCount_eq
  by_cases complete : session.barrier.threadCount ≤ session.barrier.waitingCount + 1
  · -- the arrival completes a group of exactly `max threadCount 1` tasks
    have full : session.barrier.waitingCount + 1 = max threadCount 1 := by
      rw [groups.threadCount_eq] at complete
      omega
    have released : session.step taskId =
        ⟨{ session.barrier with waitingCount := 0, waitingTasks := [],
                                generation := session.barrier.generation + 1 },
          session.released ++ [session.barrier.waitingTasks ++ [taskId]]⟩ := by
      simp [BarrierSession.step, Barrier.wait_of_complete complete]
    rw [released]
    refine ⟨groups.threadCount_eq, ?_, ?_, rfl, ?_, ?_⟩
    · simp [← groups.arrivals_eq]
    · intro group member
      rcases List.mem_append.mp member with old | new
      · exact groups.sized group old
      · rw [List.mem_singleton.mp new, List.length_append, ← groups.waitingCount_eq]
        exact full
    · simp
    · simp [groups.generation_eq]
  · have incomplete : session.barrier.waitingCount + 1 < session.barrier.threadCount := by
      omega
    have blocked : session.step taskId =
        ⟨{ session.barrier with waitingCount := session.barrier.waitingCount + 1,
                                waitingTasks := session.barrier.waitingTasks ++ [taskId] },
          session.released⟩ := by
      simp [BarrierSession.step, Barrier.wait_of_incomplete incomplete]
    rw [blocked]
    refine ⟨groups.threadCount_eq, ?_, groups.sized, ?_, ?_, groups.generation_eq⟩
    · simp [← groups.arrivals_eq]
    · simp [groups.waitingCount_eq]
    · rw [groups.threadCount_eq] at incomplete
      simp only [List.length_append, List.length_singleton]
      omega

theorem BarrierSession.groups_run (threadCount : Nat) (arrivals : List TaskId) :
    ((BarrierSession.start threadCount).run arrivals).Groups threadCount arrivals :=
  run_of_history (P := fun arrivals (session : BarrierSession) => session.Groups threadCount arrivals)
    (groups_start threadCount) (fun _ _ taskId groups => groups.step taskId) arrivals

/-- A barrier for `threadCount` tasks cuts the arrivals into consecutive groups
of `max threadCount 1`: the group released at generation `index` is the
arrivals from `index * size` on, the tasks still waiting are those after the
last complete group, and the generation and waiting count are the quotient and
the remainder of the number of arrivals by the group size. -/
theorem barrier_releases_consecutive_groups (threadCount : Nat) (arrivals : List TaskId) :
    let session : BarrierSession := (BarrierSession.start threadCount).run arrivals
    let size : Nat := max threadCount 1
    session.barrier.generation = arrivals.length / size ∧
    session.barrier.waitingCount = arrivals.length % size ∧
    session.released.length = session.barrier.generation ∧
    (∀ index (within : index < session.released.length),
      session.released[index] = (arrivals.drop (index * size)).take size) ∧
    session.barrier.waitingTasks = arrivals.drop (session.barrier.generation * size) := by
  intro session size
  have groups : session.Groups threadCount arrivals := BarrierSession.groups_run threadCount arrivals
  have sizePos : 0 < size := by omega
  have flattened : session.released.flatten.length = session.released.length * size :=
    Fifo.length_flatten_of_sized groups.sized
  have total : arrivals.length =
      session.barrier.waitingTasks.length + size * session.barrier.generation := by
    rw [← groups.arrivals_eq, List.length_append, flattened, groups.generation_eq, Nat.mul_comm]
    omega
  obtain ⟨quotient, remainder⟩ :=
    (Nat.div_mod_unique sizePos).mpr ⟨total.symm, groups.waiting_lt⟩
  refine ⟨quotient.symm, ?_, groups.generation_eq.symm, ?_, ?_⟩
  · rw [groups.waitingCount_eq, remainder]
  · intro index within
    rw [Fifo.batch_eq_take_drop groups.sized session.barrier.waitingTasks within,
      groups.arrivals_eq]
  · rw [← groups.arrivals_eq, groups.generation_eq, ← flattened, List.drop_left]

end FangaOS.Sync
