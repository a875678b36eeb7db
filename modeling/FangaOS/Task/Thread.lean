import FangaOS.Lib.BitWord
import FangaOS.Lib.Run
import FangaOS.Lib.SlotTable
import FangaOS.Task.Tcb

/-! Threads and the thread manager of `task/thread.rs`.  The saved context,
stack, thread-local storage base and name of a thread are read by no modelled
function and are left out. -/

namespace FangaOS.Threads

open Tcb StepMachine SlotTable

structure ThreadId where
  val : Nat
  deriving DecidableEq, Repr

inductive ThreadType
  | kernel
  | user
  deriving DecidableEq, Repr

inductive RtSchedulingPolicy
  | normal
  | rtFifo
  | rtRoundRobin
  | deadline
  deriving DecidableEq, Repr

structure ThreadAttributes where
  priority : TaskPriority
  stackSize : Nat
  threadType : ThreadType
  cpuAffinity : Option Nat
  cpuAffinityMask : Option UInt64
  rtPolicy : RtSchedulingPolicy
  deriving DecidableEq, Repr

namespace ThreadAttributes

/-- `ThreadAttributes::default()`: an 8 KiB kernel stack and no affinity. -/
def default : ThreadAttributes :=
  ⟨.normal, 8192, .kernel, none, none, .normal⟩

def withCpuAffinity (attributes : ThreadAttributes) (cpu : Nat) : ThreadAttributes :=
  if cpu < 64 then { attributes with cpuAffinity := some cpu, cpuAffinityMask := some (1 <<< cpu.toUInt64) }
  else attributes

def withAffinityMask (attributes : ThreadAttributes) (mask : UInt64) : ThreadAttributes :=
  { attributes with cpuAffinityMask := some mask, cpuAffinity := none }

def canRunOnCpu (attributes : ThreadAttributes) (cpuId : Nat) : Bool :=
  if cpuId ≥ 64 then false
  else
    match attributes.cpuAffinityMask with
    | some mask => (mask &&& (1 <<< cpuId.toUInt64)) != 0
    | none =>
        match attributes.cpuAffinity with
        | some affinity => affinity == cpuId
        | none => true

end ThreadAttributes

/-- A thread with the fields that the manager and the affinity check read. -/
structure Thread where
  id : ThreadId
  processId : TaskId
  state : TaskState
  attributes : ThreadAttributes
  exitCode : Int32
  deriving DecidableEq, Repr

namespace Thread

/-- `Thread::new`: a new thread is ready, with exit code 0. -/
def new (id : ThreadId) (processId : TaskId) (attributes : ThreadAttributes) : Thread :=
  ⟨id, processId, .ready, attributes, 0⟩

def isKernelThread (thread : Thread) : Bool :=
  thread.attributes.threadType == .kernel

def isUserThread (thread : Thread) : Bool :=
  thread.attributes.threadType == .user

def setCpuAffinity (thread : Thread) (cpu : Nat) : Thread :=
  { thread with attributes := { thread.attributes with cpuAffinity := some cpu } }

def clearCpuAffinity (thread : Thread) : Thread :=
  { thread with attributes := { thread.attributes with cpuAffinity := none } }

def cpuAffinity (thread : Thread) : Option Nat :=
  thread.attributes.cpuAffinity

end Thread

structure ThreadManager where
  threads : List (Option Thread)
  nextThreadId : Nat
  maxThreads : Nat
  deriving DecidableEq, Repr

namespace ThreadManager

def new (maxThreads : Nat) : ThreadManager :=
  ⟨List.replicate maxThreads none, 0, maxThreads⟩

def createThread (manager : ThreadManager) (processId : TaskId) (attributes : ThreadAttributes) :
    Except String ThreadId × ThreadManager :=
  if manager.nextThreadId ≥ manager.maxThreads then (.error "Maximum number of threads reached", manager)
  else
    let threadId : ThreadId := ⟨manager.nextThreadId⟩
    let thread := Thread.new threadId processId attributes
    (.ok threadId,
      { manager with
        nextThreadId := manager.nextThreadId + 1
        threads := manager.threads.set threadId.val (some thread) })

def getThread (manager : ThreadManager) (threadId : ThreadId) : Option Thread :=
  slot manager.threads threadId.val

/-- A change made through `get_thread_mut`, if the thread exists. -/
def updateThread (manager : ThreadManager) (threadId : ThreadId) (change : Thread → Thread) :
    ThreadManager :=
  { manager with threads := manager.threads.modify threadId.val (Option.map change) }

def terminateThread (manager : ThreadManager) (threadId : ThreadId) (exitCode : Int32) :
    Except String Unit × ThreadManager :=
  match manager.getThread threadId with
  | some _ =>
      (.ok (), manager.updateThread threadId fun thread => { thread with state := .terminated, exitCode })
  | none => (.error "Thread not found", manager)

def getProcessThreads (manager : ThreadManager) (processId : TaskId) : List ThreadId :=
  manager.threads.filterMap fun entry =>
    entry.bind fun thread =>
      if thread.processId = processId ∧ thread.state ≠ .terminated then some thread.id else none

def threadCount (manager : ThreadManager) : Nat :=
  manager.threads.countP Option.isSome

end ThreadManager

/-- The calls that change a manager: creating and terminating threads, and
setting or clearing a thread's affinity through `get_thread_mut`. -/
inductive ThreadOp
  | create (processId : TaskId) (attributes : ThreadAttributes)
  | terminate (threadId : ThreadId) (exitCode : Int32)
  | setCpuAffinity (threadId : ThreadId) (cpu : Nat)
  | clearCpuAffinity (threadId : ThreadId)
  deriving DecidableEq, Repr

def ThreadManager.step (manager : ThreadManager) : ThreadOp → ThreadManager
  | .create processId attributes => (manager.createThread processId attributes).2
  | .terminate threadId exitCode => (manager.terminateThread threadId exitCode).2
  | .setCpuAffinity threadId cpu => manager.updateThread threadId (·.setCpuAffinity cpu)
  | .clearCpuAffinity threadId => manager.updateThread threadId Thread.clearCpuAffinity

def ThreadManager.run (manager : ThreadManager) (ops : List ThreadOp) : ThreadManager :=
  StepMachine.run ThreadManager.step manager ops

/-! ### The thread table -/

/-- The threads created so far, in creation order, at most `max_threads`. -/
structure ThreadTable where
  maxThreads : Nat
  created : List Thread

namespace ThreadTable

def initial (maxThreads : Nat) : ThreadTable :=
  ⟨maxThreads, []⟩

def change (table : ThreadTable) (threadId : ThreadId) (change : Thread → Thread) : ThreadTable :=
  { table with created := table.created.modify threadId.val change }

def step (table : ThreadTable) : ThreadOp → ThreadTable
  | .create processId attributes =>
      if table.created.length < table.maxThreads then
        { table with created := table.created ++ [Thread.new ⟨table.created.length⟩ processId attributes] }
      else table
  | .terminate threadId exitCode =>
      table.change threadId fun thread => { thread with state := .terminated, exitCode }
  | .setCpuAffinity threadId cpu => table.change threadId (·.setCpuAffinity cpu)
  | .clearCpuAffinity threadId => table.change threadId Thread.clearCpuAffinity

@[simp] theorem maxThreads_step (table : ThreadTable) (op : ThreadOp) :
    (table.step op).maxThreads = table.maxThreads := by
  cases op with
  | create processId attributes =>
      simp only [step]
      split <;> rfl
  | _ => rfl

def run (table : ThreadTable) (ops : List ThreadOp) : ThreadTable :=
  StepMachine.run ThreadTable.step table ops

end ThreadTable

/-- The manager's slots are the table's threads followed by empty slots, its
next id is the number of threads, and each thread sits at its id. -/
structure Represents (manager : ThreadManager) (table : ThreadTable) : Prop where
  maxThreads_eq : manager.maxThreads = table.maxThreads
  next_eq : manager.nextThreadId = table.created.length
  within : table.created.length ≤ table.maxThreads
  threads_eq :
    manager.threads = table.created.map some ++ List.replicate (table.maxThreads - table.created.length) none
  numbered : ∀ index (thread : Thread), table.created[index]? = some thread → thread.id = ⟨index⟩

namespace Represents

variable {manager : ThreadManager} {table : ThreadTable}

theorem initial (maxThreads : Nat) : Represents (ThreadManager.new maxThreads) (ThreadTable.initial maxThreads) where
  maxThreads_eq := rfl
  next_eq := rfl
  within := Nat.zero_le _
  threads_eq := by simp [ThreadManager.new, ThreadTable.initial]
  numbered := by simp [ThreadTable.initial]

theorem getThread_eq (related : Represents manager table) (threadId : ThreadId) :
    manager.getThread threadId = table.created[threadId.val]? := by
  rw [ThreadManager.getThread, related.threads_eq, slot_map_some_append_replicate]

theorem length_threads (related : Represents manager table) : manager.threads.length = table.maxThreads := by
  rw [related.threads_eq, List.length_append, List.length_map, List.length_replicate]
  exact Nat.add_sub_of_le related.within

theorem threadCount_eq (related : Represents manager table) : manager.threadCount = table.created.length := by
  unfold ThreadManager.threadCount
  rw [related.threads_eq, List.countP_append, List.countP_map, List.countP_replicate]
  simp

theorem getProcessThreads_eq (related : Represents manager table) (processId : TaskId) :
    manager.getProcessThreads processId =
      (table.created.filter fun thread => thread.processId = processId ∧ thread.state ≠ .terminated).map
        Thread.id := by
  unfold ThreadManager.getProcessThreads
  rw [related.threads_eq, List.filterMap_append, List.filterMap_map, List.filterMap_replicate,
    ← List.filterMap_eq_map, List.filterMap_filter]
  simp

theorem create (related : Represents manager table) (processId : TaskId) (attributes : ThreadAttributes) :
    Represents (manager.createThread processId attributes).2 (table.step (.create processId attributes)) := by
  simp only [ThreadManager.createThread, ThreadTable.step]
  by_cases room : table.created.length < table.maxThreads
  · have notFull : ¬ manager.nextThreadId ≥ manager.maxThreads := by
      rw [related.next_eq, related.maxThreads_eq]
      omega
    rw [if_neg notFull, if_pos room]
    have spare : table.maxThreads - table.created.length = (table.maxThreads - (table.created.length + 1)) + 1 := by
      omega
    refine ⟨related.maxThreads_eq, by simp [related.next_eq], by simpa using room, ?_, ?_⟩
    · simp only [related.threads_eq, related.next_eq, spare, set_map_some_append_replicate,
        List.length_append, List.length_singleton]
    · intro index thread found
      rw [List.getElem?_append] at found
      split at found
      · exact related.numbered index thread found
      · rename_i outside
        have last : index = table.created.length := by
          have := (List.getElem?_eq_some_iff.mp found).1
          simp only [List.length_singleton] at this
          omega
        subst last
        simp only [Nat.sub_self, List.getElem?_singleton, if_true, Option.some.injEq] at found
        rw [← found]
        rfl
  · have full : manager.nextThreadId ≥ manager.maxThreads := by
      rw [related.next_eq, related.maxThreads_eq]
      omega
    rw [if_pos full, if_neg room]
    exact related

theorem change (related : Represents manager table) (threadId : ThreadId) (change : Thread → Thread)
    (keepsId : ∀ thread, (change thread).id = thread.id) :
    Represents (manager.updateThread threadId change) (table.change threadId change) where
  maxThreads_eq := related.maxThreads_eq
  next_eq := by simp [ThreadManager.updateThread, ThreadTable.change, related.next_eq]
  within := by simpa [ThreadTable.change] using related.within
  threads_eq := by
    simp only [ThreadManager.updateThread, ThreadTable.change, related.threads_eq, List.length_modify,
      modify_map_some_append_replicate]
  numbered := by
    intro index thread found
    rw [ThreadTable.change, List.getElem?_modify] at found
    split at found
    · obtain ⟨original, was, rfl⟩ := Option.map_eq_some_iff.mp found
      rw [keepsId]
      exact related.numbered index original was
    · exact related.numbered index thread (by simpa using found)

end Represents

theorem represents_simulation : Simulation ThreadManager.step ThreadTable.step Represents := by
  intro manager table op related
  cases op with
  | create processId attributes => exact related.create processId attributes
  | terminate threadId exitCode =>
      simp only [ThreadManager.step, ThreadTable.step, ThreadManager.terminateThread]
      cases found : manager.getThread threadId with
      | some thread => exact related.change threadId _ fun _ => rfl
      | none =>
          -- no thread has the id, so the table's change misses too
          have beyond : table.created.length ≤ threadId.val := by
            rw [related.getThread_eq] at found
            exact List.getElem?_eq_none_iff.mp found
          have unchanged : table.change threadId (fun thread => { thread with state := .terminated, exitCode }) =
              table := by
            rw [ThreadTable.change, List.modify_eq_self beyond]
          rw [unchanged]
          exact related
  | setCpuAffinity threadId cpu => exact related.change threadId _ fun _ => rfl
  | clearCpuAffinity threadId => exact related.change threadId _ fun _ => rfl

/-- Along every run of a manager from `new(max_threads)`, it holds exactly the
threads of the table that the same calls build: it keeps `max_threads` slots,
so that the slot write of `create_thread` is always in bounds; `thread_count`
is the next thread id and at most `max_threads`; the thread found under an id
is the thread created with it; and `get_process_threads` lists the ids of the
process's threads that are not terminated, in creation order. -/
theorem thread_manager_refines_thread_table (maxThreads : Nat) (ops : List ThreadOp) :
    let manager := (ThreadManager.new maxThreads).run ops
    let table := (ThreadTable.initial maxThreads).run ops
    manager.threads.length = maxThreads ∧
    manager.threadCount = manager.nextThreadId ∧ manager.nextThreadId = table.created.length ∧
    table.created.length ≤ maxThreads ∧
    (∀ threadId, manager.getThread threadId = table.created[threadId.val]?) ∧
    (∀ index (thread : Thread), table.created[index]? = some thread → thread.id = ⟨index⟩) ∧
    ∀ processId, manager.getProcessThreads processId =
      (table.created.filter fun thread => thread.processId = processId ∧ thread.state ≠ .terminated).map
        Thread.id := by
  intro manager table
  have related : Represents manager table := represents_simulation.run (Represents.initial maxThreads) ops
  have sameMax : table.maxThreads = maxThreads :=
    Invariant.run (P := fun table : ThreadTable => table.maxThreads = maxThreads)
      (fun table op same => (ThreadTable.maxThreads_step table op).trans same) rfl ops
  refine ⟨sameMax ▸ related.length_threads, related.threadCount_eq.trans related.next_eq.symm,
    related.next_eq, sameMax ▸ related.within, related.getThread_eq, related.numbered,
    related.getProcessThreads_eq⟩

/-- With room for two threads a third creation is refused, and a terminated
thread drops out of its process's list. -/
example : ((ThreadManager.new 2).run [.create ⟨1⟩ .default, .create ⟨1⟩ .default,
    .create ⟨2⟩ .default, .terminate ⟨0⟩ 3]).getProcessThreads ⟨1⟩ = [⟨1⟩] := by
  decide

end FangaOS.Threads
