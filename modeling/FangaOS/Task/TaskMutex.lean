import Mathlib
import FangaOS.Lib.Fifo
import FangaOS.Lib.Run
import FangaOS.Task.Tcb

/-! The task mutex of `task/ipc.rs`.  The mutex is not handed over on `unlock`:
the woken task calls `try_lock` again. -/

namespace FangaOS.Ipc

open Tcb StepMachine

structure TaskMutex where
  locked : Bool
  owner : Option TaskId
  waitingTasks : List TaskId
  deriving DecidableEq, Repr

def TaskMutex.new : TaskMutex :=
  ⟨false, none, []⟩

/-- `try_lock`: `true` when the caller now holds the mutex. -/
def TaskMutex.tryLock (mutex : TaskMutex) (taskId : TaskId) : Bool × TaskMutex :=
  if !mutex.locked then (true, { mutex with locked := true, owner := some taskId })
  else if taskId ∉ mutex.waitingTasks then
    (false, { mutex with waitingTasks := mutex.waitingTasks ++ [taskId] })
  else (false, mutex)

/-- `unlock`: the task to wake, or the error of a caller that does not own the
mutex. -/
def TaskMutex.unlock (mutex : TaskMutex) (taskId : TaskId) :
    Except String (Option TaskId) × TaskMutex :=
  if mutex.owner ≠ some taskId then (.error "Task does not own the mutex", mutex)
  else
    match mutex.waitingTasks with
    | [] => (.ok none, { mutex with locked := false, owner := none })
    | first :: rest =>
        (.ok (some first), { mutex with locked := false, owner := none, waitingTasks := rest })

def TaskMutex.isLocked (mutex : TaskMutex) : Bool :=
  mutex.locked

def TaskMutex.waitingCount (mutex : TaskMutex) : Nat :=
  mutex.waitingTasks.length

section Calls

variable {mutex : TaskMutex} {taskId : TaskId}

theorem TaskMutex.tryLock_of_unlocked (free : mutex.locked = false) :
    mutex.tryLock taskId = (true, { mutex with locked := true, owner := some taskId }) := by
  simp [tryLock, free]

theorem TaskMutex.tryLock_of_fresh (held : mutex.locked = true) (fresh : taskId ∉ mutex.waitingTasks) :
    mutex.tryLock taskId = (false, { mutex with waitingTasks := mutex.waitingTasks ++ [taskId] }) := by
  simp [tryLock, held, fresh]

theorem TaskMutex.tryLock_of_waiting (held : mutex.locked = true) (waiting : taskId ∈ mutex.waitingTasks) :
    mutex.tryLock taskId = (false, mutex) := by
  simp [tryLock, held, waiting]

theorem TaskMutex.unlock_of_not_owner (stranger : mutex.owner ≠ some taskId) :
    mutex.unlock taskId = (.error "Task does not own the mutex", mutex) := by
  simp [unlock, stranger]

theorem TaskMutex.unlock_of_owner (owns : mutex.owner = some taskId) :
    mutex.unlock taskId =
      (.ok mutex.waitingTasks.head?,
        { mutex with locked := false, owner := none, waitingTasks := mutex.waitingTasks.tail }) := by
  obtain ⟨locked, owner, waiting⟩ := mutex
  cases waiting <;> simp_all [unlock]

end Calls

inductive MutexOp
  | tryLock (taskId : TaskId)
  | unlock (taskId : TaskId)
  deriving DecidableEq, Repr

inductive LockEvent
  | acquired (taskId : TaskId)
  | released (taskId : TaskId)
  deriving DecidableEq, Repr

/-- The acquisitions and releases of a sequence of critical sections, each
closed by the task that opened it. -/
def criticalSections (holders : List TaskId) : List LockEvent :=
  holders.flatMap fun holder => [.acquired holder, .released holder]

/-- A mutex with the log of its queue and every acquisition and release in order. -/
structure MutexSession where
  mutex : TaskMutex
  queue : Fifo.Log TaskId
  events : List LockEvent

def MutexSession.start : MutexSession :=
  ⟨TaskMutex.new, Fifo.Log.empty, []⟩

def MutexSession.step (session : MutexSession) : MutexOp → MutexSession
  | .tryLock taskId =>
      let (acquired, mutex) := session.mutex.tryLock taskId
      { mutex
        queue :=
          if !acquired && taskId ∉ session.mutex.waitingTasks then session.queue.accept [taskId]
          else session.queue
        events := if acquired then session.events ++ [.acquired taskId] else session.events }
  | .unlock taskId =>
      match session.mutex.unlock taskId with
      | (.ok woken, mutex) =>
          { mutex
            queue := session.queue.deliver woken.toList
            events := session.events ++ [.released taskId] }
      | (.error _, mutex) => { session with mutex }

def MutexSession.run (session : MutexSession) (ops : List MutexOp) : MutexSession :=
  StepMachine.run MutexSession.step session ops

/-- The mutex is locked exactly when owned, and its events are closed critical
sections. -/
structure MutexSession.Safe (session : MutexSession) : Prop where
  locked_eq : session.mutex.locked = session.mutex.owner.isSome
  nodup : session.mutex.waitingTasks.Nodup
  accounts : session.queue.Accounts session.mutex.waitingTasks
  sections : ∃ holders, session.events =
    criticalSections holders ++ (session.mutex.owner.map LockEvent.acquired).toList

theorem MutexSession.safe_start : MutexSession.start.Safe where
  locked_eq := rfl
  nodup := List.nodup_nil
  accounts := Fifo.accounts_empty
  sections := ⟨[], rfl⟩

section Steps

variable {session : MutexSession}

theorem MutexSession.Safe.tryLock (safe : session.Safe) (taskId : TaskId) :
    (session.step (.tryLock taskId)).Safe := by
  cases held : session.mutex.locked
  · -- a free mutex has no owner, so the acquisition opens a new section
    have free : session.mutex.owner = none := by
      have locked := safe.locked_eq
      rw [held] at locked
      simpa using locked.symm
    obtain ⟨holders, events⟩ := safe.sections
    simp only [MutexSession.step, TaskMutex.tryLock_of_unlocked held]
    refine ⟨rfl, safe.nodup, by simpa using safe.accounts, holders, ?_⟩
    simp [events, free]
  · by_cases waiting : taskId ∈ session.mutex.waitingTasks
    · simp only [MutexSession.step, TaskMutex.tryLock_of_waiting held waiting]
      simpa [waiting] using safe
    · simp only [MutexSession.step, TaskMutex.tryLock_of_fresh held waiting]
      refine ⟨safe.locked_eq, ?_, ?_, safe.sections⟩
      · refine List.nodup_append.mpr ⟨safe.nodup, List.nodup_singleton taskId, ?_⟩
        intro other old arriving new same
        rw [List.mem_singleton.mp new] at same
        exact waiting (same ▸ old)
      · simpa [waiting] using safe.accounts.accept [taskId]

theorem MutexSession.Safe.unlock (safe : session.Safe) (taskId : TaskId) :
    (session.step (.unlock taskId)).Safe := by
  by_cases owns : session.mutex.owner = some taskId
  · -- the owner closes its section and the head of the queue leaves it
    obtain ⟨holders, events⟩ := safe.sections
    have split : session.mutex.waitingTasks =
        session.mutex.waitingTasks.head?.toList ++ session.mutex.waitingTasks.tail := by
      cases session.mutex.waitingTasks <;> rfl
    simp only [MutexSession.step, TaskMutex.unlock_of_owner owns]
    refine ⟨rfl, safe.nodup.sublist (List.tail_sublist _), ?_, holders ++ [taskId], ?_⟩
    · exact (split ▸ safe.accounts).deliver
    · simp [events, owns, criticalSections]
  · simp only [MutexSession.step, TaskMutex.unlock_of_not_owner owns]
    exact safe

end Steps

theorem MutexSession.safe_step : Invariant MutexSession.step MutexSession.Safe
  | _, .tryLock taskId, safe => safe.tryLock taskId
  | _, .unlock taskId, safe => safe.unlock taskId

/-- Along every run of `try_lock` and `unlock` calls from `new`: the mutex is
locked exactly when it has an owner; no task waits twice; the tasks returned by
`unlock`, followed by those still waiting, are the tasks in the order in which
a `try_lock` first refused them; and the acquisitions and releases form closed
critical sections, each released by the task that acquired it, followed by the
acquisition of the present owner. -/
theorem mutex_sections_alternate (ops : List MutexOp) :
    let session : MutexSession := MutexSession.start.run ops
    session.mutex.isLocked = session.mutex.owner.isSome ∧
    session.mutex.waitingTasks.Nodup ∧
    session.queue.delivered ++ session.mutex.waitingTasks = session.queue.accepted ∧
    ∃ holders, session.events =
      criticalSections holders ++ (session.mutex.owner.map LockEvent.acquired).toList := by
  intro session
  have safe : session.Safe := MutexSession.safe_step.run MutexSession.safe_start ops
  exact ⟨safe.locked_eq, safe.nodup, safe.accounts, safe.sections⟩

end FangaOS.Ipc
