import Mathlib.Data.List.Nodup
import FangaOS.Lib.Run
import FangaOS.Task.Tcb

/-! The read-write lock of `task/sync.rs`, a state machine over its mode, reader
count, writer and two FIFO wait queues. -/

namespace FangaOS.Sync

open StepMachine FangaOS.Tcb

inductive RwLockMode
  | unlocked
  | read
  | write
  deriving DecidableEq, Repr

structure RwLock where
  mode : RwLockMode
  readerCount : Nat
  writer : Option TaskId
  readWaiters : List TaskId
  writeWaiters : List TaskId
  deriving DecidableEq, Repr

def RwLock.new : RwLock :=
  { mode := .unlocked
    readerCount := 0
    writer := none
    readWaiters := []
    writeWaiters := [] }

/-- `try_read_lock`: `true` when the read lock is taken; a refused task is
queued once. -/
def RwLock.tryReadLock (lock : RwLock) (taskId : TaskId) : Bool × RwLock :=
  match lock.mode with
  | .unlocked => (true, { lock with mode := .read, readerCount := 1 })
  | .read => (true, { lock with readerCount := lock.readerCount + 1 })
  | .write =>
      (false, if taskId ∈ lock.readWaiters then lock
        else { lock with readWaiters := lock.readWaiters ++ [taskId] })

/-- `try_write_lock`: `true` when the write lock is taken; a refused task is
queued once. -/
def RwLock.tryWriteLock (lock : RwLock) (taskId : TaskId) : Bool × RwLock :=
  match lock.mode with
  | .unlocked => (true, { lock with mode := .write, writer := some taskId })
  | .read | .write =>
      (false, if taskId ∈ lock.writeWaiters then lock
        else { lock with writeWaiters := lock.writeWaiters ++ [taskId] })

/-- The hand-over that ends both unlocks: the first waiting writer, or else every
waiting reader in order. -/
def RwLock.wakeWaiters (lock : RwLock) : List TaskId × RwLock :=
  match lock.writeWaiters with
  | writer :: rest =>
      ([writer], { lock with mode := .write, writer := some writer, writeWaiters := rest })
  | [] =>
      let tasksToWake := lock.readWaiters
      (tasksToWake,
        if tasksToWake.isEmpty then { lock with readWaiters := [] }
        else { lock with readWaiters := [], mode := .read, readerCount := tasksToWake.length })

/-- `read_unlock`: the caller's id is not checked. -/
def RwLock.readUnlock (lock : RwLock) (_taskId : TaskId) :
    Except String (List TaskId × RwLock) :=
  if lock.mode ≠ .read then .error "Lock is not held for reading"
  else if lock.readerCount = 0 then .error "Reader count is already zero"
  else if lock.readerCount - 1 = 0 then
    .ok ({ lock with readerCount := 0, mode := .unlocked }.wakeWaiters)
  else .ok ([], { lock with readerCount := lock.readerCount - 1 })

/-- `write_unlock`: only the writer may release. -/
def RwLock.writeUnlock (lock : RwLock) (taskId : TaskId) :
    Except String (List TaskId × RwLock) :=
  if lock.mode ≠ .write then .error "Lock is not held for writing"
  else if lock.writer ≠ some taskId then .error "Task does not hold the write lock"
  else .ok ({ lock with mode := .unlocked, writer := none }.wakeWaiters)

inductive RwLockOp
  | tryReadLock (taskId : TaskId)
  | tryWriteLock (taskId : TaskId)
  | readUnlock (taskId : TaskId)
  | writeUnlock (taskId : TaskId)

/-- One call on the lock; a refused unlock leaves it unchanged. -/
def RwLock.step (lock : RwLock) : RwLockOp → RwLock
  | .tryReadLock taskId => (lock.tryReadLock taskId).2
  | .tryWriteLock taskId => (lock.tryWriteLock taskId).2
  | .readUnlock taskId => afterCall lock (lock.readUnlock taskId)
  | .writeUnlock taskId => afterCall lock (lock.writeUnlock taskId)

/-! ### The invariant -/

/-- The mode names the owners, and nobody waits on a lock that nobody holds. -/
structure RwLock.Consistent (lock : RwLock) : Prop where
  writeMode : lock.mode = .write ↔ lock.writer.isSome
  readMode : lock.mode = .read ↔ 0 < lock.readerCount
  unlockedIdle : lock.mode = .unlocked → lock.readWaiters = [] ∧ lock.writeWaiters = []
  readersWaitForWriter : lock.readWaiters ≠ [] → lock.mode = .write
  readWaitersNodup : lock.readWaiters.Nodup
  writeWaitersNodup : lock.writeWaiters.Nodup

theorem RwLock.new_consistent : RwLock.new.Consistent where
  writeMode := by simp [RwLock.new]
  readMode := by simp [RwLock.new]
  unlockedIdle := fun _ => ⟨rfl, rfl⟩
  readersWaitForWriter := fun nonempty => absurd rfl nonempty
  readWaitersNodup := List.nodup_nil
  writeWaitersNodup := List.nodup_nil

private theorem nodup_append_of_not_mem {queue : List TaskId} {task : TaskId}
    (distinct : queue.Nodup) (fresh : task ∉ queue) : (queue ++ [task]).Nodup := by
  rw [← List.concat_eq_append]
  exact distinct.concat fresh

theorem RwLock.tryReadLock_consistent {lock : RwLock} (consistent : lock.Consistent)
    (taskId : TaskId) : (lock.tryReadLock taskId).2.Consistent := by
  obtain ⟨writeMode, readMode, unlockedIdle, readersWait, readNodup, writeNodup⟩ := consistent
  unfold RwLock.tryReadLock
  split
  · next unlocked =>
      have idle := unlockedIdle unlocked
      have noWriter : lock.writer = none := by
        cases writerAt : lock.writer with
        | none => rfl
        | some _ => simp [writerAt, unlocked] at writeMode
      exact ⟨by simp [noWriter], by simp, by simp, by simp [idle.1], readNodup, writeNodup⟩
  · next reading =>
      exact ⟨by simpa [reading] using writeMode, by simp [reading], by simp [reading],
        by simpa [reading] using readersWait, readNodup, writeNodup⟩
  · next writing =>
      by_cases queued : taskId ∈ lock.readWaiters
      · simp only [if_pos queued]
        exact ⟨writeMode, readMode, unlockedIdle, readersWait, readNodup, writeNodup⟩
      · simp only [if_neg queued]
        exact ⟨writeMode, readMode, by simp [writing], fun _ => writing,
          nodup_append_of_not_mem readNodup queued, writeNodup⟩

theorem RwLock.tryWriteLock_consistent {lock : RwLock} (consistent : lock.Consistent)
    (taskId : TaskId) : (lock.tryWriteLock taskId).2.Consistent := by
  obtain ⟨writeMode, readMode, unlockedIdle, readersWait, readNodup, writeNodup⟩ := consistent
  unfold RwLock.tryWriteLock
  split
  · next unlocked =>
      have idle := unlockedIdle unlocked
      have noReaders : lock.readerCount = 0 := by
        by_contra positive
        have reading := readMode.mpr (Nat.pos_of_ne_zero positive)
        rw [unlocked] at reading
        cases reading
      exact ⟨by simp, by simp [noReaders], by simp, by simp [idle.1], readNodup, writeNodup⟩
  all_goals
    next held =>
      by_cases queued : taskId ∈ lock.writeWaiters
      · simp only [if_pos queued]
        exact ⟨writeMode, readMode, unlockedIdle, readersWait, readNodup, writeNodup⟩
      · simp only [if_neg queued]
        exact ⟨writeMode, readMode, by simp [held], readersWait, readNodup,
          nodup_append_of_not_mem writeNodup queued⟩

/-! ### The hand-over -/

/-- The tasks an unlock wakes are distinct, have left their queue and hold the
lock. -/
def Granted (before after : RwLock) (woken : List TaskId) : Prop :=
  woken.Nodup ∧ ∀ task ∈ woken,
    (task ∈ before.writeWaiters ∧ task ∉ after.writeWaiters ∧
        after.mode = .write ∧ after.writer = some task) ∨
      (task ∈ before.readWaiters ∧ task ∉ after.readWaiters ∧
        after.mode = .read ∧ after.readerCount = woken.length)

theorem RwLock.wakeWaiters_spec (lock : RwLock) (free : lock.mode = .unlocked)
    (noWriter : lock.writer = none) (noReaders : lock.readerCount = 0)
    (readNodup : lock.readWaiters.Nodup) (writeNodup : lock.writeWaiters.Nodup) :
    lock.wakeWaiters.2.Consistent ∧ Granted lock lock.wakeWaiters.2 lock.wakeWaiters.1 := by
  unfold RwLock.wakeWaiters
  split
  · next writer rest waiting =>
      rw [waiting, List.nodup_cons] at writeNodup
      refine ⟨⟨by simp, by simp [noReaders], by simp, fun _ => rfl, readNodup, writeNodup.2⟩,
        List.nodup_singleton writer, ?_⟩
      intro task woken
      rw [List.mem_singleton] at woken
      subst woken
      exact Or.inl ⟨by simp [waiting], writeNodup.1, rfl, rfl⟩
  · next noWriters =>
      cases readersAt : lock.readWaiters with
      | nil =>
          refine ⟨⟨by simp [free, noWriter], by simp [free, noReaders], ?_, by simp,
            List.nodup_nil, by simp [noWriters]⟩, List.nodup_nil, by simp⟩
          intro _
          exact ⟨rfl, noWriters⟩
      | cons reader others =>
          have readersNodup : (reader :: others).Nodup := readersAt ▸ readNodup
          refine ⟨⟨by simp [noWriter], by simp, by simp, by simp, List.nodup_nil,
            by simp [noWriters]⟩, readersNodup, ?_⟩
          intro task woken
          exact Or.inr ⟨by simpa [readersAt] using woken, by simp, by simp, by simp⟩

theorem RwLock.readUnlock_spec {lock before : RwLock} (consistent : before.Consistent)
    {taskId : TaskId} {woken : List TaskId}
    (released : before.readUnlock taskId = .ok (woken, lock)) :
    lock.Consistent ∧ Granted before lock woken := by
  obtain ⟨writeMode, readMode, _, readersWait, readNodup, writeNodup⟩ := consistent
  unfold RwLock.readUnlock at released
  by_cases reading : before.mode = .read
  · have noWriter : before.writer = none := by
      cases writerAt : before.writer with
      | none => rfl
      | some _ => simp [writerAt, reading] at writeMode
    have noReadWaiters : before.readWaiters = [] := by
      by_contra waiting
      rw [readersWait waiting] at reading
      cases reading
    by_cases zero : before.readerCount = 0
    · simp [reading, zero] at released
    by_cases last : before.readerCount - 1 = 0
    · simp only [reading, zero, last, ne_eq, not_true_eq_false, ↓reduceIte,
        Except.ok.injEq] at released
      have handed := RwLock.wakeWaiters_spec { before with readerCount := 0, mode := .unlocked }
        rfl noWriter rfl readNodup writeNodup
      rw [released] at handed
      exact handed
    · simp only [reading, zero, last, ne_eq, not_true_eq_false, ↓reduceIte,
        Except.ok.injEq, Prod.mk.injEq] at released
      obtain ⟨rfl, rfl⟩ := released
      refine ⟨⟨by simpa [reading] using writeMode, by simp; omega,
        by simp, by simp [noReadWaiters], readNodup, writeNodup⟩,
        List.nodup_nil, by simp⟩
  · simp [reading] at released

theorem RwLock.writeUnlock_spec {lock before : RwLock} (consistent : before.Consistent)
    {taskId : TaskId} {woken : List TaskId}
    (released : before.writeUnlock taskId = .ok (woken, lock)) :
    lock.Consistent ∧ Granted before lock woken := by
  obtain ⟨_, readMode, _, _, readNodup, writeNodup⟩ := consistent
  unfold RwLock.writeUnlock at released
  by_cases writing : before.mode = .write
  · have noReaders : before.readerCount = 0 := by
      by_contra positive
      have reading := readMode.mpr (Nat.pos_of_ne_zero positive)
      rw [writing] at reading
      cases reading
    by_cases owner : before.writer = some taskId
    · simp only [writing, owner, ne_eq, not_true_eq_false, ↓reduceIte,
        Except.ok.injEq] at released
      have handed := RwLock.wakeWaiters_spec { before with mode := .unlocked, writer := none }
        rfl rfl noReaders readNodup writeNodup
      rw [released] at handed
      exact handed
    · simp [writing, owner] at released
  · simp [writing] at released

theorem RwLock.step_consistent : Invariant RwLock.step RwLock.Consistent := by
  intro lock op consistent
  cases op with
  | tryReadLock taskId => exact lock.tryReadLock_consistent consistent taskId
  | tryWriteLock taskId => exact lock.tryWriteLock_consistent consistent taskId
  | readUnlock taskId =>
      exact afterCall_preserves consistent fun woken _ released =>
        (RwLock.readUnlock_spec consistent released).1
  | writeUnlock taskId =>
      exact afterCall_preserves consistent fun woken _ released =>
        (RwLock.writeUnlock_spec consistent released).1

/-- After any sequence of lock and unlock calls by any tasks, the mode agrees
with the owners, the lock is never read and written at once, nobody waits on
an unlocked lock, readers wait only behind a writer, and each unlock hands the
lock to exactly the tasks it reports as woken. -/
theorem rwLock_run_consistent (ops : List RwLockOp) :
    let lock := run RwLock.step RwLock.new ops
    (lock.mode = .write ↔ lock.writer.isSome) ∧
      (lock.mode = .read ↔ 0 < lock.readerCount) ∧
      ¬(lock.writer.isSome ∧ 0 < lock.readerCount) ∧
      (lock.mode = .unlocked → lock.readWaiters = [] ∧ lock.writeWaiters = []) ∧
      (lock.readWaiters ≠ [] → lock.mode = .write) ∧
      (∀ taskId woken after, lock.readUnlock taskId = .ok (woken, after) →
        Granted lock after woken) ∧
      (∀ taskId woken after, lock.writeUnlock taskId = .ok (woken, after) →
        Granted lock after woken) := by
  intro lock
  have consistent : lock.Consistent :=
    RwLock.step_consistent.run RwLock.new_consistent ops
  refine ⟨consistent.writeMode, consistent.readMode, ?_, consistent.unlockedIdle,
    consistent.readersWaitForWriter, ?_, ?_⟩
  · rintro ⟨hasWriter, hasReaders⟩
    have writing := consistent.writeMode.mpr hasWriter
    rw [consistent.readMode.mpr hasReaders] at writing
    cases writing
  · intro taskId woken after released
    exact (RwLock.readUnlock_spec consistent released).2
  · intro taskId woken after released
    exact (RwLock.writeUnlock_spec consistent released).2

end FangaOS.Sync
