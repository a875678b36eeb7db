import Mathlib

/-! Task identity, state and priority of `task/tcb.rs`.  The saved context, the
kernel stack, the page table and the name take no part in any modelled decision
and are left out. -/

namespace FangaOS.Tcb

structure TaskId where
  val : Nat
  deriving DecidableEq, Repr

inductive TaskState
  | ready
  | running
  | blocked
  | terminated
  deriving DecidableEq, Repr

inductive TaskPriority
  | low
  | normal
  | high
  | critical
  deriving DecidableEq, Repr

/-- The discriminant of `TaskPriority`, `Low = 0` up to `Critical = 3`. -/
def TaskPriority.toNat : TaskPriority → Nat
  | .low => 0
  | .normal => 1
  | .high => 2
  | .critical => 3

theorem TaskPriority.toNat_lt (priority : TaskPriority) : priority.toNat < 4 := by
  cases priority <;> decide

/-- `priority as usize`, the index of the priority's ready queue. -/
def TaskPriority.index (priority : TaskPriority) : Fin 4 :=
  ⟨priority.toNat, priority.toNat_lt⟩

structure Task where
  id : TaskId
  state : TaskState
  priority : TaskPriority
  deriving DecidableEq, Repr

/-- `Task::new`: a fresh task is ready. -/
def Task.new (id : TaskId) (priority : TaskPriority) : Task :=
  { id := id, state := .ready, priority := priority }

end FangaOS.Tcb
