import Mathlib.Data.List.Basic
import FangaOS.Lib.Run
import FangaOS.Memory.Addr
import FangaOS.Task.Tcb

/-! Shared memory segments of `task/ipc.rs`. -/

namespace FangaOS.Ipc

open Tcb StepMachine FangaOS.Addr

structure SharedMemory where
  physAddr : PhysAddr
  size : Nat
  refCount : Nat
  attachedTasks : List TaskId
  deriving DecidableEq, Repr

namespace SharedMemory

def new (physAddr : PhysAddr) (size : Nat) : SharedMemory :=
  ⟨physAddr, size, 0, []⟩

def attach (segment : SharedMemory) (taskId : TaskId) : Except String Unit × SharedMemory :=
  if taskId ∉ segment.attachedTasks then
    (.ok (), { segment with
      attachedTasks := segment.attachedTasks ++ [taskId]
      refCount := segment.refCount + 1 })
  else (.ok (), segment)

def detach (segment : SharedMemory) (taskId : TaskId) : Except String Unit × SharedMemory :=
  match segment.attachedTasks.idxOf? taskId with
  | some pos =>
      let segment := { segment with attachedTasks := segment.attachedTasks.eraseIdx pos }
      if segment.refCount > 0 then (.ok (), { segment with refCount := segment.refCount - 1 })
      else (.ok (), segment)
  | none => (.ok (), segment)

def hasAttachments (segment : SharedMemory) : Bool :=
  segment.refCount > 0

end SharedMemory

inductive SharedOp
  | attach (taskId : TaskId)
  | detach (taskId : TaskId)
  deriving DecidableEq, Repr

def SharedMemory.step (segment : SharedMemory) : SharedOp → SharedMemory
  | .attach taskId => (segment.attach taskId).2
  | .detach taskId => (segment.detach taskId).2

def SharedMemory.run (segment : SharedMemory) (ops : List SharedOp) : SharedMemory :=
  StepMachine.run SharedMemory.step segment ops

def SharedOp.lastAttaches (taskId : TaskId) (ops : List SharedOp) : Bool :=
  (ops.filter fun op => op = .attach taskId ∨ op = .detach taskId).getLast? = some (.attach taskId)

theorem SharedOp.lastAttaches_concat (taskId : TaskId) (ops : List SharedOp) (op : SharedOp) :
    lastAttaches taskId (ops ++ [op]) =
      if op = .attach taskId then true else if op = .detach taskId then false
      else lastAttaches taskId ops := by
  unfold lastAttaches
  rw [List.filter_append]
  by_cases isAttach : op = .attach taskId
  · simp [isAttach]
  · by_cases isDetach : op = .detach taskId
    · simp [isDetach]
    · simp [isAttach, isDetach]

/-- The count is the number of attached tasks, and no task is attached twice. -/
structure SharedMemory.Counted (segment : SharedMemory) : Prop where
  refCount_eq : segment.refCount = segment.attachedTasks.length
  nodup : segment.attachedTasks.Nodup

theorem SharedMemory.attach_eq (segment : SharedMemory) (taskId : TaskId) :
    (segment.attach taskId).2 =
      if taskId ∈ segment.attachedTasks then segment
      else { segment with
        attachedTasks := segment.attachedTasks ++ [taskId]
        refCount := segment.refCount + 1 } := by
  unfold attach
  by_cases attached : taskId ∈ segment.attachedTasks <;> simp [attached]

theorem eraseIdx_eq_erase_of_idxOf? {α : Type} [DecidableEq α] :
    ∀ {items : List α} {item : α} {pos : Nat}, items.idxOf? item = some pos →
      items.eraseIdx pos = items.erase item
  | [], _, _, found => by simp at found
  | first :: rest, item, pos, found => by
      rw [List.idxOf?_cons] at found
      by_cases same : first = item
      · subst same
        simp only [beq_self_eq_true, if_true, Option.some.injEq] at found
        subst found
        simp
      · rw [if_neg (by simpa using same)] at found
        obtain ⟨inner, later, rfl⟩ := Option.map_eq_some_iff.mp found
        rw [List.eraseIdx_cons_succ, List.erase_cons_tail (by simpa using same),
          eraseIdx_eq_erase_of_idxOf? later]

theorem SharedMemory.Counted.detach_eq {segment : SharedMemory} (counted : segment.Counted)
    (taskId : TaskId) :
    (segment.detach taskId).2 =
      if taskId ∈ segment.attachedTasks then
        { segment with
          attachedTasks := segment.attachedTasks.erase taskId
          refCount := segment.refCount - 1 }
      else segment := by
  unfold detach
  cases found : segment.attachedTasks.idxOf? taskId with
  | none =>
      rw [List.idxOf?_eq_none_iff] at found
      simp [found]
  | some pos =>
      have attached : taskId ∈ segment.attachedTasks := List.isSome_idxOf?.mp (by simp [found])
      have positive : segment.refCount > 0 := by
        rw [counted.refCount_eq]
        exact List.length_pos_of_mem attached
      have erased := eraseIdx_eq_erase_of_idxOf? found
      simp [positive, erased, attached]

theorem SharedMemory.Counted.step {segment : SharedMemory} (counted : segment.Counted) (op : SharedOp) :
    (segment.step op).Counted := by
  cases op with
  | attach taskId =>
      rw [SharedMemory.step, attach_eq]
      split
      · exact counted
      · exact ⟨by simp [counted.refCount_eq], counted.nodup.append (List.nodup_singleton _)
          (by simpa using ‹_›)⟩
  | detach taskId =>
      rw [SharedMemory.step, counted.detach_eq]
      split
      · rename_i attached
        refine ⟨?_, counted.nodup.erase taskId⟩
        simp only [List.length_erase_of_mem attached, counted.refCount_eq]
      · exact counted

theorem SharedMemory.counted_run (physAddr : PhysAddr) (size : Nat) (ops : List SharedOp) :
    ((SharedMemory.new physAddr size).run ops).Counted :=
  Invariant.run (P := SharedMemory.Counted) (fun _ op counted => counted.step op)
    (s := SharedMemory.new physAddr size) ⟨rfl, List.nodup_nil⟩ ops

theorem SharedMemory.mem_step {segment : SharedMemory} (counted : segment.Counted) (op : SharedOp)
    (taskId : TaskId) :
    taskId ∈ (segment.step op).attachedTasks ↔
      if op = .attach taskId then True else if op = .detach taskId then False
      else taskId ∈ segment.attachedTasks := by
  cases op with
  | attach other =>
      rw [step, attach_eq]
      by_cases same : other = taskId
      · subst same
        split <;> simp_all
      · split <;> simp [same, Ne.symm same]
  | detach other =>
      rw [step, counted.detach_eq]
      by_cases same : other = taskId
      · subst same
        split
        · simp [List.Nodup.mem_erase_iff counted.nodup]
        · simp_all
      · split
        · simp [List.Nodup.mem_erase_iff counted.nodup, same, Ne.symm same]
        · simp [same]

/-- Along every run of a segment from `new`, its reference count is the
number of attached tasks, no task is attached twice, a task is attached exactly
when the last `attach` or `detach` naming it was an `attach`, and the segment
has attachments exactly when some task is attached. -/
theorem shared_memory_counts_attached_tasks (physAddr : PhysAddr) (size : Nat)
    (ops : List SharedOp) :
    let segment : SharedMemory := (SharedMemory.new physAddr size).run ops
    segment.refCount = segment.attachedTasks.length ∧ segment.attachedTasks.Nodup ∧
    (∀ taskId, taskId ∈ segment.attachedTasks ↔ SharedOp.lastAttaches taskId ops = true) ∧
    (segment.hasAttachments = true ↔ segment.attachedTasks ≠ []) := by
  intro segment
  have counted : segment.Counted := SharedMemory.counted_run physAddr size ops
  have attached : ∀ taskId, taskId ∈ segment.attachedTasks ↔ SharedOp.lastAttaches taskId ops = true := by
    intro taskId
    refine run_of_history (s := SharedMemory.new physAddr size)
      (P := fun done (current : SharedMemory) => current.Counted ∧
        (taskId ∈ current.attachedTasks ↔ SharedOp.lastAttaches taskId done = true))
      ⟨⟨rfl, List.nodup_nil⟩, by simp [SharedMemory.new, SharedOp.lastAttaches]⟩ ?_ ops |>.2
    rintro done current op ⟨currentCounted, before⟩
    refine ⟨currentCounted.step op, ?_⟩
    rw [SharedMemory.mem_step currentCounted, SharedOp.lastAttaches_concat]
    split
    · simp
    · split
      · simp
      · exact before
  refine ⟨counted.refCount_eq, counted.nodup, attached, ?_⟩
  unfold SharedMemory.hasAttachments
  rw [decide_eq_true_iff, counted.refCount_eq, gt_iff_lt, List.length_pos_iff]

end FangaOS.Ipc
