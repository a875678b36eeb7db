import Mathlib.Data.Finset.Max
import FangaOS.Lib.Run

/-! An allocator of the numbers below a bound that hands out the least free one. -/

structure FrameAllocator where
  total : ℕ
  free : Finset ℕ
  bounded : ∀ frame ∈ free, frame < total

namespace FrameAllocator

open StepMachine

@[ext] theorem ext {a b : FrameAllocator} (total : a.total = b.total) (free : a.free = b.free) :
    a = b := by
  cases a
  cases b
  cases total
  cases free
  rfl

def alloc (a : FrameAllocator) : Option ℕ × FrameAllocator :=
  if h : a.free.Nonempty then
    (some (a.free.min' h),
      { a with
        free := a.free.erase (a.free.min' h)
        bounded := fun frame member => a.bounded frame (Finset.mem_of_mem_erase member) })
  else (none, a)

def release (a : FrameAllocator) (frame : ℕ) : FrameAllocator :=
  if h : frame < a.total ∧ frame ∉ a.free then
    { a with
      free := insert frame a.free
      bounded := fun other member => (Finset.mem_insert.mp member).elim (· ▸ h.1) (a.bounded other) }
  else a

inductive Op
  | alloc
  | release (frame : ℕ)

def step (a : FrameAllocator) : Op → FrameAllocator
  | .alloc => a.alloc.2
  | .release frame => a.release frame

variable {a : FrameAllocator}

@[simp] theorem total_alloc (a : FrameAllocator) : a.alloc.2.total = a.total := by
  unfold alloc
  split <;> rfl

@[simp] theorem total_release (a : FrameAllocator) (frame : ℕ) :
    (a.release frame).total = a.total := by
  unfold release
  split <;> rfl

@[simp] theorem total_step (a : FrameAllocator) (op : Op) : (a.step op).total = a.total := by
  cases op <;> simp [step]

theorem total_run (a : FrameAllocator) (ops : List Op) : (run step a ops).total = a.total := by
  induction ops generalizing a with
  | nil => rfl
  | cons op ops ih => rw [run_cons, ih, total_step]

theorem alloc_eq_none_iff : a.alloc.1 = none ↔ a.free = ∅ := by
  unfold alloc
  split_ifs with nonempty
  · simp [Finset.nonempty_iff_ne_empty.mp nonempty]
  · simpa [Finset.not_nonempty_iff_eq_empty] using nonempty

theorem alloc_of_empty (empty : a.free = ∅) : a.alloc = (none, a) := by
  unfold alloc
  rw [dif_neg (by simp [empty])]

theorem alloc_of_some {frame : ℕ} (allocated : a.alloc.1 = some frame) :
    frame ∈ a.free ∧ (∀ other ∈ a.free, frame ≤ other) ∧ a.alloc.2.free = a.free.erase frame := by
  unfold alloc at allocated ⊢
  split_ifs at allocated ⊢ with nonempty
  cases allocated
  exact ⟨Finset.min'_mem _ _, fun other member => Finset.min'_le _ other member, rfl⟩

theorem alloc_of_least {frame : ℕ} (member : frame ∈ a.free)
    (least : ∀ other ∈ a.free, frame ≤ other) : a.alloc.1 = some frame := by
  unfold alloc
  rw [dif_pos ⟨frame, member⟩]
  exact congrArg some (le_antisymm (Finset.min'_le _ _ member) (least _ (Finset.min'_mem _ _)))

theorem free_release (a : FrameAllocator) (frame : ℕ) :
    (a.release frame).free = if frame < a.total then insert frame a.free else a.free := by
  unfold release
  split_ifs with fresh below below
  · rfl
  · exact absurd fresh.1 below
  · exact (Finset.insert_eq_of_mem (not_not.mp fun absent => fresh ⟨below, absent⟩)).symm
  · rfl

theorem alloc_ne_of_not_mem {frame : ℕ} (taken : frame ∉ a.free) : a.alloc.1 ≠ some frame :=
  fun allocated => taken (alloc_of_some allocated).1

theorem not_mem_step {frame : ℕ} (taken : frame ∉ a.free) {op : Op} (other : op ≠ .release frame) :
    frame ∉ (a.step op).free := by
  cases op with
  | alloc =>
      by_cases empty : a.free = ∅
      · rw [step, alloc_of_empty empty]
        exact taken
      · obtain ⟨frame', allocated⟩ := Option.ne_none_iff_exists'.mp (mt alloc_eq_none_iff.mp empty)
        rw [step, (alloc_of_some allocated).2.2]
        exact fun member => taken (Finset.mem_of_mem_erase member)
  | release released =>
      have different : frame ≠ released := fun same => other (same ▸ rfl)
      rw [step, free_release]
      split_ifs
      · exact fun member => (Finset.mem_insert.mp member).elim different taken
      · exact taken

theorem alloc_ne_of_run {frame : ℕ} (allocated : a.alloc.1 = some frame) (ops : List Op)
    (notReleased : Op.release frame ∉ ops) :
    (run step a.alloc.2 ops).alloc.1 ≠ some frame := by
  have taken : frame ∉ a.alloc.2.free := by
    rw [(alloc_of_some allocated).2.2]
    exact Finset.notMem_erase frame a.free
  suffices stays : ∀ ops : List Op, Op.release frame ∉ ops →
      ∀ b : FrameAllocator, frame ∉ b.free → frame ∉ (run step b ops).free from
    alloc_ne_of_not_mem (stays ops notReleased _ taken)
  intro ops
  induction ops with
  | nil => exact fun _ _ taken => taken
  | cons op ops ih =>
      intro absent b taken
      obtain ⟨other, rest⟩ := List.ne_and_not_mem_of_not_mem_cons absent
      exact ih rest _ (not_mem_step taken (Ne.symm other))

end FrameAllocator
