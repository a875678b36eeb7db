import Mathlib
import FangaOS.Lib.Run
import FangaOS.Memory.Addr
import FangaOS.Memory.PageTable

/-! Guard pages and protected regions of `memory/protection.rs`.  The `BTreeSet`
is a `Finset`; the protection constants and region names are read by no call
and are left out. -/

namespace FangaOS.Protection

open StepMachine FangaOS.Addr FangaOS.Paging

structure GuardPageManager where
  guardPages : Finset UInt64
  deriving DecidableEq

namespace GuardPageManager

def new : GuardPageManager :=
  ⟨∅⟩

def addGuardPage (manager : GuardPageManager) (addr : VirtAddr) : Except String GuardPageManager :=
  if !addr.isAligned pageSize.toUInt64 then .error "Address must be page-aligned"
  else .ok ⟨insert addr.asU64 manager.guardPages⟩

def removeGuardPage (manager : GuardPageManager) (addr : VirtAddr) : GuardPageManager :=
  ⟨manager.guardPages.erase addr.asU64⟩

def isGuardPage (manager : GuardPageManager) (addr : VirtAddr) : Bool :=
  decide (addr.asU64 &&& ~~~(pageSize.toUInt64 - 1) ∈ manager.guardPages)

def count (manager : GuardPageManager) : Nat :=
  manager.guardPages.card

theorem addGuardPage_eq (manager : GuardPageManager) (addr : VirtAddr) :
    manager.addGuardPage addr =
      if addr.asU64.toNat % pageSize = 0 then .ok ⟨insert addr.asU64 manager.guardPages⟩
      else .error "Address must be page-aligned" := by
  unfold addGuardPage
  rw [VirtAddr.isAligned_pageSize]
  by_cases aligned : addr.asU64.toNat % pageSize = 0 <;> simp [aligned]

def Aligned (manager : GuardPageManager) : Prop :=
  ∀ page ∈ manager.guardPages, page.toNat % pageSize = 0

theorem isGuardPage_eq (manager : GuardPageManager) (addr : VirtAddr) :
    manager.isGuardPage addr = decide (alignDown addr.asU64 pageSize.toUInt64 ∈ manager.guardPages) :=
  rfl

theorem isGuardPage_iff {manager : GuardPageManager} (aligned : manager.Aligned) (addr : VirtAddr) :
    manager.isGuardPage addr = true ↔
      ∃ page ∈ manager.guardPages, page.toNat ≤ addr.asU64.toNat ∧
        addr.asU64.toNat < page.toNat + pageSize := by
  have masked := toNat_alignDown addr.asU64
  rw [isGuardPage_eq, decide_eq_true_iff]
  constructor
  · intro member
    refine ⟨_, member, ?_⟩
    rw [masked]
    unfold pageSize
    omega
  · rintro ⟨page, member, above, below⟩
    have onPage : alignDown addr.asU64 pageSize.toUInt64 = page := by
      have pageAligned := aligned page member
      rw [← UInt64.toNat_inj, masked]
      unfold pageSize at *
      omega
    rwa [onPage]

end GuardPageManager

inductive GuardOp
  | add (addr : VirtAddr)
  | remove (addr : VirtAddr)
  deriving DecidableEq, Repr

/-- A refused `add_guard_page` leaves the manager as it was. -/
def GuardPageManager.step (manager : GuardPageManager) : GuardOp → GuardPageManager
  | .add addr =>
      match manager.addGuardPage addr with
      | .ok next => next
      | .error _ => manager
  | .remove addr => manager.removeGuardPage addr

def GuardPageManager.run (manager : GuardPageManager) (ops : List GuardOp) : GuardPageManager :=
  StepMachine.run GuardPageManager.step manager ops

namespace GuardOp

def names (page : UInt64) : GuardOp → Bool
  | .add addr | .remove addr => addr.asU64 = page

def isAdd : GuardOp → Bool
  | .add _ => true
  | .remove _ => false

/-- Whether the last call that names `page` is an `add_guard_page`. -/
def lastAdds (page : UInt64) (ops : List GuardOp) : Bool :=
  ((ops.filter (names page)).getLast?.map isAdd).getD false

theorem lastAdds_concat (page : UInt64) (ops : List GuardOp) (op : GuardOp) :
    lastAdds page (ops ++ [op]) = if op.names page then op.isAdd else lastAdds page ops := by
  unfold lastAdds
  rw [List.filter_append, List.filter_singleton]
  cases named : op.names page <;> simp

end GuardOp

namespace GuardPageManager

theorem mem_step {manager : GuardPageManager} {page : UInt64} (pageAligned : page.toNat % pageSize = 0)
    (op : GuardOp) :
    page ∈ (manager.step op).guardPages ↔
      if op.names page then op.isAdd = true else page ∈ manager.guardPages := by
  cases op with
  | add addr =>
      simp only [step, addGuardPage_eq, GuardOp.names, GuardOp.isAdd, decide_eq_true_eq]
      by_cases aligned : addr.asU64.toNat % pageSize = 0
      · rw [if_pos aligned]
        by_cases same : addr.asU64 = page
        · simp [same]
        · simp [same, Ne.symm same]
      · have different : addr.asU64 ≠ page := fun same => aligned (same ▸ pageAligned)
        simp [aligned, different]
  | remove addr =>
      simp only [step, removeGuardPage, GuardOp.names, GuardOp.isAdd, decide_eq_true_eq]
      by_cases same : addr.asU64 = page
      · simp [same]
      · simp [Finset.mem_erase, same, Ne.symm same]

theorem aligned_step : Invariant GuardPageManager.step Aligned := by
  intro manager op aligned page member
  cases op with
  | add addr =>
      by_cases addrAligned : addr.asU64.toNat % pageSize = 0
      · simp only [step, addGuardPage_eq, if_pos addrAligned] at member
        rcases Finset.mem_insert.mp member with rfl | old
        · exact addrAligned
        · exact aligned page old
      · simp only [step, addGuardPage_eq, if_neg addrAligned] at member
        exact aligned page member
  | remove addr => exact aligned page (Finset.mem_of_mem_erase member)

theorem aligned_run (ops : List GuardOp) : (new.run ops).Aligned :=
  aligned_step.run (fun page member => by simp [new] at member) ops

theorem mem_run (ops : List GuardOp) {page : UInt64} (pageAligned : page.toNat % pageSize = 0) :
    page ∈ (new.run ops).guardPages ↔ GuardOp.lastAdds page ops = true := by
  refine run_of_history (P := fun done (current : GuardPageManager) =>
    page ∈ current.guardPages ↔ GuardOp.lastAdds page done = true)
    (by simp [new, GuardOp.lastAdds]) ?_ ops
  intro done current op before
  rw [mem_step pageAligned, GuardOp.lastAdds_concat]
  split
  · rfl
  · exact before

end GuardPageManager

/-- After any calls on a fresh manager, every guard page is page-aligned, and
`is_guard_page` holds of an address exactly when the last call that named its
page was an `add_guard_page`, that is, when the address lies inside a page that
was added and not removed since. -/
theorem guard_pages_follow_last_call (ops : List GuardOp) (addr : VirtAddr) :
    let manager : GuardPageManager := GuardPageManager.new.run ops
    manager.Aligned ∧
    manager.isGuardPage addr = GuardOp.lastAdds (alignDown addr.asU64 pageSize.toUInt64) ops ∧
    (manager.isGuardPage addr = true ↔
      ∃ page ∈ manager.guardPages, page.toNat ≤ addr.asU64.toNat ∧
        addr.asU64.toNat < page.toNat + pageSize) := by
  intro manager
  have aligned : manager.Aligned := GuardPageManager.aligned_run ops
  refine ⟨aligned, ?_, GuardPageManager.isGuardPage_iff aligned addr⟩
  rw [GuardPageManager.isGuardPage_eq, Bool.eq_iff_iff, decide_eq_true_iff]
  exact GuardPageManager.mem_run ops (toNat_alignDown_mod _)

structure MemoryProtection where
  read : Bool
  write : Bool
  exec : Bool
  deriving DecidableEq, Repr

namespace MemoryProtection

def toPageFlags (protection : MemoryProtection) : PageTableFlags :=
  let flags := PageTableFlags.present
  let flags := if protection.write then flags.withFlag .writable else flags
  if !protection.exec then flags.withFlag .noExecute else flags

def allowsRead (protection : MemoryProtection) : Bool :=
  protection.read

def allowsWrite (protection : MemoryProtection) : Bool :=
  protection.write

def allowsExec (protection : MemoryProtection) : Bool :=
  protection.exec

/-- Every access needs read permission, a write write permission and a fetch exec
permission. -/
def permits (protection : MemoryProtection) (write exec : Bool) : Bool :=
  (!write || protection.write) && (!exec || protection.exec) && protection.read

end MemoryProtection

structure ProtectedRegion where
  start : VirtAddr
  size : UInt64
  protection : MemoryProtection

def ProtectedRegion.contains (region : ProtectedRegion) (addr : VirtAddr) : Bool :=
  let addrVal := addr.asU64
  let startVal := region.start.asU64
  let endVal := startVal + region.size
  addrVal ≥ startVal && addrVal < endVal

/-- The addresses a region spans; a region whose end wraps spans nothing. -/
def ProtectedRegion.Covers (region : ProtectedRegion) (x : Nat) : Prop :=
  region.start.asU64.toNat ≤ x ∧ x < region.start.asU64.toNat + region.size.toNat ∧
    region.start.asU64.toNat + region.size.toNat < 2 ^ 64

theorem ProtectedRegion.contains_iff (region : ProtectedRegion) (addr : VirtAddr) :
    region.contains addr = true ↔ region.Covers addr.asU64.toNat := by
  unfold contains Covers
  rw [Bool.and_eq_true, decide_eq_true_eq, decide_eq_true_eq, ge_iff_le, UInt64.le_iff_toNat_le,
    UInt64.lt_iff_toNat_lt, UInt64.toNat_add]
  have sizeBound := region.size.toNat_lt
  have startBound := region.start.asU64.toNat_lt
  omega

structure MemoryProtectionManager where
  guardPages : GuardPageManager
  regions : List ProtectedRegion

namespace MemoryProtectionManager

def new : MemoryProtectionManager :=
  ⟨GuardPageManager.new, []⟩

def addGuardPage (manager : MemoryProtectionManager) (addr : VirtAddr) :
    Except String MemoryProtectionManager :=
  (manager.guardPages.addGuardPage addr).map fun guardPages => { manager with guardPages }

def isGuardPage (manager : MemoryProtectionManager) (addr : VirtAddr) : Bool :=
  manager.guardPages.isGuardPage addr

def addRegion (manager : MemoryProtectionManager) (region : ProtectedRegion) :
    MemoryProtectionManager :=
  { manager with regions := manager.regions ++ [region] }

def findRegion (manager : MemoryProtectionManager) (addr : VirtAddr) : Option ProtectedRegion :=
  manager.regions.find? (·.contains addr)

def checkAccess (manager : MemoryProtectionManager) (addr : VirtAddr) (write exec : Bool) : Bool :=
  if manager.isGuardPage addr then false
  else
    match manager.findRegion addr with
    | some region =>
        if write && !region.protection.allowsWrite then false
        else if exec && !region.protection.allowsExec then false
        else if !region.protection.allowsRead then false
        else true
    | none => false

theorem checkAccess_eq (manager : MemoryProtectionManager) (addr : VirtAddr) (write exec : Bool) :
    manager.checkAccess addr write exec =
      (!manager.isGuardPage addr &&
        (manager.findRegion addr).any fun region => region.protection.permits write exec) := by
  unfold checkAccess
  cases manager.isGuardPage addr with
  | true => rfl
  | false =>
      cases manager.findRegion addr with
      | none => rfl
      | some region =>
          obtain ⟨start, size, read, writable, executable⟩ := region
          cases read <;> cases writable <;> cases executable <;> cases write <;> cases exec <;> rfl

theorem findRegion_eq_some_iff (manager : MemoryProtectionManager) (addr : VirtAddr)
    (region : ProtectedRegion) :
    manager.findRegion addr = some region ↔
      ∃ before after, manager.regions = before ++ region :: after ∧
        (∀ earlier ∈ before, ¬ earlier.Covers addr.asU64.toNat) ∧ region.Covers addr.asU64.toNat := by
  unfold findRegion
  rw [List.find?_eq_some_iff_append, ProtectedRegion.contains_iff]
  constructor
  · rintro ⟨covers, before, after, split, skipped⟩
    refine ⟨before, after, split, fun earlier member => ?_, covers⟩
    rw [← ProtectedRegion.contains_iff]
    simpa using skipped earlier member
  · rintro ⟨before, after, split, skipped, covers⟩
    refine ⟨covers, before, after, split, fun earlier member => ?_⟩
    have notContained : ¬ earlier.contains addr = true := by
      rw [ProtectedRegion.contains_iff]
      exact skipped earlier member
    simpa using notContained

end MemoryProtectionManager

inductive ProtectionOp
  | addGuardPage (addr : VirtAddr)
  | addRegion (region : ProtectedRegion)

/-- A refused `add_guard_page` leaves the manager as it was. -/
def MemoryProtectionManager.step (manager : MemoryProtectionManager) :
    ProtectionOp → MemoryProtectionManager
  | .addGuardPage addr =>
      match manager.addGuardPage addr with
      | .ok next => next
      | .error _ => manager
  | .addRegion region => manager.addRegion region

def MemoryProtectionManager.run (manager : MemoryProtectionManager) (ops : List ProtectionOp) :
    MemoryProtectionManager :=
  StepMachine.run MemoryProtectionManager.step manager ops

def ProtectionOp.addedRegion : ProtectionOp → Option ProtectedRegion
  | .addGuardPage _ => none
  | .addRegion region => some region

namespace MemoryProtectionManager

theorem step_eq (manager : MemoryProtectionManager) (op : ProtectionOp) :
    manager.step op =
      match op with
      | .addGuardPage addr => { manager with guardPages := manager.guardPages.step (.add addr) }
      | .addRegion region => { manager with regions := manager.regions ++ [region] } := by
  cases op with
  | addGuardPage addr =>
      simp only [step, addGuardPage, GuardPageManager.step]
      cases manager.guardPages.addGuardPage addr <;> rfl
  | addRegion region => rfl

theorem run_eq (ops : List ProtectionOp) :
    (∀ page, page ∈ (new.run ops).guardPages.guardPages ↔
      ∃ addr, .addGuardPage addr ∈ ops ∧ addr.asU64.toNat % pageSize = 0 ∧ addr.asU64 = page) ∧
    (new.run ops).regions = ops.filterMap ProtectionOp.addedRegion := by
  refine run_of_history (s := new) (P := fun done (current : MemoryProtectionManager) =>
    (∀ page, page ∈ current.guardPages.guardPages ↔
      ∃ addr, .addGuardPage addr ∈ done ∧ addr.asU64.toNat % pageSize = 0 ∧ addr.asU64 = page) ∧
    current.regions = done.filterMap ProtectionOp.addedRegion)
    ⟨fun page => by simp [new, GuardPageManager.new], rfl⟩ ?_ ops
  rintro done current op ⟨guarded, regions⟩
  rw [step_eq, List.filterMap_append]
  cases op with
  | addGuardPage added =>
      refine ⟨fun page => ?_, by simpa [List.filterMap_cons, ProtectionOp.addedRegion] using regions⟩
      simp only [GuardPageManager.step, GuardPageManager.addGuardPage_eq]
      by_cases aligned : added.asU64.toNat % pageSize = 0
      · simp only [if_pos aligned, Finset.mem_insert, guarded, List.mem_append, List.mem_singleton,
          ProtectionOp.addGuardPage.injEq]
        constructor
        · rintro (rfl | ⟨addr, member, addrAligned, rfl⟩)
          · exact ⟨added, Or.inr rfl, aligned, rfl⟩
          · exact ⟨addr, Or.inl member, addrAligned, rfl⟩
        · rintro ⟨addr, member | rfl, addrAligned, rfl⟩
          · exact Or.inr ⟨addr, member, addrAligned, rfl⟩
          · exact Or.inl rfl
      · simp only [if_neg aligned, guarded, List.mem_append, List.mem_singleton,
          ProtectionOp.addGuardPage.injEq]
        constructor
        · rintro ⟨addr, member, addrAligned, rfl⟩
          exact ⟨addr, Or.inl member, addrAligned, rfl⟩
        · rintro ⟨addr, member | rfl, addrAligned, rfl⟩
          · exact ⟨addr, member, addrAligned, rfl⟩
          · exact absurd addrAligned aligned
  | addRegion region =>
      refine ⟨fun page => ?_, by simp [ProtectionOp.addedRegion, regions]⟩
      simp [guarded]

end MemoryProtectionManager

/-- After any calls on a fresh protection manager, `check_access` lets an
access to an address through exactly when no accepted `add_guard_page` named
the page the address lies in, and the first added region that spans the address
permits the access: read permission for every access, write and exec permission
when asked.  An address that no region spans is denied. -/
theorem check_access_first_covering_region (ops : List ProtectionOp) (addr : VirtAddr)
    (write exec : Bool) :
    (MemoryProtectionManager.new.run ops).checkAccess addr write exec = true ↔
      (∀ guard, .addGuardPage guard ∈ ops → guard.asU64.toNat % pageSize = 0 →
        ¬ (guard.asU64.toNat ≤ addr.asU64.toNat ∧ addr.asU64.toNat < guard.asU64.toNat + pageSize)) ∧
      ∃ before region after, ops.filterMap ProtectionOp.addedRegion = before ++ region :: after ∧
        (∀ earlier ∈ before, ¬ earlier.Covers addr.asU64.toNat) ∧ region.Covers addr.asU64.toNat ∧
        region.protection.permits write exec = true := by
  obtain ⟨guarded, regions⟩ := MemoryProtectionManager.run_eq ops
  have aligned : (MemoryProtectionManager.new.run ops).guardPages.Aligned := by
    intro page member
    obtain ⟨addr, -, addrAligned, rfl⟩ := (guarded page).mp member
    exact addrAligned
  have onGuard : (MemoryProtectionManager.new.run ops).isGuardPage addr = true ↔
      ∃ guard, .addGuardPage guard ∈ ops ∧ guard.asU64.toNat % pageSize = 0 ∧
        guard.asU64.toNat ≤ addr.asU64.toNat ∧ addr.asU64.toNat < guard.asU64.toNat + pageSize := by
    unfold MemoryProtectionManager.isGuardPage
    rw [GuardPageManager.isGuardPage_iff aligned]
    constructor
    · rintro ⟨page, member, inside⟩
      obtain ⟨guard, added, guardAligned, rfl⟩ := (guarded page).mp member
      exact ⟨guard, added, guardAligned, inside⟩
    · rintro ⟨guard, added, guardAligned, inside⟩
      exact ⟨guard.asU64, (guarded _).mpr ⟨guard, added, guardAligned, rfl⟩, inside⟩
  rw [MemoryProtectionManager.checkAccess_eq, Bool.and_eq_true, Bool.not_eq_true', ← Bool.not_eq_true,
    onGuard, Option.any_eq_true]
  simp only [MemoryProtectionManager.findRegion_eq_some_iff, regions]
  constructor
  · rintro ⟨free, region, ⟨before, after, split, skipped, covers⟩, permitted⟩
    exact ⟨fun guard added guardAligned inside => free ⟨guard, added, guardAligned, inside⟩,
      before, region, after, split, skipped, covers, permitted⟩
  · rintro ⟨free, before, region, after, split, skipped, covers, permitted⟩
    exact ⟨fun ⟨guard, added, guardAligned, inside⟩ => free guard added guardAligned inside,
      region, ⟨before, after, split, skipped, covers⟩, permitted⟩

end FangaOS.Protection
