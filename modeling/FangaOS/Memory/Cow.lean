import Mathlib.Data.Finmap
import FangaOS.Lib.Run
import FangaOS.Lib.MapUpdate
import FangaOS.Lib.MachineInt
import FangaOS.Memory.Addr

/-! Copy-on-write reference counts of `memory/cow.rs`.  A `RefCount` is a `u64`
whose `increment` wraps and whose `decrement` saturates at zero. -/

namespace FangaOS.Cow

open StepMachine FangaOS.Addr

structure CowPageManager where
  refCounts : Finmap (fun _ : UInt64 => UInt64)

def decrement (count : UInt64) : UInt64 :=
  if count = 0 then 0 else count - 1

namespace CowPageManager

def new : CowPageManager :=
  ⟨∅⟩

/-- `mark_cow`: the count, or a fresh `RefCount::new()` of one, incremented;
the new count is returned. -/
def markCow (manager : CowPageManager) (physAddr : PhysAddr) : UInt64 × CowPageManager :=
  let addr := physAddr.asU64
  let count := (manager.refCounts.lookup addr).getD 1 + 1
  (count, ⟨manager.refCounts.insert addr count⟩)

def getRefCount (manager : CowPageManager) (physAddr : PhysAddr) : UInt64 :=
  (manager.refCounts.lookup physAddr.asU64).getD 0

/-- `release_cow`: the page is forgotten when its decremented count is zero. -/
def releaseCow (manager : CowPageManager) (physAddr : PhysAddr) : UInt64 × CowPageManager :=
  let addr := physAddr.asU64
  match manager.refCounts.lookup addr with
  | some count =>
      let newCount := decrement count
      if newCount == 0 then (newCount, ⟨manager.refCounts.erase addr⟩)
      else (newCount, ⟨manager.refCounts.insert addr newCount⟩)
  | none => (0, manager)

def isShared (manager : CowPageManager) (physAddr : PhysAddr) : Bool :=
  manager.getRefCount physAddr > 1

def addPage (manager : CowPageManager) (physAddr : PhysAddr) : CowPageManager :=
  ⟨manager.refCounts.insert physAddr.asU64 1⟩

end CowPageManager

inductive CowOp
  | markCow (physAddr : PhysAddr)
  | releaseCow (physAddr : PhysAddr)
  | addPage (physAddr : PhysAddr)
  deriving DecidableEq, Repr

def CowPageManager.step (manager : CowPageManager) : CowOp → CowPageManager
  | .markCow physAddr => (manager.markCow physAddr).2
  | .releaseCow physAddr => (manager.releaseCow physAddr).2
  | .addPage physAddr => manager.addPage physAddr

def CowPageManager.run (manager : CowPageManager) (ops : List CowOp) : CowPageManager :=
  StepMachine.run CowPageManager.step manager ops

namespace CowOp

/-- The number of `mark_cow` and of `release_cow` calls on a page. -/
def marks (page : PhysAddr) (ops : List CowOp) : Nat :=
  ops.countP (· = .markCow page)

def releases (page : PhysAddr) (ops : List CowOp) : Nat :=
  ops.countP (· = .releaseCow page)

end CowOp

namespace CowPageManager

variable (manager : CowPageManager)

theorem lookup_markCow (physAddr : PhysAddr) (addr : UInt64) :
    (manager.markCow physAddr).2.refCounts.lookup addr =
      if addr = physAddr.asU64 then some ((manager.refCounts.lookup addr).getD 1 + 1)
      else manager.refCounts.lookup addr := by
  unfold markCow
  rw [Finmap.lookup_insert_eq_ite]
  split
  · rename_i same
    rw [same]
  · rfl

theorem lookup_releaseCow (physAddr : PhysAddr) (addr : UInt64) :
    (manager.releaseCow physAddr).2.refCounts.lookup addr =
      if addr = physAddr.asU64 then
        (manager.refCounts.lookup addr).bind fun count =>
          if decrement count = 0 then none else some (decrement count)
      else manager.refCounts.lookup addr := by
  unfold releaseCow
  dsimp only
  cases found : manager.refCounts.lookup physAddr.asU64 with
  | none =>
      dsimp only
      split
      · rename_i same
        rw [same, found]
        rfl
      · rfl
  | some count =>
      dsimp only
      by_cases emptied : decrement count = 0
      · rw [if_pos (by simp [emptied]), Finmap.lookup_erase_eq_ite]
        split
        · rename_i same
          rw [same, found]
          simp [emptied]
        · rfl
      · rw [if_neg (by simp [emptied]), Finmap.lookup_insert_eq_ite]
        split
        · rename_i same
          rw [same, found]
          simp [emptied]
        · rfl

theorem lookup_addPage (physAddr : PhysAddr) (addr : UInt64) :
    (manager.addPage physAddr).refCounts.lookup addr =
      if addr = physAddr.asU64 then some 1 else manager.refCounts.lookup addr :=
  Finmap.lookup_insert_eq_ite _ _ _ _

theorem lookup_step_of_ne {op : CowOp} {page : PhysAddr}
    (other : op ≠ .markCow page ∧ op ≠ .releaseCow page ∧ op ≠ .addPage page) :
    (manager.step op).refCounts.lookup page.asU64 = manager.refCounts.lookup page.asU64 := by
  obtain ⟨notMark, notRelease, notAdd⟩ := other
  have apart : ∀ physAddr : PhysAddr, physAddr ≠ page → page.asU64 ≠ physAddr.asU64 :=
    fun physAddr different same => different (by cases physAddr; cases page; cases same; rfl)
  cases op with
  | markCow physAddr =>
      rw [step, lookup_markCow, if_neg (apart physAddr fun same => notMark (same ▸ rfl))]
  | releaseCow physAddr =>
      rw [step, lookup_releaseCow, if_neg (apart physAddr fun same => notRelease (same ▸ rfl))]
  | addPage physAddr =>
      rw [step, lookup_addPage, if_neg (apart physAddr fun same => notAdd (same ▸ rfl))]

end CowPageManager

namespace CowOp

variable (page : PhysAddr) (start : Nat)

theorem marks_concat (ops : List CowOp) (op : CowOp) :
    marks page (ops ++ [op]) = marks page ops + if op = .markCow page then 1 else 0 := by
  simp [marks, List.countP_append]

theorem releases_concat (ops : List CowOp) (op : CowOp) :
    releases page (ops ++ [op]) = releases page ops + if op = .releaseCow page then 1 else 0 := by
  simp [releases, List.countP_append]

/-- The count a page has after some calls from `start` sharers, if every mark
finds it tracked. -/
def expected (ops : List CowOp) : Nat :=
  start + marks page ops - releases page ops

/-- Every `mark_cow` of the page comes while it still has a sharer. -/
def MarkedWhileTracked (ops : List CowOp) : Prop :=
  ∀ index < ops.length, ops[index]? = some (.markCow page) →
    releases page (ops.take index) < start + marks page (ops.take index)

theorem MarkedWhileTracked.of_concat {ops : List CowOp} {op : CowOp}
    (marked : MarkedWhileTracked page start (ops ++ [op])) :
    MarkedWhileTracked page start ops ∧
      (op = .markCow page → releases page ops < start + marks page ops) := by
  constructor
  · intro index below found
    have again := marked index (by simp; omega) (by rw [List.getElem?_append_left below]; exact found)
    rwa [List.take_append_of_le_length below.le] at again
  · rintro rfl
    simpa using marked ops.length (by simp) (by simp)

end CowOp

/-- The page is tracked with the expected count, exactly while that is positive. -/
def Tracks (page : PhysAddr) (start : Nat) (ops : List CowOp) (manager : CowPageManager) : Prop :=
  manager.refCounts.lookup page.asU64 =
    if CowOp.expected page start ops = 0 then none else some (UInt64.ofNat (CowOp.expected page start ops))

theorem decrement_ofNat {count : Nat} (positive : 0 < count) (small : count < 2 ^ 64) :
    decrement (UInt64.ofNat count) = UInt64.ofNat (count - 1) := by
  rw [decrement, if_neg (fun zero => absurd ((UInt64.ofNat_eq_zero_iff small).mp zero) (by omega)),
    UInt64.ofNat_sub_one positive small]

theorem Tracks.step {page : PhysAddr} {start : Nat} {ops : List CowOp} {manager : CowPageManager}
    (tracks : Tracks page start ops manager) {op : CowOp} (notAdd : op ≠ .addPage page)
    (markTracked : op = .markCow page → CowOp.releases page ops < start + CowOp.marks page ops)
    (fewerSharers : start + CowOp.marks page (ops ++ [op]) < 2 ^ 64) :
    Tracks page start (ops ++ [op]) (manager.step op) := by
  unfold Tracks CowOp.expected at *
  rw [CowOp.marks_concat] at fewerSharers
  rw [CowOp.marks_concat, CowOp.releases_concat]
  by_cases isMark : op = .markCow page
  · -- a mark finds the page tracked and adds one sharer
    subst isMark
    have below := markTracked rfl
    rw [if_neg (by omega)] at tracks
    simp only [CowPageManager.step, CowPageManager.lookup_markCow, tracks, if_true, reduceCtorEq,
      if_false, Option.getD_some, add_zero]
    rw [if_neg (by omega), UInt64.ofNat_add_one]
    congr 2
    omega
  · by_cases isRelease : op = .releaseCow page
    · -- a release takes one sharer away, and forgets the page at the last one
      subst isRelease
      rw [CowPageManager.step, CowPageManager.lookup_releaseCow, if_pos rfl, tracks, if_neg isMark,
        if_pos rfl]
      split
      · rename_i emptied
        rw [if_pos (by omega)]
        rfl
      · rename_i positive
        have small : start + CowOp.marks page ops - CowOp.releases page ops < 2 ^ 64 := by
          rw [if_neg isMark] at fewerSharers
          omega
        rw [Option.bind_some, decrement_ofNat (Nat.pos_of_ne_zero positive) small]
        by_cases last : start + CowOp.marks page ops - CowOp.releases page ops - 1 = 0
        · rw [if_pos ((UInt64.ofNat_eq_zero_iff (by omega)).mpr last), if_pos (by omega)]
        · rw [if_neg (fun zero => last ((UInt64.ofNat_eq_zero_iff (by omega)).mp zero)), if_neg (by omega)]
          congr 2
    · rw [CowPageManager.lookup_step_of_ne _ ⟨isMark, isRelease, notAdd⟩, tracks, if_neg isMark,
        if_neg isRelease]
      rfl

/-- From a state that tracks a page, as long as every `mark_cow` of the page
comes while the page is still tracked and nothing calls `add_page` on it, the
count of the page is its starting count plus the marks minus the releases, and
the page is tracked exactly while that is positive: the release that takes the
last sharer away stops tracking it, and later releases leave it at zero. -/
theorem cow_counts_track_references (manager : CowPageManager) (page : PhysAddr)
    (ops : List CowOp) (tracked : 0 < manager.getRefCount page) (notAdded : CowOp.addPage page ∉ ops)
    (markedWhileTracked : ∀ index < ops.length, ops[index]? = some (CowOp.markCow page) →
      CowOp.releases page (ops.take index) <
        (manager.getRefCount page).toNat + CowOp.marks page (ops.take index))
    (fewerSharers : (manager.getRefCount page).toNat + CowOp.marks page ops < 2 ^ 64) :
    (manager.run ops).refCounts.lookup page.asU64 =
      if (manager.getRefCount page).toNat + CowOp.marks page ops - CowOp.releases page ops = 0 then none
      else some (UInt64.ofNat ((manager.getRefCount page).toNat + CowOp.marks page ops -
        CowOp.releases page ops)) := by
  have initial : Tracks page (manager.getRefCount page).toNat [] manager := by
    unfold Tracks CowOp.expected CowOp.marks CowOp.releases
    unfold CowPageManager.getRefCount at tracked ⊢
    cases found : manager.refCounts.lookup page.asU64 with
    | none => rw [found] at tracked; exact absurd tracked (lt_irrefl 0)
    | some count =>
        rw [found, Option.getD_some] at tracked
        have positive : count.toNat ≠ 0 := by
          rw [UInt64.lt_iff_toNat_lt] at tracked
          exact Nat.pos_iff_ne_zero.mp tracked
        simp [positive]
  -- the count is as expected after every prefix of the calls that meets the hypotheses
  refine run_of_history (s := manager) (P := fun done (current : CowPageManager) =>
    CowOp.addPage page ∉ done → CowOp.MarkedWhileTracked page (manager.getRefCount page).toNat done →
      (manager.getRefCount page).toNat + CowOp.marks page done < 2 ^ 64 →
      Tracks page (manager.getRefCount page).toNat done current)
    (fun _ _ _ => initial) ?_ ops notAdded markedWhileTracked fewerSharers
  intro done current op before notAddedAfter markedAfter fewerAfter
  obtain ⟨markedBefore, markTracked⟩ := markedAfter.of_concat
  have notAdd : op ≠ .addPage page := fun same => notAddedAfter (List.mem_append_right _ (by simp [same]))
  have fewerBefore : (manager.getRefCount page).toNat + CowOp.marks page done < 2 ^ 64 := by
    rw [CowOp.marks_concat] at fewerAfter
    omega
  exact (before (fun member => notAddedAfter (List.mem_append_left _ member)) markedBefore fewerBefore).step
    notAdd markTracked fewerAfter

/-- A page added once and marked once is forgotten by its second release, while
a mark of another page in between changes nothing. -/
theorem cow_second_release_forgets_page :
    ((CowPageManager.new.addPage ⟨0x1000⟩).run
      [.markCow ⟨0x1000⟩, .markCow ⟨0x2000⟩, .releaseCow ⟨0x1000⟩, .releaseCow ⟨0x1000⟩]).refCounts.lookup
      (0x1000 : UInt64) = none := by
  rw [cow_counts_track_references (CowPageManager.new.addPage ⟨0x1000⟩) ⟨0x1000⟩
    [.markCow ⟨0x1000⟩, .markCow ⟨0x2000⟩, .releaseCow ⟨0x1000⟩, .releaseCow ⟨0x1000⟩]
    (by decide) (by decide) (by decide) (by decide)]
  decide

end FangaOS.Cow
