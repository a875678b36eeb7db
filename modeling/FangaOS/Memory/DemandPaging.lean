import Mathlib.Data.Finmap
import FangaOS.Lib.Run
import FangaOS.Lib.LruOrder
import FangaOS.Memory.Addr

/-! The LRU page manager of `memory/demand_paging.rs`, refining `LruOrder`.
`DemandPagingManager` is not modelled. -/

namespace FangaOS.DemandPaging

open StepMachine FangaOS.Addr LruOrder

structure LruPage where
  virtAddr : UInt64
  physAddr : UInt64
  accessCount : Nat
  deriving DecidableEq, Repr

structure LruPageManager where
  pageQueue : List LruPage
  pageMap : Finmap (fun _ : UInt64 => Nat)
  maxPages : Nat

def LruPageManager.new (maxPages : Nat) : LruPageManager :=
  { pageQueue := [], pageMap := ∅, maxPages := maxPages }

/-- The loop of `rebuild_map` from position `index` on: each page's address
is mapped to its position, a later page overwriting an earlier one. -/
def insertPositions : Nat → List LruPage → Finmap (fun _ : UInt64 => Nat) →
    Finmap (fun _ : UInt64 => Nat)
  | _, [], map => map
  | index, page :: rest, map => insertPositions (index + 1) rest (map.insert page.virtAddr index)

/-- `rebuild_map`: clear the map and index the queue. -/
def LruPageManager.rebuildMap (manager : LruPageManager) : LruPageManager :=
  { manager with pageMap := insertPositions 0 manager.pageQueue ∅ }

/-- `access_page`: the page moves to the back, a new one after the front page is
evicted from a full queue. -/
def LruPageManager.accessPage (manager : LruPageManager) (virtAddr : VirtAddr)
    (physAddr : PhysAddr) : LruPageManager :=
  let virt := virtAddr.asU64
  let phys := physAddr.asU64
  match manager.pageMap.lookup virt with
  | some index =>
      match manager.pageQueue[index]? with
      | some page =>
          { manager with
            pageQueue := manager.pageQueue.eraseIdx index ++
              [{ page with accessCount := page.accessCount + 1 }] }.rebuildMap
      | none => manager
  | none =>
      let manager :=
        if manager.pageQueue.length ≥ manager.maxPages then
          match manager.pageQueue with
          | removed :: rest =>
              { manager with pageQueue := rest, pageMap := manager.pageMap.erase removed.virtAddr }
          | [] => manager
        else manager
      let page : LruPage := { virtAddr := virt, physAddr := phys, accessCount := 1 }
      { manager with pageQueue := manager.pageQueue ++ [page] }.rebuildMap

/-- `remove_page`: drop a tracked page from the queue and the map. -/
def LruPageManager.removePage (manager : LruPageManager) (virtAddr : VirtAddr) :
    LruPageManager :=
  let virt := virtAddr.asU64
  match manager.pageMap.lookup virt with
  | some index =>
      { manager with
        pageQueue := manager.pageQueue.eraseIdx index
        pageMap := manager.pageMap.erase virt }.rebuildMap
  | none => manager

inductive LruOp
  | accessPage (virtAddr : VirtAddr) (physAddr : PhysAddr)
  | removePage (virtAddr : VirtAddr)

def LruPageManager.step (manager : LruPageManager) : LruOp → LruPageManager
  | .accessPage virtAddr physAddr => manager.accessPage virtAddr physAddr
  | .removePage virtAddr => manager.removePage virtAddr

/-- What each call means to the abstract order. -/
def LruOp.event : LruOp → Event UInt64
  | .accessPage virtAddr _ => .touch virtAddr.asU64
  | .removePage virtAddr => .forget virtAddr.asU64

def LruPageManager.tracked (manager : LruPageManager) : List UInt64 :=
  manager.pageQueue.map LruPage.virtAddr

/-! ### The rebuilt index -/

theorem lookup_insertPositions {queue : List LruPage}
    (distinct : (queue.map LruPage.virtAddr).Nodup) (start : Nat)
    (map : Finmap (fun _ : UInt64 => Nat)) (virt : UInt64) :
    (insertPositions start queue map).lookup virt =
      if virt ∈ queue.map LruPage.virtAddr then
        some (start + (queue.map LruPage.virtAddr).idxOf virt)
      else map.lookup virt := by
  induction queue generalizing start map with
  | nil => simp [insertPositions]
  | cons page rest ih =>
      rw [List.map_cons, List.nodup_cons] at distinct
      simp only [insertPositions, ih distinct.2, List.map_cons, List.mem_cons]
      by_cases atHead : virt = page.virtAddr
      · subst atHead
        simp [distinct.1, List.idxOf_cons_self, Finmap.lookup_insert]
      · by_cases inRest : virt ∈ rest.map LruPage.virtAddr
        · simp only [inRest, atHead, or_true, if_true, List.idxOf_cons_ne _ (Ne.symm atHead)]
          congr 1
          omega
        · simp [inRest, atHead, Finmap.lookup_insert_of_ne _ atHead]

theorem lookup_rebuilt_iff {queue : List LruPage}
    (distinct : (queue.map LruPage.virtAddr).Nodup) (virt : UInt64) (index : Nat) :
    (insertPositions 0 queue ∅).lookup virt = some index ↔
      (queue.map LruPage.virtAddr)[index]? = some virt := by
  rw [lookup_insertPositions distinct]
  constructor
  · intro found
    by_cases member : virt ∈ queue.map LruPage.virtAddr
    · rw [if_pos member, Nat.zero_add, Option.some.injEq] at found
      subst found
      exact List.getElem?_eq_some_iff.mpr ⟨List.idxOf_lt_length_of_mem member,
        List.getElem_idxOf (List.idxOf_lt_length_of_mem member)⟩
    · rw [if_neg member] at found
      cases found
  · intro atIndex
    obtain ⟨inBounds, getAt⟩ := List.getElem?_eq_some_iff.mp atIndex
    have member : virt ∈ queue.map LruPage.virtAddr := getAt ▸ List.getElem_mem inBounds
    rw [if_pos member, Nat.zero_add, ← getAt, distinct.idxOf_getElem]

/-! ### Refinement of the abstract order -/

/-- The map is the index of the queue, and the queue tracks each address once. -/
structure LruPageManager.Indexed (manager : LruPageManager) : Prop where
  nodup : manager.tracked.Nodup
  mapRebuilt : manager.pageMap = insertPositions 0 manager.pageQueue ∅

theorem LruPageManager.lookup_iff {manager : LruPageManager} (indexed : manager.Indexed)
    (virt : UInt64) (index : Nat) :
    manager.pageMap.lookup virt = some index ↔ manager.tracked[index]? = some virt := by
  rw [indexed.mapRebuilt]
  exact lookup_rebuilt_iff indexed.nodup virt index

theorem LruPageManager.lookup_eq_none {manager : LruPageManager} (indexed : manager.Indexed)
    {virt : UInt64} (missing : manager.pageMap.lookup virt = none) : virt ∉ manager.tracked := by
  intro member
  obtain ⟨index, inBounds, getAt⟩ := List.getElem_of_mem member
  have found := (manager.lookup_iff indexed virt index).mpr (List.getElem?_eq_some_iff.mpr
    ⟨inBounds, getAt⟩)
  rw [missing] at found
  cases found

end FangaOS.DemandPaging
