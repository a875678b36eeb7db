import Mathlib.Data.Finmap
import FangaOS.Lib.Run
import FangaOS.Memory.Addr

/-! The swap-slot manager of `memory/swap.rs`: a stack of free slots, a map of
swapped pages and a map from slot to page data. -/

namespace FangaOS.Swap

open StepMachine FangaOS.Addr

abbrev SwapSlot := Nat

structure SwapEntry where
  virtAddr : UInt64
  slot : SwapSlot
  size : Nat
  deriving DecidableEq, Repr

structure SwapManager where
  totalSlots : Nat
  freeSlots : List SwapSlot
  swappedPages : Finmap (fun _ : UInt64 => SwapEntry)
  swapStorage : Finmap (fun _ : SwapSlot => List UInt8)

/-- `SwapManager::new`: slots `0, ..., num_slots - 1` are free, pushed in order. -/
def SwapManager.new (numSlots : Nat) : SwapManager :=
  { totalSlots := numSlots
    freeSlots := List.range numSlots
    swappedPages := ∅
    swapStorage := ∅ }

/-- `alloc_slot`: `Vec::pop` takes the most recently pushed free slot. -/
def SwapManager.allocSlot (manager : SwapManager) : Option SwapSlot × SwapManager :=
  match manager.freeSlots.getLast? with
  | none => (none, manager)
  | some slot => (some slot, { manager with freeSlots := manager.freeSlots.dropLast })

/-- `free_slot`: an in-range slot that is not already free is pushed back and
its storage dropped; anything else is ignored. -/
def SwapManager.freeSlot (manager : SwapManager) (slot : SwapSlot) : SwapManager :=
  if slot < manager.totalSlots ∧ slot ∉ manager.freeSlots then
    { manager with
      freeSlots := manager.freeSlots ++ [slot]
      swapStorage := manager.swapStorage.erase slot }
  else manager

/-- `swap_out`: allocate a slot, store a zero page in it, and record the entry
under the virtual address, replacing any entry already there. -/
def SwapManager.swapOut (manager : SwapManager) (virtAddr : VirtAddr) (_physAddr : PhysAddr) :
    Option SwapSlot × SwapManager :=
  match manager.allocSlot with
  | (none, manager) => (none, manager)
  | (some slot, manager) =>
      let pageData : List UInt8 := List.replicate pageSize 0
      let manager := { manager with swapStorage := manager.swapStorage.insert slot pageData }
      let entry : SwapEntry := { virtAddr := virtAddr.asU64, slot := slot, size := pageSize }
      (some slot,
        { manager with swappedPages := manager.swappedPages.insert virtAddr.asU64 entry })

/-- `swap_in`: the entry is removed first; its slot is freed when its storage
is present. -/
def SwapManager.swapIn (manager : SwapManager) (virtAddr : VirtAddr) (_physAddr : PhysAddr) :
    Bool × SwapManager :=
  let virt := virtAddr.asU64
  match manager.swappedPages.lookup virt with
  | none => (false, manager)
  | some entry =>
      let manager := { manager with swappedPages := manager.swappedPages.erase virt }
      match manager.swapStorage.lookup entry.slot with
      | some _ => (true, manager.freeSlot entry.slot)
      | none => (false, manager)

def SwapManager.usedCount (manager : SwapManager) : Nat :=
  manager.totalSlots - manager.freeSlots.length

inductive SwapOp
  | swapOut (virtAddr : VirtAddr) (physAddr : PhysAddr)
  | swapIn (virtAddr : VirtAddr) (physAddr : PhysAddr)

def SwapManager.step (manager : SwapManager) : SwapOp → SwapManager
  | .swapOut virtAddr physAddr => (manager.swapOut virtAddr physAddr).2
  | .swapIn virtAddr physAddr => (manager.swapIn virtAddr physAddr).2

/-! ### Slot accounting -/

/-- Every slot is in at most one place. -/
structure SwapManager.SlotsDistinct (manager : SwapManager) : Prop where
  freeNodup : manager.freeSlots.Nodup
  freeBound : ∀ slot ∈ manager.freeSlots, slot < manager.totalSlots
  heldBound : ∀ virt entry, manager.swappedPages.lookup virt = some entry →
    entry.slot < manager.totalSlots
  heldNotFree : ∀ virt entry, manager.swappedPages.lookup virt = some entry →
    entry.slot ∉ manager.freeSlots
  heldStored : ∀ virt entry, manager.swappedPages.lookup virt = some entry →
    entry.slot ∈ manager.swapStorage
  heldInjective : ∀ virt virt' entry entry', manager.swappedPages.lookup virt = some entry →
    manager.swappedPages.lookup virt' = some entry' → entry.slot = entry'.slot → virt = virt'

theorem SwapManager.new_slotsDistinct (numSlots : Nat) :
    (SwapManager.new numSlots).SlotsDistinct where
  freeNodup := List.nodup_range
  freeBound := fun _ inRange => List.mem_range.mp inRange
  heldBound := by simp [SwapManager.new]
  heldNotFree := by simp [SwapManager.new]
  heldStored := by simp [SwapManager.new]
  heldInjective := by simp [SwapManager.new]

theorem SwapManager.allocSlot_cases (manager : SwapManager) :
    manager.allocSlot = (none, manager) ∨
      ∃ slot, manager.freeSlots = manager.freeSlots.dropLast ++ [slot] ∧
        manager.allocSlot = (some slot, { manager with freeSlots := manager.freeSlots.dropLast }) := by
  unfold SwapManager.allocSlot
  cases lastAt : manager.freeSlots.getLast? with
  | none => exact Or.inl rfl
  | some slot =>
      obtain ⟨rest, split⟩ := List.getLast?_eq_some_iff.mp lastAt
      exact Or.inr ⟨slot, by rw [split, List.dropLast_concat], rfl⟩

theorem SwapManager.swapOut_spec {manager : SwapManager} {virtAddr : VirtAddr}
    {physAddr : PhysAddr} {slot : SwapSlot} {after : SwapManager}
    (swapped : manager.swapOut virtAddr physAddr = (some slot, after)) :
    manager.freeSlots = after.freeSlots ++ [slot] ∧ after.totalSlots = manager.totalSlots ∧
      after.swappedPages = manager.swappedPages.insert virtAddr.asU64
        { virtAddr := virtAddr.asU64, slot := slot, size := pageSize } ∧
      after.swapStorage = manager.swapStorage.insert slot (List.replicate pageSize 0) := by
  rcases manager.allocSlot_cases with unchanged | ⟨taken, split, allocated⟩
  · simp [SwapManager.swapOut, unchanged] at swapped
  · simp only [SwapManager.swapOut, allocated, Prod.mk.injEq, Option.some.injEq] at swapped
    obtain ⟨rfl, rfl⟩ := swapped
    exact ⟨split, rfl, rfl, rfl⟩

private theorem lookup_insert_eq_some {β : Type*} {map : Finmap (fun _ : UInt64 => β)}
    {key key' : UInt64} {value found : β}
    (found_at : (map.insert key value).lookup key' = some found) :
    (key' = key ∧ found = value) ∨ (key' ≠ key ∧ map.lookup key' = some found) := by
  by_cases same : key' = key
  · subst same
    rw [Finmap.lookup_insert, Option.some.injEq] at found_at
    exact Or.inl ⟨rfl, found_at.symm⟩
  · rw [Finmap.lookup_insert_of_ne _ same] at found_at
    exact Or.inr ⟨same, found_at⟩

theorem SwapManager.swapOut_slotsDistinct {manager : SwapManager}
    (distinct : manager.SlotsDistinct) (virtAddr : VirtAddr) (physAddr : PhysAddr) :
    (manager.swapOut virtAddr physAddr).2.SlotsDistinct := by
  rcases swapped : manager.swapOut virtAddr physAddr with ⟨result, after⟩
  cases result with
  | none =>
      rcases manager.allocSlot_cases with unchanged | ⟨taken, _, allocated⟩
      · simp only [SwapManager.swapOut, unchanged, Prod.mk.injEq] at swapped
        rw [← swapped.2]
        exact distinct
      · simp [SwapManager.swapOut, allocated] at swapped
  | some slot =>
      obtain ⟨split, total, pages, storage⟩ := SwapManager.swapOut_spec swapped
      obtain ⟨freeNodup, freeBound, heldBound, heldNotFree, heldStored, heldInjective⟩ := distinct
      rw [split] at freeNodup freeBound heldNotFree
      have restNodup : after.freeSlots.Nodup := (List.nodup_append.mp freeNodup).1
      have slotTaken : slot ∉ after.freeSlots := fun inRest =>
        (List.nodup_append.mp freeNodup).2.2 slot inRest slot (List.mem_singleton_self slot) rfl
      have slotBound : slot < after.totalSlots := total ▸ freeBound slot (by simp)
      -- The new entry holds `slot`; every other entry is an old one.
      have heldCases : ∀ virt entry, after.swappedPages.lookup virt = some entry →
          (virt = virtAddr.asU64 ∧ entry.slot = slot) ∨
            (virt ≠ virtAddr.asU64 ∧ manager.swappedPages.lookup virt = some entry) := by
        intro virt entry found
        rw [pages] at found
        rcases lookup_insert_eq_some found with ⟨same, rfl⟩ | other
        · exact Or.inl ⟨same, rfl⟩
        · exact Or.inr other
      refine ⟨restNodup, fun free inRest => total ▸ freeBound free (by simp [inRest]), ?_, ?_, ?_, ?_⟩
      · intro virt entry found
        rcases heldCases virt entry found with ⟨_, rfl⟩ | ⟨_, old⟩
        · exact slotBound
        · exact total ▸ heldBound virt entry old
      · intro virt entry found
        rcases heldCases virt entry found with ⟨_, rfl⟩ | ⟨_, old⟩
        · exact slotTaken
        · exact fun inRest => heldNotFree virt entry old (by simp [inRest])
      · intro virt entry found
        rw [storage, Finmap.mem_insert]
        rcases heldCases virt entry found with ⟨_, rfl⟩ | ⟨_, old⟩
        · exact Or.inl rfl
        · exact Or.inr (heldStored virt entry old)
      · intro virt virt' entry entry' found found' sameSlot
        rcases heldCases virt entry found with ⟨atNew, rfl⟩ | ⟨_, old⟩ <;>
          rcases heldCases virt' entry' found' with ⟨atNew', slotAt'⟩ | ⟨_, old'⟩
        · exact atNew.trans atNew'.symm
        · exact absurd (by simp [sameSlot]) (heldNotFree virt' entry' old')
        · exact absurd (by simp [← sameSlot, ← slotAt']) (heldNotFree virt entry old)
        · exact heldInjective virt virt' entry entry' old old' sameSlot

private theorem lookup_erase_eq_some {β : Type*} {map : Finmap (fun _ : UInt64 => β)}
    {key key' : UInt64} {found : β} (found_at : (map.erase key).lookup key' = some found) :
    key' ≠ key ∧ map.lookup key' = some found := by
  by_cases same : key' = key
  · subst same
    rw [Finmap.lookup_erase] at found_at
    cases found_at
  · rw [Finmap.lookup_erase_ne same] at found_at
    exact ⟨same, found_at⟩

theorem SwapManager.freeSlot_slotsDistinct {manager : SwapManager}
    (distinct : manager.SlotsDistinct) {slot : SwapSlot}
    (unheld : ∀ virt entry, manager.swappedPages.lookup virt = some entry → entry.slot ≠ slot) :
    (manager.freeSlot slot).SlotsDistinct := by
  unfold SwapManager.freeSlot
  split_ifs with fresh
  · obtain ⟨freeNodup, freeBound, heldBound, heldNotFree, heldStored, heldInjective⟩ := distinct
    refine ⟨?_, ?_, heldBound, ?_, ?_, heldInjective⟩
    · rw [← List.concat_eq_append]
      exact freeNodup.concat fresh.2
    · intro free inFree
      rcases List.mem_append.mp inFree with old | pushed
      · exact freeBound free old
      · rw [List.mem_singleton.mp pushed]
        exact fresh.1
    · intro virt entry found inFree
      rcases List.mem_append.mp inFree with old | pushed
      · exact heldNotFree virt entry found old
      · exact unheld virt entry found (List.mem_singleton.mp pushed)
    · intro virt entry found
      exact Finmap.mem_erase.mpr ⟨unheld virt entry found, heldStored virt entry found⟩
  · exact distinct

theorem SwapManager.swapIn_slotsDistinct {manager : SwapManager}
    (distinct : manager.SlotsDistinct) (virtAddr : VirtAddr) (physAddr : PhysAddr) :
    (manager.swapIn virtAddr physAddr).2.SlotsDistinct := by
  obtain ⟨freeNodup, freeBound, heldBound, heldNotFree, heldStored, heldInjective⟩ := distinct
  cases entryAt : manager.swappedPages.lookup virtAddr.asU64 with
  | none =>
      simp only [SwapManager.swapIn, entryAt]
      exact ⟨freeNodup, freeBound, heldBound, heldNotFree, heldStored, heldInjective⟩
  | some entry =>
      -- Erasing the entry keeps every other page and its slot.
      have erased : { manager with
          swappedPages := manager.swappedPages.erase virtAddr.asU64 }.SlotsDistinct := by
        refine ⟨freeNodup, freeBound, ?_, ?_, ?_, ?_⟩
        · intro virt found foundAt
          exact heldBound virt found (lookup_erase_eq_some foundAt).2
        · intro virt found foundAt
          exact heldNotFree virt found (lookup_erase_eq_some foundAt).2
        · intro virt found foundAt
          exact heldStored virt found (lookup_erase_eq_some foundAt).2
        · intro virt virt' found found' foundAt foundAt' sameSlot
          exact heldInjective virt virt' found found' (lookup_erase_eq_some foundAt).2
            (lookup_erase_eq_some foundAt').2 sameSlot
      -- No remaining page holds the slot of the erased entry.
      have unheld : ∀ virt found,
          (manager.swappedPages.erase virtAddr.asU64).lookup virt = some found →
            found.slot ≠ entry.slot := by
        intro virt found foundAt sameSlot
        obtain ⟨other, old⟩ := lookup_erase_eq_some foundAt
        exact other (heldInjective virt virtAddr.asU64 found entry old entryAt sameSlot)
      cases storedAt : manager.swapStorage.lookup entry.slot with
      | none =>
          simp only [SwapManager.swapIn, entryAt, storedAt]
          exact erased
      | some _ =>
          simp only [SwapManager.swapIn, entryAt, storedAt]
          exact SwapManager.freeSlot_slotsDistinct erased unheld

theorem SwapManager.step_slotsDistinct : Invariant SwapManager.step SwapManager.SlotsDistinct := by
  intro manager op distinct
  cases op with
  | swapOut virtAddr physAddr => exact manager.swapOut_slotsDistinct distinct virtAddr physAddr
  | swapIn virtAddr physAddr => exact manager.swapIn_slotsDistinct distinct virtAddr physAddr

/-- After any sequence of `swap_out` and `swap_in` calls, no slot is in two
places: the free slots are distinct and in range, and swapped pages hold
distinct, in-range, stored slots that are not free. -/
theorem swap_slots_never_shared (numSlots : Nat) (ops : List SwapOp) :
    (run SwapManager.step (SwapManager.new numSlots) ops).SlotsDistinct :=
  SwapManager.step_slotsDistinct.run (SwapManager.new_slotsDistinct numSlots) ops

/-- Two `swap_out` calls for one address on a two-slot manager use both slots
for a single swapped page: slot 1 is neither free nor held, and `used_count`
exceeds the number of swapped pages. -/
theorem swapOut_twice_leaks_slot :
    let manager : SwapManager := run SwapManager.step (SwapManager.new 2)
      [.swapOut ⟨0x1000⟩ ⟨0x1000⟩, .swapOut ⟨0x1000⟩ ⟨0x1000⟩]
    manager.usedCount = 2 ∧ manager.swappedPages.keys.card = 1 ∧ manager.freeSlots = [] ∧
      manager.swappedPages.lookup 0x1000 = some ⟨0x1000, 0, pageSize⟩ := by
  decide

end FangaOS.Swap
