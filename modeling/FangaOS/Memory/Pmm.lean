import FangaOS.Lib.BitWord
import FangaOS.Lib.FrameAllocator
import FangaOS.Memory.Addr

/-! The bitmap physical memory manager of `memory/pmm/bitmap.rs`.  The raw pointer
is the list of words, and the lock is left out, since every operation holds it
throughout. -/

namespace FangaOS.Pmm

open StepMachine FangaOS.Addr

inductive EntryType
  | usable
  | reserved
  | acpiReclaimable
  | acpiNvs
  | badMemory
  | bootloaderReclaimable
  | executableAndModules
  | framebuffer
  deriving DecidableEq, Repr

/-- An entry of limine's memory map. -/
structure Entry where
  base : UInt64
  length : UInt64
  entryType : EntryType
  deriving DecidableEq, Repr

def bitsPerEntry : Nat := 64

/-- `PhysicalMemoryManagerInner`, with the `bitmap_entries` words of the bitmap. -/
structure PhysicalMemoryManager where
  bitmap : List UInt64
  totalPages : Nat
  freePages : Nat
  highestAddr : UInt64
  deriving DecidableEq, Repr

/-- `mark_page_free_inner` and `mark_page_used_inner`: below `total_pages`, the
page's bit is rewritten by `update` with the bit's mask. -/
def PhysicalMemoryManager.updatePageBit (inner : PhysicalMemoryManager) (page : Nat)
    (update : UInt64 → UInt64 → UInt64) : PhysicalMemoryManager :=
  if page ≥ inner.totalPages then inner
  else
    let entryIdx := page / bitsPerEntry
    let bitIdx := page % bitsPerEntry
    { inner with
      bitmap := inner.bitmap.modify entryIdx fun entry => update entry (1 <<< bitIdx.toUInt64) }

def PhysicalMemoryManager.markPageFreeInner (inner : PhysicalMemoryManager) (page : Nat) :
    PhysicalMemoryManager :=
  inner.updatePageBit page fun entry mask => entry &&& ~~~mask

def PhysicalMemoryManager.markPageUsedInner (inner : PhysicalMemoryManager) (page : Nat) :
    PhysicalMemoryManager :=
  inner.updatePageBit page fun entry mask => entry ||| mask

def highestAddress (memmap : List Entry) : UInt64 :=
  memmap.foldl
    (fun highest entry =>
      let entryEnd := entry.base + entry.length
      if entryEnd > highest then entryEnd else highest)
    0

/-- The pages that `init` marks free for one entry of the memory map. -/
def entryPages (entry : Entry) : List Nat :=
  if entry.entryType = .usable then
    let start := alignUp entry.base pageSize.toUInt64
    let entryEnd := alignDown (entry.base + entry.length) pageSize.toUInt64
    List.range' (start.toNat / pageSize) ((entryEnd - start).toNat / pageSize)
  else []

def markFreeCounting (state : PhysicalMemoryManager × Nat) (page : Nat) :
    PhysicalMemoryManager × Nat :=
  (state.1.markPageFreeInner page, state.2 + 1)

/-- A page of the bitmap is marked used and uncounted, the count saturating at
zero. -/
def markUsedUncounting (state : PhysicalMemoryManager × Nat) (page : Nat) :
    PhysicalMemoryManager × Nat :=
  if page < state.1.totalPages then (state.1.markPageUsedInner page, state.2 - 1) else state

/-- `init`; `none` where it panics for want of a region for the bitmap. -/
def PhysicalMemoryManager.init (memmap : List Entry) : Option PhysicalMemoryManager :=
  let highest := highestAddress memmap
  let totalPages := (highest.toNat + pageSize - 1) % 2 ^ 64 / pageSize
  let bitmapEntries := (totalPages + bitsPerEntry - 1) / bitsPerEntry
  let bitmapSize := bitmapEntries * 8
  let bitmapPhys : UInt64 :=
    match memmap.find? fun (entry : Entry) =>
        decide (entry.entryType = .usable) && decide (bitmapSize.toUInt64 ≤ entry.length) with
    | some entry => entry.base
    | none => 0
  if bitmapPhys = (0 : UInt64) then none
  else
    let inner : PhysicalMemoryManager :=
      { bitmap := List.replicate bitmapEntries (~~~0), totalPages := totalPages, freePages := 0,
        highestAddr := highest }
    let marked := memmap.foldl (fun state entry => (entryPages entry).foldl markFreeCounting state)
      (inner, 0)
    let bitmapPages := (bitmapSize + pageSize - 1) / pageSize
    let (inner, freeCount) :=
      (List.range' (bitmapPhys.toNat / pageSize) bitmapPages).foldl markUsedUncounting marked
    some { inner with freePages := freeCount }

/-- The inner loop of `alloc_page`: the first clear bit of the word whose page
is below `total_pages`. -/
def firstFreeBit (entry : UInt64) (entryIdx totalPages : Nat) : Option Nat :=
  (List.range bitsPerEntry).find? fun bitIdx =>
    entry &&& (1 <<< bitIdx.toUInt64) == 0 && decide (entryIdx * bitsPerEntry + bitIdx < totalPages)

/-- The outer loop of `alloc_page`, over the words from `entryIdx` on. -/
def findFreeBit (totalPages : Nat) : List UInt64 → Nat → Option (Nat × Nat)
  | [], _ => none
  | entry :: rest, entryIdx =>
      if entry != ~~~0 then
        match firstFreeBit entry entryIdx totalPages with
        | some bitIdx => some (entryIdx, bitIdx)
        | none => findFreeBit totalPages rest (entryIdx + 1)
      else findFreeBit totalPages rest (entryIdx + 1)

def PhysicalMemoryManager.allocPage (inner : PhysicalMemoryManager) :
    Option UInt64 × PhysicalMemoryManager :=
  if inner.freePages = 0 then (none, inner)
  else
    match findFreeBit inner.totalPages inner.bitmap 0 with
    | some (entryIdx, bitIdx) =>
        let page := entryIdx * bitsPerEntry + bitIdx
        (some (page * pageSize).toUInt64,
          { inner with
            bitmap := inner.bitmap.modify entryIdx fun entry => entry ||| (1 <<< bitIdx.toUInt64)
            freePages := inner.freePages - 1 })
    | none => (none, inner)

/-- `free_page`; an unaligned, out-of-range or already free address is ignored. -/
def PhysicalMemoryManager.freePage (inner : PhysicalMemoryManager) (addr : UInt64) :
    PhysicalMemoryManager :=
  if addr % pageSize.toUInt64 ≠ 0 then inner
  else
    let page := addr.toNat / pageSize
    if page ≥ inner.totalPages then inner
    else
      let entryIdx := page / bitsPerEntry
      let bitIdx := page % bitsPerEntry
      match inner.bitmap[entryIdx]? with
      | some entry =>
          if entry &&& (1 <<< bitIdx.toUInt64) == 0 then inner
          else
            { inner with
              bitmap := inner.bitmap.set entryIdx (entry &&& ~~~(1 <<< bitIdx.toUInt64))
              freePages := inner.freePages + 1 }
      | none => inner

inductive PmmOp
  | allocPage
  | freePage (addr : UInt64)
  deriving DecidableEq, Repr

def PhysicalMemoryManager.step (inner : PhysicalMemoryManager) : PmmOp → PhysicalMemoryManager
  | .allocPage => inner.allocPage.2
  | .freePage addr => inner.freePage addr

/-! ### The pages marked free -/

/-- Whether the bitmap marks `page` free: its bit is clear. -/
def PhysicalMemoryManager.pageFree (inner : PhysicalMemoryManager) (page : Nat) : Bool :=
  match inner.bitmap[page / bitsPerEntry]? with
  | some entry => entry &&& (1 <<< (page % bitsPerEntry).toUInt64) == 0
  | none => false

def PhysicalMemoryManager.freeSet (inner : PhysicalMemoryManager) : Finset Nat :=
  (Finset.range inner.totalPages).filter fun page => inner.pageFree page

theorem PhysicalMemoryManager.mem_freeSet {inner : PhysicalMemoryManager} {page : Nat} :
    page ∈ inner.freeSet ↔ page < inner.totalPages ∧ inner.pageFree page = true := by
  simp [PhysicalMemoryManager.freeSet]

/-- The allocator that the bitmap stands for. -/
def PhysicalMemoryManager.frames (inner : PhysicalMemoryManager) : FrameAllocator :=
  ⟨inner.totalPages, inner.freeSet, fun _ member => (PhysicalMemoryManager.mem_freeSet.mp member).1⟩

/-- The counter agrees with the bitmap, which has a bit for every page, and
every page has a 64-bit address. -/
structure PhysicalMemoryManager.Consistent (inner : PhysicalMemoryManager) : Prop where
  sized : inner.totalPages ≤ inner.bitmap.length * bitsPerEntry
  addressable : inner.totalPages * pageSize < 2 ^ 64
  counted : inner.freePages = inner.freeSet.card

theorem PhysicalMemoryManager.pageFree_of_word {inner : PhysicalMemoryManager} {entryIdx : Nat}
    {entry : UInt64} (word : inner.bitmap[entryIdx]? = some entry) {bitIdx : Nat}
    (bit : bitIdx < bitsPerEntry) :
    inner.pageFree (entryIdx * bitsPerEntry + bitIdx) =
      (entry &&& (1 <<< bitIdx.toUInt64) == 0) := by
  unfold bitsPerEntry at bit ⊢
  unfold PhysicalMemoryManager.pageFree bitsPerEntry
  rw [show (entryIdx * 64 + bitIdx) / 64 = entryIdx by omega,
    show (entryIdx * 64 + bitIdx) % 64 = bitIdx by omega, word]

theorem PhysicalMemoryManager.pageFree_modify (inner : PhysicalMemoryManager) (page : Nat)
    {update : UInt64 → UInt64} {after : PhysicalMemoryManager}
    (bitmap : after.bitmap = inner.bitmap.modify (page / bitsPerEntry) update) (other : Nat) :
    after.pageFree other =
      if other / bitsPerEntry = page / bitsPerEntry then
        match inner.bitmap[other / bitsPerEntry]? with
        | some entry => update entry &&& (1 <<< (other % bitsPerEntry).toUInt64) == 0
        | none => false
      else inner.pageFree other := by
  unfold PhysicalMemoryManager.pageFree
  rw [bitmap, List.getElem?_modify]
  by_cases same : other / bitsPerEntry = page / bitsPerEntry
  · simp only [if_pos same, if_pos same.symm]
    cases inner.bitmap[other / bitsPerEntry]? <;> rfl
  · simp only [if_neg same, if_neg (Ne.symm same)]
    cases inner.bitmap[other / bitsPerEntry]? <;> rfl

theorem PhysicalMemoryManager.pageFree_setBit (inner : PhysicalMemoryManager) (page : Nat)
    {after : PhysicalMemoryManager}
    (bitmap : after.bitmap = inner.bitmap.modify (page / bitsPerEntry)
      fun entry => entry ||| (1 <<< (page % bitsPerEntry).toUInt64)) (other : Nat) :
    after.pageFree other = (inner.pageFree other && decide (other ≠ page)) := by
  rw [inner.pageFree_modify page bitmap]
  unfold bitsPerEntry
  split_ifs with same
  · unfold PhysicalMemoryManager.pageFree bitsPerEntry
    cases inner.bitmap[other / 64]? with
    | none => rfl
    | some entry =>
        dsimp only
        rw [UInt64.or_one_shiftLeft_test _ (Nat.mod_lt _ (by decide)) (Nat.mod_lt _ (by decide))]
        have bits : (page % 64 = other % 64) ↔ ¬(other ≠ page) := by omega
        simp only [bits, decide_not, Bool.not_not]
  · have different : other ≠ page := fun equal => same (equal ▸ rfl)
    simp [different]

theorem PhysicalMemoryManager.pageFree_clearBit (inner : PhysicalMemoryManager) {page : Nat}
    (inRange : page / bitsPerEntry < inner.bitmap.length) {after : PhysicalMemoryManager}
    (bitmap : after.bitmap = inner.bitmap.modify (page / bitsPerEntry)
      fun entry => entry &&& ~~~(1 <<< (page % bitsPerEntry).toUInt64)) (other : Nat) :
    after.pageFree other = (inner.pageFree other || decide (other = page)) := by
  rw [inner.pageFree_modify page bitmap]
  unfold bitsPerEntry at inRange ⊢
  split_ifs with same
  · unfold PhysicalMemoryManager.pageFree bitsPerEntry
    rw [same, List.getElem?_eq_getElem inRange]
    dsimp only
    rw [UInt64.and_not_one_shiftLeft_test _ (Nat.mod_lt _ (by decide)) (Nat.mod_lt _ (by decide))]
    have bits : (page % 64 = other % 64) ↔ other = page := by omega
    simp only [bits]
  · have different : other ≠ page := fun equal => same (equal ▸ rfl)
    simp [different]

theorem PhysicalMemoryManager.freeSet_setBit (inner : PhysicalMemoryManager) (page : Nat)
    {after : PhysicalMemoryManager}
    (bitmap : after.bitmap = inner.bitmap.modify (page / bitsPerEntry)
      fun entry => entry ||| (1 <<< (page % bitsPerEntry).toUInt64))
    (total : after.totalPages = inner.totalPages) : after.freeSet = inner.freeSet.erase page := by
  ext other
  rw [PhysicalMemoryManager.mem_freeSet, Finset.mem_erase, PhysicalMemoryManager.mem_freeSet,
    inner.pageFree_setBit page bitmap, total]
  simp only [Bool.and_eq_true, decide_eq_true_eq]
  tauto

theorem PhysicalMemoryManager.freeSet_clearBit (inner : PhysicalMemoryManager) {page : Nat}
    (inRange : page / bitsPerEntry < inner.bitmap.length) (below : page < inner.totalPages)
    {after : PhysicalMemoryManager}
    (bitmap : after.bitmap = inner.bitmap.modify (page / bitsPerEntry)
      fun entry => entry &&& ~~~(1 <<< (page % bitsPerEntry).toUInt64))
    (total : after.totalPages = inner.totalPages) : after.freeSet = insert page inner.freeSet := by
  ext other
  rw [PhysicalMemoryManager.mem_freeSet, Finset.mem_insert, PhysicalMemoryManager.mem_freeSet,
    inner.pageFree_clearBit inRange bitmap, total]
  by_cases same : other = page
  · subst same
    simp [below]
  · simp [same]

@[simp] theorem PhysicalMemoryManager.totalPages_updatePageBit (inner : PhysicalMemoryManager)
    (page : Nat) (update : UInt64 → UInt64 → UInt64) :
    (inner.updatePageBit page update).totalPages = inner.totalPages := by
  unfold PhysicalMemoryManager.updatePageBit
  split <;> rfl

@[simp] theorem PhysicalMemoryManager.length_updatePageBit (inner : PhysicalMemoryManager)
    (page : Nat) (update : UInt64 → UInt64 → UInt64) :
    (inner.updatePageBit page update).bitmap.length = inner.bitmap.length := by
  unfold PhysicalMemoryManager.updatePageBit
  split
  · rfl
  · exact List.length_modify _ _ _

theorem PhysicalMemoryManager.freeSet_markPageUsedInner (inner : PhysicalMemoryManager)
    (page : Nat) : (inner.markPageUsedInner page).freeSet = inner.freeSet.erase page := by
  unfold PhysicalMemoryManager.markPageUsedInner PhysicalMemoryManager.updatePageBit
  split_ifs with beyond
  · refine (Finset.erase_eq_of_notMem fun member => ?_).symm
    exact Nat.not_le.mpr (PhysicalMemoryManager.mem_freeSet.mp member).1 beyond
  · exact inner.freeSet_setBit page rfl rfl

theorem PhysicalMemoryManager.freeSet_markPageFreeInner {inner : PhysicalMemoryManager}
    (sized : inner.totalPages ≤ inner.bitmap.length * bitsPerEntry) (page : Nat) :
    (inner.markPageFreeInner page).freeSet =
      if page < inner.totalPages then insert page inner.freeSet else inner.freeSet := by
  unfold PhysicalMemoryManager.markPageFreeInner PhysicalMemoryManager.updatePageBit
  split_ifs with beyond below below
  · exact absurd below (Nat.not_lt.mpr beyond)
  · rfl
  · have inRange : page / bitsPerEntry < inner.bitmap.length := by
      unfold bitsPerEntry at sized ⊢
      omega
    exact inner.freeSet_clearBit inRange below rfl rfl
  · exact absurd (Nat.lt_of_not_le beyond) below

/-! ### The search of `alloc_page` -/

theorem PhysicalMemoryManager.inRange_of_pageFree {inner : PhysicalMemoryManager} {page : Nat}
    (free : inner.pageFree page = true) : page / bitsPerEntry < inner.bitmap.length := by
  unfold PhysicalMemoryManager.pageFree at free
  rcases word : inner.bitmap[page / bitsPerEntry]? with _ | entry
  · rw [word] at free
    cases free
  · exact (List.getElem?_eq_some_iff.mp word).1

/-- What the search from word `start` on finds: the least free page from that
word on, or that no page from there is free. -/
def PhysicalMemoryManager.FoundFrom (inner : PhysicalMemoryManager) (start : Nat) :
    Option (Nat × Nat) → Prop
  | some (entryIdx, bitIdx) =>
      bitIdx < bitsPerEntry ∧ entryIdx * bitsPerEntry + bitIdx ∈ inner.freeSet ∧
        ∀ page ∈ inner.freeSet, start * bitsPerEntry ≤ page →
          entryIdx * bitsPerEntry + bitIdx ≤ page
  | none => ∀ page ∈ inner.freeSet, page < start * bitsPerEntry

theorem PhysicalMemoryManager.FoundFrom.skip {inner : PhysicalMemoryManager} {start : Nat}
    {found : Option (Nat × Nat)} (noneFree : ∀ page ∈ inner.freeSet, page / bitsPerEntry ≠ start)
    (later : inner.FoundFrom (start + 1) found) : inner.FoundFrom start found := by
  unfold bitsPerEntry at noneFree
  match found, later with
  | none, later =>
      intro page member
      have := later page member
      have := noneFree page member
      unfold bitsPerEntry at *
      omega
  | some (entryIdx, bitIdx), ⟨bit, member, least⟩ =>
      refine ⟨bit, member, fun page free above => least page free ?_⟩
      have := noneFree page free
      unfold bitsPerEntry at *
      omega

theorem PhysicalMemoryManager.noneFree_of_firstFreeBit {inner : PhysicalMemoryManager}
    {entryIdx : Nat} {entry : UInt64} (word : inner.bitmap[entryIdx]? = some entry)
    (none : firstFreeBit entry entryIdx inner.totalPages = none) :
    ∀ page ∈ inner.freeSet, page / bitsPerEntry ≠ entryIdx := by
  intro page member same
  obtain ⟨below, free⟩ := PhysicalMemoryManager.mem_freeSet.mp member
  have bit : page % bitsPerEntry < bitsPerEntry := Nat.mod_lt _ (by decide)
  have split : page = entryIdx * bitsPerEntry + page % bitsPerEntry := by
    unfold bitsPerEntry at *
    omega
  rw [split, PhysicalMemoryManager.pageFree_of_word word bit] at free
  rw [split] at below
  exact List.find?_eq_none.mp none (page % bitsPerEntry) (List.mem_range.mpr bit)
    (by simp [free, below])

theorem PhysicalMemoryManager.noneFree_of_allOnes {inner : PhysicalMemoryManager}
    {entryIdx : Nat} (word : inner.bitmap[entryIdx]? = some (~~~0)) :
    ∀ page ∈ inner.freeSet, page / bitsPerEntry ≠ entryIdx := by
  intro page member same
  have bit : page % bitsPerEntry < bitsPerEntry := Nat.mod_lt _ (by decide)
  have split : page = entryIdx * bitsPerEntry + page % bitsPerEntry := by
    unfold bitsPerEntry at *
    omega
  have free := (PhysicalMemoryManager.mem_freeSet.mp member).2
  rw [split, PhysicalMemoryManager.pageFree_of_word word bit, UInt64.allOnes_test bit] at free
  cases free

theorem PhysicalMemoryManager.foundFrom_firstFreeBit {inner : PhysicalMemoryManager}
    {entryIdx bitIdx : Nat} {entry : UInt64} (word : inner.bitmap[entryIdx]? = some entry)
    (found : firstFreeBit entry entryIdx inner.totalPages = some bitIdx) :
    inner.FoundFrom entryIdx (some (entryIdx, bitIdx)) := by
  obtain ⟨first, inRange, earlier⟩ := List.find?_range_eq_some.mp found
  have bit := List.mem_range.mp inRange
  simp only [Bool.and_eq_true, decide_eq_true_eq] at first
  refine ⟨bit, PhysicalMemoryManager.mem_freeSet.mpr
    ⟨first.2, (PhysicalMemoryManager.pageFree_of_word word bit).trans first.1⟩, ?_⟩
  intro page member above
  obtain ⟨below, free⟩ := PhysicalMemoryManager.mem_freeSet.mp member
  by_contra before
  -- The page lies in the same word, at a lower bit the inner loop passed over.
  have lower : page % bitsPerEntry < bitIdx := by
    unfold bitsPerEntry at *
    omega
  have split : page = entryIdx * bitsPerEntry + page % bitsPerEntry := by
    unfold bitsPerEntry at *
    omega
  rw [split, PhysicalMemoryManager.pageFree_of_word word (Nat.mod_lt _ (by decide))] at free
  rw [split] at below
  have skipped := earlier (page % bitsPerEntry) lower
  simp [free, below] at skipped

theorem PhysicalMemoryManager.foundFrom_findFreeBit (inner : PhysicalMemoryManager) :
    ∀ (words : List UInt64) (start : Nat), words = inner.bitmap.drop start →
      inner.FoundFrom start (findFreeBit inner.totalPages words start)
  | [], start, rest => by
      intro page member
      have inRange := PhysicalMemoryManager.inRange_of_pageFree
        (PhysicalMemoryManager.mem_freeSet.mp member).2
      have ended := List.drop_eq_nil_iff.mp rest.symm
      unfold bitsPerEntry at *
      omega
  | entry :: words, start, rest => by
      have word : inner.bitmap[start]? = some entry := by
        rw [← Nat.add_zero start, ← List.getElem?_drop, ← rest]
        rfl
      have restEq : words = inner.bitmap.drop (start + 1) := by
        rw [← List.drop_drop, ← rest]
        rfl
      have later := inner.foundFrom_findFreeBit words (start + 1) restEq
      unfold findFreeBit
      split_ifs with notFull
      · split
        · next bitIdx found => exact PhysicalMemoryManager.foundFrom_firstFreeBit word found
        · next none =>
          exact PhysicalMemoryManager.FoundFrom.skip
            (PhysicalMemoryManager.noneFree_of_firstFreeBit word none) later
      · have full : entry = ~~~0 := by simpa using notFull
        exact PhysicalMemoryManager.FoundFrom.skip
          (PhysicalMemoryManager.noneFree_of_allOnes (full ▸ word)) later

/-! ### `alloc_page` and `free_page` refine the least-first allocator -/

theorem PhysicalMemoryManager.Consistent.allocPage {inner : PhysicalMemoryManager}
    (consistent : inner.Consistent) :
    inner.allocPage.1 = inner.frames.alloc.1.map (fun page => (page * pageSize).toUInt64) ∧
      inner.allocPage.2.frames = inner.frames.alloc.2 ∧ inner.allocPage.2.Consistent := by
  have search := inner.foundFrom_findFreeBit inner.bitmap 0 List.drop_zero.symm
  unfold PhysicalMemoryManager.allocPage
  split_ifs with noFree
  · have empty : inner.freeSet = ∅ := Finset.card_eq_zero.mp (consistent.counted ▸ noFree)
    rw [FrameAllocator.alloc_of_empty (a := inner.frames) empty]
    exact ⟨rfl, rfl, consistent⟩
  split
  · next entryIdx bitIdx found =>
      rw [found] at search
      obtain ⟨bit, member, least⟩ := search
      have allocated : inner.frames.alloc.1 = some (entryIdx * bitsPerEntry + bitIdx) :=
        FrameAllocator.alloc_of_least member fun other free => least other free (Nat.zero_le _)
      have position : (entryIdx * bitsPerEntry + bitIdx) / bitsPerEntry = entryIdx ∧
          (entryIdx * bitsPerEntry + bitIdx) % bitsPerEntry = bitIdx := by
        unfold bitsPerEntry at *
        omega
      have taken : ∀ after : PhysicalMemoryManager,
          after.bitmap = inner.bitmap.modify entryIdx (fun entry => entry ||| 1 <<< bitIdx.toUInt64) →
          after.totalPages = inner.totalPages →
          after.freeSet = inner.freeSet.erase (entryIdx * bitsPerEntry + bitIdx) :=
        fun after bitmap total => inner.freeSet_setBit _ (by rw [bitmap, position.1, position.2]) total
      dsimp only
      refine ⟨by rw [allocated]; rfl, ?_, ⟨?_, consistent.addressable, ?_⟩⟩
      · exact FrameAllocator.ext (FrameAllocator.total_alloc inner.frames).symm
          ((taken _ (by rfl) (by rfl)).trans (FrameAllocator.alloc_of_some allocated).2.2.symm)
      · rw [List.length_modify]
        exact consistent.sized
      · calc inner.freePages - 1 = (inner.freeSet.erase (entryIdx * bitsPerEntry + bitIdx)).card := by
              rw [Finset.card_erase_of_mem member, consistent.counted]
          _ = _ := congrArg Finset.card (taken _ (by rfl) (by rfl)).symm
  · next none =>
      rw [none] at search
      have empty : inner.freeSet = ∅ :=
        Finset.eq_empty_of_forall_notMem fun page member => Nat.not_lt_zero _ (search page member)
      rw [FrameAllocator.alloc_of_empty (a := inner.frames) empty]
      exact ⟨rfl, rfl, consistent⟩

theorem PhysicalMemoryManager.Consistent.freePage {inner : PhysicalMemoryManager}
    (consistent : inner.Consistent) (addr : UInt64) :
    (inner.freePage addr).frames =
        (if addr % pageSize.toUInt64 = 0 then inner.frames.release (addr.toNat / pageSize)
          else inner.frames) ∧
      (inner.freePage addr).Consistent := by
  unfold PhysicalMemoryManager.freePage
  by_cases aligned : addr % pageSize.toUInt64 = 0
  swap
  · rw [if_pos aligned, if_neg aligned]
    exact ⟨rfl, consistent⟩
  rw [if_neg (not_not.mpr aligned), if_pos aligned]
  dsimp only
  have released : (inner.frames.release (addr.toNat / pageSize)).free =
      if addr.toNat / pageSize < inner.totalPages then insert (addr.toNat / pageSize) inner.freeSet
      else inner.freeSet :=
    FrameAllocator.free_release inner.frames (addr.toNat / pageSize)
  by_cases beyond : inner.totalPages ≤ addr.toNat / pageSize
  · rw [if_pos beyond]
    rw [if_neg (Nat.not_lt.mpr beyond)] at released
    exact ⟨FrameAllocator.ext (FrameAllocator.total_release _ _).symm released.symm, consistent⟩
  have below := Nat.lt_of_not_le beyond
  rw [if_neg beyond]
  rw [if_pos below] at released
  have inRange : addr.toNat / pageSize / bitsPerEntry < inner.bitmap.length := by
    have := consistent.sized
    unfold bitsPerEntry at *
    omega
  have word := List.getElem?_eq_getElem inRange
  rw [word]
  dsimp only
  by_cases clear : inner.bitmap[addr.toNat / pageSize / bitsPerEntry] &&&
      (1 <<< (addr.toNat / pageSize % bitsPerEntry).toUInt64) == 0
  · -- Already free: the release takes back nothing.
    rw [if_pos clear]
    have free : addr.toNat / pageSize ∈ inner.freeSet := by
      refine PhysicalMemoryManager.mem_freeSet.mpr ⟨below, ?_⟩
      unfold PhysicalMemoryManager.pageFree
      rw [word]
      exact clear
    exact ⟨FrameAllocator.ext (FrameAllocator.total_release _ _).symm
      (released.trans (Finset.insert_eq_of_mem free)).symm, consistent⟩
  rw [if_neg clear]
  have used : addr.toNat / pageSize ∉ inner.freeSet := by
    intro member
    have free := (PhysicalMemoryManager.mem_freeSet.mp member).2
    unfold PhysicalMemoryManager.pageFree at free
    rw [word] at free
    exact clear free
  have added : ∀ after : PhysicalMemoryManager,
      after.bitmap = inner.bitmap.set (addr.toNat / pageSize / bitsPerEntry)
        (inner.bitmap[addr.toNat / pageSize / bitsPerEntry] &&&
          ~~~(1 <<< (addr.toNat / pageSize % bitsPerEntry).toUInt64)) →
      after.totalPages = inner.totalPages →
      after.freeSet = insert (addr.toNat / pageSize) inner.freeSet := by
    intro after bitmap total
    refine inner.freeSet_clearBit inRange below ?_ total
    rw [bitmap, List.modify_eq_set_getElem?, word]
    rfl
  refine ⟨FrameAllocator.ext (FrameAllocator.total_release inner.frames _).symm
    ((added _ (by rfl) (by rfl)).trans released.symm),
    ⟨?_, consistent.addressable, ?_⟩⟩
  · rw [List.length_set]
    exact consistent.sized
  · calc inner.freePages + 1 = (insert (addr.toNat / pageSize) inner.freeSet).card := by
          rw [Finset.card_insert_of_notMem used, consistent.counted]
      _ = _ := congrArg Finset.card (added _ (by rfl) (by rfl)).symm

/-- The allocator operations that a call performs; an unaligned `free_page`
performs none. -/
def PmmOp.frameOps : PmmOp → List FrameAllocator.Op
  | .allocPage => [.alloc]
  | .freePage addr =>
      if addr % pageSize.toUInt64 = 0 then [.release (addr.toNat / pageSize)] else []

theorem PhysicalMemoryManager.Consistent.step {inner : PhysicalMemoryManager}
    (consistent : inner.Consistent) (op : PmmOp) :
    (inner.step op).frames = StepMachine.run FrameAllocator.step inner.frames op.frameOps ∧
      (inner.step op).Consistent := by
  cases op with
  | allocPage =>
      obtain ⟨-, frames, after⟩ := consistent.allocPage
      exact ⟨frames, after⟩
  | freePage addr =>
      obtain ⟨frames, after⟩ := consistent.freePage addr
      refine ⟨frames.trans ?_, after⟩
      by_cases aligned : addr % pageSize.toUInt64 = 0
      · simp only [PmmOp.frameOps, if_pos aligned]
        rfl
      · simp only [PmmOp.frameOps, if_neg aligned]
        rfl

theorem PhysicalMemoryManager.Consistent.frames_run {inner : PhysicalMemoryManager}
    (consistent : inner.Consistent) (ops : List PmmOp) :
    (StepMachine.run PhysicalMemoryManager.step inner ops).frames =
        StepMachine.run FrameAllocator.step inner.frames (ops.flatMap PmmOp.frameOps) ∧
      (StepMachine.run PhysicalMemoryManager.step inner ops).Consistent := by
  induction ops generalizing inner with
  | nil => exact ⟨rfl, consistent⟩
  | cons op ops ih =>
      obtain ⟨stepped, after⟩ := consistent.step op
      obtain ⟨frames, final⟩ := ih after
      refine ⟨?_, final⟩
      rw [run_cons, frames, stepped, List.flatMap_cons, run_append]

/-! ### What each call does on a consistent state -/

theorem PhysicalMemoryManager.freePage_of_ignored (inner : PhysicalMemoryManager) {addr : UInt64}
    (ignored : addr % pageSize.toUInt64 ≠ 0 ∨ inner.totalPages ≤ addr.toNat / pageSize ∨
      inner.pageFree (addr.toNat / pageSize) = true) :
    inner.freePage addr = inner := by
  unfold PhysicalMemoryManager.freePage
  by_cases unaligned : addr % pageSize.toUInt64 ≠ 0
  · rw [if_pos unaligned]
  rw [if_neg unaligned]
  dsimp only
  by_cases beyond : inner.totalPages ≤ addr.toNat / pageSize
  · rw [if_pos beyond]
  rw [if_neg beyond]
  have free : inner.pageFree (addr.toNat / pageSize) = true := by tauto
  unfold PhysicalMemoryManager.pageFree at free
  rcases word : inner.bitmap[addr.toNat / pageSize / bitsPerEntry]? with _ | entry
  · rfl
  · rw [word] at free
    dsimp only
    rw [if_pos free]

theorem PhysicalMemoryManager.toNat_address {inner : PhysicalMemoryManager}
    (consistent : inner.Consistent) {page : Nat} (below : page < inner.totalPages) :
    (page * pageSize).toUInt64.toNat = page * pageSize := by
  have small : page * pageSize < 2 ^ 64 :=
    Nat.lt_of_le_of_lt (Nat.mul_le_mul_right _ below.le) consistent.addressable
  exact UInt64.toNat_ofNat_of_lt' small

theorem PhysicalMemoryManager.Consistent.allocPage_some {inner : PhysicalMemoryManager}
    (consistent : inner.Consistent) {addr : UInt64} (allocated : inner.allocPage.1 = some addr) :
    addr.toNat % pageSize = 0 ∧ addr.toNat / pageSize < inner.totalPages ∧
      inner.pageFree (addr.toNat / pageSize) = true ∧
      inner.allocPage.2.pageFree (addr.toNat / pageSize) = false := by
  obtain ⟨result, frames, after⟩ := consistent.allocPage
  rw [allocated] at result
  obtain ⟨page, chosen, address⟩ := Option.map_eq_some_iff.mp result.symm
  obtain ⟨member, -, taken⟩ := FrameAllocator.alloc_of_some chosen
  obtain ⟨below, free⟩ := PhysicalMemoryManager.mem_freeSet.mp member
  have toNat : addr.toNat = page * pageSize := address ▸ inner.toNat_address consistent below
  have exact : addr.toNat / pageSize = page := by
    rw [toNat]
    unfold pageSize
    omega
  refine ⟨by rw [toNat]; unfold pageSize; omega, exact ▸ below, exact ▸ free, ?_⟩
  rw [exact]
  have gone : page ∉ inner.allocPage.2.freeSet := by
    change page ∉ inner.allocPage.2.frames.free
    rw [frames, taken]
    exact Finset.notMem_erase page _
  have sameTotal : inner.allocPage.2.totalPages = inner.totalPages := by
    change inner.allocPage.2.frames.total = inner.frames.total
    rw [frames, FrameAllocator.total_alloc]
  by_contra stillFree
  exact gone (PhysicalMemoryManager.mem_freeSet.mpr ⟨sameTotal ▸ below, Bool.not_eq_false _ ▸ stillFree⟩)

theorem PhysicalMemoryManager.Consistent.allocPage_none {inner : PhysicalMemoryManager}
    (consistent : inner.Consistent) (none : inner.allocPage.1 = none) :
    ∀ page < inner.totalPages, inner.pageFree page = false := by
  obtain ⟨result, -, -⟩ := consistent.allocPage
  rw [none, eq_comm, Option.map_eq_none_iff, FrameAllocator.alloc_eq_none_iff] at result
  intro page below
  by_contra free
  have member : page ∈ inner.freeSet :=
    PhysicalMemoryManager.mem_freeSet.mpr ⟨below, Bool.not_eq_false _ ▸ free⟩
  exact Finset.notMem_empty page (result ▸ member)

theorem PhysicalMemoryManager.Consistent.allocPage_ne_of_run {inner : PhysicalMemoryManager}
    (consistent : inner.Consistent) {addr : UInt64} (allocated : inner.allocPage.1 = some addr)
    (more : List PmmOp) (notFreed : PmmOp.freePage addr ∉ more) :
    (StepMachine.run PhysicalMemoryManager.step inner.allocPage.2 more).allocPage.1 ≠ some addr := by
  obtain ⟨result, frames, after⟩ := consistent.allocPage
  rw [allocated] at result
  obtain ⟨page, chosen, address⟩ := Option.map_eq_some_iff.mp result.symm
  have below := (PhysicalMemoryManager.mem_freeSet.mp (FrameAllocator.alloc_of_some chosen).1).1
  have toNat : addr.toNat = page * pageSize := address ▸ inner.toNat_address consistent below
  -- No operation of the rest releases the page: that would be a `free_page` of the address.
  have notReleased : FrameAllocator.Op.release page ∉ more.flatMap PmmOp.frameOps := by
    intro member
    obtain ⟨op, inMore, performed⟩ := List.mem_flatMap.mp member
    cases op with
    | allocPage => simp [PmmOp.frameOps] at performed
    | freePage other =>
        simp only [PmmOp.frameOps] at performed
        split_ifs at performed with aligned
        · have samePage : other.toNat / pageSize = page := by simpa [eq_comm] using performed
          have alignedNat : other.toNat % pageSize = 0 := by
            have := congrArg UInt64.toNat aligned
            rwa [UInt64.toNat_mod, show pageSize.toUInt64.toNat = pageSize from rfl] at this
          have same : other = addr := by
            apply UInt64.toNat_inj.mp
            rw [toNat]
            unfold pageSize at *
            omega
          exact notFreed (same ▸ inMore)
        · simp at performed
  obtain ⟨frames', later⟩ := after.frames_run more
  have never := FrameAllocator.alloc_ne_of_run chosen (more.flatMap PmmOp.frameOps) notReleased
  obtain ⟨result', -, -⟩ := later.allocPage
  intro again
  rw [again, frames', frames] at result'
  obtain ⟨page', chosen', address'⟩ := Option.map_eq_some_iff.mp result'.symm
  have below' : page' < inner.totalPages := by
    have := FrameAllocator.bounded _ page' (FrameAllocator.alloc_of_some chosen').1
    rwa [FrameAllocator.total_run, FrameAllocator.total_alloc] at this
  have toNat' : addr.toNat = page' * pageSize := address' ▸ inner.toNat_address consistent below'
  have samePage : page' = page := by
    rw [toNat] at toNat'
    unfold pageSize at toNat'
    omega
  exact never (samePage ▸ chosen')

end FangaOS.Pmm
