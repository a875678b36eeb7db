import FangaOS.Memory.Pmm

/-! What `init` of the bitmap physical memory manager sets up, on a memory map of
disjoint page-aligned usable entries. -/

namespace FangaOS.Pmm

open StepMachine FangaOS.Addr

def Entry.Disjoint (entry other : Entry) : Prop :=
  entry.length = 0 ∨ other.length = 0 ∨
    entry.base.toNat + entry.length.toNat ≤ other.base.toNat ∨
    other.base.toNat + other.length.toNat ≤ entry.base.toNat

instance (entry other : Entry) : Decidable (entry.Disjoint other) := by
  unfold Entry.Disjoint
  infer_instance

/-- A memory map as limine hands it over: usable entries pairwise disjoint and
page-aligned, and every entry inside the 52-bit physical address space. -/
structure AlignedMemoryMap (memmap : List Entry) : Prop where
  disjoint : memmap.Pairwise fun entry other =>
    entry.entryType = .usable → other.entryType = .usable → entry.Disjoint other
  aligned : ∀ entry ∈ memmap, entry.entryType = .usable →
    entry.base.toNat % pageSize = 0 ∧ entry.length.toNat % pageSize = 0
  physical : ∀ entry ∈ memmap, entry.base.toNat + entry.length.toNat ≤ 2 ^ 52

/-! ### The highest address and the pages of each entry -/

theorem toNat_entryEnd {entry : Entry} (physical : entry.base.toNat + entry.length.toNat ≤ 2 ^ 52) :
    (entry.base + entry.length).toNat = entry.base.toNat + entry.length.toNat :=
  UInt64.toNat_add_of_lt (Nat.lt_of_le_of_lt physical (by decide))

theorem highestAddress_bounds (memmap : List Entry)
    (physical : ∀ entry ∈ memmap, entry.base.toNat + entry.length.toNat ≤ 2 ^ 52) :
    (highestAddress memmap).toNat ≤ 2 ^ 52 ∧
      ∀ entry ∈ memmap, entry.base.toNat + entry.length.toNat ≤ (highestAddress memmap).toNat := by
  -- The fold keeps the bound and never goes below the highest end seen so far.
  suffices folded : ∀ (entries : List Entry) (highest : UInt64), highest.toNat ≤ 2 ^ 52 →
      (∀ entry ∈ entries, entry.base.toNat + entry.length.toNat ≤ 2 ^ 52) →
      let result := entries.foldl
        (fun highest entry =>
          let entryEnd := entry.base + entry.length
          if entryEnd > highest then entryEnd else highest) highest
      result.toNat ≤ 2 ^ 52 ∧ highest.toNat ≤ result.toNat ∧
        ∀ entry ∈ entries, entry.base.toNat + entry.length.toNat ≤ result.toNat by
    obtain ⟨bound, -, above⟩ := folded memmap 0 (Nat.zero_le _) physical
    exact ⟨bound, above⟩
  intro entries
  induction entries with
  | nil => exact fun highest bound _ => ⟨bound, le_rfl, nofun⟩
  | cons entry entries ih =>
      intro highest bound inside
      have last := toNat_entryEnd (inside entry List.mem_cons_self)
      let next : UInt64 := if entry.base + entry.length > highest then entry.base + entry.length
        else highest
      have nextBounds : next.toNat ≤ 2 ^ 52 ∧ highest.toNat ≤ next.toNat ∧
          entry.base.toNat + entry.length.toNat ≤ next.toNat := by
        by_cases higher : entry.base + entry.length > highest
        · have := UInt64.lt_iff_toNat_lt.mp higher
          simp only [next, if_pos higher, last]
          have := inside entry List.mem_cons_self
          omega
        · have := UInt64.lt_iff_toNat_lt.not.mp higher
          simp only [next, if_neg higher]
          omega
      obtain ⟨resultBound, nextBelow, rest⟩ :=
        ih next nextBounds.1 fun other member => inside other (List.mem_cons_of_mem _ member)
      refine ⟨resultBound, Nat.le_trans nextBounds.2.1 nextBelow, ?_⟩
      intro other member
      rcases List.mem_cons.mp member with rfl | later
      · exact Nat.le_trans nextBounds.2.2 nextBelow
      · exact rest other later

theorem entryPages_of_not_usable {entry : Entry} (other : entry.entryType ≠ .usable) :
    entryPages entry = [] := by
  unfold entryPages
  rw [if_neg other]

theorem entryPages_of_aligned {entry : Entry} (usable : entry.entryType = .usable)
    (aligned : entry.base.toNat % pageSize = 0 ∧ entry.length.toNat % pageSize = 0)
    (physical : entry.base.toNat + entry.length.toNat ≤ 2 ^ 52) :
    entryPages entry =
      List.range' (entry.base.toNat / pageSize) (entry.length.toNat / pageSize) := by
  have startNat : (alignUp entry.base pageSize.toUInt64).toNat = entry.base.toNat := by
    rw [toNat_alignUp (by unfold pageSize at *; omega)]
    unfold pageSize at *
    omega
  have endNat : (alignDown (entry.base + entry.length) pageSize.toUInt64).toNat =
      entry.base.toNat + entry.length.toNat := by
    rw [toNat_alignDown, toNat_entryEnd physical]
    unfold pageSize at *
    omega
  have lengthNat : (alignDown (entry.base + entry.length) pageSize.toUInt64 -
      alignUp entry.base pageSize.toUInt64).toNat = entry.length.toNat := by
    rw [UInt64.toNat_sub_of_le _ _ (UInt64.le_iff_toNat_le.mpr (by omega)), startNat, endNat]
    omega
  unfold entryPages
  rw [if_pos usable]
  dsimp only
  rw [startNat, lengthNat]

theorem lt_of_mem_entryPages {entry : Entry} {page : Nat} (member : page ∈ entryPages entry)
    (aligned : entry.entryType = .usable →
      entry.base.toNat % pageSize = 0 ∧ entry.length.toNat % pageSize = 0)
    (physical : entry.base.toNat + entry.length.toNat ≤ 2 ^ 52) :
    entry.base.toNat / pageSize ≤ page ∧
      page < (entry.base.toNat + entry.length.toNat) / pageSize := by
  by_cases usable : entry.entryType = .usable
  · rw [entryPages_of_aligned usable (aligned usable) physical, List.mem_range'_1] at member
    have := (aligned usable).1
    have := (aligned usable).2
    unfold pageSize at *
    omega
  · rw [entryPages_of_not_usable usable] at member
    cases member

theorem entryPages_disjoint {entry other : Entry}
    (disjoint : entry.entryType = .usable → other.entryType = .usable → entry.Disjoint other)
    (alignedEntry : entry.entryType = .usable →
      entry.base.toNat % pageSize = 0 ∧ entry.length.toNat % pageSize = 0)
    (alignedOther : other.entryType = .usable →
      other.base.toNat % pageSize = 0 ∧ other.length.toNat % pageSize = 0)
    (physicalEntry : entry.base.toNat + entry.length.toNat ≤ 2 ^ 52)
    (physicalOther : other.base.toNat + other.length.toNat ≤ 2 ^ 52) {page : Nat}
    (inEntry : page ∈ entryPages entry) : page ∉ entryPages other := by
  intro inOther
  have usableEntry : entry.entryType = .usable := by
    by_contra unusable
    rw [entryPages_of_not_usable unusable] at inEntry
    cases inEntry
  have usableOther : other.entryType = .usable := by
    by_contra unusable
    rw [entryPages_of_not_usable unusable] at inOther
    cases inOther
  have first := lt_of_mem_entryPages inEntry alignedEntry physicalEntry
  have second := lt_of_mem_entryPages inOther alignedOther physicalOther
  have := (alignedEntry usableEntry).1
  have := (alignedOther usableOther).1
  rcases disjoint usableEntry usableOther with empty | empty | before | after
  · have : entry.length.toNat = 0 := by simp [empty]
    unfold pageSize at *
    omega
  · have : other.length.toNat = 0 := by simp [empty]
    unfold pageSize at *
    omega
  all_goals
    unfold pageSize at *
    omega

theorem nodup_entryPages (entry : Entry) : (entryPages entry).Nodup := by
  unfold entryPages
  split
  · exact List.nodup_range'
  · exact List.nodup_nil

/-! ### The counting loops of `init` -/

/-- The bitmap has a bit for every page, and the running count is the number of
free pages. -/
structure Counted (state : PhysicalMemoryManager × Nat) : Prop where
  sized : state.1.totalPages ≤ state.1.bitmap.length * bitsPerEntry
  counted : state.2 = state.1.freeSet.card

theorem Counted.markFree {state : PhysicalMemoryManager × Nat} (counted : Counted state)
    {page : Nat} (below : page < state.1.totalPages) (fresh : page ∉ state.1.freeSet) :
    Counted (markFreeCounting state page) ∧
      (markFreeCounting state page).1.totalPages = state.1.totalPages ∧
      (markFreeCounting state page).1.freeSet = insert page state.1.freeSet := by
  have added : (state.1.markPageFreeInner page).freeSet = insert page state.1.freeSet := by
    rw [PhysicalMemoryManager.freeSet_markPageFreeInner counted.sized, if_pos below]
  have total : (state.1.markPageFreeInner page).totalPages = state.1.totalPages :=
    PhysicalMemoryManager.totalPages_updatePageBit _ _ _
  have length : (state.1.markPageFreeInner page).bitmap.length = state.1.bitmap.length :=
    PhysicalMemoryManager.length_updatePageBit _ _ _
  refine ⟨⟨?_, ?_⟩, total, added⟩
  · show (state.1.markPageFreeInner page).totalPages ≤
      (state.1.markPageFreeInner page).bitmap.length * bitsPerEntry
    rw [total, length]
    exact counted.sized
  · show state.2 + 1 = (state.1.markPageFreeInner page).freeSet.card
    rw [added, Finset.card_insert_of_notMem fresh, counted.counted]

theorem Counted.markUsed {state : PhysicalMemoryManager × Nat} (counted : Counted state)
    {page : Nat} (free : page ∈ state.1.freeSet) :
    Counted (markUsedUncounting state page) ∧
      (markUsedUncounting state page).1.totalPages = state.1.totalPages ∧
      (markUsedUncounting state page).1.freeSet = state.1.freeSet.erase page := by
  have below := (PhysicalMemoryManager.mem_freeSet.mp free).1
  have taken := state.1.freeSet_markPageUsedInner page
  have length : (state.1.markPageUsedInner page).bitmap.length = state.1.bitmap.length :=
    PhysicalMemoryManager.length_updatePageBit _ _ _
  have total : (state.1.markPageUsedInner page).totalPages = state.1.totalPages :=
    PhysicalMemoryManager.totalPages_updatePageBit _ _ _
  unfold markUsedUncounting
  rw [if_pos below]
  refine ⟨⟨?_, ?_⟩, total, taken⟩
  · show (state.1.markPageUsedInner page).totalPages ≤
      (state.1.markPageUsedInner page).bitmap.length * bitsPerEntry
    rw [total, length]
    exact counted.sized
  · show state.2 - 1 = (state.1.markPageUsedInner page).freeSet.card
    rw [taken, Finset.card_erase_of_mem free, counted.counted]

theorem Counted.markFreeAll {pages : List Nat} (distinct : pages.Nodup) :
    ∀ {state : PhysicalMemoryManager × Nat}, Counted state →
      (∀ page ∈ pages, page < state.1.totalPages ∧ page ∉ state.1.freeSet) →
      Counted (pages.foldl markFreeCounting state) ∧
        (pages.foldl markFreeCounting state).1.totalPages = state.1.totalPages ∧
        (pages.foldl markFreeCounting state).1.freeSet = state.1.freeSet ∪ pages.toFinset := by
  induction pages with
  | nil => exact fun counted _ => ⟨counted, rfl, by simp⟩
  | cons page pages ih =>
      intro state counted fresh
      obtain ⟨notLater, restDistinct⟩ := List.nodup_cons.mp distinct
      obtain ⟨below, absent⟩ := fresh page List.mem_cons_self
      obtain ⟨marked, total, added⟩ := counted.markFree below absent
      have restFresh : ∀ other ∈ pages, other < (markFreeCounting state page).1.totalPages ∧
          other ∉ (markFreeCounting state page).1.freeSet := by
        intro other member
        obtain ⟨otherBelow, otherAbsent⟩ := fresh other (List.mem_cons_of_mem _ member)
        rw [total, added, Finset.mem_insert]
        exact ⟨otherBelow, fun inserted => inserted.elim (fun same => notLater (same ▸ member))
          otherAbsent⟩
      obtain ⟨result, resultTotal, resultFree⟩ := ih restDistinct marked restFresh
      refine ⟨result, resultTotal.trans total, ?_⟩
      rw [List.foldl_cons, resultFree, added, List.toFinset_cons, Finset.union_insert,
        Finset.insert_union]

theorem Counted.markUsedAll {pages : List Nat} (distinct : pages.Nodup) :
    ∀ {state : PhysicalMemoryManager × Nat}, Counted state →
      (∀ page ∈ pages, page ∈ state.1.freeSet) →
      Counted (pages.foldl markUsedUncounting state) ∧
        (pages.foldl markUsedUncounting state).1.totalPages = state.1.totalPages := by
  induction pages with
  | nil => exact fun counted _ => ⟨counted, rfl⟩
  | cons page pages ih =>
      intro state counted free
      obtain ⟨notLater, restDistinct⟩ := List.nodup_cons.mp distinct
      obtain ⟨marked, total, taken⟩ := counted.markUsed (free page List.mem_cons_self)
      have restFree : ∀ other ∈ pages, other ∈ (markUsedUncounting state page).1.freeSet := by
        intro other member
        rw [taken]
        exact Finset.mem_erase.mpr ⟨fun same => notLater (same ▸ member),
          free other (List.mem_cons_of_mem _ member)⟩
      obtain ⟨result, resultTotal⟩ := ih restDistinct marked restFree
      exact ⟨result, resultTotal.trans total⟩

/-! ### The state that `init` builds -/

theorem AlignedMemoryMap.tail {entry : Entry} {memmap : List Entry}
    (map : AlignedMemoryMap (entry :: memmap)) : AlignedMemoryMap memmap where
  disjoint := (List.pairwise_cons.mp map.disjoint).2
  aligned := fun other member => map.aligned other (List.mem_cons_of_mem _ member)
  physical := fun other member => map.physical other (List.mem_cons_of_mem _ member)

theorem Counted.markEntries {memmap : List Entry} (map : AlignedMemoryMap memmap) :
    ∀ {state : PhysicalMemoryManager × Nat}, Counted state →
      (∀ entry ∈ memmap, ∀ page ∈ entryPages entry,
        page < state.1.totalPages ∧ page ∉ state.1.freeSet) →
      let result :=
        memmap.foldl (fun state entry => (entryPages entry).foldl markFreeCounting state) state
      Counted result ∧ result.1.totalPages = state.1.totalPages ∧
        state.1.freeSet ⊆ result.1.freeSet ∧
        ∀ entry ∈ memmap, ∀ page ∈ entryPages entry, page ∈ result.1.freeSet := by
  induction memmap with
  | nil => exact fun counted _ => ⟨counted, rfl, subset_refl _, nofun⟩
  | cons entry rest ih =>
      intro state counted fresh
      obtain ⟨marked, total, added⟩ :=
        counted.markFreeAll (nodup_entryPages entry) (fresh entry List.mem_cons_self)
      -- The later entries' pages are not the ones just marked: the entries are disjoint.
      have restFresh : ∀ other ∈ rest, ∀ page ∈ entryPages other,
          page < ((entryPages entry).foldl markFreeCounting state).1.totalPages ∧
            page ∉ ((entryPages entry).foldl markFreeCounting state).1.freeSet := by
        intro other member page inOther
        obtain ⟨below, absent⟩ := fresh other (List.mem_cons_of_mem _ member) page inOther
        rw [total, added, Finset.mem_union, List.mem_toFinset]
        refine ⟨below, fun marked => marked.elim absent fun inEntry => ?_⟩
        exact entryPages_disjoint ((List.pairwise_cons.mp map.disjoint).1 other member)
          (map.aligned entry List.mem_cons_self) (map.aligned other (List.mem_cons_of_mem _ member))
          (map.physical entry List.mem_cons_self) (map.physical other (List.mem_cons_of_mem _ member))
          inEntry inOther
      obtain ⟨result, resultTotal, grows, covered⟩ := ih map.tail marked restFresh
      refine ⟨result, resultTotal.trans total, fun page member => grows ?_, ?_⟩
      · rw [added]
        exact Finset.mem_union_left _ member
      · intro other member page inOther
        rcases List.mem_cons.mp member with rfl | later
        · apply grows
          rw [added]
          exact Finset.mem_union_right _ (List.mem_toFinset.mpr inOther)
        · exact covered other later page inOther

theorem freeSet_allUsed (entries total : Nat) (highest : UInt64) :
    PhysicalMemoryManager.freeSet
      { bitmap := List.replicate entries (~~~0), totalPages := total, freePages := 0,
        highestAddr := highest } = ∅ := by
  refine Finset.eq_empty_of_forall_notMem fun page member => ?_
  have free := (PhysicalMemoryManager.mem_freeSet.mp member).2
  unfold PhysicalMemoryManager.pageFree at free
  rw [List.getElem?_replicate] at free
  by_cases inside : page / bitsPerEntry < entries
  · rw [if_pos inside] at free
    change (~~~(0 : UInt64) &&& 1 <<< (page % bitsPerEntry).toUInt64 == 0) = true at free
    have low : page % bitsPerEntry < 64 := Nat.mod_lt page (by decide)
    rw [UInt64.allOnes_test low] at free
    cases free
  · simp only [inside, if_false] at free
    cases free

theorem counted_allUsed (total : Nat) (highest : UInt64) :
    Counted
      ({ bitmap := List.replicate ((total + bitsPerEntry - 1) / bitsPerEntry) (~~~0),
         totalPages := total, freePages := 0, highestAddr := highest }, 0) where
  sized := by
    show total ≤ (List.replicate ((total + bitsPerEntry - 1) / bitsPerEntry) (~~~0 : UInt64)).length * bitsPerEntry
    rw [List.length_replicate]
    unfold bitsPerEntry
    omega
  counted := by
    show 0 = Finset.card (PhysicalMemoryManager.freeSet _)
    rw [freeSet_allUsed, Finset.card_empty]

theorem Counted.consistent {state : PhysicalMemoryManager × Nat} (counted : Counted state)
    (addressable : state.1.totalPages * pageSize < 2 ^ 64) :
    ({ state.1 with freePages := state.2 } : PhysicalMemoryManager).Consistent where
  sized := counted.sized
  addressable := addressable
  counted := counted.counted

theorem mem_entryPages_of_region {entry : Entry} (usable : entry.entryType = .usable)
    (aligned : entry.base.toNat % pageSize = 0 ∧ entry.length.toNat % pageSize = 0)
    (physical : entry.base.toNat + entry.length.toNat ≤ 2 ^ 52) {size : Nat}
    (roomy : size ≤ entry.length.toNat) {page : Nat}
    (inRegion : page ∈ List.range' (entry.base.toNat / pageSize) ((size + pageSize - 1) / pageSize)) :
    page ∈ entryPages entry := by
  rw [entryPages_of_aligned usable aligned physical, List.mem_range'_1]
  rw [List.mem_range'_1] at inRegion
  have := aligned.2
  unfold pageSize at *
  omega

theorem init_consistent {memmap : List Entry} (map : AlignedMemoryMap memmap)
    {pmm : PhysicalMemoryManager} (initialized : PhysicalMemoryManager.init memmap = some pmm) :
    pmm.Consistent := by
  obtain ⟨highBound, ends⟩ := highestAddress_bounds memmap map.physical
  unfold PhysicalMemoryManager.init at initialized
  dsimp only at initialized
  generalize highestAddress memmap = highest at initialized highBound ends
  generalize totalEq : (highest.toNat + pageSize - 1) % 2 ^ 64 / pageSize = totalPages at initialized
  split at initialized
  · rename_i entry found
    split_ifs at initialized with zero
    cases initialized
    have member := List.mem_of_find?_eq_some found
    have chosen := List.find?_some found
    simp only [Bool.and_eq_true, decide_eq_true_eq] at chosen
    obtain ⟨marked, total, -, covered⟩ := (counted_allUsed totalPages highest).markEntries map
      fun other member page inOther => by
        refine ⟨?_, by rw [freeSet_allUsed]; exact Finset.notMem_empty page⟩
        have := (lt_of_mem_entryPages inOther (map.aligned other member) (map.physical other member)).2
        have := ends other member
        show page < totalPages
        unfold pageSize at *
        omega
    have size : ((totalPages + bitsPerEntry - 1) / bitsPerEntry * 8).toUInt64.toNat =
        (totalPages + bitsPerEntry - 1) / bitsPerEntry * 8 := by
      apply UInt64.toNat_ofNat_of_lt'
      show _ < 2 ^ 64
      unfold pageSize bitsPerEntry at *
      omega
    have roomy := UInt64.le_iff_toNat_le.mp chosen.2
    rw [size] at roomy
    obtain ⟨done, doneTotal⟩ := marked.markUsedAll List.nodup_range' fun page inBitmap =>
      covered entry member page (mem_entryPages_of_region chosen.1 (map.aligned entry member chosen.1)
        (map.physical entry member) roomy inBitmap)
    refine done.consistent ?_
    rw [doneTotal, total]
    show totalPages * pageSize < 2 ^ 64
    unfold pageSize at *
    omega
  · simp at initialized

/-- An 8-byte usable region below a page-aligned one: it holds the bitmap but
has no whole page, so page 1 is uncounted without having been counted, and the
only free page is lost to `alloc_page`. -/
theorem pmm_init_uncounts_bitmap_page :
    let memmap : List Entry := [⟨0x1000, 8, .usable⟩, ⟨0x2000, 0x1000, .usable⟩]
    memmap.Pairwise (fun entry other =>
        entry.entryType = .usable → other.entryType = .usable → entry.Disjoint other) ∧
      (PhysicalMemoryManager.init memmap).map
          (fun pmm => (pmm.freePages, pmm.freeSet.card, pmm.pageFree 2, pmm.allocPage.1)) =
        some (0, 1, true, none) := by
  decide

/-- From a state that `init` builds out of an aligned memory map, along every
run of `alloc_page` and `free_page`: the counter is the number of clear bits,
`alloc_page` hands out an aligned address of a free page and takes it, fails
only when no page is free, and does not hand the address out again before it is
freed, and an ignored `free_page` changes nothing. -/
theorem pmm_init_run_consistent {memmap : List Entry} (map : AlignedMemoryMap memmap)
    {pmm : PhysicalMemoryManager} (initialized : PhysicalMemoryManager.init memmap = some pmm)
    (ops : List PmmOp) :
    let state : PhysicalMemoryManager := StepMachine.run PhysicalMemoryManager.step pmm ops
    state.freePages = state.freeSet.card ∧
      (∀ addr, state.allocPage.1 = some addr →
        addr.toNat % pageSize = 0 ∧ addr.toNat < state.totalPages * pageSize ∧
          state.pageFree (addr.toNat / pageSize) = true ∧
          state.allocPage.2.pageFree (addr.toNat / pageSize) = false) ∧
      (state.allocPage.1 = none → ∀ page < state.totalPages, state.pageFree page = false) ∧
      (∀ addr more, state.allocPage.1 = some addr → PmmOp.freePage addr ∉ more →
        (StepMachine.run PhysicalMemoryManager.step state.allocPage.2 more).allocPage.1 ≠
          some addr) ∧
      ∀ addr, addr % pageSize.toUInt64 ≠ 0 ∨ state.totalPages ≤ addr.toNat / pageSize ∨
        state.pageFree (addr.toNat / pageSize) = true → state.freePage addr = state := by
  intro state
  have consistent : state.Consistent := ((init_consistent map initialized).frames_run ops).2
  refine ⟨consistent.counted, fun addr allocated => ?_, consistent.allocPage_none,
    fun addr more allocated => consistent.allocPage_ne_of_run allocated more,
    fun addr ignored => state.freePage_of_ignored ignored⟩
  obtain ⟨aligned, below, free, taken⟩ := consistent.allocPage_some allocated
  refine ⟨aligned, ?_, free, taken⟩
  unfold pageSize at *
  omega

theorem pmm_init_run_consistent_one_region :
    let memmap : List Entry := [⟨0x1000, 0x2000, .usable⟩]
    let pmm : PhysicalMemoryManager := ⟨[~~~0 - 4], 3, 1, 0x3000⟩
    let state := StepMachine.run PhysicalMemoryManager.step pmm [.allocPage, .freePage 0x2000]
    AlignedMemoryMap memmap ∧ PhysicalMemoryManager.init memmap = some pmm ∧
      state.freePages = state.freeSet.card := by
  intro memmap pmm state
  have map : AlignedMemoryMap memmap := ⟨by decide, by decide, by decide⟩
  have initialized : PhysicalMemoryManager.init memmap = some pmm := by decide
  exact ⟨map, initialized, (pmm_init_run_consistent map initialized _).1⟩

end FangaOS.Pmm
