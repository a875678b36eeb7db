import FangaOS.Memory.Heap
import FangaOS.Lib.Run

/-! Runs of the heap allocator under a caller that keeps the `GlobalAlloc`
contract: it deallocates, with its layout, only an allocation it holds. -/

namespace FangaOS.Heap

open StepMachine

/-- The allocator together with the allocations its caller holds. -/
structure Client where
  heap : HeapAllocator
  live : List (Nat × Layout)

inductive HeapOp
  | alloc (layout : Layout)
  | dealloc (ptr : Nat) (layout : Layout)

/-- A call of the caller: an allocation that returns a non-null pointer for a
nonzero size is held from then on, and only a held allocation is deallocated. -/
def Client.step (client : Client) : HeapOp → Client
  | .alloc layout =>
      let result := client.heap.alloc layout
      { heap := result.2
        live := if result.1 ≠ 0 ∧ layout.size ≠ 0 then (result.1, layout) :: client.live
          else client.live }
  | .dealloc ptr layout =>
      if (ptr, layout) ∈ client.live then
        { heap := client.heap.dealloc ptr layout, live := client.live.erase (ptr, layout) }
      else client

def Client.start (heapStart heapSize : Nat) : Client :=
  ⟨HeapAllocator.new.init heapStart heapSize, []⟩

/-- The bytes that `alloc` set aside for a held allocation, and that `dealloc`
gives back. -/
def reserved (held : Nat × Layout) : Set Nat :=
  Set.Ico held.1 (held.1 + max held.2.size minBlockSize)

/-- The free list is ordered and in the heap, and each held allocation is aligned
and apart from the free blocks and the other allocations. -/
structure Client.Valid (client : Client) (heapStart heapEnd : Nat) : Prop where
  ordered : Ordered client.heap.freeList
  large : ∀ block ∈ client.heap.freeList, minBlockSize ≤ block.size
  inside : client.heap.freeSet ⊆ Set.Ico heapStart heapEnd
  aligned : ∀ held ∈ client.live, held.1 % held.2.align = 0
  held : ∀ held ∈ client.live, reserved held ⊆ Set.Ico heapStart heapEnd
  apart : ∀ held ∈ client.live, Disjoint (reserved held) client.heap.freeSet
  distinct : client.live.Pairwise fun held other => Disjoint (reserved held) (reserved other)

theorem Layout.max_align (layout : Layout) :
    ∃ k, 3 ≤ k ∧ max layout.align heapAlign = 2 ^ k ∧ layout.align ∣ 2 ^ k := by
  obtain ⟨k, power⟩ := layout.powerOfTwo
  by_cases small : k ≤ 3
  · have below : layout.align ≤ heapAlign := by
      rw [power]
      exact (Nat.pow_le_pow_right (by decide) small).trans (by decide)
    refine ⟨3, le_rfl, max_eq_right below, ?_⟩
    rw [power]
    exact Nat.pow_dvd_pow 2 small
  · have above : heapAlign ≤ layout.align := by
      rw [power]
      exact (show heapAlign ≤ 2 ^ 4 by decide).trans (Nat.pow_le_pow_right (by decide) (by omega))
    exact ⟨k, by omega, (max_eq_left above).trans power, power ▸ Nat.dvd_refl _⟩

theorem Layout.dvd_align (layout : Layout) : layout.align ∣ max layout.align heapAlign := by
  obtain ⟨k, -, power, divides⟩ := layout.max_align
  rw [power]
  exact divides

theorem heapAlign_dvd_align (layout : Layout) : heapAlign ∣ max layout.align heapAlign := by
  obtain ⟨k, large, power, -⟩ := layout.max_align
  rw [power]
  exact Nat.pow_dvd_pow 2 large

theorem Disjoint.of_mem_erase {α : Type*} [BEq α] [LawfulBEq α] {R : α → α → Prop}
    (symmetric : ∀ {x y}, R x y → R y x) {l : List α} (pairwise : l.Pairwise R) {x y : α}
    (member : x ∈ l) (other : y ∈ l.erase x) : R x y :=
  (List.pairwise_cons.mp (((List.perm_cons_erase member).pairwise_iff symmetric).mp pairwise)).1 y
    other

theorem Client.valid_start (heapStart heapSize : Nat) :
    (Client.start heapStart heapSize).Valid heapStart (heapStart + heapSize) := by
  have above := le_alignUp heapStart (show 0 < heapAlign by decide)
  unfold Client.start HeapAllocator.init
  dsimp only
  split_ifs with small null
  · exact ⟨List.Pairwise.nil, nofun, by simp [HeapAllocator.freeSet, HeapAllocator.new], nofun,
      nofun, nofun, List.Pairwise.nil⟩
  · exact ⟨List.Pairwise.nil, nofun, by simp [HeapAllocator.freeSet], nofun, nofun, nofun,
      List.Pairwise.nil⟩
  · refine ⟨List.pairwise_singleton _ _, ?_, ?_, nofun, nofun, nofun, List.Pairwise.nil⟩
    · intro block member
      rw [List.mem_singleton] at member
      subst member
      exact Nat.le_of_not_lt small
    · rintro addr ⟨block, member, inBlock⟩
      rw [List.mem_singleton] at member
      subst member
      rw [mem_region] at inBlock
      rw [Set.mem_Ico]
      unfold minBlockSize at small
      dsimp only at inBlock
      omega

theorem Client.Valid.alloc {client : Client} {heapStart heapEnd : Nat}
    (valid : client.Valid heapStart heapEnd) (layout : Layout) :
    (client.step (.alloc layout)).Valid heapStart heapEnd := by
  rcases HeapAllocator.alloc_cases client.heap layout with ⟨unchanged, failed⟩ | ⟨nonzero, found⟩
  · have same : client.step (.alloc layout) = client := by
      have notHeld : ¬((client.heap.alloc layout).1 ≠ 0 ∧ layout.size ≠ 0) := by tauto
      simp only [Client.step, unchanged, if_neg notHeld]
    rw [same]
    exact valid
  · obtain ⟨⟨block, member, aligned⟩, taken, shrunk, ordered, large⟩ :=
      allocSearch_some (lt_max_of_lt_right (by decide)) valid.ordered found
    have smaller : (client.heap.alloc layout).2.freeSet ⊆ client.heap.freeSet :=
      shrunk.trans Set.sdiff_subset
    have stillApart : ∀ held ∈ client.live,
        Disjoint (reserved held) (client.heap.alloc layout).2.freeSet :=
      fun held member => (valid.apart held member).mono_right smaller
    refine ⟨ordered, fun other member => ?_, smaller.trans valid.inside, ?_, ?_, ?_, ?_⟩
    · rcases large other member with old | roomy
      · exact valid.large other old
      · exact roomy
    all_goals
      simp only [Client.step]
      split_ifs with kept
    · rintro held (_ | ⟨_, older⟩)
      · exact Nat.mod_eq_zero_of_dvd (Nat.dvd_trans (Layout.dvd_align layout)
          (aligned ▸ dvd_alignUp block.addr _))
      · exact valid.aligned held older
    · exact valid.aligned
    · rintro held (_ | ⟨_, older⟩)
      · exact taken.trans valid.inside
      · exact valid.held held older
    · exact valid.held
    · rintro held (_ | ⟨_, older⟩)
      · exact Set.disjoint_left.mpr fun addr inRange free => (shrunk free).2 inRange
      · exact stillApart held older
    · exact stillApart
    · refine List.Pairwise.cons (fun other older => ?_) valid.distinct
      exact ((valid.apart other older).mono_right taken).symm
    · exact valid.distinct

theorem Client.Valid.dealloc {client : Client} {heapStart heapEnd : Nat}
    (valid : client.Valid heapStart heapEnd) (ptr : Nat) (layout : Layout) :
    (client.step (.dealloc ptr layout)).Valid heapStart heapEnd := by
  by_cases heldNow : (ptr, layout) ∈ client.live
  · have erased : ∀ held ∈ client.live.erase (ptr, layout), held ∈ client.live :=
      fun _ member => List.mem_of_mem_erase member
    have apartFromReleased : ∀ held ∈ client.live.erase (ptr, layout),
        Disjoint (reserved held) (reserved (ptr, layout)) :=
      fun held member =>
        (Disjoint.of_mem_erase (fun apart => apart.symm) valid.distinct heldNow member).symm
    have apartAfter : ∀ heap : HeapAllocator,
        heap.freeSet ⊆ reserved (ptr, layout) ∪ client.heap.freeSet →
        ∀ held ∈ client.live.erase (ptr, layout), Disjoint (reserved held) heap.freeSet := by
      intro heap within held member
      refine Disjoint.mono_right within (Set.disjoint_union_right.mpr ⟨?_, ?_⟩)
      · exact apartFromReleased held member
      · exact valid.apart held (erased held member)
    simp only [Client.step, if_pos heldNow]
    unfold HeapAllocator.dealloc
    split_ifs with zero
    · exact ⟨valid.ordered, valid.large, valid.inside, fun held member =>
        valid.aligned held (erased held member), fun held member => valid.held held (erased held member),
        apartAfter _ Set.subset_union_right, valid.distinct.sublist List.erase_sublist⟩
    · let new : FreeBlock := ⟨ptr, max layout.size minBlockSize⟩
      have positive : 0 < new.size := lt_max_of_lt_right (by decide)
      have added : HeapAllocator.freeSet ⟨deallocInsert new none client.heap.freeList⟩ =
          reserved (ptr, layout) ∪ client.heap.freeSet :=
        freeSet_deallocInsert new none client.heap.freeList
      have apartNew : ∀ block ∈ client.heap.freeList, Apart new block := by
        intro block member
        refine apart_of_disjoint ?_ positive
          (lt_of_lt_of_le (by decide) (valid.large block member))
        exact disjoint_freeSet.mp (valid.apart _ heldNow) block member
      refine ⟨Ordered.deallocInsert positive valid.ordered apartNew nofun, ?_, ?_,
        fun held member => valid.aligned held (erased held member),
        fun held member => valid.held held (erased held member),
        apartAfter _ added.subset, valid.distinct.sublist List.erase_sublist⟩
      · intro block member
        obtain ⟨input, inputs, -, grown⟩ := mem_deallocInsert new member
        rcases List.mem_cons.mp inputs with rfl | old
        · exact le_trans (le_max_right _ _) grown
        · exact le_trans (valid.large input old) grown
      · rw [added]
        exact Set.union_subset (valid.held _ heldNow) valid.inside
  · simp only [Client.step, if_neg heldNow]
    exact valid

theorem Client.Valid.step {heapStart heapEnd : Nat} :
    Invariant Client.step fun client => client.Valid heapStart heapEnd := by
  intro client op valid
  cases op with
  | alloc layout => exact valid.alloc layout
  | dealloc ptr layout => exact valid.dealloc ptr layout

/-! ### Header alignment -/

/-- An allocation asks for a multiple of `HEAP_ALIGN` bytes. -/
def HeapOp.Rounded : HeapOp → Prop
  | .alloc layout => layout.size % heapAlign = 0
  | .dealloc _ _ => True

/-- The free blocks' headers and the held pointers are 8-aligned. -/
def Client.HeadersAligned (client : Client) : Prop :=
  (∀ block ∈ client.heap.freeList, block.addr % heapAlign = 0) ∧
    ∀ held ∈ client.live, held.1 % heapAlign = 0

theorem Client.HeadersAligned.step {client : Client} (aligned : client.HeadersAligned)
    {op : HeapOp} (rounded : op.Rounded) : (client.step op).HeadersAligned := by
  obtain ⟨blocksAligned, heldAligned⟩ := aligned
  cases op with
  | alloc layout =>
      rcases HeapAllocator.alloc_cases client.heap layout with ⟨unchanged, failed⟩ | ⟨-, found⟩
      · have notHeld : ¬((client.heap.alloc layout).1 ≠ 0 ∧ layout.size ≠ 0) := by tauto
        simp only [Client.step, unchanged, if_neg notHeld]
        exact ⟨blocksAligned, heldAligned⟩
      · obtain ⟨pre, block, post, split, replaced, ptrEq, -, -⟩ :=
          allocSearch_spec (lt_max_of_lt_right (by decide)) found
        have ptrAligned : (client.heap.alloc layout).1 % heapAlign = 0 := by
          rw [ptrEq]
          exact Nat.mod_eq_zero_of_dvd
            (Nat.dvd_trans (heapAlign_dvd_align layout) (dvd_alignUp block.addr _))
        have inList : ∀ other ∈ pre ++ block :: post, other.addr % heapAlign = 0 := by
          rw [← split]
          exact blocksAligned
        refine ⟨fun other member => ?_, ?_⟩
        · change other ∈ (client.heap.alloc layout).2.freeList at member
          rw [replaced, List.mem_append, List.mem_append] at member
          rcases member with (inPre | inPieces) | inPost
          · exact inList other (List.mem_append_left _ inPre)
          · have : layout.size % heapAlign = 0 := rounded
            rcases addr_of_mem_splitBlock inPieces with start | after
            · rw [start]
              exact inList block (List.mem_append_right _ List.mem_cons_self)
            · rw [after]
              unfold heapAlign minBlockSize at *
              omega
          · exact inList other (List.mem_append_right _ (List.mem_cons_of_mem _ inPost))
        · simp only [Client.step]
          split_ifs
          · rintro held (_ | ⟨_, older⟩)
            · exact ptrAligned
            · exact heldAligned held older
          · exact heldAligned
  | dealloc ptr layout =>
      by_cases heldNow : (ptr, layout) ∈ client.live
      · simp only [Client.step, if_pos heldNow]
        refine ⟨fun other member => ?_, fun held member =>
          heldAligned held (List.mem_of_mem_erase member)⟩
        unfold HeapAllocator.dealloc at member
        split_ifs at member
        · exact blocksAligned other member
        · obtain ⟨input, inputs, start, -⟩ := mem_deallocInsert _ member
          rw [start]
          rcases List.mem_cons.mp inputs with rfl | old
          · exact heldAligned _ heldNow
          · exact blocksAligned input old
      · simp only [Client.step, if_neg heldNow]
        exact ⟨blocksAligned, heldAligned⟩

theorem Client.headersAligned_start (heapStart heapSize : Nat) :
    (Client.start heapStart heapSize).HeadersAligned := by
  refine ⟨fun block member => ?_, nofun⟩
  unfold Client.start HeapAllocator.init at member
  dsimp only at member
  split_ifs at member
  · cases member
  · cases member
  · rw [List.mem_singleton] at member
    rw [member]
    exact Nat.mod_eq_zero_of_dvd (dvd_alignUp heapStart heapAlign)

/-- Along every run from `init` in which only held allocations are given back,
the free list stays ordered, its blocks can hold a header and lie in the heap,
and every held allocation is aligned as its layout asks, lies in the heap and
shares no byte with a free block or another held allocation; when every
allocation asks for a multiple of `HEAP_ALIGN` bytes, every header and every
held pointer is also 8-aligned. -/
theorem heap_client_runs_stay_valid (heapStart heapSize : Nat) (ops : List HeapOp) :
    let client := StepMachine.run Client.step (Client.start heapStart heapSize) ops
    client.Valid heapStart (heapStart + heapSize) ∧
      ((∀ op ∈ ops, op.Rounded) → client.HeadersAligned) :=
  ⟨Client.Valid.step.run (Client.valid_start heapStart heapSize) ops, fun rounded =>
    run_of_allowed (fun _ _ allowed aligned => aligned.step allowed)
      (Client.headersAligned_start heapStart heapSize) rounded⟩

/-- One allocation of 17 bytes from a fresh heap leaves the next free block at
`4113`, which is not 8-aligned. -/
theorem heap_alloc_misaligns_header :
    let layout : Layout := ⟨17, 1, ⟨0, rfl⟩⟩
    let client : Client := StepMachine.run Client.step (Client.start 4096 1024) [.alloc layout]
    client.live = [(4096, layout)] ∧ client.heap.freeList = [⟨4113, 1007⟩] ∧
      ∃ block ∈ client.heap.freeList, block.addr % heapAlign ≠ 0 := by
  decide

end FangaOS.Heap
