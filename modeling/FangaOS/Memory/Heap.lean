import Mathlib

/-! The linked-list heap allocator of `memory/heap/linked_list.rs`.  The free list
is the blocks reached from `head` along `next`, each its address and `size`;
addresses are `usize` values below `2 ^ 64`. -/

namespace FangaOS.Heap

/-- `MIN_BLOCK_SIZE`, the size of a `FreeBlock`: a `usize` and a pointer. -/
def minBlockSize : Nat := 16

def heapAlign : Nat := 8

/-- `core::alloc::Layout`: a size and a power-of-two alignment. -/
structure Layout where
  size : Nat
  align : Nat
  powerOfTwo : align.isPowerOfTwo
  deriving DecidableEq

/-- A `FreeBlock` at `addr`; its `next` is the block after it in the list. -/
structure FreeBlock where
  addr : Nat
  size : Nat
  deriving DecidableEq, Repr

/-- `HeapAllocator`: the free blocks reached from `head`. -/
structure HeapAllocator where
  freeList : List FreeBlock
  deriving DecidableEq, Repr

/-- `align_up` for a power-of-two `align`, where `(val + align - 1) & !(align - 1)`
rounds up to a multiple of `align`. -/
def alignUp (val align : Nat) : Nat :=
  (val + align - 1) / align * align

def HeapAllocator.new : HeapAllocator := ⟨[]⟩

/-- `init`; `NonNull::new` of a block at address `0` leaves the list empty. -/
def HeapAllocator.init (self : HeapAllocator) (heapStart heapSize : Nat) : HeapAllocator :=
  let alignedStart := alignUp heapStart heapAlign
  let adjustedSize := heapSize - (alignedStart - heapStart)
  if adjustedSize < minBlockSize then self
  else { freeList := if alignedStart = 0 then [] else [⟨alignedStart, adjustedSize⟩] }

/-- The parts of `block` before and after an allocation that can hold a header. -/
def splitBlock (block : FreeBlock) (alignedAddr size : Nat) : List FreeBlock :=
  let alignmentOffset := alignedAddr - block.addr
  let remaining := block.size - size - alignmentOffset
  if remaining ≥ minBlockSize then
    let newBlock : FreeBlock := ⟨alignedAddr + size, remaining⟩
    if alignmentOffset ≥ minBlockSize then [⟨block.addr, alignmentOffset⟩, newBlock]
    else [newBlock]
  else []

/-- The search loop of `alloc`: the first block that fits, the address handed
out and the list that then replaces `blocks`. -/
def allocSearch (size align : Nat) : List FreeBlock → Option (Nat × List FreeBlock)
  | [] => none
  | block :: rest =>
      let alignedAddr := alignUp block.addr align
      if block.size ≥ size + (alignedAddr - block.addr) then
        some (alignedAddr, splitBlock block alignedAddr size ++ rest)
      else (allocSearch size align rest).map fun (ptr, blocks) => (ptr, block :: blocks)

/-- `alloc`: the pointer, `1` (`NonNull::dangling`) for a zero size and `0`
(null) when no block fits, and the allocator after it. -/
def HeapAllocator.alloc (self : HeapAllocator) (layout : Layout) : Nat × HeapAllocator :=
  if layout.size = 0 then (1, self)
  else
    let size := max layout.size minBlockSize
    let align := max layout.align heapAlign
    match allocSearch size align self.freeList with
    | some (ptr, freeList) => (ptr, { freeList })
    | none => (0, self)

/-- `block` in front of `blocks`, merged with the first of them when the two
touch: how `dealloc` links a block to the one after it. -/
def coalesce (block : FreeBlock) : List FreeBlock → List FreeBlock
  | next :: rest =>
      if block.addr + block.size = next.addr then ⟨block.addr, block.size + next.size⟩ :: rest
      else block :: next :: rest
  | [] => [block]

/-- Linking `blocks` after `prev`, or from `head` when there is no `prev`. -/
def linkAfter : Option FreeBlock → List FreeBlock → List FreeBlock
  | some prev, blocks => coalesce prev blocks
  | none, blocks => blocks

/-- The insertion loop of `dealloc` for the block `new`, from `current` on,
with `prev` the block before it. -/
def deallocInsert (new : FreeBlock) : Option FreeBlock → List FreeBlock → List FreeBlock
  | prev, current :: rest =>
      if new.addr < current.addr then linkAfter prev (coalesce new (current :: rest))
      else prev.toList ++ deallocInsert new (some current) rest
  | prev, [] => linkAfter prev [new]

def HeapAllocator.dealloc (self : HeapAllocator) (ptr : Nat) (layout : Layout) : HeapAllocator :=
  if layout.size = 0 then self
  else
    let size := max layout.size minBlockSize
    { freeList := deallocInsert ⟨ptr, size⟩ none self.freeList }

/-! ### Regions and order of the free list -/

def FreeBlock.region (block : FreeBlock) : Set Nat :=
  Set.Ico block.addr (block.addr + block.size)

/-- The addresses inside the blocks of a list. -/
def freeSet (blocks : List FreeBlock) : Set Nat :=
  {addr | ∃ block ∈ blocks, addr ∈ block.region}

def HeapAllocator.freeSet (heap : HeapAllocator) : Set Nat :=
  Heap.freeSet heap.freeList

/-- Each block ends at or before the start of every later block. -/
def Ordered (blocks : List FreeBlock) : Prop :=
  blocks.Pairwise fun block next => block.addr + block.size ≤ next.addr

def Apart (block other : FreeBlock) : Prop :=
  block.addr + block.size ≤ other.addr ∨ other.addr + other.size ≤ block.addr

@[simp] theorem mem_region {block : FreeBlock} {addr : Nat} :
    addr ∈ block.region ↔ block.addr ≤ addr ∧ addr < block.addr + block.size :=
  Set.mem_Ico

@[simp] theorem freeSet_nil : freeSet [] = ∅ := by
  simp [freeSet]

@[simp] theorem freeSet_cons (block : FreeBlock) (blocks : List FreeBlock) :
    freeSet (block :: blocks) = block.region ∪ freeSet blocks := by
  ext addr
  simp [freeSet]

@[simp] theorem freeSet_append (blocks more : List FreeBlock) :
    freeSet (blocks ++ more) = freeSet blocks ∪ freeSet more := by
  ext addr
  simp only [freeSet, List.mem_append, Set.mem_ofPred_eq, Set.mem_union]
  constructor
  · rintro ⟨block, inBlocks | inMore, inside⟩
    · exact Or.inl ⟨block, inBlocks, inside⟩
    · exact Or.inr ⟨block, inMore, inside⟩
  · rintro (⟨block, member, inside⟩ | ⟨block, member, inside⟩)
    · exact ⟨block, Or.inl member, inside⟩
    · exact ⟨block, Or.inr member, inside⟩

theorem region_subset_freeSet {block : FreeBlock} {blocks : List FreeBlock}
    (member : block ∈ blocks) : block.region ⊆ freeSet blocks :=
  fun _ inside => ⟨block, member, inside⟩

theorem disjoint_freeSet {region : Set Nat} {blocks : List FreeBlock} :
    Disjoint region (freeSet blocks) ↔ ∀ block ∈ blocks, Disjoint region block.region := by
  constructor
  · exact fun disjoint block member => disjoint.mono_right (region_subset_freeSet member)
  · intro apart
    rw [Set.disjoint_left]
    rintro addr inRegion ⟨block, member, inBlock⟩
    exact Set.disjoint_left.mp (apart block member) inRegion inBlock

theorem apart_of_disjoint {block other : FreeBlock} (disjoint : Disjoint block.region other.region)
    (positive : 0 < block.size) (otherPositive : 0 < other.size) : Apart block other := by
  rw [FreeBlock.region, FreeBlock.region, Set.Ico_disjoint_Ico] at disjoint
  unfold Apart
  omega

theorem ordered_cons {block : FreeBlock} {blocks : List FreeBlock} :
    Ordered (block :: blocks) ↔
      (∀ next ∈ blocks, block.addr + block.size ≤ next.addr) ∧ Ordered blocks :=
  List.pairwise_cons

/-! ### `alloc` -/

theorem le_alignUp (val : Nat) {align : Nat} (positive : 0 < align) : val ≤ alignUp val align := by
  unfold alignUp
  have split := Nat.div_add_mod (val + align - 1) align
  have := Nat.mod_lt (val + align - 1) positive
  rw [Nat.mul_comm]
  omega

theorem dvd_alignUp (val align : Nat) : align ∣ alignUp val align :=
  Nat.dvd_mul_left align _

theorem splitBlock_spec {block : FreeBlock} {alignedAddr size : Nat}
    (start : block.addr ≤ alignedAddr) (fits : size + (alignedAddr - block.addr) ≤ block.size) :
    Ordered (splitBlock block alignedAddr size) ∧
      ∀ piece ∈ splitBlock block alignedAddr size,
        minBlockSize ≤ piece.size ∧ block.addr ≤ piece.addr ∧
          piece.addr + piece.size ≤ block.addr + block.size ∧
          (piece.addr + piece.size ≤ alignedAddr ∨ alignedAddr + size ≤ piece.addr) := by
  unfold splitBlock
  dsimp only
  split_ifs with roomy prefixed
  · refine ⟨List.pairwise_pair.mpr (by dsimp only; omega), ?_⟩
    intro piece member
    simp only [List.mem_cons, List.not_mem_nil, or_false] at member
    rcases member with rfl | rfl <;> dsimp only <;> omega
  · refine ⟨List.pairwise_singleton _ _, ?_⟩
    intro piece member
    rw [List.mem_singleton] at member
    subst member
    dsimp only
    omega
  · exact ⟨List.Pairwise.nil, nofun⟩

theorem addr_of_mem_splitBlock {block piece : FreeBlock} {alignedAddr size : Nat}
    (member : piece ∈ splitBlock block alignedAddr size) :
    piece.addr = block.addr ∨ piece.addr = alignedAddr + size := by
  unfold splitBlock at member
  dsimp only at member
  split_ifs at member
  · simp only [List.mem_cons, List.not_mem_nil, or_false] at member
    rcases member with rfl | rfl
    · exact Or.inl rfl
    · exact Or.inr rfl
  · rw [List.mem_singleton] at member
    exact Or.inr (by rw [member])
  · cases member

theorem allocSearch_spec {size align : Nat} (positive : 0 < align) :
    ∀ {blocks : List FreeBlock} {ptr : Nat} {result : List FreeBlock},
      allocSearch size align blocks = some (ptr, result) →
      ∃ pre block post, blocks = pre ++ block :: post ∧
        result = pre ++ splitBlock block ptr size ++ post ∧ ptr = alignUp block.addr align ∧
        block.addr ≤ ptr ∧ size + (ptr - block.addr) ≤ block.size
  | [], _, _, found => nomatch found
  | block :: rest, ptr, result, found => by
      unfold allocSearch at found
      dsimp only at found
      split_ifs at found with fits
      · cases found
        exact ⟨[], block, rest, rfl, rfl, rfl, le_alignUp block.addr positive, fits⟩
      · obtain ⟨⟨ptr', rest'⟩, foundRest, same⟩ := Option.map_eq_some_iff.mp found
        cases same
        obtain ⟨pre, chosen, post, split, replaced, aligned, start, room⟩ :=
          allocSearch_spec positive foundRest
        refine ⟨block :: pre, chosen, post, by rw [split]; rfl, by rw [replaced]; rfl, aligned,
          start, room⟩

theorem Ordered.replace {pre post pieces : List FreeBlock} {block : FreeBlock}
    (ordered : Ordered (pre ++ block :: post)) (piecesOrdered : Ordered pieces)
    (inside : ∀ piece ∈ pieces,
      block.addr ≤ piece.addr ∧ piece.addr + piece.size ≤ block.addr + block.size) :
    Ordered (pre ++ pieces ++ post) := by
  unfold Ordered at *
  rw [List.pairwise_append, List.pairwise_cons] at ordered
  obtain ⟨preOrdered, ⟨blockBefore, postOrdered⟩, preBefore⟩ := ordered
  rw [List.append_assoc, List.pairwise_append, List.pairwise_append]
  refine ⟨preOrdered, ⟨piecesOrdered, postOrdered, ?_⟩, ?_⟩
  · intro piece member next later
    have := (inside piece member).2
    have := blockBefore next later
    omega
  · intro earlier early piece member
    rw [List.mem_append] at member
    have before := preBefore earlier early
    rcases member with inPieces | inPost
    · have := (inside piece inPieces).1
      have := before block List.mem_cons_self
      omega
    · exact before piece (List.mem_cons_of_mem _ inPost)

theorem allocSearch_some {size align : Nat} (positive : 0 < align) {blocks result : List FreeBlock}
    {ptr : Nat} (ordered : Ordered blocks) (found : allocSearch size align blocks = some (ptr, result)) :
    (∃ block ∈ blocks, ptr = alignUp block.addr align) ∧
      Set.Ico ptr (ptr + size) ⊆ freeSet blocks ∧
      freeSet result ⊆ freeSet blocks \ Set.Ico ptr (ptr + size) ∧
      Ordered result ∧ ∀ block ∈ result, block ∈ blocks ∨ minBlockSize ≤ block.size := by
  obtain ⟨pre, block, post, rfl, rfl, aligned, start, room⟩ := allocSearch_spec positive found
  obtain ⟨piecesOrdered, pieces⟩ := splitBlock_spec start room
  have member : block ∈ pre ++ block :: post := List.mem_append_right _ List.mem_cons_self
  have split := ordered
  unfold Ordered at split
  rw [List.pairwise_append, List.pairwise_cons] at split
  obtain ⟨-, ⟨blockBefore, -⟩, preBefore⟩ := split
  refine ⟨⟨block, member, aligned⟩, ?_, ?_,
    ordered.replace piecesOrdered fun piece inPieces => ⟨(pieces piece inPieces).2.1,
      (pieces piece inPieces).2.2.1⟩, ?_⟩
  · intro addr inRange
    rw [Set.mem_Ico] at inRange
    exact region_subset_freeSet member (mem_region.mpr (by omega))
  · rintro addr ⟨other, inResult, inOther⟩
    rw [mem_region] at inOther
    rw [List.mem_append, List.mem_append] at inResult
    rcases inResult with (inPre | inPieces) | inPost
    · have := preBefore other inPre block List.mem_cons_self
      refine ⟨⟨other, List.mem_append_left _ inPre, mem_region.mpr inOther⟩, ?_⟩
      rw [Set.mem_Ico]
      omega
    · have := pieces other inPieces
      refine ⟨region_subset_freeSet member (mem_region.mpr (by omega)), ?_⟩
      rw [Set.mem_Ico]
      omega
    · have := blockBefore other inPost
      refine ⟨⟨other, List.mem_append_right _ (List.mem_cons_of_mem _ inPost),
        mem_region.mpr inOther⟩, ?_⟩
      rw [Set.mem_Ico]
      omega
  · intro other inResult
    rw [List.mem_append, List.mem_append] at inResult
    rcases inResult with (inPre | inPieces) | inPost
    · exact Or.inl (List.mem_append_left _ inPre)
    · exact Or.inr (pieces other inPieces).1
    · exact Or.inl (List.mem_append_right _ (List.mem_cons_of_mem _ inPost))

theorem HeapAllocator.alloc_cases (heap : HeapAllocator) (layout : Layout) :
    (heap.alloc layout).2 = heap ∧ (layout.size = 0 ∨ (heap.alloc layout).1 = 0) ∨
      layout.size ≠ 0 ∧
        allocSearch (max layout.size minBlockSize) (max layout.align heapAlign) heap.freeList =
          some ((heap.alloc layout).1, (heap.alloc layout).2.freeList) := by
  unfold HeapAllocator.alloc
  split_ifs with zero
  · exact Or.inl ⟨rfl, Or.inl zero⟩
  · dsimp only
    split
    · next found => exact Or.inr ⟨zero, found⟩
    · exact Or.inl ⟨rfl, Or.inr rfl⟩

/-! ### `dealloc` -/

theorem mem_coalesce {block result : FreeBlock} {blocks : List FreeBlock}
    (member : result ∈ coalesce block blocks) :
    result ∈ blocks ∨ result.addr = block.addr ∧ block.size ≤ result.size := by
  cases blocks with
  | nil =>
      rw [coalesce, List.mem_singleton] at member
      exact Or.inr ⟨by rw [member], by rw [member]⟩
  | cons next rest =>
      rw [coalesce] at member
      split_ifs at member
      · rcases List.mem_cons.mp member with rfl | later
        · exact Or.inr ⟨rfl, Nat.le_add_right _ _⟩
        · exact Or.inl (List.mem_cons_of_mem _ later)
      · rcases List.mem_cons.mp member with rfl | later
        · exact Or.inr ⟨rfl, le_rfl⟩
        · exact Or.inl later

theorem freeSet_coalesce (block : FreeBlock) (blocks : List FreeBlock) :
    freeSet (coalesce block blocks) = freeSet (block :: blocks) := by
  cases blocks with
  | nil => rfl
  | cons next rest =>
      rw [coalesce]
      split_ifs with touching
      · have joined : FreeBlock.region ⟨block.addr, block.size + next.size⟩ =
            block.region ∪ next.region := by
          unfold FreeBlock.region
          rw [← touching, Set.Ico_union_Ico_eq_Ico (Nat.le_add_right _ _) (by omega),
            Nat.add_assoc]
        rw [freeSet_cons, freeSet_cons, freeSet_cons, joined, Set.union_assoc]
      · rfl

theorem Ordered.coalesce {block : FreeBlock} {blocks : List FreeBlock}
    (ordered : Ordered (block :: blocks)) : Ordered (Heap.coalesce block blocks) := by
  cases blocks with
  | nil => exact ordered
  | cons next rest =>
      rw [Heap.coalesce]
      split_ifs with touching
      · rw [ordered_cons, ordered_cons] at ordered
        obtain ⟨-, nextBefore, restOrdered⟩ := ordered
        refine ordered_cons.mpr ⟨fun later member => ?_, restOrdered⟩
        have := nextBefore later member
        dsimp only
        omega
      · exact ordered

theorem before_coalesce {earlier block : FreeBlock} {blocks : List FreeBlock}
    (before : ∀ next ∈ block :: blocks, earlier.addr + earlier.size ≤ next.addr) :
    ∀ next ∈ coalesce block blocks, earlier.addr + earlier.size ≤ next.addr := by
  intro next member
  rcases mem_coalesce member with unchanged | ⟨start, -⟩
  · exact before next (List.mem_cons_of_mem _ unchanged)
  · rw [start]
    exact before block List.mem_cons_self

theorem mem_linkAfter {prev : Option FreeBlock} {blocks : List FreeBlock} {result : FreeBlock}
    (member : result ∈ linkAfter prev blocks) :
    result ∈ blocks ∨ ∃ block ∈ prev, result.addr = block.addr ∧ block.size ≤ result.size := by
  cases prev with
  | none => exact Or.inl member
  | some block =>
      rcases mem_coalesce member with unchanged | grown
      · exact Or.inl unchanged
      · exact Or.inr ⟨block, rfl, grown⟩

theorem freeSet_linkAfter (prev : Option FreeBlock) (blocks : List FreeBlock) :
    freeSet (linkAfter prev blocks) = freeSet (prev.toList ++ blocks) := by
  cases prev with
  | none => rfl
  | some block => exact freeSet_coalesce block blocks

theorem Ordered.linkAfter {prev : Option FreeBlock} {blocks : List FreeBlock}
    (ordered : Ordered (prev.toList ++ blocks)) : Ordered (Heap.linkAfter prev blocks) := by
  cases prev with
  | none => exact ordered
  | some block => exact Ordered.coalesce ordered

theorem freeSet_deallocInsert (new : FreeBlock) :
    ∀ (prev : Option FreeBlock) (blocks : List FreeBlock),
      freeSet (deallocInsert new prev blocks) = new.region ∪ freeSet (prev.toList ++ blocks)
  | prev, [] => by
      rw [deallocInsert, freeSet_linkAfter, List.append_nil, freeSet_append, freeSet_cons,
        freeSet_nil, Set.union_empty, Set.union_comm]
  | prev, current :: rest => by
      unfold deallocInsert
      split_ifs
      · rw [freeSet_linkAfter, freeSet_append, freeSet_coalesce, freeSet_cons, freeSet_append,
          Set.union_left_comm]
      · rw [freeSet_append, freeSet_deallocInsert new (some current) rest, Option.toList_some,
          List.singleton_append, freeSet_append, Set.union_left_comm]

theorem mem_deallocInsert (new : FreeBlock) :
    ∀ {prev : Option FreeBlock} {blocks : List FreeBlock} {result : FreeBlock},
      result ∈ deallocInsert new prev blocks →
      ∃ block ∈ new :: (prev.toList ++ blocks), result.addr = block.addr ∧ block.size ≤ result.size
  | prev, [], result, member => by
      rw [deallocInsert] at member
      rcases mem_linkAfter member with unchanged | ⟨block, inPrev, grown⟩
      · rw [List.mem_singleton] at unchanged
        exact ⟨new, List.mem_cons_self, by rw [unchanged], by rw [unchanged]⟩
      · exact ⟨block, by simp [Option.mem_def.mp inPrev], grown⟩
  | prev, current :: rest, result, member => by
      unfold deallocInsert at member
      split_ifs at member
      · rcases mem_linkAfter member with linked | ⟨block, inPrev, grown⟩
        · rcases mem_coalesce linked with unchanged | grown
          · exact ⟨result, by simp [unchanged], rfl, le_rfl⟩
          · exact ⟨new, List.mem_cons_self, grown⟩
        · exact ⟨block, by simp [Option.mem_def.mp inPrev], grown⟩
      · rcases List.mem_append.mp member with inPrev | later
        · exact ⟨result, by simp [inPrev], rfl, le_rfl⟩
        · obtain ⟨block, inputs, grown⟩ := mem_deallocInsert new later
          refine ⟨block, ?_, grown⟩
          simp only [Option.toList_some, List.singleton_append, List.mem_cons,
            List.mem_append] at inputs ⊢
          tauto

theorem Ordered.deallocInsert {new : FreeBlock} (positive : 0 < new.size) :
    ∀ {prev : Option FreeBlock} {blocks : List FreeBlock},
      Ordered (prev.toList ++ blocks) → (∀ block ∈ prev.toList ++ blocks, Apart new block) →
      (∀ block ∈ prev, block.addr ≤ new.addr) →
      Ordered (Heap.deallocInsert new prev blocks)
  | prev, [], ordered, apart, below => by
      rw [Heap.deallocInsert]
      apply Ordered.linkAfter
      unfold Ordered at *
      rw [List.pairwise_append] at ordered ⊢
      refine ⟨ordered.1, List.pairwise_singleton _ _, ?_⟩
      intro block inPrev next inNew
      rw [List.mem_singleton] at inNew
      subst inNew
      have := apart block (List.mem_append_left _ inPrev)
      have := below block (Option.mem_toList.mp inPrev)
      unfold Apart at *
      omega
  | prev, current :: rest, ordered, apart, below => by
      unfold Heap.deallocInsert
      split_ifs with lower
      · apply Ordered.linkAfter
        have restOrdered : Ordered (current :: rest) := ordered.sublist (List.sublist_append_right _ _)
        have newBefore : ∀ next ∈ current :: rest, new.addr + new.size ≤ next.addr := by
          intro next member
          have apartNext := apart next (List.mem_append_right _ member)
          have := (ordered_cons.mp restOrdered).1
          rcases List.mem_cons.mp member with rfl | later
          · unfold Apart at apartNext
            omega
          · have := this next later
            unfold Apart at apartNext
            omega
        have merged : Ordered (Heap.coalesce new (current :: rest)) :=
          Ordered.coalesce (ordered_cons.mpr ⟨newBefore, restOrdered⟩)
        unfold Ordered at ordered ⊢
        rw [List.pairwise_append] at ordered ⊢
        refine ⟨ordered.1, merged, fun block inPrev => before_coalesce fun next member => ?_⟩
        rcases List.mem_cons.mp member with rfl | later
        · have := apart block (List.mem_append_left _ inPrev)
          have := below block (Option.mem_toList.mp inPrev)
          unfold Apart at *
          omega
        · exact ordered.2.2 block inPrev next later
      · have later : Ordered (Heap.deallocInsert new (some current) rest) :=
          Ordered.deallocInsert positive (ordered.sublist (List.sublist_append_right _ _))
            (fun block member => apart block (List.mem_append_right _ member))
            (fun block same => by
              cases Option.mem_some_iff.mp same
              omega)
        unfold Ordered at ordered later ⊢
        rw [List.pairwise_append] at ordered ⊢
        refine ⟨ordered.1, later, fun block inPrev next member => ?_⟩
        obtain ⟨input, inputs, start, -⟩ := mem_deallocInsert new member
        rw [start]
        simp only [Option.toList_some, List.singleton_append, List.mem_cons] at inputs
        rcases inputs with rfl | rfl | inRest
        · have := apart block (List.mem_append_left _ inPrev)
          have := below block (Option.mem_toList.mp inPrev)
          unfold Apart at *
          omega
        · exact ordered.2.2 block inPrev input List.mem_cons_self
        · exact ordered.2.2 block inPrev input (List.mem_cons_of_mem _ inRest)

end FangaOS.Heap
