import FangaOS.Memory.Addr
import FangaOS.Lib.MapUpdate
import FangaOS.Lib.Run

/-! Memory mappings of a process, after `memory/mmap.rs`: an ordered map from
start address to mapping and a bump pointer.  Addresses and sizes are `u64`,
whose sums wrap in the release build. -/

namespace FangaOS.Mmap

open Addr StepMachine

structure MmapFlags where
  bits : UInt32
  deriving DecidableEq, Repr

def MmapFlags.none : MmapFlags := ⟨0⟩

def MmapFlags.fixed : MmapFlags := ⟨(1 : UInt32) <<< 4⟩

def MmapFlags.contains (flags flag : MmapFlags) : Bool :=
  flags.bits &&& flag.bits != 0

structure MmapProt where
  bits : UInt32
  deriving DecidableEq, Repr

def MmapProt.read : MmapProt := ⟨(1 : UInt32) <<< 0⟩

/-- `MemoryMapping`, without the physical pages that no call here reads. -/
structure MemoryMapping where
  start : VirtAddr
  size : UInt64
  prot : MmapProt
  flags : MmapFlags
  deriving DecidableEq, Repr

def MemoryMapping.«end» (mapping : MemoryMapping) : VirtAddr :=
  ⟨mapping.start.asU64 + mapping.size⟩

def MemoryMapping.contains (mapping : MemoryMapping) (addr : VirtAddr) : Bool :=
  decide (addr.asU64 ≥ mapping.start.asU64) && decide (addr.asU64 < mapping.«end».asU64)

/-- `MmapManager`: the `BTreeMap` of mappings by start address is a finite map,
iterated in increasing order of its keys. -/
structure MmapManager where
  mappings : Finmap (fun _ : UInt64 => MemoryMapping)
  nextAddr : UInt64

def MmapManager.new (startAddr : UInt64) : MmapManager :=
  ⟨∅, startAddr⟩

/-- `self.mappings.values()`. -/
def MmapManager.values (manager : MmapManager) : List MemoryMapping :=
  manager.mappings.sortedEntries.map Prod.snd

def MmapManager.checkOverlap (manager : MmapManager) (addr length : UInt64) : Bool :=
  manager.values.any fun mapping =>
    decide (addr < mapping.«end».asU64) && decide (addr + length > mapping.start.asU64)

/-- The address of a new mapping, and the manager with `next_addr` advanced by
an automatic placement. -/
def MmapManager.placement (manager : MmapManager) (addr alignedLength : UInt64)
    (flags : MmapFlags) : UInt64 × MmapManager :=
  if addr = 0 ∨ !flags.contains MmapFlags.fixed then
    (manager.nextAddr,
      { manager with nextAddr := alignUp (manager.nextAddr + alignedLength) pageSize.toUInt64 })
  else (alignDown addr pageSize.toUInt64, manager)

def MmapManager.mmap (manager : MmapManager) (addr length : UInt64) (prot : MmapProt)
    (flags : MmapFlags) : Option VirtAddr × MmapManager :=
  if length = 0 then (none, manager)
  else
    let alignedLength := alignUp length pageSize.toUInt64
    let virtAddr := (manager.placement addr alignedLength flags).1
    let placed := (manager.placement addr alignedLength flags).2
    if placed.checkOverlap virtAddr alignedLength then (none, placed)
    else
      (some ⟨virtAddr⟩, { placed with
        mappings := placed.mappings.insert virtAddr ⟨⟨virtAddr⟩, alignedLength, prot, flags⟩ })

/-- The keys of the mappings that meet `[aligned_addr, aligned_addr + aligned_length)`,
in increasing order. -/
def MmapManager.overlapping (manager : MmapManager) (alignedAddr alignedLength : UInt64) :
    List UInt64 :=
  (manager.mappings.sortedEntries.filter fun entry =>
    decide (alignedAddr < entry.1 + entry.2.size) &&
      decide (alignedAddr + alignedLength > entry.1)).map Prod.fst

def MmapManager.munmap (manager : MmapManager) (addr length : UInt64) : Bool × MmapManager :=
  if length = 0 then (false, manager)
  else
    let toRemove :=
      manager.overlapping (alignDown addr pageSize.toUInt64) (alignUp length pageSize.toUInt64)
    let remaining := toRemove.foldl (fun mappings start => mappings.erase start) manager.mappings
    (!toRemove.isEmpty, { manager with mappings := remaining })

def MmapManager.findMapping (manager : MmapManager) (addr : VirtAddr) : Option MemoryMapping :=
  manager.values.find? (·.contains addr)

inductive MmapOp
  | mmap (addr length : UInt64) (prot : MmapProt) (flags : MmapFlags)
  | munmap (addr length : UInt64)

def MmapManager.step (manager : MmapManager) : MmapOp → MmapManager
  | .mmap addr length prot flags => (manager.mmap addr length prot flags).2
  | .munmap addr length => (manager.munmap addr length).2

/-! ### Lookups -/

section Lookups

variable (manager : MmapManager)

theorem MmapManager.mem_values {mapping : MemoryMapping} :
    mapping ∈ manager.values ↔ ∃ start, manager.mappings.lookup start = some mapping := by
  unfold values
  simp only [List.mem_map, Prod.exists, exists_eq_right, Finmap.mem_sortedEntries]

theorem MmapManager.checkOverlap_eq_false_iff (addr length : UInt64) :
    manager.checkOverlap addr length = false ↔
      ∀ start mapping, manager.mappings.lookup start = some mapping →
        ¬ (addr < mapping.«end».asU64 ∧ addr + length > mapping.start.asU64) := by
  unfold checkOverlap
  simp only [List.any_eq_false, mem_values, Bool.and_eq_true, decide_eq_true_eq]
  constructor
  · intro separate start mapping stored
    exact separate mapping ⟨start, stored⟩
  · rintro separate mapping ⟨start, stored⟩
    exact separate start mapping stored

theorem MmapManager.mem_overlapping (alignedAddr alignedLength start : UInt64) :
    start ∈ manager.overlapping alignedAddr alignedLength ↔
      ∃ mapping, manager.mappings.lookup start = some mapping ∧
        alignedAddr < start + mapping.size ∧ alignedAddr + alignedLength > start := by
  unfold overlapping
  simp [List.mem_filter, Finmap.mem_sortedEntries]

theorem MmapManager.findMapping_eq_none_iff (addr : VirtAddr) :
    manager.findMapping addr = none ↔
      ∀ start mapping, manager.mappings.lookup start = some mapping →
        mapping.contains addr = false := by
  unfold findMapping
  simp only [List.find?_eq_none, mem_values, Bool.not_eq_true]
  constructor
  · intro absent start mapping stored
    exact absent mapping ⟨start, stored⟩
  · rintro absent mapping ⟨start, stored⟩
    exact absent start mapping stored

end Lookups

/-! ### The calls -/

section Calls

variable (manager : MmapManager)

@[simp] theorem MmapManager.mappings_placement (addr alignedLength : UInt64) (flags : MmapFlags) :
    (manager.placement addr alignedLength flags).2.mappings = manager.mappings := by
  unfold placement
  split <;> rfl

theorem MmapManager.toNat_placement_mod {manager : MmapManager}
    (aligned : manager.nextAddr.toNat % pageSize = 0) (addr alignedLength : UInt64)
    (flags : MmapFlags) :
    (manager.placement addr alignedLength flags).1.toNat % pageSize = 0 ∧
      (manager.placement addr alignedLength flags).2.nextAddr.toNat % pageSize = 0 := by
  unfold placement
  split
  · exact ⟨aligned, toNat_alignUp_mod _⟩
  · exact ⟨toNat_alignDown_mod _, aligned⟩

theorem MmapManager.mmap_cases (addr length : UInt64) (prot : MmapProt) (flags : MmapFlags) :
    let alignedLength : UInt64 := alignUp length pageSize.toUInt64
    let placed : UInt64 × MmapManager := manager.placement addr alignedLength flags
    manager.mmap addr length prot flags = (none, manager) ∨
      manager.mmap addr length prot flags = (none, placed.2) ∨
      (length ≠ 0 ∧ placed.2.checkOverlap placed.1 alignedLength = false ∧
        manager.mmap addr length prot flags = (some ⟨placed.1⟩, { placed.2 with
          mappings := placed.2.mappings.insert placed.1
            ⟨⟨placed.1⟩, alignedLength, prot, flags⟩ })) := by
  intro alignedLength placed
  unfold mmap
  dsimp only
  split_ifs with zero overlap
  · exact Or.inl rfl
  · exact Or.inr (Or.inl rfl)
  · exact Or.inr (Or.inr ⟨zero, Bool.eq_false_iff.mpr overlap, rfl⟩)

@[simp] theorem MmapManager.nextAddr_munmap (addr length : UInt64) :
    (manager.munmap addr length).2.nextAddr = manager.nextAddr := by
  unfold munmap
  split <;> rfl

theorem MmapManager.lookup_munmap (addr length start : UInt64) :
    (manager.munmap addr length).2.mappings.lookup start =
      if length ≠ 0 ∧
          start ∈ manager.overlapping (alignDown addr pageSize.toUInt64)
            (alignUp length pageSize.toUInt64) then none
      else manager.mappings.lookup start := by
  by_cases zero : length = 0
  · simp [munmap, zero]
  · rw [munmap, if_neg zero]
    dsimp only
    rw [Finmap.lookup_foldl_erase]
    simp [zero]

theorem MmapManager.lookup_of_lookup_munmap {addr length start : UInt64} {mapping : MemoryMapping}
    (stored : (manager.munmap addr length).2.mappings.lookup start = some mapping) :
    manager.mappings.lookup start = some mapping := by
  rw [lookup_munmap] at stored
  split_ifs at stored
  exact stored

end Calls

/-! ### Alignment on every run -/

/-- A mapping as `mmap` stores it under the key `start`: it starts at the key,
the key is page-aligned and the size is a whole number of pages. -/
def MemoryMapping.AlignedAt (mapping : MemoryMapping) (start : UInt64) : Prop :=
  mapping.start.asU64 = start ∧ start.toNat % pageSize = 0 ∧ mapping.size.toNat % pageSize = 0

structure MmapManager.Aligned (manager : MmapManager) : Prop where
  nextAligned : manager.nextAddr.toNat % pageSize = 0
  mappingsAligned : ∀ start mapping, manager.mappings.lookup start = some mapping →
    mapping.AlignedAt start

section Aligned

variable {manager : MmapManager}

theorem MmapManager.Aligned.mmap (aligned : manager.Aligned) (addr length : UInt64)
    (prot : MmapProt) (flags : MmapFlags) : (manager.mmap addr length prot flags).2.Aligned := by
  obtain ⟨placedAligned, nextAligned⟩ :=
    toNat_placement_mod aligned.nextAligned addr (alignUp length pageSize.toUInt64) flags
  rcases manager.mmap_cases addr length prot flags with same | refused | ⟨-, -, inserted⟩
  · rw [same]
    exact aligned
  · rw [refused]
    refine ⟨nextAligned, fun start mapping stored => ?_⟩
    rw [mappings_placement] at stored
    exact aligned.mappingsAligned start mapping stored
  · rw [inserted]
    refine ⟨nextAligned, fun start mapping stored => ?_⟩
    dsimp only at stored
    rw [Finmap.lookup_insert_eq_ite, mappings_placement] at stored
    split_ifs at stored with new
    · cases stored
      exact ⟨new.symm, new ▸ placedAligned, toNat_alignUp_mod _⟩
    · exact aligned.mappingsAligned start mapping stored

theorem MmapManager.Aligned.munmap (aligned : manager.Aligned) (addr length : UInt64) :
    (manager.munmap addr length).2.Aligned := by
  refine ⟨?_, fun start mapping stored => ?_⟩
  · rw [nextAddr_munmap]
    exact aligned.nextAligned
  · exact aligned.mappingsAligned start mapping (manager.lookup_of_lookup_munmap stored)

end Aligned

/-! ### Disjoint mappings on runs that do not wrap -/

/-- The addresses that a mapping stored under `start` spans, as integers. -/
def MemoryMapping.Covers (mapping : MemoryMapping) (start : UInt64) (x : Nat) : Prop :=
  start.toNat ≤ x ∧ x < start.toNat + mapping.size.toNat

/-- No mapping runs past the top of the address space, and no address lies in
two mappings. -/
structure Separate (mappings : Finmap (fun _ : UInt64 => MemoryMapping)) : Prop where
  noWrap : ∀ start mapping, mappings.lookup start = some mapping →
    start.toNat + mapping.size.toNat < 2 ^ 64
  disjoint : ∀ start mapping start' mapping', mappings.lookup start = some mapping →
    mappings.lookup start' = some mapping' → start ≠ start' →
      ∀ x, mapping.Covers start x → ¬ mapping'.Covers start' x

theorem MemoryMapping.toNat_end {mapping : MemoryMapping} {start : UInt64}
    (atKey : mapping.start.asU64 = start) (fits : start.toNat + mapping.size.toNat < 2 ^ 64) :
    mapping.«end».asU64.toNat = start.toNat + mapping.size.toNat := by
  unfold MemoryMapping.«end»
  rw [atKey]
  exact UInt64.toNat_add_of_lt fits

theorem MemoryMapping.not_covers_of_apart {mapping : MemoryMapping} {start addr length : UInt64}
    (atKey : mapping.start.asU64 = start) (fits : start.toNat + mapping.size.toNat < 2 ^ 64)
    (newFits : addr.toNat + length.toNat < 2 ^ 64)
    (apart : ¬ (addr < mapping.«end».asU64 ∧ addr + length > mapping.start.asU64)) (x : Nat)
    (inside : addr.toNat ≤ x ∧ x < addr.toNat + length.toNat) : ¬ mapping.Covers start x := by
  rintro ⟨above, below⟩
  apply apart
  have endNat := MemoryMapping.toNat_end atKey fits
  have sumNat : (addr + length).toNat = addr.toNat + length.toNat :=
    UInt64.toNat_add_of_lt newFits
  constructor
  · rw [UInt64.lt_iff_toNat_lt, endNat]
    omega
  · rw [gt_iff_lt, UInt64.lt_iff_toNat_lt, sumNat, atKey]
    omega

section Separate

variable {mappings : Finmap (fun _ : UInt64 => MemoryMapping)}

theorem Separate.of_lookup {remaining : Finmap (fun _ : UInt64 => MemoryMapping)}
    (separate : Separate mappings)
    (kept : ∀ start mapping, remaining.lookup start = some mapping →
      mappings.lookup start = some mapping) : Separate remaining :=
  ⟨fun start mapping stored => separate.noWrap start mapping (kept start mapping stored),
    fun start mapping start' mapping' stored stored' =>
      separate.disjoint start mapping start' mapping' (kept start mapping stored)
        (kept start' mapping' stored')⟩

theorem Separate.insert (separate : Separate mappings)
    (atKeys : ∀ start mapping, mappings.lookup start = some mapping →
      mapping.start.asU64 = start)
    {addr : UInt64} {new : MemoryMapping} (newFits : addr.toNat + new.size.toNat < 2 ^ 64)
    (apart : ∀ start mapping, mappings.lookup start = some mapping →
      ¬ (addr < mapping.«end».asU64 ∧ addr + new.size > mapping.start.asU64)) :
    Separate (mappings.insert addr new) := by
  -- a stored mapping shares no address with the new one
  have fresh : ∀ start mapping, mappings.lookup start = some mapping →
      ∀ x, new.Covers addr x → ¬ mapping.Covers start x :=
    fun start mapping stored x covered =>
      MemoryMapping.not_covers_of_apart (atKeys start mapping stored)
        (separate.noWrap start mapping stored) newFits (apart start mapping stored) x covered
  constructor
  · intro start mapping stored
    rw [Finmap.lookup_insert_eq_ite] at stored
    split_ifs at stored with isNew
    · cases stored
      rw [isNew]
      exact newFits
    · exact separate.noWrap start mapping stored
  · intro start mapping start' mapping' stored stored' different x covered covered'
    rw [Finmap.lookup_insert_eq_ite] at stored stored'
    by_cases isNew : start = addr <;> by_cases isNew' : start' = addr
    · exact different (isNew.trans isNew'.symm)
    · rw [if_pos isNew] at stored
      rw [if_neg isNew'] at stored'
      cases stored
      exact fresh start' mapping' stored' x (isNew ▸ covered) covered'
    · rw [if_neg isNew] at stored
      rw [if_pos isNew'] at stored'
      cases stored'
      exact fresh start mapping stored x (isNew' ▸ covered') covered
    · rw [if_neg isNew] at stored
      rw [if_neg isNew'] at stored'
      exact separate.disjoint start mapping start' mapping' stored stored' different x covered
        covered'

end Separate

/-- The range that `mmap` places does not run past the top of the address space. -/
def MmapManager.Fits (manager : MmapManager) (addr length : UInt64) (flags : MmapFlags) : Prop :=
  (manager.placement addr (alignUp length pageSize.toUInt64) flags).1.toNat +
    (alignUp length pageSize.toUInt64).toNat < 2 ^ 64

/-- The calls whose ranges do not wrap: every `munmap`, and an `mmap` that fits. -/
def MmapManager.StepFits (manager : MmapManager) : MmapOp → Prop
  | .mmap addr length _ flags => manager.Fits addr length flags
  | .munmap _ _ => True

section Step

variable {manager : MmapManager}

theorem Separate.mmap (aligned : manager.Aligned) (separate : Separate manager.mappings)
    {addr length : UInt64} {flags : MmapFlags} (fits : manager.Fits addr length flags)
    (prot : MmapProt) : Separate (manager.mmap addr length prot flags).2.mappings := by
  have atKeys : ∀ start mapping, manager.mappings.lookup start = some mapping →
      mapping.start.asU64 = start :=
    fun start mapping stored => (aligned.mappingsAligned start mapping stored).1
  rcases manager.mmap_cases addr length prot flags with same | refused | ⟨-, passed, inserted⟩
  · rw [same]
    exact separate
  · rw [refused, MmapManager.mappings_placement]
    exact separate
  · rw [inserted]
    dsimp only
    rw [MmapManager.mappings_placement]
    rw [MmapManager.checkOverlap_eq_false_iff, MmapManager.mappings_placement] at passed
    exact separate.insert atKeys fits passed

theorem Separate.munmap (separate : Separate manager.mappings) (addr length : UInt64) :
    Separate (manager.munmap addr length).2.mappings :=
  separate.of_lookup fun _ _ stored => manager.lookup_of_lookup_munmap stored

end Step

theorem MmapManager.run_aligned_separate {startAddr : UInt64} (pageAligned : startAddr.toNat % pageSize = 0)
    {ops : List MmapOp}
    (fits : AllowedAlong MmapManager.step MmapManager.StepFits (MmapManager.new startAddr) ops) :
    (run MmapManager.step (MmapManager.new startAddr) ops).Aligned ∧
      Separate (run MmapManager.step (MmapManager.new startAddr) ops).mappings := by
  have preserved : ∀ (manager : MmapManager) (op : MmapOp), manager.StepFits op →
      (manager.Aligned ∧ Separate manager.mappings) →
        ((manager.step op).Aligned ∧ Separate (manager.step op).mappings) := by
    rintro manager (⟨addr, length, prot, flags⟩ | ⟨addr, length⟩) fits ⟨aligned, separate⟩
    · exact ⟨aligned.mmap addr length prot flags, separate.mmap aligned fits prot⟩
    · exact ⟨aligned.munmap addr length, separate.munmap addr length⟩
  have initial : (MmapManager.new startAddr).Aligned ∧ Separate (MmapManager.new startAddr).mappings :=
    ⟨⟨pageAligned, fun start mapping stored => by simp [new] at stored⟩,
      ⟨fun start mapping stored => by simp [new] at stored,
        fun start mapping _ _ stored => by simp [new] at stored⟩⟩
  exact run_of_allowedAlong preserved initial fits

/-! ### The mapped pages -/

/-- The addresses that some stored mapping spans. -/
def MmapManager.Mapped (manager : MmapManager) (x : Nat) : Prop :=
  ∃ start mapping, manager.mappings.lookup start = some mapping ∧ mapping.Covers start x

theorem MemoryMapping.contains_iff_covers {mapping : MemoryMapping} {start : UInt64}
    (atKey : mapping.start.asU64 = start) (fits : start.toNat + mapping.size.toNat < 2 ^ 64)
    (x : UInt64) : mapping.contains ⟨x⟩ = true ↔ mapping.Covers start x.toNat := by
  unfold MemoryMapping.contains Covers
  rw [Bool.and_eq_true, decide_eq_true_eq, decide_eq_true_eq, ge_iff_le, UInt64.le_iff_toNat_le,
    UInt64.lt_iff_toNat_lt, MemoryMapping.toNat_end atKey fits, atKey]

section Pages

variable {manager : MmapManager}

theorem MmapManager.findMapping_isSome_iff (aligned : manager.Aligned)
    (separate : Separate manager.mappings) (x : UInt64) :
    (manager.findMapping ⟨x⟩).isSome ↔ manager.Mapped x.toNat := by
  rw [← Option.ne_none_iff_isSome, Ne, findMapping_eq_none_iff]
  constructor
  · intro found
    by_contra unmapped
    apply found
    intro start mapping stored
    rw [Bool.eq_false_iff, Ne, MemoryMapping.contains_iff_covers
      (aligned.mappingsAligned start mapping stored).1 (separate.noWrap start mapping stored)]
    exact fun covered => unmapped ⟨start, mapping, stored, covered⟩
  · rintro ⟨start, mapping, stored, covered⟩ absent
    have contained := (MemoryMapping.contains_iff_covers
      (aligned.mappingsAligned start mapping stored).1 (separate.noWrap start mapping stored)
      x).mpr covered
    rw [absent start mapping stored] at contained
    cases contained

theorem MmapManager.findMapping_munmap (aligned : manager.Aligned) {addr length : UInt64}
    (nonzero : length ≠ 0) {x : UInt64} (above : alignDown addr pageSize.toUInt64 ≤ x)
    (below : x < alignDown addr pageSize.toUInt64 + alignUp length pageSize.toUInt64) :
    (manager.munmap addr length).2.findMapping ⟨x⟩ = none := by
  rw [findMapping_eq_none_iff]
  intro start mapping stored
  rw [Bool.eq_false_iff, Ne]
  intro contained
  have atKey := (aligned.mappingsAligned start mapping (manager.lookup_of_lookup_munmap stored)).1
  unfold MemoryMapping.contains MemoryMapping.«end» at contained
  rw [Bool.and_eq_true, decide_eq_true_eq, decide_eq_true_eq, atKey] at contained
  -- the mapping holds an address of the range, so it met the range and was removed
  have removed : start ∈ manager.overlapping (alignDown addr pageSize.toUInt64)
      (alignUp length pageSize.toUInt64) :=
    (manager.mem_overlapping _ _ start).mpr ⟨mapping, manager.lookup_of_lookup_munmap stored,
      UInt64.lt_of_le_of_lt above contained.2, UInt64.lt_of_le_of_lt contained.1 below⟩
  rw [lookup_munmap, if_pos ⟨nonzero, removed⟩] at stored
  cases stored

theorem MmapManager.mapped_mmap (aligned : manager.Aligned) (separate : Separate manager.mappings)
    {addr length : UInt64} {prot : MmapProt} {flags : MmapFlags}
    (fits : manager.Fits addr length flags) (whole : 0 < (alignUp length pageSize.toUInt64).toNat)
    {placed : VirtAddr} {after : MmapManager}
    (result : manager.mmap addr length prot flags = (some placed, after)) (x : Nat) :
    let fresh : Prop := placed.asU64.toNat ≤ x ∧
      x < placed.asU64.toNat + (alignUp length pageSize.toUInt64).toNat
    (fresh → ¬ manager.Mapped x) ∧ (after.Mapped x ↔ manager.Mapped x ∨ fresh) := by
  have atKeys : ∀ start mapping, manager.mappings.lookup start = some mapping →
      mapping.start.asU64 = start :=
    fun start mapping stored => (aligned.mappingsAligned start mapping stored).1
  rcases manager.mmap_cases addr length prot flags with same | refused | ⟨-, passed, inserted⟩
  · rw [same] at result
    cases result
  · rw [refused] at result
    cases result
  rw [inserted] at result
  cases result
  dsimp only
  rw [checkOverlap_eq_false_iff, mappings_placement] at passed
  unfold Fits at fits
  generalize (manager.placement addr (alignUp length pageSize.toUInt64) flags).1 = virtAddr
    at passed fits ⊢
  generalize alignUp length pageSize.toUInt64 = alignedLength at passed fits whole ⊢
  -- the new range meets no stored mapping
  have apart : ∀ y, virtAddr.toNat ≤ y ∧ y < virtAddr.toNat + alignedLength.toNat →
      ¬ manager.Mapped y := by
    rintro y inside ⟨start, mapping, stored, covered⟩
    exact MemoryMapping.not_covers_of_apart (atKeys start mapping stored)
      (separate.noWrap start mapping stored) fits (passed start mapping stored) y inside covered
  refine ⟨apart x, ?_⟩
  unfold Mapped
  simp only [mappings_placement, Finmap.lookup_insert_eq_ite]
  constructor
  · rintro ⟨start, mapping, stored, covered⟩
    split_ifs at stored with isNew
    · cases stored
      exact Or.inr (isNew ▸ covered)
    · exact Or.inl ⟨start, mapping, stored, covered⟩
  · rintro (⟨start, mapping, stored, covered⟩ | inside)
    · by_cases isNew : start = virtAddr
      · -- a mapping under the new key that spans `x` spans the key, which the new range holds
        have atStart : mapping.Covers start start.toNat := ⟨Nat.le_refl _, by
          unfold MemoryMapping.Covers at covered
          omega⟩
        exact absurd ⟨start, mapping, stored, atStart⟩
          (apart start.toNat ⟨by rw [isNew], by rw [isNew]; omega⟩)
      · exact ⟨start, mapping, by rw [if_neg isNew]; exact stored, covered⟩
    · exact ⟨_, _, if_pos rfl, inside⟩

end Pages

/-- From a page-aligned start address, along every run whose `mmap` ranges do
not wrap, the manager is the set of pages its mappings span: every mapping
starts at its page-aligned key and spans whole pages, no address lies in two
mappings, `find_mapping` finds exactly the mapped addresses, `munmap` leaves
nothing mapped in its rounded range, and an `mmap` that returns an address maps
its new range, none of which was mapped before, and nothing else. -/
theorem mmap_manager_keeps_page_set {startAddr : UInt64} (pageAligned : startAddr.toNat % pageSize = 0)
    {ops : List MmapOp}
    (fits : AllowedAlong MmapManager.step MmapManager.StepFits (MmapManager.new startAddr) ops) :
    let manager := run MmapManager.step (MmapManager.new startAddr) ops
    manager.Aligned ∧ Separate manager.mappings ∧
      (∀ x : UInt64, (manager.findMapping ⟨x⟩).isSome ↔ manager.Mapped x.toNat) ∧
      (∀ addr length x : UInt64, length ≠ 0 → alignDown addr pageSize.toUInt64 ≤ x →
        x < alignDown addr pageSize.toUInt64 + alignUp length pageSize.toUInt64 →
        (manager.munmap addr length).2.findMapping ⟨x⟩ = none) ∧
      (∀ addr length prot flags placed after, manager.Fits addr length flags →
        0 < (alignUp length pageSize.toUInt64).toNat →
        manager.mmap addr length prot flags = (some placed, after) → ∀ x : Nat,
          let fresh : Prop := placed.asU64.toNat ≤ x ∧
            x < placed.asU64.toNat + (alignUp length pageSize.toUInt64).toNat
          (fresh → ¬ manager.Mapped x) ∧ (after.Mapped x ↔ manager.Mapped x ∨ fresh)) := by
  intro manager
  obtain ⟨aligned, separate⟩ := MmapManager.run_aligned_separate pageAligned fits
  refine ⟨aligned, separate, MmapManager.findMapping_isSome_iff aligned separate, ?_, ?_⟩
  · intro addr length x nonzero above below
    exact MmapManager.findMapping_munmap aligned nonzero above below
  · intro addr length prot flags placed after fitsNow whole result x
    exact MmapManager.mapped_mmap aligned separate fitsNow whole result x

theorem mmap_manager_keeps_page_set_two_calls :
    let ops : List MmapOp := [.mmap 0 0x2000 MmapProt.read MmapFlags.none, .munmap 0x10000000 0x1000]
    (0x10000000 : UInt64).toNat % pageSize = 0 ∧
      AllowedAlong MmapManager.step MmapManager.StepFits (MmapManager.new 0x10000000) ops ∧
      let manager := run MmapManager.step (MmapManager.new 0x10000000) ops
      manager.Aligned ∧ Separate manager.mappings ∧
        (∀ x : UInt64, (manager.findMapping ⟨x⟩).isSome ↔ manager.Mapped x.toNat) ∧
        (∀ addr length x : UInt64, length ≠ 0 → alignDown addr pageSize.toUInt64 ≤ x →
          x < alignDown addr pageSize.toUInt64 + alignUp length pageSize.toUInt64 →
          (manager.munmap addr length).2.findMapping ⟨x⟩ = none) ∧
        (∀ addr length prot flags placed after, manager.Fits addr length flags →
          0 < (alignUp length pageSize.toUInt64).toNat →
          manager.mmap addr length prot flags = (some placed, after) → ∀ x : Nat,
            let fresh : Prop := placed.asU64.toNat ≤ x ∧
              x < placed.asU64.toNat + (alignUp length pageSize.toUInt64).toNat
            (fresh → ¬ manager.Mapped x) ∧ (after.Mapped x ↔ manager.Mapped x ∨ fresh)) := by
  intro ops
  have fits : AllowedAlong MmapManager.step MmapManager.StepFits (MmapManager.new 0x10000000) ops :=
    ⟨by simp only [MmapManager.StepFits, MmapManager.Fits]; decide, trivial, trivial⟩
  exact ⟨by decide, fits, mmap_manager_keeps_page_set (by decide) fits⟩

theorem mmap_manager_diverges_from_page_set :
    let mapped : Option VirtAddr × MmapManager :=
      (MmapManager.new 0x10000000).mmap 0 0x2000 MmapProt.read MmapFlags.none
    let unmapped : Bool × MmapManager := mapped.2.munmap 0x10000000 0x1000
    let fixed : Option VirtAddr × MmapManager :=
      (MmapManager.new 0x1000).mmap 0x1000 4096 MmapProt.read MmapFlags.fixed
    let automatic : Option VirtAddr × MmapManager :=
      fixed.2.mmap 0 4096 MmapProt.read MmapFlags.none
    let top : Option VirtAddr × MmapManager :=
      (MmapManager.new 0x1000).mmap 0xFFFFFFFFFFFFF000 4096 MmapProt.read MmapFlags.fixed
    let below : Option VirtAddr × MmapManager :=
      top.2.mmap 0xFFFFFFFFFFFFE000 8192 MmapProt.read MmapFlags.fixed
    let huge : Option VirtAddr × MmapManager :=
      (MmapManager.new 0x1000).mmap 0 0xFFFFFFFFFFFFFFFF MmapProt.read MmapFlags.none
    (mapped.1 = some ⟨0x10000000⟩ ∧ unmapped.1 = true ∧
      (mapped.2.findMapping ⟨0x10001000⟩).isSome = true ∧
      unmapped.2.findMapping ⟨0x10001000⟩ = none) ∧
    (fixed.1 = some ⟨0x1000⟩ ∧ automatic.1 = none) ∧
    (top.1 = some ⟨0xFFFFFFFFFFFFF000⟩ ∧ below.1 = some ⟨0xFFFFFFFFFFFFE000⟩ ∧
      below.2.mappings.lookup 0xFFFFFFFFFFFFF000 =
        some ⟨⟨0xFFFFFFFFFFFFF000⟩, 4096, MmapProt.read, MmapFlags.fixed⟩ ∧
      below.2.mappings.lookup 0xFFFFFFFFFFFFE000 =
        some ⟨⟨0xFFFFFFFFFFFFE000⟩, 8192, MmapProt.read, MmapFlags.fixed⟩) ∧
    (huge.1 = some ⟨0x1000⟩ ∧
      huge.2.mappings.lookup 0x1000 = some ⟨⟨0x1000⟩, 0, MmapProt.read, MmapFlags.none⟩) := by
  decide

end FangaOS.Mmap
