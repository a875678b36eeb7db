import FangaOS.Memory.Mapper

/-! Runs of the page-table mapper from `PageTableMapper::new`, and `translate` on
canonical addresses as a partial map from pages to frames. -/

namespace FangaOS.Paging

open RadixWalk StepMachine FangaOS.Addr

namespace PageTableMapper

theorem tableFrame_new {machine : Machine} {hhdmOffset : UInt64} {mapper : PageTableMapper} {start : Machine}
    (created : new machine hhdmOffset = some (mapper, start)) (path : List (Fin 512)) :
    mapper.tableFrame start.memory path = if path = [] then some mapper.pml4Phys else none := by
  cases supply : machine.frames with
  | nil => simp [new, supply, allocPage] at created
  | cons pml4Phys rest =>
      simp only [new, supply, allocPage, Option.some.injEq, Prod.mk.injEq] at created
      obtain ⟨rfl, rfl⟩ := created
      induction path with
      | nil => rfl
      | cons index path ih =>
          rw [if_neg (List.cons_ne_nil index path), tableFrame_cons]
          cases path with
          | nil =>
              exact (nextTable_clearTable machine.memory pml4Phys pml4Phys index).trans (if_pos rfl)
          | cons => rw [ih, if_neg (List.cons_ne_nil _ _)]; rfl

theorem tree_new {machine : Machine} {hhdmOffset : UInt64} {mapper : PageTableMapper} {start : Machine}
    (created : new machine hhdmOffset = some (mapper, start)) (distinct : machine.frames.Nodup)
    (framesAligned : ∀ frame ∈ machine.frames, frame.toNat % pageSize = 0 ∧ frame.toNat < 2 ^ 52) :
    Tree mapper start := by
  have onlyRoot : ∀ path frame, mapper.tableFrame start.memory path = some frame →
      path = [] ∧ frame = mapper.pml4Phys := by
    intro path frame reached
    rw [tableFrame_new created] at reached
    by_cases root : path = []
    · rw [if_pos root] at reached
      exact ⟨root, (Option.some.inj reached).symm⟩
    · rw [if_neg root] at reached
      cases reached
  cases supply : machine.frames with
  | nil => simp [new, supply, allocPage] at created
  | cons pml4Phys rest =>
      have split := created
      simp only [new, supply, allocPage, Option.some.injEq, Prod.mk.injEq] at split
      obtain ⟨rfl, rfl⟩ := split
      have distinctRest := List.nodup_cons.mp (supply ▸ distinct)
      refine ⟨fun path other frame _ _ reached otherReached => ?_, fun frame later reachedFrame => ?_,
        distinctRest.2, fun frame later => ?_⟩
      · rw [(onlyRoot path frame reached).1, (onlyRoot other frame otherReached).1]
      · obtain ⟨path, -, reached⟩ := reachedFrame
        have isRoot : frame = pml4Phys := (onlyRoot path frame reached).2
        exact distinctRest.1 (isRoot ▸ later)
      · have fits := framesAligned frame (supply ▸ List.mem_cons_of_mem pml4Phys later)
        exact and_addrMask_of_aligned fits.1 fits.2

theorem tree_run {machine : Machine} {hhdmOffset : UInt64} {mapper : PageTableMapper} {start : Machine}
    (created : new machine hhdmOffset = some (mapper, start)) (distinct : machine.frames.Nodup)
    (framesAligned : ∀ frame ∈ machine.frames, frame.toNat % pageSize = 0 ∧ frame.toNat < 2 ^ 52)
    (ops : List MapperOp) : Tree mapper (run mapper.step start ops) := by
  have preserved : Invariant mapper.step (Tree mapper) := by
    intro state op tree
    cases op with
    | map virtAddr physAddr flags => exact (map_spec tree virtAddr physAddr flags).1
    | unmap virtAddr => exact (unmap_spec tree virtAddr).1
  exact preserved.run (tree_new created distinct framesAligned) ops

end PageTableMapper

/-! ### Pages of canonical addresses -/

/-- An address whose bits 48 to 63 copy bit 47. -/
def Canonical (virtAddr : UInt64) : Prop :=
  virtAddr.toNat < 2 ^ 47 ∨ 2 ^ 64 - 2 ^ 47 ≤ virtAddr.toNat

instance : DecidablePred Canonical :=
  fun virtAddr => inferInstanceAs (Decidable (virtAddr.toNat < 2 ^ 47 ∨ 2 ^ 64 - 2 ^ 47 ≤ virtAddr.toNat))

theorem val_ptIndex (virtAddr : UInt64) : (ptIndex virtAddr).val = virtAddr.toNat / 2 ^ 12 % 2 ^ 9 :=
  val_tableIndex (by decide) virtAddr

theorem val_pdIndex (virtAddr : UInt64) : (pdIndex virtAddr).val = virtAddr.toNat / 2 ^ 21 % 2 ^ 9 :=
  val_tableIndex (by decide) virtAddr

theorem val_pdptIndex (virtAddr : UInt64) : (pdptIndex virtAddr).val = virtAddr.toNat / 2 ^ 30 % 2 ^ 9 :=
  val_tableIndex (by decide) virtAddr

theorem val_pml4Index (virtAddr : UInt64) : (pml4Index virtAddr).val = virtAddr.toNat / 2 ^ 39 % 2 ^ 9 :=
  val_tableIndex (by decide) virtAddr

theorem pathOf_eq_iff {virtAddr other : UInt64} :
    pathOf virtAddr = pathOf other ↔ virtAddr.toNat / 2 ^ 12 % 2 ^ 36 = other.toNat / 2 ^ 12 % 2 ^ 36 := by
  simp only [pathOf, tablePathOf, List.cons.injEq, and_true, Fin.ext_iff, val_ptIndex, val_pdIndex,
    val_pdptIndex, val_pml4Index]
  omega

theorem page_eq_of_pathOf_eq {virtAddr other : UInt64} (canonical : Canonical virtAddr)
    (otherCanonical : Canonical other) (same : pathOf virtAddr = pathOf other) :
    virtAddr.toNat / pageSize = other.toNat / pageSize := by
  rw [pathOf_eq_iff] at same
  unfold Canonical at canonical otherCanonical
  have below := virtAddr.toNat_lt_size
  have otherBelow := other.toNat_lt_size
  simp only [UInt64.size] at below otherBelow
  unfold pageSize
  omega

theorem pathOf_ne_of_page_ne {virtAddr other : UInt64} (canonical : Canonical virtAddr)
    (otherCanonical : Canonical other) (otherPage : virtAddr.toNat / pageSize ≠ other.toNat / pageSize) :
    pathOf virtAddr ≠ pathOf other :=
  fun same => otherPage (page_eq_of_pathOf_eq canonical otherCanonical same)

theorem toNat_add_offset {virtAddr offset : UInt64} (aligned : virtAddr.toNat % pageSize = 0)
    (small : offset.toNat < pageSize) : (virtAddr + offset).toNat = virtAddr.toNat + offset.toNat := by
  apply UInt64.toNat_add_of_lt
  have below := virtAddr.toNat_lt_size
  simp only [UInt64.size] at below
  unfold pageSize at aligned small
  omega

theorem pathOf_add_offset {virtAddr offset : UInt64} (aligned : virtAddr.toNat % pageSize = 0)
    (small : offset.toNat < pageSize) : pathOf (virtAddr + offset) = pathOf virtAddr := by
  rw [pathOf_eq_iff, toNat_add_offset aligned small]
  unfold pageSize at aligned small
  omega

theorem pageOffset_add_offset {virtAddr offset : UInt64} (aligned : virtAddr.toNat % pageSize = 0)
    (small : offset.toNat < pageSize) : pageOffset (virtAddr + offset) = offset := by
  apply UInt64.toNat_inj.mp
  rw [toNat_pageOffset, toNat_add_offset aligned small]
  unfold pageSize at aligned small
  omega

theorem pageOffset_of_aligned {virtAddr : UInt64} (aligned : virtAddr.toNat % pageSize = 0) :
    pageOffset virtAddr = 0 := by
  apply UInt64.toNat_inj.mp
  rw [toNat_pageOffset]
  exact aligned

/-! ### The mapper as a partial map from pages to frames -/

theorem translate_of_other_page {mapper : PageTableMapper} {memory memory' : UInt64 → PageTable}
    {virtAddr : UInt64} {changed : Prop} [Decidable changed] {value : Option UInt64}
    (leaves : ∀ other : List (Fin 512), other.length = 4 →
      mapper.tableFrame memory' other = if changed ∧ other = pathOf virtAddr then value
        else mapper.tableFrame memory other)
    (canonical : Canonical virtAddr) {other : UInt64} (otherCanonical : Canonical other)
    (otherPage : other.toNat / pageSize ≠ virtAddr.toNat / pageSize) :
    mapper.translate memory' other = mapper.translate memory other := by
  have different := pathOf_ne_of_page_ne otherCanonical canonical otherPage
  rw [PageTableMapper.translate_eq, PageTableMapper.translate_eq, leaves (pathOf other) rfl,
    if_neg fun both => different both.2]

theorem page_table_mapper_refines_page_map (memory : UInt64 → PageTable) (frames : List UInt64)
    (hhdmOffset : UInt64) (distinct : frames.Nodup)
    (framesAligned : ∀ frame ∈ frames, frame.toNat % pageSize = 0 ∧ frame.toNat < 2 ^ 52)
    (mapper : PageTableMapper) (start : Machine)
    (created : PageTableMapper.new ⟨memory, frames⟩ hhdmOffset = some (mapper, start)) (ops : List MapperOp) :
    let machine : Machine := run mapper.step start ops
    (∀ virtAddr physAddr flags, Canonical virtAddr → physAddr.toNat < 2 ^ 52 →
      ((mapper.map machine virtAddr physAddr flags).1 = .ok () ↔
        virtAddr.toNat % pageSize = 0 ∧ physAddr.toNat % pageSize = 0 ∧
        mapper.translate machine.memory virtAddr = none ∧
        mapper.neededTables machine.memory virtAddr ≤ machine.frames.length) ∧
      ((mapper.map machine virtAddr physAddr flags).1 = .ok () →
        ∀ offset : UInt64, offset.toNat < pageSize →
          mapper.translate (mapper.map machine virtAddr physAddr flags).2.memory (virtAddr + offset) =
            some (physAddr + offset)) ∧
      ∀ other, Canonical other → other.toNat / pageSize ≠ virtAddr.toNat / pageSize →
        mapper.translate (mapper.map machine virtAddr physAddr flags).2.memory other =
          mapper.translate machine.memory other) ∧
    (∀ virtAddr, Canonical virtAddr →
      (∀ physAddr, (mapper.unmap machine virtAddr).1 = .ok physAddr ↔
        virtAddr.toNat % pageSize = 0 ∧ mapper.translate machine.memory virtAddr = some physAddr) ∧
      ((mapper.unmap machine virtAddr).1.isOk →
        mapper.translate (mapper.unmap machine virtAddr).2.memory virtAddr = none) ∧
      ∀ other, Canonical other → other.toNat / pageSize ≠ virtAddr.toNat / pageSize →
        mapper.translate (mapper.unmap machine virtAddr).2.memory other = mapper.translate machine.memory other) := by
  intro machine
  have tree : mapper.Tree machine := PageTableMapper.tree_run created distinct framesAligned ops
  refine ⟨fun virtAddr physAddr flags canonical below => ?_, fun virtAddr canonical => ?_⟩
  · obtain ⟨-, succeeds, leaves⟩ := PageTableMapper.map_spec tree virtAddr physAddr flags
    refine ⟨?_, fun ok offset small => ?_, fun other otherCanonical otherPage => ?_⟩
    · rw [succeeds, PageTableMapper.translate_eq, Option.map_eq_none_iff]
    · obtain ⟨aligned, physAligned, -⟩ := succeeds.mp ok
      rw [PageTableMapper.translate_eq, pathOf_add_offset aligned small, leaves (pathOf virtAddr) rfl,
        if_pos ⟨ok, rfl⟩, and_addrMask_of_aligned physAligned below, pageOffset_add_offset aligned small]
      rfl
    · exact translate_of_other_page leaves canonical otherCanonical otherPage
  · obtain ⟨-, -, returns, leaves⟩ := PageTableMapper.unmap_spec tree virtAddr
    refine ⟨fun physAddr => ?_, fun ok => ?_, fun other otherCanonical otherPage => ?_⟩
    · rw [returns, PageTableMapper.translate_eq]
      refine and_congr_right fun aligned => ?_
      rw [pageOffset_of_aligned aligned]
      simp
    · rw [PageTableMapper.translate_eq, leaves (pathOf virtAddr) rfl, if_pos ⟨ok, rfl⟩]
      rfl
    · exact translate_of_other_page leaves canonical otherCanonical otherPage

theorem page_table_mapper_refines_page_map_fresh_tables :
    (PageTableMapper.mk 0x1000 0).translate
      ((PageTableMapper.mk 0x1000 0).map ⟨clearTable (fun _ => PageTable.clear) 0x1000, [0x2000, 0x3000, 0x4000]⟩
        0x4000_0000 0x5000 .writable).2.memory 0x4000_0123 = some 0x5123 := by
  -- the quantifier over the frames is split first: over all of `UInt64` it would be decided by enumeration
  have framesAligned : ∀ frame ∈ [(0x1000 : UInt64), 0x2000, 0x3000, 0x4000],
      frame.toNat % pageSize = 0 ∧ frame.toNat < 2 ^ 52 := by
    simp only [List.forall_mem_cons, List.not_mem_nil, IsEmpty.forall_iff, implies_true, and_true]
    decide
  have refines := page_table_mapper_refines_page_map (fun _ => PageTable.clear) [0x1000, 0x2000, 0x3000, 0x4000] 0
    (by decide +kernel) framesAligned ⟨0x1000, 0⟩ ⟨clearTable (fun _ => PageTable.clear) 0x1000, [0x2000, 0x3000, 0x4000]⟩
    rfl []
  obtain ⟨succeeds, maps, -⟩ := refines.1 0x4000_0000 0x5000 .writable (by decide) (by decide)
  exact maps (succeeds.mpr ⟨by decide, by decide, by decide +kernel, by decide +kernel⟩) 0x123 (by decide)

/-- `map` accepts the aligned frame `2^52`, whose only bit the entry drops, so
that the page then translates to frame `0`. -/
theorem map_truncates_physAddr :
    ∃ mapper start, PageTableMapper.new ⟨fun _ => PageTable.clear, [0x1000, 0x2000, 0x3000, 0x4000]⟩ 0 =
        some (mapper, start) ∧
      (mapper.map start 0 (2 ^ 52) .present).1 = .ok () ∧
      mapper.translate (mapper.map start 0 (2 ^ 52) .present).2.memory 0 = some 0 :=
  ⟨_, _, rfl, by decide +kernel, by decide +kernel⟩

end FangaOS.Paging
