import Mathlib.Order.Bounds.Defs
import FangaOS.Elf.Parser
import FangaOS.Memory.Addr
import FangaOS.Lib.Run

/-! Loading an ELF image, after `elf/loader.rs`.  `load_elf` checks every program
header `i < e_phnum` and every loadable segment against the data with `u64`
sums, which wrap in the release build.  The data is a list of bytes and `usize`
is `u64`. -/

namespace FangaOS.Elf

open Addr StepMachine

inductive ElfLoadError
  | invalidFormat
  | unsupportedType
  | outOfMemory
  | invalidAddress
  | mappingFailed
  deriving DecidableEq, Repr

structure LoadedElf where
  entryPoint : VirtAddr
  loadStart : VirtAddr
  loadEnd : VirtAddr
  interp : Option VirtAddr
  deriving DecidableEq, Repr

/-- How a load ends early: the error that `load_elf` returns, or a panic. -/
inductive LoadFailure
  | error (error : ElfLoadError)
  | panic
  deriving DecidableEq, Repr

/-- `load_segment`: the checks it makes before any mapping. -/
def loadSegment (phdr : ElfProgramHeader) (data : List UInt8) : Except ElfLoadError Unit :=
  if phdr.pFilesz > phdr.pMemsz then .error .invalidFormat
  else if (phdr.pOffset + phdr.pFilesz).toNat > data.length then .error .invalidFormat
  else .ok ()

/-- The address range and interpreter that the loop tracks. -/
structure LoadRange where
  loadStart : UInt64
  loadEnd : UInt64
  interp : Option UInt64
  deriving DecidableEq, Repr

/-- Before any segment: `load_start` is `u64::MAX` and `load_end` is `0`. -/
def LoadRange.initial : LoadRange :=
  ⟨0xFFFFFFFFFFFFFFFF, 0, none⟩

/-- The range after a loadable segment. -/
def LoadRange.addSegment (range : LoadRange) (phdr : ElfProgramHeader) : LoadRange :=
  let segStart := phdr.pVaddr
  let segEnd := phdr.pVaddr + phdr.pMemsz
  { range with
    loadStart := if segStart < range.loadStart then segStart else range.loadStart
    loadEnd := if segEnd > range.loadEnd then segEnd else range.loadEnd }

/-- `phoff + i * phentsize`. -/
def ElfHeader.programHeaderOffset (header : ElfHeader) (i : Nat) : UInt64 :=
  header.ePhoff + i.toUInt64 * header.ePhentsize.toUInt64

/-- One turn of the loop over the program headers. -/
def processProgramHeader (header : ElfHeader) (data : List UInt8) (range : LoadRange) (i : Nat) :
    Except LoadFailure LoadRange :=
  let offset := header.programHeaderOffset i
  if (offset + programHeaderSize.toUInt64).toNat > data.length then .error (.error .invalidFormat)
  -- `&data[offset..offset + size_of::<ElfProgramHeader>()]` with its end wrapped below its start
  else if offset > offset + programHeaderSize.toUInt64 then .error .panic
  else do
    let phdr ← (ElfProgramHeader.parse
      (data.extract offset.toNat (offset.toNat + programHeaderSize))).mapError
        fun _ => .error .invalidFormat
    match phdr.programType with
    | some .load =>
        (loadSegment phdr data).mapError .error
        pure (range.addSegment phdr)
    | some .interp => pure { range with interp := some phdr.pVaddr }
    | _ => pure range

def loadElf (data : List UInt8) : Except LoadFailure LoadedElf := do
  let header ← (ElfHeader.parse data).mapError fun _ => .error .invalidFormat
  header.validate.mapError fun _ => .error .unsupportedType
  let range ← (List.range header.ePhnum.toNat).foldlM (processProgramHeader header data)
    LoadRange.initial
  -- no segment was loaded
  if range.loadStart = 0xFFFFFFFFFFFFFFFF then throw (.error .invalidFormat)
  pure ⟨⟨header.eEntry⟩, ⟨range.loadStart⟩, ⟨range.loadEnd⟩, range.interp.map (⟨·⟩)⟩

/-! ### One program header -/

/-- The program header that turn `i` of the loop reads. -/
def ElfHeader.programHeaderAt (header : ElfHeader) (data : List UInt8) (i : Nat) :
    ElfProgramHeader :=
  ElfProgramHeader.read (data.extract (header.programHeaderOffset i).toNat
    ((header.programHeaderOffset i).toNat + programHeaderSize))

/-- The loadable segments among the first `count` program headers, in order. -/
def ElfHeader.loadSegments (header : ElfHeader) (data : List UInt8) (count : Nat) :
    List ElfProgramHeader :=
  ((List.range count).map (header.programHeaderAt data)).filter (·.programType = some .load)

theorem ElfHeader.loadSegments_succ (header : ElfHeader) (data : List UInt8) (count : Nat) :
    header.loadSegments data (count + 1) =
      header.loadSegments data count ++
        [header.programHeaderAt data count].filter (·.programType = some .load) := by
  rw [loadSegments, loadSegments, List.range_succ, List.map_append, List.filter_append,
    List.map_singleton]

@[simp] theorem LoadRange.loadStart_addSegment (range : LoadRange) (phdr : ElfProgramHeader) :
    (range.addSegment phdr).loadStart = min phdr.pVaddr range.loadStart := by
  unfold addSegment
  dsimp only
  split_ifs with lower
  · exact (min_eq_left (le_of_lt lower)).symm
  · exact (min_eq_right (not_lt.mp lower)).symm

@[simp] theorem LoadRange.loadEnd_addSegment (range : LoadRange) (phdr : ElfProgramHeader) :
    (range.addSegment phdr).loadEnd = max (phdr.pVaddr + phdr.pMemsz) range.loadEnd := by
  unfold addSegment
  dsimp only
  split_ifs with higher
  · exact (max_eq_left (le_of_lt higher)).symm
  · exact (max_eq_right (not_lt.mp higher)).symm

theorem toNat_add_of_not_gt {offset : UInt64} {size : Nat} (small : size < 2 ^ 64)
    (noWrap : ¬ offset > offset + size.toUInt64) :
    (offset + size.toUInt64).toNat = offset.toNat + size := by
  have sizeNat : size.toUInt64.toNat = size := Nat.mod_eq_of_lt small
  rw [gt_iff_lt, UInt64.lt_iff_toNat_lt, UInt64.toNat_add, sizeNat] at noWrap
  rw [UInt64.toNat_add, sizeNat]
  have := offset.toNat_lt
  omega

theorem processProgramHeader_ok {header : ElfHeader} {data : List UInt8} {range after : LoadRange}
    {i : Nat} (next : processProgramHeader header data range i = .ok after) :
    (header.programHeaderOffset i).toNat + programHeaderSize ≤ data.length ∧
      (let phdr := header.programHeaderAt data i
        if phdr.programType = some .load then
          loadSegment phdr data = .ok () ∧ after.loadStart = (range.addSegment phdr).loadStart ∧
            after.loadEnd = (range.addSegment phdr).loadEnd
        else after.loadStart = range.loadStart ∧ after.loadEnd = range.loadEnd) := by
  unfold processProgramHeader at next
  dsimp only at next
  split_ifs at next with outside wrapped
  -- the header's slice ends where the check measured it
  have inside : (header.programHeaderOffset i).toNat + programHeaderSize ≤ data.length := by
    rw [← toNat_add_of_not_gt (by decide) wrapped]
    omega
  refine ⟨inside, ?_⟩
  have sliceLength : (data.extract (header.programHeaderOffset i).toNat
      ((header.programHeaderOffset i).toNat + programHeaderSize)).length = programHeaderSize := by
    rw [List.extract_eq_take_drop, List.length_take, List.length_drop]
    omega
  have parsed : ElfProgramHeader.parse (data.extract (header.programHeaderOffset i).toNat
      ((header.programHeaderOffset i).toNat + programHeaderSize)) =
        .ok (header.programHeaderAt data i) := by
    rw [ElfProgramHeader.parse, if_neg (by omega)]
    rfl
  rw [parsed, bind_eq_ok] at next
  obtain ⟨phdr, read, next⟩ := next
  cases mapError_eq_ok.mp read
  dsimp only
  split at next
  · rename_i isLoad
    rw [if_pos isLoad]
    obtain ⟨passed, checked, done⟩ := bind_eq_ok.mp next
    cases done
    exact ⟨mapError_eq_ok.mp checked, rfl, rfl⟩
  · rename_i isInterp
    rw [if_neg (by rw [isInterp]; decide)]
    cases next
    exact ⟨rfl, rfl⟩
  · rename_i notLoad _
    rw [if_neg notLoad]
    cases next
    exact ⟨rfl, rfl⟩

/-! ### The loop over the program headers -/

/-- What the loop has established after the first `count` program headers. -/
structure Tracks (header : ElfHeader) (data : List UInt8) (count : Nat) (range : LoadRange) :
    Prop where
  headersInside : ∀ i < count,
    (header.programHeaderOffset i).toNat + programHeaderSize ≤ data.length
  segmentsChecked : ∀ phdr ∈ header.loadSegments data count, loadSegment phdr data = .ok ()
  startBelow : ∀ phdr ∈ header.loadSegments data count, range.loadStart ≤ phdr.pVaddr
  startReached : range.loadStart = 0xFFFFFFFFFFFFFFFF ∨
    ∃ phdr ∈ header.loadSegments data count, phdr.pVaddr = range.loadStart
  endAbove : ∀ phdr ∈ header.loadSegments data count, phdr.pVaddr + phdr.pMemsz ≤ range.loadEnd
  endReached : (header.loadSegments data count = [] ∧ range.loadEnd = 0) ∨
    ∃ phdr ∈ header.loadSegments data count, phdr.pVaddr + phdr.pMemsz = range.loadEnd

theorem tracks_initial (header : ElfHeader) (data : List UInt8) :
    Tracks header data 0 LoadRange.initial where
  headersInside _ below := absurd below (Nat.not_lt_zero _)
  segmentsChecked _ member := by simp [ElfHeader.loadSegments] at member
  startBelow _ member := by simp [ElfHeader.loadSegments] at member
  startReached := Or.inl rfl
  endAbove _ member := by simp [ElfHeader.loadSegments] at member
  endReached := Or.inl ⟨by simp [ElfHeader.loadSegments], rfl⟩

theorem Tracks.processProgramHeader {header : ElfHeader} {data : List UInt8} {count : Nat}
    {range after : LoadRange} (tracks : Tracks header data count range)
    (next : processProgramHeader header data range count = .ok after) :
    Tracks header data (count + 1) after := by
  obtain ⟨inside, turn⟩ := processProgramHeader_ok next
  dsimp only at turn
  have headersInside : ∀ i < count + 1,
      (header.programHeaderOffset i).toNat + programHeaderSize ≤ data.length := by
    intro i below
    rcases Nat.lt_succ_iff_lt_or_eq.mp below with earlier | rfl
    · exact tracks.headersInside i earlier
    · exact inside
  split_ifs at turn with isLoad
  · -- a loadable segment: the range takes the minimum and the maximum with it
    obtain ⟨checked, start, finish⟩ := turn
    rw [LoadRange.loadStart_addSegment] at start
    rw [LoadRange.loadEnd_addSegment] at finish
    have segments : header.loadSegments data (count + 1) =
        header.loadSegments data count ++ [header.programHeaderAt data count] := by
      rw [ElfHeader.loadSegments_succ]
      simp [isLoad]
    refine ⟨headersInside, ?_, ?_, ?_, ?_, ?_⟩ <;> rw [segments]
    · intro phdr member
      rcases List.mem_append.mp member with old | new
      · exact tracks.segmentsChecked phdr old
      · rw [List.mem_singleton.mp new]
        exact checked
    · intro phdr member
      rw [start]
      rcases List.mem_append.mp member with old | new
      · exact le_trans (min_le_right _ _) (tracks.startBelow phdr old)
      · rw [List.mem_singleton.mp new]
        exact min_le_left _ _
    · rcases min_choice (header.programHeaderAt data count).pVaddr range.loadStart with
        isNew | isOld
      · exact Or.inr ⟨_, List.mem_append_right _ (List.mem_singleton_self _), by rw [start, isNew]⟩
      · rw [start, isOld]
        rcases tracks.startReached with top | ⟨phdr, member, reached⟩
        · exact Or.inl top
        · exact Or.inr ⟨phdr, List.mem_append_left _ member, reached⟩
    · intro phdr member
      rw [finish]
      rcases List.mem_append.mp member with old | new
      · exact le_trans (tracks.endAbove phdr old) (le_max_right _ _)
      · rw [List.mem_singleton.mp new]
        exact le_max_left _ _
    · -- the highest end is the new one, an earlier one, or the initial `0` below the new one
      refine Or.inr ?_
      rcases max_choice ((header.programHeaderAt data count).pVaddr +
          (header.programHeaderAt data count).pMemsz) range.loadEnd with isNew | isOld
      · exact ⟨_, List.mem_append_right _ (List.mem_singleton_self _), by rw [finish, isNew]⟩
      · rcases tracks.endReached with ⟨-, zero⟩ | ⟨phdr, member, reached⟩
        · refine ⟨_, List.mem_append_right _ (List.mem_singleton_self _), ?_⟩
          have below := le_max_left ((header.programHeaderAt data count).pVaddr +
            (header.programHeaderAt data count).pMemsz) range.loadEnd
          rw [isOld, zero] at below
          rw [finish, isOld, zero]
          exact le_antisymm below UInt64.zero_le
        · exact ⟨phdr, List.mem_append_left _ member, by rw [finish, isOld, reached]⟩
  · -- any other header leaves the range
    obtain ⟨start, finish⟩ := turn
    have segments : header.loadSegments data (count + 1) = header.loadSegments data count := by
      rw [ElfHeader.loadSegments_succ]
      simp [isLoad]
    refine ⟨headersInside, ?_, ?_, ?_, ?_, ?_⟩ <;> rw [segments]
    · exact tracks.segmentsChecked
    · rw [start]
      exact tracks.startBelow
    · rw [start]
      exact tracks.startReached
    · rw [finish]
      exact tracks.endAbove
    · rw [finish]
      exact tracks.endReached

theorem tracks_foldlM (header : ElfHeader) (data : List UInt8) :
    ∀ (count : Nat) (range : LoadRange),
      (List.range count).foldlM (processProgramHeader header data) LoadRange.initial = .ok range →
        Tracks header data count range :=
  foldlM_range_of (tracks_initial header data) fun _ _ _ tracks next =>
    tracks.processProgramHeader next

theorem loadSegment_eq_ok_iff (phdr : ElfProgramHeader) (data : List UInt8) :
    loadSegment phdr data = .ok () ↔
      phdr.pFilesz ≤ phdr.pMemsz ∧ (phdr.pOffset + phdr.pFilesz).toNat ≤ data.length := by
  unfold loadSegment
  split_ifs with larger outside
  · refine ⟨fun wrong => ?_, fun ⟨fits, _⟩ => absurd fits (not_le.mpr larger)⟩
    cases wrong
  · refine ⟨fun wrong => ?_, fun ⟨_, inside⟩ => absurd inside (not_le.mpr outside)⟩
    cases wrong
  · exact ⟨fun _ => ⟨not_lt.mp larger, not_lt.mp outside⟩, fun _ => rfl⟩

theorem loadElf_eq_ok {data : List UInt8} {loaded : LoadedElf}
    (loadedOk : loadElf data = .ok loaded) :
    ∃ header : ElfHeader, ElfHeader.parse data = .ok header ∧ header.validate = .ok () ∧
      loaded.entryPoint = ⟨header.eEntry⟩ ∧
      (∀ i < header.ePhnum.toNat,
        (header.programHeaderOffset i).toNat + programHeaderSize ≤ data.length) ∧
      (∀ phdr ∈ header.loadSegments data header.ePhnum.toNat,
        phdr.pFilesz ≤ phdr.pMemsz ∧ (phdr.pOffset + phdr.pFilesz).toNat ≤ data.length) ∧
      IsLeast {start | ∃ phdr ∈ header.loadSegments data header.ePhnum.toNat,
        phdr.pVaddr = start} loaded.loadStart.asU64 ∧
      IsGreatest {finish | ∃ phdr ∈ header.loadSegments data header.ePhnum.toNat,
        phdr.pVaddr + phdr.pMemsz = finish} loaded.loadEnd.asU64 := by
  unfold loadElf at loadedOk
  simp only [bind_eq_ok, mapError_eq_ok] at loadedOk
  obtain ⟨header, parsed, passed, validated, range, looped, loadedOk⟩ := loadedOk
  split_ifs at loadedOk with untouched
  · cases loadedOk
  cases loadedOk
  have tracks := tracks_foldlM header data _ range looped
  -- a segment was loaded, so the lowest address is one of theirs
  obtain ⟨phdr, member, reached⟩ := tracks.startReached.resolve_left untouched
  refine ⟨header, parsed, validated, rfl, tracks.headersInside, fun phdr member =>
    (loadSegment_eq_ok_iff phdr data).mp (tracks.segmentsChecked phdr member),
    ⟨⟨phdr, member, reached⟩, ?_⟩, ?_⟩
  · rintro start ⟨other, otherMember, rfl⟩
    exact tracks.startBelow other otherMember
  · refine ⟨?_, ?_⟩
    · rcases tracks.endReached with ⟨none, _⟩ | reachedEnd
      · rw [none] at member
        cases member
      · exact reachedEnd
    · rintro finish ⟨other, otherMember, rfl⟩
      exact tracks.endAbove other otherMember

/-- The ELF format as the loader reads it: a file header and a program header
written field by field are read back by `parse`, whatever bytes follow them, and
an image that `load_elf` accepts has a header that passes `parse` and
`validate`, its entry point, program headers inside the data, loadable segments
whose file ranges lie inside the data, and a load range from the least segment
address to the greatest segment end, as `u64` sums. -/
theorem elf_images_read_back_and_load_checked :
    (∀ (eType eMachine : UInt16) (eEntry ePhoff : UInt64) (ePhentsize ePhnum : UInt16)
        (rest : List UInt8),
      ElfHeader.parse (ElfHeader.encode eType eMachine eEntry ePhoff ePhentsize ePhnum ++ rest) =
        .ok ⟨elfIdent, eType, eMachine, eEntry, ePhoff, ePhentsize, ePhnum⟩) ∧
    (∀ (pType : UInt32) (pOffset pVaddr pFilesz pMemsz : UInt64) (rest : List UInt8),
      ElfProgramHeader.parse (ElfProgramHeader.encode pType pOffset pVaddr pFilesz pMemsz ++ rest) =
        .ok ⟨pType, pOffset, pVaddr, pFilesz, pMemsz⟩) ∧
    ∀ (data : List UInt8) (loaded : LoadedElf), loadElf data = .ok loaded →
      ∃ header : ElfHeader, ElfHeader.parse data = .ok header ∧ header.validate = .ok () ∧
        loaded.entryPoint = ⟨header.eEntry⟩ ∧
        (∀ i < header.ePhnum.toNat,
          (header.programHeaderOffset i).toNat + programHeaderSize ≤ data.length) ∧
        (∀ phdr ∈ header.loadSegments data header.ePhnum.toNat,
          phdr.pFilesz ≤ phdr.pMemsz ∧ (phdr.pOffset + phdr.pFilesz).toNat ≤ data.length) ∧
        IsLeast {start | ∃ phdr ∈ header.loadSegments data header.ePhnum.toNat,
          phdr.pVaddr = start} loaded.loadStart.asU64 ∧
        IsGreatest {finish | ∃ phdr ∈ header.loadSegments data header.ePhnum.toNat,
          phdr.pVaddr + phdr.pMemsz = finish} loaded.loadEnd.asU64 :=
  ⟨ElfHeader.parse_encode, ElfProgramHeader.parse_encode, fun _ _ loadedOk => loadElf_eq_ok loadedOk⟩

theorem load_elf_ok_one_segment :
    let data := ElfHeader.encode 2 62 0x401000 64 56 1 ++ ElfProgramHeader.encode 1 0 0x400000 120 0x1000
    let loaded : LoadedElf := ⟨⟨0x401000⟩, ⟨0x400000⟩, ⟨0x401000⟩, none⟩
    loadElf data = .ok loaded ∧
    ∃ header : ElfHeader, ElfHeader.parse data = .ok header ∧ header.validate = .ok () ∧
      loaded.entryPoint = ⟨header.eEntry⟩ ∧
      (∀ i < header.ePhnum.toNat,
        (header.programHeaderOffset i).toNat + programHeaderSize ≤ data.length) ∧
      (∀ phdr ∈ header.loadSegments data header.ePhnum.toNat,
        phdr.pFilesz ≤ phdr.pMemsz ∧ (phdr.pOffset + phdr.pFilesz).toNat ≤ data.length) ∧
      IsLeast {start | ∃ phdr ∈ header.loadSegments data header.ePhnum.toNat,
        phdr.pVaddr = start} loaded.loadStart.asU64 ∧
      IsGreatest {finish | ∃ phdr ∈ header.loadSegments data header.ePhnum.toNat,
        phdr.pVaddr + phdr.pMemsz = finish} loaded.loadEnd.asU64 := by
  intro data loaded
  have loadedOk : loadElf data = .ok loaded := by decide +kernel
  exact ⟨loadedOk, elf_images_read_back_and_load_checked.2.2 data loaded loadedOk⟩

theorem elf_load_sums_wrap :
    let fileWrap : Except LoadFailure LoadedElf :=
      loadElf (ElfHeader.encode 2 62 0x401000 64 56 1 ++
        ElfProgramHeader.encode 1 0xFFFFFFFFFFFFFFFF 0x400000 1 1)
    let addressWrap : Except LoadFailure LoadedElf :=
      loadElf (ElfHeader.encode 2 62 0x401000 64 56 1 ++
        ElfProgramHeader.encode 1 0 0xFFFFFFFFFFFFF000 0 0x2000)
    let tableWrap : Except LoadFailure LoadedElf :=
      loadElf (ElfHeader.encode 2 62 0x401000 0xFFFFFFFFFFFFFFF8 56 1)
    (ElfHeader.encode 2 62 0x401000 64 56 1 ++
        ElfProgramHeader.encode 1 0xFFFFFFFFFFFFFFFF 0x400000 1 1).length = 120 ∧
      fileWrap = .ok ⟨⟨0x401000⟩, ⟨0x400000⟩, ⟨0x400001⟩, none⟩ ∧
      addressWrap = .ok ⟨⟨0x401000⟩, ⟨0xFFFFFFFFFFFFF000⟩, ⟨0x1000⟩, none⟩ ∧
      tableWrap = .error .panic := by
  decide +kernel

end FangaOS.Elf
