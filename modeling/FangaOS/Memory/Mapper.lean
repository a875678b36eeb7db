import FangaOS.Lib.Run
import FangaOS.Lib.RadixWalk
import FangaOS.Memory.Addr
import FangaOS.Memory.PageTable

/-! The page-table mapper of `memory/paging/mapper.rs`.  Memory is a function from
the direct-map addresses of tables to tables, and the physical memory manager
the list of frames `alloc_page` hands out.  `translate` is `RadixWalk.walk`;
`flush_tlb`, `load` and `current_cr3` are left out. -/

namespace FangaOS.Paging

open RadixWalk StepMachine FangaOS.Addr

structure PageTableMapper where
  pml4Phys : UInt64
  hhdmOffset : UInt64
  deriving DecidableEq, Repr

/-- The tables in memory, at their virtual addresses, and the frames the
physical memory manager will hand out. -/
structure Machine where
  memory : UInt64 → PageTable
  frames : List UInt64

/-- `pmm.alloc_page()`. -/
def allocPage : List UInt64 → Option (UInt64 × List UInt64)
  | [] => none
  | frame :: rest => some (frame, rest)

/-- A write of entry `index` of the table at `table`. -/
def writeEntry (memory : UInt64 → PageTable) (table : UInt64) (index : Fin 512) (entry : PageTableEntry) :
    UInt64 → PageTable :=
  Function.update memory table ((memory table).setEntry index entry)

/-- `(*table).clear()`. -/
def clearTable (memory : UInt64 → PageTable) (table : UInt64) : UInt64 → PageTable :=
  Function.update memory table PageTable.clear

namespace PageTableMapper

def physToVirt (self : PageTableMapper) (phys : UInt64) : UInt64 :=
  self.hhdmOffset + phys

def new (machine : Machine) (hhdmOffset : UInt64) : Option (PageTableMapper × Machine) :=
  match allocPage machine.frames with
  | none => none
  | some (pml4Phys, frames) =>
      some (⟨pml4Phys, hhdmOffset⟩, ⟨clearTable machine.memory (hhdmOffset + pml4Phys), frames⟩)

/-- `get_or_create_table` for the entry `index` of the table at `table`: a
missing table gets a fresh cleared frame, and the entry's address is read back. -/
def getOrCreateTable (self : PageTableMapper) (machine : Machine) (table : UInt64) (index : Fin 512) :
    Option (UInt64 × Machine) :=
  let created : Option Machine :=
    if !((machine.memory table).entry index).isPresent then
      match allocPage machine.frames with
      | none => none
      | some (phys, frames) =>
          let memory := clearTable machine.memory (self.physToVirt phys)
          some ⟨writeEntry memory table index
            (PageTableEntry.set phys ((PageTableFlags.present.withFlag .writable).withFlag .user)), frames⟩
    else some machine
  created.map fun machine => (self.physToVirt ((machine.memory table).entry index).addr, machine)

/-- `map`.  The tables created before a failed allocation stay. -/
def map (self : PageTableMapper) (machine : Machine) (virtAddr physAddr : UInt64) (flags : PageTableFlags) :
    Except String Unit × Machine :=
  if virtAddr % pageSize.toUInt64 != 0 || physAddr % pageSize.toUInt64 != 0 then
    (.error "Addresses must be page-aligned", machine)
  else
    match self.getOrCreateTable machine (self.physToVirt self.pml4Phys) (pml4Index virtAddr) with
    | none => (.error "Failed to allocate PDPT", machine)
    | some (pdpt, machine) =>
    match self.getOrCreateTable machine pdpt (pdptIndex virtAddr) with
    | none => (.error "Failed to allocate PD", machine)
    | some (pd, machine) =>
    match self.getOrCreateTable machine pd (pdIndex virtAddr) with
    | none => (.error "Failed to allocate PT", machine)
    | some (pt, machine) =>
    if ((machine.memory pt).entry (ptIndex virtAddr)).isPresent then
      (.error "Virtual address already mapped", machine)
    else
      (.ok (), { machine with
        memory := writeEntry machine.memory pt (ptIndex virtAddr) (PageTableEntry.set physAddr (flags.withFlag .present)) })

def unmap (self : PageTableMapper) (machine : Machine) (virtAddr : UInt64) : Except String UInt64 × Machine :=
  if virtAddr % pageSize.toUInt64 != 0 then (.error "Address must be page-aligned", machine)
  else
    let pml4 := machine.memory (self.physToVirt self.pml4Phys)
    if !(pml4.entry (pml4Index virtAddr)).isPresent then (.error "PML4 entry not present", machine)
    else
      let pdptPhys := (pml4.entry (pml4Index virtAddr)).addr
      let pdpt := machine.memory (self.physToVirt pdptPhys)
      if !(pdpt.entry (pdptIndex virtAddr)).isPresent then (.error "PDPT entry not present", machine)
      else
        let pdPhys := (pdpt.entry (pdptIndex virtAddr)).addr
        let pd := machine.memory (self.physToVirt pdPhys)
        if !(pd.entry (pdIndex virtAddr)).isPresent then (.error "PD entry not present", machine)
        else
          let ptPhys := (pd.entry (pdIndex virtAddr)).addr
          let pt := machine.memory (self.physToVirt ptPhys)
          if !(pt.entry (ptIndex virtAddr)).isPresent then (.error "PT entry not present", machine)
          else
            let physAddr := (pt.entry (ptIndex virtAddr)).addr
            (.ok physAddr, { machine with
              memory := writeEntry machine.memory (self.physToVirt ptPhys) (ptIndex virtAddr) PageTableEntry.clear })

def translate (self : PageTableMapper) (memory : UInt64 → PageTable) (virtAddr : UInt64) : Option UInt64 :=
  let offset := virtAddr &&& 0xFFF
  let pml4 := memory (self.physToVirt self.pml4Phys)
  if !(pml4.entry (pml4Index virtAddr)).isPresent then none
  else
    let pdptPhys := (pml4.entry (pml4Index virtAddr)).addr
    let pdpt := memory (self.physToVirt pdptPhys)
    if !(pdpt.entry (pdptIndex virtAddr)).isPresent then none
    else
      let pdPhys := (pdpt.entry (pdptIndex virtAddr)).addr
      let pd := memory (self.physToVirt pdPhys)
      if !(pd.entry (pdIndex virtAddr)).isPresent then none
      else
        let ptPhys := (pd.entry (pdIndex virtAddr)).addr
        let pt := memory (self.physToVirt ptPhys)
        if !(pt.entry (ptIndex virtAddr)).isPresent then none
        else
          let pagePhys := (pt.entry (ptIndex virtAddr)).addr
          some (pagePhys + offset)

end PageTableMapper

inductive MapperOp
  | map (virtAddr physAddr : UInt64) (flags : PageTableFlags)
  | unmap (virtAddr : UInt64)

def PageTableMapper.step (self : PageTableMapper) (machine : Machine) : MapperOp → Machine
  | .map virtAddr physAddr flags => (self.map machine virtAddr physAddr flags).2
  | .unmap virtAddr => (self.unmap machine virtAddr).2

/-! ### The tables as a tree -/

/-- The indices of `virtAddr` below the PML4, the last level first. -/
def tablePathOf (virtAddr : UInt64) : List (Fin 512) :=
  [pdIndex virtAddr, pdptIndex virtAddr, pml4Index virtAddr]

/-- The four indices of `virtAddr`, the last level first. -/
def pathOf (virtAddr : UInt64) : List (Fin 512) :=
  ptIndex virtAddr :: tablePathOf virtAddr

@[simp] theorem length_tablePathOf (virtAddr : UInt64) : (tablePathOf virtAddr).length = 3 :=
  rfl

theorem ite_eq_pathOf {α : Type*} {done : Prop} [Decidable done] (holds : done) (virtAddr : UInt64)
    (other : List (Fin 512)) (changed unchanged : α) :
    (if other = ptIndex virtAddr :: tablePathOf virtAddr then changed else unchanged) =
      if done ∧ other = pathOf virtAddr then changed else unchanged := by
  by_cases same : other = pathOf virtAddr
  · have unfolded : other = ptIndex virtAddr :: tablePathOf virtAddr := same
    rw [if_pos unfolded, if_pos ⟨holds, same⟩]
  · have unfolded : other ≠ ptIndex virtAddr :: tablePathOf virtAddr := same
    rw [if_neg unfolded, if_neg fun both => same both.2]

namespace PageTableMapper

/-- What entry `index` of the table in frame `table` points to, when it is
present: the next table, or at the last level the mapped frame. -/
def nextTable (self : PageTableMapper) (memory : UInt64 → PageTable) (table : UInt64) (index : Fin 512) :
    Option UInt64 :=
  ((memory (self.physToVirt table)).entry index).target

/-- The frame that the walk down `path` from the PML4 reaches. -/
def tableFrame (self : PageTableMapper) (memory : UInt64 → PageTable) (path : List (Fin 512)) : Option UInt64 :=
  walk (self.nextTable memory) self.pml4Phys path

/-- The tables that `map` has to create for `virtAddr`. -/
def neededTables (self : PageTableMapper) (memory : UInt64 → PageTable) (virtAddr : UInt64) : Nat :=
  missing (self.nextTable memory) self.pml4Phys (tablePathOf virtAddr)

/-- The tables form a tree whose tables are reached along one path each, and the
frames still to be handed out are distinct, unused and fit an entry. -/
structure Tree (mapper : PageTableMapper) (machine : Machine) : Prop where
  reachedOnce : ReachedOnce (mapper.nextTable machine.memory) mapper.pml4Phys 4
  fresh : ∀ frame ∈ machine.frames, ¬ Reached (mapper.nextTable machine.memory) mapper.pml4Phys 4 frame
  distinct : machine.frames.Nodup
  framesFit : ∀ frame ∈ machine.frames, frame &&& addrMask = frame

variable {self : PageTableMapper} {machine : Machine}

theorem physToVirt_inj {phys other : UInt64} : self.physToVirt phys = self.physToVirt other ↔ phys = other :=
  UInt64.add_right_inj self.hhdmOffset

@[simp] theorem tableFrame_nil (memory : UInt64 → PageTable) : self.tableFrame memory [] = some self.pml4Phys :=
  rfl

theorem tableFrame_cons (memory : UInt64 → PageTable) (index : Fin 512) (path : List (Fin 512)) :
    self.tableFrame memory (index :: path) =
      (self.tableFrame memory path).bind fun table => self.nextTable memory table index :=
  rfl

theorem nextTable_writeEntry (memory : UInt64 → PageTable) (key : UInt64) (index : Fin 512)
    (entry : PageTableEntry) (table : UInt64) (other : Fin 512) :
    self.nextTable (writeEntry memory (self.physToVirt key) index entry) table other =
      if table = key ∧ other = index then entry.target else self.nextTable memory table other := by
  unfold nextTable writeEntry
  by_cases sameTable : table = key
  · subst sameTable
    rw [Function.update_self, PageTable.entry_setEntry]
    by_cases sameIndex : other = index
    · rw [if_pos sameIndex, if_pos ⟨rfl, sameIndex⟩]
    · rw [if_neg sameIndex, if_neg fun both => sameIndex both.2]
  · rw [Function.update_of_ne (mt physToVirt_inj.mp sameTable), if_neg fun both => sameTable both.1]

theorem nextTable_clearTable (memory : UInt64 → PageTable) (cleared table : UInt64) (index : Fin 512) :
    self.nextTable (clearTable memory (self.physToVirt cleared)) table index =
      if table = cleared then none else self.nextTable memory table index := by
  unfold nextTable clearTable
  by_cases same : table = cleared
  · subst same
    rw [Function.update_self, PageTable.entry_clear, PageTableEntry.target_clear, if_pos rfl]
  · rw [Function.update_of_ne (mt physToVirt_inj.mp same), if_neg same]

theorem tableFrame_isSome_of_suffix {memory : UInt64 → PageTable} {path longer : List (Fin 512)}
    (suffix : path <:+ longer) (found : (self.tableFrame memory longer).isSome) :
    (self.tableFrame memory path).isSome := by
  cases reached : self.tableFrame memory path with
  | none => rw [tableFrame, walk_eq_none_of_suffix suffix reached] at found; cases found
  | some _ => rfl

namespace Tree

theorem ne_of_fresh (tree : Tree self machine) {frame key : UInt64} (member : frame ∈ machine.frames)
    {path : List (Fin 512)} (short : path.length < 4) (reached : self.tableFrame machine.memory path = some key) :
    key ≠ frame := by
  rintro rfl
  exact tree.fresh key member ⟨path, short, reached⟩

end Tree

/-! ### `get_or_create_table` -/

theorem tableFlags_present :
    ((PageTableFlags.present.withFlag .writable).withFlag .user).contains .present = true := by
  decide

theorem getOrCreateTable_of_present {key : UInt64} {index : Fin 512}
    (present : ((machine.memory (self.physToVirt key)).entry index).isPresent = true) :
    self.getOrCreateTable machine (self.physToVirt key) index =
      some (self.physToVirt ((machine.memory (self.physToVirt key)).entry index).addr, machine) := by
  unfold getOrCreateTable
  rw [present]
  rfl

theorem getOrCreateTable_of_exhausted {key : UInt64} {index : Fin 512}
    (absent : ((machine.memory (self.physToVirt key)).entry index).isPresent = false)
    (exhausted : machine.frames = []) :
    self.getOrCreateTable machine (self.physToVirt key) index = none := by
  unfold getOrCreateTable
  rw [absent, exhausted]
  rfl

/-- The machine after `get_or_create_table` has created the table in `fresh`
under entry `index` of the table in `key`. -/
def attachTable (self : PageTableMapper) (memory : UInt64 → PageTable) (key fresh : UInt64) (index : Fin 512) :
    UInt64 → PageTable :=
  writeEntry (clearTable memory (self.physToVirt fresh)) (self.physToVirt key) index
    (PageTableEntry.set fresh ((PageTableFlags.present.withFlag .writable).withFlag .user))

theorem getOrCreateTable_of_absent {key fresh : UInt64} {rest : List UInt64} {index : Fin 512}
    (absent : ((machine.memory (self.physToVirt key)).entry index).isPresent = false)
    (supply : machine.frames = fresh :: rest) (fits : fresh &&& addrMask = fresh) :
    self.getOrCreateTable machine (self.physToVirt key) index =
      some (self.physToVirt fresh, ⟨self.attachTable machine.memory key fresh index, rest⟩) := by
  unfold getOrCreateTable
  rw [absent, supply]
  simp only [Bool.not_false, if_true, allocPage, Option.map_some]
  unfold attachTable writeEntry
  rw [Function.update_self, PageTable.entry_setEntry, if_pos rfl, PageTableEntry.addr_set, fits]

theorem nextTable_attachTable (memory : UInt64 → PageTable) {key fresh : UInt64}
    (index : Fin 512) (fits : fresh &&& addrMask = fresh) (table : UInt64) (other : Fin 512) :
    self.nextTable (self.attachTable memory key fresh index) table other =
      if table = key ∧ other = index then some fresh
      else if table = fresh then none else self.nextTable memory table other := by
  unfold attachTable
  rw [nextTable_writeEntry, PageTableEntry.target_set, tableFlags_present, if_pos rfl, fits,
    nextTable_clearTable]

theorem tableFrame_cons_of_reached {memory : UInt64 → PageTable} {path : List (Fin 512)} {key : UInt64}
    (reached : self.tableFrame memory path = some key) (index : Fin 512) :
    self.tableFrame memory (index :: path) = self.nextTable memory key index := by
  rw [tableFrame_cons, reached]
  rfl

theorem getOrCreateTable_spec (tree : Tree self machine) {path : List (Fin 512)} {key : UInt64}
    (reached : self.tableFrame machine.memory path = some key) (short : path.length < 3) (index : Fin 512) :
    match self.getOrCreateTable machine (self.physToVirt key) index with
    | none => self.tableFrame machine.memory (index :: path) = none ∧ machine.frames = []
    | some (table, after) => ∃ frame, table = self.physToVirt frame ∧
        self.tableFrame after.memory (index :: path) = some frame ∧ Tree self after ∧
        (∀ other : List (Fin 512), other.length ≤ 4 → other ≠ index :: path →
          self.tableFrame after.memory other = self.tableFrame machine.memory other) ∧
        after.frames.length + (if (self.tableFrame machine.memory (index :: path)).isNone then 1 else 0) =
          machine.frames.length := by
  have below := tableFrame_cons_of_reached reached index
  cases present : ((machine.memory (self.physToVirt key)).entry index).isPresent with
  | true =>
      have found : self.tableFrame machine.memory (index :: path) =
          some ((machine.memory (self.physToVirt key)).entry index).addr := by
        rw [below, nextTable, PageTableEntry.target, if_pos present]
      rw [getOrCreateTable_of_present present]
      refine ⟨_, rfl, found, tree, fun _ _ _ => rfl, ?_⟩
      rw [found]
      rfl
  | false =>
      have absent : self.tableFrame machine.memory (index :: path) = none := by
        rw [below, nextTable, PageTableEntry.target, present]
        rfl
      cases supply : machine.frames with
      | nil =>
          rw [getOrCreateTable_of_exhausted present supply]
          exact ⟨absent, rfl⟩
      | cons fresh rest =>
          have member : fresh ∈ machine.frames := supply ▸ List.mem_cons_self
          have unreached := tree.fresh fresh member
          have fits := tree.framesFit fresh member
          rw [getOrCreateTable_of_absent present supply fits]
          have agree : ∀ k j, Reached (self.nextTable machine.memory) self.pml4Phys 4 k →
              k ≠ key ∨ j ≠ index →
              self.nextTable (self.attachTable machine.memory key fresh index) k j =
                self.nextTable machine.memory k j := by
            intro k j reachedK elsewhere
            have notFresh : k ≠ fresh := fun same => unreached (same ▸ reachedK)
            rw [nextTable_attachTable _ index fits, if_neg (not_and_or.mpr elsewhere), if_neg notFresh]
          have keyNotFresh : key ≠ fresh := tree.ne_of_fresh member (by omega) reached
          have empty := below.symm.trans absent
          have entry : self.nextTable (self.attachTable machine.memory key fresh index) key index = some fresh := by
            rw [nextTable_attachTable _ index fits, if_pos ⟨rfl, rfl⟩]
          have childless : ∀ j, self.nextTable (self.attachTable machine.memory key fresh index) fresh j = none := by
            intro j
            rw [nextTable_attachTable _ index fits, if_neg fun both => keyNotFresh both.1.symm, if_pos rfl]
          have attached := walk_attach tree.reachedOnce reached (by omega) agree empty entry childless
          refine ⟨fresh, rfl, ?_, ?_, ?_, ?_⟩
          · rw [tableFrame, attached (index :: path) (by simp only [List.length_cons]; omega), if_pos rfl]
          · have distinct := List.nodup_cons.mp (supply ▸ tree.distinct)
            refine ⟨reachedOnce_attach tree.reachedOnce reached (by omega) agree empty entry childless unreached,
              ?_, distinct.2, ?_⟩
            · intro frame later reachedAfter
              rcases reached_attach tree.reachedOnce reached (by omega) agree empty entry childless reachedAfter
                with before | same
              · exact tree.fresh frame (supply ▸ List.mem_cons_of_mem fresh later) before
              · exact distinct.1 (same ▸ later)
            · intro frame later
              exact tree.framesFit frame (supply ▸ List.mem_cons_of_mem fresh later)
          · intro other bounded different
            rw [tableFrame, attached other bounded, if_neg different]
            rfl
          · rw [absent]
            rfl

/-! ### Writing a last-level entry -/

theorem nextTable_writeEntry_of_ne (memory : UInt64 → PageTable) {key : UInt64} {index : Fin 512}
    (entry : PageTableEntry) {table : UInt64} {other : Fin 512} (elsewhere : table ≠ key ∨ other ≠ index) :
    self.nextTable (writeEntry memory (self.physToVirt key) index entry) table other =
      self.nextTable memory table other := by
  rw [nextTable_writeEntry, if_neg (not_and_or.mpr elsewhere)]

theorem tableFrame_writeEntry (tree : Tree self machine) {tablePath : List (Fin 512)} {key : UInt64}
    (reached : self.tableFrame machine.memory tablePath = some key) (full : tablePath.length = 3)
    (index : Fin 512) (entry : PageTableEntry) (other : List (Fin 512)) (bounded : other.length ≤ 4) :
    self.tableFrame (writeEntry machine.memory (self.physToVirt key) index entry) other =
      if other = index :: tablePath then entry.target else self.tableFrame machine.memory other := by
  rw [tableFrame, walk_update_entry tree.reachedOnce reached (by omega)
    (fun _ _ _ elsewhere => nextTable_writeEntry_of_ne machine.memory entry elsewhere) other bounded,
    nextTable_writeEntry, if_pos (And.intro rfl rfl : key = key ∧ index = index)]
  rfl

theorem Tree.of_writeEntry (tree : Tree self machine) {tablePath : List (Fin 512)} {key : UInt64}
    (reached : self.tableFrame machine.memory tablePath = some key) (full : tablePath.length = 3)
    (index : Fin 512) (entry : PageTableEntry) :
    Tree self ⟨writeEntry machine.memory (self.physToVirt key) index entry, machine.frames⟩ := by
  -- the tables are reached by walks shorter than the written entry's, which do not change
  have same : ∀ other : List (Fin 512), other.length < 4 →
      walk (self.nextTable (writeEntry machine.memory (self.physToVirt key) index entry)) self.pml4Phys other =
        walk (self.nextTable machine.memory) self.pml4Phys other :=
    walk_update_entry_of_short tree.reachedOnce reached (by omega)
      (fun _ _ _ elsewhere => nextTable_writeEntry_of_ne machine.memory entry elsewhere)
  refine ⟨(reachedOnce_congr same).mpr tree.reachedOnce, ?_, tree.distinct, tree.framesFit⟩
  intro frame member reachedAfter
  exact tree.fresh frame member ((reached_congr same).mp reachedAfter)

/-! ### `map` -/

theorem aligned_iff (x : UInt64) : (x % pageSize.toUInt64 != 0) = false ↔ x.toNat % pageSize = 0 := by
  rw [bne_eq_false_iff_eq, ← UInt64.toNat_inj, UInt64.toNat_mod, toNat_pageSize]
  rfl

/-- What a call of `map` does, given its outcome: it keeps the tree and succeeds
exactly when it may, changing the walk of `virtAddr` alone. -/
def MapSpec (self : PageTableMapper) (machine : Machine) (virtAddr physAddr : UInt64)
    (outcome : Except String Unit × Machine) : Prop :=
  Tree self outcome.2 ∧
  (outcome.1 = .ok () ↔ virtAddr.toNat % pageSize = 0 ∧ physAddr.toNat % pageSize = 0 ∧
    self.tableFrame machine.memory (pathOf virtAddr) = none ∧
    self.neededTables machine.memory virtAddr ≤ machine.frames.length) ∧
  ∀ other : List (Fin 512), other.length = 4 →
    self.tableFrame outcome.2.memory other =
      if outcome.1 = .ok () ∧ other = pathOf virtAddr then some (physAddr &&& addrMask)
      else self.tableFrame machine.memory other

/-- `after` is `machine` with tables created along the path of `virtAddr` only. -/
structure Grown (mapper : PageTableMapper) (machine after : Machine) (virtAddr : UInt64) : Prop where
  tree : Tree mapper after
  leaves : ∀ other : List (Fin 512), other.length = 4 →
    mapper.tableFrame after.memory other = mapper.tableFrame machine.memory other
  enough : mapper.neededTables machine.memory virtAddr ≤ machine.frames.length ↔
    mapper.neededTables after.memory virtAddr ≤ after.frames.length

theorem Grown.refl (tree : Tree self machine) (virtAddr : UInt64) : Grown self machine machine virtAddr :=
  ⟨tree, fun _ _ => rfl, Iff.rfl⟩

theorem Grown.level {virtAddr : UInt64} {middle after : Machine} (grown : Grown self machine middle virtAddr)
    {index : Fin 512} {path : List (Fin 512)} {frame : UInt64} (segment : index :: path <:+ tablePathOf virtAddr)
    (tree : Tree self after) (created : self.tableFrame after.memory (index :: path) = some frame)
    (others : ∀ other : List (Fin 512), other.length ≤ 4 → other ≠ index :: path →
      self.tableFrame after.memory other = self.tableFrame middle.memory other)
    (count : after.frames.length + (if (self.tableFrame middle.memory (index :: path)).isNone then 1 else 0) =
      middle.frames.length) :
    Grown self machine after virtAddr := by
  have short : (index :: path).length ≤ 3 := length_tablePathOf virtAddr ▸ segment.length_le
  refine ⟨tree, fun other length => ?_, ?_⟩
  · have different : other ≠ index :: path := fun same => by
      rw [same] at length
      omega
    rw [others other (by omega) different, grown.leaves other length]
  · have fewer := missing_of_added segment created fun inner suffix different =>
      others inner (by have := suffix.length_le; simp only [length_tablePathOf] at this; omega) different
    unfold tableFrame at count
    rw [grown.enough]
    unfold neededTables
    omega

theorem Grown.not_enough {virtAddr : UInt64} {middle : Machine} (grown : Grown self machine middle virtAddr)
    {index : Fin 512} {path : List (Fin 512)} (segment : index :: path <:+ tablePathOf virtAddr)
    (absent : self.tableFrame middle.memory (index :: path) = none) (exhausted : middle.frames = []) :
    ¬ self.neededTables machine.memory virtAddr ≤ machine.frames.length := by
  rw [grown.enough, exhausted]
  have positive := missing_pos segment (List.cons_ne_nil index path) absent
  unfold neededTables
  rw [List.length_nil]
  omega

theorem mapSpec_of_error {virtAddr physAddr : UInt64} {middle : Machine} (grown : Grown self machine middle virtAddr)
    (fails : ¬ (virtAddr.toNat % pageSize = 0 ∧ physAddr.toNat % pageSize = 0 ∧
      self.tableFrame machine.memory (pathOf virtAddr) = none ∧
      self.neededTables machine.memory virtAddr ≤ machine.frames.length))
    (message : String) : MapSpec self machine virtAddr physAddr (.error message, middle) := by
  refine ⟨grown.tree, iff_of_false (by simp) fails, fun other length => ?_⟩
  rw [if_neg (by simp), grown.leaves other length]

theorem Grown.descend {virtAddr : UInt64} {middle : Machine} (grown : Grown self machine middle virtAddr)
    {index : Fin 512} {path : List (Fin 512)} {key : UInt64} (segment : index :: path <:+ tablePathOf virtAddr)
    (reached : self.tableFrame middle.memory path = some key) :
    match self.getOrCreateTable middle (self.physToVirt key) index with
    | none => ∀ physAddr message, MapSpec self machine virtAddr physAddr (.error message, middle)
    | some (table, after) => ∃ frame, table = self.physToVirt frame ∧
        self.tableFrame after.memory (index :: path) = some frame ∧ Grown self machine after virtAddr := by
  have short : (index :: path).length ≤ 3 := length_tablePathOf virtAddr ▸ segment.length_le
  have level := getOrCreateTable_spec grown.tree reached (by simp only [List.length_cons] at short; omega) index
  cases call : self.getOrCreateTable middle (self.physToVirt key) index with
  | none =>
      rw [call] at level
      intro physAddr message
      exact mapSpec_of_error grown (fun ⟨_, _, _, enough⟩ => grown.not_enough segment level.1 level.2 enough) message
  | some found =>
      obtain ⟨table, after⟩ := found
      rw [call] at level
      obtain ⟨frame, rfl, created, tree, others, count⟩ := level
      exact ⟨frame, rfl, created, grown.level segment tree created others count⟩

theorem mapSpec_of_leaf {virtAddr physAddr : UInt64} {flags : PageTableFlags} {middle : Machine} {frame : UInt64}
    (grown : Grown self machine middle virtAddr)
    (aligned : virtAddr.toNat % pageSize = 0 ∧ physAddr.toNat % pageSize = 0)
    (reached : self.tableFrame middle.memory (tablePathOf virtAddr) = some frame) :
    MapSpec self machine virtAddr physAddr
      (if ((middle.memory (self.physToVirt frame)).entry (ptIndex virtAddr)).isPresent then
        (.error "Virtual address already mapped", middle)
      else
        (.ok (), { middle with memory := (writeEntry middle.memory (self.physToVirt frame) (ptIndex virtAddr)
          (PageTableEntry.set physAddr (flags.withFlag .present))) })) := by
  have leaf : self.tableFrame machine.memory (pathOf virtAddr) =
      ((middle.memory (self.physToVirt frame)).entry (ptIndex virtAddr)).target := by
    rw [← grown.leaves (pathOf virtAddr) rfl, pathOf, tableFrame_cons_of_reached reached]
    rfl
  cases mapped : ((middle.memory (self.physToVirt frame)).entry (ptIndex virtAddr)).isPresent with
  | true =>
      apply mapSpec_of_error grown
      rintro ⟨-, -, unmapped, -⟩
      rw [leaf, PageTableEntry.target, if_pos mapped] at unmapped
      cases unmapped
  | false =>
      rw [if_neg Bool.false_ne_true]
      -- every table on the way is there, so none is missing
      have complete : self.neededTables middle.memory virtAddr = 0 :=
        missing_eq_zero fun inner suffix => tableFrame_isSome_of_suffix suffix (by rw [reached]; rfl)
      refine ⟨grown.tree.of_writeEntry reached rfl _ _, iff_of_true rfl ⟨aligned.1, aligned.2, ?_, ?_⟩, ?_⟩
      · rw [leaf, PageTableEntry.target, mapped]
        rfl
      · rw [grown.enough, complete]
        exact Nat.zero_le _
      · intro other length
        rw [tableFrame_writeEntry grown.tree reached rfl _ _ other (by omega), PageTableEntry.target_set,
          PageTableFlags.contains_withFlag_present, if_pos rfl, grown.leaves other length]
        exact ite_eq_pathOf rfl virtAddr other _ _

theorem map_spec (tree : Tree self machine) (virtAddr physAddr : UInt64) (flags : PageTableFlags) :
    MapSpec self machine virtAddr physAddr (self.map machine virtAddr physAddr flags) := by
  have start := Grown.refl tree virtAddr
  by_cases misaligned : (virtAddr % pageSize.toUInt64 != 0 || physAddr % pageSize.toUInt64 != 0) = true
  · have outcome : self.map machine virtAddr physAddr flags = (.error "Addresses must be page-aligned", machine) := by
      unfold map
      rw [if_pos misaligned]
    rw [outcome]
    apply mapSpec_of_error start
    rintro ⟨virtAligned, physAligned, -⟩
    rw [← aligned_iff] at virtAligned physAligned
    rw [virtAligned, physAligned] at misaligned
    cases misaligned
  · have aligned : virtAddr.toNat % pageSize = 0 ∧ physAddr.toNat % pageSize = 0 := by
      rw [Bool.not_eq_true, Bool.or_eq_false_iff] at misaligned
      exact ⟨(aligned_iff _).mp misaligned.1, (aligned_iff _).mp misaligned.2⟩
    -- the PDPT
    have level1 := start.descend ⟨[pdIndex virtAddr, pdptIndex virtAddr], rfl⟩ (tableFrame_nil machine.memory)
    cases call1 : self.getOrCreateTable machine (self.physToVirt self.pml4Phys) (pml4Index virtAddr) with
    | none =>
        rw [call1] at level1
        have outcome : self.map machine virtAddr physAddr flags = (.error "Failed to allocate PDPT", machine) := by
          unfold map
          rw [if_neg misaligned, call1]
        rw [outcome]
        exact level1 physAddr _
    | some found1 =>
    obtain ⟨pdpt, machine1⟩ := found1
    rw [call1] at level1
    obtain ⟨frame1, rfl, at1, grown1⟩ := level1
    -- the PD
    have level2 := grown1.descend ⟨[pdIndex virtAddr], rfl⟩ at1
    cases call2 : self.getOrCreateTable machine1 (self.physToVirt frame1) (pdptIndex virtAddr) with
    | none =>
        rw [call2] at level2
        have outcome : self.map machine virtAddr physAddr flags = (.error "Failed to allocate PD", machine1) := by
          unfold map
          rw [if_neg misaligned]
          simp only [call1, call2]
        rw [outcome]
        exact level2 physAddr _
    | some found2 =>
    obtain ⟨pd, machine2⟩ := found2
    rw [call2] at level2
    obtain ⟨frame2, rfl, at2, grown2⟩ := level2
    -- the PT
    have level3 := grown2.descend (List.suffix_refl _) at2
    cases call3 : self.getOrCreateTable machine2 (self.physToVirt frame2) (pdIndex virtAddr) with
    | none =>
        rw [call3] at level3
        have outcome : self.map machine virtAddr physAddr flags = (.error "Failed to allocate PT", machine2) := by
          unfold map
          rw [if_neg misaligned]
          simp only [call1, call2, call3]
        rw [outcome]
        exact level3 physAddr _
    | some found3 =>
    obtain ⟨pt, machine3⟩ := found3
    rw [call3] at level3
    obtain ⟨frame3, rfl, at3, grown3⟩ := level3
    have outcome : self.map machine virtAddr physAddr flags =
        if ((machine3.memory (self.physToVirt frame3)).entry (ptIndex virtAddr)).isPresent then
          (.error "Virtual address already mapped", machine3)
        else
          (.ok (), { machine3 with memory := (writeEntry machine3.memory (self.physToVirt frame3) (ptIndex virtAddr)
            (PageTableEntry.set physAddr (flags.withFlag .present))) }) := by
      unfold map
      rw [if_neg misaligned]
      simp only [call1, call2, call3]
    rw [outcome]
    exact mapSpec_of_leaf grown3 aligned at3

/-! ### `unmap` and `translate` -/

/-- What a call of `unmap` does, given its outcome: it returns the frame of a
mapped aligned `virtAddr` and unmaps that page alone. -/
def UnmapSpec (self : PageTableMapper) (machine : Machine) (virtAddr : UInt64)
    (outcome : Except String UInt64 × Machine) : Prop :=
  Tree self outcome.2 ∧ outcome.2.frames = machine.frames ∧
  (∀ physAddr, outcome.1 = .ok physAddr ↔
    virtAddr.toNat % pageSize = 0 ∧ self.tableFrame machine.memory (pathOf virtAddr) = some physAddr) ∧
  ∀ other : List (Fin 512), other.length = 4 →
    self.tableFrame outcome.2.memory other =
      if outcome.1.isOk ∧ other = pathOf virtAddr then none else self.tableFrame machine.memory other

theorem unmapSpec_of_error (tree : Tree self machine) {virtAddr : UInt64}
    (fails : ∀ physAddr, ¬ (virtAddr.toNat % pageSize = 0 ∧
      self.tableFrame machine.memory (pathOf virtAddr) = some physAddr))
    (message : String) : UnmapSpec self machine virtAddr (.error message, machine) := by
  refine ⟨tree, rfl, fun physAddr => iff_of_false (by simp) (fails physAddr), fun other _ => ?_⟩
  rw [if_neg (by simp [Except.isOk, Except.toBool])]

theorem unmapSpec_of_leaf (tree : Tree self machine) {virtAddr : UInt64} {frame : UInt64}
    (aligned : virtAddr.toNat % pageSize = 0)
    (reached : self.tableFrame machine.memory (tablePathOf virtAddr) = some frame)
    (present : ((machine.memory (self.physToVirt frame)).entry (ptIndex virtAddr)).isPresent = true) :
    UnmapSpec self machine virtAddr
      (.ok ((machine.memory (self.physToVirt frame)).entry (ptIndex virtAddr)).addr,
        { machine with
          memory := writeEntry machine.memory (self.physToVirt frame) (ptIndex virtAddr) PageTableEntry.clear }) := by
  have leaf : self.tableFrame machine.memory (pathOf virtAddr) =
      some ((machine.memory (self.physToVirt frame)).entry (ptIndex virtAddr)).addr := by
    rw [pathOf, tableFrame_cons_of_reached reached, nextTable, PageTableEntry.target, if_pos present]
  refine ⟨tree.of_writeEntry reached rfl _ _, rfl, fun physAddr => ?_, fun other length => ?_⟩
  · rw [leaf]
    simp [aligned]
  · rw [tableFrame_writeEntry tree reached rfl _ _ other (by omega), PageTableEntry.target_clear]
    exact ite_eq_pathOf rfl virtAddr other _ _

theorem tableFrame_cons_of_present {memory : UInt64 → PageTable} {path : List (Fin 512)} {key : UInt64}
    (reached : self.tableFrame memory path = some key) {index : Fin 512}
    (present : ((memory (self.physToVirt key)).entry index).isPresent = true) :
    self.tableFrame memory (index :: path) = some ((memory (self.physToVirt key)).entry index).addr := by
  rw [tableFrame_cons_of_reached reached, nextTable, PageTableEntry.target, if_pos present]

theorem tableFrame_cons_of_absent {memory : UInt64 → PageTable} {path : List (Fin 512)} {key : UInt64}
    (reached : self.tableFrame memory path = some key) {index : Fin 512}
    (absent : ((memory (self.physToVirt key)).entry index).isPresent = false) :
    self.tableFrame memory (index :: path) = none := by
  rw [tableFrame_cons_of_reached reached, nextTable, PageTableEntry.target, absent]
  rfl

theorem tableFrame_eq_none_of_suffix {memory : UInt64 → PageTable} {segment longer : List (Fin 512)}
    (suffix : segment <:+ longer) (absent : self.tableFrame memory segment = none) :
    self.tableFrame memory longer = none :=
  walk_eq_none_of_suffix suffix absent

theorem tableFrame_pathOf_of_absent {memory : UInt64 → PageTable} {path : List (Fin 512)} {key : UInt64}
    (reached : self.tableFrame memory path = some key) {index : Fin 512}
    (absent : (!((memory (self.physToVirt key)).entry index).isPresent) = true) {virtAddr : UInt64}
    (segment : index :: path <:+ pathOf virtAddr) :
    self.tableFrame memory (pathOf virtAddr) = none :=
  tableFrame_eq_none_of_suffix segment (tableFrame_cons_of_absent reached (by simpa using absent))

theorem unmapSpec_of_absent (tree : Tree self machine) {virtAddr : UInt64}
    (absent : self.tableFrame machine.memory (pathOf virtAddr) = none) (message : String) :
    UnmapSpec self machine virtAddr (.error message, machine) := by
  apply unmapSpec_of_error tree
  rintro physAddr ⟨-, found⟩
  rw [absent] at found
  cases found

theorem unmap_spec (tree : Tree self machine) (virtAddr : UInt64) :
    UnmapSpec self machine virtAddr (self.unmap machine virtAddr) := by
  unfold unmap
  dsimp only
  split
  next misaligned =>
    apply unmapSpec_of_error tree
    rintro physAddr ⟨aligned, -⟩
    rw [← aligned_iff, misaligned] at aligned
    cases aligned
  next misaligned =>
  have aligned : virtAddr.toNat % pageSize = 0 := (aligned_iff _).mp (by simpa using misaligned)
  -- one level of the walk at a time; an empty entry ends it with an error
  split
  next absent =>
    exact unmapSpec_of_absent tree (tableFrame_pathOf_of_absent (tableFrame_nil _) absent
      ⟨[ptIndex virtAddr, pdIndex virtAddr, pdptIndex virtAddr], rfl⟩) _
  next present1 =>
  have reached1 := tableFrame_cons_of_present (tableFrame_nil machine.memory) (by simpa using present1)
  split
  next absent =>
    exact unmapSpec_of_absent tree
      (tableFrame_pathOf_of_absent reached1 absent ⟨[ptIndex virtAddr, pdIndex virtAddr], rfl⟩) _
  next present2 =>
  have reached2 := tableFrame_cons_of_present reached1 (by simpa using present2)
  split
  next absent =>
    exact unmapSpec_of_absent tree (tableFrame_pathOf_of_absent reached2 absent ⟨[ptIndex virtAddr], rfl⟩) _
  next present3 =>
  have reached3 := tableFrame_cons_of_present reached2 (by simpa using present3)
  split
  next absent =>
    exact unmapSpec_of_absent tree (tableFrame_pathOf_of_absent reached3 absent (List.suffix_refl _)) _
  next present4 =>
  exact unmapSpec_of_leaf tree aligned reached3 (by simpa using present4)

theorem translate_eq (memory : UInt64 → PageTable) (virtAddr : UInt64) :
    self.translate memory virtAddr = (self.tableFrame memory (pathOf virtAddr)).map (· + pageOffset virtAddr) := by
  unfold translate
  dsimp only
  split
  next absent =>
    rw [tableFrame_pathOf_of_absent (tableFrame_nil _) absent
      ⟨[ptIndex virtAddr, pdIndex virtAddr, pdptIndex virtAddr], rfl⟩]
    rfl
  next present1 =>
  have reached1 := tableFrame_cons_of_present (tableFrame_nil memory) (by simpa using present1)
  split
  next absent =>
    rw [tableFrame_pathOf_of_absent reached1 absent ⟨[ptIndex virtAddr, pdIndex virtAddr], rfl⟩]
    rfl
  next present2 =>
  have reached2 := tableFrame_cons_of_present reached1 (by simpa using present2)
  split
  next absent =>
    rw [tableFrame_pathOf_of_absent reached2 absent ⟨[ptIndex virtAddr], rfl⟩]
    rfl
  next present3 =>
  have reached3 := tableFrame_cons_of_present reached2 (by simpa using present3)
  split
  next absent =>
    rw [tableFrame_pathOf_of_absent reached3 absent (List.suffix_refl _)]
    rfl
  next present4 =>
  rw [pathOf, tablePathOf, tableFrame_cons_of_present reached3 (by simpa using present4)]
  rfl

end PageTableMapper

end FangaOS.Paging
