import Mathlib.Data.List.Perm.Basic
import FangaOS.Lib.Run
import FangaOS.Lib.KeyedList

/-! The write-back block cache of `storage/cache/mod.rs`, over a device that never
fails.  The entries' access timestamps are written and never read, and are left
out. -/

namespace FangaOS.Cache

open StepMachine

/-- A block device that never fails. -/
structure BlockDevice where
  blockSize : Nat
  content : UInt64 → List UInt8

def BlockDevice.writeBlock (device : BlockDevice) (block : UInt64) (data : List UInt8) :
    BlockDevice :=
  { device with content := Function.update device.content block data }

structure CacheEntry where
  block : UInt64
  data : List UInt8
  dirty : Bool
  deriving DecidableEq, Repr

structure DiskCache where
  device : BlockDevice
  entries : List CacheEntry
  lruQueue : List UInt64
  maxEntries : Nat

def DiskCache.new (device : BlockDevice) (maxEntries : Nat) : DiskCache :=
  { device := device, entries := [], lruQueue := [], maxEntries := maxEntries }

def DiskCache.blockSize (cache : DiskCache) : Nat :=
  cache.device.blockSize

def DiskCache.findEntry (cache : DiskCache) (block : UInt64) : Option CacheEntry :=
  KeyedList.lookup CacheEntry.block cache.entries block

/-- `while queue.len() > max_entries { queue.pop_back(); }` -/
def popBackWhileOver (maxEntries : Nat) (queue : List UInt64) : List UInt64 :=
  if maxEntries < queue.length then popBackWhileOver maxEntries queue.dropLast else queue
termination_by queue.length
decreasing_by
  rw [List.length_dropLast]
  omega

/-- `update_lru`: the block moves to the front, and the queue is cut back to
`max_entries` blocks. -/
def DiskCache.updateLru (cache : DiskCache) (block : UInt64) : DiskCache :=
  { cache with
    lruQueue := popBackWhileOver cache.maxEntries (block :: cache.lruQueue.erase block) }

/-- `flush_block`: a dirty entry is written to the device and marked clean. -/
def DiskCache.flushBlock (cache : DiskCache) (block : UInt64) : DiskCache :=
  match cache.findEntry block with
  | some entry =>
      if entry.dirty then
        { cache with
          device := cache.device.writeBlock entry.block entry.data
          entries := KeyedList.update CacheEntry.block cache.entries block
            fun entry => { entry with dirty := false } }
      else cache
  | none => cache

/-- `evict_lru`: the block at the back of the queue is flushed and dropped from
the entries and the queue. -/
def DiskCache.evictLru (cache : DiskCache) : DiskCache :=
  match cache.lruQueue.getLast? with
  | some block =>
      let cache := cache.flushBlock block
      { cache with
        entries := KeyedList.erase CacheEntry.block cache.entries block
        lruQueue := cache.lruQueue.erase block }
  | none => cache

/-- The body of the `read_blocks` loop for one block: the block's bytes and the
cache after it. -/
def DiskCache.readBlock (cache : DiskCache) (block : UInt64) : List UInt8 × DiskCache :=
  match cache.findEntry block with
  | some entry => (entry.data, cache.updateLru block)
  | none =>
      let data := cache.device.content block
      let cache := if cache.maxEntries ≤ cache.entries.length then cache.evictLru else cache
      let cache := { cache with entries := cache.entries ++ [({ block := block, data := data, dirty := false } : CacheEntry)] }
      (data, cache.updateLru block)

/-- `read_blocks`: the whole blocks of the buffer are filled, and the bytes
after them are left as they were. -/
def DiskCache.readBlocks (cache : DiskCache) (startBlock : UInt64) (buffer : List UInt8) :
    List UInt8 × DiskCache :=
  let blockSize := cache.blockSize
  let numBlocks := buffer.length / blockSize
  let (filled, cache) := (List.range numBlocks).foldl
    (fun (filled, cache) i =>
      let (data, cache) := cache.readBlock (startBlock + UInt64.ofNat i)
      (filled ++ data, cache))
    ([], cache)
  (filled ++ buffer.drop (numBlocks * blockSize), cache)

/-- The body of the `write_blocks` loop for one block. -/
def DiskCache.writeBlock (cache : DiskCache) (block : UInt64) (data : List UInt8) : DiskCache :=
  let cache :=
    match cache.findEntry block with
    | some _ =>
        { cache with
          entries := KeyedList.update CacheEntry.block cache.entries block
            fun entry => { entry with data := data, dirty := true } }
    | none =>
        let cache := if cache.maxEntries ≤ cache.entries.length then cache.evictLru else cache
        { cache with entries := cache.entries ++ [({ block := block, data := data, dirty := true } : CacheEntry)] }
  cache.updateLru block

def DiskCache.writeBlocks (cache : DiskCache) (startBlock : UInt64) (buffer : List UInt8) :
    DiskCache :=
  let blockSize := cache.blockSize
  (List.range (buffer.length / blockSize)).foldl
    (fun cache i =>
      cache.writeBlock (startBlock + UInt64.ofNat i)
        (buffer.extract (i * blockSize) (i * blockSize + blockSize)))
    cache

/-- `flush`: the blocks that are dirty when it starts are flushed in entry
order. -/
def DiskCache.flush (cache : DiskCache) : DiskCache :=
  let blocks := (cache.entries.filter (·.dirty)).map (·.block)
  blocks.foldl DiskCache.flushBlock cache

inductive CacheOp
  | readBlocks (startBlock : UInt64) (buffer : List UInt8)
  | writeBlocks (startBlock : UInt64) (buffer : List UInt8)
  | flush

def DiskCache.step (cache : DiskCache) : CacheOp → DiskCache
  | .readBlocks startBlock buffer => (cache.readBlocks startBlock buffer).2
  | .writeBlocks startBlock buffer => cache.writeBlocks startBlock buffer
  | .flush => cache.flush

/-! ### The bare device -/

/-- Reading the blocks of a buffer straight from the device. -/
def BlockDevice.readBlocks (device : BlockDevice) (startBlock : UInt64) (buffer : List UInt8) :
    List UInt8 :=
  let numBlocks := buffer.length / device.blockSize
  (List.range numBlocks).foldl (fun filled i => filled ++ device.content (startBlock + UInt64.ofNat i)) [] ++
    buffer.drop (numBlocks * device.blockSize)

def BlockDevice.writeBlocks (device : BlockDevice) (startBlock : UInt64) (buffer : List UInt8) :
    BlockDevice :=
  let blockSize := device.blockSize
  (List.range (buffer.length / blockSize)).foldl
    (fun device i =>
      device.writeBlock (startBlock + UInt64.ofNat i)
        (buffer.extract (i * blockSize) (i * blockSize + blockSize)))
    device

def BlockDevice.step (device : BlockDevice) : CacheOp → BlockDevice
  | .readBlocks _ _ => device
  | .writeBlocks startBlock buffer => device.writeBlocks startBlock buffer
  | .flush => device

/-! ### What the cache shows -/

/-- What the cache shows of a block: its entry's data, or the device's. -/
def DiskCache.view (cache : DiskCache) (block : UInt64) : List UInt8 :=
  match cache.findEntry block with
  | some entry => entry.data
  | none => cache.device.content block

def DiskCache.cachedBlocks (cache : DiskCache) : List UInt64 :=
  cache.entries.map CacheEntry.block

/-- One entry per block, at most `max_entries` of them, a queue listing exactly
the cached blocks, and clean entries that agree with the device. -/
structure DiskCache.WellFormed (cache : DiskCache) : Prop where
  positive : 1 ≤ cache.maxEntries
  distinct : cache.cachedBlocks.Nodup
  bounded : cache.entries.length ≤ cache.maxEntries
  queue : cache.lruQueue.Perm cache.cachedBlocks
  cleanSynced : ∀ block entry, cache.findEntry block = some entry → entry.dirty = false →
    cache.device.content block = entry.data

/-- What no operation changes: `max_entries` and the block size. -/
structure DiskCache.SameConfig (after before : DiskCache) : Prop where
  maxEntries : after.maxEntries = before.maxEntries
  blockSize : after.blockSize = before.blockSize

theorem DiskCache.SameConfig.trans {first second third : DiskCache}
    (later : third.SameConfig second) (earlier : second.SameConfig first) :
    third.SameConfig first :=
  ⟨later.maxEntries.trans earlier.maxEntries, later.blockSize.trans earlier.blockSize⟩

theorem popBackWhileOver_of_le {maxEntries : Nat} {queue : List UInt64}
    (within : queue.length ≤ maxEntries) : popBackWhileOver maxEntries queue = queue := by
  rw [popBackWhileOver, if_neg (Nat.not_lt.mpr within)]

@[simp] theorem DiskCache.entries_updateLru (cache : DiskCache) (block : UInt64) :
    (cache.updateLru block).entries = cache.entries := rfl

@[simp] theorem DiskCache.device_updateLru (cache : DiskCache) (block : UInt64) :
    (cache.updateLru block).device = cache.device := rfl

@[simp] theorem DiskCache.maxEntries_updateLru (cache : DiskCache) (block : UInt64) :
    (cache.updateLru block).maxEntries = cache.maxEntries := rfl

theorem DiskCache.updateLru_wellFormed {cache : DiskCache} {block : UInt64}
    (positive : 1 ≤ cache.maxEntries) (distinct : cache.cachedBlocks.Nodup)
    (bounded : cache.entries.length ≤ cache.maxEntries)
    (requeued : (block :: cache.lruQueue.erase block).Perm cache.cachedBlocks)
    (cleanSynced : ∀ block entry, cache.findEntry block = some entry → entry.dirty = false →
      cache.device.content block = entry.data) :
    (cache.updateLru block).WellFormed := by
  have within : (block :: cache.lruQueue.erase block).length ≤ cache.maxEntries := by
    rw [requeued.length_eq, DiskCache.cachedBlocks, List.length_map]
    exact bounded
  refine ⟨positive, distinct, bounded, ?_, cleanSynced⟩
  show (popBackWhileOver cache.maxEntries _).Perm _
  rw [popBackWhileOver_of_le within]
  exact requeued

theorem DiskCache.view_updateLru (cache : DiskCache) (block : UInt64) :
    (cache.updateLru block).view = cache.view := rfl

/-! ### Flushing and evicting -/

theorem clearDirty_block (entry : CacheEntry) :
    ({ entry with dirty := false } : CacheEntry).block = entry.block := rfl

theorem DiskCache.flushBlock_cases (cache : DiskCache) (block : UInt64) :
    (cache.flushBlock block = cache ∧
        ∀ entry, cache.findEntry block = some entry → entry.dirty = false) ∨
      ∃ entry, cache.findEntry block = some entry ∧ entry.dirty = true ∧
        cache.flushBlock block =
          { cache with
            device := cache.device.writeBlock block entry.data
            entries := KeyedList.update CacheEntry.block cache.entries block
              fun entry => { entry with dirty := false } } := by
  unfold DiskCache.flushBlock
  rcases found : cache.findEntry block with _ | entry
  · exact Or.inl ⟨rfl, nofun⟩
  · by_cases dirty : entry.dirty = true
    · refine Or.inr ⟨entry, rfl, dirty, ?_⟩
      dsimp only
      rw [if_pos dirty, (KeyedList.key_of_lookup found).1]
    · refine Or.inl ⟨if_neg dirty, ?_⟩
      rintro _ ⟨⟩
      simpa using dirty

theorem DiskCache.findEntry_flushBlock (cache : DiskCache) (block other : UInt64) :
    (cache.flushBlock block).findEntry other =
      if other = block then (cache.findEntry block).map fun entry => { entry with dirty := false }
      else cache.findEntry other := by
  rcases cache.flushBlock_cases block with ⟨unchanged, clean⟩ | ⟨entry, found, _, flushed⟩
  · rw [unchanged]
    split_ifs with same
    · subst same
      rcases found : cache.findEntry other with _ | entry
      · rfl
      · have := clean entry found
        cases entry
        simp_all
    · rfl
  · rw [flushed]
    exact KeyedList.lookup_update clearDirty_block _ _ _

theorem DiskCache.cachedBlocks_flushBlock (cache : DiskCache) (block : UInt64) :
    (cache.flushBlock block).cachedBlocks = cache.cachedBlocks := by
  rcases cache.flushBlock_cases block with ⟨unchanged, _⟩ | ⟨entry, _, _, flushed⟩
  · rw [unchanged]
  · rw [flushed]
    exact KeyedList.map_key_update clearDirty_block _ _

theorem DiskCache.length_flushBlock (cache : DiskCache) (block : UInt64) :
    (cache.flushBlock block).entries.length = cache.entries.length := by
  have := congrArg List.length (cache.cachedBlocks_flushBlock block)
  simpa [DiskCache.cachedBlocks] using this

@[simp] theorem DiskCache.lruQueue_flushBlock (cache : DiskCache) (block : UInt64) :
    (cache.flushBlock block).lruQueue = cache.lruQueue := by
  rcases cache.flushBlock_cases block with ⟨unchanged, _⟩ | ⟨entry, _, _, flushed⟩
  · rw [unchanged]
  · rw [flushed]

@[simp] theorem DiskCache.maxEntries_flushBlock (cache : DiskCache) (block : UInt64) :
    (cache.flushBlock block).maxEntries = cache.maxEntries := by
  rcases cache.flushBlock_cases block with ⟨unchanged, _⟩ | ⟨entry, _, _, flushed⟩
  · rw [unchanged]
  · rw [flushed]

@[simp] theorem DiskCache.blockSize_flushBlock (cache : DiskCache) (block : UInt64) :
    (cache.flushBlock block).blockSize = cache.blockSize := by
  rcases cache.flushBlock_cases block with ⟨unchanged, _⟩ | ⟨entry, _, _, flushed⟩
  · rw [unchanged]
  · rw [flushed]
    rfl

theorem DiskCache.view_flushBlock (cache : DiskCache) (block : UInt64) :
    (cache.flushBlock block).view = cache.view := by
  rcases cache.flushBlock_cases block with ⟨unchanged, _⟩ | ⟨entry, found, _, flushed⟩
  · rw [unchanged]
  funext other
  unfold DiskCache.findEntry at found
  unfold DiskCache.view DiskCache.findEntry
  rw [flushed]
  dsimp only
  rw [KeyedList.lookup_update clearDirty_block]
  by_cases same : other = block
  · subst same
    rw [if_pos rfl, found]
    rfl
  · rw [if_neg same]
    cases KeyedList.lookup CacheEntry.block cache.entries other with
    | some _ => rfl
    | none => exact Function.update_of_ne same _ _

theorem DiskCache.cleanSynced_flushBlock {cache : DiskCache} (block : UInt64)
    (synced : ∀ block entry, cache.findEntry block = some entry → entry.dirty = false →
      cache.device.content block = entry.data) :
    ∀ other entry, (cache.flushBlock block).findEntry other = some entry →
      entry.dirty = false → (cache.flushBlock block).device.content other = entry.data := by
  rcases cache.flushBlock_cases block with ⟨unchanged, _⟩ | ⟨flushed, found, _, flushedEq⟩
  · rw [unchanged]
    exact synced
  intro other entry foundAfter _
  rw [DiskCache.findEntry_flushBlock] at foundAfter
  rw [flushedEq]
  by_cases same : other = block
  · subst same
    rw [if_pos rfl, found, Option.map_some, Option.some.injEq] at foundAfter
    subst foundAfter
    exact Function.update_self _ _ _
  · rw [if_neg same] at foundAfter
    exact (Function.update_of_ne same _ _).trans (synced other entry foundAfter ‹_›)

theorem DiskCache.clean_flushBlock (cache : DiskCache) (block : UInt64) (entry : CacheEntry)
    (found : (cache.flushBlock block).findEntry block = some entry) : entry.dirty = false := by
  rw [DiskCache.findEntry_flushBlock, if_pos rfl] at found
  obtain ⟨old, _, rfl⟩ := Option.map_eq_some_iff.mp found
  rfl

theorem DiskCache.WellFormed.flushBlock {cache : DiskCache} (wellFormed : cache.WellFormed)
    (block : UInt64) : (cache.flushBlock block).WellFormed where
  positive := by simpa using wellFormed.positive
  distinct := by
    rw [DiskCache.cachedBlocks_flushBlock]
    exact wellFormed.distinct
  bounded := by
    rw [DiskCache.length_flushBlock, DiskCache.maxEntries_flushBlock]
    exact wellFormed.bounded
  queue := by
    rw [DiskCache.lruQueue_flushBlock, DiskCache.cachedBlocks_flushBlock]
    exact wellFormed.queue
  cleanSynced := DiskCache.cleanSynced_flushBlock block wellFormed.cleanSynced

theorem DiskCache.evictLru_of_getLast {cache : DiskCache} {victim : UInt64}
    (last : cache.lruQueue.getLast? = some victim) :
    cache.evictLru =
      { cache.flushBlock victim with
        entries := KeyedList.erase CacheEntry.block (cache.flushBlock victim).entries victim
        lruQueue := cache.lruQueue.erase victim } := by
  unfold DiskCache.evictLru
  rw [last]
  dsimp only
  rw [DiskCache.lruQueue_flushBlock]

theorem DiskCache.sameConfig_evictLru (cache : DiskCache) : cache.evictLru.SameConfig cache := by
  unfold DiskCache.evictLru
  split
  · exact ⟨cache.maxEntries_flushBlock _, cache.blockSize_flushBlock _⟩
  · exact ⟨rfl, rfl⟩

theorem DiskCache.WellFormed.evictLru {cache : DiskCache} (wellFormed : cache.WellFormed) :
    cache.evictLru.WellFormed ∧ cache.evictLru.view = cache.view ∧
      (∀ block, block ∈ cache.evictLru.cachedBlocks → block ∈ cache.cachedBlocks) ∧
      (cache.entries ≠ [] → cache.evictLru.entries.length + 1 = cache.entries.length) := by
  rcases last : cache.lruQueue.getLast? with _ | victim
  · have emptyQueue := List.getLast?_eq_none_iff.mp last
    have noEntries : cache.entries = [] := by
      have := wellFormed.queue.length_eq
      rw [emptyQueue, DiskCache.cachedBlocks, List.length_map] at this
      exact List.eq_nil_of_length_eq_zero this.symm
    have unchanged : cache.evictLru = cache := by
      unfold DiskCache.evictLru
      rw [last]
    rw [unchanged]
    exact ⟨wellFormed, rfl, fun _ => id, fun nonempty => absurd noEntries nonempty⟩
  have flushed := wellFormed.flushBlock victim
  have victimCached : victim ∈ cache.cachedBlocks :=
    wellFormed.queue.subset (List.mem_of_getLast? last)
  -- The victim's entry is clean once flushed, so the device shows its data.
  obtain ⟨entry, found⟩ : ∃ entry, (cache.flushBlock victim).findEntry victim = some entry := by
    apply Option.isSome_iff_exists.mp
    unfold DiskCache.findEntry
    rw [KeyedList.lookup_isSome_iff]
    show victim ∈ (cache.flushBlock victim).cachedBlocks
    rw [DiskCache.cachedBlocks_flushBlock]
    exact victimCached
  have shown := flushed.cleanSynced victim entry found
    (cache.clean_flushBlock victim entry found)
  have keys : (cache.evictLru).cachedBlocks = cache.cachedBlocks.erase victim := by
    rw [DiskCache.evictLru_of_getLast last]
    exact (KeyedList.map_key_erase _ _).trans
      (congrArg (List.erase · victim) (cache.cachedBlocks_flushBlock victim))
  have findAfter : ∀ block, (cache.evictLru).findEntry block =
      if block = victim then none else (cache.flushBlock victim).findEntry block := by
    intro block
    rw [DiskCache.evictLru_of_getLast last]
    exact KeyedList.lookup_erase flushed.distinct victim block
  refine ⟨⟨?_, ?_, ?_, ?_, ?_⟩, ?_, ?_, ?_⟩
  · rw [DiskCache.evictLru_of_getLast last]
    exact flushed.positive
  · rw [keys]
    exact wellFormed.distinct.erase victim
  · have shorter := congrArg List.length keys
    have fewer : (cache.cachedBlocks.erase victim).length ≤ cache.cachedBlocks.length :=
      List.length_erase_le
    simp only [DiskCache.cachedBlocks, List.length_map] at shorter fewer
    rw [shorter, cache.sameConfig_evictLru.maxEntries]
    exact Nat.le_trans fewer wellFormed.bounded
  · rw [keys, DiskCache.evictLru_of_getLast last]
    exact wellFormed.queue.erase victim
  · intro block cached foundAfter clean
    rw [findAfter] at foundAfter
    split_ifs at foundAfter
    rw [DiskCache.evictLru_of_getLast last]
    exact flushed.cleanSynced block cached foundAfter clean
  · funext block
    rw [← cache.view_flushBlock victim]
    unfold DiskCache.view
    rw [findAfter]
    split_ifs with same
    · subst same
      rw [found, DiskCache.evictLru_of_getLast last]
      exact shown
    · rw [DiskCache.evictLru_of_getLast last]
  · intro block member
    rw [keys] at member
    exact List.mem_of_mem_erase member
  · intro _
    have := congrArg List.length keys
    rw [List.length_erase_of_mem victimCached] at this
    simp only [DiskCache.cachedBlocks, List.length_map] at this
    have positive := List.length_pos_of_mem victimCached
    simp only [DiskCache.cachedBlocks, List.length_map] at positive
    omega

/-! ### Reading and writing one block -/

theorem DiskCache.view_of_not_cached {cache : DiskCache} {block : UInt64}
    (uncached : block ∉ cache.cachedBlocks) : cache.view block = cache.device.content block := by
  unfold DiskCache.view DiskCache.findEntry
  rw [(KeyedList.lookup_eq_none_iff _ _).mpr uncached]

theorem DiskCache.WellFormed.requeue {cache : DiskCache} (wellFormed : cache.WellFormed)
    {block : UInt64} (cached : block ∈ cache.cachedBlocks) :
    (block :: cache.lruQueue.erase block).Perm cache.cachedBlocks :=
  (List.perm_cons_erase (wellFormed.queue.symm.subset cached)).symm.trans wellFormed.queue

theorem DiskCache.WellFormed.makeRoom {cache : DiskCache} (wellFormed : cache.WellFormed) :
    let roomy : DiskCache :=
      if cache.maxEntries ≤ cache.entries.length then cache.evictLru else cache
    roomy.WellFormed ∧ roomy.view = cache.view ∧ roomy.SameConfig cache ∧
      roomy.entries.length < roomy.maxEntries ∧
      ∀ block, block ∈ roomy.cachedBlocks → block ∈ cache.cachedBlocks := by
  intro roomy
  by_cases full : cache.maxEntries ≤ cache.entries.length
  · obtain ⟨evicted, sameView, fewer, shorter⟩ := wellFormed.evictLru
    have nonempty : cache.entries ≠ [] := by
      intro empty
      have := wellFormed.positive
      rw [empty, List.length_nil] at full
      omega
    have roomyEq : roomy = cache.evictLru := if_pos full
    rw [roomyEq]
    refine ⟨evicted, sameView, cache.sameConfig_evictLru, ?_, fewer⟩
    have := cache.sameConfig_evictLru.maxEntries
    have := shorter nonempty
    have := wellFormed.bounded
    omega
  · have roomyEq : roomy = cache := if_neg full
    rw [roomyEq]
    exact ⟨wellFormed, rfl, ⟨rfl, rfl⟩, Nat.lt_of_not_le full, fun _ => id⟩

theorem DiskCache.WellFormed.insertEntry {cache : DiskCache} (wellFormed : cache.WellFormed)
    (room : cache.entries.length < cache.maxEntries) {block : UInt64}
    (fresh : block ∉ cache.cachedBlocks) (data : List UInt8) (dirty : Bool)
    (synced : dirty = false → cache.device.content block = data) :
    let inserted : DiskCache :=
      ({ cache with
          entries := cache.entries ++ [({ block := block, data := data, dirty := dirty } : CacheEntry)] }).updateLru block
    inserted.WellFormed ∧ inserted.view = Function.update cache.view block data := by
  intro inserted
  have keys : inserted.cachedBlocks = cache.cachedBlocks ++ [block] := by
    simp [inserted, DiskCache.cachedBlocks]
  have findAfter : ∀ other, inserted.findEntry other =
      if other = block then some { block := block, data := data, dirty := dirty }
      else cache.findEntry other := by
    intro other
    show KeyedList.lookup _ (cache.entries ++ _) other = _
    rw [KeyedList.lookup_append]
    split_ifs with same
    · subst same
      have absent := (KeyedList.lookup_eq_none_iff cache.entries other).mpr fresh
      rw [absent]
      simp [KeyedList.lookup]
    · simp [KeyedList.lookup, Ne.symm same]
      rfl
  have notQueued : block ∉ cache.lruQueue := fun queued => fresh (wellFormed.queue.subset queued)
  refine ⟨DiskCache.updateLru_wellFormed wellFormed.positive ?_ ?_ ?_ ?_, ?_⟩
  · simp only [DiskCache.cachedBlocks, List.map_append, List.map_cons, List.map_nil]
    rw [← List.concat_eq_append]
    exact wellFormed.distinct.concat fresh
  · simp only [List.length_append, List.length_singleton]
    omega
  · simp only [DiskCache.cachedBlocks, List.map_append, List.map_cons, List.map_nil]
    rw [List.erase_of_not_mem notQueued]
    exact (wellFormed.queue.cons block).trans (List.perm_append_singleton block _).symm
  · intro other entry found clean
    change inserted.findEntry other = some entry at found
    rw [findAfter] at found
    split_ifs at found with same
    · cases found
      exact same ▸ synced clean
    · exact wellFormed.cleanSynced other entry found clean
  · funext other
    unfold DiskCache.view
    rw [findAfter]
    by_cases same : other = block
    · subst same
      simp
    · rw [if_neg same, Function.update_of_ne same]
      rfl

theorem DiskCache.WellFormed.insertMissing {cache : DiskCache} (wellFormed : cache.WellFormed)
    {block : UInt64} (uncached : block ∉ cache.cachedBlocks) (data : List UInt8) (dirty : Bool)
    (synced : dirty = false → cache.device.content block = data) :
    let spare : DiskCache :=
      if cache.maxEntries ≤ cache.entries.length then cache.evictLru else cache
    let inserted : DiskCache :=
      ({ spare with
          entries := spare.entries ++ [({ block := block, data := data, dirty := dirty } : CacheEntry)] }).updateLru block
    inserted.WellFormed ∧ inserted.view = Function.update cache.view block data ∧
      inserted.SameConfig cache := by
  intro spare inserted
  obtain ⟨roomy, sameView, config, room, fewer⟩ := wellFormed.makeRoom
  have fresh : block ∉ spare.cachedBlocks := fun cached => uncached (fewer block cached)
  -- the block is cached in neither state, so both views show the device's content
  have spareSynced : dirty = false → spare.device.content block = data := by
    intro clean
    rw [← DiskCache.view_of_not_cached fresh, sameView, DiskCache.view_of_not_cached uncached]
    exact synced clean
  obtain ⟨insertedWellFormed, shown⟩ := roomy.insertEntry room fresh data dirty spareSynced
  exact ⟨insertedWellFormed, sameView ▸ shown, ⟨config.maxEntries, config.blockSize⟩⟩

theorem DiskCache.WellFormed.readBlock {cache : DiskCache} (wellFormed : cache.WellFormed)
    (block : UInt64) :
    (cache.readBlock block).2.WellFormed ∧ (cache.readBlock block).2.view = cache.view ∧
      (cache.readBlock block).1 = cache.view block ∧
      (cache.readBlock block).2.SameConfig cache := by
  rcases found : cache.findEntry block with _ | entry
  · -- A miss: the device's block becomes a clean entry, after an eviction if full.
    have uncached : block ∉ cache.cachedBlocks :=
      (KeyedList.lookup_eq_none_iff _ _).mp found
    obtain ⟨inserted, shown, config⟩ :=
      wellFormed.insertMissing uncached (cache.device.content block) false (fun _ => rfl)
    unfold DiskCache.readBlock
    rw [found]
    refine ⟨inserted, ?_, (DiskCache.view_of_not_cached uncached).symm, config⟩
    rw [shown, ← DiskCache.view_of_not_cached uncached]
    exact Function.update_eq_self block cache.view
  · -- A hit: only the queue changes.
    have cached : block ∈ cache.cachedBlocks := by
      obtain ⟨sameBlock, member⟩ := KeyedList.key_of_lookup found
      exact sameBlock ▸ List.mem_map_of_mem member
    unfold DiskCache.readBlock
    rw [found]
    refine ⟨DiskCache.updateLru_wellFormed wellFormed.positive wellFormed.distinct
      wellFormed.bounded (wellFormed.requeue cached) wellFormed.cleanSynced, rfl, ?_, ⟨rfl, rfl⟩⟩
    unfold DiskCache.view
    rw [found]

theorem DiskCache.WellFormed.writeBlock {cache : DiskCache} (wellFormed : cache.WellFormed)
    (block : UInt64) (data : List UInt8) :
    (cache.writeBlock block data).WellFormed ∧
      (cache.writeBlock block data).view = Function.update cache.view block data ∧
      (cache.writeBlock block data).SameConfig cache := by
  rcases found : cache.findEntry block with _ | entry
  · -- A miss: a dirty entry is added, after an eviction if full.
    have uncached : block ∉ cache.cachedBlocks :=
      (KeyedList.lookup_eq_none_iff _ _).mp found
    unfold DiskCache.writeBlock
    rw [found]
    exact wellFormed.insertMissing uncached data true (fun dirty => by cases dirty)
  · -- A hit: the entry takes the data and becomes dirty.
    have cached : block ∈ cache.cachedBlocks := by
      obtain ⟨sameBlock, member⟩ := KeyedList.key_of_lookup found
      exact sameBlock ▸ List.mem_map_of_mem member
    let overwrite : CacheEntry → CacheEntry := fun entry => { entry with data := data, dirty := true }
    have sameKey : ∀ entry, (overwrite entry).block = entry.block := fun _ => rfl
    let updated : DiskCache :=
      { cache with entries := KeyedList.update CacheEntry.block cache.entries block overwrite }
    have keys : updated.cachedBlocks = cache.cachedBlocks := KeyedList.map_key_update sameKey _ _
    have findAfter : ∀ other, updated.findEntry other =
        if other = block then some (overwrite entry) else cache.findEntry other := by
      intro other
      show KeyedList.lookup _ (KeyedList.update _ _ _ _) _ = _
      rw [KeyedList.lookup_update sameKey]
      split_ifs
      · show (cache.findEntry block).map overwrite = _
        rw [found]
        rfl
      · rfl
    have written : cache.writeBlock block data = updated.updateLru block := by
      unfold DiskCache.writeBlock
      rw [found]
    have sameLength : updated.entries.length = cache.entries.length := by
      have := congrArg List.length keys
      simpa only [DiskCache.cachedBlocks, List.length_map] using this
    rw [written]
    refine ⟨DiskCache.updateLru_wellFormed wellFormed.positive (keys ▸ wellFormed.distinct)
      (sameLength ▸ wellFormed.bounded) (keys ▸ wellFormed.requeue cached) ?_, ?_, ⟨rfl, rfl⟩⟩
    · intro other entry foundAfter clean
      rw [findAfter] at foundAfter
      split_ifs at foundAfter
      · cases foundAfter
        cases clean
      · exact wellFormed.cleanSynced other entry foundAfter clean
    · funext other
      rw [DiskCache.view_updateLru]
      unfold DiskCache.view
      rw [findAfter]
      by_cases same : other = block
      · subst same
        simp [overwrite]
      · rw [if_neg same, Function.update_of_ne same]

/-! ### The loops of `read_blocks`, `write_blocks` and `flush` -/

theorem DiskCache.WellFormed.readBlockRange {cache : DiskCache} (wellFormed : cache.WellFormed)
    (startBlock : UInt64) (indices : List Nat) (filled : List UInt8) :
    let result := indices.foldl
      (fun (filled, cache) i =>
        let (data, cache) := cache.readBlock (startBlock + UInt64.ofNat i)
        (filled ++ data, cache))
      (filled, cache)
    result.2.WellFormed ∧ result.2.view = cache.view ∧ result.2.SameConfig cache ∧
      result.1 = indices.foldl (fun filled i => filled ++ cache.view (startBlock + UInt64.ofNat i))
        filled := by
  induction indices generalizing cache filled with
  | nil => exact ⟨wellFormed, rfl, ⟨rfl, rfl⟩, rfl⟩
  | cons i indices ih =>
      obtain ⟨read, sameView, shown, config⟩ := wellFormed.readBlock (startBlock + UInt64.ofNat i)
      obtain ⟨after, afterView, afterConfig, output⟩ :=
        ih read (filled ++ (cache.readBlock (startBlock + UInt64.ofNat i)).1)
      refine ⟨after, afterView.trans sameView, afterConfig.trans config, ?_⟩
      simp only [List.foldl_cons]
      rw [← shown, ← sameView]
      exact output

theorem DiskCache.WellFormed.writeBlockRange {cache : DiskCache} (wellFormed : cache.WellFormed)
    (startBlock : UInt64) (chunk : Nat → List UInt8) (indices : List Nat) :
    let written := indices.foldl
      (fun cache i => cache.writeBlock (startBlock + UInt64.ofNat i) (chunk i)) cache
    written.WellFormed ∧ written.SameConfig cache ∧
      written.view = indices.foldl
        (fun content i => Function.update content (startBlock + UInt64.ofNat i) (chunk i))
        cache.view := by
  induction indices generalizing cache with
  | nil => exact ⟨wellFormed, ⟨rfl, rfl⟩, rfl⟩
  | cons i indices ih =>
      obtain ⟨written, shown, config⟩ := wellFormed.writeBlock (startBlock + UInt64.ofNat i) (chunk i)
      obtain ⟨after, afterConfig, afterView⟩ := ih written
      exact ⟨after, afterConfig.trans config, afterView.trans (by rw [shown]; rfl)⟩

theorem BlockDevice.writeBlockRange (device : BlockDevice) (startBlock : UInt64)
    (chunk : Nat → List UInt8) (indices : List Nat) :
    let written := indices.foldl
      (fun device i => device.writeBlock (startBlock + UInt64.ofNat i) (chunk i)) device
    written.blockSize = device.blockSize ∧
      written.content = indices.foldl
        (fun content i => Function.update content (startBlock + UInt64.ofNat i) (chunk i))
        device.content := by
  induction indices generalizing device with
  | nil => exact ⟨rfl, rfl⟩
  | cons i indices ih => exact ih _

theorem DiskCache.WellFormed.flushBlocks {cache : DiskCache} (wellFormed : cache.WellFormed)
    (blocks : List UInt64) :
    let flushed := blocks.foldl DiskCache.flushBlock cache
    flushed.WellFormed ∧ flushed.view = cache.view ∧ flushed.SameConfig cache ∧
      ∀ block entry, flushed.findEntry block = some entry → entry.dirty = true →
        block ∉ blocks ∧ ∃ old, cache.findEntry block = some old ∧ old.dirty = true := by
  induction blocks generalizing cache with
  | nil => exact ⟨wellFormed, rfl, ⟨rfl, rfl⟩, fun block entry found dirty => ⟨nofun, entry, found, dirty⟩⟩
  | cons first blocks ih =>
      obtain ⟨after, afterView, afterConfig, stillDirty⟩ := ih (wellFormed.flushBlock first)
      refine ⟨after, afterView.trans (cache.view_flushBlock first),
        afterConfig.trans ⟨cache.maxEntries_flushBlock first, cache.blockSize_flushBlock first⟩, ?_⟩
      intro block entry found dirty
      obtain ⟨later, old, foundBefore, oldDirty⟩ := stillDirty block entry found dirty
      -- The entry of the block flushed first is clean from then on.
      have notFirst : block ≠ first := by
        rintro rfl
        rw [cache.clean_flushBlock block old foundBefore] at oldDirty
        cases oldDirty
      rw [DiskCache.findEntry_flushBlock, if_neg notFirst] at foundBefore
      exact ⟨List.not_mem_cons_of_ne_of_not_mem notFirst later, old, foundBefore, oldDirty⟩

theorem DiskCache.WellFormed.flush {cache : DiskCache} (wellFormed : cache.WellFormed) :
    cache.flush.WellFormed ∧ cache.flush.view = cache.view ∧
      cache.flush.SameConfig cache ∧ cache.flush.device.content = cache.view := by
  let blocks := (cache.entries.filter (·.dirty)).map (·.block)
  obtain ⟨flushed, sameView, config, stillDirty⟩ := wellFormed.flushBlocks blocks
  refine ⟨flushed, sameView, config, ?_⟩
  rw [← sameView]
  funext block
  change (blocks.foldl DiskCache.flushBlock cache).device.content block =
    (blocks.foldl DiskCache.flushBlock cache).view block
  unfold DiskCache.view
  rcases found : (blocks.foldl DiskCache.flushBlock cache).findEntry block with _ | entry
  · rfl
  · apply flushed.cleanSynced block entry found
    by_contra dirty
    obtain ⟨unlisted, old, foundBefore, oldDirty⟩ :=
      stillDirty block entry found (Bool.not_eq_false _ ▸ dirty)
    obtain ⟨sameBlock, member⟩ := KeyedList.key_of_lookup foundBefore
    exact unlisted (List.mem_map.mpr ⟨old, List.mem_filter.mpr ⟨member, oldDirty⟩, sameBlock⟩)

/-! ### The cache refines the bare device -/

/-- The cache stands for the bare device `bare`: it is well formed, has the
same block size, and shows the device's content. -/
structure DiskCache.Refines (cache : DiskCache) (bare : BlockDevice) : Prop where
  wellFormed : cache.WellFormed
  blockSize : cache.blockSize = bare.blockSize
  view : cache.view = bare.content

theorem DiskCache.refines_new (device : BlockDevice) {maxEntries : Nat}
    (atLeastOne : 1 ≤ maxEntries) : (DiskCache.new device maxEntries).Refines device where
  wellFormed := ⟨atLeastOne, List.nodup_nil, Nat.zero_le _, List.Perm.refl _, nofun⟩
  blockSize := rfl
  view := rfl

theorem DiskCache.Refines.readBlocks {cache : DiskCache} {bare : BlockDevice}
    (refines : cache.Refines bare) (startBlock : UInt64) (buffer : List UInt8) :
    (cache.readBlocks startBlock buffer).1 = bare.readBlocks startBlock buffer ∧
      (cache.readBlocks startBlock buffer).2.Refines bare ∧
      (cache.readBlocks startBlock buffer).2.SameConfig cache := by
  obtain ⟨read, sameView, config, output⟩ := refines.wellFormed.readBlockRange startBlock
    (List.range (buffer.length / cache.blockSize)) []
  unfold DiskCache.readBlocks BlockDevice.readBlocks
  rw [← refines.blockSize, ← refines.view]
  dsimp only
  rw [← output]
  exact ⟨rfl, ⟨read, config.blockSize.trans refines.blockSize, sameView.trans refines.view⟩, config⟩

theorem DiskCache.Refines.writeBlocks {cache : DiskCache} {bare : BlockDevice}
    (refines : cache.Refines bare) (startBlock : UInt64) (buffer : List UInt8) :
    (cache.writeBlocks startBlock buffer).Refines (bare.writeBlocks startBlock buffer) ∧
      (cache.writeBlocks startBlock buffer).SameConfig cache := by
  -- Both loops cut the buffer with the same block size, so they write the same chunks.
  let chunk := fun i => buffer.extract (i * cache.blockSize) (i * cache.blockSize + cache.blockSize)
  let indices := List.range (buffer.length / cache.blockSize)
  obtain ⟨written, config, cacheView⟩ := refines.wellFormed.writeBlockRange startBlock chunk indices
  obtain ⟨bareSize, bareContent⟩ := bare.writeBlockRange startBlock chunk indices
  unfold DiskCache.writeBlocks BlockDevice.writeBlocks
  rw [← refines.blockSize]
  refine ⟨⟨written, ?_, ?_⟩, config⟩
  · exact config.blockSize.trans (refines.blockSize.trans bareSize.symm)
  · exact cacheView.trans (refines.view ▸ bareContent.symm)

theorem DiskCache.Refines.flush {cache : DiskCache} {bare : BlockDevice}
    (refines : cache.Refines bare) :
    cache.flush.Refines bare ∧ cache.flush.SameConfig cache ∧
      cache.flush.device.content = bare.content := by
  obtain ⟨flushed, sameView, config, synced⟩ := refines.wellFormed.flush
  exact ⟨⟨flushed, config.blockSize.trans refines.blockSize, sameView.trans refines.view⟩, config,
    synced.trans refines.view⟩

theorem DiskCache.refines_step (maxEntries : Nat) :
    Simulation DiskCache.step BlockDevice.step
      (fun cache bare => cache.Refines bare ∧ cache.maxEntries = maxEntries) := by
  rintro cache bare op ⟨refines, sameMax⟩
  cases op with
  | readBlocks startBlock buffer =>
      obtain ⟨_, after, config⟩ := refines.readBlocks startBlock buffer
      exact ⟨after, config.maxEntries.trans sameMax⟩
  | writeBlocks startBlock buffer =>
      obtain ⟨after, config⟩ := refines.writeBlocks startBlock buffer
      exact ⟨after, config.maxEntries.trans sameMax⟩
  | flush =>
      obtain ⟨after, config, _⟩ := refines.flush
      exact ⟨after, config.maxEntries.trans sameMax⟩

/-- The cache is observationally the bare device: after any run, reading
returns what the device alone would hold, and flushing writes exactly that
content back; all along, one entry per block, at most `max_entries` of them,
and the queue lists the cached blocks. -/
theorem diskCache_refines_device (device : BlockDevice) (maxEntries : Nat)
    (atLeastOne : 1 ≤ maxEntries) (ops : List CacheOp) :
    let cache : DiskCache := run DiskCache.step (DiskCache.new device maxEntries) ops
    let bare : BlockDevice := run BlockDevice.step device ops
    (∀ startBlock buffer,
        (cache.readBlocks startBlock buffer).1 = bare.readBlocks startBlock buffer) ∧
      cache.flush.device.content = bare.content ∧
      cache.cachedBlocks.Nodup ∧ cache.entries.length ≤ maxEntries ∧
      cache.lruQueue.Perm cache.cachedBlocks := by
  intro cache bare
  obtain ⟨refines, sameMax⟩ := (DiskCache.refines_step maxEntries).run
    ⟨DiskCache.refines_new device atLeastOne, rfl⟩ ops
  refine ⟨fun startBlock buffer => (refines.readBlocks startBlock buffer).1,
    refines.flush.2.2, refines.wellFormed.distinct, ?_, refines.wellFormed.queue⟩
  exact sameMax ▸ refines.wellFormed.bounded

theorem diskCache_refines_device_evicting :
    let device : BlockDevice := ⟨1, fun _ => [0]⟩
    let ops : List CacheOp := [.writeBlocks 0 [7, 8, 9], .readBlocks 5 [0, 0]]
    1 ≤ 2 ∧
      ((run DiskCache.step (DiskCache.new device 2) ops).readBlocks 0 [0, 0, 0]).1 =
        (run BlockDevice.step device ops).readBlocks 0 [0, 0, 0] ∧
      (run DiskCache.step (DiskCache.new device 2) ops).flush.device.content =
        (run BlockDevice.step device ops).content :=
  ⟨by decide, (diskCache_refines_device _ 2 (by decide) _).1 0 [0, 0, 0],
    (diskCache_refines_device _ 2 (by decide) _).2.1⟩

/-- A write that overflows a two-entry cache writes its oldest dirty block
back on eviction. -/
example : ((DiskCache.new ⟨1, fun _ => [0]⟩ 2).writeBlocks 0 [7, 8, 9]).device.content 0 = [7] := by
  decide +kernel

end FangaOS.Cache
