import Mathlib

/-! The File Allocation Table of `storage/fat32/fat_table.rs`, over data clusters
`2` to `total_clusters + 1`.  Entries and cluster numbers are `u32` and the
vector is a list. -/

namespace FangaOS.Fat

def fatFree : UInt32 := 0x00000000

def fatBadCluster : UInt32 := 0x0FFFFFF7

def fatEocMin : UInt32 := 0x0FFFFFF8

def fatEoc : UInt32 := 0x0FFFFFFF

/-- `Fat32BootSector`, with the fields that `total_clusters` reads. -/
structure Fat32BootSector where
  sectorsPerCluster : UInt8
  reservedSectors : UInt16
  numFats : UInt8
  totalSectors32 : UInt32
  sectorsPerFat32 : UInt32
  deriving DecidableEq, Repr

def Fat32BootSector.fatStartSector (bootSector : Fat32BootSector) : UInt32 :=
  bootSector.reservedSectors.toUInt32

def Fat32BootSector.dataStartSector (bootSector : Fat32BootSector) : UInt32 :=
  bootSector.fatStartSector + bootSector.numFats.toUInt32 * bootSector.sectorsPerFat32

/-- `total_clusters`; `none` is the panic of a division by zero sectors per
cluster. -/
def Fat32BootSector.totalClusters (bootSector : Fat32BootSector) : Option UInt32 :=
  let dataStart := bootSector.dataStartSector
  if bootSector.totalSectors32 ≤ dataStart then some 0
  else
    let dataSectors := bootSector.totalSectors32 - dataStart
    if bootSector.sectorsPerCluster = 0 then none
    else some (dataSectors / bootSector.sectorsPerCluster.toUInt32)

structure FatTable where
  entries : List UInt32
  totalClusters : UInt32
  deriving DecidableEq, Repr

def FatTable.new (bootSector : Fat32BootSector) : Option FatTable :=
  bootSector.totalClusters.map fun totalClusters => ⟨[], totalClusters⟩

def FatTable.getNextCluster (fat : FatTable) (cluster : UInt32) : Option UInt32 :=
  if cluster.toNat ≥ fat.entries.length then none
  else
    let next := fat.entries.getD cluster.toNat 0 &&& 0x0FFFFFFF
    if next = fatFree then none
    else if next ≥ fatEocMin then none
    else if next = fatBadCluster then none
    else some next

def FatTable.setNextCluster (fat : FatTable) (cluster next : UInt32) : Except String FatTable :=
  if cluster.toNat ≥ fat.entries.length then .error "Cluster out of range"
  else .ok { fat with entries := fat.entries.set cluster.toNat (next &&& 0x0FFFFFFF) }

def FatTable.freeCluster (fat : FatTable) (cluster : UInt32) : Except String FatTable :=
  fat.setNextCluster cluster fatFree

def FatTable.markEoc (fat : FatTable) (cluster : UInt32) : Except String FatTable :=
  fat.setNextCluster cluster fatEoc

/-- The loop of `find_free_cluster` from index `index` on. -/
def findFreeFrom (index : Nat) : List UInt32 → Option Nat
  | [] => none
  | entry :: rest =>
      if index ≥ 2 ∧ entry &&& 0x0FFFFFFF = fatFree then some index
      else findFreeFrom (index + 1) rest

def FatTable.findFreeCluster (fat : FatTable) : Option UInt32 :=
  (findFreeFrom 0 fat.entries).map Nat.toUInt32

/-- `allocate_cluster`, with the table after the call; the result of
`mark_eoc` is dropped. -/
def FatTable.allocateCluster (fat : FatTable) : Option UInt32 × FatTable :=
  match fat.findFreeCluster with
  | some cluster =>
      match fat.markEoc cluster with
      | .ok marked => (some cluster, marked)
      | .error _ => (some cluster, fat)
  | none => (none, fat)

/-- The `while let` loop of `get_chain`, which breaks once the chain is longer
than `total_clusters`. -/
def FatTable.chainLoop (fat : FatTable) (chain : List UInt32) (current : UInt32) :
    List UInt32 × UInt32 :=
  match fat.getNextCluster current with
  | none => (chain, current)
  | some next =>
      if (chain ++ [current]).length > fat.totalClusters.toNat then (chain ++ [current], current)
      else fat.chainLoop (chain ++ [current]) next
termination_by fat.totalClusters.toNat + 1 - chain.length
decreasing_by
  simp only [List.length_append, List.length_singleton] at *
  omega

def FatTable.getChain (fat : FatTable) (startCluster : UInt32) : List UInt32 :=
  let (chain, current) := fat.chainLoop [] startCluster
  -- the last cluster, which ended the loop
  if current ≥ 2 ∧ current < fat.totalClusters then chain ++ [current] else chain

/-- `free_chain`: the clusters of the chain freed in order, stopping at the
first error. -/
def FatTable.freeChain (fat : FatTable) (startCluster : UInt32) : Except String FatTable :=
  (fat.getChain startCluster).foldlM FatTable.freeCluster fat

/-! ### One step of the chain loop -/

section Loop

variable {fat : FatTable} {chain : List UInt32} {current : UInt32}

theorem FatTable.chainLoop_of_none (ended : fat.getNextCluster current = none) :
    fat.chainLoop chain current = (chain, current) := by
  rw [chainLoop, ended]

theorem FatTable.chainLoop_of_some {next : UInt32} (linked : fat.getNextCluster current = some next) :
    fat.chainLoop chain current =
      if (chain ++ [current]).length > fat.totalClusters.toNat then (chain ++ [current], current)
      else fat.chainLoop (chain ++ [current]) next := by
  rw [chainLoop, linked]

theorem FatTable.length_chainLoop_le (fat : FatTable) (chain : List UInt32) (current : UInt32)
    (room : chain.length ≤ fat.totalClusters.toNat) :
    (fat.chainLoop chain current).1.length ≤ fat.totalClusters.toNat + 1 := by
  induction chain, current using FatTable.chainLoop.induct fat with
  | case1 chain current ended =>
      rw [chainLoop_of_none ended]
      exact Nat.le_succ_of_le room
  | case2 chain current next linked longer =>
      rw [chainLoop_of_some linked, if_pos longer, List.length_append, List.length_singleton]
      omega
  | case3 chain current next linked notLonger ih =>
      rw [chainLoop_of_some linked, if_neg notLonger]
      exact ih (by omega)

end Loop

theorem FatTable.length_getChain_le (fat : FatTable) (startCluster : UInt32) :
    (fat.getChain startCluster).length ≤ fat.totalClusters.toNat + 2 := by
  have loop := fat.length_chainLoop_le [] startCluster (Nat.zero_le _)
  unfold getChain
  rcases ended : fat.chainLoop [] startCluster with ⟨chain, current⟩
  rw [ended] at loop
  dsimp only at loop ⊢
  split_ifs
  · rw [List.length_append, List.length_singleton]
    omega
  · omega

/-! ### Well-formed chains -/

/-- The entry of a cluster, without its reserved upper four bits. -/
def FatTable.entry (fat : FatTable) (cluster : UInt32) : UInt32 :=
  fat.entries.getD cluster.toNat 0 &&& 0x0FFFFFFF

/-- `clusters` is a chain of the table: each cluster has an entry, each entry
but the last names the next cluster, and the last marks the end of the chain. -/
def FatTable.Links (fat : FatTable) : List UInt32 → Prop
  | [] => False
  | [last] => last.toNat < fat.entries.length ∧ fatEocMin ≤ fat.entry last
  | cluster :: next :: rest =>
      cluster.toNat < fat.entries.length ∧ fat.entry cluster = next ∧ fat.Links (next :: rest)

theorem FatTable.Links.present {fat : FatTable} :
    ∀ {clusters : List UInt32}, fat.Links clusters →
      ∀ cluster ∈ clusters, cluster.toNat < fat.entries.length
  | [], links => links.elim
  | [_], ⟨present, _⟩ => fun cluster member => by
      rw [List.mem_singleton.mp member]
      exact present
  | _ :: _ :: _, ⟨present, _, links⟩ => fun other member => by
      rcases List.mem_cons.mp member with rfl | later
      · exact present
      · exact Links.present links other later

theorem FatTable.getNextCluster_eq (fat : FatTable) (cluster : UInt32) :
    fat.getNextCluster cluster =
      if cluster.toNat ≥ fat.entries.length then none
      else if fat.entry cluster = fatFree then none
      else if fat.entry cluster ≥ fatEocMin then none
      else if fat.entry cluster = fatBadCluster then none
      else some (fat.entry cluster) := rfl

theorem FatTable.getNextCluster_of_entry {fat : FatTable} {cluster next : UInt32}
    (present : cluster.toNat < fat.entries.length) (names : fat.entry cluster = next)
    (data : 2 ≤ next ∧ next < fatBadCluster) : fat.getNextCluster cluster = some next := by
  have notFree : next ≠ fatFree := by
    intro free
    rw [free] at data
    exact absurd data.1 (by decide)
  have belowEnd : ¬ next ≥ fatEocMin := by
    intro atEnd
    exact absurd (UInt32.lt_of_le_of_lt atEnd data.2) (by decide)
  rw [getNextCluster_eq, names, if_neg (by omega), if_neg notFree, if_neg belowEnd,
    if_neg (UInt32.ne_of_lt data.2)]

theorem FatTable.getNextCluster_of_end {fat : FatTable} {cluster : UInt32}
    (atEnd : fatEocMin ≤ fat.entry cluster) : fat.getNextCluster cluster = none := by
  have notFree : fat.entry cluster ≠ fatFree := by
    intro free
    rw [free] at atEnd
    exact absurd atEnd (by decide)
  rw [getNextCluster_eq, if_neg notFree, if_pos (show fat.entry cluster ≥ fatEocMin from atEnd),
    ite_self]

theorem FatTable.chainLoop_of_links {fat : FatTable} (small : fat.totalClusters ≤ fatBadCluster) :
    ∀ (clusters chain : List UInt32) (current : UInt32), fat.Links (current :: clusters) →
      (∀ cluster ∈ clusters, 2 ≤ cluster ∧ cluster < fat.totalClusters) →
      chain.length + clusters.length ≤ fat.totalClusters.toNat →
      fat.chainLoop chain current =
        (chain ++ (current :: clusters).dropLast, (current :: clusters).getLast (by simp))
  | [], chain, current, ⟨_, atEnd⟩, _, _ => by
      rw [chainLoop_of_none (getNextCluster_of_end atEnd)]
      simp
  | next :: rest, chain, current, ⟨present, names, links⟩, inRange, room => by
      have nextInRange := inRange next List.mem_cons_self
      have linked : fat.getNextCluster current = some next :=
        getNextCluster_of_entry present names
          ⟨nextInRange.1, UInt32.lt_of_lt_of_le nextInRange.2 small⟩
      have grown : (chain ++ [current]).length = chain.length + 1 := by simp
      rw [List.length_cons] at room
      rw [chainLoop_of_some linked, if_neg (by omega),
        chainLoop_of_links small rest (chain ++ [current]) next links
          (fun cluster member => inRange cluster (List.mem_cons_of_mem _ member)) (by omega)]
      simp [List.dropLast_cons_cons, List.getLast_cons]

theorem length_le_of_nodup {clusters : List UInt32} (distinct : clusters.Nodup) {bound : UInt32}
    (below : ∀ cluster ∈ clusters, cluster < bound) : clusters.length ≤ bound.toNat := by
  have numbers : (clusters.map UInt32.toNat).Nodup :=
    distinct.map fun _ _ same => UInt32.toNat_inj.mp same
  have inside : clusters.map UInt32.toNat ⊆ List.range bound.toNat := by
    intro number member
    obtain ⟨cluster, present, rfl⟩ := List.mem_map.mp member
    exact List.mem_range.mpr (below cluster present)
  simpa using (numbers.subperm inside).length_le

theorem FatTable.getChain_of_links {fat : FatTable} (small : fat.totalClusters ≤ fatBadCluster)
    {start : UInt32} {rest : List UInt32} (links : fat.Links (start :: rest))
    (distinct : (start :: rest).Nodup)
    (inRange : ∀ cluster ∈ start :: rest, 2 ≤ cluster ∧ cluster < fat.totalClusters) :
    fat.getChain start = start :: rest := by
  have room : ([] : List UInt32).length + rest.length ≤ fat.totalClusters.toNat := by
    have bound := length_le_of_nodup distinct fun cluster member => (inRange cluster member).2
    rw [List.length_cons] at bound
    rw [List.length_nil]
    omega
  have loop := chainLoop_of_links small rest [] start links
    (fun cluster member => inRange cluster (List.mem_cons_of_mem _ member)) room
  have lastInRange := inRange _ (List.getLast_mem (List.cons_ne_nil start rest))
  unfold getChain
  rw [loop]
  dsimp only
  rw [if_pos lastInRange, List.nil_append, List.dropLast_append_getLast]

/-! ### Freeing and allocating -/

section Update

variable {fat : FatTable}

theorem FatTable.setNextCluster_of_lt {cluster : UInt32} (present : cluster.toNat < fat.entries.length)
    (next : UInt32) : fat.setNextCluster cluster next =
      .ok { fat with entries := fat.entries.set cluster.toNat (next &&& 0x0FFFFFFF) } := by
  rw [setNextCluster, if_neg (by omega)]

theorem FatTable.foldlM_freeCluster :
    ∀ (clusters : List UInt32) (fat : FatTable),
      (∀ cluster ∈ clusters, cluster.toNat < fat.entries.length) →
      ∃ freed : FatTable, clusters.foldlM FatTable.freeCluster fat = .ok freed ∧
        freed.totalClusters = fat.totalClusters ∧
        ∀ index, freed.entries[index]? =
          if index ∈ clusters.map UInt32.toNat then some fatFree else fat.entries[index]?
  | [], fat, _ => ⟨fat, rfl, rfl, fun index => by simp⟩
  | cluster :: rest, fat, present => by
      have here := present cluster List.mem_cons_self
      let cleared : FatTable := { fat with entries := fat.entries.set cluster.toNat fatFree }
      have stillPresent : ∀ other ∈ rest, other.toNat < cleared.entries.length := by
        intro other member
        simpa [cleared] using present other (List.mem_cons_of_mem _ member)
      obtain ⟨freed, folded, total, entries⟩ := foldlM_freeCluster rest cleared stillPresent
      refine ⟨freed, ?_, total, fun index => ?_⟩
      · rw [List.foldlM_cons, freeCluster, setNextCluster_of_lt here]
        exact folded
      · rw [entries index, List.getElem?_set]
        by_cases same : cluster.toNat = index
        · subst same
          simp [here]
        · simp [same, Ne.symm same]

end Update

theorem FatTable.freeChain_of_links {fat : FatTable} (small : fat.totalClusters ≤ fatBadCluster)
    {start : UInt32} {rest : List UInt32} (links : fat.Links (start :: rest))
    (distinct : (start :: rest).Nodup)
    (inRange : ∀ cluster ∈ start :: rest, 2 ≤ cluster ∧ cluster < fat.totalClusters) :
    ∃ freed : FatTable, fat.freeChain start = .ok freed ∧
      freed.totalClusters = fat.totalClusters ∧
      ∀ index, freed.entries[index]? =
        if index ∈ (start :: rest).map UInt32.toNat then some fatFree else fat.entries[index]? := by
  unfold freeChain
  rw [getChain_of_links small links distinct inRange]
  exact foldlM_freeCluster _ fat links.present

theorem findFreeFrom_eq_some :
    ∀ {entries : List UInt32} {index found : Nat}, findFreeFrom index entries = some found →
      index ≤ found ∧ found < index + entries.length ∧ 2 ≤ found ∧
        entries.getD (found - index) 0 &&& 0x0FFFFFFF = fatFree
  | [], _, _, scanned => by simp [findFreeFrom] at scanned
  | entry :: rest, index, found, scanned => by
      unfold findFreeFrom at scanned
      split_ifs at scanned with free
      · cases scanned
        simp only [Nat.sub_self, List.getD_cons_zero, List.length_cons]
        exact ⟨Nat.le_refl _, by omega, free.1, free.2⟩
      · obtain ⟨after, below, data, isFree⟩ := findFreeFrom_eq_some scanned
        have shifted : found - index = found - (index + 1) + 1 := by omega
        rw [List.length_cons]
        rw [shifted, List.getD_cons_succ]
        exact ⟨by omega, by omega, data, isFree⟩

theorem FatTable.allocateCluster_of_some {fat : FatTable} (fits : fat.entries.length ≤ 2 ^ 32)
    {cluster : UInt32} {after : FatTable} (allocated : fat.allocateCluster = (some cluster, after)) :
    2 ≤ cluster.toNat ∧ cluster.toNat < fat.entries.length ∧ fat.entry cluster = fatFree ∧
      after = { fat with entries := fat.entries.set cluster.toNat fatEoc } := by
  unfold allocateCluster findFreeCluster at allocated
  rcases scanned : findFreeFrom 0 fat.entries with _ | index
  · rw [scanned] at allocated
    cases allocated
  · obtain ⟨-, below, data, isFree⟩ := findFreeFrom_eq_some scanned
    have number : index.toUInt32.toNat = index := by
      rw [Nat.toUInt32_eq, UInt32.toNat_ofNat', Nat.mod_eq_of_lt (by omega)]
    rw [scanned] at allocated
    dsimp only [Option.map_some] at allocated
    rw [markEoc, setNextCluster_of_lt (by omega)] at allocated
    cases allocated
    rw [Nat.sub_zero] at isFree
    refine ⟨by omega, by omega, ?_, ?_⟩
    · rw [entry, number]
      exact isFree
    · rw [number]
      rfl

/-- On a table whose cluster count is below the bad-cluster marker,
`get_chain` always ends, with at most `total_clusters + 2` clusters; on a chain
of distinct clusters `2 ≤ c < total_clusters` whose entries link them and end
it, `get_chain` returns exactly the chain and `free_chain` frees exactly its
clusters; and `allocate_cluster` returns a cluster from `2` on whose entry was
free, and marks it as the end of a chain. -/
theorem fat_table_follows_linked_chains (fat : FatTable) (small : fat.totalClusters ≤ fatBadCluster) :
    (∀ startCluster, (fat.getChain startCluster).length ≤ fat.totalClusters.toNat + 2) ∧
    (∀ start rest, fat.Links (start :: rest) → (start :: rest).Nodup →
      (∀ cluster ∈ start :: rest, 2 ≤ cluster ∧ cluster < fat.totalClusters) →
      fat.getChain start = start :: rest ∧
        ∃ freed : FatTable, fat.freeChain start = .ok freed ∧ freed.totalClusters = fat.totalClusters ∧
          ∀ index, freed.entries[index]? =
            if index ∈ (start :: rest).map UInt32.toNat then some fatFree else fat.entries[index]?) ∧
    (fat.entries.length ≤ 2 ^ 32 → ∀ cluster after, fat.allocateCluster = (some cluster, after) →
      2 ≤ cluster.toNat ∧ cluster.toNat < fat.entries.length ∧ fat.entry cluster = fatFree ∧
        after = { fat with entries := fat.entries.set cluster.toNat fatEoc }) := by
  refine ⟨fat.length_getChain_le, fun start rest links distinct inRange => ?_,
    fun fits cluster after allocated => FatTable.allocateCluster_of_some fits allocated⟩
  exact ⟨FatTable.getChain_of_links small links distinct inRange,
    FatTable.freeChain_of_links small links distinct inRange⟩

theorem fat_table_follows_chain_two_three :
    let fat : FatTable := ⟨[fatEoc, fatEoc, 3, fatEoc], 4⟩
    fat.totalClusters ≤ fatBadCluster ∧
    (∀ startCluster, (fat.getChain startCluster).length ≤ fat.totalClusters.toNat + 2) ∧
    (∀ start rest, fat.Links (start :: rest) → (start :: rest).Nodup →
      (∀ cluster ∈ start :: rest, 2 ≤ cluster ∧ cluster < fat.totalClusters) →
      fat.getChain start = start :: rest ∧
        ∃ freed : FatTable, fat.freeChain start = .ok freed ∧ freed.totalClusters = fat.totalClusters ∧
          ∀ index, freed.entries[index]? =
            if index ∈ (start :: rest).map UInt32.toNat then some fatFree else fat.entries[index]?) ∧
    (fat.entries.length ≤ 2 ^ 32 → ∀ cluster after, fat.allocateCluster = (some cluster, after) →
      2 ≤ cluster.toNat ∧ cluster.toNat < fat.entries.length ∧ fat.entry cluster = fatFree ∧
        after = { fat with entries := fat.entries.set cluster.toNat fatEoc }) :=
  ⟨by decide, fat_table_follows_linked_chains _ (by decide)⟩

theorem fat_chains_leave_the_data_range :
    let twoClusters : FatTable := ⟨[fatEoc, fatEoc, 3, fatEoc], 3⟩
    let selfLoop : FatTable := ⟨[fatEoc, fatEoc, 2], 3⟩
    let spare : FatTable := ⟨[fatEoc, fatEoc, fatEoc, fatEoc, fatEoc, fatFree], 3⟩
    twoClusters.Links [2, 3] ∧ twoClusters.getChain 2 = [2] ∧
      twoClusters.freeChain 2 = .ok ⟨[fatEoc, fatEoc, fatFree, fatEoc], 3⟩ ∧
      selfLoop.getChain 2 = [2, 2, 2, 2, 2] ∧
      spare.allocateCluster = (some 5, ⟨[fatEoc, fatEoc, fatEoc, fatEoc, fatEoc, fatEoc], 3⟩) := by
  refine ⟨⟨by decide, by decide, by decide, by decide⟩, ?_, ?_, ?_, by decide⟩
  -- the loop is well-founded recursion, which the kernel does not unfold by `decide`
  all_goals simp +decide [FatTable.freeChain, FatTable.getChain, FatTable.chainLoop,
    FatTable.getNextCluster, FatTable.freeCluster, FatTable.setNextCluster]

end FangaOS.Fat
