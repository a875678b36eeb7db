import FangaOS.Fs.Memfs
import FangaOS.Lib.MapUpdate
import FangaOS.Lib.Run

/-! The four maps of `MemoryFileSystem` describe one tree of normal paths along
every run of `create` and `remove`, failed calls included. -/

namespace FangaOS.Memfs

open FangaOS.Path StepMachine

structure MemoryFileSystem.Consistent (fs : MemoryFileSystem) : Prop where
  root : fs.paths.lookup ['/'] = some 0
  rootDirectory : ∃ dir, fs.nodes.lookup 0 = some (.directory dir)
  normal : ∀ path ∈ fs.paths, Normal path
  injective : ∀ path other id, fs.paths.lookup path = some id → fs.paths.lookup other = some id →
    path = other
  stored : ∀ path id, fs.paths.lookup path = some id →
    ∃ node, fs.nodes.lookup id = some node ∧ fs.vnodes.lookup id = some ⟨id, node.vtype, path⟩
  nodesNamed : ∀ id ∈ fs.nodes, ∃ path, fs.paths.lookup path = some id
  vnodesNamed : ∀ id ∈ fs.vnodes, ∃ path, fs.paths.lookup path = some id
  fresh : ∀ path id, fs.paths.lookup path = some id → id < fs.nextId
  linked : ∀ path id, fs.paths.lookup path = some id → path ≠ ['/'] →
    ∃ parentPath parentId dir name, parent path = some parentPath ∧ filename path = some name ∧
      fs.paths.lookup parentPath = some parentId ∧ fs.nodes.lookup parentId = some (.directory dir) ∧
      dir.entries.lookup name = some id
  entries : ∀ dirPath dirId dir name id, fs.paths.lookup dirPath = some dirId →
    fs.nodes.lookup dirId = some (.directory dir) → dir.entries.lookup name = some id →
    fs.paths.lookup (join dirPath name) = some id
  names : ∀ dirId dir, fs.nodes.lookup dirId = some (.directory dir) →
    ∀ name ∈ dir.entries, ValidName name

@[simp] theorem MemNode.vtype_ofType (vtype : VNodeType) : (MemNode.ofType vtype).vtype = vtype := by
  cases vtype <;> rfl

theorem MemoryFileSystem.new_consistent : MemoryFileSystem.new.Consistent := by
  have onlyRoot : ∀ path id, MemoryFileSystem.new.paths.lookup path = some id →
      path = ['/'] ∧ id = 0 := by
    intro path id found
    have root := (Finmap.mem_singleton _ _ _).mp (Finmap.mem_of_lookup_eq_some found)
    subst root
    exact ⟨rfl, (Option.some.inj (Finmap.lookup_singleton_eq.symm.trans found)).symm⟩
  have onlyRootNode : ∀ id node, MemoryFileSystem.new.nodes.lookup id = some node →
      id = 0 ∧ node = .directory MemDir.new := by
    intro id node found
    have zero := (Finmap.mem_singleton _ _ _).mp (Finmap.mem_of_lookup_eq_some found)
    subst zero
    exact ⟨rfl, (Option.some.inj (Finmap.lookup_singleton_eq.symm.trans found)).symm⟩
  refine ⟨Finmap.lookup_singleton_eq, ⟨_, Finmap.lookup_singleton_eq⟩, ?_, ?_, ?_, ?_, ?_, ?_,
    ?_, ?_, ?_⟩
  · intro path member
    rw [(Finmap.mem_singleton _ _ _).mp member]
    exact ⟨[], nofun, rfl⟩
  · intro path other id found otherFound
    rw [(onlyRoot path id found).1, (onlyRoot other id otherFound).1]
  · intro path id found
    obtain ⟨rfl, rfl⟩ := onlyRoot path id found
    exact ⟨_, Finmap.lookup_singleton_eq, Finmap.lookup_singleton_eq⟩
  · intro id member
    rw [(Finmap.mem_singleton _ _ _).mp member]
    exact ⟨['/'], Finmap.lookup_singleton_eq⟩
  · intro id member
    rw [(Finmap.mem_singleton _ _ _).mp member]
    exact ⟨['/'], Finmap.lookup_singleton_eq⟩
  · intro path id found
    rw [(onlyRoot path id found).2]
    exact Nat.one_pos
  · intro path id found notRoot
    exact absurd (onlyRoot path id found).1 notRoot
  · intro dirPath dirId dir name id _ dirFound entryFound
    obtain ⟨-, same⟩ := onlyRootNode dirId _ dirFound
    cases same
    rw [MemDir.new, Finmap.lookup_empty] at entryFound
    cases entryFound
  · intro dirId dir dirFound name member
    obtain ⟨-, same⟩ := onlyRootNode dirId _ dirFound
    cases same
    exact absurd member Finmap.notMem_empty

theorem MemoryFileSystem.Consistent.allocId {fs : MemoryFileSystem} (consistent : fs.Consistent) :
    fs.allocId.2.Consistent :=
  { consistent with
    fresh := fun path id found => Nat.lt_succ_of_lt (consistent.fresh path id found) }

theorem MemoryFileSystem.Consistent.create {fs : MemoryFileSystem} (consistent : fs.Consistent)
    {path : List Char} {vtype : VNodeType} {vnode : VNode} {after : MemoryFileSystem}
    (created : fs.create path vtype = (.ok vnode, after)) : after.Consistent := by
  obtain ⟨normal, parentPath, parentId, dir, name, normalized, absent, parentFound, parentIdFound,
    dirFound, nameFound, -, rfl, rfl⟩ := MemoryFileSystem.create_ok created
  have notRoot : normal ≠ ['/'] :=
    fun root => absent (root ▸ Finmap.mem_of_lookup_eq_some consistent.root)
  obtain ⟨base, baseName, -, nameValid, parentEq, filenameEq, joined⟩ :=
    (normal_of_normalize normalized).eq_join notRoot
  rw [parentFound, Option.some.injEq] at parentEq
  rw [nameFound, Option.some.injEq] at filenameEq
  subst parentEq filenameEq
  have missing : fs.paths.lookup normal = none := Finmap.lookup_eq_none.mpr absent
  have otherPath : ∀ path id, fs.paths.lookup path = some id → path ≠ normal := by
    rintro path id found rfl
    rw [missing] at found
    cases found
  have freshId : ∀ path id, fs.paths.lookup path = some id → id ≠ fs.nextId :=
    fun path id found => (consistent.fresh path id found).ne
  have parentFresh : parentId ≠ fs.nextId := freshId _ _ parentIdFound
  have pathsAfter : ∀ path, (fs.paths.insert normal fs.nextId).lookup path =
      if path = normal then some fs.nextId else fs.paths.lookup path :=
    fun path => Finmap.lookup_insert_eq_ite _ _ _ _
  have nodesAfter : ∀ id, ((fs.nodes.insert parentId (.directory ⟨dir.entries.insert name
      fs.nextId⟩)).insert fs.nextId (MemNode.ofType vtype)).lookup id =
      if id = fs.nextId then some (MemNode.ofType vtype)
      else if id = parentId then some (.directory ⟨dir.entries.insert name fs.nextId⟩)
      else fs.nodes.lookup id := by
    intro id
    rw [Finmap.lookup_insert_eq_ite, Finmap.lookup_insert_eq_ite]
  have vnodesAfter : ∀ id, (fs.vnodes.insert fs.nextId ⟨fs.nextId, vtype, normal⟩).lookup id =
      if id = fs.nextId then some ⟨fs.nextId, vtype, normal⟩ else fs.vnodes.lookup id :=
    fun id => Finmap.lookup_insert_eq_ite _ _ _ _
  have kept : ∀ path id, fs.paths.lookup path = some id →
      (fs.paths.insert normal fs.nextId).lookup path = some id := by
    intro path id found
    rw [pathsAfter, if_neg (otherPath path id found)]
    exact found
  -- An old path named `name` in the parent directory would be the new path.
  have notNewName : ∀ path id, fs.paths.lookup path = some id → path ≠ ['/'] →
      ∀ otherBase otherName, parent path = some otherBase → filename path = some otherName →
      fs.paths.lookup otherBase = some parentId → otherName ≠ name := by
    rintro path id found pathNotRoot otherBase otherName parentIs filenameIs baseFound rfl
    have pathJoined := (consistent.normal path (Finmap.mem_of_lookup_eq_some found)).eq_join_of
      pathNotRoot parentIs filenameIs
    rw [consistent.injective _ _ _ baseFound parentIdFound] at pathJoined
    exact otherPath path id found (pathJoined.trans joined.symm)
  refine ⟨?_, ?_, ?_, ?_, ?_, ?_, ?_, ?_, ?_, ?_, ?_⟩
  · exact kept _ _ consistent.root
  · obtain ⟨rootDir, rootFound⟩ := consistent.rootDirectory
    have zeroFresh : 0 ≠ fs.nextId := freshId _ _ consistent.root
    show ∃ dir, ((fs.nodes.insert parentId _).insert fs.nextId _).lookup 0 = _
    rw [nodesAfter, if_neg zeroFresh]
    split_ifs
    · exact ⟨_, rfl⟩
    · exact ⟨rootDir, rootFound⟩
  · intro path member
    rcases Finmap.mem_insert.mp member with rfl | old
    · exact normal_of_normalize normalized
    · exact consistent.normal path old
  · intro path other id found otherFound
    change (fs.paths.insert normal fs.nextId).lookup path = some id at found
    change (fs.paths.insert normal fs.nextId).lookup other = some id at otherFound
    rw [pathsAfter] at found otherFound
    split_ifs at found otherFound with isNew otherNew otherNew
    · rw [isNew, otherNew]
    · cases found
      exact absurd rfl (freshId _ _ otherFound)
    · cases otherFound
      exact absurd rfl (freshId _ _ found)
    · exact consistent.injective path other id found otherFound
  · intro path id found
    change (fs.paths.insert normal fs.nextId).lookup path = some id at found
    show ∃ node, ((fs.nodes.insert parentId _).insert fs.nextId _).lookup id = some node ∧
      (fs.vnodes.insert fs.nextId _).lookup id = _
    rw [pathsAfter] at found
    split_ifs at found with isNew
    · cases found
      subst isNew
      rw [nodesAfter, vnodesAfter, if_pos rfl, if_pos rfl]
      exact ⟨_, rfl, by rw [MemNode.vtype_ofType]⟩
    · obtain ⟨node, nodeFound, vnodeFound⟩ := consistent.stored path id found
      rw [Finmap.lookup_insert_of_ne _ (freshId _ _ found), vnodesAfter, if_neg (freshId _ _ found)]
      exact Finmap.exists_lookup_insert dirFound (fun same => same) nodeFound vnodeFound
  · intro id member
    rcases Finmap.mem_insert.mp member with rfl | inner
    · exact ⟨normal, by rw [pathsAfter, if_pos rfl]⟩
    · rcases Finmap.mem_insert.mp inner with rfl | old
      · exact ⟨parentPath, kept _ _ parentIdFound⟩
      · obtain ⟨path, found⟩ := consistent.nodesNamed id old
        exact ⟨path, kept _ _ found⟩
  · intro id member
    rcases Finmap.mem_insert.mp member with rfl | old
    · exact ⟨normal, by rw [pathsAfter, if_pos rfl]⟩
    · obtain ⟨path, found⟩ := consistent.vnodesNamed id old
      exact ⟨path, kept _ _ found⟩
  · intro path id found
    change (fs.paths.insert normal fs.nextId).lookup path = some id at found
    rw [pathsAfter] at found
    split_ifs at found
    · cases found
      exact Nat.lt_succ_self _
    · exact Nat.lt_succ_of_lt (consistent.fresh path id found)
  · intro path id found pathNotRoot
    change (fs.paths.insert normal fs.nextId).lookup path = some id at found
    show ∃ parentPath parentId dir name, _ ∧ _ ∧
      (fs.paths.insert normal fs.nextId).lookup parentPath = some parentId ∧
      ((fs.nodes.insert _ _).insert fs.nextId _).lookup parentId = some (.directory dir) ∧ _
    rw [pathsAfter] at found
    split_ifs at found with isNew
    · cases found
      subst isNew
      refine ⟨parentPath, parentId, ⟨dir.entries.insert name fs.nextId⟩, name, parentFound,
        nameFound, kept _ _ parentIdFound, ?_, Finmap.lookup_insert _⟩
      rw [nodesAfter, if_neg parentFresh, if_pos rfl]
    · obtain ⟨otherBase, otherParent, otherDir, otherName, parentIs, filenameIs, baseFound,
        otherDirFound, entryFound⟩ := consistent.linked path id found pathNotRoot
      by_cases isParent : otherParent = parentId
      · subst isParent
        rw [dirFound, Option.some.injEq, MemNode.directory.injEq] at otherDirFound
        subst otherDirFound
        refine ⟨otherBase, otherParent, ⟨dir.entries.insert name fs.nextId⟩, otherName, parentIs,
          filenameIs, kept _ _ baseFound, ?_, ?_⟩
        · rw [nodesAfter, if_neg (freshId _ _ baseFound), if_pos rfl]
        · rw [Finmap.lookup_insert_eq_ite, if_neg (notNewName path id found pathNotRoot otherBase
            otherName parentIs filenameIs baseFound)]
          exact entryFound
      · refine ⟨otherBase, otherParent, otherDir, otherName, parentIs, filenameIs,
          kept _ _ baseFound, ?_, entryFound⟩
        rw [nodesAfter, if_neg (freshId _ _ baseFound), if_neg isParent]
        exact otherDirFound
  · intro dirPath dirId otherDir otherName id dirPathFound otherDirFound entryFound
    change (fs.paths.insert normal fs.nextId).lookup dirPath = some dirId at dirPathFound
    change ((fs.nodes.insert _ _).insert fs.nextId _).lookup dirId = _ at otherDirFound
    show (fs.paths.insert normal fs.nextId).lookup _ = _
    rw [pathsAfter] at dirPathFound
    rw [nodesAfter] at otherDirFound
    split_ifs at dirPathFound with isNew
    · cases dirPathFound
      rw [if_pos rfl] at otherDirFound
      cases vtype with
      | file => cases otherDirFound
      | directory =>
          cases otherDirFound
          rw [MemDir.new, Finmap.lookup_empty] at entryFound
          cases entryFound
    · rw [if_neg (freshId _ _ dirPathFound)] at otherDirFound
      split_ifs at otherDirFound with isParent
      · subst isParent
        cases otherDirFound
        have sameDir := consistent.injective _ _ _ dirPathFound parentIdFound
        subst sameDir
        rw [Finmap.lookup_insert_eq_ite] at entryFound
        split_ifs at entryFound with isName
        · cases entryFound
          subst isName
          rw [← joined, pathsAfter, if_pos rfl]
        · exact kept _ _ (consistent.entries _ _ _ _ _ dirPathFound dirFound entryFound)
      · exact kept _ _ (consistent.entries _ _ _ _ _ dirPathFound otherDirFound entryFound)
  · intro dirId otherDir otherDirFound otherName member
    change ((fs.nodes.insert _ _).insert fs.nextId _).lookup dirId = _ at otherDirFound
    rw [nodesAfter] at otherDirFound
    split_ifs at otherDirFound with isNew isParent
    · cases vtype with
      | file => cases otherDirFound
      | directory =>
          cases otherDirFound
          exact absurd member Finmap.notMem_empty
    · cases otherDirFound
      rcases Finmap.mem_insert.mp member with rfl | old
      · exact nameValid
      · exact consistent.names _ _ dirFound otherName old
    · exact consistent.names _ _ otherDirFound otherName member

theorem MemoryFileSystem.Consistent.remove {fs : MemoryFileSystem} (consistent : fs.Consistent)
    {path : List Char} {after : MemoryFileSystem} (removed : fs.remove path = (.ok (), after)) :
    after.Consistent := by
  obtain ⟨normal, vnodeId, parentPath, parentId, dir, name, normalized, notRoot, found, empty,
    parentFound, parentIdFound, nameFound, dirFound, member, rfl⟩ :=
    MemoryFileSystem.remove_ok removed
  obtain ⟨base, baseName, baseNormal, nameValid, parentEq, filenameEq, joined⟩ :=
    (normal_of_normalize normalized).eq_join notRoot
  rw [parentFound, Option.some.injEq] at parentEq
  rw [nameFound, Option.some.injEq] at filenameEq
  subst parentEq filenameEq
  have otherPath : ∀ path id, fs.paths.lookup path = some id → path ≠ normal → id ≠ vnodeId := by
    rintro path id pathFound different rfl
    exact different (consistent.injective _ _ _ pathFound found)
  have parentNotNormal : parentPath ≠ normal := by
    rintro same
    have shorter := length_lt_join baseNormal nameValid
    rw [← joined, ← same] at shorter
    exact Nat.lt_irrefl _ shorter
  have parentNotRemoved : parentId ≠ vnodeId := otherPath _ _ parentIdFound parentNotNormal
  have pathsAfter : ∀ path, (fs.paths.erase normal).lookup path =
      if path = normal then none else fs.paths.lookup path :=
    fun path => Finmap.lookup_erase_eq_ite _ _ _
  have nodesAfter : ∀ id, ((fs.nodes.insert parentId (.directory ⟨dir.entries.erase name⟩)).erase
      vnodeId).lookup id =
      if id = vnodeId then none
      else if id = parentId then some (.directory ⟨dir.entries.erase name⟩)
      else fs.nodes.lookup id := by
    intro id
    rw [Finmap.lookup_erase_eq_ite, Finmap.lookup_insert_eq_ite]
  -- What the erased map still finds, the old map found under a path other than `normal`.
  have stillFound : ∀ path id, (fs.paths.erase normal).lookup path = some id →
      path ≠ normal ∧ fs.paths.lookup path = some id ∧ id ≠ vnodeId := by
    intro path id pathFound
    rw [pathsAfter] at pathFound
    split_ifs at pathFound with isNormal
    exact ⟨isNormal, pathFound, otherPath _ _ pathFound isNormal⟩
  have kept : ∀ path id, fs.paths.lookup path = some id → path ≠ normal →
      (fs.paths.erase normal).lookup path = some id := by
    intro path id pathFound different
    rw [pathsAfter, if_neg different]
    exact pathFound
  refine ⟨?_, ?_, ?_, ?_, ?_, ?_, ?_, ?_, ?_, ?_, ?_⟩
  · exact kept _ _ consistent.root (Ne.symm notRoot)
  · obtain ⟨rootDir, rootFound⟩ := consistent.rootDirectory
    have rootKept : 0 ≠ vnodeId := otherPath _ _ consistent.root (Ne.symm notRoot)
    show ∃ dir, ((fs.nodes.insert parentId _).erase vnodeId).lookup 0 = _
    rw [nodesAfter, if_neg rootKept]
    split_ifs
    · exact ⟨_, rfl⟩
    · exact ⟨rootDir, rootFound⟩
  · intro path pathMember
    exact consistent.normal path (Finmap.mem_erase.mp pathMember).2
  · intro path other id pathFound otherFound
    exact consistent.injective path other id (stillFound _ _ pathFound).2.1
      (stillFound _ _ otherFound).2.1
  · intro path id pathFound
    obtain ⟨-, pathFound, notRemoved⟩ := stillFound _ _ pathFound
    obtain ⟨node, nodeFound, vnodeFound⟩ := consistent.stored path id pathFound
    show ∃ node, ((fs.nodes.insert parentId _).erase vnodeId).lookup id = some node ∧
      (fs.vnodes.erase vnodeId).lookup id = _
    rw [Finmap.lookup_erase_ne notRemoved, Finmap.lookup_erase_ne notRemoved]
    exact Finmap.exists_lookup_insert dirFound (fun same => same) nodeFound vnodeFound
  · intro id nodeMember
    obtain ⟨notRemoved, inner⟩ := Finmap.mem_erase.mp nodeMember
    rcases Finmap.mem_insert.mp inner with rfl | old
    · exact ⟨parentPath, kept _ _ parentIdFound parentNotNormal⟩
    · obtain ⟨path, pathFound⟩ := consistent.nodesNamed id old
      refine ⟨path, kept _ _ pathFound ?_⟩
      rintro rfl
      rw [found, Option.some.injEq] at pathFound
      exact notRemoved pathFound.symm
  · intro id vnodeMember
    obtain ⟨notRemoved, old⟩ := Finmap.mem_erase.mp vnodeMember
    obtain ⟨path, pathFound⟩ := consistent.vnodesNamed id old
    refine ⟨path, kept _ _ pathFound ?_⟩
    rintro rfl
    rw [found, Option.some.injEq] at pathFound
    exact notRemoved pathFound.symm
  · intro path id pathFound
    exact consistent.fresh path id (stillFound _ _ pathFound).2.1
  · intro path id pathFound pathNotRoot
    obtain ⟨different, oldFound, notRemoved⟩ := stillFound _ _ pathFound
    obtain ⟨otherBase, otherParent, otherDir, otherName, parentIs, filenameIs, baseFound,
      otherDirFound, entryFound⟩ := consistent.linked path id oldFound pathNotRoot
    -- The removed node is an empty directory, so it is no parent.
    have baseNotNormal : otherBase ≠ normal := by
      rintro rfl
      rw [found, Option.some.injEq] at baseFound
      subst baseFound
      rw [empty _ otherDirFound, Finmap.lookup_empty] at entryFound
      cases entryFound
    have baseKept : otherParent ≠ vnodeId := otherPath _ _ baseFound baseNotNormal
    show ∃ parentPath parentId dir name, _ ∧ _ ∧
      (fs.paths.erase normal).lookup parentPath = some parentId ∧
      ((fs.nodes.insert _ _).erase vnodeId).lookup parentId = some (.directory dir) ∧ _
    by_cases isParent : otherParent = parentId
    · subst isParent
      rw [dirFound, Option.some.injEq, MemNode.directory.injEq] at otherDirFound
      subst otherDirFound
      have sameBase := consistent.injective _ _ _ baseFound parentIdFound
      subst sameBase
      have otherJoined : path = join otherBase otherName :=
        ((consistent.normal path (Finmap.mem_of_lookup_eq_some oldFound)).eq_join_of pathNotRoot
          parentIs filenameIs)
      have differentName : otherName ≠ name := by
        rintro rfl
        exact different (otherJoined.trans joined.symm)
      refine ⟨otherBase, otherParent, ⟨dir.entries.erase name⟩, otherName, parentIs, filenameIs,
        kept _ _ baseFound baseNotNormal, ?_, ?_⟩
      · rw [nodesAfter, if_neg baseKept, if_pos rfl]
      · rw [Finmap.lookup_erase_ne differentName]
        exact entryFound
    · refine ⟨otherBase, otherParent, otherDir, otherName, parentIs, filenameIs,
        kept _ _ baseFound baseNotNormal, ?_, entryFound⟩
      rw [nodesAfter, if_neg baseKept, if_neg isParent]
      exact otherDirFound
  · intro dirPath dirId otherDir otherName id dirPathFound otherDirFound entryFound
    obtain ⟨-, oldDirFound, notRemoved⟩ := stillFound _ _ dirPathFound
    change ((fs.nodes.insert _ _).erase vnodeId).lookup dirId = _ at otherDirFound
    rw [nodesAfter, if_neg notRemoved] at otherDirFound
    split_ifs at otherDirFound with isParent
    · subst isParent
      cases otherDirFound
      have sameDir := consistent.injective _ _ _ oldDirFound parentIdFound
      subst sameDir
      have differentName : otherName ≠ name := by
        rintro rfl
        rw [Finmap.lookup_erase] at entryFound
        cases entryFound
      rw [Finmap.lookup_erase_ne differentName] at entryFound
      refine kept _ _ (consistent.entries _ _ _ _ _ oldDirFound dirFound entryFound) ?_
      intro same
      exact differentName (join_right_injective (same.trans joined))
    · refine kept _ _ (consistent.entries _ _ _ _ _ oldDirFound otherDirFound entryFound) ?_
      -- Otherwise `normal` would have `dirPath` for parent, and `dirPath` would be `parentPath`.
      intro same
      have valid := consistent.names _ _ otherDirFound otherName
        (Finmap.mem_of_lookup_eq_some entryFound)
      have dirNormal := consistent.normal _ (Finmap.mem_of_lookup_eq_some oldDirFound)
      have parentIs := parent_join dirNormal valid
      rw [same, parentFound, Option.some.injEq] at parentIs
      subst parentIs
      rw [parentIdFound, Option.some.injEq] at oldDirFound
      exact isParent oldDirFound.symm
  · intro dirId otherDir otherDirFound otherName nameMember
    change ((fs.nodes.insert _ _).erase vnodeId).lookup dirId = _ at otherDirFound
    rw [nodesAfter] at otherDirFound
    split_ifs at otherDirFound with isRemoved isParent
    · cases otherDirFound
      exact consistent.names _ _ dirFound otherName (Finmap.mem_erase.mp nameMember).2
    · exact consistent.names _ _ otherDirFound otherName nameMember

theorem MemoryFileSystem.Consistent.step : Invariant MemoryFileSystem.step MemoryFileSystem.Consistent := by
  intro fs op consistent
  cases op with
  | create path vtype =>
      show (fs.create path vtype).2.Consistent
      rcases created : fs.create path vtype with ⟨_ | vnode, after⟩
      · rcases MemoryFileSystem.create_error created with rfl | rfl
        · exact consistent
        · exact consistent.allocId
      · exact consistent.create created
  | remove path =>
      show (fs.remove path).2.Consistent
      rcases removed : fs.remove path with ⟨_ | ⟨⟩, after⟩
      · rw [MemoryFileSystem.remove_error removed]
        exact consistent
      · exact consistent.remove removed

theorem MemoryFileSystem.consistent_run (ops : List FsOp) :
    (run MemoryFileSystem.step MemoryFileSystem.new ops).Consistent :=
  MemoryFileSystem.Consistent.step.run MemoryFileSystem.new_consistent ops

/-! ### What a consistent namespace answers -/

section Consistent

variable {fs : MemoryFileSystem} (consistent : fs.Consistent)
include consistent

theorem MemoryFileSystem.Consistent.mem_nodes_iff (id : Nat) :
    id ∈ fs.nodes ↔ ∃ path, fs.paths.lookup path = some id := by
  refine ⟨consistent.nodesNamed id, ?_⟩
  rintro ⟨path, found⟩
  obtain ⟨node, nodeFound, -⟩ := consistent.stored path id found
  exact Finmap.mem_of_lookup_eq_some nodeFound

theorem MemoryFileSystem.Consistent.mem_vnodes_iff (id : Nat) :
    id ∈ fs.vnodes ↔ ∃ path, fs.paths.lookup path = some id := by
  refine ⟨consistent.vnodesNamed id, ?_⟩
  rintro ⟨path, found⟩
  obtain ⟨node, -, vnodeFound⟩ := consistent.stored path id found
  exact Finmap.mem_of_lookup_eq_some vnodeFound

theorem MemoryFileSystem.Consistent.entry_iff {dirPath : List Char} {dirId : Nat} {dir : MemDir}
    {name : List Char} {id : Nat} (dirPathFound : fs.paths.lookup dirPath = some dirId)
    (dirFound : fs.nodes.lookup dirId = some (.directory dir))
    (entryFound : dir.entries.lookup name = some id) (path : List Char) :
    fs.paths.lookup path = some id ↔ path = join dirPath name := by
  have joinFound := consistent.entries _ _ _ _ _ dirPathFound dirFound entryFound
  constructor
  · intro found
    exact consistent.injective _ _ _ found joinFound
  · rintro rfl
    exact joinFound

theorem MemoryFileSystem.Consistent.lookup_ok_iff (path : List Char) :
    (∃ vnode, fs.lookup path = .ok vnode) ↔
      ∃ normal, normalize path = .ok normal ∧ normal ∈ fs.paths := by
  unfold MemoryFileSystem.lookup
  cases normalized : normalize path with
  | error message => simp
  | ok normal =>
      dsimp only
      cases found : fs.paths.lookup normal with
      | none =>
          have absent : normal ∉ fs.paths := Finmap.lookup_eq_none.mp found
          simp [absent]
      | some id =>
          obtain ⟨node, -, vnodeFound⟩ := consistent.stored normal id found
          dsimp only
          rw [vnodeFound]
          exact iff_of_true ⟨_, rfl⟩ ⟨normal, rfl, Finmap.mem_of_lookup_eq_some found⟩

end Consistent

example : (run MemoryFileSystem.step MemoryFileSystem.new
    [.create "/a".toList .directory, .create "/a/b".toList .file, .remove "/a".toList]).lookup
      "/a/./b".toList = .ok ⟨2, .file, "/a/b".toList⟩ := by decide

/-! ### The paths a client has created -/

/-- The file system together with the paths that `create` has returned and
`remove` has not removed since. -/
structure Session where
  fs : MemoryFileSystem
  created : Finset (List Char)

def Session.step (session : Session) : FsOp → Session
  | .create path vtype =>
      match session.fs.create path vtype with
      | (.ok vnode, fs) => ⟨fs, insert vnode.path session.created⟩
      | (.error _, fs) => ⟨fs, session.created⟩
  | .remove path =>
      match session.fs.remove path, normalize path with
      | (.ok (), fs), .ok normal => ⟨fs, session.created.erase normal⟩
      | (.ok (), fs), .error _ => ⟨fs, session.created⟩
      | (.error _, fs), _ => ⟨fs, session.created⟩

/-- The namespace holds the root and the created paths. -/
def Session.Tracked (session : Session) : Prop :=
  ∀ path, path ∈ session.fs.paths ↔ path = ['/'] ∨ path ∈ session.created

theorem Session.step_fs (session : Session) (op : FsOp) :
    (session.step op).fs = session.fs.step op := by
  cases op with
  | create path vtype =>
      rw [Session.step, MemoryFileSystem.step]
      rcases session.fs.create path vtype with ⟨_ | _, _⟩ <;> rfl
  | remove path =>
      rw [Session.step, MemoryFileSystem.step]
      rcases session.fs.remove path with ⟨_ | ⟨⟩, _⟩ <;> cases normalize path <;> rfl

theorem Session.run_fs (session : Session) (ops : List FsOp) :
    (run Session.step session ops).fs = run MemoryFileSystem.step session.fs ops := by
  have simulation : Simulation Session.step MemoryFileSystem.step (fun session fs => session.fs = fs) := by
    intro session fs op same
    rw [Session.step_fs, same]
  exact simulation.run rfl ops

theorem Session.Tracked.step : Invariant Session.step Session.Tracked := by
  intro session op tracked
  cases op with
  | create path vtype =>
      rw [Session.step]
      rcases created : session.fs.create path vtype with ⟨error | vnode, after⟩
      · have samePaths : after.paths = session.fs.paths := by
          rcases MemoryFileSystem.create_error created with rfl | rfl <;> rfl
        intro other
        dsimp only
        rw [samePaths]
        exact tracked other
      · obtain ⟨normal, -, -, -, -, -, -, -, -, -, -, -, rfl, rfl⟩ :=
          MemoryFileSystem.create_ok created
        intro other
        dsimp only
        rw [Finmap.mem_insert, Finset.mem_insert, tracked other]
        exact or_left_comm
  | remove path =>
      rw [Session.step]
      rcases removed : session.fs.remove path with ⟨error | ⟨⟩, after⟩
      · rw [MemoryFileSystem.remove_error removed]
        cases normalize path <;> exact tracked
      · obtain ⟨normal, -, -, -, -, -, normalized, notRoot, -, -, -, -, -, -, -, rfl⟩ :=
          MemoryFileSystem.remove_ok removed
        rw [normalized]
        intro other
        dsimp only
        rw [Finmap.mem_erase, Finset.mem_erase, tracked other]
        by_cases isRemoved : other = normal
        · subst isRemoved
          simp [notRoot]
        · simp [isRemoved]

theorem Session.tracked_run (ops : List FsOp) :
    (run Session.step ⟨MemoryFileSystem.new, ∅⟩ ops).Tracked := by
  refine Session.Tracked.step.run ?_ ops
  intro path
  simp [MemoryFileSystem.new, Finmap.mem_singleton]

/-- Along every run from `new`, the ids of the nodes, the vnodes and the paths
agree, the root is directory `0`, every other path is the entry of its
filename in the directory at its parent, every directory entry is the id of a
live node named by exactly the path `join` gives, and `lookup` succeeds
exactly on the normal forms of the root and of the paths created and not
removed since. -/
theorem memfs_namespace_consistent (ops : List FsOp) :
    let session : Session := run Session.step ⟨MemoryFileSystem.new, ∅⟩ ops
    session.fs = run MemoryFileSystem.step MemoryFileSystem.new ops ∧
      (∀ id, (id ∈ session.fs.nodes ↔ id ∈ session.fs.vnodes) ∧
        (id ∈ session.fs.vnodes ↔ ∃ path, session.fs.paths.lookup path = some id)) ∧
      session.fs.paths.lookup ['/'] = some 0 ∧
      (∃ dir, session.fs.nodes.lookup 0 = some (.directory dir)) ∧
      (∀ path id, session.fs.paths.lookup path = some id →
        (∃ vnode, session.fs.vnodes.lookup id = some vnode ∧ vnode.id = id ∧ vnode.path = path) ∧
        (path ≠ ['/'] → ∃ parentPath parentId dir name, parent path = some parentPath ∧
          filename path = some name ∧ session.fs.paths.lookup parentPath = some parentId ∧
          session.fs.nodes.lookup parentId = some (.directory dir) ∧
          dir.entries.lookup name = some id)) ∧
      (∀ dirPath dirId dir name id, session.fs.paths.lookup dirPath = some dirId →
        session.fs.nodes.lookup dirId = some (.directory dir) → dir.entries.lookup name = some id →
        id ∈ session.fs.nodes ∧
          ∀ path, session.fs.paths.lookup path = some id ↔ path = join dirPath name) ∧
      ∀ path, (∃ vnode, session.fs.lookup path = .ok vnode) ↔
        ∃ normal, normalize path = .ok normal ∧ (normal = ['/'] ∨ normal ∈ session.created) := by
  intro session
  have sameFs : session.fs = run MemoryFileSystem.step MemoryFileSystem.new ops :=
    Session.run_fs _ ops
  have consistent : session.fs.Consistent := by
    rw [sameFs]
    exact MemoryFileSystem.consistent_run ops
  have tracked : session.Tracked := Session.tracked_run ops
  refine ⟨sameFs, fun id => ⟨?_, consistent.mem_vnodes_iff id⟩, consistent.root,
    consistent.rootDirectory, ?_, ?_, ?_⟩
  · rw [consistent.mem_nodes_iff, consistent.mem_vnodes_iff]
  · intro path id found
    obtain ⟨node, -, vnodeFound⟩ := consistent.stored path id found
    exact ⟨⟨_, vnodeFound, rfl, rfl⟩, consistent.linked path id found⟩
  · intro dirPath dirId dir name id dirPathFound dirFound entryFound
    have joinFound := consistent.entries _ _ _ _ _ dirPathFound dirFound entryFound
    exact ⟨(consistent.mem_nodes_iff id).mpr ⟨_, joinFound⟩,
      consistent.entry_iff dirPathFound dirFound entryFound⟩
  · intro path
    rw [consistent.lookup_ok_iff]
    exact exists_congr fun normal => and_congr_right fun _ => tracked normal

end FangaOS.Memfs
