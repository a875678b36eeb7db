import Mathlib.Data.Finmap
import FangaOS.Fs.Path
import FangaOS.Lib.Slice

/-! The in-memory file system of `fs/memfs.rs`, which keeps its namespace four
times over: paths, vnodes, nodes and the entries of each directory.  `BTreeMap`
is `Finmap`, `u64` and `usize` are `Nat`, a `Vec` is a list and a string a list
of characters. -/

namespace FangaOS.Memfs

open FangaOS.Path

inductive FsError
  | notFound
  | alreadyExists
  | notADirectory
  | isADirectory
  | invalidPath
  | permissionDenied
  | directoryNotEmpty
  | noSpace
  | invalidArgument
  | ioError
  deriving DecidableEq, Repr

inductive VNodeType
  | file
  | directory
  deriving DecidableEq, Repr

structure VNode where
  id : Nat
  vtype : VNodeType
  path : List Char
  deriving DecidableEq, Repr

structure VNodeAttr where
  size : Nat
  vtype : VNodeType
  deriving DecidableEq, Repr

structure MemFile where
  data : List UInt8
  deriving DecidableEq

def MemFile.new : MemFile := ⟨[]⟩

/-- `MemFile::read`: the count of bytes read and the buffer after the call, whose
first bytes the file's bytes from `offset` on overwrite. -/
def MemFile.read (file : MemFile) (offset : Nat) (buffer : List UInt8) : Nat × List UInt8 :=
  if offset ≥ file.data.length then (0, buffer)
  else
    let available := file.data.length - offset
    let toRead := min buffer.length available
    (toRead, Slice.overwrite buffer 0 ((file.data.drop offset).take toRead))

/-- `MemFile::write`: zero-extend the file to the end of the write, then copy the
buffer in. -/
def MemFile.write (file : MemFile) (offset : Nat) (buffer : List UInt8) : Nat × MemFile :=
  let data :=
    if offset + buffer.length > file.data.length then
      Slice.resize file.data (offset + buffer.length) 0
    else file.data
  (buffer.length, ⟨Slice.overwrite data offset buffer⟩)

def MemFile.size (file : MemFile) : Nat :=
  file.data.length

def MemFile.truncate (file : MemFile) (size : Nat) : MemFile :=
  ⟨Slice.resize file.data size 0⟩

/-- `MemDir`: the entries of a directory, from name to vnode id. -/
structure MemDir where
  entries : Finmap (fun _ : List Char => Nat)
  deriving DecidableEq

def MemDir.new : MemDir := ⟨∅⟩

def MemDir.addEntry (dir : MemDir) (name : List Char) (vnodeId : Nat) : Except FsError MemDir :=
  if name ∈ dir.entries then .error .alreadyExists else .ok ⟨dir.entries.insert name vnodeId⟩

def MemDir.removeEntry (dir : MemDir) (name : List Char) : Except FsError (Nat × MemDir) :=
  match dir.entries.lookup name with
  | some vnodeId => .ok (vnodeId, ⟨dir.entries.erase name⟩)
  | none => .error .notFound

def MemDir.isEmpty (dir : MemDir) : Bool :=
  decide (dir.entries = ∅)

inductive MemNode
  | file (file : MemFile)
  | directory (dir : MemDir)
  deriving DecidableEq

def MemNode.vtype : MemNode → VNodeType
  | .file _ => .file
  | .directory _ => .directory

/-- The node that `create` makes for a vnode type. -/
def MemNode.ofType : VNodeType → MemNode
  | .file => .file MemFile.new
  | .directory => .directory MemDir.new

structure MemoryFileSystem where
  nodes : Finmap (fun _ : Nat => MemNode)
  vnodes : Finmap (fun _ : Nat => VNode)
  paths : Finmap (fun _ : List Char => Nat)
  nextId : Nat

/-- `MemoryFileSystem::new`: the root directory `/` with id `0`. -/
def MemoryFileSystem.new : MemoryFileSystem where
  nodes := Finmap.singleton 0 (.directory MemDir.new)
  vnodes := Finmap.singleton 0 ⟨0, .directory, ['/']⟩
  paths := Finmap.singleton ['/'] 0
  nextId := 1

def MemoryFileSystem.allocId (fs : MemoryFileSystem) : Nat × MemoryFileSystem :=
  (fs.nextId, { fs with nextId := fs.nextId + 1 })

def MemoryFileSystem.lookup (fs : MemoryFileSystem) (path : List Char) : Except FsError VNode :=
  match normalize path with
  | .error _ => .error .invalidPath
  | .ok path =>
      match fs.paths.lookup path with
      | none => .error .notFound
      | some vnodeId =>
          match fs.vnodes.lookup vnodeId with
          | some vnode => .ok vnode
          | none => .error .notFound

/-- `create`, with the state after the call, which a failure after `alloc_id`
has changed. -/
def MemoryFileSystem.create (fs : MemoryFileSystem) (path : List Char) (vtype : VNodeType) :
    Except FsError VNode × MemoryFileSystem :=
  match normalize path with
  | .error _ => (.error .invalidPath, fs)
  | .ok path =>
      if path ∈ fs.paths then (.error .alreadyExists, fs)
      else
        match parent path with
        | none => (.error .invalidPath, fs)
        | some parentPath =>
            match fs.paths.lookup parentPath with
            | none => (.error .notFound, fs)
            | some parentId =>
                match fs.nodes.lookup parentId with
                | some (.directory _) =>
                    let (id, fs) := fs.allocId
                    match filename path with
                    | none => (.error .invalidPath, fs)
                    | some name =>
                        let vnode : VNode := ⟨id, vtype, path⟩
                        match fs.nodes.lookup parentId with
                        | some (.directory parentDir) =>
                            match parentDir.addEntry name id with
                            | .error error => (.error error, fs)
                            | .ok parentDir =>
                                (.ok vnode,
                                  { fs with
                                    nodes := (fs.nodes.insert parentId (.directory parentDir)).insert
                                      id (MemNode.ofType vtype)
                                    vnodes := fs.vnodes.insert id vnode
                                    paths := fs.paths.insert path id })
                        | _ => (.error .notADirectory, fs)
                | _ => (.error .notADirectory, fs)

def MemoryFileSystem.nonEmptyDirectory (fs : MemoryFileSystem) (vnodeId : Nat) : Bool :=
  match fs.nodes.lookup vnodeId with
  | some (.directory dir) => !dir.isEmpty
  | _ => false

def MemoryFileSystem.remove (fs : MemoryFileSystem) (path : List Char) :
    Except FsError Unit × MemoryFileSystem :=
  match normalize path with
  | .error _ => (.error .invalidPath, fs)
  | .ok path =>
      if path = ['/'] then (.error .invalidArgument, fs)
      else
        match fs.paths.lookup path with
        | none => (.error .notFound, fs)
        | some vnodeId =>
            if fs.nonEmptyDirectory vnodeId then (.error .directoryNotEmpty, fs)
            else
              match parent path with
              | none => (.error .invalidPath, fs)
              | some parentPath =>
                  match fs.paths.lookup parentPath with
                  | none => (.error .notFound, fs)
                  | some parentId =>
                      match filename path with
                      | none => (.error .invalidPath, fs)
                      | some name =>
                          match fs.nodes.lookup parentId with
                          | some (.directory parentDir) =>
                              match parentDir.removeEntry name with
                              | .error error => (.error error, fs)
                              | .ok (_, parentDir) =>
                                  (.ok (),
                                    { fs with
                                      nodes := (fs.nodes.insert parentId
                                        (.directory parentDir)).erase vnodeId
                                      vnodes := fs.vnodes.erase vnodeId
                                      paths := fs.paths.erase path })
                          | _ => (.error .notADirectory, fs)

def MemoryFileSystem.read (fs : MemoryFileSystem) (vnode : VNode) (offset : Nat)
    (buffer : List UInt8) : Except FsError (Nat × List UInt8) :=
  match fs.nodes.lookup vnode.id with
  | some (.file file) => .ok (file.read offset buffer)
  | some (.directory _) => .error .isADirectory
  | none => .error .notFound

def MemoryFileSystem.write (fs : MemoryFileSystem) (vnode : VNode) (offset : Nat)
    (buffer : List UInt8) : Except FsError Nat × MemoryFileSystem :=
  match fs.nodes.lookup vnode.id with
  | some (.file file) =>
      let (written, file) := file.write offset buffer
      (.ok written, { fs with nodes := fs.nodes.insert vnode.id (.file file) })
  | some (.directory _) => (.error .isADirectory, fs)
  | none => (.error .notFound, fs)

def MemoryFileSystem.stat (fs : MemoryFileSystem) (vnode : VNode) : Except FsError VNodeAttr :=
  match fs.nodes.lookup vnode.id with
  | some (.file file) => .ok ⟨file.size, .file⟩
  | some (.directory _) => .ok ⟨0, .directory⟩
  | none => .error .notFound

def MemoryFileSystem.truncate (fs : MemoryFileSystem) (vnode : VNode) (size : Nat) :
    Except FsError Unit × MemoryFileSystem :=
  match fs.nodes.lookup vnode.id with
  | some (.file file) =>
      (.ok (), { fs with nodes := fs.nodes.insert vnode.id (.file (file.truncate size)) })
  | some (.directory _) => (.error .isADirectory, fs)
  | none => (.error .notFound, fs)

inductive FsOp
  | create (path : List Char) (vtype : VNodeType)
  | remove (path : List Char)

def MemoryFileSystem.step (fs : MemoryFileSystem) : FsOp → MemoryFileSystem
  | .create path vtype => (fs.create path vtype).2
  | .remove path => (fs.remove path).2

/-! ### What each call does -/

theorem MemoryFileSystem.create_ok {fs : MemoryFileSystem} {path : List Char} {vtype : VNodeType}
    {vnode : VNode} {after : MemoryFileSystem} (created : fs.create path vtype = (.ok vnode, after)) :
    ∃ normal parentPath parentId dir name,
      normalize path = .ok normal ∧ normal ∉ fs.paths ∧ parent normal = some parentPath ∧
      fs.paths.lookup parentPath = some parentId ∧ fs.nodes.lookup parentId = some (.directory dir) ∧
      filename normal = some name ∧ name ∉ dir.entries ∧ vnode = ⟨fs.nextId, vtype, normal⟩ ∧
      after =
        { nodes := (fs.nodes.insert parentId (.directory ⟨dir.entries.insert name fs.nextId⟩)).insert
            fs.nextId (MemNode.ofType vtype)
          vnodes := fs.vnodes.insert fs.nextId vnode
          paths := fs.paths.insert normal fs.nextId
          nextId := fs.nextId + 1 } := by
  unfold MemoryFileSystem.create at created
  split at created
  · cases created
  rename_i normal normalized
  split_ifs at created with present
  · cases created
  split at created
  · cases created
  rename_i parentPath parentFound
  split at created
  · cases created
  rename_i parentId parentIdFound
  split at created
  · rename_i dir dirFound
    dsimp only [MemoryFileSystem.allocId] at created
    split at created
    · cases created
    rename_i name nameFound
    rw [dirFound] at created
    dsimp only at created
    unfold MemDir.addEntry at created
    split_ifs at created with taken
    · cases created
    dsimp only at created
    cases created
    exact ⟨normal, parentPath, parentId, dir, name, normalized, present, parentFound, parentIdFound,
      dirFound, nameFound, taken, rfl, rfl⟩
  · cases created

theorem MemoryFileSystem.create_error {fs : MemoryFileSystem} {path : List Char}
    {vtype : VNodeType} {error : FsError} {after : MemoryFileSystem}
    (failed : fs.create path vtype = (.error error, after)) :
    after = fs ∨ after = fs.allocId.2 := by
  unfold MemoryFileSystem.create at failed
  split at failed
  · cases failed
    exact Or.inl rfl
  split_ifs at failed
  · cases failed
    exact Or.inl rfl
  split at failed
  · cases failed
    exact Or.inl rfl
  split at failed
  · cases failed
    exact Or.inl rfl
  split at failed
  · dsimp only [MemoryFileSystem.allocId] at failed
    split at failed
    · cases failed
      exact Or.inr rfl
    split at failed
    · unfold MemDir.addEntry at failed
      split_ifs at failed
      · cases failed
        exact Or.inr rfl
      · cases failed
    · cases failed
      exact Or.inr rfl
  · cases failed
    exact Or.inl rfl

theorem MemoryFileSystem.remove_ok {fs : MemoryFileSystem} {path : List Char}
    {after : MemoryFileSystem} (removed : fs.remove path = (.ok (), after)) :
    ∃ normal vnodeId parentPath parentId dir name,
      normalize path = .ok normal ∧ normal ≠ ['/'] ∧ fs.paths.lookup normal = some vnodeId ∧
      (∀ sub, fs.nodes.lookup vnodeId = some (.directory sub) → sub.entries = ∅) ∧
      parent normal = some parentPath ∧ fs.paths.lookup parentPath = some parentId ∧
      filename normal = some name ∧ fs.nodes.lookup parentId = some (.directory dir) ∧
      name ∈ dir.entries ∧
      after =
        { fs with
          nodes := (fs.nodes.insert parentId (.directory ⟨dir.entries.erase name⟩)).erase vnodeId
          vnodes := fs.vnodes.erase vnodeId
          paths := fs.paths.erase normal } := by
  unfold MemoryFileSystem.remove at removed
  split at removed
  · cases removed
  rename_i normal normalized
  split_ifs at removed with root
  · cases removed
  split at removed
  · cases removed
  rename_i vnodeId found
  split_ifs at removed with notEmpty
  · cases removed
  have empty : ∀ sub, fs.nodes.lookup vnodeId = some (.directory sub) → sub.entries = ∅ := by
    intro sub isDirectory
    simpa [MemoryFileSystem.nonEmptyDirectory, isDirectory, MemDir.isEmpty] using notEmpty
  split at removed
  · cases removed
  rename_i parentPath parentFound
  split at removed
  · cases removed
  rename_i parentId parentIdFound
  split at removed
  · cases removed
  rename_i name nameFound
  split at removed
  · rename_i dir dirFound
    unfold MemDir.removeEntry at removed
    cases entryFound : dir.entries.lookup name with
    | none =>
        rw [entryFound] at removed
        cases removed
    | some entryId =>
        rw [entryFound] at removed
        dsimp only at removed
        cases removed
        exact ⟨normal, vnodeId, parentPath, parentId, dir, name, normalized, root, found, empty,
          parentFound, parentIdFound, nameFound, dirFound, Finmap.mem_iff.mpr ⟨entryId, entryFound⟩,
          rfl⟩
  · cases removed

theorem MemoryFileSystem.remove_error {fs : MemoryFileSystem} {path : List Char}
    {error : FsError} {after : MemoryFileSystem} (failed : fs.remove path = (.error error, after)) :
    after = fs := by
  unfold MemoryFileSystem.remove at failed
  split at failed
  · exact (Prod.mk.inj failed).2.symm
  split_ifs at failed
  · exact (Prod.mk.inj failed).2.symm
  split at failed
  · exact (Prod.mk.inj failed).2.symm
  split_ifs at failed
  · exact (Prod.mk.inj failed).2.symm
  split at failed
  · exact (Prod.mk.inj failed).2.symm
  split at failed
  · exact (Prod.mk.inj failed).2.symm
  split at failed
  · exact (Prod.mk.inj failed).2.symm
  rename_i name nameFound
  split at failed
  · rename_i dir dirFound
    unfold MemDir.removeEntry at failed
    cases entryFound : dir.entries.lookup name with
    | none =>
        rw [entryFound] at failed
        exact (Prod.mk.inj failed).2.symm
    | some entryId =>
        rw [entryFound] at failed
        cases failed
  · exact (Prod.mk.inj failed).2.symm

end FangaOS.Memfs
