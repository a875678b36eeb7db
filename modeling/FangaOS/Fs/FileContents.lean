import FangaOS.Fs.Memfs
import FangaOS.Lib.Run

/-! The bytes of a file of the in-memory file system.  `Contents` is what a file
holds, a size and a byte at every position, zero past the size; the `Vec<u8>`
of a `MemFile` refines it under `write` and `truncate`. -/

namespace FangaOS.Memfs

open StepMachine

/-- A file's bytes: `size` of them, and zero from `size` on. -/
@[ext]
structure Contents where
  size : Nat
  byte : Nat → UInt8
  zero_of_le : ∀ i, size ≤ i → byte i = 0

namespace Contents

/-- A write of `buffer` at `offset`; the gap past the old end reads as zero. -/
def write (contents : Contents) (offset : Nat) (buffer : List UInt8) : Contents where
  size := max contents.size (offset + buffer.length)
  byte i :=
    if offset ≤ i ∧ i < offset + buffer.length then buffer.getD (i - offset) 0
    else contents.byte i
  zero_of_le i beyond := by
    rw [if_neg (by omega)]
    exact contents.zero_of_le i (by omega)

/-- A truncate to `size`: the bytes past `size` are cleared, so that a later
growth reads them as zero. -/
def truncate (contents : Contents) (size : Nat) : Contents where
  size := size
  byte i := if i < size then contents.byte i else 0
  zero_of_le _ beyond := if_neg (by omega)

/-- A read of `buffer.length` bytes from `offset`: it stops at the end of the
file, and the bytes of the buffer past the count are left as they were. -/
def read (contents : Contents) (offset : Nat) (buffer : List UInt8) : Nat × List UInt8 :=
  let count := if contents.size ≤ offset then 0 else min buffer.length (contents.size - offset)
  (count, (List.range count).map (fun i => contents.byte (offset + i)) ++ buffer.drop count)

def toList (contents : Contents) : List UInt8 :=
  (List.range contents.size).map contents.byte

def ofData (data : List UInt8) : Contents where
  size := data.length
  byte i := data.getD i 0
  zero_of_le _ beyond := List.getD_eq_default _ _ beyond

@[simp] theorem ofData_size (data : List UInt8) : (ofData data).size = data.length := rfl

@[simp] theorem ofData_byte (data : List UInt8) (i : Nat) : (ofData data).byte i = data.getD i 0 :=
  rfl

theorem toList_ofData (data : List UInt8) : (ofData data).toList = data := by
  apply List.ext_getElem
  · simp [toList]
  · intro i inside _
    simp only [toList, List.getElem_map, List.getElem_range, ofData_byte]
    rw [List.getD_eq_getElem]

end Contents

/-! ### The list operations refine the abstract ones -/

theorem MemFile.write_data (file : MemFile) (offset : Nat) (buffer : List UInt8) :
    ∃ grown, (file.write offset buffer).2.data = Slice.overwrite grown offset buffer ∧
      grown.length = max file.data.length (offset + buffer.length) ∧
      ∀ i, grown.getD i 0 = file.data.getD i 0 := by
  unfold MemFile.write
  by_cases grows : offset + buffer.length > file.data.length
  · rw [if_pos grows]
    refine ⟨_, rfl, ?_, Slice.getD_resize_of_le (by omega) 0⟩
    rw [Slice.length_resize]
    omega
  · rw [if_neg grows]
    exact ⟨_, rfl, by omega, fun _ => rfl⟩

theorem MemFile.write_refines (file : MemFile) (offset : Nat) (buffer : List UInt8) :
    Contents.ofData (file.write offset buffer).2.data =
      (Contents.ofData file.data).write offset buffer := by
  obtain ⟨grown, written, grownLength, grownBytes⟩ := file.write_data offset buffer
  have fits : offset + buffer.length ≤ grown.length := by omega
  apply Contents.ext
  · rw [written, Contents.ofData_size, Slice.length_overwrite fits, grownLength]
    rfl
  · funext i
    rw [written, Contents.ofData_byte, Slice.getD_overwrite fits, grownBytes]
    rfl

theorem MemFile.truncate_refines (file : MemFile) (size : Nat) :
    Contents.ofData (file.truncate size).data = (Contents.ofData file.data).truncate size := by
  apply Contents.ext
  · exact Slice.length_resize _ _ _
  · funext i
    exact Slice.getD_resize _ _ _ _

theorem MemFile.read_refines (file : MemFile) (offset : Nat) (buffer : List UInt8) :
    file.read offset buffer = (Contents.ofData file.data).read offset buffer := by
  unfold MemFile.read Contents.read
  by_cases beyond : offset ≥ file.data.length
  · rw [if_pos beyond, Contents.ofData_size, if_pos beyond]
    rfl
  · rw [if_neg beyond, Contents.ofData_size, if_neg beyond]
    -- the count of bytes read is at most the buffer's length, so the copy fits
    have fits : 0 + ((file.data.drop offset).take (min buffer.length
        (file.data.length - offset))).length ≤ buffer.length := by
      simp
    refine Prod.ext rfl (List.ext_getElem? fun i => ?_)
    rw [Slice.getElem?_overwrite fits]
    by_cases copied : i < min buffer.length (file.data.length - offset)
    · have inRange : 0 ≤ i ∧ i < 0 + ((file.data.drop offset).take (min buffer.length
          (file.data.length - offset))).length := by
        simp only [List.length_take, List.length_drop]
        omega
      rw [if_pos inRange, Nat.sub_zero, List.getElem?_append_left (by simpa using copied),
        List.getElem?_map, List.getElem?_range copied, List.getElem?_take_of_lt copied,
        List.getElem?_drop]
      simp only [Option.map_some, Contents.ofData_byte]
      rw [List.getD_eq_getElem _ _ (by omega), List.getElem?_eq_getElem (by omega)]
    · have outOfRange : ¬ (0 ≤ i ∧ i < 0 + ((file.data.drop offset).take (min buffer.length
          (file.data.length - offset))).length) := by
        simp only [List.length_take, List.length_drop]
        omega
      rw [if_neg outOfRange, List.getElem?_append_right (by simp; omega), List.getElem?_drop,
        List.length_map, List.length_range]
      congr 1
      omega

/-! ### Runs of writes and truncates on one file -/

inductive FileOp
  | write (offset : Nat) (buffer : List UInt8)
  | truncate (size : Nat)

def Contents.step (contents : Contents) : FileOp → Contents
  | .write offset buffer => contents.write offset buffer
  | .truncate size => contents.truncate size

/-- A call on the file system for the file of `vnode`. -/
def MemoryFileSystem.fileStep (vnode : VNode) (fs : MemoryFileSystem) : FileOp → MemoryFileSystem
  | .write offset buffer => (fs.write vnode offset buffer).2
  | .truncate size => (fs.truncate vnode size).2

/-- The node of `vnode` is a file whose bytes are `contents`. -/
def HoldsContents (vnode : VNode) (fs : MemoryFileSystem) (contents : Contents) : Prop :=
  ∃ file, fs.nodes.lookup vnode.id = some (.file file) ∧ Contents.ofData file.data = contents

section OneFile

variable {fs : MemoryFileSystem} {vnode : VNode} {file : MemFile}

theorem MemoryFileSystem.write_of_file (isFile : fs.nodes.lookup vnode.id = some (.file file))
    (offset : Nat) (buffer : List UInt8) :
    fs.write vnode offset buffer =
      (.ok buffer.length,
        { fs with nodes := fs.nodes.insert vnode.id (.file (file.write offset buffer).2) }) := by
  unfold MemoryFileSystem.write
  rw [isFile]
  rfl

theorem MemoryFileSystem.truncate_of_file (isFile : fs.nodes.lookup vnode.id = some (.file file))
    (size : Nat) :
    fs.truncate vnode size =
      (.ok (), { fs with nodes := fs.nodes.insert vnode.id (.file (file.truncate size)) }) := by
  unfold MemoryFileSystem.truncate
  rw [isFile]

theorem holdsContents_simulation (vnode : VNode) :
    Simulation (MemoryFileSystem.fileStep vnode) Contents.step (HoldsContents vnode) := by
  rintro fs _ op ⟨file, isFile, rfl⟩
  cases op with
  | write offset buffer =>
      refine ⟨(file.write offset buffer).2, ?_, file.write_refines offset buffer⟩
      rw [MemoryFileSystem.fileStep, MemoryFileSystem.write_of_file isFile]
      exact Finmap.lookup_insert _
  | truncate size =>
      refine ⟨file.truncate size, ?_, file.truncate_refines size⟩
      rw [MemoryFileSystem.fileStep, MemoryFileSystem.truncate_of_file isFile]
      exact Finmap.lookup_insert _

end OneFile

theorem memfs_file_contents (fs : MemoryFileSystem) (vnode : VNode) (file : MemFile)
    (isFile : fs.nodes.lookup vnode.id = some (.file file)) (ops : List FileOp) :
    let after : MemoryFileSystem := run (MemoryFileSystem.fileStep vnode) fs ops
    let reference : Contents := run Contents.step (Contents.ofData file.data) ops
    (∃ file', after.nodes.lookup vnode.id = some (.file file') ∧ file'.data = reference.toList) ∧
      (∀ offset buffer, (after.write vnode offset buffer).1 = .ok buffer.length) ∧
      after.stat vnode = .ok ⟨reference.size, .file⟩ ∧
      ∀ offset buffer, after.read vnode offset buffer = .ok (reference.read offset buffer) := by
  intro after reference
  have related : HoldsContents vnode after reference :=
    (holdsContents_simulation vnode).run ⟨file, isFile, rfl⟩ ops
  obtain ⟨file', isFile', holds⟩ := related
  refine ⟨⟨file', isFile', by rw [← holds, Contents.toList_ofData]⟩, fun offset buffer => ?_,
    ?_, fun offset buffer => ?_⟩
  · rw [MemoryFileSystem.write_of_file isFile']
  · rw [← holds]
    unfold MemoryFileSystem.stat
    rw [isFile']
    rfl
  · rw [← holds]
    unfold MemoryFileSystem.read
    rw [isFile']
    exact congrArg Except.ok (file'.read_refines offset buffer)

theorem memfs_file_contents_new_file :
    let fs : MemoryFileSystem := (MemoryFileSystem.new.create ['/', 'f'] .file).2
    let vnode : VNode := ⟨1, .file, ['/', 'f']⟩
    let ops : List FileOp := [.write 2 [7, 8], .truncate 3, .write 5 [9]]
    fs.nodes.lookup vnode.id = some (.file MemFile.new) ∧
      (run (MemoryFileSystem.fileStep vnode) fs ops).read vnode 0 [1, 1, 1, 1, 1, 1, 1] =
        .ok ((run Contents.step (Contents.ofData MemFile.new.data) ops).read 0
          [1, 1, 1, 1, 1, 1, 1]) := by
  intro fs vnode ops
  have isFile : fs.nodes.lookup vnode.id = some (.file MemFile.new) := by decide
  exact ⟨isFile, (memfs_file_contents fs vnode MemFile.new isFile ops).2.2.2 0 _⟩

/-- The byte that the truncate cut off reads as zero once the file grows again. -/
example :
    let fs : MemoryFileSystem := (MemoryFileSystem.new.create ['/', 'f'] .file).2
    let vnode : VNode := ⟨1, .file, ['/', 'f']⟩
    (run (MemoryFileSystem.fileStep vnode) fs [.write 2 [7, 8], .truncate 3, .write 5 [9]]).read
      vnode 0 [1, 1, 1, 1, 1, 1, 1] = .ok (6, [0, 0, 7, 0, 0, 9, 1]) := by
  decide

end FangaOS.Memfs
