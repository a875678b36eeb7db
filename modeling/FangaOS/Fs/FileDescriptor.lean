import Mathlib
import FangaOS.Lib.MachineInt
import FangaOS.Lib.Run
import FangaOS.Fs.Memfs

/-! File descriptors and the descriptor table of `fs/file_descriptor.rs`.  `usize`
offsets and sizes are `UInt64`, `i64` is `Int64`, `i32` is `Int32` and the
`BTreeMap` is a `Finmap`; the global map from process ids to tables is left
out. -/

namespace FangaOS.Fd

open StepMachine FangaOS.Memfs

structure OpenFlags where
  read : Bool
  write : Bool
  create : Bool
  truncate : Bool
  append : Bool
  deriving DecidableEq, Repr

inductive SeekWhence
  | start
  | current
  | «end»
  deriving DecidableEq, Repr

structure FileDescriptor where
  vnode : VNode
  flags : OpenFlags
  offset : UInt64
  deriving DecidableEq, Repr

def FileDescriptor.new (vnode : VNode) (flags : OpenFlags) : FileDescriptor :=
  ⟨vnode, flags, 0⟩

/-- The offset that `seek` computes, or its error. -/
def FileDescriptor.newOffset (fd : FileDescriptor) (offset : Int64) (whence : SeekWhence)
    (fileSize : UInt64) : Except String UInt64 :=
  match whence with
  | .start => if offset < 0 then .error "Negative offset from start" else .ok offset.toUInt64
  | .current =>
      let new := fd.offset.toInt64 + offset
      if new < 0 then .error "Offset before start of file" else .ok new.toUInt64
  | .«end» =>
      let new := fileSize.toInt64 + offset
      if new < 0 then .error "Offset before start of file" else .ok new.toUInt64

/-- `seek`: the new offset and the descriptor that now holds it. -/
def FileDescriptor.seek (fd : FileDescriptor) (offset : Int64) (whence : SeekWhence)
    (fileSize : UInt64) : Except String (UInt64 × FileDescriptor) :=
  (fd.newOffset offset whence fileSize).map fun newOffset => (newOffset, { fd with offset := newOffset })

structure FileDescriptorTable where
  descriptors : Finmap (fun _ : Int32 => FileDescriptor)
  nextFd : Int32

namespace FileDescriptorTable

def new : FileDescriptorTable :=
  ⟨∅, 0⟩

/-- The search loop of `alloc`: step `next_fd` past the numbers in use, giving up
at `i32::MAX`. -/
def findFree (descriptors : Finmap (fun _ : Int32 => FileDescriptor)) (nextFd : Int32) :
    Except String Int32 :=
  if nextFd ∈ descriptors then
    if nextFd + 1 = Int32.maxValue then .error "Too many open files"
    else findFree descriptors (nextFd + 1)
  else .ok nextFd
termination_by if nextFd = Int32.maxValue then 2 ^ 32 else (2 ^ 31 - 1 - nextFd.toInt).toNat
decreasing_by
  have above := nextFd.le_toInt
  have below := nextFd.toInt_le
  rw [Int32.toInt_maxValue] at below
  by_cases atMax : nextFd = Int32.maxValue
  · subst atMax
    rw [if_neg (by assumption), if_pos rfl, Int32.maxValue_add_one, Int32.toInt_minValue]
    omega
  · have notMax : nextFd.toInt ≠ 2 ^ 31 - 1 := fun same =>
      atMax (Int32.toInt_inj.mp (by rw [same, Int32.toInt_maxValue]))
    rw [if_neg (by assumption), if_neg atMax, Int32.toInt_add_one (by omega)]
    omega

/-- `alloc`: the number handed out, or the error of a search that reached
`i32::MAX`, which leaves `next_fd` there. -/
def alloc (table : FileDescriptorTable) (fd : FileDescriptor) :
    Except String Int32 × FileDescriptorTable :=
  match findFree table.descriptors table.nextFd with
  | .error message => (.error message, { table with nextFd := Int32.maxValue })
  | .ok fdNum => (.ok fdNum, ⟨table.descriptors.insert fdNum fd, fdNum + 1⟩)

def get (table : FileDescriptorTable) (fdNum : Int32) : Option FileDescriptor :=
  table.descriptors.lookup fdNum

def close (table : FileDescriptorTable) (fdNum : Int32) : Except String FileDescriptorTable :=
  if fdNum ∈ table.descriptors then .ok { table with descriptors := table.descriptors.erase fdNum }
  else .error "Invalid file descriptor"

def count (table : FileDescriptorTable) : Nat :=
  table.descriptors.keys.card

def contains (table : FileDescriptorTable) (fdNum : Int32) : Bool :=
  decide (fdNum ∈ table.descriptors)

theorem findFree_of_free {descriptors : Finmap (fun _ : Int32 => FileDescriptor)} {nextFd : Int32}
    (free : nextFd ∉ descriptors) : findFree descriptors nextFd = .ok nextFd := by
  rw [findFree, if_neg free]

theorem alloc_of_free {table : FileDescriptorTable} (free : table.nextFd ∉ table.descriptors)
    (fd : FileDescriptor) :
    table.alloc fd = (.ok table.nextFd,
      ⟨table.descriptors.insert table.nextFd fd, table.nextFd + 1⟩) := by
  rw [alloc, findFree_of_free free]

end FileDescriptorTable

/-! ### Seeking -/

def SeekWhence.base (whence : SeekWhence) (fd : FileDescriptor) (fileSize : UInt64) : UInt64 :=
  match whence with
  | .start => 0
  | .current => fd.offset
  | .«end» => fileSize

def SeekWhence.error : SeekWhence → String
  | .start => "Negative offset from start"
  | .current => "Offset before start of file"
  | .«end» => "Offset before start of file"

theorem checkedSum_eq {base : UInt64} (small : base.toNat < 2 ^ 63) (offset : Int64)
    (message : String) :
    (if base.toInt64 + offset < 0 then (.error message : Except String UInt64)
      else .ok (base.toInt64 + offset).toUInt64) =
    if 0 ≤ (base.toNat : Int) + offset.toInt ∧ (base.toNat : Int) + offset.toInt < 2 ^ 63 then
      .ok (UInt64.ofNat ((base.toNat : Int) + offset.toInt).toNat)
    else .error message := by
  have baseInt := UInt64.toInt_toInt64 small
  have nonneg : 0 ≤ base.toInt64.toInt := by
    rw [baseInt]
    omega
  have sumNonneg := Int64.nonneg_add_iff (b := offset) nonneg
  rw [baseInt] at sumNonneg
  by_cases fits : 0 ≤ (base.toNat : Int) + offset.toInt ∧ (base.toNat : Int) + offset.toInt < 2 ^ 63
  · have accepted := sumNonneg.mpr fits
    have notNegative : ¬ base.toInt64 + offset < 0 := by
      rw [Int64.lt_iff_toInt_lt, Int64.toInt_zero]
      omega
    rw [if_neg notNegative, if_pos fits, Int64.toUInt64_eq_ofNat accepted,
      Int64.toInt_add_of_nonneg nonneg accepted, baseInt]
  · have negative : base.toInt64 + offset < 0 := by
      rw [Int64.lt_iff_toInt_lt, Int64.toInt_zero]
      by_contra notNegative
      exact fits (sumNonneg.mp (by omega))
    rw [if_pos negative, if_neg fits]

/-- `seek` from a base below `2^63` is the exact sum of the base and the
offset, checked to lie in `[0, 2^63)`: the `i64` arithmetic never wraps into an
accepted offset. -/
theorem FileDescriptor.seek_eq (fd : FileDescriptor) (offset : Int64) (whence : SeekWhence)
    (fileSize : UInt64) (small : (whence.base fd fileSize).toNat < 2 ^ 63) :
    fd.seek offset whence fileSize =
      let target : Int := (whence.base fd fileSize).toNat + offset.toInt
      if 0 ≤ target ∧ target < 2 ^ 63 then
        .ok (UInt64.ofNat target.toNat, { fd with offset := UInt64.ofNat target.toNat })
      else .error whence.error := by
  have offsetEq : fd.newOffset offset whence fileSize =
      let target : Int := (whence.base fd fileSize).toNat + offset.toInt
      if 0 ≤ target ∧ target < 2 ^ 63 then .ok (UInt64.ofNat target.toNat)
      else .error whence.error := by
    cases whence with
    | start =>
        have below := offset.toInt_le
        rw [Int64.toInt_maxValue] at below
        by_cases negative : offset < 0
        · rw [Int64.lt_iff_toInt_lt, Int64.toInt_zero] at negative
          simp [FileDescriptor.newOffset, SeekWhence.base, SeekWhence.error,
            Int64.lt_iff_toInt_lt, negative, Int.not_le.mpr negative]
        · rw [Int64.lt_iff_toInt_lt, Int64.toInt_zero, Int.not_lt] at negative
          simp [FileDescriptor.newOffset, SeekWhence.base, Int64.lt_iff_toInt_lt,
            Int.not_lt.mpr negative, negative, Int64.toUInt64_eq_ofNat negative]
          omega
    | current => exact checkedSum_eq small offset _
    | «end» => exact checkedSum_eq small offset _
  unfold FileDescriptor.seek
  rw [offsetEq]
  dsimp only
  split <;> rfl

/-! ### Numbering along runs -/

inductive FdOp
  | alloc (fd : FileDescriptor)
  | close (fdNum : Int32)
  deriving DecidableEq, Repr

def FdOp.isAlloc : FdOp → Bool
  | .alloc _ => true
  | .close _ => false

/-- A descriptor table with the numbers that its `alloc` calls handed out and
its `close` calls released, in order. -/
structure FdSession where
  table : FileDescriptorTable
  allocated : List Int32
  closed : List Int32

def FdSession.start : FdSession :=
  ⟨FileDescriptorTable.new, [], []⟩

def FdSession.step (session : FdSession) : FdOp → FdSession
  | .alloc fd =>
      let (result, table) := session.table.alloc fd
      { session with table, allocated := session.allocated ++ result.toOption.toList }
  | .close fdNum =>
      match session.table.close fdNum with
      | .ok table => { session with table, closed := session.closed ++ [fdNum] }
      | .error _ => session

def FdSession.run (session : FdSession) (ops : List FdOp) : FdSession :=
  StepMachine.run FdSession.step session ops

def numbers (count : Nat) : List Int32 :=
  (List.range count).map Int32.ofNat

theorem mem_numbers {count : Nat} (fits : count ≤ 2 ^ 31) (fdNum : Int32) :
    fdNum ∈ numbers count ↔ 0 ≤ fdNum.toInt ∧ fdNum.toInt < count := by
  unfold numbers
  rw [List.mem_map]
  constructor
  · rintro ⟨index, inRange, rfl⟩
    rw [List.mem_range] at inRange
    rw [Int32.toInt_ofNat_of_lt (by omega)]
    omega
  · rintro ⟨nonneg, below⟩
    refine ⟨fdNum.toInt.toNat, List.mem_range.mpr (by omega), Int32.toInt_inj.mp ?_⟩
    rw [Int32.toInt_ofNat_of_lt (by omega)]
    omega

theorem numbers_succ (count : Nat) : numbers (count + 1) = numbers count ++ [Int32.ofNat count] := by
  simp [numbers, List.range_succ]

/-- While fewer than `2^31` numbers have been handed out, they are `0, 1, …` in
order and the table holds those not closed. -/
structure FdSession.Numbered (session : FdSession) : Prop where
  fits : session.allocated.length ≤ 2 ^ 31 - 1
  nextFd_eq : session.table.nextFd.toInt = session.allocated.length
  allocated_eq : session.allocated = numbers session.allocated.length
  closed_allocated : ∀ fdNum ∈ session.closed, fdNum ∈ session.allocated
  open_iff : ∀ fdNum, fdNum ∈ session.table.descriptors ↔
    fdNum ∈ session.allocated ∧ fdNum ∉ session.closed

theorem FdSession.numbered_start : FdSession.start.Numbered where
  fits := by simp [start]
  nextFd_eq := rfl
  allocated_eq := rfl
  closed_allocated := by simp [start]
  open_iff fdNum := by simpa [start, FileDescriptorTable.new] using Finmap.notMem_empty

section Steps

variable {session : FdSession}

theorem FdSession.Numbered.nextFd_not_allocated (numbered : session.Numbered) :
    session.table.nextFd ∉ session.allocated := by
  intro handed
  rw [numbered.allocated_eq, mem_numbers (by have := numbered.fits; omega),
    numbered.nextFd_eq] at handed
  omega

theorem FdSession.Numbered.nextFd_free (numbered : session.Numbered) :
    session.table.nextFd ∉ session.table.descriptors := fun used =>
  numbered.nextFd_not_allocated ((numbered.open_iff _).mp used).1

theorem FdSession.Numbered.step_alloc (numbered : session.Numbered) (fd : FileDescriptor) :
    session.step (.alloc fd) =
      { session with
        table := ⟨session.table.descriptors.insert session.table.nextFd fd, session.table.nextFd + 1⟩
        allocated := session.allocated ++ [session.table.nextFd] } := by
  simp [FdSession.step, FileDescriptorTable.alloc_of_free numbered.nextFd_free, Except.toOption]

theorem FdSession.allocated_close (session : FdSession) (fdNum : Int32) :
    (session.step (.close fdNum)).allocated = session.allocated := by
  unfold FdSession.step FileDescriptorTable.close
  dsimp only
  split_ifs <;> rfl

theorem FdSession.Numbered.alloc (numbered : session.Numbered)
    (room : session.allocated.length + 1 ≤ 2 ^ 31 - 1) (fd : FileDescriptor) :
    (session.step (.alloc fd)).Numbered := by
  have next : session.table.nextFd = Int32.ofNat session.allocated.length :=
    Int32.toInt_inj.mp (by rw [numbered.nextFd_eq, Int32.toInt_ofNat_of_lt (by omega)])
  have unclosed : session.table.nextFd ∉ session.closed := fun closed =>
    numbered.nextFd_not_allocated (numbered.closed_allocated _ closed)
  simp only [FdSession.step, FileDescriptorTable.alloc_of_free numbered.nextFd_free]
  refine ⟨by simpa [Except.toOption] using room, ?_, ?_, ?_, ?_⟩
  · simp only [Except.toOption, Option.toList_some, List.length_append, List.length_singleton]
    rw [Int32.toInt_add_one (by rw [numbered.nextFd_eq]; omega), numbered.nextFd_eq]
    push_cast
    rfl
  · simp only [Except.toOption, Option.toList_some, List.length_append, List.length_singleton]
    rw [numbers_succ, ← numbered.allocated_eq, next]
  · intro fdNum closed
    exact List.mem_append_left _ (numbered.closed_allocated fdNum closed)
  · intro fdNum
    simp only [Finmap.mem_insert, Except.toOption, Option.toList_some, List.mem_append,
      List.mem_singleton, numbered.open_iff]
    constructor
    · rintro (rfl | ⟨handed, kept⟩)
      · exact ⟨Or.inr rfl, unclosed⟩
      · exact ⟨Or.inl handed, kept⟩
    · rintro ⟨handed | rfl, kept⟩
      · exact Or.inr ⟨handed, kept⟩
      · exact Or.inl rfl

theorem FdSession.Numbered.close (numbered : session.Numbered) (fdNum : Int32) :
    (session.step (.close fdNum)).Numbered := by
  by_cases used : fdNum ∈ session.table.descriptors
  · have handed := ((numbered.open_iff fdNum).mp used).1
    simp only [FdSession.step, FileDescriptorTable.close, if_pos used]
    refine ⟨numbered.fits, numbered.nextFd_eq, numbered.allocated_eq, ?_, ?_⟩
    · intro other closed
      rcases List.mem_append.mp closed with earlier | now
      · exact numbered.closed_allocated other earlier
      · rw [List.mem_singleton.mp now]
        exact handed
    · intro other
      simp only [Finmap.mem_erase, numbered.open_iff, List.mem_append, List.mem_singleton]
      tauto
  · simp only [FdSession.step, FileDescriptorTable.close, if_neg used]
    exact numbered

end Steps

theorem FdSession.numbered_run (ops : List FdOp) (bound : ops.countP FdOp.isAlloc ≤ 2 ^ 31 - 1) :
    (FdSession.start.run ops).Numbered ∧
      (FdSession.start.run ops).allocated.length = ops.countP FdOp.isAlloc := by
  refine run_of_history (P := fun done (current : FdSession) => done.countP FdOp.isAlloc ≤ 2 ^ 31 - 1 →
      current.Numbered ∧ current.allocated.length = done.countP FdOp.isAlloc)
    (fun _ => ⟨FdSession.numbered_start, rfl⟩) ?_ ops bound
  -- each call keeps the numbering while the allocations stay within the bound
  intro done current op ih fits
  rw [List.countP_append] at fits
  obtain ⟨numbered, length⟩ := ih (by omega)
  cases op with
  | alloc fd =>
      have room : current.allocated.length + 1 ≤ 2 ^ 31 - 1 := by
        simp only [FdOp.isAlloc, List.countP_singleton, if_true] at fits
        omega
      refine ⟨numbered.alloc room fd, ?_⟩
      rw [numbered.step_alloc]
      simp [length, FdOp.isAlloc]
  | close fdNum =>
      refine ⟨numbered.close fdNum, ?_⟩
      rw [FdSession.allocated_close]
      simp [length, FdOp.isAlloc]

/-- Along every run from `new` with fewer than `2^31` allocations, every
`alloc` succeeds and the `k`-th returns `k`, whatever was closed in between, so
no closed number is handed out again; `next_fd` counts the allocations; and
the table holds exactly the numbers handed out and not closed. -/
theorem fd_table_numbers_in_order (ops : List FdOp) (bound : ops.countP FdOp.isAlloc ≤ 2 ^ 31 - 1) :
    let session : FdSession := FdSession.start.run ops
    session.allocated = numbers (ops.countP FdOp.isAlloc) ∧
    session.table.nextFd.toInt = ops.countP FdOp.isAlloc ∧
    ∀ fdNum, session.table.contains fdNum = true ↔
      fdNum ∈ session.allocated ∧ fdNum ∉ session.closed := by
  intro session
  obtain ⟨numbered, length⟩ := FdSession.numbered_run ops bound
  refine ⟨by rw [numbered.allocated_eq, length], by rw [numbered.nextFd_eq, length], ?_⟩
  intro fdNum
  rw [FileDescriptorTable.contains, decide_eq_true_iff]
  exact numbered.open_iff fdNum

theorem fd_table_numbers_in_order_after_close :
    let fd : FileDescriptor := FileDescriptor.new ⟨1, .file, "/test.txt".toList⟩
      ⟨true, false, false, false, false⟩
    let ops : List FdOp := [.alloc fd, .alloc fd, .close 0, .alloc fd]
    let session : FdSession := FdSession.start.run ops
    ops.countP FdOp.isAlloc ≤ 2 ^ 31 - 1 ∧ session.allocated = numbers 3 := by
  intro fd ops session
  exact ⟨by decide, (fd_table_numbers_in_order ops (by decide)).1⟩

/-- `Too many open files` is not what ends the numbering: once `2^31 - 1`
numbers have been handed out, whatever was closed, the next `alloc` returns
`i32::MAX`, `next_fd` wraps, and the one after it returns `i32::MIN`, a
negative descriptor. -/
theorem fd_table_wraps_to_negative (ops : List FdOp) (exhausted : ops.countP FdOp.isAlloc = 2 ^ 31 - 1)
    (fd other : FileDescriptor) :
    let table : FileDescriptorTable := (FdSession.start.run ops).table
    (table.alloc fd).1 = .ok Int32.maxValue ∧
      ((table.alloc fd).2.alloc other).1 = .ok Int32.minValue := by
  intro table
  obtain ⟨numbered, length⟩ := FdSession.numbered_run ops (by omega)
  have atMax : table.nextFd = Int32.maxValue :=
    Int32.toInt_inj.mp (by rw [numbered.nextFd_eq, length, exhausted, Int32.toInt_maxValue]; rfl)
  have minFree : Int32.minValue ∉ table.descriptors := fun used => by
    have handed := ((numbered.open_iff _).mp used).1
    rw [numbered.allocated_eq, mem_numbers (by have := numbered.fits; omega),
      Int32.toInt_minValue] at handed
    omega
  have wrappedFree : table.nextFd + 1 ∉ table.descriptors.insert table.nextFd fd := by
    rw [atMax, Int32.maxValue_add_one, Finmap.mem_insert, not_or]
    exact ⟨by decide, minFree⟩
  rw [FileDescriptorTable.alloc_of_free numbered.nextFd_free]
  refine ⟨by rw [atMax], ?_⟩
  rw [FileDescriptorTable.alloc_of_free wrappedFree, atMax, Int32.maxValue_add_one]

theorem fd_table_wraps_after_replicated_allocs :
    let fd : FileDescriptor := FileDescriptor.new ⟨1, .file, "/test.txt".toList⟩
      ⟨true, false, false, false, false⟩
    let ops : List FdOp := List.replicate (2 ^ 31 - 1) (.alloc fd)
    ops.countP FdOp.isAlloc = 2 ^ 31 - 1 ∧
      (((FdSession.start.run ops).table.alloc fd).2.alloc fd).1 = .ok Int32.minValue := by
  intro fd ops
  have exhausted : ops.countP FdOp.isAlloc = 2 ^ 31 - 1 := by
    show (List.replicate (2 ^ 31 - 1) (FdOp.alloc fd)).countP FdOp.isAlloc = 2 ^ 31 - 1
    have allocating : FdOp.isAlloc (.alloc fd) = true := rfl
    rw [List.countP_replicate, if_pos allocating]
  exact ⟨exhausted, (fd_table_wraps_to_negative ops exhausted fd fd).2⟩

theorem seek_eq_back_three :
    let fd : FileDescriptor := { FileDescriptor.new ⟨1, .file, "/test.txt".toList⟩
      ⟨true, false, false, false, false⟩ with offset := 10 }
    (SeekWhence.current.base fd 100).toNat < 2 ^ 63 ∧
      fd.seek (-3) .current 100 = .ok (7, { fd with offset := 7 }) := by
  intro fd
  refine ⟨by decide, ?_⟩
  rw [FileDescriptor.seek_eq fd (-3) .current 100 (by decide)]
  decide

end FangaOS.Fd
