import Mathlib.Data.List.GetD
import FangaOS.Lib.Bytes
import FangaOS.Lib.BitWord
import FangaOS.Lib.Slice
import FangaOS.Lib.Run
import Mathlib.Tactic.Ring

/-! GUID partition tables as `storage/partition/gpt.rs` parses them.  A device is
its block size and what `read_blocks` leaves in a buffer; a parse ends in a
value or in a fault, a division by zero or a slice past its buffer. -/

namespace FangaOS.Gpt

open StepMachine

inductive BlockDeviceError
  | notFound
  | invalidBlock
  | ioError
  | busy
  | timeout
  | invalidBufferSize
  | notReady
  deriving DecidableEq, Repr

/-- A block device: the size of its blocks and the bytes that `read_blocks`
leaves in a buffer of a given length. -/
structure BlockDevice where
  blockSize : Nat
  readBlocks : UInt64 → Nat → Except BlockDeviceError (List UInt8)
  length_readBlocks : ∀ startBlock length buffer,
    readBlocks startBlock length = .ok buffer → buffer.length = length

/-- A device over a disk image, as the mock device of `block_device.rs`. -/
def BlockDevice.ofImage (blockSize : Nat) (image : Nat → UInt8) : BlockDevice where
  blockSize := blockSize
  readBlocks startBlock length :=
    .ok ((List.range length).map fun k => image (startBlock.toNat * blockSize + k))
  length_readBlocks startBlock length buffer read := by
    cases read
    simp

inductive PartitionType
  | fat32
  | ntfs
  | ext
  | swap
  | unknown
  deriving DecidableEq, Repr

/-- `Partition`; a label is the list of its characters. -/
structure Partition where
  number : Nat
  ptype : PartitionType
  startLba : UInt64
  size : UInt64
  label : Option (List Char)
  deriving DecidableEq, Repr

/-- `Partition::new`: no label. -/
def Partition.new (number : Nat) (ptype : PartitionType) (startLba size : UInt64) : Partition :=
  ⟨number, ptype, startLba, size, none⟩

def Partition.withLabel (partition : Partition) (label : List Char) : Partition :=
  { partition with label := some label }

def gptSignature : List UInt8 := [0x45, 0x46, 0x49, 0x20, 0x50, 0x41, 0x52, 0x54]

def gptHeaderLba : UInt64 := 1

def gptEntrySize : Nat := 128

/-- `GptHeader`, with the fields that `parse` reads and the entry size it does not. -/
structure GptHeader where
  signature : List UInt8
  partitionEntryLba : UInt64
  numPartitionEntries : UInt32
  partitionEntrySize : UInt32
  deriving DecidableEq, Repr

/-- The header at the start of a buffer, as the packed layout places its fields. -/
def GptHeader.read (buffer : List UInt8) : GptHeader where
  signature := buffer.extract 0 8
  partitionEntryLba := UInt64.ofNat (LittleEndian.decode (buffer.extract 72 80))
  numPartitionEntries := UInt32.ofNat (LittleEndian.decode (buffer.extract 80 84))
  partitionEntrySize := UInt32.ofNat (LittleEndian.decode (buffer.extract 84 88))

/-- `GptPartitionEntry`, without the unique GUID and the attributes that no call reads. -/
structure GptPartitionEntry where
  partitionTypeGuid : List UInt8
  startLba : UInt64
  endLba : UInt64
  name : List UInt16
  deriving DecidableEq, Repr

/-- The entry in 128 bytes, as the packed layout places its fields. -/
def GptPartitionEntry.read (bytes : List UInt8) : GptPartitionEntry where
  partitionTypeGuid := bytes.extract 0 16
  startLba := UInt64.ofNat (LittleEndian.decode (bytes.extract 32 40))
  endLba := UInt64.ofNat (LittleEndian.decode (bytes.extract 40 48))
  name := (List.range 36).map fun k =>
    UInt16.ofNat (LittleEndian.decode (bytes.extract (56 + 2 * k) (58 + 2 * k)))

def GptPartitionEntry.isUsed (entry : GptPartitionEntry) : Bool :=
  entry.partitionTypeGuid.any (· != 0)

def fat32Guid : List UInt8 :=
  [0x28, 0x73, 0x2A, 0xC1, 0x1F, 0xF8, 0xD2, 0x11, 0xBA, 0x4B, 0x00, 0xA0, 0xC9, 0x3E, 0xC9, 0x3B]

def linuxGuid : List UInt8 :=
  [0xAF, 0x3D, 0xC6, 0x0F, 0x83, 0x84, 0x72, 0x47, 0x8E, 0x79, 0x3D, 0x69, 0xD8, 0x47, 0x7D, 0xE4]

def GptPartitionEntry.getPartitionType (entry : GptPartitionEntry) : PartitionType :=
  if entry.partitionTypeGuid = fat32Guid then .fat32
  else if entry.partitionTypeGuid = linuxGuid then .ext
  else .unknown

/-- `char::from_u32`: a scalar value, which no surrogate is. -/
def charFromU32 (code : UInt32) : Option Char :=
  if code.toNat < 0xD800 ∨ (0xDFFF < code.toNat ∧ code.toNat < 0x110000) then
    some (Char.ofNat code.toNat)
  else none

/-- `get_name`: the code units up to the first zero, each that is a scalar value
as its character; a surrogate is dropped. -/
def GptPartitionEntry.getName (entry : GptPartitionEntry) : List Char :=
  (entry.name.takeWhile (· != 0)).filterMap fun unit => charFromU32 unit.toUInt32

/-- `size`: with `u64` arithmetic, which wraps on the largest range in the
release build. -/
def GptPartitionEntry.size (entry : GptPartitionEntry) : UInt64 :=
  if entry.endLba ≥ entry.startLba then entry.endLba - entry.startLba + 1 else 0

/-- How a parse can go wrong without returning. -/
inductive Fault
  /-- `i / entries_per_block` with no entry per block. -/
  | divisionByZero
  /-- `buffer[entry_offset..]` with the offset past the buffer. -/
  | sliceStart
  /-- `read_unaligned` of an entry that runs past the buffer. -/
  | readPastEnd
  deriving DecidableEq, Repr

/-- What ends a parse early: an error that `parse` returns, or a fault. -/
inductive ParseError
  | device (error : BlockDeviceError)
  | fault (fault : Fault)
  deriving DecidableEq, Repr

/-- The entry at `entry_offset` of a buffer. -/
def readEntry (buffer : List UInt8) (entryOffset : Nat) : Except Fault GptPartitionEntry :=
  if entryOffset > buffer.length then .error .sliceStart
  else if entryOffset + gptEntrySize > buffer.length then .error .readPastEnd
  else .ok (GptPartitionEntry.read (buffer.extract entryOffset (entryOffset + gptEntrySize)))

/-- One turn of the loop over the entries: read entry `i` and keep it if it is used. -/
def parseEntry (device : BlockDevice) (header : GptHeader) (partitions : List Partition)
    (i : Nat) : Except ParseError (List Partition) := do
  let entriesPerBlock := device.blockSize / gptEntrySize
  if entriesPerBlock = 0 then throw (.fault .divisionByZero)
  let blockOffset := i / entriesPerBlock
  let entryOffset := i % entriesPerBlock * gptEntrySize
  let buffer ← (device.readBlocks (header.partitionEntryLba + blockOffset.toUInt64) 512).mapError
    .device
  let entry ← (readEntry buffer entryOffset).mapError .fault
  if entry.isUsed then
    pure (partitions ++
      [(Partition.new (i + 1) entry.getPartitionType entry.startLba entry.size).withLabel
        entry.getName])
  else pure partitions

def GptPartitionTable.parse (device : BlockDevice) : Except ParseError (List Partition) := do
  let headerBuffer ← (device.readBlocks gptHeaderLba 512).mapError .device
  let header := GptHeader.read headerBuffer
  if header.signature ≠ gptSignature then throw (.device .ioError)
  (List.range header.numPartitionEntries.toNat).foldlM (parseEntry device header) []

/-! ### No fault on blocks of 128 to 639 bytes -/

theorem readEntry_of_fits {buffer : List UInt8} {entryOffset : Nat}
    (fits : entryOffset + gptEntrySize ≤ buffer.length) :
    readEntry buffer entryOffset =
      .ok (GptPartitionEntry.read (buffer.extract entryOffset (entryOffset + gptEntrySize))) := by
  rw [readEntry, if_neg (by omega), if_neg (by omega)]

theorem entryOffset_fits {blockSize : Nat} (wide : gptEntrySize ≤ blockSize)
    (narrow : blockSize < 5 * gptEntrySize) (i : Nat) :
    i % (blockSize / gptEntrySize) * gptEntrySize + gptEntrySize ≤ 512 := by
  have perBlock : blockSize / gptEntrySize ≤ 4 := by
    unfold gptEntrySize at *
    omega
  have positive : 0 < blockSize / gptEntrySize := Nat.div_pos wide (by decide)
  have below := Nat.mod_lt i positive
  unfold gptEntrySize
  have : i % (blockSize / 128) ≤ 3 := by
    unfold gptEntrySize at perBlock below
    omega
  omega

theorem parseEntry_error {device : BlockDevice} (wide : gptEntrySize ≤ device.blockSize)
    (narrow : device.blockSize < 5 * gptEntrySize) {header : GptHeader}
    {partitions : List Partition} {i : Nat} {failure : ParseError}
    (failed : parseEntry device header partitions i = .error failure) :
    ∃ error, failure = .device error := by
  have positive : device.blockSize / gptEntrySize ≠ 0 :=
    Nat.pos_iff_ne_zero.mp (Nat.div_pos wide (by decide))
  unfold parseEntry at failed
  rw [if_neg positive] at failed
  dsimp only at failed
  rcases bind_eq_error.mp failed with readFailed | ⟨buffer, read, rest⟩
  · obtain ⟨error, -, rfl⟩ := mapError_eq_error.mp readFailed
    exact ⟨error, rfl⟩
  · -- the buffer holds the whole entry, so only the device can have failed
    have fits := entryOffset_fits wide narrow i
    rw [← device.length_readBlocks _ _ _ (mapError_eq_ok.mp read)] at fits
    rw [readEntry_of_fits fits] at rest
    rcases bind_eq_error.mp rest with entryFailed | ⟨entry, -, kept⟩
    · cases entryFailed
    · split at kept <;> cases kept

theorem GptPartitionTable.parse_error {device : BlockDevice}
    (wide : gptEntrySize ≤ device.blockSize) (narrow : device.blockSize < 5 * gptEntrySize)
    {failure : ParseError} (failed : GptPartitionTable.parse device = .error failure) :
    ∃ error, failure = .device error := by
  unfold GptPartitionTable.parse at failed
  rcases bind_eq_error.mp failed with readFailed | ⟨buffer, -, rest⟩
  · obtain ⟨error, -, rfl⟩ := mapError_eq_error.mp readFailed
    exact ⟨error, rfl⟩
  · dsimp only at rest
    split at rest
    · cases rest
      exact ⟨.ioError, rfl⟩
    · exact foldlM_error_of (fun _ _ _ step => parseEntry_error wide narrow step) _ _ _ rest

/-! ### Decoding the entry array of a disk image -/

/-- Entry `i` of an array of `entrySize`-byte entries that starts at byte
`arrayStart` of a disk image. -/
def arrayEntry (image : Nat → UInt8) (arrayStart entrySize i : Nat) : GptPartitionEntry :=
  GptPartitionEntry.read
    ((List.range gptEntrySize).map fun k => image (arrayStart + i * entrySize + k))

/-- The partition that entry `i` describes, when the entry is used. -/
def GptPartitionEntry.listed (entry : GptPartitionEntry) (i : Nat) : Option Partition :=
  if entry.isUsed then
    some ((Partition.new (i + 1) entry.getPartitionType entry.startLba entry.size).withLabel
      entry.getName)
  else none

/-- The partitions that the used entries `i < count` of an array describe, in order. -/
def listedPartitions (image : Nat → UInt8) (arrayStart entrySize count : Nat) : List Partition :=
  (List.range count).filterMap fun i => (arrayEntry image arrayStart entrySize i).listed i

theorem entryByte_eq {blockSize : Nat} (whole : blockSize % gptEntrySize = 0)
    {lba : UInt64} {i : Nat} (fits : lba.toNat + i < 2 ^ 64) (k : Nat) :
    (lba + (i / (blockSize / gptEntrySize)).toUInt64).toNat * blockSize +
        (i % (blockSize / gptEntrySize) * gptEntrySize + k) =
      lba.toNat * blockSize + i * gptEntrySize + k := by
  have quotient : i / (blockSize / gptEntrySize) ≤ i := Nat.div_le_self _ _
  have small : (i / (blockSize / gptEntrySize)).toUInt64.toNat = i / (blockSize / gptEntrySize) :=
    Nat.mod_eq_of_lt (by omega)
  have block : (lba + (i / (blockSize / gptEntrySize)).toUInt64).toNat =
      lba.toNat + i / (blockSize / gptEntrySize) := by
    rw [UInt64.toNat_add_of_lt (by omega), small]
  have size : blockSize / gptEntrySize * gptEntrySize = blockSize :=
    Nat.div_mul_cancel (Nat.dvd_of_mod_eq_zero whole)
  have split := Nat.div_add_mod i (blockSize / gptEntrySize)
  have shape : ∀ base quotient remainder perBlock entrySize : Nat,
      (base + quotient) * (perBlock * entrySize) + (remainder * entrySize + k) =
        base * (perBlock * entrySize) + (perBlock * quotient + remainder) * entrySize + k := by
    intros
    ring
  have arranged := shape lba.toNat (i / (blockSize / gptEntrySize)) (i % (blockSize / gptEntrySize))
    (blockSize / gptEntrySize) gptEntrySize
  rw [size, split] at arranged
  rw [block]
  exact arranged

theorem parseEntry_ofImage {blockSize : Nat} (image : Nat → UInt8)
    (wide : gptEntrySize ≤ blockSize) (narrow : blockSize < 5 * gptEntrySize)
    (whole : blockSize % gptEntrySize = 0) (header : GptHeader) (partitions : List Partition)
    {i : Nat} (fits : header.partitionEntryLba.toNat + i < 2 ^ 64) :
    parseEntry (BlockDevice.ofImage blockSize image) header partitions i =
      .ok (partitions ++ ((arrayEntry image (header.partitionEntryLba.toNat * blockSize)
        gptEntrySize i).listed i).toList) := by
  have positive : blockSize / gptEntrySize ≠ 0 :=
    Nat.pos_iff_ne_zero.mp (Nat.div_pos wide (by decide))
  have inside := entryOffset_fits wide narrow i
  unfold parseEntry
  dsimp only [BlockDevice.ofImage]
  rw [if_neg positive]
  dsimp only [Except.mapError, bind, Except.bind]
  rw [readEntry_of_fits (by simpa using inside), Slice.extract_map_range _ inside]
  dsimp only
  -- the bytes read are those of the entry in the array
  have bytes : (List.range gptEntrySize).map (fun k => image
      ((header.partitionEntryLba + (i / (blockSize / gptEntrySize)).toUInt64).toNat * blockSize +
        (i % (blockSize / gptEntrySize) * gptEntrySize + k))) =
      (List.range gptEntrySize).map fun k =>
        image (header.partitionEntryLba.toNat * blockSize + i * gptEntrySize + k) := by
    congr 1
    funext k
    rw [entryByte_eq whole fits k]
  rw [bytes]
  unfold arrayEntry GptPartitionEntry.listed
  split
  · rfl
  · rw [Option.toList_none, List.append_nil]
    rfl

theorem listedPartitions_succ (image : Nat → UInt8) (arrayStart entrySize count : Nat) :
    listedPartitions image arrayStart entrySize (count + 1) =
      listedPartitions image arrayStart entrySize count ++
        ((arrayEntry image arrayStart entrySize count).listed count).toList := by
  unfold listedPartitions
  rw [List.range_succ, List.filterMap_append]
  cases listedAt : (arrayEntry image arrayStart entrySize count).listed count <;> simp [listedAt]

theorem foldlM_parseEntry_ofImage {blockSize : Nat} (image : Nat → UInt8)
    (wide : gptEntrySize ≤ blockSize) (narrow : blockSize < 5 * gptEntrySize)
    (whole : blockSize % gptEntrySize = 0) (header : GptHeader) :
    ∀ count, header.partitionEntryLba.toNat + count ≤ 2 ^ 64 →
      (List.range count).foldlM (parseEntry (BlockDevice.ofImage blockSize image) header) [] =
        .ok (listedPartitions image (header.partitionEntryLba.toNat * blockSize) gptEntrySize count)
  | 0, _ => rfl
  | count + 1, fits => by
      rw [List.range_succ, List.foldlM_append,
        foldlM_parseEntry_ofImage image wide narrow whole header count (by omega)]
      simp only [List.foldlM_cons, List.foldlM_nil, bind_pure]
      rw [listedPartitions_succ]
      exact parseEntry_ofImage image wide narrow whole header _ (by omega)

theorem GptPartitionTable.parse_ofImage {blockSize : Nat} (image : Nat → UInt8)
    (wide : gptEntrySize ≤ blockSize) (narrow : blockSize < 5 * gptEntrySize)
    (whole : blockSize % gptEntrySize = 0) :
    let header : GptHeader := GptHeader.read ((List.range 512).map fun k => image (blockSize + k))
    header.signature = gptSignature →
    header.partitionEntryLba.toNat + header.numPartitionEntries.toNat ≤ 2 ^ 64 →
    GptPartitionTable.parse (BlockDevice.ofImage blockSize image) =
      .ok (listedPartitions image (header.partitionEntryLba.toNat * blockSize) gptEntrySize
        header.numPartitionEntries.toNat) := by
  intro header signed fits
  have atBlockOne : gptHeaderLba.toNat = 1 := rfl
  unfold GptPartitionTable.parse
  dsimp only [BlockDevice.ofImage, Except.mapError, bind, Except.bind]
  simp only [atBlockOne, Nat.one_mul]
  rw [if_neg (not_not.mpr signed)]
  exact foldlM_parseEntry_ofImage image wide narrow whole header _ fits

/-- On blocks of 128 to 639 bytes `parse` is sound: it fails only with an
error of the device, never dividing by zero or reading outside its buffers;
and on a disk image whose blocks hold whole entries, with a signed header whose
entries do not run past block `2 ^ 64`, it returns the used entries of the
128-byte entries from `partition_entry_lba * block_size` on, in order. -/
theorem gpt_parse_sound_on_small_blocks {blockSize : Nat} (wide : gptEntrySize ≤ blockSize)
    (narrow : blockSize < 5 * gptEntrySize) :
    (∀ (device : BlockDevice) (failure : ParseError), device.blockSize = blockSize →
      GptPartitionTable.parse device = .error failure → ∃ error, failure = .device error) ∧
    (blockSize % gptEntrySize = 0 → ∀ image : Nat → UInt8,
      let header : GptHeader := GptHeader.read ((List.range 512).map fun k => image (blockSize + k))
      header.signature = gptSignature →
      header.partitionEntryLba.toNat + header.numPartitionEntries.toNat ≤ 2 ^ 64 →
      GptPartitionTable.parse (BlockDevice.ofImage blockSize image) =
        .ok (listedPartitions image (header.partitionEntryLba.toNat * blockSize) gptEntrySize
          header.numPartitionEntries.toNat)) := by
  refine ⟨fun device failure sized failed => ?_, fun whole image => ?_⟩
  · rw [← sized] at wide narrow
    exact GptPartitionTable.parse_error wide narrow failed
  · exact GptPartitionTable.parse_ofImage image wide narrow whole

theorem gpt_parse_sound_on_512_byte_blocks :
    gptEntrySize ≤ 512 ∧ 512 < 5 * gptEntrySize ∧
    (∀ (device : BlockDevice) (failure : ParseError), device.blockSize = 512 →
      GptPartitionTable.parse device = .error failure → ∃ error, failure = .device error) ∧
    (512 % gptEntrySize = 0 → ∀ image : Nat → UInt8,
      let header : GptHeader := GptHeader.read ((List.range 512).map fun k => image (512 + k))
      header.signature = gptSignature →
      header.partitionEntryLba.toNat + header.numPartitionEntries.toNat ≤ 2 ^ 64 →
      GptPartitionTable.parse (BlockDevice.ofImage 512 image) =
        .ok (listedPartitions image (header.partitionEntryLba.toNat * 512) gptEntrySize
          header.numPartitionEntries.toNat)) :=
  ⟨by decide, by decide, gpt_parse_sound_on_small_blocks (by decide) (by decide)⟩

/-! ### Writing a header, and disks that `parse` gets wrong -/

/-- A header block with the signature, the entry array's first block, the
entry count and the entry size, and zero in every other field. -/
def GptHeader.encode (entryLba : UInt64) (entryCount entrySize : UInt32) : List UInt8 :=
  gptSignature ++ List.replicate 64 0 ++ LittleEndian.encode 8 entryLba.toNat ++
    LittleEndian.encode 4 entryCount.toNat ++ LittleEndian.encode 4 entrySize.toNat

/-- A disk image that holds the given runs of bytes at their offsets, and zero
elsewhere. -/
def imageOfExtents (extents : List (Nat × List UInt8)) (offset : Nat) : UInt8 :=
  match extents.find? fun extent => extent.1 ≤ offset ∧ offset < extent.1 + extent.2.length with
  | some extent => extent.2.getD (offset - extent.1) 0
  | none => 0

theorem gpt_parse_faults_and_ignores_entry_size :
    let small : BlockDevice :=
      BlockDevice.ofImage 64 (imageOfExtents [(64, GptHeader.encode 2 1 128)])
    let large : BlockDevice :=
      BlockDevice.ofImage 4096 (imageOfExtents [(4096, GptHeader.encode 2 5 128)])
    let firstEntry : List UInt8 :=
      1 :: List.replicate 31 0 ++ LittleEndian.encode 8 34 ++ LittleEndian.encode 8 43
    let secondEntry : List UInt8 :=
      1 :: List.replicate 31 0 ++ LittleEndian.encode 8 50 ++ LittleEndian.encode 8 59
    let spaced : Nat → UInt8 :=
      imageOfExtents [(512, GptHeader.encode 2 2 256), (1024, firstEntry), (1280, secondEntry)]
    GptPartitionTable.parse small = .error (.fault .divisionByZero) ∧
      GptPartitionTable.parse large = .error (.fault .readPastEnd) ∧
      GptPartitionTable.parse (BlockDevice.ofImage 512 spaced) =
        .ok [(Partition.new 1 .unknown 34 10).withLabel []] ∧
      listedPartitions spaced 1024 256 2 =
        [(Partition.new 1 .unknown 34 10).withLabel [], (Partition.new 2 .unknown 50 10).withLabel []] := by
  decide +kernel

end FangaOS.Gpt
