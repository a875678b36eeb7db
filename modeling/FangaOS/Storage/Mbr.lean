import FangaOS.Storage.Gpt

/-! Master boot record partition tables as `storage/partition/mbr.rs` parses them,
and `MbrPartitionTable.write`, which lays a table out as the format has it. -/

namespace FangaOS.Mbr

open FangaOS.Gpt

def mbrSignature : Nat := 0xAA55

def mbrPartitionTableOffset : Nat := 0x1BE

def mbrPartitionCount : Nat := 4

structure MbrPartitionEntry where
  bootIndicator : UInt8
  startChs : Vector UInt8 3
  partitionType : UInt8
  endChs : Vector UInt8 3
  startLba : UInt32
  sizeSectors : UInt32
  deriving DecidableEq, Repr

namespace MbrPartitionEntry

def isValid (entry : MbrPartitionEntry) : Bool :=
  entry.partitionType != 0 && entry.sizeSectors > 0

def getPartitionType (entry : MbrPartitionEntry) : PartitionType :=
  match entry.partitionType with
  | 0x0B | 0x0C => .fat32
  | 0x07 => .ntfs
  | 0x83 => .ext
  | 0x82 => .swap
  | _ => .unknown

/-- The entry in 16 bytes, as the loop of `parse` assembles it. -/
def read (entryBytes : List UInt8) : MbrPartitionEntry where
  bootIndicator := entryBytes.getD 0 0
  startChs := ⟨#[entryBytes.getD 1 0, entryBytes.getD 2 0, entryBytes.getD 3 0], rfl⟩
  partitionType := entryBytes.getD 4 0
  endChs := ⟨#[entryBytes.getD 5 0, entryBytes.getD 6 0, entryBytes.getD 7 0], rfl⟩
  startLba := UInt32.ofNat (LittleEndian.decode (entryBytes.extract 8 12))
  sizeSectors := UInt32.ofNat (LittleEndian.decode (entryBytes.extract 12 16))

/-- The 16 bytes of the packed entry. -/
def encode (entry : MbrPartitionEntry) : List UInt8 :=
  entry.bootIndicator :: entry.startChs.toList ++ entry.partitionType :: entry.endChs.toList ++
    LittleEndian.encode 4 entry.startLba.toNat ++ LittleEndian.encode 4 entry.sizeSectors.toNat

end MbrPartitionEntry

/-- The partition that slot `i` of the table describes, if its entry is used. -/
def MbrPartitionEntry.partition (entry : MbrPartitionEntry) (i : Nat) : Option Partition :=
  if entry.isValid then
    some (Partition.new (i + 1) entry.getPartitionType entry.startLba.toUInt64 entry.sizeSectors.toUInt64)
  else none

/-- One turn of the loop of `parse`: the entry of slot `i` in the sector. -/
def readSlot (buffer : List UInt8) (i : Nat) : Option Partition :=
  let offset := mbrPartitionTableOffset + i * 16
  (MbrPartitionEntry.read (buffer.extract offset (offset + 16))).partition i

def MbrPartitionTable.parse (device : BlockDevice) : Except BlockDeviceError (List Partition) := do
  let buffer ← device.readBlocks 0 512
  let signature := LittleEndian.decode (buffer.extract 510 512)
  if signature ≠ mbrSignature then throw .ioError
  pure ((List.range mbrPartitionCount).filterMap (readSlot buffer))

/-- A sector holding the boot code, the entries of the table and the signature. -/
def MbrPartitionTable.write (bootCode : List UInt8) (entries : List MbrPartitionEntry) : List UInt8 :=
  bootCode ++ (entries.map MbrPartitionEntry.encode).flatten ++ [0x55, 0xAA]

/-! ### Reading back an entry -/

namespace MbrPartitionEntry

@[simp] theorem length_encode (entry : MbrPartitionEntry) : entry.encode.length = 16 := by
  simp [encode]

theorem uint32_decode_encode (value : UInt32) :
    UInt32.ofNat (LittleEndian.decode (LittleEndian.encode 4 value.toNat)) = value := by
  have below : value.toNat < 256 ^ 4 := value.toNat_lt
  rw [LittleEndian.decode_encode, Nat.mod_eq_of_lt below, UInt32.ofNat_toNat]

theorem exists_vector_three (chs : Vector UInt8 3) : ∃ a b c, chs = ⟨#[a, b, c], rfl⟩ := by
  obtain ⟨⟨bytes⟩, three⟩ := chs
  match bytes, three with
  | [a, b, c], _ => exact ⟨a, b, c, rfl⟩

theorem read_encode (entry : MbrPartitionEntry) (rest : List UInt8) :
    read (entry.encode ++ rest) = entry := by
  obtain ⟨boot, startChs, ptype, endChs, startLba, size⟩ := entry
  obtain ⟨s0, s1, s2, rfl⟩ := exists_vector_three startChs
  obtain ⟨e0, e1, e2, rfl⟩ := exists_vector_three endChs
  simp [read, encode, List.extract_eq_take_drop, uint32_decode_encode]

end MbrPartitionEntry

/-! ### Reading back a written sector -/

theorem readBlocks_ofImage_getD (blockSize : Nat) (bytes : List UInt8) :
    (BlockDevice.ofImage blockSize fun k => bytes.getD k 0).readBlocks 0 bytes.length = .ok bytes := by
  simp only [BlockDevice.ofImage]
  congr 1
  apply List.ext_getElem (by simp)
  intro k _ inside
  simp [inside]

namespace MbrPartitionTable

theorem drop_flatten_encode : ∀ (entries : List MbrPartitionEntry) (index : Nat) (rest : List UInt8),
    index ≤ entries.length →
      ((entries.map MbrPartitionEntry.encode).flatten ++ rest).drop (index * 16) =
        ((entries.drop index).map MbrPartitionEntry.encode).flatten ++ rest
  | _, 0, _, _ => rfl
  | [], _ + 1, _, within => by simp at within
  | entry :: entries, index + 1, rest, within => by
      rw [Nat.succ_mul, Nat.add_comm, ← List.drop_drop, List.map_cons, List.flatten_cons,
        List.append_assoc, List.drop_left' (MbrPartitionEntry.length_encode entry),
        drop_flatten_encode entries index rest (by simpa using within)]
      rfl

theorem extract_write {bootCode : List UInt8} (codeLength : bootCode.length = mbrPartitionTableOffset)
    (entries : List MbrPartitionEntry) {index : Nat} (inside : index < entries.length) :
    (write bootCode entries).extract (mbrPartitionTableOffset + index * 16)
      (mbrPartitionTableOffset + index * 16 + 16) = entries[index].encode := by
  have slot : ((entries.drop index).map MbrPartitionEntry.encode).flatten =
      entries[index].encode ++ ((entries.drop (index + 1)).map MbrPartitionEntry.encode).flatten := by
    rw [List.drop_eq_getElem_cons inside, List.map_cons, List.flatten_cons]
  rw [List.extract_eq_take_drop, write, List.append_assoc, ← List.drop_drop, List.drop_left' codeLength,
    drop_flatten_encode entries index _ inside.le, slot, List.append_assoc, Nat.add_sub_cancel_left]
  exact List.take_left' (MbrPartitionEntry.length_encode _)

theorem readSlot_write {bootCode : List UInt8} (codeLength : bootCode.length = mbrPartitionTableOffset)
    (entries : List MbrPartitionEntry) {index : Nat} (inside : index < entries.length) :
    readSlot (write bootCode entries) index = entries[index].partition index := by
  rw [readSlot, extract_write codeLength entries inside, ← List.append_nil entries[index].encode,
    MbrPartitionEntry.read_encode]

theorem length_flatten_encode (entries : List MbrPartitionEntry) :
    (entries.map MbrPartitionEntry.encode).flatten.length = entries.length * 16 := by
  have sixteen : List.length ∘ MbrPartitionEntry.encode = fun _ => 16 :=
    funext MbrPartitionEntry.length_encode
  rw [List.length_flatten, List.map_map, sixteen, List.map_const', List.sum_replicate, smul_eq_mul]

theorem length_write (bootCode : List UInt8) (entries : List MbrPartitionEntry) :
    (write bootCode entries).length = bootCode.length + entries.length * 16 + 2 := by
  rw [write, List.length_append, List.length_append, length_flatten_encode]
  rfl

theorem signature_write {bootCode : List UInt8} (codeLength : bootCode.length = mbrPartitionTableOffset)
    {entries : List MbrPartitionEntry} (four : entries.length = mbrPartitionCount) :
    LittleEndian.decode ((write bootCode entries).extract 510 512) = mbrSignature := by
  have front : (bootCode ++ (entries.map MbrPartitionEntry.encode).flatten).length = 510 := by
    rw [List.length_append, codeLength, length_flatten_encode, four]
    rfl
  rw [write, List.extract_eq_take_drop, List.drop_left' front]
  rfl

end MbrPartitionTable

/-- A sector written with a 446-byte boot code, a table of four entries and the
signature parses to the partitions of the used entries, numbered by their
slots: whatever the boot code and the entries hold, `parse` reads each entry
back from its sixteen bytes. -/
theorem mbr_parse_reads_back_written_table {bootCode : List UInt8} {entries : List MbrPartitionEntry}
    (codeLength : bootCode.length = mbrPartitionTableOffset) (four : entries.length = mbrPartitionCount)
    {device : BlockDevice} (holds : device.readBlocks 0 512 = .ok (MbrPartitionTable.write bootCode entries)) :
    MbrPartitionTable.parse device =
      .ok ((List.range mbrPartitionCount).filterMap fun i => entries[i]?.bind (·.partition i)) := by
  have slots : ∀ i ∈ List.range mbrPartitionCount,
      readSlot (MbrPartitionTable.write bootCode entries) i = entries[i]?.bind (·.partition i) := by
    intro i inside
    have within : i < entries.length := four ▸ List.mem_range.mp inside
    rw [MbrPartitionTable.readSlot_write codeLength entries within, List.getElem?_eq_getElem within]
    rfl
  simp only [MbrPartitionTable.parse, holds, MbrPartitionTable.signature_write codeLength four, bind,
    Except.bind, ne_eq, not_true_eq_false, if_false, List.filterMap_congr slots]
  rfl

/-- A FAT32 partition in slot 1 and a Linux partition in slot 3 are read back
as partitions 1 and 3. -/
theorem mbr_parse_reads_back_two_partitions :
    let entries : List MbrPartitionEntry :=
      [⟨0x80, ⟨#[0, 0, 0], rfl⟩, 0x0B, ⟨#[0, 0, 0], rfl⟩, 2048, 102400⟩,
        ⟨0, ⟨#[0, 0, 0], rfl⟩, 0, ⟨#[0, 0, 0], rfl⟩, 0, 0⟩,
        ⟨0, ⟨#[0, 0, 0], rfl⟩, 0x83, ⟨#[0, 0, 0], rfl⟩, 104448, 204800⟩,
        ⟨0, ⟨#[0, 0, 0], rfl⟩, 0, ⟨#[0, 0, 0], rfl⟩, 0, 0⟩]
    let sector := MbrPartitionTable.write (List.replicate 446 0) entries
    let device := BlockDevice.ofImage 512 fun k => sector.getD k 0
    (List.replicate 446 (0 : UInt8)).length = mbrPartitionTableOffset ∧ entries.length = mbrPartitionCount ∧
      device.readBlocks 0 512 = .ok sector ∧
      MbrPartitionTable.parse device =
        .ok ((List.range mbrPartitionCount).filterMap fun i => entries[i]?.bind (·.partition i)) := by
  intro entries sector device
  have sized : sector.length = 512 := by
    rw [MbrPartitionTable.length_write, List.length_replicate]
    rfl
  have holds : device.readBlocks 0 512 = .ok sector := by
    have read := readBlocks_ofImage_getD 512 sector
    rwa [sized] at read
  have codeLength : (List.replicate 446 (0 : UInt8)).length = mbrPartitionTableOffset := List.length_replicate
  have four : entries.length = mbrPartitionCount := rfl
  refine ⟨codeLength, four, holds, ?_⟩
  exact mbr_parse_reads_back_written_table codeLength four holds

end FangaOS.Mbr
