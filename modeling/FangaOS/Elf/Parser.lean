import Mathlib.Data.List.GetD
import FangaOS.Lib.Bytes

/-! ELF headers as `elf/parser.rs` reads them: the 64-byte file header and the
56-byte program header, little-endian in their `repr(C)` layout.  Only the
fields that the loader reads are kept. -/

namespace FangaOS.Elf

def elfMagic : List UInt8 := [0x7f, 0x45, 0x4C, 0x46]

/-- `size_of::<ElfHeader>()`. -/
def elfHeaderSize : Nat := 64

/-- `size_of::<ElfProgramHeader>()`. -/
def programHeaderSize : Nat := 56

inductive ElfType
  | none
  | relocatable
  | executable
  | shared
  | core
  deriving DecidableEq, Repr

inductive ElfMachine
  | none
  | x86
  | x86_64
  | arm
  | aarch64
  deriving DecidableEq, Repr

inductive ProgramType
  | null
  | load
  | dynamic
  | interp
  | note
  | shlib
  | phdr
  | tls
  | gnuStack
  deriving DecidableEq, Repr

def ProgramType.fromU32 : UInt32 → Option ProgramType
  | 0 => some .null
  | 1 => some .load
  | 2 => some .dynamic
  | 3 => some .interp
  | 4 => some .note
  | 5 => some .shlib
  | 6 => some .phdr
  | 7 => some .tls
  | 0x6474e551 => some .gnuStack
  | _ => none

/-- `ElfHeader`, with the fields that `parse`, `validate` and `load_elf` read. -/
structure ElfHeader where
  eIdent : List UInt8
  eType : UInt16
  eMachine : UInt16
  eEntry : UInt64
  ePhoff : UInt64
  ePhentsize : UInt16
  ePhnum : UInt16
  deriving DecidableEq, Repr

/-- The header at the start of the data, as `read_unaligned` lays out its fields. -/
def ElfHeader.read (data : List UInt8) : ElfHeader where
  eIdent := data.extract 0 16
  eType := UInt16.ofNat (LittleEndian.decode (data.extract 16 18))
  eMachine := UInt16.ofNat (LittleEndian.decode (data.extract 18 20))
  eEntry := UInt64.ofNat (LittleEndian.decode (data.extract 24 32))
  ePhoff := UInt64.ofNat (LittleEndian.decode (data.extract 32 40))
  ePhentsize := UInt16.ofNat (LittleEndian.decode (data.extract 54 56))
  ePhnum := UInt16.ofNat (LittleEndian.decode (data.extract 56 58))

def ElfHeader.parse (data : List UInt8) : Except String ElfHeader :=
  if data.length < elfHeaderSize then .error "Data too small for ELF header"
  else
    let header := ElfHeader.read data
    if header.eIdent.extract 0 4 ≠ elfMagic then .error "Invalid ELF magic"
    else if header.eIdent.getD 4 0 ≠ 2 then .error "Not a 64-bit ELF"
    else if header.eIdent.getD 5 0 ≠ 1 then .error "Not little-endian"
    else if header.eIdent.getD 6 0 ≠ 1 then .error "Invalid ELF version"
    else .ok header

def ElfHeader.elfType (header : ElfHeader) : Option ElfType :=
  match header.eType with
  | 1 => some .relocatable
  | 2 => some .executable
  | 3 => some .shared
  | 4 => some .core
  | _ => none

def ElfHeader.machine (header : ElfHeader) : Option ElfMachine :=
  match header.eMachine with
  | 3 => some .x86
  | 62 => some .x86_64
  | 40 => some .arm
  | 183 => some .aarch64
  | _ => none

def ElfHeader.validate (header : ElfHeader) : Except String Unit :=
  match header.elfType with
  | some .executable | some .shared =>
      match header.machine with
      | some .x86_64 => if header.ePhnum = 0 then .error "No program headers" else .ok ()
      | _ => .error "ELF must be x86_64"
  | _ => .error "ELF must be executable or shared object"

/-- `ElfProgramHeader`, without the flags, physical address and alignment that
only the log line and the flag tests read. -/
structure ElfProgramHeader where
  pType : UInt32
  pOffset : UInt64
  pVaddr : UInt64
  pFilesz : UInt64
  pMemsz : UInt64
  deriving DecidableEq, Repr

/-- The program header at the start of the data, in its `repr(C)` layout. -/
def ElfProgramHeader.read (data : List UInt8) : ElfProgramHeader where
  pType := UInt32.ofNat (LittleEndian.decode (data.extract 0 4))
  pOffset := UInt64.ofNat (LittleEndian.decode (data.extract 8 16))
  pVaddr := UInt64.ofNat (LittleEndian.decode (data.extract 16 24))
  pFilesz := UInt64.ofNat (LittleEndian.decode (data.extract 32 40))
  pMemsz := UInt64.ofNat (LittleEndian.decode (data.extract 40 48))

def ElfProgramHeader.parse (data : List UInt8) : Except String ElfProgramHeader :=
  if data.length < programHeaderSize then .error "Data too small for program header"
  else .ok (ElfProgramHeader.read data)

def ElfProgramHeader.programType (phdr : ElfProgramHeader) : Option ProgramType :=
  ProgramType.fromU32 phdr.pType

/-! ### Writing headers and reading them back -/

/-- The identification bytes of a 64-bit little-endian ELF file of version 1. -/
def elfIdent : List UInt8 := elfMagic ++ [2, 1, 1] ++ List.replicate 9 0

/-- A file header with the given type, machine, entry point and program header
table, and zero in the fields that `parse` does not read. -/
def ElfHeader.encode (eType eMachine : UInt16) (eEntry ePhoff : UInt64)
    (ePhentsize ePhnum : UInt16) : List UInt8 :=
  elfIdent ++ LittleEndian.encode 2 eType.toNat ++ LittleEndian.encode 2 eMachine.toNat ++
    LittleEndian.encode 4 1 ++ LittleEndian.encode 8 eEntry.toNat ++
    LittleEndian.encode 8 ePhoff.toNat ++ List.replicate 14 0 ++
    LittleEndian.encode 2 ePhentsize.toNat ++ LittleEndian.encode 2 ePhnum.toNat ++
    List.replicate 6 0

theorem ElfHeader.parse_encode (eType eMachine : UInt16) (eEntry ePhoff : UInt64)
    (ePhentsize ePhnum : UInt16) (rest : List UInt8) :
    ElfHeader.parse (ElfHeader.encode eType eMachine eEntry ePhoff ePhentsize ePhnum ++ rest) =
      .ok ⟨elfIdent, eType, eMachine, eEntry, ePhoff, ePhentsize, ePhnum⟩ := by
  -- cut each field out of the header by the lengths of the fields before it
  have fields : ElfHeader.read
      (ElfHeader.encode eType eMachine eEntry ePhoff ePhentsize ePhnum ++ rest) =
        ⟨elfIdent, eType, eMachine, eEntry, ePhoff, ePhentsize, ePhnum⟩ := by
    simp only [ElfHeader.read, ElfHeader.encode, elfIdent, elfMagic, List.extract_eq_take_drop,
      List.append_assoc, List.drop_append, List.take_append, List.length_replicate,
      LittleEndian.length_encode]
    simp [LittleEndian.decode_encode, List.take_of_length_le, List.drop_eq_nil_of_le]
  have long : ¬ (ElfHeader.encode eType eMachine eEntry ePhoff ePhentsize ePhnum ++ rest).length <
      elfHeaderSize := by
    simp [ElfHeader.encode, elfIdent, elfMagic, elfHeaderSize]
    omega
  -- the identification bytes pass the four checks
  have identified : elfIdent.extract 0 4 = elfMagic ∧ elfIdent.getD 4 0 = 2 ∧
      elfIdent.getD 5 0 = 1 ∧ elfIdent.getD 6 0 = 1 := by
    decide
  unfold ElfHeader.parse
  rw [if_neg long]
  dsimp only
  rw [fields]
  simp only [identified, ne_eq, not_true_eq_false, if_false]

/-- A program header with the given type, file range, address and memory size. -/
def ElfProgramHeader.encode (pType : UInt32) (pOffset pVaddr pFilesz pMemsz : UInt64) :
    List UInt8 :=
  LittleEndian.encode 4 pType.toNat ++ List.replicate 4 0 ++ LittleEndian.encode 8 pOffset.toNat ++
    LittleEndian.encode 8 pVaddr.toNat ++ List.replicate 8 0 ++
    LittleEndian.encode 8 pFilesz.toNat ++ LittleEndian.encode 8 pMemsz.toNat ++
    List.replicate 8 0

theorem ElfProgramHeader.read_encode (pType : UInt32) (pOffset pVaddr pFilesz pMemsz : UInt64)
    (rest : List UInt8) :
    ElfProgramHeader.read (ElfProgramHeader.encode pType pOffset pVaddr pFilesz pMemsz ++ rest) =
      ⟨pType, pOffset, pVaddr, pFilesz, pMemsz⟩ := by
  simp only [ElfProgramHeader.read, ElfProgramHeader.encode, List.extract_eq_take_drop,
    List.append_assoc, List.drop_append, List.take_append, List.length_replicate,
    LittleEndian.length_encode]
  simp [LittleEndian.decode_encode, List.take_of_length_le, List.drop_eq_nil_of_le]

theorem ElfProgramHeader.parse_encode (pType : UInt32) (pOffset pVaddr pFilesz pMemsz : UInt64)
    (rest : List UInt8) :
    ElfProgramHeader.parse (ElfProgramHeader.encode pType pOffset pVaddr pFilesz pMemsz ++ rest) =
      .ok ⟨pType, pOffset, pVaddr, pFilesz, pMemsz⟩ := by
  have long : ¬ (ElfProgramHeader.encode pType pOffset pVaddr pFilesz pMemsz ++ rest).length <
      programHeaderSize := by
    simp [ElfProgramHeader.encode, programHeaderSize]
    omega
  rw [ElfProgramHeader.parse, if_neg long, ElfProgramHeader.read_encode]

end FangaOS.Elf
