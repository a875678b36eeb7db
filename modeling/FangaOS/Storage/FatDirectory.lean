import FangaOS.Lib.Slice

/-! FAT32 directory entries of `storage/fat32/directory.rs`.  Only the name, the
attributes and the cluster halves are kept: `new` zeroes the other fields and no
modelled function reads them. -/

namespace FangaOS.Fat

def attrDirectory : UInt8 := 0x10

def attrArchive : UInt8 := 0x20

/-- `DirectoryEntry`, with the fields that its methods read and write. -/
structure DirectoryEntry where
  name : Vector UInt8 11
  attributes : UInt8
  firstClusterHigh : UInt16
  firstClusterLow : UInt16
  deriving DecidableEq, Repr

def DirectoryEntry.isEmpty (entry : DirectoryEntry) : Bool :=
  entry.name[0] == 0x00 || entry.name[0] == 0xE5

def DirectoryEntry.isDirectory (entry : DirectoryEntry) : Bool :=
  entry.attributes &&& attrDirectory != 0

def DirectoryEntry.firstCluster (entry : DirectoryEntry) : UInt32 :=
  (entry.firstClusterHigh.toUInt32 <<< 16) ||| entry.firstClusterLow.toUInt32

def DirectoryEntry.setFirstCluster (entry : DirectoryEntry) (cluster : UInt32) : DirectoryEntry :=
  { entry with
    firstClusterHigh := ((cluster >>> 16) &&& 0xFFFF).toUInt16
    firstClusterLow := (cluster &&& 0xFFFF).toUInt16 }

/-- `b' '`. -/
def space : UInt8 := 0x20

/-- `c as char` for a byte. -/
def byteChar (b : UInt8) : Char :=
  Char.ofNat b.toNat

def DirectoryEntry.getShortName (entry : DirectoryEntry) : List Char :=
  let base := (entry.name.toList.take 8).takeWhile (· != space)
  let hasExt := entry.name[8] != space
  let ext := (entry.name.toList.drop 8).takeWhile (· != space)
  base.map byteChar ++ if hasExt then '.' :: ext.map byteChar else []

def toAsciiUppercase (b : UInt8) : UInt8 :=
  if 0x61 ≤ b ∧ b ≤ 0x7A then b - 0x20 else b

/-- `str::as_bytes`: the UTF-8 encoding of the characters. -/
def asBytes (s : List Char) : List UInt8 :=
  s.flatMap String.utf8EncodeChar

def DirectoryEntry.new (name : List Char) (isDirectory : Bool) : DirectoryEntry :=
  let parts := name.splitOn '.'
  let basename := asBytes (parts.getD 0 [])
  let ext := if parts.length > 1 then asBytes (parts.getD 1 []) else []
  { name := Slice.writeEach (Slice.writeEach (Vector.replicate 11 space) 0
        ((basename.take 8).map toAsciiUppercase)) 8 ((ext.take 3).map toAsciiUppercase)
    attributes := if isDirectory then attrDirectory else attrArchive
    firstClusterHigh := 0
    firstClusterLow := 0 }

/-! ### The first cluster -/

theorem DirectoryEntry.firstCluster_setFirstCluster (entry : DirectoryEntry) (cluster : UInt32) :
    (entry.setFirstCluster cluster).firstCluster = cluster := by
  apply UInt32.toNat_inj.mp
  have bound := cluster.toNat_lt
  have mask : ∀ x : Nat, x &&& 65535 = x % 65536 := fun x => Nat.and_two_pow_sub_one_eq_mod x 16
  -- the two halves are the quotient and the remainder by `2 ^ 16`
  have high : (((cluster >>> 16) &&& 0xFFFF).toUInt16.toUInt32).toNat = cluster.toNat / 65536 := by
    simp only [UInt32.toNat_toUInt16, UInt16.toNat_toUInt32, UInt32.toNat_and,
      UInt32.toNat_shiftRight]
    simp only [UInt32.reduceToNat, Nat.reduceMod, mask, Nat.shiftRight_eq_div_pow]
    omega
  have low : ((cluster &&& 0xFFFF).toUInt16.toUInt32).toNat = cluster.toNat % 65536 := by
    simp only [UInt32.toNat_toUInt16, UInt16.toNat_toUInt32, UInt32.toNat_and]
    simp only [UInt32.reduceToNat, mask]
    omega
  unfold firstCluster setFirstCluster
  rw [UInt32.toNat_or, UInt32.toNat_shiftLeft, high, low,
    show UInt32.toNat 16 % 32 = 16 from rfl, Nat.mod_eq_of_lt (by rw [Nat.shiftLeft_eq]; omega),
    ← Nat.shiftLeft_add_eq_or_of_lt (by omega : cluster.toNat % 65536 < 2 ^ 16), Nat.shiftLeft_eq]
  omega

/-! ### Characters of a short name -/

/-- A character that a short name may hold: printable ASCII other than `.`,
` ` and `/`. -/
def ShortNameChar (c : Char) : Prop :=
  0x20 ≤ c.toNat ∧ c.toNat ≤ 0x7E ∧ c ≠ '.' ∧ c ≠ ' ' ∧ c ≠ '/'

instance : DecidablePred ShortNameChar := fun c =>
  inferInstanceAs (Decidable (0x20 ≤ c.toNat ∧ c.toNat ≤ 0x7E ∧ c ≠ '.' ∧ c ≠ ' ' ∧ c ≠ '/'))

theorem utf8EncodeChar_of_ascii {c : Char} (ascii : c.toNat < 128) :
    String.utf8EncodeChar c = [c.toNat.toUInt8] := by
  have small : c.val.toNat ≤ 0x7f := by
    unfold Char.toNat at ascii
    omega
  unfold String.utf8EncodeChar
  rw [if_pos small]
  rfl

theorem asBytes_of_ascii {s : List Char} (ascii : ∀ c ∈ s, c.toNat < 128) :
    asBytes s = s.map fun c => c.toNat.toUInt8 := by
  unfold asBytes
  induction s with
  | nil => rfl
  | cons c s ih =>
      rw [List.flatMap_cons, List.map_cons, utf8EncodeChar_of_ascii (ascii c List.mem_cons_self),
        ih fun d member => ascii d (List.mem_cons_of_mem c member)]
      rfl

theorem byteChar_toAsciiUppercase_ascii :
    ∀ n < 128, byteChar (toAsciiUppercase n.toUInt8) = (Char.ofNat n).toUpper := by
  decide

theorem toAsciiUppercase_printable :
    ∀ n < 128, 0x21 ≤ n → toAsciiUppercase n.toUInt8 ≠ space ∧
      toAsciiUppercase n.toUInt8 ≠ 0 ∧ toAsciiUppercase n.toUInt8 ≠ 0xE5 := by
  decide

theorem ShortNameChar.ascii {c : Char} (valid : ShortNameChar c) : c.toNat < 128 := by
  have := valid.2.1
  omega

theorem ShortNameChar.above_space {c : Char} (valid : ShortNameChar c) : 0x21 ≤ c.toNat := by
  obtain ⟨printable, -, -, notSpace, -⟩ := valid
  have : c.toNat ≠ 0x20 := fun same => notSpace (Char.toNat_inj.mp same)
  omega

/-- The bytes that `new` stores for the characters of one part of a name. -/
def upperBytes (part : List Char) : List UInt8 :=
  part.map fun c => toAsciiUppercase c.toNat.toUInt8

theorem upperBytes_of_valid {part : List Char} (valid : ∀ c ∈ part, ShortNameChar c) :
    (upperBytes part).map byteChar = part.map Char.toUpper := by
  unfold upperBytes
  rw [List.map_map]
  apply List.map_congr_left
  intro c member
  have upper := byteChar_toAsciiUppercase_ascii c.toNat (valid c member).ascii
  rw [Char.ofNat_toNat] at upper
  exact upper

theorem space_not_mem_upperBytes {part : List Char} (valid : ∀ c ∈ part, ShortNameChar c) :
    space ∉ upperBytes part := by
  unfold upperBytes
  rw [List.mem_map]
  rintro ⟨c, member, same⟩
  exact (toAsciiUppercase_printable c.toNat (valid c member).ascii
    (valid c member).above_space).1 same

/-! ### Writing the name and reading it back -/

/-- The eleven bytes of a base name and an extension, each padded with spaces. -/
def nameField (base ext : List UInt8) : List UInt8 :=
  base ++ List.replicate (8 - base.length) space ++ ext ++ List.replicate (3 - ext.length) space

theorem toList_writeName {base ext : List UInt8} (baseFits : base.length ≤ 8)
    (extFits : ext.length ≤ 3) :
    (Slice.writeEach (Slice.writeEach (Vector.replicate 11 space) 0 base) 8 ext).toList =
      nameField base ext := by
  rw [Slice.toList_writeEach _ (by omega), Slice.toList_writeEach _ (by omega),
    Vector.toList_replicate]
  -- the base name and its padding fill the first eight bytes exactly
  have padded : List.replicate (11 - base.length) space =
      List.replicate (8 - base.length) space ++ List.replicate 3 space := by
    rw [List.replicate_append_replicate]
    congr 1
    omega
  have baseField : (base ++ List.replicate (8 - base.length) space).length = 8 := by
    rw [List.length_append, List.length_replicate]
    omega
  have fromEight := Slice.overwrite_append_length
    (base ++ List.replicate (8 - base.length) space) (List.replicate 3 space) ext
  rw [baseField] at fromEight
  rw [Slice.overwrite_replicate_zero, padded, ← List.append_assoc, fromEight,
    Slice.overwrite_replicate_zero]
  unfold nameField
  simp only [List.append_assoc]

theorem takeWhile_padded {part : List UInt8} (clear : space ∉ part) (width : Nat) :
    (part ++ List.replicate (width - part.length) space).takeWhile (· != space) = part := by
  have kept : ∀ b ∈ part, (b != space) = true := by
    intro b member
    rw [bne_iff_ne]
    rintro rfl
    exact clear member
  rw [List.takeWhile_append_of_pos kept, List.takeWhile_replicate, bne_self_eq_false,
    if_neg Bool.false_ne_true, List.append_nil]

theorem DirectoryEntry.getShortName_of_nameField {entry : DirectoryEntry} {base ext : List UInt8}
    (layout : entry.name.toList = nameField base ext) (baseFits : base.length ≤ 8)
    (baseClear : space ∉ base) (extClear : space ∉ ext) :
    entry.getShortName = base.map byteChar ++ if ext = [] then [] else '.' :: ext.map byteChar := by
  have baseField : (base ++ List.replicate (8 - base.length) space).length = 8 := by
    rw [List.length_append, List.length_replicate]
    omega
  have front : entry.name.toList.take 8 = base ++ List.replicate (8 - base.length) space := by
    rw [layout, nameField, List.append_assoc _ ext, List.take_left' baseField]
  have back : entry.name.toList.drop 8 = ext ++ List.replicate (3 - ext.length) space := by
    rw [layout, nameField, List.append_assoc _ ext, List.drop_left' baseField]
  -- byte 8 is the first byte of the extension field
  have eighth : some entry.name[8] = (ext ++ List.replicate (3 - ext.length) space)[0]? := by
    rw [← back, List.getElem?_drop]
    simp
  unfold getShortName
  dsimp only
  rw [front, back, takeWhile_padded baseClear, takeWhile_padded extClear]
  cases ext with
  | nil =>
      have atSpace : entry.name[8] = space := by
        simpa using eighth
      rw [atSpace, bne_self_eq_false, if_neg Bool.false_ne_true, if_pos rfl]
  | cons first rest =>
      have atFirst : entry.name[8] = first := by
        simpa using eighth
      have notSpace : first ≠ space := fun same => extClear (same ▸ List.mem_cons_self)
      rw [atFirst, if_pos (bne_iff_ne.mpr notSpace), if_neg (List.cons_ne_nil first rest)]

/-! ### Names of the form `base` or `base.ext` -/

/-- The name `base` when the extension is empty, and `base.ext` otherwise. -/
def shortName (base ext : List Char) : List Char :=
  if ext = [] then base else base ++ '.' :: ext

theorem ShortNameChar.ne_dot {c : Char} (valid : ShortNameChar c) : c ≠ '.' :=
  valid.2.2.1

theorem dot_not_mem {part : List Char} (valid : ∀ c ∈ part, ShortNameChar c) : '.' ∉ part :=
  fun member => (valid '.' member).ne_dot rfl

theorem splitOn_shortName {base ext : List Char} (baseChars : ∀ c ∈ base, ShortNameChar c)
    (extChars : ∀ c ∈ ext, ShortNameChar c) :
    (shortName base ext).splitOn '.' = if ext = [] then [base] else [base, ext] := by
  unfold shortName
  split_ifs with noExt
  · have single : (['.'].intercalate [base]).splitOn '.' = [base] :=
      List.splitOn_intercalate '.' (by simpa using dot_not_mem baseChars) (List.cons_ne_nil _ _)
    simpa using single
  · have pair : (['.'].intercalate [base, ext]).splitOn '.' = [base, ext] :=
      List.splitOn_intercalate '.' (by simpa using ⟨dot_not_mem baseChars, dot_not_mem extChars⟩)
        (List.cons_ne_nil _ _)
    simpa [List.intercalate] using pair

theorem asBytes_take {part : List Char} (valid : ∀ c ∈ part, ShortNameChar c) {width : Nat}
    (fits : part.length ≤ width) :
    ((asBytes part).take width).map toAsciiUppercase = upperBytes part := by
  rw [asBytes_of_ascii fun c member => (valid c member).ascii,
    List.take_of_length_le (by rw [List.length_map]; exact fits), List.map_map]
  rfl

theorem DirectoryEntry.toList_name_new {base ext : List Char}
    (baseChars : ∀ c ∈ base, ShortNameChar c) (baseFits : base.length ≤ 8)
    (extChars : ∀ c ∈ ext, ShortNameChar c) (extFits : ext.length ≤ 3) (isDirectory : Bool) :
    (DirectoryEntry.new (shortName base ext) isDirectory).name.toList =
      nameField (upperBytes base) (upperBytes ext) := by
  have upperFits : ∀ part : List Char, (upperBytes part).length = part.length := fun part =>
    List.length_map _
  unfold DirectoryEntry.new
  dsimp only
  rw [splitOn_shortName baseChars extChars]
  by_cases noExt : ext = []
  · subst noExt
    rw [if_pos rfl]
    simp only [List.getD_cons_zero, List.length_singleton, gt_iff_lt, Nat.lt_irrefl,
      if_false, List.take_nil, List.map_nil]
    rw [asBytes_take baseChars baseFits, toList_writeName (by rw [upperFits]; exact baseFits)
      (by simp)]
    rfl
  · rw [if_neg noExt]
    simp only [List.getD_cons_zero, List.length_cons, List.length_nil, List.getD_cons_succ]
    rw [if_pos (by decide), asBytes_take baseChars baseFits, asBytes_take extChars extFits,
      toList_writeName (by rw [upperFits]; exact baseFits) (by rw [upperFits]; exact extFits)]

theorem DirectoryEntry.isDirectory_new (name : List Char) (isDirectory : Bool) :
    (DirectoryEntry.new name isDirectory).isDirectory = isDirectory := by
  simp only [DirectoryEntry.isDirectory, DirectoryEntry.new]
  cases isDirectory <;> decide

theorem fat_short_name_round_trip (base ext : List Char) (isDirectory : Bool)
    (baseChars : ∀ c ∈ base, ShortNameChar c) (baseLength : 1 ≤ base.length ∧ base.length ≤ 8)
    (extChars : ∀ c ∈ ext, ShortNameChar c) (extLength : ext.length ≤ 3) :
    let entry : DirectoryEntry := DirectoryEntry.new (shortName base ext) isDirectory
    (entry.getShortName = (shortName base ext).map Char.toUpper ∧ entry.isEmpty = false ∧
      entry.isDirectory = isDirectory) ∧
    ∀ (other : DirectoryEntry) (cluster : UInt32),
      (other.setFirstCluster cluster).firstCluster = cluster := by
  intro entry
  have layout := DirectoryEntry.toList_name_new baseChars baseLength.2 extChars extLength
    isDirectory
  have read := DirectoryEntry.getShortName_of_nameField layout
    (by rw [upperBytes, List.length_map]; exact baseLength.2)
    (space_not_mem_upperBytes baseChars) (space_not_mem_upperBytes extChars)
  refine ⟨⟨?_, ?_, DirectoryEntry.isDirectory_new _ isDirectory⟩,
    DirectoryEntry.firstCluster_setFirstCluster⟩
  · -- the base name, then the extension after its dot, in upper case
    rw [read, upperBytes_of_valid baseChars, upperBytes_of_valid extChars]
    unfold shortName
    by_cases noExt : ext = []
    · subst noExt
      simp [upperBytes]
    · have upperNonempty : upperBytes ext ≠ [] := by
        simpa [upperBytes] using noExt
      rw [if_neg upperNonempty, if_neg noExt, List.map_append, List.map_cons]
      rfl
  · -- the first byte is the uppercased first character of the base name
    obtain ⟨first, rest, rfl⟩ := List.exists_cons_of_ne_nil
      (List.ne_nil_of_length_pos (by omega : 0 < base.length))
    have valid := baseChars first List.mem_cons_self
    have firstByte : entry.name[0] = toAsciiUppercase first.toNat.toUInt8 := by
      have atZero : entry.name.toList[0]? = some entry.name[0] := by
        simp
      rw [layout] at atZero
      exact (Option.some.inj atZero).symm
    obtain ⟨-, notZero, notDeleted⟩ := toAsciiUppercase_printable first.toNat valid.ascii
      valid.above_space
    unfold DirectoryEntry.isEmpty
    rw [firstByte]
    simp [notZero, notDeleted]

theorem fat_short_name_round_trip_test_txt :
    (∀ c ∈ ['t', 'e', 's', 't'], ShortNameChar c) ∧ (∀ c ∈ ['t', 'x', 't'], ShortNameChar c) ∧
      (DirectoryEntry.new (shortName ['t', 'e', 's', 't'] ['t', 'x', 't']) false).getShortName =
        ['T', 'E', 'S', 'T', '.', 'T', 'X', 'T'] := by
  have baseValid : ∀ c ∈ ['t', 'e', 's', 't'], ShortNameChar c := by
    simp only [List.forall_mem_cons, List.not_mem_nil, false_imp_iff, implies_true, and_true]
    decide
  have extValid : ∀ c ∈ ['t', 'x', 't'], ShortNameChar c := by
    simp only [List.forall_mem_cons, List.not_mem_nil, false_imp_iff, implies_true, and_true]
    decide
  have round := fat_short_name_round_trip ['t', 'e', 's', 't'] ['t', 'x', 't'] false
    baseValid (by decide) extValid (by decide)
  exact ⟨baseValid, extValid, round.1.1.trans (by decide +kernel)⟩

end FangaOS.Fat
