import FangaOS.Lib.BitWord

/-! The x86-64 page-table structures of `memory/paging/arch_x86_64.rs`.  A
`PageTableFlags` value carries as a field that it has no bit inside
`ADDR_MASK`. -/

namespace FangaOS.Paging

def addrMask : UInt64 := 0x000F_FFFF_FFFF_F000

@[ext] structure PageTableFlags where
  bits : UInt64
  outsideAddr : bits &&& addrMask = 0

namespace PageTableFlags

/-- `Self(1 << k)`, a flag of one bit outside the address. -/
def ofBit (k : Nat) (outside : (1 : UInt64) <<< k.toUInt64 &&& addrMask = 0) : PageTableFlags :=
  ⟨1 <<< k.toUInt64, outside⟩

def present : PageTableFlags := ofBit 0 (by decide)
def writable : PageTableFlags := ofBit 1 (by decide)
def user : PageTableFlags := ofBit 2 (by decide)
def writeThrough : PageTableFlags := ofBit 3 (by decide)
def noCache : PageTableFlags := ofBit 4 (by decide)
def accessed : PageTableFlags := ofBit 5 (by decide)
def dirty : PageTableFlags := ofBit 6 (by decide)
def hugePage : PageTableFlags := ofBit 7 (by decide)
def global : PageTableFlags := ofBit 8 (by decide)
def copyOnWrite : PageTableFlags := ofBit 9 (by decide)
def noExecute : PageTableFlags := ofBit 63 (by decide)

def empty : PageTableFlags :=
  ⟨0, UInt64.zero_and⟩

def contains (self flag : PageTableFlags) : Bool :=
  self.bits &&& flag.bits != 0

/-- `with(flag)`: the union of two flag sets. -/
def withFlag (self flag : PageTableFlags) : PageTableFlags :=
  ⟨self.bits ||| flag.bits, by
    rw [UInt64.and_or_distrib_right, self.outsideAddr, flag.outsideAddr, UInt64.or_zero]⟩

def without (self flag : PageTableFlags) : PageTableFlags :=
  ⟨self.bits &&& ~~~flag.bits, by
    rw [UInt64.and_assoc, UInt64.and_comm (~~~flag.bits), ← UInt64.and_assoc, self.outsideAddr,
      UInt64.zero_and]⟩

theorem contains_withFlag_self (self : PageTableFlags) {flag : PageTableFlags} (nonzero : flag.bits ≠ 0) :
    (self.withFlag flag).contains flag = true := by
  unfold contains withFlag
  rw [UInt64.and_or_distrib_right, UInt64.and_self, bne_iff_ne, ne_eq, UInt64.or_eq_zero_iff]
  exact fun both => nonzero both.2

theorem contains_withFlag_present (self : PageTableFlags) : (self.withFlag present).contains present = true :=
  self.contains_withFlag_self (by decide)

end PageTableFlags

structure PageTableEntry where
  raw : UInt64

namespace PageTableEntry

def flags (self : PageTableEntry) : PageTableFlags :=
  ⟨self.raw &&& ~~~addrMask, by rw [UInt64.and_assoc, UInt64.not_and_self, UInt64.and_zero]⟩

def isPresent (self : PageTableEntry) : Bool :=
  self.flags.contains PageTableFlags.present

def addr (self : PageTableEntry) : UInt64 :=
  self.raw &&& addrMask

/-- `set(addr, flags)` overwrites the entry.  Its `debug_assert!` on the
alignment of `addr` is not modelled. -/
def set (addr : UInt64) (flags : PageTableFlags) : PageTableEntry :=
  ⟨(addr &&& addrMask) ||| flags.bits⟩

def clear : PageTableEntry :=
  ⟨0⟩

/-- What the entry points to, when it is present. -/
def target (self : PageTableEntry) : Option UInt64 :=
  if self.isPresent then some self.addr else none

theorem addr_set (addr : UInt64) (flags : PageTableFlags) : (set addr flags).addr = addr &&& addrMask := by
  unfold set PageTableEntry.addr
  rw [UInt64.and_or_distrib_right, UInt64.and_assoc, UInt64.and_self, flags.outsideAddr, UInt64.or_zero]

theorem flags_set (addr : UInt64) (flags : PageTableFlags) : (set addr flags).flags = flags := by
  apply PageTableFlags.ext
  show ((addr &&& addrMask) ||| flags.bits) &&& ~~~addrMask = flags.bits
  rw [UInt64.and_or_distrib_right, UInt64.and_assoc, UInt64.and_not_self, UInt64.and_zero, UInt64.zero_or,
    UInt64.and_not_eq_self flags.outsideAddr]

theorem isPresent_set (addr : UInt64) (flags : PageTableFlags) :
    (set addr flags).isPresent = flags.contains PageTableFlags.present := by
  rw [isPresent, flags_set]

theorem target_set (addr : UInt64) (flags : PageTableFlags) :
    (set addr flags).target = if flags.contains PageTableFlags.present then some (addr &&& addrMask) else none := by
  rw [target, isPresent_set, addr_set]

theorem target_clear : clear.target = none := by
  decide

end PageTableEntry

theorem toNat_and_addrMask (addr : UInt64) : (addr &&& addrMask).toNat = addr.toNat % 2 ^ 52 / 2 ^ 12 * 2 ^ 12 := by
  have split : addrMask = (2 ^ 52 - 1 : UInt64) &&& ~~~(4096 - 1) := by decide
  have low : (2 ^ 52 - 1 : UInt64).toNat = 2 ^ 52 - 1 := rfl
  rw [split, ← UInt64.and_assoc, UInt64.toNat_and_not_pred _ 4096 (by decide : 12 < 64) rfl,
    UInt64.toNat_and, low, Nat.and_two_pow_sub_one_eq_mod]

theorem and_addrMask_of_aligned {addr : UInt64} (aligned : addr.toNat % 2 ^ 12 = 0) (below : addr.toNat < 2 ^ 52) :
    addr &&& addrMask = addr := by
  apply UInt64.toNat_inj.mp
  rw [toNat_and_addrMask, Nat.mod_eq_of_lt below, Nat.div_mul_cancel (Nat.dvd_of_mod_eq_zero aligned)]

structure PageTable where
  entries : Fin 512 → PageTableEntry

namespace PageTable

def entry (self : PageTable) (index : Fin 512) : PageTableEntry :=
  self.entries index

/-- A write through `entry_mut(index)`. -/
def setEntry (self : PageTable) (index : Fin 512) (entry : PageTableEntry) : PageTable :=
  ⟨Function.update self.entries index entry⟩

/-- The table after `clear()`, which clears every entry. -/
def clear : PageTable :=
  ⟨fun _ => PageTableEntry.clear⟩

theorem entry_setEntry (self : PageTable) (index other : Fin 512) (entry : PageTableEntry) :
    (self.setEntry index entry).entry other = if other = index then entry else self.entry other := by
  show Function.update self.entries index entry other = _
  rw [Function.update_apply]
  rfl

theorem entry_clear (index : Fin 512) : clear.entry index = PageTableEntry.clear :=
  rfl

end PageTable

/-- `((virt_addr >> shift) & 0x1FF) as usize`, the 9-bit index of one level. -/
def tableIndex (shift virtAddr : UInt64) : Fin 512 :=
  ⟨((virtAddr >>> shift) &&& 0x1FF).toNat, by
    rw [UInt64.toNat_and]
    exact Nat.lt_of_le_of_lt Nat.and_le_right (by decide)⟩

def pml4Index (virtAddr : UInt64) : Fin 512 := tableIndex 39 virtAddr
def pdptIndex (virtAddr : UInt64) : Fin 512 := tableIndex 30 virtAddr
def pdIndex (virtAddr : UInt64) : Fin 512 := tableIndex 21 virtAddr
def ptIndex (virtAddr : UInt64) : Fin 512 := tableIndex 12 virtAddr

def pageOffset (virtAddr : UInt64) : UInt64 :=
  virtAddr &&& 0xFFF

theorem val_tableIndex {shift : UInt64} (small : shift.toNat < 64) (virtAddr : UInt64) :
    (tableIndex shift virtAddr).val = virtAddr.toNat / 2 ^ shift.toNat % 2 ^ 9 := by
  show ((virtAddr >>> shift) &&& 0x1FF).toNat = _
  rw [UInt64.toNat_and, UInt64.toNat_shiftRight, Nat.mod_eq_of_lt small]
  show virtAddr.toNat >>> shift.toNat &&& 2 ^ 9 - 1 = _
  rw [Nat.and_two_pow_sub_one_eq_mod, Nat.shiftRight_eq_div_pow]

theorem toNat_pageOffset (virtAddr : UInt64) : (pageOffset virtAddr).toNat = virtAddr.toNat % 2 ^ 12 := by
  unfold pageOffset
  rw [UInt64.toNat_and]
  exact Nat.and_two_pow_sub_one_eq_mod _ 12

end FangaOS.Paging
