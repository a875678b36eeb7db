import Mathlib.Data.Nat.Bitwise
import FangaOS.Lib.BitWord

/-! Addresses and alignment of `memory/addr.rs`, with wrapping `u64` arithmetic. -/

namespace FangaOS.Addr

def pageSize : Nat := 4096

structure PhysAddr where
  asU64 : UInt64
  deriving DecidableEq, Repr

structure VirtAddr where
  asU64 : UInt64
  deriving DecidableEq, Repr

/-- `align_up(val, align) = (val + (align - 1)) & !(align - 1)`. -/
def alignUp (val align : UInt64) : UInt64 :=
  (val + (align - 1)) &&& ~~~(align - 1)

/-- `align_down(val, align) = val & !(align - 1)`. -/
def alignDown (val align : UInt64) : UInt64 :=
  val &&& ~~~(align - 1)

/-- `VirtAddr::is_aligned(align)`: `self.0 % align == 0`. -/
def VirtAddr.isAligned (addr : VirtAddr) (align : UInt64) : Bool :=
  addr.asU64 % align == 0

theorem toNat_pageSize : pageSize.toUInt64.toNat = 2 ^ 12 := rfl

theorem VirtAddr.isAligned_pageSize (addr : VirtAddr) :
    addr.isAligned pageSize.toUInt64 = decide (addr.asU64.toNat % pageSize = 0) := by
  unfold VirtAddr.isAligned
  rw [Bool.eq_iff_iff, beq_iff_eq, decide_eq_true_iff, ← UInt64.toNat_inj, UInt64.toNat_mod,
    toNat_pageSize]
  rfl

theorem toNat_alignDown (val : UInt64) :
    (alignDown val pageSize.toUInt64).toNat = val.toNat / pageSize * pageSize :=
  UInt64.toNat_and_not_pred val _ (by decide) toNat_pageSize

theorem toNat_alignUp {val : UInt64} (small : val.toNat + (pageSize - 1) < 2 ^ 64) :
    (alignUp val pageSize.toUInt64).toNat = (val.toNat + (pageSize - 1)) / pageSize * pageSize := by
  have sum : (val + (pageSize.toUInt64 - 1)).toNat = val.toNat + (pageSize - 1) := by
    have pred : (pageSize.toUInt64 - 1).toNat = pageSize - 1 := rfl
    rw [UInt64.toNat_add_of_lt (pred ▸ small), pred]
  unfold alignUp
  rw [UInt64.toNat_and_not_pred _ _ (by decide) toNat_pageSize, sum]
  rfl

theorem alignUp_eq_alignDown (val align : UInt64) :
    alignUp val align = alignDown (val + (align - 1)) align := rfl

theorem toNat_alignDown_mod (val : UInt64) :
    (alignDown val pageSize.toUInt64).toNat % pageSize = 0 := by
  rw [toNat_alignDown, Nat.mul_mod_left]

theorem toNat_alignUp_mod (val : UInt64) :
    (alignUp val pageSize.toUInt64).toNat % pageSize = 0 := by
  rw [alignUp_eq_alignDown, toNat_alignDown_mod]

end FangaOS.Addr
