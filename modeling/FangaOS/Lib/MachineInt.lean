import Mathlib

/-! Wrapping signed sums, the casts between `i64` and `u64`, and `u64` counters
that never reach `2^64`. -/

namespace Int64

theorem nonneg_add_iff {a b : Int64} (nonneg : 0 ≤ a.toInt) :
    0 ≤ (a + b).toInt ↔ 0 ≤ a.toInt + b.toInt ∧ a.toInt + b.toInt < 2 ^ 63 := by
  have below := a.toInt_le
  have above := b.le_toInt
  have belowB := b.toInt_le
  rw [Int64.toInt_maxValue] at below belowB
  rw [Int64.toInt_add, Int.bmod_def]
  split <;> omega

theorem toInt_add_of_nonneg {a b : Int64} (nonneg : 0 ≤ a.toInt) (sum : 0 ≤ (a + b).toInt) :
    (a + b).toInt = a.toInt + b.toInt := by
  have inRange := (nonneg_add_iff nonneg).mp sum
  rw [Int64.toInt_add]
  exact Int.bmod_eq_of_le (by omega) (by omega)

theorem toNat_toUInt64 {v : Int64} (nonneg : 0 ≤ v.toInt) : (v.toUInt64.toNat : Int) = v.toInt := by
  have small := v.toInt_le
  rw [Int64.toInt_maxValue] at small
  rw [← Int64.toInt_toBitVec, BitVec.toInt_eq_toNat_cond] at nonneg small ⊢
  rw [UInt64.toNat, Int64.toBitVec_toUInt64]
  split at nonneg <;> omega

theorem toUInt64_eq_ofNat {v : Int64} (nonneg : 0 ≤ v.toInt) :
    v.toUInt64 = UInt64.ofNat v.toInt.toNat := by
  rw [← toNat_toUInt64 nonneg, Int.toNat_natCast, UInt64.ofNat_toNat]

end Int64

namespace UInt64

theorem toNat_ofNat_of_small {n : Nat} (small : n < 2 ^ 64) : (UInt64.ofNat n).toNat = n := by
  rw [UInt64.toNat_ofNat', Nat.mod_eq_of_lt small]

theorem ofNat_add_one (n : Nat) : UInt64.ofNat n + 1 = UInt64.ofNat (n + 1) := by
  apply UInt64.toNat_inj.mp
  simp [UInt64.toNat_add, UInt64.toNat_ofNat', Nat.add_mod]

theorem ofNat_eq_zero_iff {n : Nat} (small : n < 2 ^ 64) : UInt64.ofNat n = 0 ↔ n = 0 := by
  rw [← UInt64.toNat_inj, toNat_ofNat_of_small small]
  rfl

theorem ofNat_sub_one {n : Nat} (positive : 0 < n) (small : n < 2 ^ 64) :
    UInt64.ofNat n - 1 = UInt64.ofNat (n - 1) := by
  have one : (1 : UInt64) ≤ UInt64.ofNat n := by
    rw [UInt64.le_iff_toNat_le, toNat_ofNat_of_small small]
    exact positive
  apply UInt64.toNat_inj.mp
  rw [UInt64.toNat_sub_of_le _ _ one, toNat_ofNat_of_small small, toNat_ofNat_of_small (by omega)]
  rfl

theorem toInt_toInt64 {x : UInt64} (small : x.toNat < 2 ^ 63) : x.toInt64.toInt = x.toNat := by
  rw [← Int64.toInt_toBitVec, UInt64.toBitVec_toInt64, BitVec.toInt_eq_toNat_cond]
  rw [UInt64.toNat] at small
  split <;> first | rfl | omega

end UInt64

namespace Int32

theorem toInt_add_one {n : Int32} (below : n.toInt < 2 ^ 31 - 1) : (n + 1).toInt = n.toInt + 1 := by
  have above := n.le_toInt
  rw [Int32.toInt_add, show (1 : Int32).toInt = 1 from rfl]
  exact Int.bmod_eq_of_le (by omega) (by omega)

theorem maxValue_add_one : Int32.maxValue + 1 = Int32.minValue := by
  decide

end Int32
