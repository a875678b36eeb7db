import Mathlib.Data.Nat.Bitwise

/-! Single bits, low masks and trailing zeros of 64-bit words, through
`Nat.testBit` of `toNat`, and the order of the words as keys of an ordered map. -/

namespace UInt64

instance instLinearOrder : LinearOrder UInt64 where
  le_refl := UInt64.le_refl
  le_trans _ _ _ := UInt64.le_trans
  le_antisymm _ _ := UInt64.le_antisymm
  le_total := UInt64.le_total
  lt_iff_le_not_ge a b := by
    rw [UInt64.lt_iff_le_and_ne]
    constructor
    · rintro ⟨le, different⟩
      exact ⟨le, fun ge => different (UInt64.le_antisymm le ge)⟩
    · rintro ⟨le, notGe⟩
      exact ⟨le, fun same => notGe (same ▸ UInt64.le_refl a)⟩
  toDecidableLE := inferInstance
  toDecidableEq := inferInstance
  toDecidableLT := inferInstance
  min_def _ _ := rfl
  max_def _ _ := rfl
  compare a b := compare a b
  compare_eq_compareOfLessAndEq _ _ := rfl

theorem toNat_add_of_lt {a b : UInt64} (h : a.toNat + b.toNat < 2 ^ 64) :
    (a + b).toNat = a.toNat + b.toNat := by
  rw [UInt64.toNat_add]
  exact Nat.mod_eq_of_lt h

theorem toNat_one_shiftLeft {i : Nat} (h : i < 64) :
    ((1 : UInt64) <<< i.toUInt64).toNat = 2 ^ i := by
  have small : i.toUInt64.toNat = i := Nat.mod_eq_of_lt (by omega)
  have pow : 2 ^ i < 2 ^ 64 := Nat.pow_lt_pow_right (by decide) h
  rw [UInt64.toNat_shiftLeft, small, Nat.mod_eq_of_lt h, toNat_one, Nat.one_shiftLeft,
    Nat.mod_eq_of_lt pow]

theorem and_one_shiftLeft_beq_zero (x : UInt64) {i : Nat} (h : i < 64) :
    (x &&& (1 <<< i.toUInt64) == 0) = !x.toNat.testBit i := by
  have masked : (x &&& (1 <<< i.toUInt64)).toNat = (x.toNat.testBit i).toNat * 2 ^ i := by
    rw [UInt64.toNat_and, toNat_one_shiftLeft h, Nat.and_two_pow]
  rw [Bool.eq_iff_iff, beq_iff_eq, ← UInt64.toNat_inj, masked]
  cases x.toNat.testBit i <;> simp

theorem testBit_or_one_shiftLeft (x : UInt64) {i : Nat} (h : i < 64) (j : Nat) :
    (x ||| (1 <<< i.toUInt64)).toNat.testBit j = (x.toNat.testBit j || decide (i = j)) := by
  rw [UInt64.toNat_or, Nat.testBit_or, toNat_one_shiftLeft h, Nat.testBit_two_pow]

theorem testBit_of_le (x : UInt64) {j : Nat} (h : 64 ≤ j) : x.toNat.testBit j = false := by
  have wide : 2 ^ 64 ≤ 2 ^ j := Nat.pow_le_pow_right (by decide) h
  exact Nat.testBit_lt_two_pow (Nat.lt_of_lt_of_le x.toNat_lt_size wide)

theorem testBit_not (x : UInt64) (j : Nat) :
    (~~~x).toNat.testBit j = (decide (j < 64) && !x.toNat.testBit j) := by
  have below := x.toNat_lt_size
  rw [UInt64.toNat_not, show UInt64.size - 1 - x.toNat = 2 ^ 64 - (x.toNat + 1) by
    simp only [UInt64.size] at *; omega]
  exact Nat.testBit_two_pow_sub_succ below j

theorem testBit_and_not_one_shiftLeft (x : UInt64) {i : Nat} (h : i < 64) (j : Nat) :
    (x &&& ~~~(1 <<< i.toUInt64)).toNat.testBit j = (x.toNat.testBit j && !decide (i = j)) := by
  rw [UInt64.toNat_and, Nat.testBit_and, testBit_not, toNat_one_shiftLeft h, Nat.testBit_two_pow]
  by_cases low : j < 64
  · simp [low]
  · simp [x.testBit_of_le (Nat.le_of_not_lt low)]

theorem testBit_allOnes {j : Nat} (h : j < 64) : (~~~(0 : UInt64)).toNat.testBit j = true := by
  rw [testBit_not]
  simp [h]

theorem or_one_shiftLeft_test (x : UInt64) {i j : Nat} (hi : i < 64) (hj : j < 64) :
    ((x ||| (1 <<< i.toUInt64)) &&& (1 <<< j.toUInt64) == 0) =
      ((x &&& (1 <<< j.toUInt64) == 0) && !decide (i = j)) := by
  rw [and_one_shiftLeft_beq_zero _ hj, and_one_shiftLeft_beq_zero _ hj,
    testBit_or_one_shiftLeft _ hi]
  cases x.toNat.testBit j <;> simp

theorem and_not_one_shiftLeft_test (x : UInt64) {i j : Nat} (hi : i < 64) (hj : j < 64) :
    ((x &&& ~~~(1 <<< i.toUInt64)) &&& (1 <<< j.toUInt64) == 0) =
      ((x &&& (1 <<< j.toUInt64) == 0) || decide (i = j)) := by
  rw [and_one_shiftLeft_beq_zero _ hj, and_one_shiftLeft_beq_zero _ hj,
    testBit_and_not_one_shiftLeft _ hi]
  cases x.toNat.testBit j <;> simp

theorem allOnes_test {j : Nat} (hj : j < 64) : (~~~(0 : UInt64) &&& (1 <<< j.toUInt64) == 0) = false := by
  rw [and_one_shiftLeft_beq_zero _ hj, testBit_allOnes hj]
  rfl

theorem and_or_distrib_left (a b c : UInt64) : a &&& (b ||| c) = a &&& b ||| a &&& c :=
  UInt64.toBitVec_inj.1 BitVec.and_or_distrib_left

theorem and_or_distrib_right (a b c : UInt64) : (a ||| b) &&& c = a &&& c ||| b &&& c :=
  UInt64.toBitVec_inj.1 BitVec.and_or_distrib_right

theorem and_not_eq_self {x mask : UInt64} (outside : x &&& mask = 0) : x &&& ~~~mask = x :=
  calc x &&& ~~~mask = x &&& mask ||| x &&& ~~~mask := by rw [outside, UInt64.zero_or]
    _ = x := by rw [← and_or_distrib_left, UInt64.or_not_self, UInt64.and_neg_one]

/-- `u64::trailing_zeros`: the number of zero bits below the lowest set bit, `64`
for `0`. -/
def trailingZeros (x : UInt64) : Nat :=
  x.toBitVec.ctz.toNat

theorem testBit_of_lt_trailingZeros {x : UInt64} {i : Nat} (below : i < x.trailingZeros) :
    x.toNat.testBit i = false :=
  BitVec.getLsbD_false_of_lt_ctz below

theorem testBit_trailingZeros {x : UInt64} (nonzero : x ≠ 0) :
    x.toNat.testBit x.trailingZeros = true :=
  BitVec.getLsbD_true_ctz_of_ne_zero fun zero => nonzero (UInt64.toBitVec_inj.mp zero)

theorem toNat_and_not_pred (x align : UInt64) {k : Nat} (h : k < 64)
    (power : align.toNat = 2 ^ k) : (x &&& ~~~(align - 1)).toNat = x.toNat / 2 ^ k * 2 ^ k := by
  have positive : 1 ≤ align.toNat := power ▸ Nat.one_le_two_pow
  have pred : (align - 1).toNat = 2 ^ k - 1 := by
    rw [UInt64.toNat_sub_of_le _ _ (by simpa [UInt64.le_iff_toNat_le] using positive), power]
    rfl
  apply Nat.eq_of_testBit_eq
  intro j
  rw [UInt64.toNat_and, Nat.testBit_and, testBit_not, pred, Nat.testBit_two_pow_sub_one,
    Nat.testBit_mul_two_pow, Nat.testBit_div_two_pow]
  by_cases low : j < 64
  · by_cases above : k ≤ j
    · simp [low, above, Nat.sub_add_cancel above, Nat.not_lt.mpr above]
    · simp [low, above, Nat.lt_of_not_le above]
  · have above : k ≤ j := by omega
    simp [x.testBit_of_le (Nat.le_of_not_lt low), above]

end UInt64
