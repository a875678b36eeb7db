import Mathlib.Data.List.Basic
import Mathlib.Tactic.SplitIfs
import Mathlib.Tactic.Ring
import FangaOS.Lib.Slice

/-! The Internet checksum of RFC 1071, on naturals: the end-around carry is the
residue modulo `65535` taken in `1..65535` for a non-zero sum. -/

namespace InternetChecksum

/-- The one's-complement sum of words from their plain sum. -/
def endAroundCarry (sum : Nat) : Nat :=
  if sum < 65536 then sum else endAroundCarry (sum % 65536 + sum / 65536)
termination_by sum
decreasing_by omega

theorem endAroundCarry_eq (sum : Nat) :
    endAroundCarry sum = if sum = 0 then 0 else (sum - 1) % 65535 + 1 := by
  induction sum using endAroundCarry.induct with
  | case1 sum small =>
      rw [endAroundCarry, if_pos small]
      split_ifs <;> omega
  | case2 sum large ih =>
      rw [endAroundCarry, if_neg large, ih]
      -- folding the high half onto the low half subtracts a multiple of 65535
      have folded : sum % 65536 + sum / 65536 = sum - 65535 * (sum / 65536) := by omega
      rw [if_neg (by omega), if_neg (by omega), folded]
      omega

theorem endAroundCarry_le (sum : Nat) : endAroundCarry sum ≤ 65535 := by
  rw [endAroundCarry_eq]
  split_ifs <;> omega

theorem endAroundCarry_add_complement (sum : Nat) :
    endAroundCarry (sum + (65535 - endAroundCarry sum)) = 65535 := by
  rw [endAroundCarry_eq sum]
  split_ifs with zero
  · rw [endAroundCarry_eq, if_neg (by omega)]
    omega
  · rw [endAroundCarry_eq, if_neg (by omega)]
    omega

theorem add_complement_lt {sum : Nat} (small : sum < 2 ^ 32) :
    sum + (65535 - endAroundCarry sum) < 2 ^ 32 := by
  rw [endAroundCarry_eq]
  split_ifs <;> omega

def wordSum : List UInt8 → Nat
  | [] => 0
  | [last] => last.toNat * 256
  | high :: low :: rest => high.toNat * 256 + low.toNat + wordSum rest

/-- RFC 1071: the one's complement of the one's-complement sum of the words. -/
def checksum (data : List UInt8) : Nat :=
  65535 - endAroundCarry (wordSum data)

theorem wordSum_append {front : List UInt8} (even : front.length % 2 = 0) (back : List UInt8) :
    wordSum (front ++ back) = wordSum front + wordSum back := by
  induction front using wordSum.induct with
  | case1 => simp [wordSum]
  | case2 last => simp at even
  | case3 high low rest ih =>
      simp only [List.length_cons] at even
      rw [List.cons_append, List.cons_append, wordSum, wordSum, ih (by omega)]
      omega

theorem wordSum_le (data : List UInt8) : wordSum data ≤ 65535 * ((data.length + 1) / 2) := by
  induction data using wordSum.induct with
  | case1 => simp [wordSum]
  | case2 last =>
      have byte := last.toNat_lt
      simp only [wordSum, List.length_singleton]
      omega
  | case3 high low rest ih =>
      have highByte := high.toNat_lt
      have lowByte := low.toNat_lt
      simp only [wordSum, List.length_cons]
      omega

theorem wordSum_replicate (pairs : Nat) (byte : UInt8) :
    wordSum (List.replicate (2 * pairs) byte) = pairs * (byte.toNat * 257) := by
  induction pairs with
  | zero => simp [wordSum]
  | succ pairs ih =>
      rw [show 2 * (pairs + 1) = 2 * pairs + 1 + 1 by omega, List.replicate_succ,
        List.replicate_succ, wordSum, ih]
      ring

theorem eq_of_extract_zero {data : List UInt8} {offset : Nat}
    (zeroWord : data.extract offset (offset + 2) = [0, 0]) :
    offset + 2 ≤ data.length ∧ data = data.take offset ++ [0, 0] ++ data.drop (offset + 2) := by
  rw [List.extract_eq_take_drop, Nat.add_sub_cancel_left] at zeroWord
  have fits : offset + 2 ≤ data.length := by
    have length := congrArg List.length zeroWord
    simp only [List.length_take, List.length_drop, List.length_cons, List.length_nil] at length
    omega
  refine ⟨fits, ?_⟩
  calc data = data.take offset ++ data.drop offset := (List.take_append_drop _ _).symm
    _ = data.take offset ++ ((data.drop offset).take 2 ++ (data.drop offset).drop 2) := by
        rw [List.take_append_drop 2 (data.drop offset)]
    _ = data.take offset ++ [0, 0] ++ data.drop (offset + 2) := by
        rw [zeroWord, List.drop_drop, List.append_assoc]

theorem wordSum_overwrite {data : List UInt8} {offset : Nat} (even : offset % 2 = 0)
    (zeroWord : data.extract offset (offset + 2) = [0, 0]) (high low : UInt8) :
    wordSum (Slice.overwrite data offset [high, low]) =
      wordSum data + (high.toNat * 256 + low.toNat) := by
  obtain ⟨fits, split⟩ := eq_of_extract_zero zeroWord
  have frontEven : (data.take offset).length % 2 = 0 := by
    rw [List.length_take, Nat.min_eq_left (by omega)]
    exact even
  conv_rhs => rw [split]
  rw [Slice.overwrite, List.append_assoc, List.append_assoc, wordSum_append frontEven,
    wordSum_append frontEven, List.cons_append, List.cons_append, List.cons_append,
    List.cons_append, List.nil_append, List.nil_append, wordSum, wordSum, List.length_cons,
    List.length_cons, List.length_nil]
  simp
  omega

end InternetChecksum
