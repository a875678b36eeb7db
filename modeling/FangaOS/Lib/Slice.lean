import Mathlib.Data.List.GetD
import Mathlib.Tactic.SplitIfs

/-! Vectors as lists: `Vec::resize`, `copy_from_slice` into a range, and a loop
that stores a list element by element into a fixed array. -/

namespace Slice

variable {α : Type*}

/-- `Vec::resize(size, value)`. -/
def resize (data : List α) (size : Nat) (value : α) : List α :=
  data.take size ++ List.replicate (size - data.length) value

/-- `data[offset..offset + source.len()].copy_from_slice(source)`. -/
def overwrite (data : List α) (offset : Nat) (source : List α) : List α :=
  data.take offset ++ source ++ data.drop (offset + source.length)

@[simp] theorem length_resize (data : List α) (size : Nat) (value : α) :
    (resize data size value).length = size := by
  rw [resize, List.length_append, List.length_take, List.length_replicate]
  omega

theorem getElem?_resize (data : List α) (size : Nat) (value : α) (index : Nat) :
    (resize data size value)[index]? =
      if index < size then some (data.getD index value) else none := by
  unfold resize
  split_ifs with inside
  · by_cases old : index < data.length
    · rw [List.getElem?_append_left (by rw [List.length_take]; omega), List.getElem?_take,
        if_pos inside, List.getD_eq_getElem _ _ old, List.getElem?_eq_getElem old]
    · rw [List.getElem?_append_right (by rw [List.length_take]; omega), List.getElem?_replicate,
        List.getD_eq_default _ _ (by omega), List.length_take, if_pos (by omega)]
  · have length := length_resize data size value
    rw [resize] at length
    exact List.getElem?_eq_none (by omega)

theorem getD_resize (data : List α) (size : Nat) (value : α) (index : Nat) :
    (resize data size value).getD index value = if index < size then data.getD index value
      else value := by
  rw [List.getD_eq_getElem?_getD, getElem?_resize]
  split_ifs <;> rfl

theorem getD_resize_of_le {data : List α} {size : Nat} (grows : data.length ≤ size)
    (value : α) (index : Nat) : (resize data size value).getD index value = data.getD index value := by
  rw [getD_resize]
  split_ifs with inside
  · rfl
  · exact (List.getD_eq_default _ _ (by omega)).symm

theorem length_overwrite {data : List α} {offset : Nat} {source : List α}
    (fits : offset + source.length ≤ data.length) :
    (overwrite data offset source).length = data.length := by
  rw [overwrite, List.length_append, List.length_append, List.length_take, List.length_drop]
  omega

theorem getElem?_overwrite {data : List α} {offset : Nat} {source : List α}
    (fits : offset + source.length ≤ data.length) (index : Nat) :
    (overwrite data offset source)[index]? =
      if offset ≤ index ∧ index < offset + source.length then source[index - offset]?
      else data[index]? := by
  unfold overwrite
  have takeLength : (data.take offset).length = offset := by
    rw [List.length_take]
    omega
  split_ifs with inside
  · rw [List.getElem?_append_left (by rw [List.length_append, takeLength]; omega),
      List.getElem?_append_right (by omega), takeLength]
  · by_cases before : index < offset
    · rw [List.getElem?_append_left (by rw [List.length_append, takeLength]; omega),
        List.getElem?_append_left (by omega), List.getElem?_take, if_pos before]
    · rw [List.getElem?_append_right (by rw [List.length_append, takeLength]; omega),
        List.getElem?_drop, List.length_append, takeLength]
      congr 1
      omega

theorem getD_overwrite {data : List α} {offset : Nat} {source : List α}
    (fits : offset + source.length ≤ data.length) (index : Nat) (fallback : α) :
    (overwrite data offset source).getD index fallback =
      if offset ≤ index ∧ index < offset + source.length then source.getD (index - offset) fallback
      else data.getD index fallback := by
  rw [List.getD_eq_getElem?_getD, getElem?_overwrite fits]
  split_ifs <;> rfl

theorem overwrite_set_succ {data : List α} {position : Nat} (inside : position < data.length)
    (x : α) (source : List α) :
    overwrite (data.set position x) (position + 1) source = overwrite data position (x :: source) := by
  unfold overwrite
  rw [List.set_eq_take_append_cons_drop, if_pos inside]
  have takeLength : (data.take position).length = position := by
    rw [List.length_take]
    omega
  rw [List.take_append, List.drop_append, takeLength, List.take_of_length_le (by omega),
    Nat.add_sub_cancel_left, List.take_succ_cons, List.take_zero, List.length_cons]
  rw [show position + 1 + source.length - position = source.length + 1 by omega,
    List.drop_succ_cons, List.drop_drop, List.drop_of_length_le (by omega), List.nil_append]
  simp only [List.append_assoc, List.cons_append, List.nil_append]
  rw [show position + (source.length + 1) = position + 1 + source.length by omega]

theorem overwrite_append_length (front back source : List α) :
    overwrite (front ++ back) front.length source = front ++ overwrite back 0 source := by
  unfold overwrite
  rw [List.take_left, List.take_zero, List.nil_append, Nat.zero_add, List.drop_append,
    List.drop_eq_nil_of_le (by omega), List.nil_append, Nat.add_sub_cancel_left, List.append_assoc]

theorem overwrite_replicate_zero (n : Nat) (source : List α) (x : α) :
    overwrite (List.replicate n x) 0 source = source ++ List.replicate (n - source.length) x := by
  unfold overwrite
  rw [List.take_zero, List.nil_append, Nat.zero_add, List.drop_replicate]

theorem take_overwrite_zero {data source : List α} :
    (overwrite data 0 source).take source.length = source := by
  unfold overwrite
  rw [List.take_zero, List.nil_append, List.take_left]

/-- `for (i, &x) in source.iter().enumerate() { array[offset + i] = x }` on an
array of `n` elements. -/
def writeEach {n : Nat} (array : Vector α n) (offset : Nat) (source : List α) : Vector α n :=
  source.zipIdx.foldl (fun array entry => array.setIfInBounds (offset + entry.2) entry.1) array

theorem toList_foldl_setIfInBounds {n : Nat} (offset : Nat) :
    ∀ (source : List α) (start : Nat) (array : Vector α n),
      offset + start + source.length ≤ n →
      ((source.zipIdx start).foldl
          (fun array entry => array.setIfInBounds (offset + entry.2) entry.1) array).toList =
        overwrite array.toList (offset + start) source
  | [], start, array, _ => by
      simp [overwrite]
  | x :: source, start, array, fits => by
      have inside : offset + start < array.toList.length := by
        rw [Vector.length_toList]
        simp only [List.length_cons] at fits
        omega
      rw [List.zipIdx_cons, List.foldl_cons,
        toList_foldl_setIfInBounds offset source (start + 1) _ (by simp only [List.length_cons] at fits; omega),
        Vector.toList_setIfInBounds, ← Nat.add_assoc, overwrite_set_succ inside]

theorem toList_writeEach {n : Nat} (array : Vector α n) {offset : Nat} {source : List α}
    (fits : offset + source.length ≤ n) :
    (writeEach array offset source).toList = overwrite array.toList offset source :=
  toList_foldl_setIfInBounds offset source 0 array fits

theorem extract_map_range (f : Nat → α) {n start count : Nat} (fits : start + count ≤ n) :
    ((List.range n).map f).extract start (start + count) =
      (List.range count).map fun k => f (start + k) := by
  rw [List.extract_eq_take_drop, Nat.add_sub_cancel_left]
  apply List.ext_getElem
  · simp
    omega
  · intro k inTake inMap
    simp

end Slice
