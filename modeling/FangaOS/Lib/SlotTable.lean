import Mathlib

/-! A `Vec<Option<T>>` indexed by number, as a partial map from numbers to
entries. -/

namespace SlotTable

variable {α : Type*}

/-- The entry of `index`: the content of its slot, or nothing past the end. -/
def slot (table : List (Option α)) (index : Nat) : Option α :=
  table[index]?.join

/-- Grow `table` with empty slots until it has a slot for `index`, as
`resize_with(index + 1, || None)` does behind an `index >= len()` check. -/
def grow (table : List (Option α)) (index : Nat) : List (Option α) :=
  if index ≥ table.length then table ++ List.replicate (index + 1 - table.length) none else table

variable (table : List (Option α))

theorem index_lt_length_grow (index : Nat) : index < (grow table index).length := by
  unfold grow
  split
  · simp only [List.length_append, List.length_replicate]
    omega
  · omega

@[simp] theorem slot_grow (index other : Nat) : slot (grow table index) other = slot table other := by
  unfold grow slot
  split
  · by_cases inside : other < table.length
    · rw [List.getElem?_append_left inside]
    · rw [List.getElem?_append_right (by omega), List.getElem?_replicate,
        List.getElem?_eq_none (by omega)]
      split <;> rfl
  · rfl

@[simp] theorem slot_set_self {index : Nat} (inside : index < table.length) (entry : Option α) :
    slot (table.set index entry) index = entry := by
  simp [slot, inside]

theorem slot_set_of_ne {index other : Nat} (different : index ≠ other) (entry : Option α) :
    slot (table.set index entry) other = slot table other := by
  simp [slot, different]

theorem slot_modify (index other : Nat) (change : α → α) :
    slot (table.modify index (Option.map change)) other =
      if index = other then (slot table other).map change else slot table other := by
  unfold slot
  rw [List.getElem?_modify]
  cases table[other]? with
  | none => split <;> rfl
  | some entry => split <;> rfl

theorem slot_mapIdx (change : Nat → Option α → Option α) (keepsEmpty : ∀ index, change index none = none)
    (index : Nat) : slot (table.mapIdx change) index = change index (slot table index) := by
  unfold slot
  rw [List.getElem?_mapIdx]
  cases table[index]? with
  | none => exact (keepsEmpty index).symm
  | some entry => rfl

@[simp] theorem slot_replicate_none (count index : Nat) :
    slot (List.replicate count (none : Option α)) index = none := by
  unfold slot
  rw [List.getElem?_replicate]
  split <;> rfl

/-! A table filled from the front: the entries made so far, then empty slots. -/

theorem set_map_some_append_replicate (filled : List α) (entry : α) (count : Nat) :
    (filled.map some ++ List.replicate (count + 1) none).set filled.length (some entry) =
      (filled ++ [entry]).map some ++ List.replicate count none := by
  rw [List.set_append_right _ _ (by simp), List.length_map, Nat.sub_self, List.replicate_succ,
    List.set_cons_zero, List.map_append, List.map_singleton, List.append_assoc, List.singleton_append]

theorem modify_map_some_append_replicate (filled : List α) (count index : Nat) (change : α → α) :
    (filled.map some ++ List.replicate count none).modify index (Option.map change) =
      (filled.modify index change).map some ++ List.replicate count none := by
  apply List.ext_getElem?
  intro position
  rw [List.getElem?_modify]
  by_cases inside : position < filled.length
  · have insideMap : position < (filled.map some).length := by simpa using inside
    rw [List.getElem?_append_left insideMap, List.getElem?_append_left (by simpa using inside),
      List.getElem?_map, List.getElem?_map, List.getElem?_modify]
    split <;> cases filled[position]? <;> rfl
  · have outsideMap : (filled.map some).length ≤ position := by simpa using inside
    rw [List.getElem?_append_right outsideMap, List.getElem?_append_right (by simpa using inside)]
    simp only [List.length_map, List.length_modify, List.getElem?_replicate]
    split <;> split <;> rfl

theorem slot_map_some_append_replicate (filled : List α) (count index : Nat) :
    slot (filled.map some ++ List.replicate count none) index = filled[index]? := by
  unfold slot
  by_cases inside : index < filled.length
  · rw [List.getElem?_append_left (by simpa using inside), List.getElem?_map]
    cases filled[index]? <;> rfl
  · have outside : (filled.map some).length ≤ index := by simpa using inside
    rw [List.getElem?_append_right outside, List.getElem?_replicate,
      List.getElem?_eq_none (Nat.le_of_not_lt inside)]
    split <;> rfl

end SlotTable
