import Mathlib.Data.List.Nodup

/-! Lists of records searched by a key, as `iter().find`, `iter_mut().find` and
`position` with `remove` use them: each acts on the first record with the key. -/

namespace KeyedList

variable {α κ : Type*} [DecidableEq κ] (key : α → κ)

/-- The first record with key `k`. -/
def lookup : List α → κ → Option α
  | [], _ => none
  | item :: items, k => if key item = k then some item else lookup items k

/-- Apply `f` to the first record with key `k`. -/
def update : List α → κ → (α → α) → List α
  | [], _, _ => []
  | item :: items, k, f => if key item = k then f item :: items else item :: update items k f

/-- Remove the first record with key `k`. -/
def erase : List α → κ → List α
  | [], _ => []
  | item :: items, k => if key item = k then items else item :: erase items k

variable {key}

theorem key_of_lookup {items : List α} {k : κ} {item : α} (found : lookup key items k = some item) :
    key item = k ∧ item ∈ items := by
  induction items with
  | nil => cases found
  | cons head items ih =>
      unfold lookup at found
      split_ifs at found with same
      · cases found
        exact ⟨same, List.mem_cons_self⟩
      · exact ⟨(ih found).1, List.mem_cons_of_mem _ (ih found).2⟩

theorem lookup_eq_none_iff (items : List α) (k : κ) :
    lookup key items k = none ↔ k ∉ items.map key := by
  induction items with
  | nil => simp [lookup]
  | cons head items ih =>
      unfold lookup
      split_ifs with same
      · simp [same]
      · rw [ih, List.map_cons, List.mem_cons]
        exact ⟨fun absent present => present.elim (fun equal => same equal.symm) absent,
          fun absent present => absent (Or.inr present)⟩

theorem lookup_isSome_iff (items : List α) (k : κ) :
    (lookup key items k).isSome ↔ k ∈ items.map key := by
  rw [← not_iff_not, Option.not_isSome_iff_eq_none, lookup_eq_none_iff]

theorem lookup_append (items more : List α) (k : κ) :
    lookup key (items ++ more) k = (lookup key items k).or (lookup key more k) := by
  induction items with
  | nil => simp [lookup]
  | cons head items ih =>
      simp only [List.cons_append, lookup]
      split_ifs
      · rfl
      · exact ih

section Update

variable {f : α → α} (sameKey : ∀ item, key (f item) = key item)
include sameKey

theorem lookup_update (items : List α) (k k' : κ) :
    lookup key (update key items k f) k' =
      if k' = k then (lookup key items k).map f else lookup key items k' := by
  induction items with
  | nil => split_ifs <;> rfl
  | cons head items ih =>
      by_cases atHead : key head = k
      · simp only [update, lookup, if_pos atHead, sameKey]
        by_cases same : k' = k
        · simp [same, atHead]
        · simp [same, atHead, Ne.symm same]
      · simp only [update, lookup, if_neg atHead, ih]
        by_cases same : k' = k
        · subst same
          simp [atHead]
        · simp [same]

theorem map_key_update (items : List α) (k : κ) :
    (update key items k f).map key = items.map key := by
  induction items with
  | nil => rfl
  | cons head items ih =>
      unfold update
      split_ifs
      · simp [sameKey]
      · simp [ih]

end Update

theorem map_key_erase (items : List α) (k : κ) :
    (erase key items k).map key = (items.map key).erase k := by
  induction items with
  | nil => rfl
  | cons head items ih =>
      unfold erase
      split_ifs with same
      · simp [same]
      · simp [same, ih]

theorem lookup_erase {items : List α} (distinct : (items.map key).Nodup) (k k' : κ) :
    lookup key (erase key items k) k' = if k' = k then none else lookup key items k' := by
  induction items with
  | nil => split_ifs <;> rfl
  | cons head items ih =>
      obtain ⟨headFresh, restDistinct⟩ := List.nodup_cons.mp distinct
      by_cases atHead : key head = k
      · simp only [erase, if_pos atHead, lookup]
        by_cases same : k' = k
        · subst same
          rw [if_pos rfl, lookup_eq_none_iff, ← atHead]
          exact headFresh
        · rw [if_neg same, if_neg (fun equal => same (equal.symm.trans atHead))]
      · simp only [erase, if_neg atHead, lookup, ih restDistinct]
        by_cases same : k' = k
        · subst same
          simp [atHead]
        · simp [same]

end KeyedList
