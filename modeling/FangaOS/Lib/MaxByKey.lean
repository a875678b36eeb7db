import Mathlib

/-! `Iterator::max_by_key`, which returns the last of the items with the greatest
key. -/

namespace MaxByKey

variable {α β : Type*} [LinearOrder β] (key : α → β)

/-- One step of the fold: `cmp::max_by(best, item)`. -/
def keepMax (best : Option α) (item : α) : Option α :=
  match best with
  | none => some item
  | some current => if key item < key current then some current else some item

def maxByKey (items : List α) : Option α :=
  items.foldl (keepMax key) none

variable {key}

theorem maxByKey_concat (items : List α) (item : α) :
    maxByKey key (items ++ [item]) = keepMax key (maxByKey key items) item := by
  rw [maxByKey, List.foldl_concat]
  rfl

theorem maxByKey_eq_none_iff (items : List α) : maxByKey key items = none ↔ items = [] := by
  induction items using List.reverseRecOn with
  | nil => simp [maxByKey]
  | append_singleton items item ih =>
      rw [maxByKey_concat]
      simp only [List.append_eq_nil_iff, List.cons_ne_nil, and_false, iff_false]
      cases maxByKey key items with
      | none => simp [keepMax]
      | some current =>
          simp only [keepMax]
          split <;> simp

/-- The last item of greatest key: no item has a greater key, and every item
after it has a strictly smaller one. -/
def IsLastMax (key : α → β) (items : List α) (best : α) : Prop :=
  (∀ item ∈ items, key item ≤ key best) ∧
    ∃ before after, items = before ++ best :: after ∧ ∀ item ∈ after, key item < key best

theorem IsLastMax.mem {items : List α} {best : α} (last : IsLastMax key items best) : best ∈ items := by
  obtain ⟨-, before, after, split, -⟩ := last
  rw [split]
  exact List.mem_append_right _ List.mem_cons_self

theorem isLastMax_concat_self {items : List α} {item : α}
    (below : ∀ other ∈ items, key other ≤ key item) : IsLastMax key (items ++ [item]) item := by
  refine ⟨?_, items, [], rfl, by simp⟩
  intro other member
  rcases List.mem_append.mp member with earlier | last
  · exact below other earlier
  · rw [List.mem_singleton.mp last]

theorem IsLastMax.concat_of_lt {items : List α} {best item : α} (last : IsLastMax key items best)
    (smaller : key item < key best) : IsLastMax key (items ++ [item]) best := by
  obtain ⟨atMost, before, after, split, later⟩ := last
  refine ⟨?_, before, after ++ [item], by rw [split]; simp, ?_⟩
  · intro other member
    rcases List.mem_append.mp member with earlier | new
    · exact atMost other earlier
    · rw [List.mem_singleton.mp new]
      exact smaller.le
  · intro other member
    rcases List.mem_append.mp member with earlier | new
    · exact later other earlier
    · rw [List.mem_singleton.mp new]
      exact smaller

theorem maxByKey_eq_some_iff (items : List α) (best : α) :
    maxByKey key items = some best ↔ IsLastMax key items best := by
  induction items using List.reverseRecOn generalizing best with
  | nil => simp [maxByKey, IsLastMax]
  | append_singleton items item ih =>
      rw [maxByKey_concat]
      constructor
      · -- the fold keeps the earlier best exactly when the new item has a smaller key
        intro found
        unfold keepMax at found
        split at found
        · rename_i nothing
          cases found
          rw [(maxByKey_eq_none_iff items).mp nothing]
          exact isLastMax_concat_self (by simp)
        · rename_i current previous
          have last := (ih current).mp previous
          split at found
          · cases found
            exact last.concat_of_lt (by assumption)
          · cases found
            exact isLastMax_concat_self fun other member =>
              (last.1 other member).trans (not_lt.mp (by assumption))
      · -- the last item of greatest key is either the new item or the earlier best
        rintro ⟨atMost, before, after, split, later⟩
        rcases List.eq_nil_or_concat' after with rfl | ⟨rest, last, rfl⟩
        · obtain ⟨rfl, rfl⟩ : items = before ∧ item = best := by simpa using split
          cases previous : maxByKey key items with
          | none => rfl
          | some current =>
              have notBelow : ¬ key item < key current := not_lt.mpr
                (atMost current (List.mem_append_left _ ((ih current).mp previous).mem))
              simp [keepMax, notBelow]
        · have regrouped : items ++ [item] = (before ++ best :: rest) ++ [last] := by
            rw [split]
            simp
          obtain ⟨rfl, same⟩ := List.append_inj' regrouped rfl
          obtain rfl : item = last := by simpa using same
          have smaller : key item < key best := later item (by simp)
          have found : maxByKey key (before ++ best :: rest) = some best :=
            (ih best).mpr ⟨fun other member => atMost other (List.mem_append_left _ member),
              before, rest, rfl, fun other member => later other (List.mem_append_left _ member)⟩
          simp [found, keepMax, smaller]

theorem isLastMax_filter_iff (p : α → Bool) (items : List α) (best : α) :
    IsLastMax key (items.filter p) best ↔
      p best ∧ (∀ item ∈ items, p item → key item ≤ key best) ∧
        ∃ before after, items = before ++ best :: after ∧
          ∀ item ∈ after, p item → key item < key best := by
  constructor
  · rintro ⟨atMost, before, after, split, later⟩
    obtain ⟨front, back, rfl, -, backFiltered⟩ := List.filter_eq_append_iff.mp split
    obtain ⟨skipped, rest, rfl, -, passes, restFiltered⟩ := List.filter_eq_cons_iff.mp backFiltered
    refine ⟨passes, fun item member passing => atMost item (List.mem_filter.mpr ⟨member, passing⟩),
      front ++ skipped, rest, by simp, fun item member passing => ?_⟩
    exact later item (restFiltered ▸ List.mem_filter.mpr ⟨member, passing⟩)
  · rintro ⟨passes, atMost, before, after, rfl, later⟩
    refine ⟨fun item member => atMost item (List.mem_filter.mp member).1 (List.mem_filter.mp member).2,
      before.filter p, after.filter p, by simp [passes], fun item member => ?_⟩
    exact later item (List.mem_filter.mp member).1 (List.mem_filter.mp member).2

end MaxByKey
