import Mathlib.Data.List.Destutter
import Mathlib.Data.List.DropRight

/-! The most recent entries of a bounded log that skips repeats. -/

namespace RecentLog

variable {α : Type*}

theorem getLast?_rtake {n : Nat} (positive : 0 < n) (l : List α) :
    (l.rtake n).getLast? = l.getLast? := by
  rw [List.rtake, List.getLast?_drop]
  cases l with
  | nil => rfl
  | cons c l =>
      rw [if_neg (by simp only [List.length_cons]; omega)]

theorem length_rtake (n : Nat) (l : List α) : (l.rtake n).length = min n l.length := by
  rw [List.rtake, List.length_drop]
  omega

theorem rtake_concat {n : Nat} (positive : 0 < n) (l : List α) (b : α) :
    (l ++ [b]).rtake n =
      (if (l.rtake n).length ≥ n then (l.rtake n).eraseIdx 0 else l.rtake n) ++ [b] := by
  obtain ⟨m, rfl⟩ : ∃ m, n = m + 1 := ⟨n - 1, by omega⟩
  rw [List.rtake_concat_succ, length_rtake]
  congr 1
  by_cases full : min (m + 1) l.length ≥ m + 1
  · rw [if_pos full, List.eraseIdx_zero, List.rtake, List.rtake, List.tail_drop]
    congr 1
    omega
  · rw [if_neg full, List.rtake, List.rtake]
    congr 1
    omega

variable [DecidableEq α]

theorem destutter'_concat (b : α) :
    ∀ (l : List α) (a : α), (l ++ [b]).destutter' (· ≠ ·) a =
      if (l.destutter' (· ≠ ·) a).getLast? = some b then l.destutter' (· ≠ ·) a
      else l.destutter' (· ≠ ·) a ++ [b]
  | [], a => by
      by_cases same : a = b
      · subst same
        simp
      · simp [same]
  | c :: l, a => by
      by_cases same : a = c
      · subst same
        rw [List.cons_append, List.destutter'_cons_neg _ (not_not.mpr rfl),
          List.destutter'_cons_neg _ (not_not.mpr rfl), destutter'_concat b l a]
      · -- `c` is kept after `a`, and the rest is destuttered from `c`
        have kept : l.destutter' (· ≠ ·) c ≠ [] := List.destutter'_ne_nil l _
        obtain ⟨x, rest, split⟩ := List.exists_cons_of_ne_nil kept
        have lastSame : (a :: l.destutter' (· ≠ ·) c).getLast? = (l.destutter' (· ≠ ·) c).getLast? := by
          rw [split, List.getLast?_cons_cons]
        rw [List.cons_append, List.destutter'_cons_pos _ same, List.destutter'_cons_pos _ same,
          destutter'_concat b l c, lastSame]
        split <;> rfl

theorem destutter_concat (l : List α) (b : α) :
    (l ++ [b]).destutter (· ≠ ·) =
      if (l.destutter (· ≠ ·)).getLast? = some b then l.destutter (· ≠ ·)
      else l.destutter (· ≠ ·) ++ [b] := by
  cases l with
  | nil => simp [List.destutter_nil, List.destutter_singleton]
  | cons c l =>
      rw [List.cons_append, List.destutter_cons', List.destutter_cons', destutter'_concat]

/-- The last `capacity` entries once repeats of the last kept entry are dropped. -/
def recent (capacity : Nat) (entries : List α) : List α :=
  (entries.destutter (· ≠ ·)).rtake capacity

variable {capacity : Nat} {entries : List α} {x : α}

theorem recent_nil : recent capacity ([] : List α) = [] := by
  simp [recent, List.destutter_nil]

theorem recent_concat_of_repeat (positive : 0 < capacity)
    (last : (recent capacity entries).getLast? = some x) :
    recent capacity (entries ++ [x]) = recent capacity entries := by
  unfold recent at *
  rw [getLast?_rtake positive] at last
  rw [destutter_concat, if_pos last]

theorem recent_concat (positive : 0 < capacity)
    (fresh : (recent capacity entries).getLast? ≠ some x) :
    recent capacity (entries ++ [x]) =
      (if (recent capacity entries).length ≥ capacity then (recent capacity entries).eraseIdx 0
        else recent capacity entries) ++ [x] := by
  unfold recent at *
  rw [getLast?_rtake positive] at fresh
  rw [destutter_concat, if_neg fresh, rtake_concat positive]

theorem length_recent_le : (recent capacity entries).length ≤ capacity := by
  rw [recent, length_rtake]
  exact Nat.min_le_left _ _

theorem isChain_recent : (recent capacity entries).IsChain (· ≠ ·) :=
  (List.isChain_destutter _ _).drop _

theorem mem_of_mem_recent (member : x ∈ recent capacity entries) : x ∈ entries :=
  (List.destutter_sublist _ _).subset (List.mem_of_mem_drop member)

end RecentLog
