import Mathlib.Data.List.Infix

/-! Longest common prefixes of lists, the meet of the prefix order, and where two
lists first differ. -/

namespace CommonPrefix

variable {α : Type*} [DecidableEq α]

def commonPrefix : List α → List α → List α
  | a :: as, b :: bs => if a = b then a :: commonPrefix as bs else []
  | _, _ => []

theorem commonPrefix_prefix_left : ∀ l m : List α, commonPrefix l m <+: l
  | a :: as, b :: bs => by
      unfold commonPrefix
      split
      · exact List.cons_prefix_cons.mpr ⟨rfl, commonPrefix_prefix_left as bs⟩
      · exact List.nil_prefix
  | [], _ => List.nil_prefix
  | _ :: _, [] => List.nil_prefix

theorem commonPrefix_prefix_right : ∀ l m : List α, commonPrefix l m <+: m
  | a :: as, b :: bs => by
      unfold commonPrefix
      split
      · rename_i same
        subst same
        exact List.cons_prefix_cons.mpr ⟨rfl, commonPrefix_prefix_right as bs⟩
      · exact List.nil_prefix
  | [], _ => List.nil_prefix
  | _ :: _, [] => List.nil_prefix

theorem prefix_commonPrefix_iff : ∀ {s l m : List α}, s <+: commonPrefix l m ↔ s <+: l ∧ s <+: m
  | s, l, m => by
      constructor
      · intro below
        exact ⟨below.trans (commonPrefix_prefix_left l m), below.trans (commonPrefix_prefix_right l m)⟩
      · rintro ⟨onLeft, onRight⟩
        match s, l, m, onLeft, onRight with
        | [], _, _, _, _ => exact List.nil_prefix
        | c :: cs, a :: as, b :: bs, onLeft, onRight =>
            obtain ⟨rfl, restLeft⟩ := List.cons_prefix_cons.mp onLeft
            obtain ⟨rfl, restRight⟩ := List.cons_prefix_cons.mp onRight
            rw [commonPrefix, if_pos rfl]
            exact List.cons_prefix_cons.mpr ⟨rfl, prefix_commonPrefix_iff.mpr ⟨restLeft, restRight⟩⟩

theorem length_commonPrefix_le_left (l m : List α) : (commonPrefix l m).length ≤ l.length :=
  (commonPrefix_prefix_left l m).length_le

theorem length_commonPrefix_le_right (l m : List α) : (commonPrefix l m).length ≤ m.length :=
  (commonPrefix_prefix_right l m).length_le

theorem getElem?_eq_of_lt_length_commonPrefix {l m : List α} {i : Nat}
    (below : i < (commonPrefix l m).length) : l[i]? = m[i]? := by
  have onLeft := (commonPrefix_prefix_left l m).getElem below
  have onRight := (commonPrefix_prefix_right l m).getElem below
  rw [List.getElem?_eq_getElem (lt_of_lt_of_le below (length_commonPrefix_le_left l m)),
    List.getElem?_eq_getElem (lt_of_lt_of_le below (length_commonPrefix_le_right l m)), ← onLeft,
    ← onRight]

theorem getElem?_ne_of_length_commonPrefix_lt : ∀ {l m : List α},
    (commonPrefix l m).length < min l.length m.length →
      l[(commonPrefix l m).length]? ≠ m[(commonPrefix l m).length]?
  | a :: as, b :: bs, inside => by
      unfold commonPrefix at inside ⊢
      split
      · rename_i same
        rw [if_pos same, List.length_cons] at inside
        simp only [List.length_cons, List.getElem?_cons_succ]
        exact getElem?_ne_of_length_commonPrefix_lt (by simp only [List.length_cons] at inside; omega)
      · simpa using ‹¬a = b›
  | [], _, inside => by simp at inside
  | _ :: _, [], inside => by simp at inside

theorem commonPrefix_take_left (l m : List α) (count : Nat) :
    commonPrefix (l.take count) m = (commonPrefix l m).take count := by
  have samePrefixes : ∀ s, s <+: commonPrefix (l.take count) m ↔ s <+: (commonPrefix l m).take count := by
    intro s
    rw [prefix_commonPrefix_iff, List.prefix_take_iff, List.prefix_take_iff, prefix_commonPrefix_iff]
    tauto
  have forth := (samePrefixes _).mp (List.prefix_refl _)
  have back := (samePrefixes _).mpr (List.prefix_refl _)
  exact forth.eq_of_length_le back.length_le

/-- The longest common prefix of `first` and every list of `rest`. -/
def longest (first : List α) (rest : List (List α)) : List α :=
  rest.foldl commonPrefix first

theorem longest_concat (first : List α) (rest : List (List α)) (item : List α) :
    longest first (rest ++ [item]) = commonPrefix (longest first rest) item := by
  rw [longest, List.foldl_concat]
  rfl

theorem prefix_longest_iff {s first : List α} {rest : List (List α)} :
    s <+: longest first rest ↔ s <+: first ∧ ∀ item ∈ rest, s <+: item := by
  induction rest using List.reverseRecOn with
  | nil => simp [longest]
  | append_singleton rest item ih =>
      rw [longest_concat, prefix_commonPrefix_iff, ih]
      simp only [List.mem_append, List.mem_singleton]
      constructor
      · rintro ⟨⟨onFirst, onRest⟩, onItem⟩
        exact ⟨onFirst, fun other member => member.elim (onRest other) (fun same => same ▸ onItem)⟩
      · rintro ⟨onFirst, onAll⟩
        exact ⟨⟨onFirst, fun other member => onAll other (.inl member)⟩, onAll item (.inr rfl)⟩

end CommonPrefix
