import Mathlib.Data.List.Infix

/-! Walks down a tree of nodes linked by keys, with paths written innermost first.
When every node is reached by one short path, changing one entry changes one
walk. -/

namespace RadixWalk

variable {κ ι : Type*}

/-- The node that `path` leads to from `root`, if every entry on the way is there. -/
def walk (step : κ → ι → Option κ) (root : κ) : List ι → Option κ
  | [] => some root
  | i :: path => (walk step root path).bind fun key => step key i

/-- `key` is reached from the root by a walk shorter than `depth`. -/
def Reached (step : κ → ι → Option κ) (root : κ) (depth : Nat) (key : κ) : Prop :=
  ∃ path, path.length < depth ∧ walk step root path = some key

/-- No node is reached by two different walks shorter than `depth`. -/
def ReachedOnce (step : κ → ι → Option κ) (root : κ) (depth : Nat) : Prop :=
  ∀ path other key, path.length < depth → other.length < depth →
    walk step root path = some key → walk step root other = some key → path = other

/-- How many nonempty initial segments of `path`, counted from the root, lead
nowhere: the nodes a walk down `path` would have to create. -/
def missing (step : κ → ι → Option κ) (root : κ) : List ι → Nat
  | [] => 0
  | i :: path => missing step root path + if (walk step root (i :: path)).isNone then 1 else 0

section Walk

variable {step step' : κ → ι → Option κ} {root : κ}

@[simp] theorem walk_cons (i : ι) (path : List ι) :
    walk step root (i :: path) = (walk step root path).bind fun key => step key i := rfl

theorem walk_append (outer path : List ι) :
    walk step root (outer ++ path) = (walk step root path).bind fun key => walk step key outer := by
  induction outer with
  | nil =>
      rw [List.nil_append]
      cases walk step root path <;> rfl
  | cons i outer ih => rw [List.cons_append, walk_cons, ih, Option.bind_assoc]; rfl

theorem walk_eq_none_of_suffix {path longer : List ι} (suffix : path <:+ longer)
    (absent : walk step root path = none) : walk step root longer = none := by
  obtain ⟨outer, rfl⟩ := suffix
  rw [walk_append, absent]
  rfl

theorem reached_congr {depth : Nat} {key : κ}
    (same : ∀ other : List ι, other.length < depth → walk step' root other = walk step root other) :
    Reached step' root depth key ↔ Reached step root depth key := by
  constructor
  · rintro ⟨path, short, reached⟩
    exact ⟨path, short, (same path short) ▸ reached⟩
  · rintro ⟨path, short, reached⟩
    exact ⟨path, short, (same path short).symm ▸ reached⟩

theorem reachedOnce_congr {depth : Nat}
    (same : ∀ other : List ι, other.length < depth → walk step' root other = walk step root other) :
    ReachedOnce step' root depth ↔ ReachedOnce step root depth := by
  unfold ReachedOnce
  constructor
  · intro once path other key short otherShort reached otherReached
    rw [← same path short] at reached
    rw [← same other otherShort] at otherReached
    exact once path other key short otherShort reached otherReached
  · intro once path other key short otherShort reached otherReached
    rw [same path short] at reached
    rw [same other otherShort] at otherReached
    exact once path other key short otherShort reached otherReached

end Walk

/-! ### Changing one entry -/

section Update

variable [DecidableEq ι] {step step' : κ → ι → Option κ} {root : κ} {depth : Nat} {key : κ} {i : ι}
  {path : List ι}

theorem walk_cons_update (once : ReachedOnce step root depth) (reached : walk step root path = some key)
    (short : path.length < depth)
    (agree : ∀ k j, Reached step root depth k → k ≠ key ∨ j ≠ i → step' k j = step k j)
    {j : ι} {inner : List ι} (innerShort : inner.length < depth)
    (outer : walk step' root inner = walk step root inner) :
    walk step' root (j :: inner) = if j :: inner = i :: path then step' key i else walk step root (j :: inner) := by
  rw [walk_cons, outer]
  by_cases through : j :: inner = i :: path
  · obtain ⟨rfl, rfl⟩ := List.cons_eq_cons.mp through
    rw [if_pos rfl, reached]
    rfl
  · rw [if_neg through, walk_cons]
    cases innerReached : walk step root inner with
    | none => rfl
    | some k =>
        apply agree k j ⟨inner, innerShort, innerReached⟩
        by_cases sameKey : k = key
        · subst sameKey
          have samePath := once inner path k innerShort short innerReached reached
          exact Or.inr fun sameIndex => through (by rw [sameIndex, samePath])
        · exact Or.inl sameKey

theorem walk_update_entry (once : ReachedOnce step root depth) (reached : walk step root path = some key)
    (full : depth = path.length + 1)
    (agree : ∀ k j, Reached step root depth k → k ≠ key ∨ j ≠ i → step' k j = step k j) :
    ∀ other : List ι, other.length ≤ depth →
      walk step' root other = if other = i :: path then step' key i else walk step root other
  | [], _ => by
      rw [if_neg (List.cons_ne_nil i path).symm]
      rfl
  | j :: inner, bounded => by
      have innerShort : inner.length < depth := by
        rw [List.length_cons] at bounded
        omega
      have innerNot : inner ≠ i :: path := by
        rintro rfl
        rw [List.length_cons] at innerShort
        omega
      have outer := walk_update_entry once reached full agree inner innerShort.le
      rw [if_neg innerNot] at outer
      exact walk_cons_update once reached (by omega) agree innerShort outer

theorem walk_update_entry_of_short (once : ReachedOnce step root depth)
    (reached : walk step root path = some key) (full : depth = path.length + 1)
    (agree : ∀ k j, Reached step root depth k → k ≠ key ∨ j ≠ i → step' k j = step k j)
    (other : List ι) (short : other.length < depth) : walk step' root other = walk step root other := by
  rw [walk_update_entry once reached full agree other short.le]
  have different : other ≠ i :: path := by
    rintro rfl
    rw [List.length_cons] at short
    omega
  rw [if_neg different]

theorem walk_attach {fresh : κ} (once : ReachedOnce step root depth)
    (reached : walk step root path = some key) (short : path.length < depth)
    (agree : ∀ k j, Reached step root depth k → k ≠ key ∨ j ≠ i → step' k j = step k j)
    (empty : step key i = none) (attached : step' key i = some fresh)
    (childless : ∀ j, step' fresh j = none) :
    ∀ other : List ι, other.length ≤ depth →
      walk step' root other = if other = i :: path then some fresh else walk step root other
  | [], _ => by
      rw [if_neg (List.cons_ne_nil i path).symm]
      rfl
  | j :: inner, bounded => by
      have innerShort : inner.length < depth := by
        rw [List.length_cons] at bounded
        omega
      have outer := walk_attach once reached short agree empty attached childless inner innerShort.le
      by_cases below : inner = i :: path
      · -- under the fresh node there is nothing, as under the empty entry before
        subst below
        have longer : j :: i :: path ≠ i :: path := fun same => by
          have lengths := congrArg List.length same
          simp only [List.length_cons] at lengths
          omega
        rw [if_pos rfl] at outer
        rw [walk_cons, outer, if_neg longer, walk_cons, walk_cons, reached]
        simp [childless, empty]
      · rw [if_neg below] at outer
        rw [walk_cons_update once reached short agree innerShort outer, attached]

theorem reached_attach {fresh k : κ} (once : ReachedOnce step root depth)
    (reached : walk step root path = some key) (short : path.length < depth)
    (agree : ∀ k j, Reached step root depth k → k ≠ key ∨ j ≠ i → step' k j = step k j)
    (empty : step key i = none) (attached : step' key i = some fresh)
    (childless : ∀ j, step' fresh j = none) (reachedAfter : Reached step' root depth k) :
    Reached step root depth k ∨ k = fresh := by
  obtain ⟨other, otherShort, otherReached⟩ := reachedAfter
  rw [walk_attach once reached short agree empty attached childless other otherShort.le] at otherReached
  by_cases added : other = i :: path
  · rw [if_pos added] at otherReached
    exact Or.inr (Option.some.inj otherReached).symm
  · rw [if_neg added] at otherReached
    exact Or.inl ⟨other, otherShort, otherReached⟩

theorem reachedOnce_attach {fresh : κ} (once : ReachedOnce step root depth)
    (reached : walk step root path = some key) (short : path.length < depth)
    (agree : ∀ k j, Reached step root depth k → k ≠ key ∨ j ≠ i → step' k j = step k j)
    (empty : step key i = none) (attached : step' key i = some fresh)
    (childless : ∀ j, step' fresh j = none) (unreached : ¬ Reached step root depth fresh) :
    ReachedOnce step' root depth := by
  have after := walk_attach once reached short agree empty attached childless
  intro first second k firstShort secondShort firstReached secondReached
  rw [after first firstShort.le] at firstReached
  rw [after second secondShort.le] at secondReached
  by_cases firstAdded : first = i :: path
  · by_cases secondAdded : second = i :: path
    · rw [firstAdded, secondAdded]
    · rw [if_pos firstAdded] at firstReached
      rw [if_neg secondAdded, ← firstReached] at secondReached
      exact absurd ⟨second, secondShort, secondReached⟩ unreached
  · by_cases secondAdded : second = i :: path
    · rw [if_pos secondAdded] at secondReached
      rw [if_neg firstAdded, ← secondReached] at firstReached
      exact absurd ⟨first, firstShort, firstReached⟩ unreached
    · rw [if_neg firstAdded] at firstReached
      rw [if_neg secondAdded] at secondReached
      exact once first second k firstShort secondShort firstReached secondReached

end Update

/-! ### Counting the missing nodes -/

section Missing

variable {step step' : κ → ι → Option κ} {root : κ}

theorem missing_congr {path : List ι}
    (same : ∀ inner, inner <:+ path → walk step' root inner = walk step root inner) :
    missing step' root path = missing step root path := by
  induction path with
  | nil => rfl
  | cons i path ih =>
      have outer := ih fun inner suffix => same inner (suffix.trans (List.suffix_cons i path))
      rw [missing, missing, outer, same (i :: path) (List.suffix_refl _)]

theorem missing_of_added {path added : List ι} {fresh : κ} (segment : added <:+ path)
    (attached : walk step' root added = some fresh)
    (same : ∀ inner, inner <:+ path → inner ≠ added → walk step' root inner = walk step root inner) :
    missing step' root path + (if (walk step root added).isNone then 1 else 0) = missing step root path := by
  induction path with
  | nil =>
      rw [List.suffix_nil.mp segment]
      rfl
  | cons i path ih =>
      by_cases whole : added = i :: path
      · subst whole
        have shorter : ∀ inner, inner <:+ path → walk step' root inner = walk step root inner :=
          fun inner suffix => same inner (suffix.trans (List.suffix_cons i path)) fun equal => by
            have lengths := (equal ▸ suffix).length_le
            rw [List.length_cons] at lengths
            omega
        rw [missing, missing, missing_congr shorter, attached]
        simp only [Option.isNone_some, Bool.false_eq_true, if_false, Nat.add_zero]
      · have inner : added <:+ path := (List.suffix_cons_iff.mp segment).resolve_left whole
        have outer := ih inner fun other suffix => same other (suffix.trans (List.suffix_cons i path))
        rw [missing, missing, same (i :: path) (List.suffix_refl _) (Ne.symm whole), ← outer]
        omega

theorem missing_eq_zero {path : List ι} (found : ∀ inner, inner <:+ path → (walk step root inner).isSome) :
    missing step root path = 0 := by
  induction path with
  | nil => rfl
  | cons i path ih =>
      have outer := ih fun inner suffix => found inner (suffix.trans (List.suffix_cons i path))
      have here := found (i :: path) (List.suffix_refl _)
      rw [missing, outer]
      cases present : walk step root (i :: path) with
      | none => rw [present] at here; cases here
      | some k => rfl

theorem missing_pos {path absent : List ι} (segment : absent <:+ path) (nonempty : absent ≠ [])
    (none : walk step root absent = none) : 0 < missing step root path := by
  induction path with
  | nil => exact absurd (List.suffix_nil.mp segment) nonempty
  | cons i path ih =>
      rw [missing]
      by_cases whole : absent = i :: path
      · subst whole
        rw [none]
        simp
      · have inner : absent <:+ path := (List.suffix_cons_iff.mp segment).resolve_left whole
        have outer := ih inner
        omega

end Missing

end RadixWalk
