import Mathlib.Data.Finmap
import Mathlib.Data.List.Sort

/-! Updating values of a finite map in place, at one key or along a list of keys. -/

namespace Finmap

section Order

variable {α β : Type*} [LinearOrder α]

def sortedKeys (s : Finmap (fun _ : α => β)) : List α :=
  Quot.liftOn s.keys.val (List.insertionSort (· ≤ ·)) fun first second reordered =>
    ((List.perm_insertionSort _ first).trans
        ((reordered : first.Perm second).trans (List.perm_insertionSort _ second).symm)).eq_of_pairwise'
      (List.pairwise_insertionSort _ first) (List.pairwise_insertionSort _ second)

theorem mem_sortedKeys (s : Finmap (fun _ : α => β)) (a : α) : a ∈ s.sortedKeys ↔ a ∈ s := by
  rw [← mem_keys, ← Finset.mem_val]
  unfold sortedKeys
  induction s.keys.val using Quot.inductionOn with
  | h keys => exact List.mem_insertionSort _

theorem nodup_sortedKeys (s : Finmap (fun _ : α => β)) : s.sortedKeys.Nodup := by
  have distinct := s.keys.nodup
  unfold sortedKeys
  revert distinct
  induction s.keys.val using Quot.inductionOn with
  | h keys =>
      intro distinct
      exact (List.perm_insertionSort _ keys).nodup_iff.mpr distinct

/-- The entries in increasing order of their keys, as an ordered map iterates them. -/
def sortedEntries (s : Finmap (fun _ : α => β)) : List (α × β) :=
  s.sortedKeys.filterMap fun a => (s.lookup a).map (a, ·)

theorem mem_sortedEntries (s : Finmap (fun _ : α => β)) (a : α) (b : β) :
    (a, b) ∈ s.sortedEntries ↔ s.lookup a = some b := by
  unfold sortedEntries
  rw [List.mem_filterMap]
  constructor
  · rintro ⟨key, -, found⟩
    obtain ⟨value, stored, same⟩ := Option.map_eq_some_iff.mp found
    cases same
    exact stored
  · intro found
    refine ⟨a, (mem_sortedKeys s a).mpr (mem_of_lookup_eq_some found), ?_⟩
    rw [found, Option.map_some]

end Order

variable {α β : Type*} [DecidableEq α]

theorem lookup_insert_eq_ite (s : Finmap (fun _ : α => β)) (a a' : α) (b : β) :
    (s.insert a b).lookup a' = if a' = a then some b else s.lookup a' := by
  split_ifs with same
  · rw [same, lookup_insert]
  · exact lookup_insert_of_ne s same

theorem exists_lookup_insert {s : Finmap (fun _ : α => β)} {a a' : α} {b b' c : β} {p : β → Prop}
    (found : s.lookup a = some b) (keeps : p b → p b') (foundBefore : s.lookup a' = some c) (holds : p c) :
    ∃ c', (s.insert a b').lookup a' = some c' ∧ p c' := by
  rw [lookup_insert_eq_ite]
  split_ifs with same
  · subst same
    rw [found, Option.some.injEq] at foundBefore
    subst foundBefore
    exact ⟨b', rfl, keeps holds⟩
  · exact ⟨c, foundBefore, holds⟩

theorem lookup_erase_eq_ite (s : Finmap (fun _ : α => β)) (a a' : α) :
    (s.erase a).lookup a' = if a' = a then none else s.lookup a' := by
  split_ifs with same
  · rw [same, lookup_erase]
  · exact lookup_erase_ne same

theorem lookup_foldl_erase (a : α) :
    ∀ (keys : List α) (s : Finmap (fun _ : α => β)),
      (keys.foldl (fun s key => s.erase key) s).lookup a = if a ∈ keys then none else s.lookup a
  | [], s => by simp
  | key :: keys, s => by
      rw [List.foldl_cons, lookup_foldl_erase a keys, lookup_erase_eq_ite]
      by_cases same : a = key
      · simp [same]
      · simp [same]

def modify (s : Finmap (fun _ : α => β)) (a : α) (f : β → β) : Finmap (fun _ : α => β) :=
  match s.lookup a with
  | some b => s.insert a (f b)
  | none => s

theorem lookup_modify (s : Finmap (fun _ : α => β)) (a a' : α) (f : β → β) :
    (s.modify a f).lookup a' = if a' = a then (s.lookup a).map f else s.lookup a' := by
  unfold modify
  cases found : s.lookup a with
  | none =>
      split_ifs with same
      · rw [same, found, Option.map_none]
      · rfl
  | some b =>
      split_ifs with same
      · rw [same, lookup_insert, Option.map_some]
      · exact lookup_insert_of_ne s same

@[simp] theorem lookup_modify_self (s : Finmap (fun _ : α => β)) (a : α) (f : β → β) :
    (s.modify a f).lookup a = (s.lookup a).map f := by
  rw [lookup_modify, if_pos rfl]

theorem lookup_modify_of_ne (s : Finmap (fun _ : α => β)) {a a' : α} (f : β → β)
    (different : a' ≠ a) : (s.modify a f).lookup a' = s.lookup a' := by
  rw [lookup_modify, if_neg different]

theorem lookup_foldl_modify (p : α → Prop) [DecidablePred p] (f : β → β) (a : α) :
    ∀ (keys : List α), keys.Nodup → ∀ s : Finmap (fun _ : α => β),
      (keys.foldl (fun s key => if p key then s.modify key f else s) s).lookup a =
        if a ∈ keys ∧ p a then (s.lookup a).map f else s.lookup a
  | [], _, s => by simp
  | key :: keys, distinct, s => by
      obtain ⟨keyFresh, restDistinct⟩ := List.nodup_cons.mp distinct
      rw [List.foldl_cons, lookup_foldl_modify p f a keys restDistinct]
      by_cases same : a = key
      · subst same
        by_cases passes : p a
        · simp [keyFresh, passes]
        · simp [keyFresh, passes]
      · have unchanged : (if p key then s.modify key f else s).lookup a = s.lookup a := by
          split_ifs
          · exact lookup_modify_of_ne s f same
          · rfl
        simp only [unchanged, List.mem_cons, same, false_or]

end Finmap
