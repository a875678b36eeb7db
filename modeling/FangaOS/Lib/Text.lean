import Mathlib.Data.List.DropRight

/-! `str::rfind` and splitting, on lists of characters. -/

namespace Text

variable {α : Type*}

def rfind [DecidableEq α] (a : α) : List α → Option Nat
  | [] => none
  | x :: rest =>
      match rfind a rest with
      | some i => some (i + 1)
      | none => if x = a then some 0 else none

theorem rfind_eq_none [DecidableEq α] {a : α} : ∀ {l : List α}, a ∉ l → rfind a l = none
  | [], _ => rfl
  | x :: rest, absent => by
      obtain ⟨different, restAbsent⟩ := List.ne_and_not_mem_of_not_mem_cons absent
      rw [rfind, rfind_eq_none restAbsent, if_neg (Ne.symm different)]

theorem rfind_append_cons [DecidableEq α] {a : α} {post : List α} (absent : a ∉ post) :
    ∀ pre : List α, rfind a (pre ++ a :: post) = some pre.length
  | [] => by
      rw [List.nil_append, rfind, rfind_eq_none absent, if_pos rfl]
      rfl
  | x :: pre => by
      rw [List.cons_append, rfind, rfind_append_cons absent pre]
      rfl

theorem not_mem_of_mem_splitOn [BEq α] [LawfulBEq α] {a : α} :
    ∀ {l piece : List α}, piece ∈ l.splitOn a → a ∉ piece
  | [], piece, member => by
      rw [List.splitOn_nil, List.mem_singleton] at member
      rw [member]
      exact List.not_mem_nil
  | x :: rest, piece, member => by
      rw [List.splitOn_cons_eq_if_modifyHead] at member
      split_ifs at member with separator
      · rcases List.mem_cons.mp member with rfl | later
        · exact List.not_mem_nil
        · exact not_mem_of_mem_splitOn later
      · obtain ⟨first, others, pieces⟩ := List.exists_cons_of_ne_nil (List.splitOn_ne_nil a rest)
        rw [pieces, List.modifyHead_cons] at member
        rcases List.mem_cons.mp member with rfl | later
        · refine List.not_mem_cons_of_ne_of_not_mem (fun same => separator ?_) ?_
          · rw [same, beq_self_eq_true]
          · exact not_mem_of_mem_splitOn (pieces ▸ List.mem_cons_self)
        · exact not_mem_of_mem_splitOn (pieces ▸ List.mem_cons_of_mem _ later)

end Text
