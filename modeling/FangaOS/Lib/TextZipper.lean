import Mathlib.Data.List.Basic

/-! A line of text with a cursor in it, as the text before and the text after the
cursor, and what each edit at an index of a buffer is on that pair. -/

namespace TextZipper

variable {α : Type*}

theorem insertIdx_eq_take_drop {l : List α} {i : Nat} (inside : i ≤ l.length) (x : α) :
    l.insertIdx i x = l.take i ++ x :: l.drop i := by
  obtain ⟨front, back, split, frontLength, inserted⟩ :=
    List.exists_of_modifyTailIdx (List.cons x) inside
  have taken : l.take i = front := by rw [split, List.take_left' frontLength]
  have dropped : l.drop i = back := by rw [split, List.drop_left' frontLength]
  rw [taken, dropped]
  exact inserted

theorem length_dropLast_add_one {l : List α} {x : α} (present : l.getLast? = some x) :
    l.dropLast.length + 1 = l.length :=
  calc l.dropLast.length + 1 = (l.dropLast ++ [x]).length := by
        rw [List.length_append, List.length_singleton]
    _ = l.length := by rw [List.dropLast_append_getLast? x present]

/-- A line with a cursor: the text before the cursor and the text after it,
both in reading order. -/
structure Zipper (α : Type*) where
  left : List α
  right : List α
  deriving DecidableEq, Repr

namespace Zipper

def empty : Zipper α :=
  ⟨[], []⟩

def length (line : Zipper α) : Nat :=
  line.left.length + line.right.length

/-- Typing `x` at the cursor of a line that holds at most `capacity` elements. -/
def insert (capacity : Nat) (x : α) (line : Zipper α) : Option (Zipper α) :=
  if line.length < capacity then some ⟨line.left ++ [x], line.right⟩ else none

def deleteForward (line : Zipper α) : Option (Zipper α) :=
  match line.right with
  | [] => none
  | _ :: rest => some ⟨line.left, rest⟩

def deleteBackward (line : Zipper α) : Option (Zipper α) :=
  match line.left.getLast? with
  | none => none
  | some _ => some ⟨line.left.dropLast, line.right⟩

def moveLeft (line : Zipper α) : Option (Zipper α) :=
  match line.left.getLast? with
  | none => none
  | some x => some ⟨line.left.dropLast, x :: line.right⟩

def moveRight (line : Zipper α) : Option (Zipper α) :=
  match line.right with
  | [] => none
  | x :: rest => some ⟨line.left ++ [x], rest⟩

def moveHome (line : Zipper α) : Option (Zipper α) :=
  match line.left with
  | [] => none
  | _ :: _ => some ⟨[], line.left ++ line.right⟩

def moveEnd (line : Zipper α) : Option (Zipper α) :=
  match line.right with
  | [] => none
  | _ :: _ => some ⟨line.left ++ line.right, []⟩

theorem moveHome_snoc (left : List α) (x : α) (right : List α) :
    moveHome ⟨left ++ [x], right⟩ = some ⟨[], left ++ [x] ++ right⟩ := by
  cases left <;> rfl

/-! ### Each edit changes the line -/

/-- An edit that is defined only where it does something. -/
def Changes (edit : Zipper α → Option (Zipper α)) : Prop :=
  ∀ line line', edit line = some line' → line' ≠ line

theorem ne_of_length_left_ne {line line' : Zipper α}
    (differs : line'.left.length ≠ line.left.length) : line' ≠ line :=
  fun same => differs (by rw [same])

theorem ne_of_length_right_ne {line line' : Zipper α}
    (differs : line'.right.length ≠ line.right.length) : line' ≠ line :=
  fun same => differs (by rw [same])

theorem changes_insert (capacity : Nat) (x : α) : Changes (insert capacity x) := by
  intro line line' edited
  unfold insert at edited
  split at edited
  · cases edited
    apply ne_of_length_left_ne
    simp
  · cases edited

theorem changes_deleteForward : Changes (deleteForward (α := α)) := by
  intro ⟨left, right⟩ line' edited
  cases right with
  | nil => cases edited
  | cons x rest =>
      cases edited
      apply ne_of_length_right_ne
      simp

theorem changes_deleteBackward : Changes (deleteBackward (α := α)) := by
  intro line line' edited
  unfold deleteBackward at edited
  split at edited
  · cases edited
  · rename_i last present
    cases edited
    apply ne_of_length_left_ne
    have shorter := length_dropLast_add_one present
    dsimp only
    omega

theorem changes_moveLeft : Changes (moveLeft (α := α)) := by
  intro line line' edited
  unfold moveLeft at edited
  split at edited
  · cases edited
  · rename_i last present
    cases edited
    apply ne_of_length_left_ne
    have shorter := length_dropLast_add_one present
    dsimp only
    omega

theorem changes_moveRight : Changes (moveRight (α := α)) := by
  intro ⟨left, right⟩ line' edited
  cases right with
  | nil => cases edited
  | cons x rest =>
      cases edited
      apply ne_of_length_left_ne
      simp

theorem changes_moveHome : Changes (moveHome (α := α)) := by
  intro ⟨left, right⟩ line' edited
  cases left with
  | nil => cases edited
  | cons x rest =>
      cases edited
      apply ne_of_length_left_ne
      simp

theorem changes_moveEnd : Changes (moveEnd (α := α)) := by
  intro ⟨left, right⟩ line' edited
  cases right with
  | nil => cases edited
  | cons x rest =>
      cases edited
      apply ne_of_length_right_ne
      simp

theorem isSome_insert (capacity : Nat) (x : α) (line : Zipper α) :
    (insert capacity x line).isSome ↔ line.length < capacity := by
  unfold insert
  split <;> simp [*]

/-! ### Lengths

Only `insert` lengthens a line, and only while it is below capacity. -/

theorem length_of_insert {capacity : Nat} {x : α} {line line' : Zipper α}
    (edited : insert capacity x line = some line') : line'.length ≤ capacity := by
  unfold insert at edited
  split at edited
  · cases edited
    unfold length at *
    simp only [List.length_append, List.length_singleton]
    omega
  · cases edited

theorem length_of_deleteForward {line line' : Zipper α} (edited : deleteForward line = some line') :
    line'.length ≤ line.length := by
  obtain ⟨left, right⟩ := line
  cases right with
  | nil => cases edited
  | cons x rest =>
      cases edited
      simp only [length, List.length_cons]
      omega

theorem length_of_deleteBackward {line line' : Zipper α}
    (edited : deleteBackward line = some line') : line'.length ≤ line.length := by
  unfold deleteBackward at edited
  split at edited
  · cases edited
  · cases edited
    simp only [length, List.length_dropLast]
    omega

theorem length_of_moveLeft {line line' : Zipper α} (edited : moveLeft line = some line') :
    line'.length = line.length := by
  unfold moveLeft at edited
  split at edited
  · cases edited
  · rename_i last present
    cases edited
    have shorter := length_dropLast_add_one present
    simp only [length, List.length_cons]
    omega

theorem length_of_moveRight {line line' : Zipper α} (edited : moveRight line = some line') :
    line'.length = line.length := by
  obtain ⟨left, right⟩ := line
  cases right with
  | nil => cases edited
  | cons x rest =>
      cases edited
      simp only [length, List.length_append, List.length_cons, List.length_nil]
      omega

theorem length_of_moveHome {line line' : Zipper α} (edited : moveHome line = some line') :
    line'.length = line.length := by
  obtain ⟨left, right⟩ := line
  cases left with
  | nil => cases edited
  | cons x rest =>
      cases edited
      simp only [length, List.length_nil, List.length_append, List.length_cons]
      omega

theorem length_of_moveEnd {line line' : Zipper α} (edited : moveEnd line = some line') :
    line'.length = line.length := by
  obtain ⟨left, right⟩ := line
  cases right with
  | nil => cases edited
  | cons x rest =>
      cases edited
      simp only [length, List.length_nil, List.length_append]
      omega

/-! ### A buffer and a cursor index -/

/-- The line held in `buffer` with the cursor before index `cursor`. -/
def ofCursor (buffer : List α) (cursor : Nat) : Zipper α :=
  ⟨buffer.take cursor, buffer.drop cursor⟩

variable {buffer : List α}

@[simp] theorem left_append_right_ofCursor (cursor : Nat) :
    (ofCursor buffer cursor).left ++ (ofCursor buffer cursor).right = buffer :=
  List.take_append_drop cursor buffer

theorem length_left_ofCursor {cursor : Nat} (inside : cursor ≤ buffer.length) :
    (ofCursor buffer cursor).left.length = cursor :=
  List.length_take_of_le inside

@[simp] theorem length_ofCursor (cursor : Nat) : (ofCursor buffer cursor).length = buffer.length := by
  rw [length, ← List.length_append, left_append_right_ofCursor]

theorem ofCursor_zero : ofCursor buffer 0 = ⟨[], buffer⟩ := by
  simp [ofCursor]

theorem ofCursor_length : ofCursor buffer buffer.length = ⟨buffer, []⟩ := by
  simp [ofCursor]

theorem ofCursor_of_lt {cursor : Nat} (inside : cursor < buffer.length) :
    ofCursor buffer cursor = ⟨buffer.take cursor, buffer[cursor] :: buffer.drop (cursor + 1)⟩ := by
  rw [ofCursor, List.drop_eq_getElem_cons inside]

theorem ofCursor_succ {cursor : Nat} (inside : cursor < buffer.length) :
    ofCursor buffer (cursor + 1) = ⟨buffer.take cursor ++ [buffer[cursor]], buffer.drop (cursor + 1)⟩ := by
  rw [ofCursor, List.take_append_getElem inside]

theorem insert_ofCursor {capacity cursor : Nat} (x : α) (inside : cursor ≤ buffer.length)
    (room : buffer.length < capacity) :
    insert capacity x (ofCursor buffer cursor) = some (ofCursor (buffer.insertIdx cursor x) (cursor + 1)) := by
  have before : (buffer.take cursor ++ [x]).length = cursor + 1 := by
    rw [List.length_append, List.length_take_of_le inside, List.length_singleton]
  have inserted : ofCursor (buffer.insertIdx cursor x) (cursor + 1) =
      ⟨buffer.take cursor ++ [x], buffer.drop cursor⟩ := by
    rw [ofCursor, insertIdx_eq_take_drop inside, List.append_cons, List.take_left' before,
      List.drop_left' before]
  rw [insert, length_ofCursor, if_pos room, inserted]
  rfl

theorem insert_ofCursor_of_full {capacity : Nat} (cursor : Nat) (x : α)
    (full : capacity ≤ buffer.length) : insert capacity x (ofCursor buffer cursor) = none := by
  rw [insert, length_ofCursor, if_neg (Nat.not_lt.mpr full)]

theorem deleteForward_ofCursor {cursor : Nat} (inside : cursor < buffer.length) :
    deleteForward (ofCursor buffer cursor) = some (ofCursor (buffer.eraseIdx cursor) cursor) := by
  have before : (buffer.take cursor).length = cursor := List.length_take_of_le (Nat.le_of_lt inside)
  rw [ofCursor_of_lt inside, ofCursor, List.eraseIdx_eq_take_drop_succ, List.take_left' before,
    List.drop_left' before]
  rfl

theorem deleteForward_ofCursor_of_le {cursor : Nat} (atEnd : buffer.length ≤ cursor) :
    deleteForward (ofCursor buffer cursor) = none := by
  rw [deleteForward, ofCursor, List.drop_eq_nil_of_le atEnd]

theorem deleteBackward_ofCursor {cursor : Nat} (inside : cursor < buffer.length) :
    deleteBackward (ofCursor buffer (cursor + 1)) = some (ofCursor (buffer.eraseIdx cursor) cursor) := by
  have before : (buffer.take cursor).length = cursor := List.length_take_of_le (Nat.le_of_lt inside)
  rw [ofCursor_succ inside, deleteBackward, List.getLast?_concat, List.dropLast_concat, ofCursor,
    List.eraseIdx_eq_take_drop_succ, List.take_left' before, List.drop_left' before]

theorem deleteBackward_ofCursor_zero : deleteBackward (ofCursor buffer 0) = none := by
  rw [ofCursor_zero]
  rfl

theorem moveLeft_ofCursor {cursor : Nat} (inside : cursor < buffer.length) :
    moveLeft (ofCursor buffer (cursor + 1)) = some (ofCursor buffer cursor) := by
  rw [ofCursor_succ inside, moveLeft, List.getLast?_concat, List.dropLast_concat,
    ofCursor_of_lt inside]

theorem moveLeft_ofCursor_zero : moveLeft (ofCursor buffer 0) = none := by
  rw [ofCursor_zero]
  rfl

theorem moveRight_ofCursor {cursor : Nat} (inside : cursor < buffer.length) :
    moveRight (ofCursor buffer cursor) = some (ofCursor buffer (cursor + 1)) := by
  rw [ofCursor_of_lt inside, ofCursor_succ inside]
  rfl

theorem moveRight_ofCursor_of_le {cursor : Nat} (atEnd : buffer.length ≤ cursor) :
    moveRight (ofCursor buffer cursor) = none := by
  rw [moveRight, ofCursor, List.drop_eq_nil_of_le atEnd]

theorem moveHome_ofCursor {cursor : Nat} (inside : cursor < buffer.length) :
    moveHome (ofCursor buffer (cursor + 1)) = some (ofCursor buffer 0) := by
  have whole : buffer.take cursor ++ [buffer[cursor]] ++ buffer.drop (cursor + 1) = buffer := by
    rw [List.take_append_getElem inside, List.take_append_drop]
  rw [ofCursor_succ inside, moveHome_snoc, whole, ofCursor_zero]

theorem moveHome_ofCursor_zero : moveHome (ofCursor buffer 0) = none := by
  rw [ofCursor_zero]
  rfl

theorem moveEnd_ofCursor {cursor : Nat} (inside : cursor < buffer.length) :
    moveEnd (ofCursor buffer cursor) = some (ofCursor buffer buffer.length) := by
  have whole : buffer.take cursor ++ buffer[cursor] :: buffer.drop (cursor + 1) = buffer := by
    rw [← List.drop_eq_getElem_cons inside, List.take_append_drop]
  rw [ofCursor_of_lt inside, ofCursor_length]
  show (some ⟨buffer.take cursor ++ buffer[cursor] :: buffer.drop (cursor + 1), []⟩ :
    Option (Zipper α)) = _
  rw [whole]

theorem moveEnd_ofCursor_of_le {cursor : Nat} (atEnd : buffer.length ≤ cursor) :
    moveEnd (ofCursor buffer cursor) = none := by
  rw [moveEnd, ofCursor, List.drop_eq_nil_of_le atEnd]

end Zipper

end TextZipper
