import Mathlib.Tactic.SplitIfs
import FangaOS.Lib.Run
import FangaOS.Lib.TextZipper

/-! The line editor of `io/line_editor.rs`, refining the zipper of `TextZipper`.
The cursor stays within a line of at most 256 characters, so it is a `Nat`; the
vector is a list of characters. -/

namespace FangaOS.LineEdit

open TextZipper TextZipper.Zipper StepMachine

def maxLineLength : Nat := 256

structure LineEditor where
  buffer : Option (List Char)
  cursor : Nat
  deriving DecidableEq, Repr

def LineEditor.new : LineEditor :=
  ⟨none, 0⟩

def LineEditor.init (editor : LineEditor) : LineEditor :=
  if editor.buffer.isNone then { buffer := some [], cursor := 0 } else editor

def LineEditor.ensureInitialized (editor : LineEditor) : LineEditor :=
  if editor.buffer.isNone then editor.init else editor

/-- `buffer()`, the line as a slice.  After `ensure_initialized` it is also what
`self.buffer.as_mut().unwrap()` reaches. -/
def LineEditor.bufferSlice (editor : LineEditor) : List Char :=
  match editor.buffer with
  | some buf => buf
  | none => []

def LineEditor.getLine (editor : LineEditor) : List Char :=
  match editor.buffer with
  | some buf => buf
  | none => []

def LineEditor.len (editor : LineEditor) : Nat :=
  match editor.buffer with
  | some buf => buf.length
  | none => 0

def LineEditor.isEmpty (editor : LineEditor) : Bool :=
  match editor.buffer with
  | some buf => buf.isEmpty
  | none => true

def LineEditor.insertChar (editor : LineEditor) (ch : Char) : Bool × LineEditor :=
  let editor := editor.ensureInitialized
  let buffer := editor.bufferSlice
  if buffer.length ≥ maxLineLength then (false, editor)
  else if editor.cursor ≥ buffer.length then
    let pushed := buffer ++ [ch]
    (true, { buffer := some pushed, cursor := pushed.length })
  else (true, { buffer := some (buffer.insertIdx editor.cursor ch), cursor := editor.cursor + 1 })

def LineEditor.deleteChar (editor : LineEditor) : Bool × LineEditor :=
  let editor := editor.ensureInitialized
  let buffer := editor.bufferSlice
  if editor.cursor < buffer.length then
    (true, { editor with buffer := some (buffer.eraseIdx editor.cursor) })
  else (false, editor)

def LineEditor.backspace (editor : LineEditor) : Bool × LineEditor :=
  let editor := editor.ensureInitialized
  if editor.cursor > 0 then
    let cursor := editor.cursor - 1
    (true, { buffer := some (editor.bufferSlice.eraseIdx cursor), cursor })
  else (false, editor)

/-- The common shape of the four cursor moves: when `allowed` holds of the
cursor and the line's length, the cursor goes to `target` of them. -/
def LineEditor.moveCursor (editor : LineEditor) (allowed : Nat → Nat → Bool)
    (target : Nat → Nat → Nat) : Bool × LineEditor :=
  let editor := editor.ensureInitialized
  let length := editor.bufferSlice.length
  if allowed editor.cursor length then
    (true, { editor with cursor := target editor.cursor length })
  else (false, editor)

def LineEditor.moveLeft (editor : LineEditor) : Bool × LineEditor :=
  editor.moveCursor (fun cursor _ => cursor > 0) (fun cursor _ => cursor - 1)

def LineEditor.moveRight (editor : LineEditor) : Bool × LineEditor :=
  editor.moveCursor (fun cursor length => cursor < length) (fun cursor _ => cursor + 1)

def LineEditor.moveHome (editor : LineEditor) : Bool × LineEditor :=
  editor.moveCursor (fun cursor _ => cursor > 0) (fun _ _ => 0)

def LineEditor.moveEnd (editor : LineEditor) : Bool × LineEditor :=
  editor.moveCursor (fun cursor length => cursor < length) (fun _ length => length)

def LineEditor.clear (editor : LineEditor) : LineEditor :=
  let editor := editor.ensureInitialized
  { buffer := editor.buffer.map fun _ => [], cursor := 0 }

inductive EditorOp
  | insertChar (ch : Char)
  | deleteChar
  | backspace
  | moveLeft
  | moveRight
  | moveHome
  | moveEnd
  | clear
  deriving DecidableEq, Repr

/-- A call and what it returns: whether it did something, or nothing for `clear`. -/
def LineEditor.call (editor : LineEditor) : EditorOp → Option Bool × LineEditor
  | .insertChar ch => Prod.map some id (editor.insertChar ch)
  | .deleteChar => Prod.map some id editor.deleteChar
  | .backspace => Prod.map some id editor.backspace
  | .moveLeft => Prod.map some id editor.moveLeft
  | .moveRight => Prod.map some id editor.moveRight
  | .moveHome => Prod.map some id editor.moveHome
  | .moveEnd => Prod.map some id editor.moveEnd
  | .clear => (none, editor.clear)

def LineEditor.step (editor : LineEditor) (op : EditorOp) : LineEditor :=
  (editor.call op).2

/-! ### The line as a zipper -/

/-- What each call is on the line: the edit it makes, defined where it does something. -/
def EditorOp.edit : EditorOp → Zipper Char → Option (Zipper Char)
  | .insertChar ch => Zipper.insert maxLineLength ch
  | .deleteChar => deleteForward
  | .backspace => deleteBackward
  | .moveLeft => Zipper.moveLeft
  | .moveRight => Zipper.moveRight
  | .moveHome => Zipper.moveHome
  | .moveEnd => Zipper.moveEnd
  | .clear => fun _ => some Zipper.empty

/-- The zipper machine: a call makes its edit where it applies and leaves the
line as it is where it does not. -/
def editLine (line : Zipper Char) (op : EditorOp) : Zipper Char :=
  (op.edit line).getD line

def LineEditor.view (editor : LineEditor) : Zipper Char :=
  ofCursor editor.bufferSlice editor.cursor

/-- A call carries out `edit` on `line`, returning `true` exactly where the edit
applies, and keeps its cursor within the line. -/
def Performs (result : Bool × LineEditor) (edit : Option (Zipper Char)) (line : Zipper Char) :
    Prop :=
  result.2.cursor ≤ result.2.len ∧ result.2.view = edit.getD line ∧ (result.1 = true ↔ edit.isSome)

section Spec

variable {editor : LineEditor} {result : Bool × LineEditor} {edit : Option (Zipper Char)}
  {line line' : Zipper Char}

theorem LineEditor.len_eq (editor : LineEditor) : editor.len = editor.bufferSlice.length := by
  unfold len bufferSlice
  split <;> rfl

theorem LineEditor.getLine_eq (editor : LineEditor) : editor.getLine = editor.bufferSlice := rfl

@[simp] theorem LineEditor.bufferSlice_some (buffer : List Char) (cursor : Nat) :
    (⟨some buffer, cursor⟩ : LineEditor).bufferSlice = buffer := rfl

@[simp] theorem LineEditor.len_some (buffer : List Char) (cursor : Nat) :
    (⟨some buffer, cursor⟩ : LineEditor).len = buffer.length := rfl

@[simp] theorem LineEditor.view_some (buffer : List Char) (cursor : Nat) :
    (⟨some buffer, cursor⟩ : LineEditor).view = ofCursor buffer cursor := rfl

theorem LineEditor.ensureInitialized_eq (inside : editor.cursor ≤ editor.len) :
    editor.ensureInitialized = ⟨some editor.bufferSlice, editor.cursor⟩ := by
  obtain ⟨buffer, cursor⟩ := editor
  cases buffer with
  | none =>
      have atStart : cursor = 0 := Nat.le_zero.mp inside
      rw [atStart]
      rfl
  | some buf => rfl

theorem LineEditor.exists_initialized (inside : editor.cursor ≤ editor.len) :
    ∃ buffer cursor, cursor ≤ buffer.length ∧ editor.ensureInitialized = ⟨some buffer, cursor⟩ ∧
      editor.view = ofCursor buffer cursor :=
  ⟨editor.bufferSlice, editor.cursor, len_eq editor ▸ inside, ensureInitialized_eq inside, rfl⟩

theorem performs_of_some (edited : edit = some line') (cursorLe : result.2.cursor ≤ result.2.len)
    (shows : result.2.view = line') (done : result.1 = true) : Performs result edit line := by
  subst edited
  exact ⟨cursorLe, shows, by simp [done]⟩

theorem performs_of_none (edited : edit = none) (cursorLe : result.2.cursor ≤ result.2.len)
    (shows : result.2.view = line) (done : result.1 = false) : Performs result edit line := by
  subst edited
  exact ⟨cursorLe, shows, by simp [done]⟩

theorem Performs.changed {change : Zipper Char → Option (Zipper Char)}
    (performs : Performs result (change line) line) (changes : Changes change) :
    result.1 = true ↔ result.2.view ≠ line := by
  obtain ⟨-, shows, done⟩ := performs
  rw [done, shows]
  cases edited : change line with
  | none => simp
  | some line' => simpa using changes line line' edited

theorem LineEditor.insertChar_performs (ch : Char) (inside : editor.cursor ≤ editor.len) :
    Performs (editor.insertChar ch) (Zipper.insert maxLineLength ch editor.view) editor.view := by
  obtain ⟨buffer, cursor, inside, initialized, shows⟩ := editor.exists_initialized inside
  unfold insertChar
  rw [initialized, shows]
  dsimp only
  rw [bufferSlice_some]
  by_cases full : buffer.length ≥ maxLineLength
  · rw [if_pos full]
    exact performs_of_none (insert_ofCursor_of_full cursor ch full) inside rfl rfl
  rw [if_neg full]
  have room : buffer.length < maxLineLength := Nat.lt_of_not_le full
  by_cases atEnd : cursor ≥ buffer.length
  · -- the cursor is at the end of the line: `push`
    rw [if_pos atEnd]
    have atEnd : cursor = buffer.length := by omega
    subst atEnd
    refine performs_of_some (insert_ofCursor ch inside room) (by simp) ?_ rfl
    rw [List.insertIdx_length_self, view_some, List.length_append, List.length_singleton]
  · rw [if_neg atEnd]
    refine performs_of_some (insert_ofCursor ch inside room) ?_ rfl rfl
    show cursor + 1 ≤ (buffer.insertIdx cursor ch).length
    rw [List.length_insertIdx_of_le_length inside]
    omega

theorem LineEditor.deleteChar_performs (inside : editor.cursor ≤ editor.len) :
    Performs editor.deleteChar (deleteForward editor.view) editor.view := by
  obtain ⟨buffer, cursor, inside, initialized, shows⟩ := editor.exists_initialized inside
  unfold deleteChar
  rw [initialized, shows]
  dsimp only
  rw [bufferSlice_some]
  by_cases before : cursor < buffer.length
  · rw [if_pos before]
    refine performs_of_some (deleteForward_ofCursor before) ?_ rfl rfl
    show cursor ≤ (buffer.eraseIdx cursor).length
    rw [List.length_eraseIdx_of_lt before]
    omega
  · rw [if_neg before]
    exact performs_of_none (deleteForward_ofCursor_of_le (by omega)) inside rfl rfl

theorem LineEditor.backspace_performs (inside : editor.cursor ≤ editor.len) :
    Performs editor.backspace (deleteBackward editor.view) editor.view := by
  obtain ⟨buffer, cursor, inside, initialized, shows⟩ := editor.exists_initialized inside
  unfold backspace
  rw [initialized, shows]
  dsimp only
  rw [bufferSlice_some]
  cases cursor with
  | zero =>
      rw [if_neg (Nat.lt_irrefl 0)]
      exact performs_of_none deleteBackward_ofCursor_zero inside rfl rfl
  | succ previous =>
      rw [if_pos (Nat.succ_pos previous), Nat.add_sub_cancel]
      refine performs_of_some (deleteBackward_ofCursor (by omega)) ?_ rfl rfl
      show previous ≤ (buffer.eraseIdx previous).length
      rw [List.length_eraseIdx_of_lt (by omega)]
      omega

theorem LineEditor.moveCursor_eq (inside : editor.cursor ≤ editor.len) (allowed : Nat → Nat → Bool)
    (target : Nat → Nat → Nat) :
    editor.moveCursor allowed target =
      if allowed editor.cursor editor.len then
        (true, ⟨some editor.bufferSlice, target editor.cursor editor.len⟩)
      else (false, ⟨some editor.bufferSlice, editor.cursor⟩) := by
  unfold moveCursor
  rw [ensureInitialized_eq inside, len_eq]
  rfl

theorem LineEditor.moveCursor_performs {allowed : Nat → Nat → Bool} {target : Nat → Nat → Nat}
    {change : Zipper Char → Option (Zipper Char)}
    (moves : ∀ (buffer : List Char) cursor, cursor ≤ buffer.length →
      allowed cursor buffer.length = true → target cursor buffer.length ≤ buffer.length ∧
        change (ofCursor buffer cursor) = some (ofCursor buffer (target cursor buffer.length)))
    (stays : ∀ (buffer : List Char) cursor, cursor ≤ buffer.length →
      allowed cursor buffer.length = false → change (ofCursor buffer cursor) = none)
    (inside : editor.cursor ≤ editor.len) :
    Performs (editor.moveCursor allowed target) (change editor.view) editor.view := by
  rw [moveCursor_eq inside]
  rw [len_eq] at inside ⊢
  unfold view
  generalize editor.bufferSlice = buffer at inside ⊢
  generalize editor.cursor = cursor at inside ⊢
  cases guard : allowed cursor buffer.length with
  | true =>
      obtain ⟨within, moved⟩ := moves buffer cursor inside guard
      rw [if_pos rfl]
      exact performs_of_some moved within rfl rfl
  | false =>
      rw [if_neg Bool.false_ne_true]
      exact performs_of_none (stays buffer cursor inside guard) inside rfl rfl

theorem LineEditor.moveLeft_performs (inside : editor.cursor ≤ editor.len) :
    Performs editor.moveLeft (Zipper.moveLeft editor.view) editor.view := by
  refine moveCursor_performs ?_ ?_ inside
  · intro buffer cursor within after
    cases cursor with
    | zero => cases after
    | succ previous => exact ⟨by omega, moveLeft_ofCursor (by omega)⟩
  · intro buffer cursor _ atStart
    have atStart : cursor = 0 := by simpa using atStart
    subst atStart
    exact moveLeft_ofCursor_zero

theorem LineEditor.moveRight_performs (inside : editor.cursor ≤ editor.len) :
    Performs editor.moveRight (Zipper.moveRight editor.view) editor.view := by
  refine moveCursor_performs ?_ ?_ inside
  · intro buffer cursor _ before
    have before : cursor < buffer.length := by simpa using before
    exact ⟨before, moveRight_ofCursor before⟩
  · intro buffer cursor _ atEnd
    exact moveRight_ofCursor_of_le (by simpa using atEnd)

theorem LineEditor.moveHome_performs (inside : editor.cursor ≤ editor.len) :
    Performs editor.moveHome (Zipper.moveHome editor.view) editor.view := by
  refine moveCursor_performs ?_ ?_ inside
  · intro buffer cursor within after
    cases cursor with
    | zero => cases after
    | succ previous => exact ⟨Nat.zero_le _, moveHome_ofCursor (by omega)⟩
  · intro buffer cursor _ atStart
    have atStart : cursor = 0 := by simpa using atStart
    subst atStart
    exact moveHome_ofCursor_zero

theorem LineEditor.moveEnd_performs (inside : editor.cursor ≤ editor.len) :
    Performs editor.moveEnd (Zipper.moveEnd editor.view) editor.view := by
  refine moveCursor_performs ?_ ?_ inside
  · intro buffer cursor _ before
    exact ⟨Nat.le_refl _, moveEnd_ofCursor (by simpa using before)⟩
  · intro buffer cursor _ atEnd
    exact moveEnd_ofCursor_of_le (by simpa using atEnd)

theorem LineEditor.view_clear (editor : LineEditor) (inside : editor.cursor ≤ editor.len) :
    editor.clear.view = Zipper.empty ∧ editor.clear.len = 0 := by
  unfold clear
  rw [ensureInitialized_eq inside]
  exact ⟨rfl, rfl⟩

theorem LineEditor.insertChar_fst (ch : Char) (inside : editor.cursor ≤ editor.len) :
    (editor.insertChar ch).1 = decide (editor.len < maxLineLength) := by
  obtain ⟨-, -, done⟩ := insertChar_performs ch inside
  rw [Bool.eq_iff_iff, done, isSome_insert, decide_eq_true_iff, view, length_ofCursor, len_eq]

theorem Performs.spec {change : Zipper Char → Option (Zipper Char)}
    (performs : Performs result (change line) line) (changes : Changes change) :
    result.2.cursor ≤ result.2.len ∧ result.2.view = (change line).getD line ∧
      ∀ done, (Prod.map some id result).1 = some done → (done = true ↔ result.2.view ≠ line) := by
  refine ⟨performs.1, performs.2.1, fun done returned => ?_⟩
  cases returned
  exact performs.changed changes

theorem LineEditor.call_spec (inside : editor.cursor ≤ editor.len) (op : EditorOp) :
    (editor.call op).2.cursor ≤ (editor.call op).2.len ∧
      (editor.call op).2.view = editLine editor.view op ∧
      ∀ done, (editor.call op).1 = some done → (done = true ↔ (editor.call op).2.view ≠ editor.view) := by
  cases op with
  | insertChar ch => exact (insertChar_performs ch inside).spec (changes_insert maxLineLength ch)
  | deleteChar => exact (deleteChar_performs inside).spec changes_deleteForward
  | backspace => exact (backspace_performs inside).spec changes_deleteBackward
  | moveLeft => exact (moveLeft_performs inside).spec changes_moveLeft
  | moveRight => exact (moveRight_performs inside).spec changes_moveRight
  | moveHome => exact (moveHome_performs inside).spec changes_moveHome
  | moveEnd => exact (moveEnd_performs inside).spec changes_moveEnd
  | clear =>
      -- `clear` returns nothing, so only the line it shows is constrained
      obtain ⟨cleared, -⟩ := editor.view_clear inside
      refine ⟨?_, cleared, fun done returned => nomatch returned⟩
      show 0 ≤ editor.clear.len
      exact Nat.zero_le _

end Spec

/-! ### Runs -/

theorem length_editLine_le {line : Zipper Char} (fits : line.length ≤ maxLineLength) (op : EditorOp) :
    (editLine line op).length ≤ maxLineLength := by
  unfold editLine
  cases edited : op.edit line with
  | none => exact fits
  | some line' =>
      show line'.length ≤ maxLineLength
      cases op with
      | insertChar ch => exact length_of_insert edited
      | deleteChar => exact Nat.le_trans (length_of_deleteForward edited) fits
      | backspace => exact Nat.le_trans (length_of_deleteBackward edited) fits
      | moveLeft => exact Nat.le_trans (Nat.le_of_eq (length_of_moveLeft edited)) fits
      | moveRight => exact Nat.le_trans (Nat.le_of_eq (length_of_moveRight edited)) fits
      | moveHome => exact Nat.le_trans (Nat.le_of_eq (length_of_moveHome edited)) fits
      | moveEnd => exact Nat.le_trans (Nat.le_of_eq (length_of_moveEnd edited)) fits
      | clear =>
          cases edited
          exact Nat.zero_le _

/-- The editor shows `line`, and its cursor lies within it. -/
def Represents (editor : LineEditor) (line : Zipper Char) : Prop :=
  editor.cursor ≤ editor.len ∧ editor.view = line

theorem represents_new : Represents LineEditor.new Zipper.empty :=
  ⟨Nat.le_refl 0, rfl⟩

theorem represents_simulation : Simulation LineEditor.step editLine Represents := by
  intro editor line op ⟨inside, shows⟩
  obtain ⟨inside', after, -⟩ := editor.call_spec inside op
  refine ⟨inside', ?_⟩
  rw [LineEditor.step, after, shows]

theorem line_editor_refines_zipper (ops : List EditorOp) :
    let editor : LineEditor := run LineEditor.step LineEditor.new ops
    let line : Zipper Char := run editLine Zipper.empty ops
    editor.view = line ∧ editor.getLine = line.left ++ line.right ∧
      editor.cursor = line.left.length ∧ editor.cursor ≤ editor.len ∧ editor.len ≤ maxLineLength ∧
      (∀ ch, (editor.insertChar ch).1 = decide (editor.len < maxLineLength)) ∧
      ∀ op : EditorOp, (editor.call op).2.view = editLine line op ∧
        ∀ done, (editor.call op).1 = some done → (done = true ↔ editLine line op ≠ line) := by
  intro editor line
  obtain ⟨inside, shows⟩ : Represents editor line := represents_simulation.run represents_new ops
  have preserved : Invariant editLine fun line : Zipper Char => line.length ≤ maxLineLength :=
    fun line op fits => length_editLine_le fits op
  have fits : line.length ≤ maxLineLength :=
    preserved.run (show Zipper.empty.length ≤ maxLineLength by decide) ops
  have lengths : editor.len = line.length := by
    rw [← shows, LineEditor.view, length_ofCursor, LineEditor.len_eq]
  refine ⟨shows, ?_, ?_, inside, lengths ▸ fits, fun ch => editor.insertChar_fst ch inside,
    fun op => ?_⟩
  · rw [LineEditor.getLine_eq, ← shows, LineEditor.view, left_append_right_ofCursor]
  · rw [← shows, LineEditor.view, length_left_ofCursor (by rwa [← LineEditor.len_eq])]
  · obtain ⟨-, after, returns⟩ := editor.call_spec inside op
    rw [← shows]
    exact ⟨after, fun done returned => after ▸ returns done returned⟩

end FangaOS.LineEdit
