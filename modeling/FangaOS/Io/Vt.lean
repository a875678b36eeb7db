import Mathlib.Data.List.DropRight
import Mathlib.Tactic.SplitIfs
import FangaOS.Lib.Run

/-! The virtual terminal of `io/vt.rs`.  The kernel is built in release mode, so
the cursor and the dimensions are wrapping `UInt64`; the buffer is a list of
cells and a string a list of characters. -/

namespace FangaOS.Vt

def historySize : Nat := 1000

/-- A cell of the screen buffer: the character, its foreground and its
background colour. -/
abbrev Cell := Char × UInt32 × UInt32

/-- `VirtualTerminal`, with the fields that writing reads and changes. -/
structure VirtualTerminal where
  col : UInt64
  row : UInt64
  maxCols : UInt64
  maxRows : UInt64
  fgColor : UInt32
  bgColor : UInt32
  screenBuffer : List Cell
  history : List (List Char)
  deriving DecidableEq, Repr

def VirtualTerminal.new (maxCols maxRows : UInt64) : VirtualTerminal :=
  let bufferSize := maxCols * maxRows
  { col := 0
    row := 0
    maxCols := maxCols
    maxRows := maxRows
    fgColor := 0xFFFFFFFF
    bgColor := 0xFF000000
    screenBuffer := List.replicate bufferSize.toNat (' ', 0xFFFFFFFF, 0xFF000000)
    history := [] }

def VirtualTerminal.blank (vt : VirtualTerminal) : Cell :=
  (' ', vt.fgColor, vt.bgColor)

/-- The row copy of `scroll_up`: each cell of rows `1..max_rows` to the cell one
row up, in increasing order of index. -/
def shiftRows (maxCols maxRows : Nat) (fallback : Cell) (buffer : List Cell) : List Cell :=
  (List.range' 1 (maxRows - 1)).foldl
    (fun buffer row =>
      (List.range maxCols).foldl
        (fun buffer col =>
          buffer.set ((row - 1) * maxCols + col) (buffer.getD (row * maxCols + col) fallback))
        buffer)
    buffer

/-- The last loop of `scroll_up`: the cells `start..start + count` cleared. -/
def clearCells (start count : Nat) (cell : Cell) (buffer : List Cell) : List Cell :=
  (List.range count).foldl (fun buffer i => buffer.set (start + i) cell) buffer

/-- `scroll_up`; the fallback cell stands for the panic of an index out of range. -/
def VirtualTerminal.scrollUp (vt : VirtualTerminal) : VirtualTerminal :=
  let maxCols := vt.maxCols.toNat
  -- the first row, saved to the history without its trailing blanks
  let line := (List.range maxCols).map fun col => (vt.screenBuffer.getD col vt.blank).1
  let trimmed := line.rdropWhile Char.isWhitespace
  let history :=
    if trimmed.isEmpty then vt.history
    else (if vt.history.length ≥ historySize then vt.history.drop 1 else vt.history) ++ [trimmed]
  let shifted := shiftRows maxCols vt.maxRows.toNat vt.blank vt.screenBuffer
  let lastRowStart := (vt.maxRows.toNat - 1) * maxCols
  { vt with
    screenBuffer := clearCells lastRowStart maxCols vt.blank shifted
    history := history }

def VirtualTerminal.putChar (vt : VirtualTerminal) (ch : Char) : VirtualTerminal :=
  let vt := if vt.row ≥ vt.maxRows then { vt.scrollUp with row := vt.maxRows - 1 } else vt
  let idx := vt.row * vt.maxCols + vt.col
  if idx.toNat < vt.screenBuffer.length then
    { vt with screenBuffer := vt.screenBuffer.set idx.toNat (ch, vt.fgColor, vt.bgColor) }
  else vt

def VirtualTerminal.newline (vt : VirtualTerminal) : VirtualTerminal :=
  let vt := { vt with col := 0, row := vt.row + 1 }
  if vt.row ≥ vt.maxRows then { vt.scrollUp with row := vt.maxRows - 1 } else vt

/-- The printable arm of `write_char`. -/
def VirtualTerminal.writePrintable (vt : VirtualTerminal) (ch : Char) : VirtualTerminal :=
  let vt := if vt.col ≥ vt.maxCols then vt.newline else vt
  let vt := vt.putChar ch
  { vt with col := vt.col + 1 }

/-- `write_char`.  The tab arm calls `write_char(' ')` four times, which takes
the printable arm. -/
def VirtualTerminal.writeChar (vt : VirtualTerminal) (ch : Char) : VirtualTerminal :=
  match ch with
  | '\n' => vt.newline
  | '\r' => { vt with col := 0 }
  | '\t' => (List.range 4).foldl (fun vt _ => vt.writePrintable ' ') vt
  | '\x08' =>
      if vt.col > 0 then
        let vt := { vt with col := vt.col - 1 }
        let vt := vt.putChar ' '
        { vt with col := vt.col - 1 }
      else vt
  | ch => if ch ≥ ' ' ∧ ch ≤ '~' then vt.writePrintable ch else vt

def VirtualTerminal.writeStr (vt : VirtualTerminal) (s : List Char) : VirtualTerminal :=
  s.foldl VirtualTerminal.writeChar vt

def VirtualTerminal.clear (vt : VirtualTerminal) : VirtualTerminal :=
  { vt with screenBuffer := vt.screenBuffer.map fun _ => vt.blank, col := 0, row := 0 }

def VirtualTerminal.setPosition (vt : VirtualTerminal) (col row : UInt64) : VirtualTerminal :=
  { vt with col := min col (vt.maxCols - 1), row := min row (vt.maxRows - 1) }

def VirtualTerminal.position (vt : VirtualTerminal) : UInt64 × UInt64 :=
  (vt.col, vt.row)

/-! ### What each operation keeps -/

theorem length_foldl_of_forall {α β : Type*} {f : List α → β → List α}
    (keeps : ∀ buffer x, (f buffer x).length = buffer.length) (xs : List β) (buffer : List α) :
    (xs.foldl f buffer).length = buffer.length := by
  induction xs generalizing buffer with
  | nil => rfl
  | cons x xs ih => rw [List.foldl_cons, ih, keeps]

theorem length_shiftRows (maxCols maxRows : Nat) (fallback : Cell) (buffer : List Cell) :
    (shiftRows maxCols maxRows fallback buffer).length = buffer.length :=
  length_foldl_of_forall
    (fun _ _ => length_foldl_of_forall (fun _ _ => List.length_set) _ _) _ _

theorem length_clearCells (start count : Nat) (cell : Cell) (buffer : List Cell) :
    (clearCells start count cell buffer).length = buffer.length :=
  length_foldl_of_forall (fun _ _ => List.length_set) _ _

section ScrollUp

variable (vt : VirtualTerminal)

@[simp] theorem VirtualTerminal.length_scrollUp :
    vt.scrollUp.screenBuffer.length = vt.screenBuffer.length := by
  rw [scrollUp, length_clearCells, length_shiftRows]

end ScrollUp

theorem VirtualTerminal.putChar_of_rowInside {vt : VirtualTerminal} (inside : vt.row < vt.maxRows)
    (ch : Char) : vt.putChar ch =
      { vt with screenBuffer :=
          vt.screenBuffer.set (vt.row * vt.maxCols + vt.col).toNat (ch, vt.fgColor, vt.bgColor) } := by
  unfold putChar
  dsimp only
  rw [if_neg (show ¬ vt.row ≥ vt.maxRows from UInt64.not_le.mpr inside)]
  split
  · rfl
  · rw [List.set_eq_of_length_le (by omega)]

section Fields

variable (vt : VirtualTerminal)

@[simp] theorem VirtualTerminal.maxCols_putChar (ch : Char) : (vt.putChar ch).maxCols = vt.maxCols := by
  unfold putChar
  dsimp only
  split <;> split <;> rfl

end Fields

/-- The cursor stays on the screen, at most one column past the last, and the
buffer holds one cell per position. -/
structure VirtualTerminal.Bounded (vt : VirtualTerminal) : Prop where
  rowsPositive : 0 < vt.maxRows
  colsPositive : 0 < vt.maxCols
  rowInside : vt.row < vt.maxRows
  colInside : vt.col ≤ vt.maxCols
  bufferLength : vt.screenBuffer.length = vt.maxCols.toNat * vt.maxRows.toNat

theorem VirtualTerminal.new_bounded {maxCols maxRows : UInt64} (colsPositive : 0 < maxCols)
    (rowsPositive : 0 < maxRows) (fits : maxCols.toNat * maxRows.toNat < 2 ^ 64) :
    (VirtualTerminal.new maxCols maxRows).Bounded where
  rowsPositive := rowsPositive
  colsPositive := colsPositive
  rowInside := rowsPositive
  colInside := UInt64.zero_le
  bufferLength := by
    rw [new, List.length_replicate, UInt64.toNat_mul, Nat.mod_eq_of_lt fits]

section Bounded

variable {vt : VirtualTerminal}

theorem VirtualTerminal.Bounded.putChar (bounded : vt.Bounded) (ch : Char) :
    (vt.putChar ch).Bounded ∧ (vt.putChar ch).col = vt.col := by
  rw [putChar_of_rowInside bounded.rowInside]
  exact ⟨⟨bounded.rowsPositive, bounded.colsPositive, bounded.rowInside, bounded.colInside,
    by rw [List.length_set, bounded.bufferLength]⟩, rfl⟩

theorem VirtualTerminal.Bounded.newline (bounded : vt.Bounded) :
    vt.newline.Bounded ∧ vt.newline.col = 0 := by
  have rowsPositive := bounded.rowsPositive
  unfold VirtualTerminal.newline
  dsimp only
  split
  · refine ⟨⟨rowsPositive, bounded.colsPositive, ?_, UInt64.zero_le, ?_⟩, rfl⟩
    · show vt.maxRows - 1 < vt.maxRows
      grind
    · simp only [length_scrollUp]
      exact bounded.bufferLength
  · refine ⟨⟨rowsPositive, bounded.colsPositive, ?_, UInt64.zero_le, bounded.bufferLength⟩, rfl⟩
    exact UInt64.not_le.mp ‹_›

theorem VirtualTerminal.Bounded.advance (bounded : vt.Bounded) (left : vt.col < vt.maxCols) :
    { vt with col := vt.col + 1 }.Bounded where
  rowsPositive := bounded.rowsPositive
  colsPositive := bounded.colsPositive
  rowInside := bounded.rowInside
  colInside := by
    show vt.col + 1 ≤ vt.maxCols
    grind
  bufferLength := bounded.bufferLength

theorem VirtualTerminal.Bounded.writePrintable (bounded : vt.Bounded) (ch : Char) :
    (vt.writePrintable ch).Bounded := by
  unfold VirtualTerminal.writePrintable
  dsimp only
  -- before the cell is written the cursor is strictly left of the right edge
  obtain ⟨ready, left⟩ : (if vt.col ≥ vt.maxCols then vt.newline else vt).Bounded ∧
      (if vt.col ≥ vt.maxCols then vt.newline else vt).col <
        (if vt.col ≥ vt.maxCols then vt.newline else vt).maxCols := by
    split
    · obtain ⟨newlined, atStart⟩ := bounded.newline
      refine ⟨newlined, ?_⟩
      rw [atStart]
      exact newlined.colsPositive
    · exact ⟨bounded, UInt64.not_le.mp ‹_›⟩
  obtain ⟨written, sameCol⟩ := ready.putChar ch
  exact written.advance (by rw [sameCol, maxCols_putChar]; exact left)

theorem VirtualTerminal.Bounded.retreat (bounded : vt.Bounded) (positive : 0 < vt.col) :
    { vt with col := vt.col - 1 }.Bounded where
  rowsPositive := bounded.rowsPositive
  colsPositive := bounded.colsPositive
  rowInside := bounded.rowInside
  colInside := by
    show vt.col - 1 ≤ vt.maxCols
    have := bounded.colInside
    grind
  bufferLength := bounded.bufferLength

theorem VirtualTerminal.Bounded.writeChar (bounded : vt.Bounded) {ch : Char}
    (safe : ch = '\x08' → vt.col ≠ 1) : (vt.writeChar ch).Bounded := by
  unfold VirtualTerminal.writeChar
  split
  · exact bounded.newline.1
  · exact ⟨bounded.rowsPositive, bounded.colsPositive, bounded.rowInside, UInt64.zero_le,
      bounded.bufferLength⟩
  · -- the tab prints four spaces
    exact StepMachine.Invariant.run (fun _ _ printed => printed.writePrintable ' ') bounded
      (List.range 4)
  · split
    · -- the backspace moves left, writes a blank, and moves left again
      rename_i positive
      have twice : 0 < vt.col - 1 := by
        have notOne := safe rfl
        grind
      obtain ⟨blanked, sameCol⟩ := (bounded.retreat positive).putChar ' '
      exact blanked.retreat (by rw [sameCol]; exact twice)
    · exact bounded
  · split
    · exact bounded.writePrintable _
    · exact bounded

end Bounded

/-- From `new` with positive dimensions whose product fits a `usize`, writing
any string in which no backspace comes at column 1 keeps the cursor on the
screen: the row below `max_rows`, the column at most `max_cols`, and the
buffer `max_cols * max_rows` cells long. -/
theorem vt_cursor_stays_on_screen {maxCols maxRows : UInt64} (colsPositive : 0 < maxCols)
    (rowsPositive : 0 < maxRows) (fits : maxCols.toNat * maxRows.toNat < 2 ^ 64) (s : List Char)
    (safe : StepMachine.AllowedAlong VirtualTerminal.writeChar (fun vt ch => ch = '\x08' → vt.col ≠ 1)
      (VirtualTerminal.new maxCols maxRows) s) :
    let vt := (VirtualTerminal.new maxCols maxRows).writeStr s
    vt.row < vt.maxRows ∧ vt.col ≤ vt.maxCols ∧
      vt.screenBuffer.length = vt.maxCols.toNat * vt.maxRows.toNat := by
  intro vt
  have bounded : vt.Bounded :=
    StepMachine.run_of_allowedAlong (fun _ _ allowed printed => printed.writeChar allowed)
      (VirtualTerminal.new_bounded colsPositive rowsPositive fits) safe
  exact ⟨bounded.rowInside, bounded.colInside, bounded.bufferLength⟩

theorem vt_cursor_stays_on_screen_after_backspace :
    0 < (4 : UInt64) ∧ 0 < (2 : UInt64) ∧ (4 : UInt64).toNat * (2 : UInt64).toNat < 2 ^ 64 ∧
    StepMachine.AllowedAlong VirtualTerminal.writeChar (fun vt ch => ch = '\x08' → vt.col ≠ 1)
      (VirtualTerminal.new 4 2) ['a', 'b', '\x08'] ∧
    let vt := (VirtualTerminal.new 4 2).writeStr ['a', 'b', '\x08']
    vt.row < vt.maxRows ∧ vt.col ≤ vt.maxCols ∧
      vt.screenBuffer.length = vt.maxCols.toNat * vt.maxRows.toNat :=
  have safe : StepMachine.AllowedAlong VirtualTerminal.writeChar (fun vt ch => ch = '\x08' → vt.col ≠ 1)
      (VirtualTerminal.new 4 2) ['a', 'b', '\x08'] := ⟨by decide, by decide, by decide, trivial⟩
  ⟨by decide, by decide, by decide, safe,
    vt_cursor_stays_on_screen (by decide) (by decide) (by decide) _ safe⟩

/-! ### Backspace -/

theorem vt_backspace_moves_two_columns :
    let vt : VirtualTerminal := (VirtualTerminal.new 4 2).writeStr ['a', 'b', '\x08']
    let wrapped : VirtualTerminal := (VirtualTerminal.new 4 2).writeStr ['a', '\x08']
    vt.col = 0 ∧ vt.screenBuffer.take 2 = [('a', 0xFFFFFFFF, 0xFF000000), (' ', 0xFFFFFFFF, 0xFF000000)] ∧
      wrapped.col = 0xFFFFFFFFFFFFFFFF ∧ wrapped.maxCols < wrapped.col := by
  decide

end FangaOS.Vt
