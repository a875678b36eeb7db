import Mathlib.Logic.Function.Iterate
import FangaOS.Lib.Run
import FangaOS.Lib.RecentLog

/-! The command history of `shell/history.rs`, as `RecentLog.recent` of the
non-blank commands.  A string is the list of its characters. -/

namespace FangaOS.Shell

open StepMachine RecentLog

def maxHistory : Nat := 100

/-- `char::is_whitespace`: the characters with the Unicode `White_Space` property. -/
def isWhitespace (c : Char) : Bool :=
  let n := c.toNat
  (0x09 ≤ n && n ≤ 0x0D) || n == 0x20 || n == 0x85 || n == 0xA0 || n == 0x1680 ||
    (0x2000 ≤ n && n ≤ 0x200A) || n == 0x2028 || n == 0x2029 || n == 0x202F || n == 0x205F ||
    n == 0x3000

/-- `str::trim`: the string without its leading and trailing whitespace. -/
def trim (s : List Char) : List Char :=
  (s.dropWhile isWhitespace).rdropWhile isWhitespace

structure History where
  commands : Option (List (List Char))
  position : Option Nat
  deriving DecidableEq, Repr

def History.new : History :=
  ⟨none, none⟩

def History.init (history : History) : History :=
  if history.commands.isNone then { commands := some [], position := none } else history

def History.ensureInitialized (history : History) : History :=
  if history.commands.isNone then history.init else history

/-- `self.commands.as_ref().unwrap()`, reached after `ensure_initialized`. -/
def History.unwrapCommands (history : History) : List (List Char) :=
  history.commands.getD []

def History.add (history : History) (command : List Char) : History :=
  let history := history.ensureInitialized
  let commands := history.unwrapCommands
  if (trim command).isEmpty then history
  else if commands.getLast? = some command then history
  else
    let commands := if commands.length ≥ maxHistory then commands.eraseIdx 0 else commands
    { commands := some (commands ++ [command]), position := none }

def History.prev (history : History) : Option (List Char) × History :=
  let history := history.ensureInitialized
  let commands := history.unwrapCommands
  if commands.isEmpty then (none, history)
  else
    match history.position with
    | none =>
        (some (commands.getD (commands.length - 1) []),
          { history with position := some (commands.length - 1) })
    | some pos =>
        if pos > 0 then (some (commands.getD (pos - 1) []), { history with position := some (pos - 1) })
        else (some (commands.getD 0 []), history)

def History.next (history : History) : Option (List Char) × History :=
  let history := history.ensureInitialized
  let commands := history.unwrapCommands
  if commands.isEmpty then (none, history)
  else
    match history.position with
    | none => (none, history)
    | some pos =>
        if pos < commands.length - 1 then
          (some (commands.getD (pos + 1) []), { history with position := some (pos + 1) })
        else (some [], { history with position := none })

def History.resetPosition (history : History) : History :=
  { history with position := none }

def History.len (history : History) : Nat :=
  match history.commands with
  | some cmds => cmds.length
  | none => 0

def History.isEmpty (history : History) : Bool :=
  history.len == 0

inductive HistoryOp
  | add (command : List Char)
  | prev
  | next
  | resetPosition
  deriving DecidableEq, Repr

def History.step (history : History) : HistoryOp → History
  | .add command => history.add command
  | .prev => history.prev.2
  | .next => history.next.2
  | .resetPosition => history.resetPosition

def HistoryOp.added : HistoryOp → Option (List Char)
  | .add command => some command
  | _ => none

/-- The commands that `add` does not reject as blank. -/
def nonBlank (commands : List (List Char)) : List (List Char) :=
  commands.filter fun command => !(trim command).isEmpty

/-! ### Each call -/

def History.PositionValid (history : History) : Prop :=
  ∀ pos, history.position = some pos → pos < history.unwrapCommands.length

section Calls

variable {history : History}

@[simp] theorem History.unwrapCommands_some (commands : List (List Char)) (position : Option Nat) :
    (⟨some commands, position⟩ : History).unwrapCommands = commands := rfl

theorem History.positionValid_of_idle (idle : history.position = none) : history.PositionValid :=
  fun _ atPos => nomatch idle.symm.trans atPos

theorem History.positionValid_of_lt {commands : List (List Char)} {pos : Nat} (inside : pos < commands.length) :
    History.PositionValid ⟨some commands, some pos⟩ := by
  intro other atPos
  cases atPos
  exact inside

theorem History.ensureInitialized_eq (valid : history.PositionValid) :
    history.ensureInitialized = ⟨some history.unwrapCommands, history.position⟩ := by
  obtain ⟨commands, position⟩ := history
  cases commands with
  | none =>
      cases position with
      | none => rfl
      | some pos => exact absurd (valid pos rfl) (Nat.not_lt_zero pos)
  | some commands => rfl

theorem History.len_eq (history : History) : history.len = history.unwrapCommands.length := by
  obtain ⟨commands, position⟩ := history
  cases commands <;> rfl

theorem nonBlank_concat_of_blank {adds : List (List Char)} {command : List Char}
    (blank : (trim command).isEmpty = true) : nonBlank (adds ++ [command]) = nonBlank adds := by
  simp [nonBlank, blank]

theorem nonBlank_concat {adds : List (List Char)} {command : List Char}
    (kept : ¬ (trim command).isEmpty = true) : nonBlank (adds ++ [command]) = nonBlank adds ++ [command] := by
  simp [nonBlank, kept]

theorem History.add_of_skipped {command : List Char} (valid : history.PositionValid)
    (skipped : (trim command).isEmpty = true ∨ history.unwrapCommands.getLast? = some command) :
    history.add command = ⟨some history.unwrapCommands, history.position⟩ := by
  unfold add
  rw [ensureInitialized_eq valid]
  dsimp only
  rw [unwrapCommands_some]
  rcases skipped with blank | last
  · rw [if_pos blank]
  · by_cases blank : (trim command).isEmpty = true
    · rw [if_pos blank]
    · rw [if_neg blank, if_pos last]

theorem History.add_of_kept {command : List Char} (valid : history.PositionValid)
    (kept : ¬ ((trim command).isEmpty = true ∨ history.unwrapCommands.getLast? = some command)) :
    history.add command =
      ⟨some ((if history.unwrapCommands.length ≥ maxHistory then history.unwrapCommands.eraseIdx 0
        else history.unwrapCommands) ++ [command]), none⟩ := by
  obtain ⟨notBlank, notLast⟩ := not_or.mp kept
  unfold add
  rw [ensureInitialized_eq valid]
  dsimp only
  rw [unwrapCommands_some, if_neg notBlank, if_neg notLast]

theorem History.prev_eq (valid : history.PositionValid) (nonempty : history.unwrapCommands ≠ []) :
    history.prev =
      (some (history.unwrapCommands.getD (history.position.getD history.unwrapCommands.length - 1) []),
        ⟨some history.unwrapCommands, some (history.position.getD history.unwrapCommands.length - 1)⟩) := by
  unfold prev
  rw [ensureInitialized_eq valid]
  dsimp only
  rw [unwrapCommands_some, if_neg (by simpa using nonempty)]
  cases history.position with
  | none => rfl
  | some pos =>
      dsimp only
      by_cases after : pos > 0
      · rw [if_pos after]
        rfl
      · rw [if_neg after]
        have atStart : pos = 0 := by omega
        subst atStart
        rfl

theorem History.prev_of_empty (valid : history.PositionValid) (empty : history.unwrapCommands = []) :
    history.prev = (none, history.ensureInitialized) := by
  unfold prev
  rw [ensureInitialized_eq valid]
  dsimp only
  rw [unwrapCommands_some, if_pos (by simp [empty])]

theorem History.next_of_position {pos : Nat} (valid : history.PositionValid)
    (navigating : history.position = some pos) :
    history.next =
      if pos < history.unwrapCommands.length - 1 then
        (some (history.unwrapCommands.getD (pos + 1) []), ⟨some history.unwrapCommands, some (pos + 1)⟩)
      else (some [], ⟨some history.unwrapCommands, none⟩) := by
  have inside := valid pos navigating
  unfold next
  rw [ensureInitialized_eq valid]
  dsimp only
  rw [unwrapCommands_some, if_neg (by simp only [List.isEmpty_iff]; intro empty; simp [empty] at inside),
    navigating]

theorem History.next_of_idle (valid : history.PositionValid) (idle : history.position = none) :
    history.next = (none, ⟨some history.unwrapCommands, none⟩) := by
  unfold next
  rw [ensureInitialized_eq valid, idle]
  dsimp only
  rw [unwrapCommands_some]
  split <;> rfl

end Calls

/-! ### Runs -/

/-- The stored commands are the recent non-blank commands given to `add`, and
the position indexes them. -/
structure History.Tracks (history : History) (adds : List (List Char)) : Prop where
  commands : history.unwrapCommands = recent maxHistory (nonBlank adds)
  position : history.PositionValid

section Runs

variable {history : History} {adds : List (List Char)}

theorem History.tracks_new : History.new.Tracks [] :=
  ⟨by simp [nonBlank, recent_nil, History.new, History.unwrapCommands],
    History.positionValid_of_idle rfl⟩

theorem History.Tracks.add (tracks : history.Tracks adds) (command : List Char) :
    (history.add command).Tracks (adds ++ [command]) := by
  have valid := tracks.position
  by_cases blank : (trim command).isEmpty = true
  · rw [History.add_of_skipped valid (Or.inl blank)]
    exact ⟨by rw [History.unwrapCommands_some, nonBlank_concat_of_blank blank, tracks.commands], valid⟩
  have appended : nonBlank (adds ++ [command]) = nonBlank adds ++ [command] := nonBlank_concat blank
  by_cases last : history.unwrapCommands.getLast? = some command
  · -- a repeat of the newest command: nothing changes, the position included
    rw [History.add_of_skipped valid (Or.inr last)]
    rw [tracks.commands] at last
    refine ⟨?_, valid⟩
    rw [History.unwrapCommands_some, appended, recent_concat_of_repeat (by decide) last,
      tracks.commands]
  · rw [History.add_of_kept valid (not_or.mpr ⟨blank, last⟩)]
    rw [tracks.commands] at last
    refine ⟨?_, History.positionValid_of_idle rfl⟩
    rw [History.unwrapCommands_some, appended, recent_concat (by decide) last, tracks.commands]

theorem History.Tracks.prev (tracks : history.Tracks adds) : history.prev.2.Tracks adds := by
  have valid := tracks.position
  by_cases empty : history.unwrapCommands = []
  · rw [History.prev_of_empty valid empty, History.ensureInitialized_eq valid]
    exact ⟨tracks.commands, valid⟩
  · rw [History.prev_eq valid empty]
    refine ⟨tracks.commands, History.positionValid_of_lt ?_⟩
    have positive : 0 < history.unwrapCommands.length := List.length_pos_iff.mpr empty
    cases navigating : history.position with
    | none => simpa using Nat.sub_lt positive Nat.one_pos
    | some pos =>
        have := valid pos navigating
        simp only [Option.getD_some]
        omega

theorem History.Tracks.next (tracks : history.Tracks adds) : history.next.2.Tracks adds := by
  have valid := tracks.position
  cases navigating : history.position with
  | none =>
      rw [History.next_of_idle valid navigating]
      exact ⟨tracks.commands, History.positionValid_of_idle rfl⟩
  | some pos =>
      rw [History.next_of_position valid navigating]
      by_cases newer : pos < history.unwrapCommands.length - 1
      · rw [if_pos newer]
        exact ⟨tracks.commands, History.positionValid_of_lt (by omega)⟩
      · rw [if_neg newer]
        exact ⟨tracks.commands, History.positionValid_of_idle rfl⟩

theorem History.Tracks.step (tracks : history.Tracks adds) (op : HistoryOp) :
    (history.step op).Tracks (adds ++ [op].filterMap HistoryOp.added) := by
  cases op with
  | add command => exact tracks.add command
  | prev =>
      show history.prev.2.Tracks (adds ++ [])
      rw [List.append_nil]
      exact tracks.prev
  | next =>
      show history.next.2.Tracks (adds ++ [])
      rw [List.append_nil]
      exact tracks.next
  | resetPosition =>
      show history.resetPosition.Tracks (adds ++ [])
      rw [List.append_nil]
      exact ⟨tracks.commands, History.positionValid_of_idle rfl⟩

theorem History.tracks_run (ops : List HistoryOp) :
    (run History.step History.new ops).Tracks (ops.filterMap HistoryOp.added) := by
  induction ops using List.reverseRecOn with
  | nil => exact History.tracks_new
  | append_singleton ops op ih =>
      rw [run_concat, List.filterMap_append]
      exact ih.step op

theorem History.Tracks.stored (tracks : history.Tracks adds) :
    history.len ≤ maxHistory ∧ (∀ command ∈ history.unwrapCommands, trim command ≠ []) ∧
      history.unwrapCommands.IsChain (· ≠ ·) := by
  have length := history.len_eq
  refine ⟨?_, fun command member => ?_, ?_⟩
  · rw [length, tracks.commands]
    exact length_recent_le
  · rw [tracks.commands] at member
    have kept := (List.mem_filter.mp (mem_of_mem_recent member)).2
    simpa using kept
  · rw [tracks.commands]
    exact isChain_recent

end Runs

/-! ### Navigation -/

section Navigation

variable {history : History} {adds : List (List Char)}

theorem History.prev_iterate (valid : history.PositionValid) (idle : history.position = none)
    (nonempty : history.unwrapCommands ≠ []) (k : Nat) :
    ((fun history : History => history.prev.2)^[k] history).prev =
      (some (history.unwrapCommands.getD (history.unwrapCommands.length - (k + 1)) []),
        ⟨some history.unwrapCommands, some (history.unwrapCommands.length - (k + 1))⟩) := by
  have positive : 0 < history.unwrapCommands.length := List.length_pos_iff.mpr nonempty
  induction k with
  | zero =>
      rw [Function.iterate_zero_apply, History.prev_eq valid nonempty, idle]
      rfl
  | succ k ih =>
      rw [Function.iterate_succ_apply', ih]
      -- after `k + 1` calls the position is `length - (k + 1)`, inside the history
      have stepped : History.PositionValid
          ⟨some history.unwrapCommands, some (history.unwrapCommands.length - (k + 1))⟩ :=
        History.positionValid_of_lt (by omega)
      rw [History.prev_eq stepped nonempty]
      simp only [History.unwrapCommands_some, Option.getD_some, Nat.sub_sub]

theorem History.next_after_prev (valid : history.PositionValid) (idle : history.position = none)
    (nonempty : history.unwrapCommands ≠ []) (k : Nat) :
    ((fun history : History => history.prev.2)^[k + 1] history).next.1 =
      some (if history.unwrapCommands.length - (k + 1) < history.unwrapCommands.length - 1 then
        history.unwrapCommands.getD (history.unwrapCommands.length - (k + 1) + 1) [] else []) := by
  have positive : 0 < history.unwrapCommands.length := List.length_pos_iff.mpr nonempty
  rw [Function.iterate_succ_apply', History.prev_iterate valid idle nonempty k]
  have stepped : History.PositionValid
      ⟨some history.unwrapCommands, some (history.unwrapCommands.length - (k + 1))⟩ :=
    History.positionValid_of_lt (by omega)
  rw [History.next_of_position stepped rfl, History.unwrapCommands_some]
  by_cases newer : history.unwrapCommands.length - (k + 1) < history.unwrapCommands.length - 1
  · rw [if_pos newer, if_pos newer]
  · rw [if_neg newer, if_neg newer]

theorem History.Tracks.navigate_after_add (tracks : history.Tracks adds) {command : List Char}
    (kept : ¬ ((trim command).isEmpty = true ∨ history.unwrapCommands.getLast? = some command))
    (k : Nat) :
    let added : History := history.add command
    let commands := added.unwrapCommands
    commands.getLast? = some command ∧
      ((fun history : History => history.prev.2)^[k] added).prev.1 =
        some (commands.getD (commands.length - (k + 1)) []) ∧
      ((fun history : History => history.prev.2)^[k + 1] added).next.1 =
        some (if commands.length - (k + 1) < commands.length - 1 then
          commands.getD (commands.length - (k + 1) + 1) [] else []) := by
  intro added commands
  have valid := (tracks.add command).position
  have idle : added.position = none := by
    rw [show added = history.add command from rfl, History.add_of_kept tracks.position kept]
  have newest : commands.getLast? = some command := by
    show (history.add command).unwrapCommands.getLast? = some command
    rw [History.add_of_kept tracks.position kept, History.unwrapCommands_some, List.getLast?_concat]
  have nonempty : commands ≠ [] := fun empty => by simp [empty] at newest
  refine ⟨newest, ?_, History.next_after_prev valid idle nonempty k⟩
  rw [History.prev_iterate valid idle nonempty k]

end Navigation

/-- Along every run from `History::new()` the stored commands are the last
`MAX_HISTORY` non-blank commands given to `add`, with repeats of the newest one
dropped: at most `MAX_HISTORY` of them, none blank, no two neighbours equal,
and the position indexes them.  After an `add` that keeps its command, call
`k + 1` of `prev` returns the `k + 1`-th most recent command (the oldest once
`k` reaches the length), and a `next` after it the next newer command, or the
empty string once past the newest. -/
theorem shell_history_keeps_recent_commands (ops : List HistoryOp) :
    let history := run History.step History.new ops
    history.unwrapCommands = recent maxHistory (nonBlank (ops.filterMap HistoryOp.added)) ∧
      history.PositionValid ∧ history.len ≤ maxHistory ∧
      (∀ command ∈ history.unwrapCommands, trim command ≠ []) ∧
      history.unwrapCommands.IsChain (· ≠ ·) ∧
      ∀ command, ¬ ((trim command).isEmpty = true ∨ history.unwrapCommands.getLast? = some command) →
        ∀ k, let added : History := history.add command
        let commands := added.unwrapCommands
        commands.getLast? = some command ∧
          ((fun history : History => history.prev.2)^[k] added).prev.1 =
            some (commands.getD (commands.length - (k + 1)) []) ∧
          ((fun history : History => history.prev.2)^[k + 1] added).next.1 =
            some (if commands.length - (k + 1) < commands.length - 1 then
              commands.getD (commands.length - (k + 1) + 1) [] else []) := by
  intro history
  have tracks := History.tracks_run ops
  obtain ⟨bounded, nonBlankStored, noRepeats⟩ := tracks.stored
  exact ⟨tracks.commands, tracks.position, bounded, nonBlankStored, noRepeats,
    fun command kept k => tracks.navigate_after_add kept k⟩

/-- After navigating back to the oldest command, an `add` of the newest command
again is ignored and leaves the position at the oldest, so the next `prev`
returns the oldest command and not the newest. -/
theorem history_prev_after_skipped_add :
    let history : History := run History.step History.new
      [.add ['h', 'e', 'l', 'p'], .add ['c', 'l', 'e', 'a', 'r'], .prev, .prev,
        .add ['c', 'l', 'e', 'a', 'r']]
    history.unwrapCommands = [['h', 'e', 'l', 'p'], ['c', 'l', 'e', 'a', 'r']] ∧
      history.position = some 0 ∧ history.prev.1 = some ['h', 'e', 'l', 'p'] := by
  decide

end FangaOS.Shell
