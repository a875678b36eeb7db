import Mathlib.Data.List.DropRight
import FangaOS.Lib.RecentLog
import FangaOS.Lib.Run

/-! The core dump manager of `task/coredump.rs`, over any type of dumps, against
`DumpLog`: the dumps added while enabled since the last `clear`. -/

namespace FangaOS.Coredump

open StepMachine RecentLog

structure CoreDumpManager (α : Type) where
  dumps : List α
  maxDumps : Nat
  enabled : Bool
  deriving DecidableEq, Repr

namespace CoreDumpManager

variable {α : Type}

def new (maxDumps : Nat) : CoreDumpManager α :=
  ⟨[], maxDumps, true⟩

def enable (manager : CoreDumpManager α) : CoreDumpManager α :=
  { manager with enabled := true }

def disable (manager : CoreDumpManager α) : CoreDumpManager α :=
  { manager with enabled := false }

def isEnabled (manager : CoreDumpManager α) : Bool :=
  manager.enabled

/-- `add_dump`, or `none` when `remove(0)` panics on an empty vector. -/
def addDump (manager : CoreDumpManager α) (dump : α) : Option (CoreDumpManager α) :=
  if !manager.enabled then some manager
  else if manager.dumps.length ≥ manager.maxDumps then
    match manager.dumps with
    | [] => none
    | _ :: rest => some { manager with dumps := rest ++ [dump] }
  else some { manager with dumps := manager.dumps ++ [dump] }

def getDump (manager : CoreDumpManager α) (index : Nat) : Option α :=
  manager.dumps[index]?

def getLatest (manager : CoreDumpManager α) : Option α :=
  manager.dumps.getLast?

def clear (manager : CoreDumpManager α) : CoreDumpManager α :=
  { manager with dumps := [] }

def count (manager : CoreDumpManager α) : Nat :=
  manager.dumps.length

end CoreDumpManager

inductive CoreDumpOp (α : Type)
  | addDump (dump : α)
  | enable
  | disable
  | clear
  deriving DecidableEq, Repr

def CoreDumpManager.step {α : Type} (manager : CoreDumpManager α) : CoreDumpOp α → Option (CoreDumpManager α)
  | .addDump dump => manager.addDump dump
  | .enable => some manager.enable
  | .disable => some manager.disable
  | .clear => some manager.clear

/-- A run of the manager, which a panic stops. -/
def CoreDumpManager.run {α : Type} (manager : CoreDumpManager α) (ops : List (CoreDumpOp α)) :
    Option (CoreDumpManager α) :=
  StepMachine.run (haltingStep CoreDumpManager.step) (some manager) ops

/-! ### The log of accepted dumps -/

/-- The dumps accepted since the last `clear`, and whether dumps are enabled. -/
structure DumpLog (α : Type) where
  accepted : List α
  enabled : Bool

namespace DumpLog

variable {α : Type}

def initial : DumpLog α :=
  ⟨[], true⟩

def step (log : DumpLog α) : CoreDumpOp α → DumpLog α
  | .addDump dump => if log.enabled then { log with accepted := log.accepted ++ [dump] } else log
  | .enable => { log with enabled := true }
  | .disable => { log with enabled := false }
  | .clear => { log with accepted := [] }

def run (log : DumpLog α) (ops : List (CoreDumpOp α)) : DumpLog α :=
  StepMachine.run DumpLog.step log ops

/-- The manager that holds the last `maxDumps` dumps of the log. -/
def kept (log : DumpLog α) (maxDumps : Nat) : CoreDumpManager α :=
  ⟨log.accepted.rtake maxDumps, maxDumps, log.enabled⟩

theorem initial_kept (maxDumps : Nat) : (initial : DumpLog α).kept maxDumps = CoreDumpManager.new maxDumps := by
  simp [kept, initial, CoreDumpManager.new, List.rtake]

theorem step_kept {maxDumps : Nat} (positive : 0 < maxDumps) (log : DumpLog α) (op : CoreDumpOp α) :
    (log.kept maxDumps).step op = some ((log.step op).kept maxDumps) := by
  cases op with
  | addDump dump =>
      simp only [CoreDumpManager.step, CoreDumpManager.addDump, kept, step]
      by_cases enabled : log.enabled = true
      · have moved := rtake_concat positive log.accepted dump
        by_cases full : (log.accepted.rtake maxDumps).length ≥ maxDumps
        · rw [if_pos full] at moved
          -- a full window is not empty, so `remove(0)` finds a dump
          obtain ⟨oldest, rest, window⟩ : ∃ oldest rest, log.accepted.rtake maxDumps = oldest :: rest :=
            List.exists_cons_of_ne_nil (List.ne_nil_of_length_pos (by omega))
          rw [window] at moved full
          have fullRest : maxDumps ≤ rest.length + 1 := by simpa using full
          simp [enabled, window, fullRest, moved]
        · rw [if_neg full] at moved
          simp [enabled, full, moved]
      · simp [enabled]
  | enable => rfl
  | disable => rfl
  | clear => simp [CoreDumpManager.step, CoreDumpManager.clear, kept, step, List.rtake]

theorem run_kept {maxDumps : Nat} (positive : 0 < maxDumps) (ops : List (CoreDumpOp α)) :
    (CoreDumpManager.new maxDumps).run ops = some ((initial.run ops).kept maxDumps) := by
  unfold CoreDumpManager.run run
  rw [← initial_kept maxDumps]
  exact run_haltingStep_map (fun log => log.kept maxDumps) (step_kept positive) initial ops

end DumpLog

variable {α : Type}

/-- For a positive `max_dumps`, every run of a manager from `new` goes through
without a panic and holds the last `max_dumps` dumps accepted since the last
`clear`, in the order they came: at most `max_dumps` of them, the latest
accepted dump last, and dumps enabled exactly as the last `enable` or
`disable` left them. -/
theorem core_dump_manager_keeps_latest {maxDumps : Nat} (positive : 0 < maxDumps)
    (ops : List (CoreDumpOp α)) :
    let log := DumpLog.initial.run ops
    ∃ manager, (CoreDumpManager.new maxDumps).run ops = some manager ∧
      manager.dumps = log.accepted.rtake maxDumps ∧ manager.count ≤ maxDumps ∧
      manager.getLatest = log.accepted.getLast? ∧ manager.isEnabled = log.enabled := by
  intro log
  refine ⟨log.kept maxDumps, DumpLog.run_kept positive ops, rfl, ?_, ?_, rfl⟩
  · show (log.accepted.rtake maxDumps).length ≤ maxDumps
    rw [length_rtake]
    exact Nat.min_le_left _ _
  · exact getLast?_rtake positive log.accepted

/-- A manager of capacity two, given three dumps, keeps the last two. -/
theorem core_dump_manager_keeps_last_two :
    0 < 2 ∧
    let log := DumpLog.initial.run [CoreDumpOp.addDump 1, .addDump 2, .disable, .addDump 4, .enable, .addDump 3]
    ∃ manager, (CoreDumpManager.new 2).run
        [CoreDumpOp.addDump 1, .addDump 2, .disable, .addDump 4, .enable, .addDump 3] = some manager ∧
      manager.dumps = log.accepted.rtake 2 ∧ manager.count ≤ 2 ∧
      manager.getLatest = log.accepted.getLast? ∧ manager.isEnabled = log.enabled :=
  ⟨by decide, core_dump_manager_keeps_latest (by decide) _⟩

/-- The first dump given to a manager of capacity zero panics. -/
example : (CoreDumpManager.new 0 : CoreDumpManager Nat).addDump 7 = none := rfl

end FangaOS.Coredump
