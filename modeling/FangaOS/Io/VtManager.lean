import FangaOS.Io.Vt
import FangaOS.Lib.Run

/-! The virtual terminal manager of `io/vt.rs`, against `TerminalBank`: twelve
independent terminals of which one is current.  Rendering changes neither the
terminals nor the framebuffer, whose fields are left out. -/

namespace FangaOS.Vt

open StepMachine

def maxTerminals : Nat := 12

def fontWidth : UInt64 := 8
def fontHeight : UInt64 := 16

def VirtualTerminal.setColors (vt : VirtualTerminal) (fg bg : UInt32) : VirtualTerminal :=
  { vt with fgColor := fg, bgColor := bg }

/-- A `VirtualTerminal` with the two fields that writing neither reads nor
changes: its id and whether it is active. -/
structure Terminal where
  id : UInt64
  active : Bool
  vt : VirtualTerminal
  deriving DecidableEq, Repr

inductive TerminalCall
  | writeStr (s : List Char)
  | clear
  | setPosition (col row : UInt64)
  | setColors (fg bg : UInt32)
  deriving DecidableEq, Repr

def TerminalCall.apply (vt : VirtualTerminal) : TerminalCall → VirtualTerminal
  | .writeStr s => vt.writeStr s
  | .clear => vt.clear
  | .setPosition col row => vt.setPosition col row
  | .setColors fg bg => vt.setColors fg bg

structure VtManager where
  terminals : List Terminal
  current : UInt64
  maxCols : UInt64
  maxRows : UInt64
  deriving DecidableEq, Repr

namespace VtManager

def new : VtManager :=
  ⟨[], 0, 0, 0⟩

def init (manager : VtManager) (width height : UInt64) : VtManager :=
  let maxCols := width / fontWidth
  let maxRows := height / fontHeight
  { manager with
    maxCols
    maxRows
    terminals := manager.terminals ++ (List.range maxTerminals).map fun id =>
      ⟨id.toUInt64, id == 0, VirtualTerminal.new maxCols maxRows⟩ }

/-- `set_active` on the terminal at `index`, if there is one. -/
def setActive (manager : VtManager) (index : UInt64) (active : Bool) : VtManager :=
  { manager with terminals := manager.terminals.modify index.toNat fun terminal => { terminal with active } }

/-- A call on the terminal at `index` through `terminal(index)` or
`current_terminal()`, if there is one. -/
def onTerminal (manager : VtManager) (index : UInt64) (call : TerminalCall) : VtManager :=
  { manager with
    terminals := manager.terminals.modify index.toNat fun terminal => { terminal with vt := call.apply terminal.vt } }

def switchTo (manager : VtManager) (id : UInt64) : Bool × VtManager :=
  if id.toNat ≥ maxTerminals then (false, manager)
  else if id = manager.current then (true, manager)
  else
    let manager := manager.setActive manager.current false
    let manager := { manager with current := id }
    (true, manager.setActive id true)

end VtManager

/-- The calls on a manager after `init`. -/
inductive VtOp
  | switchTo (id : UInt64)
  | onCurrent (call : TerminalCall)
  | onTerminal (id : UInt64) (call : TerminalCall)
  deriving DecidableEq, Repr

def VtManager.step (manager : VtManager) : VtOp → VtManager
  | .switchTo id => (manager.switchTo id).2
  | .onCurrent call => manager.onTerminal manager.current call
  | .onTerminal id call => manager.onTerminal id call

def VtManager.run (manager : VtManager) (ops : List VtOp) : VtManager :=
  StepMachine.run VtManager.step manager ops

/-! ### The terminal bank -/

/-- Twelve terminals, one current, each with the calls it has received. -/
structure TerminalBank where
  current : Nat
  calls : Nat → List TerminalCall

namespace TerminalBank

def initial : TerminalBank :=
  ⟨0, fun _ => []⟩

def send (bank : TerminalBank) (index : Nat) (call : TerminalCall) : TerminalBank :=
  { bank with calls := Function.update bank.calls index (bank.calls index ++ [call]) }

def step (bank : TerminalBank) : VtOp → TerminalBank
  | .switchTo id => if id.toNat < maxTerminals then { bank with current := id.toNat } else bank
  | .onCurrent call => bank.send bank.current call
  | .onTerminal id call => bank.send id.toNat call

def run (bank : TerminalBank) (ops : List VtOp) : TerminalBank :=
  StepMachine.run TerminalBank.step bank ops

/-- The terminal at `index` as the manager should hold it: fresh at the given
size, active exactly when current, and having run its own calls. -/
def terminal (bank : TerminalBank) (cols rows : UInt64) (index : Nat) : Terminal :=
  ⟨index.toUInt64, decide (index = bank.current),
    (bank.calls index).foldl TerminalCall.apply (VirtualTerminal.new cols rows)⟩

theorem terminal_send (bank : TerminalBank) (cols rows : UInt64) (index other : Nat)
    (call : TerminalCall) :
    (bank.send index call).terminal cols rows other =
      if index = other then
        { bank.terminal cols rows other with vt := call.apply (bank.terminal cols rows other).vt }
      else bank.terminal cols rows other := by
  unfold terminal send
  by_cases same : index = other
  · subst same
    simp
  · simp [Ne.symm same, same]

end TerminalBank

/-- The manager holds the twelve terminals of the bank, in order, and its
current terminal is the bank's. -/
structure Represents (cols rows : UInt64) (manager : VtManager) (bank : TerminalBank) : Prop where
  length_eq : manager.terminals.length = maxTerminals
  current_eq : manager.current.toNat = bank.current
  current_lt : bank.current < maxTerminals
  terminal_eq : ∀ index < maxTerminals, manager.terminals[index]? = some (bank.terminal cols rows index)

namespace Represents

variable {cols rows : UInt64} {manager : VtManager} {bank : TerminalBank}

theorem init (width height : UInt64) :
    Represents (width / fontWidth) (height / fontHeight) (VtManager.new.init width height)
      TerminalBank.initial where
  length_eq := by simp [VtManager.new, VtManager.init]
  current_eq := rfl
  current_lt := by decide
  terminal_eq := by
    intro index below
    simp [VtManager.new, VtManager.init, TerminalBank.terminal, TerminalBank.initial, below]
    exact Bool.beq_eq_decide_eq index 0

theorem onTerminal (related : Represents cols rows manager bank) (index : UInt64)
    (call : TerminalCall) :
    Represents cols rows (manager.onTerminal index call) (bank.send index.toNat call) where
  length_eq := by simp [VtManager.onTerminal, related.length_eq]
  current_eq := related.current_eq
  current_lt := related.current_lt
  terminal_eq := by
    intro other below
    simp only [VtManager.onTerminal, List.getElem?_modify, related.terminal_eq other below,
      TerminalBank.terminal_send]
    split <;> rfl

theorem switchTo (related : Represents cols rows manager bank) {id : UInt64}
    (inside : id.toNat < maxTerminals) (other : id ≠ manager.current) :
    Represents cols rows (manager.switchTo id).2 { bank with current := id.toNat } := by
  have apart : manager.current.toNat ≠ id.toNat := fun same => other (UInt64.toNat_inj.mp same).symm
  have notAbove : ¬ maxTerminals ≤ id.toNat := Nat.not_le.mpr inside
  simp only [VtManager.switchTo, ge_iff_le, if_neg notAbove, if_neg other]
  refine ⟨by simp [VtManager.setActive, related.length_eq], rfl, inside, fun index below => ?_⟩
  simp only [VtManager.setActive, List.getElem?_modify, related.terminal_eq index below,
    Option.map_eq_map, Option.map_some]
  unfold TerminalBank.terminal
  by_cases isNew : id.toNat = index
  · subst isNew
    simp [apart]
  · by_cases wasCurrent : manager.current.toNat = index
    · subst wasCurrent
      have stillApart : id.toNat ≠ bank.current := fun same => apart (related.current_eq.trans same.symm)
      simp [related.current_eq, stillApart, Ne.symm stillApart]
    · have notCurrent : index ≠ bank.current := fun same => wasCurrent (related.current_eq.trans same.symm)
      simp [isNew, Ne.symm isNew, wasCurrent, notCurrent]

end Represents

theorem represents_simulation (cols rows : UInt64) :
    Simulation VtManager.step TerminalBank.step (Represents cols rows) := by
  intro manager bank op related
  cases op with
  | switchTo id =>
      by_cases inside : id.toNat < maxTerminals
      · by_cases same : id = manager.current
        · subst same
          have unchanged : (manager.switchTo manager.current).2 = manager := by
            simp [VtManager.switchTo, Nat.not_le.mpr inside]
          have sameBank : { bank with current := manager.current.toNat } = bank := by
            rw [related.current_eq]
          simp only [VtManager.step, TerminalBank.step, if_pos inside]
          rw [unchanged, sameBank]
          exact related
        · simp only [VtManager.step, TerminalBank.step, if_pos inside]
          exact related.switchTo inside same
      · have unchanged : (manager.switchTo id).2 = manager := by
          simp [VtManager.switchTo, Nat.le_of_not_lt inside]
        simp only [VtManager.step, TerminalBank.step, if_neg inside, unchanged]
        exact related
  | onCurrent call =>
      simp only [VtManager.step, TerminalBank.step, ← related.current_eq]
      exact related.onTerminal manager.current call
  | onTerminal id call => exact related.onTerminal id call

/-- After `init` on a fresh manager, every run of switches and terminal calls
keeps twelve terminals, numbered in order; the current terminal is the one the
last switch to an existing terminal chose, it is the only active one, and each
terminal is a fresh terminal of the framebuffer's size in font cells that ran
exactly the calls addressed to it, directly or while it was current. -/
theorem vt_manager_refines_terminal_bank (width height : UInt64) (ops : List VtOp) :
    let manager : VtManager := (VtManager.new.init width height).run ops
    let bank : TerminalBank := TerminalBank.initial.run ops
    manager.terminals.length = maxTerminals ∧ manager.current.toNat = bank.current ∧
    ∀ index < maxTerminals, ∃ terminal, manager.terminals[index]? = some terminal ∧
      terminal.id.toNat = index ∧ (terminal.active = true ↔ index = manager.current.toNat) ∧
      terminal.vt = (bank.calls index).foldl TerminalCall.apply
        (VirtualTerminal.new (width / fontWidth) (height / fontHeight)) := by
  intro manager bank
  have related : Represents (width / fontWidth) (height / fontHeight) manager bank :=
    (represents_simulation _ _).run (Represents.init width height) ops
  refine ⟨related.length_eq, related.current_eq, fun index below => ?_⟩
  refine ⟨_, related.terminal_eq index below, ?_, ?_, rfl⟩
  · have small : index < 18446744073709551616 := lt_trans below (by decide)
    simp [TerminalBank.terminal, small]
  · simp [TerminalBank.terminal, related.current_eq]

end FangaOS.Vt
