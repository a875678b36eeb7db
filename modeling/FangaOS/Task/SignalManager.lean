import Mathlib
import FangaOS.Lib.Run
import FangaOS.Lib.SlotTable
import FangaOS.Task.Pgroup
import FangaOS.Task.Sigadv

/-! The system-wide signal manager of `task/sigadv.rs`, against per-process
handlers that each run exactly the calls addressed to their process. -/

namespace FangaOS.Sigadv

open StepMachine FangaOS.Tcb FangaOS.Ipc

inductive SignalTarget
  | process (pid : TaskId)
  | processGroup (pgid : Pgroup.ProcessGroupId)
  | all
  deriving DecidableEq, Repr

structure SignalManager where
  handlers : List (Option AdvancedSignalHandler)
  deriving DecidableEq, Repr

namespace SignalManager

def new (maxProcesses : Nat) : SignalManager :=
  ⟨List.replicate maxProcesses none⟩

/-- `get_or_create_handler`: the handler of `pid` and the manager that now
holds it, created by `AdvancedSignalHandler::new` when absent. -/
def getOrCreateHandler (manager : SignalManager) (pid : TaskId) :
    AdvancedSignalHandler × SignalManager :=
  let handlers := SlotTable.grow manager.handlers pid.val
  let handler := (SlotTable.slot handlers pid.val).getD AdvancedSignalHandler.new
  (handler, ⟨handlers.set pid.val (some handler)⟩)

def getHandler (manager : SignalManager) (pid : TaskId) : Option AdvancedSignalHandler :=
  SlotTable.slot manager.handlers pid.val

/-- A change made through `get_handler_mut`, which reaches only an existing
handler. -/
def updateHandler (manager : SignalManager) (pid : TaskId)
    (change : AdvancedSignalHandler → AdvancedSignalHandler) : SignalManager :=
  ⟨manager.handlers.modify pid.val (Option.map change)⟩

def sendSignal (manager : SignalManager) (target : SignalTarget) (signal : Signal)
    (sender : TaskId) : SignalManager :=
  match target with
  | .process pid => manager.updateHandler pid (·.send signal)
  | .processGroup _ => manager
  | .all =>
      ⟨manager.handlers.mapIdx fun idx handler =>
        if idx ≠ sender.val then handler.map (·.send signal) else handler⟩

end SignalManager

inductive ManagerOp
  | onHandler (pid : TaskId) (op : SignalOp)
  | onExisting (pid : TaskId) (op : SignalOp)
  | sendSignal (target : SignalTarget) (signal : Signal) (sender : TaskId)
  deriving DecidableEq, Repr

def SignalManager.step (manager : SignalManager) : ManagerOp → SignalManager
  | .onHandler pid op => (manager.getOrCreateHandler pid).2.updateHandler pid (·.step op)
  | .onExisting pid op => manager.updateHandler pid (·.step op)
  | .sendSignal target signal sender => manager.sendSignal target signal sender

def SignalManager.run (manager : SignalManager) (ops : List ManagerOp) : SignalManager :=
  StepMachine.run SignalManager.step manager ops

namespace ManagerOp

def creates (pid : TaskId) : ManagerOp → Bool
  | .onHandler target _ => target = pid
  | _ => false

/-- The handler call that a manager call makes on the handler of `pid`. -/
def reaches (pid : TaskId) : ManagerOp → Option SignalOp
  | .onHandler target op => if target = pid then some op else none
  | .onExisting target op => if target = pid then some op else none
  | .sendSignal (.process target) signal _ => if target = pid then some (.send signal) else none
  | .sendSignal (.processGroup _) _ _ => none
  | .sendSignal .all signal sender => if sender ≠ pid then some (.send signal) else none

/-- The effect of a manager call on the entry of `pid`, for entries of any kind
with a fresh entry and a way to make a handler call on one. -/
def apply {β : Type} (pid : TaskId) (op : ManagerOp) (fresh : β) (call : β → SignalOp → β)
    (entry : Option β) : Option β :=
  let entry := if op.creates pid then some (entry.getD fresh) else entry
  match op.reaches pid with
  | some signalOp => entry.map (call · signalOp)
  | none => entry

/-- The handler calls that `pid`'s handler has received since it was created,
or `none` if no call has created it. -/
def history (pid : TaskId) (ops : List ManagerOp) : Option (List SignalOp) :=
  ops.foldl (fun entry op => op.apply pid [] (fun calls call => calls ++ [call]) entry) none

theorem apply_map {β γ : Type} (pid : TaskId) (op : ManagerOp) {fresh : β} {call : β → SignalOp → β}
    {fresh' : γ} {call' : γ → SignalOp → γ} (f : β → γ) (onFresh : f fresh = fresh')
    (onCall : ∀ entry signalOp, f (call entry signalOp) = call' (f entry) signalOp)
    (entry : Option β) :
    (op.apply pid fresh call entry).map f = op.apply pid fresh' call' (entry.map f) := by
  have created : (if op.creates pid then some (entry.getD fresh) else entry).map f =
      if op.creates pid then some ((entry.map f).getD fresh') else entry.map f := by
    cases entry <;> split <;> simp [onFresh]
  unfold apply
  dsimp only
  rw [← created]
  cases op.reaches pid with
  | none => rfl
  | some signalOp => simp [Option.map_map, Function.comp_def, onCall]

end ManagerOp

namespace SignalManager

variable (manager : SignalManager)

theorem getHandler_new (maxProcesses : Nat) (pid : TaskId) : (new maxProcesses).getHandler pid = none :=
  SlotTable.slot_replicate_none maxProcesses pid.val

theorem getHandler_getOrCreateHandler (pid other : TaskId) :
    (manager.getOrCreateHandler pid).2.getHandler other =
      if pid = other then some ((manager.getHandler pid).getD AdvancedSignalHandler.new)
      else manager.getHandler other := by
  unfold getOrCreateHandler getHandler
  dsimp only
  by_cases same : pid = other
  · subst same
    rw [if_pos rfl, SlotTable.slot_set_self _ (SlotTable.index_lt_length_grow _ _),
      SlotTable.slot_grow]
  · have different : pid.val ≠ other.val := fun equal => same (congrArg TaskId.mk equal)
    rw [if_neg same, SlotTable.slot_set_of_ne _ different, SlotTable.slot_grow]

theorem getHandler_updateHandler (pid other : TaskId)
    (change : AdvancedSignalHandler → AdvancedSignalHandler) :
    (manager.updateHandler pid change).getHandler other =
      if pid = other then (manager.getHandler other).map change else manager.getHandler other := by
  unfold updateHandler getHandler
  rw [SlotTable.slot_modify]
  by_cases same : pid = other
  · rw [if_pos (congrArg TaskId.val same), if_pos same]
  · have different : pid.val ≠ other.val := fun equal => same (congrArg TaskId.mk equal)
    rw [if_neg different, if_neg same]

theorem getHandler_step (op : ManagerOp) (pid : TaskId) :
    (manager.step op).getHandler pid =
      op.apply pid AdvancedSignalHandler.new AdvancedSignalHandler.step (manager.getHandler pid) := by
  cases op with
  | onHandler target signalOp =>
      simp only [step, getHandler_updateHandler, getHandler_getOrCreateHandler, ManagerOp.apply,
        ManagerOp.creates, ManagerOp.reaches, decide_eq_true_eq]
      by_cases same : target = pid <;> simp [same]
  | onExisting target signalOp =>
      simp only [step, getHandler_updateHandler, ManagerOp.apply, ManagerOp.creates,
        ManagerOp.reaches]
      by_cases same : target = pid <;> simp [same]
  | sendSignal target signal sender =>
      cases target with
      | process target =>
          simp only [step, sendSignal, getHandler_updateHandler, ManagerOp.apply,
            ManagerOp.creates, ManagerOp.reaches]
          by_cases same : target = pid <;> simp [same, AdvancedSignalHandler.step]
      | processGroup pgid => rfl
      | all =>
          simp only [step, sendSignal, getHandler, ManagerOp.apply, ManagerOp.creates,
            ManagerOp.reaches]
          rw [SlotTable.slot_mapIdx _ _ (fun _ => by split <;> rfl)]
          by_cases same : sender = pid
          · subst same
            simp
          · have different : pid.val ≠ sender.val := fun equal => same (congrArg TaskId.mk equal).symm
            simp [same, different, AdvancedSignalHandler.step]

end SignalManager

namespace SignalManager

theorem getHandler_run (maxProcesses : Nat) (ops : List ManagerOp) (pid : TaskId) :
    ((SignalManager.new maxProcesses).run ops).getHandler pid =
      (ManagerOp.history pid ops).map
        (StepMachine.run AdvancedSignalHandler.step AdvancedSignalHandler.new) := by
  unfold ManagerOp.history
  refine run_of_history
    (P := fun done (manager : SignalManager) => manager.getHandler pid =
      (done.foldl (fun entry op => op.apply pid [] (fun calls call => calls ++ [call]) entry)
        none).map (StepMachine.run AdvancedSignalHandler.step AdvancedSignalHandler.new))
    (getHandler_new maxProcesses pid) (fun done manager op realised => ?_) ops
  rw [List.foldl_concat, getHandler_step, realised,
    ManagerOp.apply_map pid op _ (run_nil _ _) (fun calls call => run_concat _ _ calls call)]

end SignalManager

/-- A signal manager started by `new` keeps, for every process, exactly the
handler that `AdvancedSignalHandler::new` reaches by running the calls made on
that process and the signals addressed to it since the call that created its
handler, and no handler for a process that no call has created; every handler
it keeps is therefore well formed, and `next_unblocked` on it delivers the
lowest pending unblocked signal. -/
theorem signalManager_runs_per_process_handlers (maxProcesses : Nat) (ops : List ManagerOp)
    (pid : TaskId) :
    ((SignalManager.new maxProcesses).run ops).getHandler pid =
      (ManagerOp.history pid ops).map (run AdvancedSignalHandler.step AdvancedSignalHandler.new) ∧
    ∀ handler, ((SignalManager.new maxProcesses).run ops).getHandler pid = some handler →
      handler.WellFormed := by
  refine ⟨SignalManager.getHandler_run maxProcesses ops pid, fun handler kept => ?_⟩
  rw [SignalManager.getHandler_run] at kept
  obtain ⟨calls, -, built⟩ := Option.map_eq_some_iff.mp kept
  rw [← built]
  exact AdvancedSignalHandler.wellFormed_run calls

end FangaOS.Sigadv
