import FangaOS.Lib.BitWord
import FangaOS.Lib.Run
import FangaOS.Task.Ipc

/-! Advanced signal handling of `task/sigadv.rs`.  `SignalInfo::with_value`,
`rt_pending_count` and the process-group delivery take no part in the modelled
calls and are left out. -/

namespace FangaOS.Sigadv

open FangaOS.Ipc FangaOS.Tcb StepMachine

inductive SignalAction
  | default
  | ignore
  | handler (address : UInt64)
  | core
  deriving DecidableEq, Repr

structure SignalFlags where
  saRestart : Bool
  saNodefer : Bool
  saResethand : Bool
  saSiginfo : Bool
  deriving DecidableEq, Repr

def SignalFlags.default : SignalFlags :=
  ⟨false, false, false, false⟩

structure SignalInfo where
  signal : Signal
  code : Int32
  senderPid : TaskId
  value : Int32
  deriving DecidableEq, Repr

def SignalInfo.new (signal : Signal) (senderPid : TaskId) : SignalInfo :=
  ⟨signal, 0, senderPid, 0⟩

structure SigAction where
  action : SignalAction
  mask : UInt64
  flags : SignalFlags
  deriving DecidableEq, Repr

def SigAction.default : SigAction :=
  ⟨.default, 0, SignalFlags.default⟩

def SigAction.withHandler (handler : UInt64) : SigAction :=
  ⟨.handler handler, 0, SignalFlags.default⟩

def SigAction.ignore : SigAction :=
  ⟨.ignore, 0, SignalFlags.default⟩

structure AdvancedSignalHandler where
  pending : UInt64
  blocked : UInt64
  actions : Vector SigAction 32
  rtQueue : List SignalInfo
  savedMask : Option UInt64
  deriving DecidableEq, Repr

namespace AdvancedSignalHandler

def new : AdvancedSignalHandler :=
  ⟨0, 0, Vector.replicate 32 SigAction.default, [], none⟩

def signalBit (signal : Signal) : UInt64 :=
  1 <<< signal.num.toUInt64

def send (handler : AdvancedSignalHandler) (signal : Signal) : AdvancedSignalHandler :=
  { handler with pending := handler.pending ||| signalBit signal }

def sendRt (handler : AdvancedSignalHandler) (info : SignalInfo) : AdvancedSignalHandler :=
  if info.signal.num ≥ 32 then { handler with rtQueue := handler.rtQueue ++ [info] }
  else handler.send info.signal

def isPending (handler : AdvancedSignalHandler) (signal : Signal) : Bool :=
  handler.pending &&& signalBit signal != 0

def isBlocked (handler : AdvancedSignalHandler) (signal : Signal) : Bool :=
  handler.blocked &&& signalBit signal != 0

def block (handler : AdvancedSignalHandler) (signal : Signal) : AdvancedSignalHandler :=
  { handler with blocked := handler.blocked ||| signalBit signal }

def unblock (handler : AdvancedSignalHandler) (signal : Signal) : AdvancedSignalHandler :=
  { handler with blocked := handler.blocked &&& ~~~signalBit signal }

def setMask (handler : AdvancedSignalHandler) (mask : UInt64) : AdvancedSignalHandler :=
  { handler with blocked := mask }

def getMask (handler : AdvancedSignalHandler) : UInt64 :=
  handler.blocked

def getPending (handler : AdvancedSignalHandler) : UInt64 :=
  handler.pending

def clear (handler : AdvancedSignalHandler) (signal : Signal) : AdvancedSignalHandler :=
  { handler with pending := handler.pending &&& ~~~signalBit signal }

def nextUnblocked (handler : AdvancedSignalHandler) : Option SignalInfo × AdvancedSignalHandler :=
  match handler.rtQueue with
  | info :: rest => (some info, { handler with rtQueue := rest })
  | [] =>
      let unblockedPending := handler.pending &&& ~~~handler.blocked
      if unblockedPending = 0 then (none, handler)
      else
        let bitPos := unblockedPending.trailingZeros.toUInt8
        match Signal.fromNum bitPos with
        | some signal => (some (SignalInfo.new signal ⟨0⟩), handler.clear signal)
        | none => (none, handler)

def hasPending (handler : AdvancedSignalHandler) : Bool :=
  handler.pending &&& ~~~handler.blocked != 0 || !handler.rtQueue.isEmpty

def setAction (handler : AdvancedSignalHandler) (signal : Signal) (action : SigAction) :
    Except String (SigAction × AdvancedSignalHandler) :=
  let sigNum := signal.num.toNat
  if tooLarge : sigNum ≥ 32 then .error "Invalid signal number"
  else if signal = .sigkill ∨ signal = .sigstop then .error "Cannot change SIGKILL or SIGSTOP"
  else
    let oldAction := handler.actions[sigNum]
    .ok (oldAction, { handler with actions := handler.actions.set sigNum action })

def getAction (handler : AdvancedSignalHandler) (signal : Signal) : Except String SigAction :=
  let sigNum := signal.num.toNat
  if tooLarge : sigNum ≥ 32 then .error "Invalid signal number"
  else .ok handler.actions[sigNum]

def suspendWithMask (handler : AdvancedSignalHandler) (mask : UInt64) : AdvancedSignalHandler :=
  { handler with savedMask := some handler.blocked, blocked := mask }

def restoreMask (handler : AdvancedSignalHandler) : AdvancedSignalHandler :=
  match handler.savedMask with
  | some mask => { handler with savedMask := none, blocked := mask }
  | none => handler

def defaultAction : Signal → SignalAction
  | .sigkill | .sigstop => .default
  | .sigchld | .sigcont => .ignore
  | .sigquit | .sigill | .sigabrt | .sigfpe | .sigsegv | .sigbus => .core
  | _ => .default

end AdvancedSignalHandler

inductive SignalOp
  | send (signal : Signal)
  | sendRt (info : SignalInfo)
  | block (signal : Signal)
  | unblock (signal : Signal)
  | setMask (mask : UInt64)
  | suspendWithMask (mask : UInt64)
  | restoreMask
  | clear (signal : Signal)
  | setAction (signal : Signal) (action : SigAction)
  | nextUnblocked
  deriving DecidableEq, Repr

/-- The calls that leave the saved mask alone: all but `suspend_with_mask` and
`restore_mask`. -/
def SignalOp.KeepsSavedMask : SignalOp → Prop
  | .suspendWithMask _ => False
  | .restoreMask => False
  | _ => True

namespace AdvancedSignalHandler

def step (handler : AdvancedSignalHandler) : SignalOp → AdvancedSignalHandler
  | .send signal => handler.send signal
  | .sendRt info => handler.sendRt info
  | .block signal => handler.block signal
  | .unblock signal => handler.unblock signal
  | .setMask mask => handler.setMask mask
  | .suspendWithMask mask => handler.suspendWithMask mask
  | .restoreMask => handler.restoreMask
  | .clear signal => handler.clear signal
  | .setAction signal action => afterCall handler (handler.setAction signal action)
  | .nextUnblocked => handler.nextUnblocked.2

/-! ### Bits of the masks -/

theorem signalBit_eq (signal : Signal) : signalBit signal = 1 <<< signal.num.toNat.toUInt64 := by
  cases signal <;> rfl

theorem test_signalBit (mask : UInt64) (signal : Signal) :
    (mask &&& signalBit signal != 0) = mask.toNat.testBit signal.num.toNat := by
  rw [signalBit_eq, bne, UInt64.and_one_shiftLeft_beq_zero _ signal.num_lt, Bool.not_not]

theorem testBit_or_signalBit (mask : UInt64) (signal : Signal) (i : Nat) :
    (mask ||| signalBit signal).toNat.testBit i = (mask.toNat.testBit i || decide (signal.num.toNat = i)) := by
  rw [signalBit_eq, UInt64.testBit_or_one_shiftLeft _ signal.num_lt]

theorem testBit_and_not_signalBit (mask : UInt64) (signal : Signal) (i : Nat) :
    (mask &&& ~~~signalBit signal).toNat.testBit i =
      (mask.toNat.testBit i && !decide (signal.num.toNat = i)) := by
  rw [signalBit_eq, UInt64.testBit_and_not_one_shiftLeft _ signal.num_lt]

variable {handler : AdvancedSignalHandler}

theorem isPending_eq (handler : AdvancedSignalHandler) (signal : Signal) :
    handler.isPending signal = handler.pending.toNat.testBit signal.num.toNat :=
  test_signalBit handler.pending signal

theorem isBlocked_eq (handler : AdvancedSignalHandler) (signal : Signal) :
    handler.isBlocked signal = handler.blocked.toNat.testBit signal.num.toNat :=
  test_signalBit handler.blocked signal

theorem isBlocked_block (handler : AdvancedSignalHandler) (signal : Signal) :
    (handler.block signal).isBlocked signal = true := by
  rw [isBlocked_eq]
  show (handler.blocked ||| signalBit signal).toNat.testBit _ = true
  rw [testBit_or_signalBit, decide_eq_true rfl, Bool.or_true]

theorem isBlocked_of_allOnes (full : handler.blocked = ~~~0) (signal : Signal) :
    handler.isBlocked signal = true := by
  rw [isBlocked_eq, full]
  exact UInt64.testBit_allOnes signal.num_lt

theorem testBit_clear (handler : AdvancedSignalHandler) (signal : Signal) (i : Nat) :
    (handler.clear signal).pending.toNat.testBit i =
      (handler.pending.toNat.testBit i && !decide (signal.num.toNat = i)) :=
  testBit_and_not_signalBit handler.pending signal i

theorem testBit_unblockedPending (handler : AdvancedSignalHandler) (i : Nat) :
    (handler.pending &&& ~~~handler.blocked).toNat.testBit i =
      (handler.pending.toNat.testBit i && (decide (i < 64) && !handler.blocked.toNat.testBit i)) := by
  rw [UInt64.toNat_and, Nat.testBit_and, UInt64.testBit_not]

/-! ### Actions -/

theorem getAction_of_actions {other : AdvancedSignalHandler} (same : other.actions = handler.actions)
    (signal : Signal) : other.getAction signal = handler.getAction signal := by
  unfold getAction
  rw [same]

theorem getAction_set {i : Nat} (inside : i < 32) (action : SigAction) {signal : Signal}
    (differs : signal.num.toNat ≠ i) :
    ({ handler with actions := handler.actions.set i action } : AdvancedSignalHandler).getAction signal =
      handler.getAction signal := by
  unfold getAction
  dsimp only
  split
  · rfl
  · rw [Vector.getElem_set_ne inside _ (Ne.symm differs)]

theorem setAction_eq_ok {signal : Signal} {action : SigAction}
    {result : SigAction × AdvancedSignalHandler} (ok : handler.setAction signal action = .ok result) :
    signal ≠ .sigkill ∧ signal ≠ .sigstop ∧ ∃ inside : signal.num.toNat < 32,
      result.2 = { handler with actions := handler.actions.set signal.num.toNat action } := by
  unfold setAction at ok
  dsimp only at ok
  split at ok
  · cases ok
  · rename_i inside
    split at ok
    · cases ok
    · rename_i unprotected
      cases ok
      obtain ⟨notKill, notStop⟩ := not_or.mp unprotected
      exact ⟨notKill, notStop, Nat.lt_of_not_le inside, rfl⟩

/-! ### Runs -/

/-- What every run from `new` keeps: no real-time signal queued, every pending
bit the bit of a signal, and SIGKILL and SIGSTOP at their default action. -/
structure WellFormed (handler : AdvancedSignalHandler) : Prop where
  queueEmpty : handler.rtQueue = []
  signalBits : ∀ i, handler.pending.toNat.testBit i = true → ∃ signal : Signal, signal.num.toNat = i
  killDefault : handler.getAction .sigkill = .ok SigAction.default
  stopDefault : handler.getAction .sigstop = .ok SigAction.default

theorem new_wellFormed : new.WellFormed where
  queueEmpty := rfl
  signalBits _ set := by simp [new] at set
  killDefault := rfl
  stopDefault := rfl

theorem WellFormed.of_pending {other : AdvancedSignalHandler} (wf : handler.WellFormed)
    (bits : ∀ i, other.pending.toNat.testBit i = true →
      handler.pending.toNat.testBit i = true ∨ ∃ signal : Signal, signal.num.toNat = i)
    (queue : other.rtQueue = handler.rtQueue) (actions : other.actions = handler.actions) :
    other.WellFormed where
  queueEmpty := queue.trans wf.queueEmpty
  signalBits i set := (bits i set).elim (wf.signalBits i) id
  killDefault := (getAction_of_actions actions _).trans wf.killDefault
  stopDefault := (getAction_of_actions actions _).trans wf.stopDefault

theorem WellFormed.of_same_pending {other : AdvancedSignalHandler} (wf : handler.WellFormed)
    (pending : other.pending = handler.pending) (queue : other.rtQueue = handler.rtQueue)
    (actions : other.actions = handler.actions) : other.WellFormed :=
  wf.of_pending (fun _ set => Or.inl (pending ▸ set)) queue actions

theorem WellFormed.send (wf : handler.WellFormed) (signal : Signal) : (handler.send signal).WellFormed :=
  wf.of_pending (fun i set => by
    have set : (handler.pending ||| signalBit signal).toNat.testBit i = true := set
    rw [testBit_or_signalBit, Bool.or_eq_true, decide_eq_true_iff] at set
    exact set.imp id fun same => ⟨signal, same⟩) rfl rfl

theorem WellFormed.clear (wf : handler.WellFormed) (signal : Signal) : (handler.clear signal).WellFormed :=
  wf.of_pending (fun i set => by
    rw [testBit_clear, Bool.and_eq_true] at set
    exact Or.inl set.1) rfl rfl

theorem nextUnblocked_snd (queue : handler.rtQueue = []) :
    handler.nextUnblocked.2 = handler ∨ ∃ signal, handler.nextUnblocked.2 = handler.clear signal := by
  unfold nextUnblocked
  rw [queue]
  dsimp only
  split
  · exact Or.inl rfl
  · split
    · rename_i signal _
      exact Or.inr ⟨signal, rfl⟩
    · exact Or.inl rfl

theorem WellFormed.step (wf : handler.WellFormed) (op : SignalOp) : (handler.step op).WellFormed := by
  cases op with
  | send signal => exact wf.send signal
  | sendRt info =>
      -- no signal number reaches 32, so `send_rt` never queues
      have below : ¬ info.signal.num ≥ 32 := by
        show ¬ 32 ≤ info.signal.num
        rw [UInt8.le_iff_toNat_le]
        have := info.signal.num_le
        simp only [UInt8.reduceToNat]
        omega
      show (handler.sendRt info).WellFormed
      rw [sendRt, if_neg below]
      exact wf.send info.signal
  | block signal => exact wf.of_same_pending rfl rfl rfl
  | unblock signal => exact wf.of_same_pending rfl rfl rfl
  | setMask mask => exact wf.of_same_pending rfl rfl rfl
  | suspendWithMask mask => exact wf.of_same_pending rfl rfl rfl
  | restoreMask =>
      show handler.restoreMask.WellFormed
      unfold restoreMask
      split
      · exact wf.of_same_pending rfl rfl rfl
      · exact wf
  | clear signal => exact wf.clear signal
  | setAction signal action =>
      show (afterCall handler (handler.setAction signal action)).WellFormed
      cases called : handler.setAction signal action with
      | error message => exact wf
      | ok result =>
          obtain ⟨notKill, notStop, inside, updated⟩ := setAction_eq_ok called
          show result.2.WellFormed
          rw [updated]
          -- the replaced action is neither SIGKILL's nor SIGSTOP's
          have killOther : Signal.sigkill.num.toNat ≠ signal.num.toNat :=
            fun same => notKill (Signal.num_injective same).symm
          have stopOther : Signal.sigstop.num.toNat ≠ signal.num.toNat :=
            fun same => notStop (Signal.num_injective same).symm
          exact ⟨wf.queueEmpty, wf.signalBits,
            (getAction_set inside action killOther).trans wf.killDefault,
            (getAction_set inside action stopOther).trans wf.stopDefault⟩
  | nextUnblocked =>
      show handler.nextUnblocked.2.WellFormed
      rcases nextUnblocked_snd wf.queueEmpty with same | ⟨signal, cleared⟩
      · rw [same]
        exact wf
      · rw [cleared]
        exact wf.clear signal

theorem wellFormed_run (ops : List SignalOp) : (run step new ops).WellFormed := by
  have preserved : Invariant step WellFormed := fun _ op wf => wf.step op
  exact preserved.run new_wellFormed ops

/-! ### Delivery -/

theorem WellFormed.nextUnblocked_spec (wf : handler.WellFormed) :
    (handler.nextUnblocked = (none, handler) ∧
        ∀ signal, handler.isPending signal = true → handler.isBlocked signal = true) ∨
      ∃ signal, handler.isPending signal = true ∧ handler.isBlocked signal = false ∧
        (∀ other, handler.isPending other = true → handler.isBlocked other = false →
          signal.num ≤ other.num) ∧
        handler.nextUnblocked = (some (SignalInfo.new signal ⟨0⟩), handler.clear signal) := by
  unfold nextUnblocked
  rw [wf.queueEmpty]
  dsimp only
  by_cases none : handler.pending &&& ~~~handler.blocked = 0
  · -- no bit survives the mask, so every pending signal is blocked
    refine Or.inl ⟨by rw [if_pos none], fun signal pendingBit => ?_⟩
    have cleared := testBit_unblockedPending handler signal.num.toNat
    rw [none, ← isPending_eq, pendingBit] at cleared
    rw [isBlocked_eq]
    simpa [signal.num_lt] using cleared.symm
  · right
    -- the lowest surviving bit is pending, unblocked, and the bit of a signal
    have lowest := UInt64.testBit_trailingZeros none
    rw [testBit_unblockedPending] at lowest
    simp only [Bool.and_eq_true, decide_eq_true_eq, Bool.not_eq_true'] at lowest
    obtain ⟨pendingBit, -, unblockedBit⟩ := lowest
    obtain ⟨signal, numbered⟩ := wf.signalBits _ pendingBit
    refine ⟨signal, by rw [isPending_eq, numbered, pendingBit],
      by rw [isBlocked_eq, numbered, unblockedBit], fun other otherPending otherFree => ?_, ?_⟩
    · -- a lower pending unblocked signal would survive below the trailing zeros
      rw [UInt8.le_iff_toNat_le, numbered]
      apply Nat.le_of_not_lt
      intro below
      have clear := UInt64.testBit_of_lt_trailingZeros below
      rw [testBit_unblockedPending, ← isPending_eq, ← isBlocked_eq, otherPending, otherFree] at clear
      simp [other.num_lt] at clear
    · rw [if_neg none]
      have decoded : (handler.pending &&& ~~~handler.blocked).trailingZeros.toUInt8 = signal.num := by
        rw [← numbered]
        exact UInt8.ofNat_toNat
      rw [decoded, Signal.fromNum_num]

/-! ### Suspending with a mask -/

theorem savedMask_nextUnblocked (handler : AdvancedSignalHandler) :
    handler.nextUnblocked.2.savedMask = handler.savedMask := by
  unfold nextUnblocked
  split
  · rfl
  · dsimp only
    split
    · rfl
    · split <;> rfl

theorem savedMask_step {op : SignalOp} (keeps : op.KeepsSavedMask) :
    (handler.step op).savedMask = handler.savedMask := by
  cases op with
  | suspendWithMask mask => exact keeps.elim
  | restoreMask => exact keeps.elim
  | sendRt info =>
      show (handler.sendRt info).savedMask = _
      unfold sendRt
      split <;> rfl
  | setAction signal action =>
      show (afterCall handler (handler.setAction signal action)).savedMask = _
      cases called : handler.setAction signal action with
      | error message => rfl
      | ok result =>
          obtain ⟨-, -, inside, updated⟩ := setAction_eq_ok called
          show result.2.savedMask = _
          rw [updated]
  | nextUnblocked => exact savedMask_nextUnblocked handler
  | send signal => rfl
  | block signal => rfl
  | unblock signal => rfl
  | setMask mask => rfl
  | clear signal => rfl

theorem restoreMask_after_suspend (handler : AdvancedSignalHandler) (mask : UInt64)
    {ops : List SignalOp} (between : ∀ op ∈ ops, op.KeepsSavedMask) :
    (run step (handler.suspendWithMask mask) ops).restoreMask.blocked = handler.blocked := by
  have preserved : ∀ (current : AdvancedSignalHandler) (op : SignalOp), op.KeepsSavedMask →
      current.savedMask = some handler.blocked → (current.step op).savedMask = some handler.blocked :=
    fun _ _ keeps same => (savedMask_step keeps).trans same
  have saved : (run step (handler.suspendWithMask mask) ops).savedMask = some handler.blocked :=
    run_of_allowed preserved rfl between
  unfold restoreMask
  rw [saved]

/-- Along every run from `AdvancedSignalHandler::new()` no real-time signal is
queued, SIGKILL and SIGSTOP keep their default action, `next_unblocked` delivers
the lowest-numbered pending unblocked signal and clears its bit or returns `None`
and changes nothing, and `restore_mask` after `suspend_with_mask(m)` brings back
the mask in force before it. -/
theorem signal_runs_deliver_lowest_and_restore_mask (ops : List SignalOp) :
    let handler := run step new ops
    handler.rtQueue = [] ∧
      handler.getAction .sigkill = .ok SigAction.default ∧
      handler.getAction .sigstop = .ok SigAction.default ∧
      ((handler.nextUnblocked = (none, handler) ∧
          ∀ signal, handler.isPending signal = true → handler.isBlocked signal = true) ∨
        ∃ signal, handler.isPending signal = true ∧ handler.isBlocked signal = false ∧
          (∀ other, handler.isPending other = true → handler.isBlocked other = false →
            signal.num ≤ other.num) ∧
          handler.nextUnblocked = (some (SignalInfo.new signal ⟨0⟩), handler.clear signal)) ∧
      ∀ (mask : UInt64) (later : List SignalOp), (∀ op ∈ later, op.KeepsSavedMask) →
        (run step (handler.suspendWithMask mask) later).restoreMask.blocked = handler.blocked := by
  intro handler
  have wf : handler.WellFormed := wellFormed_run ops
  exact ⟨wf.queueEmpty, wf.killDefault, wf.stopDefault, wf.nextUnblocked_spec,
    fun mask _ between => restoreMask_after_suspend handler mask between⟩

end AdvancedSignalHandler

/-- `block`, `set_mask` and `suspend_with_mask` take SIGKILL and SIGSTOP like any
other signal, so a pending SIGKILL can stay undelivered. -/
theorem sigkill_and_sigstop_can_be_blocked (handler : AdvancedSignalHandler) :
    (handler.block .sigkill).isBlocked .sigkill = true ∧
      (handler.block .sigstop).isBlocked .sigstop = true ∧
      (handler.setMask (~~~0)).isBlocked .sigkill = true ∧
      (handler.suspendWithMask (~~~0)).isBlocked .sigstop = true ∧
      ((AdvancedSignalHandler.new.send .sigkill).block .sigkill).nextUnblocked.1 = none := by
  refine ⟨?_, ?_, ?_, ?_, by decide⟩
  · exact handler.isBlocked_block .sigkill
  · exact handler.isBlocked_block .sigstop
  · exact AdvancedSignalHandler.isBlocked_of_allOnes rfl .sigkill
  · exact AdvancedSignalHandler.isBlocked_of_allOnes rfl .sigstop

end FangaOS.Sigadv
