import FangaOS.Lib.Fifo
import FangaOS.Lib.Run
import FangaOS.Lib.Slice
import FangaOS.Task.Tcb

/-! Signals, the counting semaphore and the pipe of `task/ipc.rs`.  `isize` is
`Int64` and the pipe's counts are `UInt64`; the free space of a buffer is exact
in `Nat`.  The wait queues of the pipe are read by no operation and are left
out. -/

namespace FangaOS.Ipc

open Tcb StepMachine

/-! ### Signals -/

inductive Signal
  | sighup
  | sigint
  | sigquit
  | sigill
  | sigtrap
  | sigabrt
  | sigbus
  | sigfpe
  | sigkill
  | sigusr1
  | sigsegv
  | sigusr2
  | sigpipe
  | sigalrm
  | sigterm
  | sigchld
  | sigcont
  | sigstop
  | sigtstp
  deriving DecidableEq, Repr

/-- `*self as u8`. -/
def Signal.num : Signal → UInt8
  | .sighup => 1
  | .sigint => 2
  | .sigquit => 3
  | .sigill => 4
  | .sigtrap => 5
  | .sigabrt => 6
  | .sigbus => 7
  | .sigfpe => 8
  | .sigkill => 9
  | .sigusr1 => 10
  | .sigsegv => 11
  | .sigusr2 => 12
  | .sigpipe => 13
  | .sigalrm => 14
  | .sigterm => 15
  | .sigchld => 17
  | .sigcont => 18
  | .sigstop => 19
  | .sigtstp => 20

def Signal.fromNum : UInt8 → Option Signal
  | 1 => some .sighup
  | 2 => some .sigint
  | 3 => some .sigquit
  | 4 => some .sigill
  | 5 => some .sigtrap
  | 6 => some .sigabrt
  | 7 => some .sigbus
  | 8 => some .sigfpe
  | 9 => some .sigkill
  | 10 => some .sigusr1
  | 11 => some .sigsegv
  | 12 => some .sigusr2
  | 13 => some .sigpipe
  | 14 => some .sigalrm
  | 15 => some .sigterm
  | 17 => some .sigchld
  | 18 => some .sigcont
  | 19 => some .sigstop
  | 20 => some .sigtstp
  | _ => none

theorem Signal.num_le (signal : Signal) : signal.num.toNat ≤ 20 := by
  cases signal <;> decide

theorem Signal.num_lt (signal : Signal) : signal.num.toNat < 64 := by
  have := signal.num_le
  omega

theorem Signal.fromNum_num (signal : Signal) : Signal.fromNum signal.num = some signal := by
  cases signal <;> rfl

theorem Signal.num_injective {signal other : Signal} (same : signal.num.toNat = other.num.toNat) :
    signal = other := by
  have decoded := congrArg Signal.fromNum (UInt8.toNat_inj.mp same)
  rwa [Signal.fromNum_num, Signal.fromNum_num, Option.some_inj] at decoded

/-! ### The counting semaphore -/

structure Semaphore where
  value : Int64
  waitingTasks : List TaskId
  deriving DecidableEq, Repr

def Semaphore.new (initialValue : Int64) : Semaphore :=
  ⟨initialValue, []⟩

def Semaphore.wait (semaphore : Semaphore) (taskId : TaskId) : Bool × Semaphore :=
  if semaphore.value > 0 then (true, { semaphore with value := semaphore.value - 1 })
  else if taskId ∉ semaphore.waitingTasks then
    (false, { semaphore with waitingTasks := semaphore.waitingTasks ++ [taskId] })
  else (false, semaphore)

def Semaphore.signal (semaphore : Semaphore) : Option TaskId × Semaphore :=
  match semaphore.waitingTasks with
  | taskId :: rest => (some taskId, { semaphore with waitingTasks := rest })
  | [] => (none, { semaphore with value := semaphore.value + 1 })

inductive SemaphoreOp
  | wait (taskId : TaskId)
  | signal
  deriving DecidableEq, Repr

/-- A semaphore with the signals made, the waits that took a unit, and the log of
blocked waits. -/
structure SemaphoreSession where
  semaphore : Semaphore
  signals : Nat
  acquired : Nat
  queue : Fifo.Log TaskId

def SemaphoreSession.start (initialValue : Int64) : SemaphoreSession :=
  ⟨Semaphore.new initialValue, 0, 0, Fifo.Log.empty⟩

def SemaphoreSession.step (session : SemaphoreSession) : SemaphoreOp → SemaphoreSession
  | .wait taskId =>
      let (took, semaphore) := session.semaphore.wait taskId
      { semaphore
        signals := session.signals
        acquired := if took then session.acquired + 1 else session.acquired
        queue :=
          if !took && taskId ∉ session.semaphore.waitingTasks then session.queue.accept [taskId]
          else session.queue }
  | .signal =>
      let (woken, semaphore) := session.semaphore.signal
      { semaphore
        signals := session.signals + 1
        acquired := session.acquired
        queue := session.queue.deliver woken.toList }

def SemaphoreSession.run (session : SemaphoreSession) (ops : List SemaphoreOp) :
    SemaphoreSession :=
  StepMachine.run SemaphoreSession.step session ops

/-! ### The pipe -/

def pipeBufferSize : Nat := 4096

structure Pipe where
  buffer : List UInt8
  maxSize : Nat
  readers : UInt64
  writers : UInt64
  deriving DecidableEq, Repr

def Pipe.withCapacity (capacity : Nat) : Pipe :=
  ⟨[], capacity, 0, 0⟩

def Pipe.new : Pipe :=
  Pipe.withCapacity pipeBufferSize

def Pipe.addReader (pipe : Pipe) : Pipe :=
  { pipe with readers := pipe.readers + 1 }

def Pipe.addWriter (pipe : Pipe) : Pipe :=
  { pipe with writers := pipe.writers + 1 }

def Pipe.removeReader (pipe : Pipe) : Pipe :=
  if pipe.readers > 0 then { pipe with readers := pipe.readers - 1 } else pipe

def Pipe.removeWriter (pipe : Pipe) : Pipe :=
  if pipe.writers > 0 then { pipe with writers := pipe.writers - 1 } else pipe

def Pipe.isReadable (pipe : Pipe) : Bool :=
  !pipe.buffer.isEmpty || pipe.writers == 0

def Pipe.isWritable (pipe : Pipe) : Bool :=
  decide (pipe.buffer.length < pipe.maxSize) && pipe.readers > 0

def Pipe.write (pipe : Pipe) (data : List UInt8) : Except String Nat × Pipe :=
  if pipe.readers = 0 then (.error "No readers (broken pipe)", pipe)
  else
    let availableSpace := pipe.maxSize - pipe.buffer.length
    if availableSpace = 0 then (.ok 0, pipe)
    else
      let bytesToWrite := min data.length availableSpace
      (.ok bytesToWrite, { pipe with buffer := pipe.buffer ++ data.take bytesToWrite })

/-- `read(buf)`: the result and the caller's buffer after the call. -/
def Pipe.read (pipe : Pipe) (buf : List UInt8) : (Except String Nat × List UInt8) × Pipe :=
  if pipe.buffer.isEmpty then
    -- end of file without writers, and a read that would block with them
    if pipe.writers = 0 then ((.ok 0, buf), pipe) else ((.ok 0, buf), pipe)
  else
    let bytesToRead := min buf.length pipe.buffer.length
    ((.ok bytesToRead, Slice.overwrite buf 0 (pipe.buffer.take bytesToRead)),
      { pipe with buffer := pipe.buffer.drop bytesToRead })

def Pipe.available (pipe : Pipe) : Nat :=
  pipe.buffer.length

inductive PipeOp
  | addReader
  | removeReader
  | addWriter
  | removeWriter
  | write (data : List UInt8)
  | read (buf : List UInt8)
  deriving DecidableEq, Repr

/-- A pipe with the bytes it has accepted and the bytes its reads returned. -/
structure PipeSession where
  pipe : Pipe
  log : Fifo.Log UInt8

def PipeSession.start (capacity : Nat) : PipeSession :=
  ⟨Pipe.withCapacity capacity, Fifo.Log.empty⟩

def PipeSession.step (session : PipeSession) : PipeOp → PipeSession
  | .addReader => { session with pipe := session.pipe.addReader }
  | .removeReader => { session with pipe := session.pipe.removeReader }
  | .addWriter => { session with pipe := session.pipe.addWriter }
  | .removeWriter => { session with pipe := session.pipe.removeWriter }
  | .write data =>
      let (result, pipe) := session.pipe.write data
      match result with
      | .ok written => ⟨pipe, session.log.accept (data.take written)⟩
      | .error _ => { session with pipe }
  | .read buf =>
      let ((result, buf), pipe) := session.pipe.read buf
      match result with
      | .ok count => ⟨pipe, session.log.deliver (buf.take count)⟩
      | .error _ => { session with pipe }

def PipeSession.run (session : PipeSession) (ops : List PipeOp) : PipeSession :=
  StepMachine.run PipeSession.step session ops

/-! ### The pipe is a bounded lossless FIFO -/

theorem Pipe.write_of_no_readers {pipe : Pipe} (noReader : pipe.readers = 0) (data : List UInt8) :
    pipe.write data = (.error "No readers (broken pipe)", pipe) := by
  rw [write, if_pos noReader]

theorem Pipe.write_of_reader {pipe : Pipe} (reader : pipe.readers ≠ 0) (data : List UInt8) :
    pipe.write data =
      (.ok (min data.length (pipe.maxSize - pipe.available)),
        { pipe with buffer := pipe.buffer ++ data.take (min data.length (pipe.maxSize - pipe.available)) }) := by
  unfold write available
  rw [if_neg reader]
  dsimp only
  split_ifs with full
  · rw [full, Nat.min_zero, List.take_zero, List.append_nil]
  · rfl

theorem Pipe.read_eq (pipe : Pipe) (buf : List UInt8) :
    pipe.read buf =
      ((.ok (min buf.length pipe.buffer.length),
          Slice.overwrite buf 0 (pipe.buffer.take (min buf.length pipe.buffer.length))),
        { pipe with buffer := pipe.buffer.drop (min buf.length pipe.buffer.length) }) := by
  unfold read
  by_cases empty : pipe.buffer.isEmpty
  · have drained : pipe.buffer = [] := List.isEmpty_iff.mp empty
    rw [if_pos empty, ite_self]
    obtain ⟨buffer, maxSize, readers, writers⟩ := pipe
    dsimp only at drained
    subst drained
    simp [Slice.overwrite]
  · rw [if_neg empty]

/-- What every run of a pipe made with a capacity keeps: the capacity, a buffer
within it, and the buffer as the accepted bytes that were not read. -/
structure PipeSession.Lossless (capacity : Nat) (session : PipeSession) : Prop where
  maxSize : session.pipe.maxSize = capacity
  bounded : session.pipe.available ≤ capacity
  fifo : session.log.Accounts session.pipe.buffer

theorem PipeSession.lossless_start (capacity : Nat) :
    (PipeSession.start capacity).Lossless capacity :=
  ⟨rfl, Nat.zero_le _, Fifo.accounts_empty⟩

theorem PipeSession.Lossless.step {capacity : Nat} {session : PipeSession}
    (lossless : session.Lossless capacity) (op : PipeOp) :
    (session.step op).Lossless capacity := by
  obtain ⟨maxSize, bounded, fifo⟩ := lossless
  cases op with
  | addReader => exact ⟨maxSize, bounded, fifo⟩
  | addWriter => exact ⟨maxSize, bounded, fifo⟩
  | removeReader =>
      dsimp only [PipeSession.step, Pipe.removeReader]
      split_ifs
      · exact ⟨maxSize, bounded, fifo⟩
      · exact ⟨maxSize, bounded, fifo⟩
  | removeWriter =>
      dsimp only [PipeSession.step, Pipe.removeWriter]
      split_ifs
      · exact ⟨maxSize, bounded, fifo⟩
      · exact ⟨maxSize, bounded, fifo⟩
  | write data =>
      by_cases reader : session.pipe.readers = 0
      · dsimp only [PipeSession.step]
        rw [Pipe.write_of_no_readers reader]
        exact ⟨maxSize, bounded, fifo⟩
      · -- the accepted bytes go to the back of the buffer, up to the capacity
        dsimp only [PipeSession.step]
        rw [Pipe.write_of_reader reader]
        refine ⟨maxSize, ?_, fifo.accept _⟩
        unfold Pipe.available at bounded ⊢
        rw [List.length_append, List.length_take, maxSize]
        omega
  | read buf =>
      -- the bytes read are the front of the buffer
      dsimp only [PipeSession.step]
      rw [Pipe.read_eq]
      dsimp only
      have returned : (Slice.overwrite buf 0
          (session.pipe.buffer.take (min buf.length session.pipe.buffer.length))).take
            (min buf.length session.pipe.buffer.length) =
          session.pipe.buffer.take (min buf.length session.pipe.buffer.length) := by
        have taken : (Slice.overwrite buf 0
            (session.pipe.buffer.take (min buf.length session.pipe.buffer.length))).take
              (session.pipe.buffer.take (min buf.length session.pipe.buffer.length)).length =
            session.pipe.buffer.take (min buf.length session.pipe.buffer.length) :=
          Slice.take_overwrite_zero
        rwa [List.length_take, min_eq_left (min_le_right _ _)] at taken
      rw [returned]
      refine ⟨maxSize, ?_, fifo.deliver_take _⟩
      unfold Pipe.available at bounded ⊢
      rw [List.length_drop]
      omega

theorem PipeSession.lossless_run (capacity : Nat) (ops : List PipeOp) :
    ((PipeSession.start capacity).run ops).Lossless capacity :=
  Invariant.run (fun _ op lossless => lossless.step op) (lossless_start capacity) ops

theorem pipe_bounded_lossless_fifo (capacity : Nat) (ops : List PipeOp) :
    let session : PipeSession := (PipeSession.start capacity).run ops
    session.log.delivered ++ session.pipe.buffer = session.log.accepted ∧
      session.pipe.available = session.log.accepted.length - session.log.delivered.length ∧
      session.pipe.available ≤ capacity ∧
      (∀ data, session.pipe.readers ≠ 0 →
        (session.pipe.write data).1 = .ok (min data.length (capacity - session.pipe.available))) ∧
      (∀ data, session.pipe.readers = 0 →
        session.pipe.write data = (.error "No readers (broken pipe)", session.pipe)) := by
  intro session
  obtain ⟨maxSize, bounded, fifo⟩ := PipeSession.lossless_run capacity ops
  refine ⟨fifo, fifo.length_queue, bounded, fun data reader => ?_,
    fun data noReader => Pipe.write_of_no_readers noReader data⟩
  rw [Pipe.write_of_reader reader, maxSize]

/-! ### The semaphore conserves its units -/

theorem toInt_sub_one_of_pos {value : Int64} (positive : 0 < value.toInt) :
    (value - 1).toInt = value.toInt - 1 := by
  have atLeastOne : 1 ≤ value := by
    rw [Int64.le_iff_toInt_le, Int64.toInt_one]
    omega
  rw [Int64.toInt_sub_of_le value 1 (by decide) atLeastOne, Int64.toInt_one]

theorem toInt_add_one_of_lt {value : Int64} (room : value.toInt + 1 ≤ 2 ^ 63 - 1) :
    (value + 1).toInt = value.toInt + 1 := by
  have above := value.le_toInt
  rw [Int64.toInt_add, Int64.toInt_one]
  exact Int.bmod_eq_of_le (by omega) (by omega)

theorem Semaphore.wait_of_positive {semaphore : Semaphore} (positive : 0 < semaphore.value.toInt)
    (taskId : TaskId) :
    semaphore.wait taskId = (true, { semaphore with value := semaphore.value - 1 }) := by
  have above : semaphore.value > 0 := by
    rw [gt_iff_lt, Int64.lt_iff_toInt_lt, Int64.toInt_zero]
    exact positive
  rw [wait, if_pos above]

theorem Semaphore.wait_of_not_positive {semaphore : Semaphore}
    (empty : ¬ 0 < semaphore.value.toInt) (taskId : TaskId) :
    semaphore.wait taskId =
      (false, if taskId ∉ semaphore.waitingTasks then
        { semaphore with waitingTasks := semaphore.waitingTasks ++ [taskId] } else semaphore) := by
  have notAbove : ¬ semaphore.value > 0 := by
    rw [gt_iff_lt, Int64.lt_iff_toInt_lt, Int64.toInt_zero]
    exact empty
  rw [wait, if_neg notAbove]
  split_ifs <;> rfl

/-- What every run from `new(v0)` keeps while the value stays below `isize::MAX`. -/
structure SemaphoreSession.Conserves (initialValue : Int64) (session : SemaphoreSession) :
    Prop where
  nonneg : 0 ≤ session.semaphore.value.toInt
  distinct : session.semaphore.waitingTasks.Nodup
  idle : 0 < session.semaphore.value.toInt → session.semaphore.waitingTasks = []
  units : initialValue.toInt + session.signals =
    session.semaphore.value.toInt + session.acquired + session.queue.delivered.length
  fifo : session.queue.Accounts session.semaphore.waitingTasks

theorem SemaphoreSession.conserves_start {initialValue : Int64} (nonneg : 0 ≤ initialValue.toInt) :
    (SemaphoreSession.start initialValue).Conserves initialValue where
  nonneg := nonneg
  distinct := List.nodup_nil
  idle _ := rfl
  units := by simp [start, Semaphore.new, Fifo.Log.empty]
  fifo := Fifo.accounts_empty

theorem SemaphoreSession.Conserves.step {initialValue : Int64} {session : SemaphoreSession}
    (conserves : session.Conserves initialValue) (op : SemaphoreOp)
    (room : op = .signal → initialValue.toInt + session.signals + 1 ≤ 2 ^ 63 - 1) :
    (session.step op).Conserves initialValue := by
  obtain ⟨nonneg, distinct, idle, units, fifo⟩ := conserves
  cases op with
  | wait taskId =>
      by_cases positive : 0 < session.semaphore.value.toInt
      · -- the task takes a unit
        have lower := toInt_sub_one_of_pos positive
        dsimp only [SemaphoreSession.step]
        rw [Semaphore.wait_of_positive positive]
        simp only [Bool.not_true, Bool.false_and, Bool.false_eq_true, if_false, if_true]
        refine ⟨by dsimp only; omega, distinct, fun _ => idle positive, by dsimp only; omega,
          fifo⟩
      · have zero : session.semaphore.value.toInt = 0 := by omega
        dsimp only [SemaphoreSession.step]
        rw [Semaphore.wait_of_not_positive positive]
        by_cases waiting : taskId ∈ session.semaphore.waitingTasks
        · -- a task already waiting is not queued twice
          simp only [waiting, not_true_eq_false, if_false, decide_false, Bool.and_false,
            Bool.false_eq_true]
          exact ⟨nonneg, distinct, idle, units, fifo⟩
        · -- the task blocks and joins the back of the queue
          simp only [waiting, not_false_eq_true, if_true, decide_true, Bool.not_false,
            Bool.and_self]
          have single : [taskId].Nodup := List.nodup_cons.mpr ⟨List.not_mem_nil, List.nodup_nil⟩
          refine ⟨nonneg, List.nodup_append.mpr ⟨distinct, single, ?_⟩,
            fun positive' => absurd positive' (by rw [zero]; decide), units, fifo.accept [taskId]⟩
          intro earlier member other isTask same
          rw [List.mem_singleton] at isTask
          exact waiting (isTask ▸ same ▸ member)
  | signal =>
      dsimp only [SemaphoreSession.step, Semaphore.signal]
      cases queued : session.semaphore.waitingTasks with
      | cons first rest =>
          -- the unit goes straight to the first waiting task
          rw [queued] at distinct fifo
          refine ⟨nonneg, (List.nodup_cons.mp distinct).2, fun positive => ?_, ?_, ?_⟩
          · have none := idle positive
            rw [queued] at none
            cases none
          · dsimp only [Fifo.Log.deliver]
            rw [List.length_append, Option.toList_some, List.length_singleton]
            omega
          · exact Fifo.Log.Accounts.deliver (show session.queue.Accounts ([first] ++ rest) from fifo)
      | nil =>
          -- no one waits: the unit is added to the value, which has room for it
          have below : session.semaphore.value.toInt + 1 ≤ 2 ^ 63 - 1 := by
            have := room rfl
            omega
          have higher := toInt_add_one_of_lt below
          refine ⟨by dsimp only; omega, List.nodup_nil, fun _ => rfl, ?_, ?_⟩
          · dsimp only [Fifo.Log.deliver]
            rw [Option.toList_none, List.append_nil]
            omega
          · dsimp only [Fifo.Log.deliver]
            rw [Option.toList_none, List.append_nil, ← queued]
            exact fifo

def SemaphoreOp.signalCost : SemaphoreOp → Nat
  | .signal => 1
  | .wait _ => 0

theorem SemaphoreSession.signals_step (session : SemaphoreSession) (op : SemaphoreOp) :
    (session.step op).signals = session.signals + op.signalCost := by
  cases op <;> rfl

theorem sum_signalCost (ops : List SemaphoreOp) :
    (ops.map SemaphoreOp.signalCost).sum = ops.count .signal := by
  induction ops with
  | nil => rfl
  | cons op ops ih =>
      rw [List.map_cons, List.sum_cons, ih, List.count_cons]
      cases op <;> simp [SemaphoreOp.signalCost]
      omega

theorem SemaphoreSession.conserves_run {initialValue : Int64} (nonneg : 0 ≤ initialValue.toInt)
    (ops : List SemaphoreOp) (bound : initialValue.toInt + ops.count .signal ≤ 2 ^ 63 - 1) :
    ((SemaphoreSession.start initialValue).run ops).Conserves initialValue := by
  have belowMax := initialValue.toInt_le
  rw [Int64.toInt_maxValue] at belowMax
  -- the signals spend the room between `v0` and `isize::MAX`
  refine run_of_budget SemaphoreSession.signals SemaphoreOp.signalCost
    (2 ^ 63 - 1 - initialValue.toInt).toNat signals_step ?_ ops _ (conserves_start nonneg) ?_
  · intro session op fits conserves
    refine conserves.step op fun isSignal => ?_
    rw [isSignal] at fits
    simp only [SemaphoreOp.signalCost] at fits
    omega
  · rw [sum_signalCost]
    simp only [start, Nat.zero_add]
    omega

theorem semaphore_conserves_units (initialValue : Int64) (ops : List SemaphoreOp)
    (nonneg : 0 ≤ initialValue.toInt)
    (bound : initialValue.toInt + ops.count .signal ≤ 2 ^ 63 - 1) :
    let session : SemaphoreSession := (SemaphoreSession.start initialValue).run ops
    0 ≤ session.semaphore.value.toInt ∧ session.semaphore.waitingTasks.Nodup ∧
      (0 < session.semaphore.value.toInt → session.semaphore.waitingTasks = []) ∧
      initialValue.toInt + ops.count .signal =
        session.semaphore.value.toInt + session.acquired + session.queue.delivered.length ∧
      session.queue.delivered ++ session.semaphore.waitingTasks = session.queue.accepted := by
  intro session
  obtain ⟨nonneg', distinct, idle, units, fifo⟩ :=
    SemaphoreSession.conserves_run nonneg ops bound
  have counted : session.signals = ops.count .signal := by
    have spent := spent_run SemaphoreSession.signals SemaphoreOp.signalCost
      SemaphoreSession.signals_step ops (SemaphoreSession.start initialValue)
    rw [sum_signalCost, show (SemaphoreSession.start initialValue).signals = 0 from rfl,
      Nat.zero_add] at spent
    exact spent
  exact ⟨nonneg', distinct, idle, counted ▸ units, fifo⟩

theorem semaphore_conserves_units_three_waiters :
    let ops : List SemaphoreOp := [.wait ⟨1⟩, .wait ⟨2⟩, .wait ⟨3⟩, .wait ⟨2⟩, .signal, .signal]
    let session : SemaphoreSession := (SemaphoreSession.start 1).run ops
    (0 ≤ (1 : Int64).toInt ∧ (1 : Int64).toInt + ops.count .signal ≤ 2 ^ 63 - 1) ∧
      session.queue.delivered ++ session.semaphore.waitingTasks = session.queue.accepted := by
  intro ops session
  have holds := semaphore_conserves_units 1 ops (by decide) (by decide)
  exact ⟨⟨by decide, by decide⟩, holds.2.2.2.2⟩

theorem semaphore_signal_wraps_at_max :
    let session : SemaphoreSession := (SemaphoreSession.start Int64.maxValue).run [.signal]
    0 ≤ Int64.maxValue.toInt ∧ session.semaphore.value.toInt = -2 ^ 63 ∧
      Int64.maxValue.toInt + 1 ≠
        session.semaphore.value.toInt + session.acquired + session.queue.delivered.length := by
  decide

end FangaOS.Ipc
