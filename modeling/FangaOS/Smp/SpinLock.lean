import FangaOS.Lib.Run

/-! The spinlock of `smp/spinlock.rs`, shared by any number of CPUs.  Each
exchange is one atomic step of its CPU, and a spurious failure of
`compare_exchange_weak` is no step; every use of a guard is a critical section
that reads, writes an update of what it read, and drops the guard. -/

namespace FangaOS.Smp

open StepMachine

/-- `SpinLock<T>`: the flag and the data it guards. -/
structure SpinLock (α : Type) where
  locked : Bool
  data : α
  deriving DecidableEq, Repr

namespace SpinLock

variable {α : Type}

def new (data : α) : SpinLock α :=
  ⟨false, data⟩

/-- `compare_exchange(false, true)` on the flag, and its weak form when it does
not fail spuriously: whether it succeeded, and the lock after it. -/
def compareExchange (lock : SpinLock α) : Bool × SpinLock α :=
  if lock.locked then (false, lock) else (true, { lock with locked := true })

/-- `try_lock`: a guard exactly when the exchange succeeds. -/
def tryLock (lock : SpinLock α) : Bool × SpinLock α :=
  lock.compareExchange

def isLocked (lock : SpinLock α) : Bool :=
  lock.locked

/-- `unlock`, run by the guard's `drop`. -/
def unlock (lock : SpinLock α) : SpinLock α :=
  { lock with locked := false }

end SpinLock

/-- Where a CPU is in its critical section. -/
inductive Pc (α : Type)
  | idle
  | spinning
  | acquired
  | read (value : α)
  | written
  deriving DecidableEq, Repr

def Pc.holds {α : Type} : Pc α → Bool
  | .acquired | .read _ | .written => true
  | .idle | .spinning => false

/-- The lock, where each CPU is, and the CPUs whose writes took effect, in the
order they took effect (a record kept for the proofs; no step reads it). -/
structure System (α : Type) where
  lock : SpinLock α
  pc : Nat → Pc α
  writers : List Nat

/-- A step of one CPU: entering `lock`, one exchange of its loop, `try_lock`,
the read and the write through the guard, and the guard's drop. -/
inductive LockOp
  | lock (cpu : Nat)
  | spin (cpu : Nat)
  | tryLock (cpu : Nat)
  | read (cpu : Nat)
  | write (cpu : Nat)
  | drop (cpu : Nat)
  deriving DecidableEq, Repr

namespace System

variable {α : Type}

def start (data : α) : System α :=
  ⟨SpinLock.new data, fun _ => .idle, []⟩

def setPc (system : System α) (cpu : Nat) (pc : Pc α) : System α :=
  { system with pc := Function.update system.pc cpu pc }

/-- One step of a CPU, where `update cpu` is what its critical section writes; a
step that its position does not allow changes nothing. -/
def step (update : Nat → α → α) (system : System α) : LockOp → System α
  | .lock cpu =>
      match system.pc cpu with
      | .idle => system.setPc cpu .spinning
      | _ => system
  | .spin cpu =>
      match system.pc cpu with
      | .spinning =>
          let (acquired, lock) := system.lock.compareExchange
          { system with lock }.setPc cpu (if acquired then .acquired else .spinning)
      | _ => system
  | .tryLock cpu =>
      match system.pc cpu with
      | .idle =>
          let (acquired, lock) := system.lock.tryLock
          { system with lock }.setPc cpu (if acquired then .acquired else .idle)
      | _ => system
  | .read cpu =>
      match system.pc cpu with
      | .acquired => system.setPc cpu (.read system.lock.data)
      | _ => system
  | .write cpu =>
      match system.pc cpu with
      | .read value =>
          { system with
            lock := { system.lock with data := update cpu value }
            writers := system.writers ++ [cpu] }.setPc cpu .written
      | _ => system
  | .drop cpu =>
      if (system.pc cpu).holds then { system with lock := system.lock.unlock }.setPc cpu .idle
      else system

def run (update : Nat → α → α) (system : System α) (ops : List LockOp) : System α :=
  StepMachine.run (step update) system ops

@[simp] theorem pc_setPc (system : System α) (cpu : Nat) (pc : Pc α) (other : Nat) :
    (system.setPc cpu pc).pc other = if other = cpu then pc else system.pc other :=
  Function.update_apply system.pc cpu pc other

@[simp] theorem lock_setPc (system : System α) (cpu : Nat) (pc : Pc α) :
    (system.setPc cpu pc).lock = system.lock :=
  rfl

theorem setPc_self (system : System α) (cpu : Nat) : system.setPc cpu (system.pc cpu) = system := by
  unfold setPc
  rw [Function.update_eq_self]

/-! One lemma per kind of step, each saying all that the step can do. -/

variable (update : Nat → α → α) (system : System α) (cpu : Nat)

open Classical in
theorem step_lock :
    system.step update (.lock cpu) =
      if system.pc cpu = .idle then system.setPc cpu .spinning else system := by
  simp only [step]
  split <;> simp_all

open Classical in
theorem step_spin :
    system.step update (.spin cpu) =
      if system.pc cpu = .spinning ∧ system.lock.locked = false then
        { system with lock := { system.lock with locked := true } }.setPc cpu .acquired
      else system := by
  simp only [step]
  split
  · rename_i spinning
    by_cases unlocked : system.lock.locked = false
    · simp [SpinLock.compareExchange, unlocked, spinning]
    · have blocked : ¬ (system.pc cpu = .spinning ∧ system.lock.locked = false) :=
        fun both => unlocked both.2
      have failed : system.lock.compareExchange = (false, system.lock) := by
        simp [SpinLock.compareExchange, unlocked]
      simp only [failed, Bool.false_eq_true, if_false, blocked]
      rw [← spinning]
      exact setPc_self system cpu
  · simp_all

open Classical in
theorem step_tryLock :
    system.step update (.tryLock cpu) =
      if system.pc cpu = .idle ∧ system.lock.locked = false then
        { system with lock := { system.lock with locked := true } }.setPc cpu .acquired
      else system := by
  simp only [step]
  split
  · rename_i isIdle
    by_cases unlocked : system.lock.locked = false
    · simp [SpinLock.tryLock, SpinLock.compareExchange, unlocked, isIdle]
    · have blocked : ¬ (system.pc cpu = .idle ∧ system.lock.locked = false) :=
        fun both => unlocked both.2
      have failed : system.lock.tryLock = (false, system.lock) := by
        simp [SpinLock.tryLock, SpinLock.compareExchange, unlocked]
      simp only [failed, Bool.false_eq_true, if_false, blocked]
      rw [← isIdle]
      exact setPc_self system cpu
  · simp_all

open Classical in
theorem step_read :
    system.step update (.read cpu) =
      if system.pc cpu = .acquired then system.setPc cpu (.read system.lock.data) else system := by
  simp only [step]
  split <;> simp_all

theorem step_write_of_read {value : α} (reading : system.pc cpu = .read value) :
    system.step update (.write cpu) =
      { system with
        lock := { system.lock with data := update cpu value }
        writers := system.writers ++ [cpu] }.setPc cpu .written := by
  simp only [step, reading]

theorem step_write_of_not_read (notReading : ∀ value, system.pc cpu ≠ .read value) :
    system.step update (.write cpu) = system := by
  cases reading : system.pc cpu with
  | read value => exact absurd reading (notReading value)
  | _ => simp only [step, reading]

theorem step_drop :
    system.step update (.drop cpu) =
      if (system.pc cpu).holds then { system with lock := system.lock.unlock }.setPc cpu .idle
      else system :=
  rfl

end System

/-! ### Mutual exclusion -/

/-- The updates of the given CPUs applied in order. -/
def applied {α : Type} (update : Nat → α → α) (initial : α) (writers : List Nat) : α :=
  writers.foldl (fun data cpu => update cpu data) initial

theorem applied_concat {α : Type} (update : Nat → α → α) (initial : α) (writers : List Nat)
    (cpu : Nat) : applied update initial (writers ++ [cpu]) = update cpu (applied update initial writers) := by
  rw [applied, List.foldl_concat]
  rfl

/-- At most one CPU holds a guard, and the data is the written updates applied in
order. -/
structure Exclusive {α : Type} (update : Nat → α → α) (initial : α) (system : System α) : Prop where
  unique : ∀ cpu other, (system.pc cpu).holds = true → (system.pc other).holds = true → cpu = other
  locked_iff : system.lock.locked = true ↔ ∃ cpu, (system.pc cpu).holds = true
  current : ∀ cpu value, system.pc cpu = .read value → value = system.lock.data
  data_eq : system.lock.data = applied update initial system.writers

namespace Exclusive

variable {α : Type} {update : Nat → α → α} {initial : α} {system : System α}

theorem start : Exclusive update initial (System.start initial) where
  unique := by simp [System.start, Pc.holds]
  locked_iff := by simp [System.start, SpinLock.new, Pc.holds]
  current := by simp [System.start]
  data_eq := rfl

theorem free (exclusive : Exclusive update initial system) (unlocked : system.lock.locked = false)
    (cpu : Nat) : (system.pc cpu).holds = false := by
  cases holding : (system.pc cpu).holds
  · rfl
  · have locked := exclusive.locked_iff.mpr ⟨cpu, holding⟩
    rw [unlocked] at locked
    exact absurd locked Bool.false_ne_true

theorem setPc_waiting (exclusive : Exclusive update initial system) {cpu : Nat} {pc : Pc α}
    (wasFree : (system.pc cpu).holds = false) (staysFree : pc.holds = false) :
    Exclusive update initial (system.setPc cpu pc) := by
  have unchanged : ∀ other, ((system.setPc cpu pc).pc other).holds = (system.pc other).holds := by
    intro other
    by_cases same : other = cpu
    · subst same
      simp [wasFree, staysFree]
    · simp [same]
  refine ⟨fun one two => ?_, ?_, fun other value => ?_, exclusive.data_eq⟩
  · rw [unchanged, unchanged]
    exact exclusive.unique one two
  · simp only [System.lock_setPc, unchanged]
    exact exclusive.locked_iff
  · by_cases same : other = cpu
    · subst same
      intro reading
      simp only [System.pc_setPc, if_true] at reading
      subst reading
      simp [Pc.holds] at staysFree
    · simp only [System.pc_setPc, if_neg same]
      exact exclusive.current other value

theorem acquire (exclusive : Exclusive update initial system) (unlocked : system.lock.locked = false)
    (cpu : Nat) :
    Exclusive update initial
      ({ system with lock := { system.lock with locked := true } }.setPc cpu .acquired) := by
  have noHolder := exclusive.free unlocked
  have holds : ∀ other, ((({ system with lock := { system.lock with locked := true } } : System α).setPc
      cpu .acquired).pc other).holds = true ↔ other = cpu := by
    intro other
    by_cases same : other = cpu
    · simp [same, Pc.holds]
    · simp [same, noHolder other]
  refine ⟨fun one two oneHolds twoHolds => ?_, ?_, fun other value reading => ?_, exclusive.data_eq⟩
  · rw [(holds one).mp oneHolds, (holds two).mp twoHolds]
  · simp only [System.lock_setPc, true_iff]
    exact ⟨cpu, (holds cpu).mpr rfl⟩
  · have holding : ((system.pc other).holds) = true := by
      by_cases same : other = cpu
      · simp [same] at reading
      · simp only [System.pc_setPc, if_neg same] at reading
        simp [reading, Pc.holds]
    rw [noHolder other] at holding
    exact absurd holding Bool.false_ne_true

theorem setPc_holding (exclusive : Exclusive update initial system) {cpu : Nat} {pc : Pc α}
    (holding : (system.pc cpu).holds = true) (stillHolds : pc.holds = true) (data : α)
    (writers : List Nat) (dataEq : data = applied update initial writers)
    (readCurrent : ∀ value, pc = .read value → value = data) :
    Exclusive update initial
      ({ system with lock := { system.lock with data }, writers }.setPc cpu pc) := by
  have holders : ∀ other, ((({ system with lock := { system.lock with data }, writers } : System α).setPc
      cpu pc).pc other).holds = (system.pc other).holds := by
    intro other
    by_cases same : other = cpu
    · subst same
      simp [holding, stillHolds]
    · simp [same]
  refine ⟨fun one two => ?_, ?_, fun other value reading => ?_, dataEq⟩
  · rw [holders, holders]
    exact exclusive.unique one two
  · simp only [System.lock_setPc, holders]
    exact exclusive.locked_iff
  · by_cases same : other = cpu
    · subst same
      simp only [System.pc_setPc, if_true] at reading
      exact readCurrent value reading
    · simp only [System.pc_setPc, if_neg same] at reading
      have otherHolds : (system.pc other).holds = true := by simp [reading, Pc.holds]
      exact absurd (exclusive.unique other cpu otherHolds holding) same

theorem release (exclusive : Exclusive update initial system) {cpu : Nat}
    (holding : (system.pc cpu).holds = true) :
    Exclusive update initial ({ system with lock := system.lock.unlock }.setPc cpu .idle) := by
  have onlyHolder : ∀ other, (system.pc other).holds = true → other = cpu :=
    fun other otherHolds => exclusive.unique other cpu otherHolds holding
  have noneLeft : ∀ other, ((({ system with lock := system.lock.unlock } : System α).setPc
      cpu .idle).pc other).holds = false := by
    intro other
    by_cases same : other = cpu
    · simp [same, Pc.holds]
    · simp only [System.pc_setPc, if_neg same]
      cases otherHolds : (system.pc other).holds
      · rfl
      · exact absurd (onlyHolder other otherHolds) same
  refine ⟨fun one _ oneHolds => ?_, ?_, fun other value reading => ?_, exclusive.data_eq⟩
  · rw [noneLeft one] at oneHolds
    exact absurd oneHolds Bool.false_ne_true
  · constructor
    · intro locked
      simp [SpinLock.unlock] at locked
    · rintro ⟨other, otherHolds⟩
      rw [noneLeft other] at otherHolds
      exact absurd otherHolds Bool.false_ne_true
  · have idle : ((({ system with lock := system.lock.unlock } : System α).setPc
        cpu .idle).pc other).holds = false := noneLeft other
    rw [reading] at idle
    cases idle

end Exclusive

theorem Exclusive.step {α : Type} {update : Nat → α → α} {initial : α} {system : System α}
    (exclusive : Exclusive update initial system) (op : LockOp) :
    Exclusive update initial (system.step update op) := by
  cases op with
  | lock cpu =>
      rw [System.step_lock]
      split
      · rename_i isIdle
        exact exclusive.setPc_waiting (by simp [isIdle, Pc.holds]) rfl
      · exact exclusive
  | spin cpu =>
      rw [System.step_spin]
      split
      · rename_i free
        exact exclusive.acquire free.2 cpu
      · exact exclusive
  | tryLock cpu =>
      rw [System.step_tryLock]
      split
      · rename_i free
        exact exclusive.acquire free.2 cpu
      · exact exclusive
  | read cpu =>
      rw [System.step_read]
      split
      · rename_i acquired
        have holding : (system.pc cpu).holds = true := by simp [acquired, Pc.holds]
        exact exclusive.setPc_holding holding rfl system.lock.data system.writers
          exclusive.data_eq (fun value reading => (Pc.read.inj reading).symm)
      · exact exclusive
  | write cpu =>
      by_cases reading : ∃ value, system.pc cpu = .read value
      · obtain ⟨value, reading⟩ := reading
        rw [System.step_write_of_read update system cpu reading]
        have holding : (system.pc cpu).holds = true := by simp [reading, Pc.holds]
        -- what the writer read is still the data, so its update lands on every earlier one
        have dataEq : update cpu value = applied update initial (system.writers ++ [cpu]) := by
          rw [applied_concat, ← exclusive.data_eq, exclusive.current cpu value reading]
        exact exclusive.setPc_holding holding rfl _ _ dataEq (fun _ reading => by cases reading)
      · rw [System.step_write_of_not_read update system cpu (fun value same => reading ⟨value, same⟩)]
        exact exclusive
  | drop cpu =>
      rw [System.step_drop]
      split
      · rename_i holding
        exact exclusive.release holding
      · exact exclusive

theorem Exclusive.run {α : Type} (update : Nat → α → α) (initial : α) (ops : List LockOp) :
    Exclusive update initial ((System.start initial).run update ops) :=
  Invariant.run (P := Exclusive update initial) (fun _ op exclusive => exclusive.step op)
    Exclusive.start ops

/-- Whatever CPUs run critical sections on a spinlock and however their steps
interleave, at most one CPU holds a guard at a time; `is_locked` holds exactly
when one does; a spinning CPU's next exchange succeeds exactly when no CPU
holds a guard; and the data is the initial value with every written update
applied in the order the writes took effect, so that no update is lost. -/
theorem spin_lock_serialises_updates {α : Type} (update : Nat → α → α) (initial : α)
    (ops : List LockOp) :
    let system := (System.start initial).run update ops
    (∀ cpu other, (system.pc cpu).holds = true → (system.pc other).holds = true → cpu = other) ∧
    (system.lock.isLocked = true ↔ ∃ cpu, (system.pc cpu).holds = true) ∧
    (∀ cpu, system.pc cpu = .spinning →
      ((system.step update (.spin cpu)).pc cpu = .acquired ↔ ∀ other, (system.pc other).holds = false)) ∧
    system.lock.data = system.writers.foldl (fun data cpu => update cpu data) initial := by
  intro system
  have exclusive : Exclusive update initial system := Exclusive.run update initial ops
  refine ⟨exclusive.unique, exclusive.locked_iff, fun cpu spinning => ?_, exclusive.data_eq⟩
  rw [System.step_spin]
  constructor
  · intro acquired
    have unlocked : system.lock.locked = false := by
      by_contra locked
      rw [if_neg (fun both => locked both.2), spinning] at acquired
      cases acquired
    exact exclusive.free unlocked
  · intro noHolder
    have unlocked : system.lock.locked = false := by
      cases locked : system.lock.locked
      · rfl
      · obtain ⟨holder, holding⟩ := exclusive.locked_iff.mp locked
        rw [noHolder holder] at holding
        exact absurd holding Bool.false_ne_true
    simp [spinning, unlocked]

/-- Two CPUs incrementing a counter, the second spinning while the first holds
the guard: both increments arrive. -/
example : ((System.start 0).run (fun _ count => count + 1)
    [.lock 0, .lock 1, .spin 0, .spin 1, .read 0, .write 0, .drop 0, .spin 1, .read 1, .write 1,
      .drop 1]).lock.data = 2 := by
  decide

end FangaOS.Smp
