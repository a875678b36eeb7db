import Mathlib.Logic.Function.Iterate
import FangaOS.Task.Scheduler

/-! Timer-driven preemption of `task/sched_timer.rs`. -/

namespace FangaOS.Sched

def timeSlice : UInt64 := 10

/-- `TICK_COUNTER` and the global scheduler that the timer drives. -/
structure SchedTimer where
  ticks : UInt64
  scheduler : Scheduler

/-- Whether a call made in this state invokes `Scheduler::schedule`: the value
that `fetch_add` returns has reached the slice. -/
def SchedTimer.invokesSchedule (timer : SchedTimer) : Prop :=
  timeSlice ≤ timer.ticks

instance (timer : SchedTimer) : Decidable timer.invokesSchedule :=
  inferInstanceAs (Decidable (timeSlice ≤ timer.ticks))

def SchedTimer.scheduleOnTimer (timer : SchedTimer) : Bool × SchedTimer :=
  let tick := timer.ticks
  if tick ≥ timeSlice then
    let ((_, _, shouldSwitch), scheduler) := timer.scheduler.schedule
    (shouldSwitch, { ticks := 0, scheduler })
  else (false, { timer with ticks := tick + 1 })

def SchedTimer.getTicks (timer : SchedTimer) : UInt64 :=
  timer.ticks

def SchedTimer.resetTicks (timer : SchedTimer) : SchedTimer :=
  { timer with ticks := 0 }

def SchedTimer.afterCalls (timer : SchedTimer) (n : Nat) : SchedTimer :=
  (fun timer => timer.scheduleOnTimer.2)^[n] timer

def Scheduler.scheduled (scheduler : Scheduler) (count : Nat) : Scheduler :=
  (fun scheduler => scheduler.schedule.2)^[count] scheduler

theorem SchedTimer.scheduleOnTimer_of_invokes {timer : SchedTimer}
    (invokes : timer.invokesSchedule) :
    timer.scheduleOnTimer.2 = { ticks := 0, scheduler := timer.scheduler.schedule.2 } := by
  have reached : timer.ticks ≥ timeSlice := invokes
  unfold scheduleOnTimer
  dsimp only
  rw [if_pos reached]

theorem SchedTimer.scheduleOnTimer_of_not_invokes {timer : SchedTimer}
    (waits : ¬ timer.invokesSchedule) :
    timer.scheduleOnTimer.2 = { timer with ticks := timer.ticks + 1 } := by
  have below : ¬ timer.ticks ≥ timeSlice := waits
  unfold scheduleOnTimer
  dsimp only
  rw [if_neg below]

theorem SchedTimer.afterCalls_succ (timer : SchedTimer) (n : Nat) :
    timer.afterCalls (n + 1) = (timer.afterCalls n).scheduleOnTimer.2 :=
  Function.iterate_succ_apply' _ n timer

theorem Scheduler.scheduled_succ (scheduler : Scheduler) (count : Nat) :
    scheduler.scheduled (count + 1) = (scheduler.scheduled count).schedule.2 :=
  Function.iterate_succ_apply' _ count scheduler

theorem SchedTimer.afterCalls_of_reset {timer : SchedTimer} (reset : timer.ticks = 0) (n : Nat) :
    (timer.afterCalls n).ticks.toNat = n % 11 ∧
      (timer.afterCalls n).scheduler = timer.scheduler.scheduled (n / 11) := by
  induction n with
  | zero =>
      refine ⟨?_, rfl⟩
      show timer.ticks.toNat = 0 % 11
      rw [reset]
      rfl
  | succ n ih =>
      obtain ⟨ticks, scheduled⟩ := ih
      rw [afterCalls_succ]
      by_cases invokes : (timer.afterCalls n).invokesSchedule
      · -- the counter has reached the slice: this is call `11 * k`
        have last : n % 11 = 10 := by
          unfold invokesSchedule timeSlice at invokes
          rw [UInt64.le_iff_toNat_le, ticks] at invokes
          have := Nat.mod_lt n (by decide : 0 < 11)
          simp only [UInt64.reduceToNat] at invokes
          omega
        have more : (n + 1) / 11 = n / 11 + 1 := by omega
        rw [scheduleOnTimer_of_invokes invokes, more, Scheduler.scheduled_succ, ← scheduled]
        exact ⟨by simp only [UInt64.toNat_zero]; omega, rfl⟩
      · have below : n % 11 < 10 := by
          unfold invokesSchedule timeSlice at invokes
          rw [UInt64.le_iff_toNat_le, ticks] at invokes
          simp only [UInt64.reduceToNat] at invokes
          omega
        have same : (n + 1) / 11 = n / 11 := by omega
        rw [scheduleOnTimer_of_not_invokes invokes, same]
        refine ⟨?_, scheduled⟩
        rw [UInt64.toNat_add, ticks]
        simp only [UInt64.reduceToNat]
        omega

theorem SchedTimer.invokesSchedule_afterCalls {timer : SchedTimer} (reset : timer.ticks = 0)
    (k : Nat) : (timer.afterCalls k).invokesSchedule ↔ (k + 1) % 11 = 0 := by
  have ticks := (afterCalls_of_reset reset k).1
  unfold invokesSchedule timeSlice
  rw [UInt64.le_iff_toNat_le, ticks]
  simp only [UInt64.reduceToNat]
  omega

theorem sched_timer_slice_lasts_eleven_calls (timer : SchedTimer) :
    let start : SchedTimer := timer.resetTicks
    (∀ k < 10, ¬ (start.afterCalls k).invokesSchedule) ∧
      (start.afterCalls 10).getTicks = 10 ∧
      (start.afterCalls 10).scheduler = timer.scheduler ∧
      (start.afterCalls 10).invokesSchedule := by
  intro start
  have reset : start.ticks = 0 := rfl
  obtain ⟨ticks, scheduled⟩ := SchedTimer.afterCalls_of_reset reset 10
  refine ⟨fun k below => ?_, ?_, scheduled, ?_⟩
  · rw [SchedTimer.invokesSchedule_afterCalls reset]
    omega
  · exact UInt64.toNat_inj.mp ticks
  · exact (SchedTimer.invokesSchedule_afterCalls reset 10).mpr rfl

end FangaOS.Sched
