import Mathlib

/-! Runs of a deterministic machine, and the invariant and simulation rules that
carry a fact along every run. -/

namespace StepMachine

variable {σ τ ω : Type*}

def run (step : σ → ω → σ) (s : σ) (ops : List ω) : σ :=
  ops.foldl step s

@[simp] theorem run_nil (step : σ → ω → σ) (s : σ) : run step s [] = s := rfl

@[simp] theorem run_cons (step : σ → ω → σ) (s : σ) (op : ω) (ops : List ω) :
    run step s (op :: ops) = run step (step s op) ops := rfl

theorem run_append (step : σ → ω → σ) (s : σ) (ops more : List ω) :
    run step s (ops ++ more) = run step (run step s ops) more :=
  List.foldl_append

theorem run_concat (step : σ → ω → σ) (s : σ) (ops : List ω) (op : ω) :
    run step s (ops ++ [op]) = step (run step s ops) op := by
  rw [run_append]
  rfl

/-- `P` is kept by every step of the machine. -/
def Invariant (step : σ → ω → σ) (P : σ → Prop) : Prop :=
  ∀ s op, P s → P (step s op)

theorem Invariant.run {step : σ → ω → σ} {P : σ → Prop}
    (preserved : Invariant step P) {s : σ} (initial : P s) (ops : List ω) :
    P (StepMachine.run step s ops) := by
  induction ops generalizing s with
  | nil => exact initial
  | cons op ops ih => exact ih (preserved s op initial)

theorem run_of_history {step : σ → ω → σ} {P : List ω → σ → Prop} {s : σ}
    (initial : P [] s) (extend : ∀ ops t op, P ops t → P (ops ++ [op]) (step t op))
    (ops : List ω) : P ops (StepMachine.run step s ops) := by
  induction ops using List.reverseRecOn with
  | nil => exact initial
  | append_singleton ops op ih =>
      rw [run_concat]
      exact extend ops _ op ih

theorem run_of_allowed {step : σ → ω → σ} {P : σ → Prop} {allowed : ω → Prop}
    (preserved : ∀ s op, allowed op → P s → P (step s op)) {s : σ} (initial : P s)
    {ops : List ω} (all : ∀ op ∈ ops, allowed op) : P (StepMachine.run step s ops) := by
  induction ops generalizing s with
  | nil => exact initial
  | cons op ops ih =>
      exact ih (preserved s op (all op List.mem_cons_self) initial)
        fun later member => all later (List.mem_cons_of_mem _ member)

/-- Every operation of a run is allowed in the state that it is performed in. -/
def AllowedAlong (step : σ → ω → σ) (allowed : σ → ω → Prop) : σ → List ω → Prop
  | _, [] => True
  | s, op :: ops => allowed s op ∧ AllowedAlong step allowed (step s op) ops

theorem run_of_allowedAlong {step : σ → ω → σ} {P : σ → Prop} {allowed : σ → ω → Prop}
    (preserved : ∀ s op, allowed s op → P s → P (step s op)) {s : σ} (initial : P s)
    {ops : List ω} (along : AllowedAlong step allowed s ops) : P (StepMachine.run step s ops) := by
  induction ops generalizing s with
  | nil => exact initial
  | cons op ops ih => exact ih (preserved s op along.1 initial) along.2

theorem spent_run {step : σ → ω → σ} (spent : σ → Nat) (cost : ω → Nat)
    (spentStep : ∀ s op, spent (step s op) = spent s + cost op) :
    ∀ (ops : List ω) (s : σ), spent (StepMachine.run step s ops) = spent s + (ops.map cost).sum
  | [], _ => rfl
  | op :: ops, s => by
      rw [run_cons, spent_run spent cost spentStep ops (step s op), spentStep, List.map_cons,
        List.sum_cons, Nat.add_assoc]

theorem run_of_budget {step : σ → ω → σ} {P : σ → Prop} (spent : σ → Nat) (cost : ω → Nat)
    (budget : Nat) (spentStep : ∀ s op, spent (step s op) = spent s + cost op)
    (preserved : ∀ s op, spent s + cost op ≤ budget → P s → P (step s op)) :
    ∀ (ops : List ω) (s : σ), P s → spent s + (ops.map cost).sum ≤ budget →
      P (StepMachine.run step s ops)
  | [], _, initial, _ => initial
  | op :: ops, s, initial, fits => by
      rw [List.map_cons, List.sum_cons] at fits
      have next := preserved s op (by omega) initial
      exact run_of_budget spent cost budget spentStep preserved ops (step s op) next
        (by rw [spentStep]; omega)

/-- `R` relates a state of the first machine to a state of the second, and
every common operation keeps it. -/
def Simulation (step : σ → ω → σ) (astep : τ → ω → τ) (R : σ → τ → Prop) : Prop :=
  ∀ s a op, R s a → R (step s op) (astep a op)

theorem Simulation.run {step : σ → ω → σ} {astep : τ → ω → τ} {R : σ → τ → Prop}
    (preserved : Simulation step astep R) {s : σ} {a : τ} (related : R s a)
    (ops : List ω) :
    R (StepMachine.run step s ops) (StepMachine.run astep a ops) := by
  induction ops generalizing s a with
  | nil => exact related
  | cons op ops ih => exact ih (preserved s a op related)

/-- The state after a call that returns its result together with the new state,
or fails and leaves the state as it was. -/
def afterCall {ε α : Type*} (s : σ) : Except ε (α × σ) → σ
  | .ok (_, s') => s'
  | .error _ => s

theorem afterCall_preserves {ε α : Type*} {P : σ → Prop} {s : σ}
    {call : Except ε (α × σ)} (initial : P s)
    (success : ∀ result s', call = .ok (result, s') → P s') :
    P (afterCall s call) := by
  cases call with
  | error failure => exact initial
  | ok pair => exact success pair.1 pair.2 rfl

/-! ### Computations in `Except`

A computation in `Except` is peeled apart through these equivalences rather than
by unfolding `Except.bind`. -/

section Except

universe u

variable {ε ε' : Type*} {α β : Type u}

theorem bind_eq_ok {x : Except ε α} {f : α → Except ε β} {b : β} :
    x >>= f = .ok b ↔ ∃ a, x = .ok a ∧ f a = .ok b := by
  cases x <;> simp [bind, Except.bind]

theorem bind_eq_error {x : Except ε α} {f : α → Except ε β} {e : ε} :
    x >>= f = .error e ↔ x = .error e ∨ ∃ a, x = .ok a ∧ f a = .error e := by
  cases x <;> simp [bind, Except.bind]

theorem mapError_eq_ok {x : Except ε α} {f : ε → ε'} {a : α} :
    x.mapError f = .ok a ↔ x = .ok a := by
  cases x <;> simp [Except.mapError]

theorem mapError_eq_error {x : Except ε α} {f : ε → ε'} {e : ε'} :
    x.mapError f = .error e ↔ ∃ e₀, x = .error e₀ ∧ f e₀ = e := by
  cases x <;> simp [Except.mapError]

theorem foldlM_error_of {f : β → α → Except ε β} {P : ε → Prop}
    (steps : ∀ b a e, f b a = .error e → P e) :
    ∀ (items : List α) (b : β) (e : ε), items.foldlM f b = .error e → P e
  | [], _, _, failed => by cases failed
  | a :: items, b, e, failed => by
      rw [List.foldlM_cons] at failed
      rcases bind_eq_error.mp failed with first | ⟨b', _, rest⟩
      · exact steps b a e first
      · exact foldlM_error_of steps items b' e rest

theorem foldlM_range_of {f : β → Nat → Except ε β} {P : Nat → β → Prop} {start : β}
    (initial : P 0 start) (turn : ∀ n b b', P n b → f b n = .ok b' → P (n + 1) b') :
    ∀ (count : Nat) (b : β), (List.range count).foldlM f start = .ok b → P count b
  | 0, _, looped => by
      cases looped
      exact initial
  | count + 1, b, looped => by
      rw [List.range_succ, List.foldlM_append] at looped
      obtain ⟨middle, earlier, last⟩ := bind_eq_ok.mp looped
      simp only [List.foldlM_cons, List.foldlM_nil, bind_pure] at last
      exact turn count middle b (foldlM_range_of initial turn count middle earlier) last

end Except

/-- A machine whose step may halt it, as a panic does: `none` is the halted
state, and every later step keeps it. -/
def haltingStep (step : σ → ω → Option σ) : Option σ → ω → Option σ
  | some s, op => step s op
  | none, _ => none

theorem Invariant.haltingRun {step : σ → ω → Option σ} {P : σ → Prop}
    (preserved : ∀ s op, P s → ∃ s', step s op = some s' ∧ P s') {s : σ} (initial : P s)
    (ops : List ω) : ∃ s', StepMachine.run (haltingStep step) (some s) ops = some s' ∧ P s' := by
  have lifted : Invariant (haltingStep step) (fun state => ∃ s', state = some s' ∧ P s') := by
    rintro _ op ⟨s', rfl, holds⟩
    exact preserved s' op holds
  exact lifted.run ⟨s, rfl, initial⟩ ops

theorem run_haltingStep_map {step : σ → ω → Option σ} {astep : τ → ω → τ} (f : τ → σ)
    (follows : ∀ t op, step (f t) op = some (f (astep t op))) (t : τ) (ops : List ω) :
    StepMachine.run (haltingStep step) (some (f t)) ops = some (f (StepMachine.run astep t ops)) := by
  induction ops generalizing t with
  | nil => rfl
  | cons op ops ih =>
      rw [run_cons, run_cons]
      show StepMachine.run (haltingStep step) (step (f t) op) ops = _
      rw [follows t op]
      exact ih (astep t op)

end StepMachine
