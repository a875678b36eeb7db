import Mathlib.Data.List.Basic

/-! First-in first-out delivery: what a queue has handed out, followed by what it
holds, is what it has taken in. -/

namespace Fifo

variable {α : Type*}

/-- Everything a queue has taken in and everything it has handed out, in order. -/
structure Log (α : Type*) where
  accepted : List α
  delivered : List α
  deriving DecidableEq, Repr

def Log.empty : Log α :=
  ⟨[], []⟩

def Log.accept (log : Log α) (items : List α) : Log α :=
  { log with accepted := log.accepted ++ items }

def Log.deliver (log : Log α) (items : List α) : Log α :=
  { log with delivered := log.delivered ++ items }

/-- The queue holds what was taken in and not yet handed out. -/
def Log.Accounts (log : Log α) (queue : List α) : Prop :=
  log.delivered ++ queue = log.accepted

variable {log : Log α} {queue : List α}

theorem accounts_empty : (Log.empty : Log α).Accounts [] :=
  rfl

theorem Log.Accounts.accept (accounts : log.Accounts queue) (items : List α) :
    (log.accept items).Accounts (queue ++ items) := by
  unfold Log.Accounts Log.accept
  rw [← accounts, List.append_assoc]

theorem Log.Accounts.deliver {taken rest : List α} (accounts : log.Accounts (taken ++ rest)) :
    (log.deliver taken).Accounts rest := by
  unfold Log.Accounts Log.deliver
  rw [List.append_assoc, accounts]

theorem Log.Accounts.deliver_take (accounts : log.Accounts queue) (count : Nat) :
    (log.deliver (queue.take count)).Accounts (queue.drop count) := by
  rw [← List.take_append_drop count queue] at accounts
  exact accounts.deliver

theorem Log.Accounts.queue_eq (accounts : log.Accounts queue) :
    queue = log.accepted.drop log.delivered.length := by
  rw [← accounts, List.drop_left]

theorem Log.Accounts.length_queue (accounts : log.Accounts queue) :
    queue.length = log.accepted.length - log.delivered.length := by
  rw [accounts.queue_eq, List.length_drop]

/-! ### Delivery in batches of one size

A queue that hands out its elements in batches of a fixed size, as a barrier
releases its waiters, has handed out consecutive slices of its input. -/

section Batches

variable {batches : List (List α)} {size : Nat}

theorem length_flatten_of_sized (sized : ∀ batch ∈ batches, batch.length = size) :
    batches.flatten.length = batches.length * size := by
  induction batches with
  | nil => simp
  | cons first others ih =>
      have othersSized : ∀ batch ∈ others, batch.length = size :=
        fun batch member => sized batch (List.mem_cons_of_mem first member)
      rw [List.flatten_cons, List.length_append, sized first List.mem_cons_self,
        ih othersSized, List.length_cons, Nat.add_one_mul, Nat.add_comm]

theorem batch_eq_take_drop (sized : ∀ batch ∈ batches, batch.length = size) (rest : List α)
    {index : Nat} (within : index < batches.length) :
    batches[index] = ((batches.flatten ++ rest).drop (index * size)).take size := by
  induction batches generalizing index with
  | nil => simp at within
  | cons first others ih =>
      have firstSized : first.length = size := sized first List.mem_cons_self
      have othersSized : ∀ batch ∈ others, batch.length = size :=
        fun batch member => sized batch (List.mem_cons_of_mem first member)
      cases index with
      | zero => simp [← firstSized]
      | succ index =>
          have inOthers : index < others.length := by simpa using within
          have skip : (first ++ (others.flatten ++ rest)).drop ((index + 1) * size) =
              (others.flatten ++ rest).drop (index * size) := by
            rw [Nat.add_one_mul, Nat.add_comm, ← List.drop_drop, List.drop_left' firstSized]
          rw [List.getElem_cons_succ, ih othersSized inOthers, List.flatten_cons,
            List.append_assoc, skip]

end Batches

end Fifo
