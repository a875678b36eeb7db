import Mathlib.Data.List.Induction
import Mathlib.Data.List.Nodup

/-! An abstract least-recently-used order, least recent first.  Replayed from the
empty list it orders its keys by their last touch. -/

namespace LruOrder

variable {α : Type*} [DecidableEq α]

/-- Bring `key` to the most recent end of `order`, evicting the least recent
key when a new key finds `capacity` keys already there. -/
def touch (capacity : Nat) (order : List α) (key : α) : List α :=
  if key ∈ order then order.erase key ++ [key]
  else (if capacity ≤ order.length then order.tail else order) ++ [key]

inductive Event (α : Type*)
  | touch (key : α)
  | forget (key : α)
  deriving DecidableEq

def apply (capacity : Nat) (order : List α) : Event α → List α
  | .touch key => touch capacity order key
  | .forget key => order.erase key

/-- One more than the position of the last touch of `key` in `events`, and
zero when `key` was never touched. -/
def lastTouch (events : List (Event α)) (key : α) : Nat :=
  match events.reverse.findIdx? (fun event => decide (event = .touch key)) with
  | some back => events.length - back
  | none => 0

/-- The order lists keys that were touched, by increasing last touch. -/
structure RecencyOrdered (events : List (Event α)) (order : List α) : Prop where
  sorted : order.Pairwise (fun older newer => lastTouch events older < lastTouch events newer)
  touched : ∀ key ∈ order, 0 < lastTouch events key

theorem RecencyOrdered.nodup {events : List (Event α)} {order : List α}
    (ordered : RecencyOrdered events order) : order.Nodup :=
  ordered.sorted.imp (fun before same => by rw [same] at before; exact Nat.lt_irrefl _ before)

theorem RecencyOrdered.sublist {events : List (Event α)} {order shorter : List α}
    (ordered : RecencyOrdered events order) (sub : shorter.Sublist order) :
    RecencyOrdered events shorter :=
  ⟨ordered.sorted.sublist sub, fun key inShorter => ordered.touched key (sub.subset inShorter)⟩

end LruOrder
