import BackupEngine.Cpp.Vector

/-!
# The queue

The operations of `tsqueue`, each run under its lock. The deque is a list, its front first. What the locks and the condition
variable do when threads interleave is in `TsQueueThreads`.
-/

namespace Netzwerk

open Cpp

namespace TsQueue

variable {α : Type}

/-- `tsqueue::front`. -/
def front : List α → Comp α
  | [] => .error .badAccess
  | a :: _ => .ok a

/-- `tsqueue::pop_front`: the element and the queue without it. -/
def popFront : List α → Comp (α × List α)
  | [] => .error .badAccess
  | a :: as => .ok (a, as)

theorem popFront_eq_ok {a : α} {q q' : List α} : popFront q = .ok (a, q') ↔ q = a :: q' := by
  constructor
  · intro h
    cases q with
    | nil => cases h
    | cons b q =>
      cases h
      rfl
  · rintro rfl
    rfl

/-- `tsqueue::push_back`. -/
def pushBack (q : List α) (item : α) : List α := q ++ [item]

/-- `tsqueue::push_front`. -/
def pushFront (q : List α) (item : α) : List α := item :: q

/-- `tsqueue::empty`. -/
def empty (q : List α) : Bool := q.isEmpty

end TsQueue

end Netzwerk
