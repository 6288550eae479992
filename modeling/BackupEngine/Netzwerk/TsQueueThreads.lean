import BackupEngine.Lib.Transition
import BackupEngine.Netzwerk.TsQueue

/-!
# The queue under threads

`push_back`, `push_front`, `empty`, `wait` and `pop_front` of `tsqueue`, run by one consumer and any number of producers. The
steps are the regions the two mutexes protect: `empty` locks `muxQueue`, tests and unlocks it in one step; a push locks
`muxQueue` and inserts, then locks `muxBlocking` while it still holds `muxQueue`, then notifies and releases both.
-/

namespace Netzwerk

open Cpp Transition

/-- A thread that can hold a mutex. -/
inductive Thread where
  | consumer
  | producer (i : Nat)
  deriving DecidableEq, Repr

/-- Where the consumer is: outside of `wait`; about to test the queue; about to lock `muxBlocking`, having found it empty;
holding `muxBlocking`, about to block; blocked on `cvBlocking`; woken, about to lock `muxBlocking` again. -/
inductive WaitPlace where
  | outside
  | testing
  | locking
  | entering
  | blocked
  | waking
  deriving DecidableEq, Repr

/-- Where a producer is: outside of a push; past the insertion, holding `muxQueue`; holding both mutexes, about to notify. -/
inductive PushPlace where
  | outside
  | inserted
  | armed
  deriving DecidableEq, Repr

/-- A `tsqueue` and the threads that use it. -/
structure Threads (α : Type) where
  muxQueue : Option Thread := none
  muxBlocking : Option Thread := none
  deqQueue : List α := []
  consumer : WaitPlace := .outside
  producers : Nat → PushPlace := fun _ => .outside

/-- The steps. A producer can push again once it is outside; the consumer pops while it is outside, as `Update` does. -/
inductive ThreadEvent (α : Type) where
  /-- The consumer calls `wait`. -/
  | wait
  /-- It calls `empty`. -/
  | test
  /-- It locks `muxBlocking`. -/
  | lockBlocking
  /-- It blocks on `cvBlocking`, which releases `muxBlocking`. -/
  | block
  /-- It wakes up without having been notified. -/
  | wakeUp
  /-- It locks `muxBlocking` again, leaves the body of the loop and so releases it. -/
  | relock
  /-- It calls `pop_front`. -/
  | pop
  /-- A producer locks `muxQueue` and inserts, at the back or at the front. -/
  | insert (i : Nat) (front : Bool) (item : α)
  /-- It locks `muxBlocking`. -/
  | arm (i : Nat)
  /-- It calls `notify_one` and releases both mutexes. -/
  | notify (i : Nat)
  deriving DecidableEq, Repr

namespace Threads

variable {α : Type}

/-- Which steps can be taken. -/
def enabled (s : Threads α) : ThreadEvent α → Prop
  | .wait => s.consumer = .outside
  | .test => s.consumer = .testing ∧ s.muxQueue = none
  | .lockBlocking => s.consumer = .locking ∧ s.muxBlocking = none
  | .block => s.consumer = .entering
  | .wakeUp => s.consumer = .blocked
  | .relock => s.consumer = .waking ∧ s.muxBlocking = none
  | .pop => s.consumer = .outside ∧ s.muxQueue = none ∧ s.deqQueue ≠ []
  | .insert i _ _ => s.producers i = .outside ∧ s.muxQueue = none
  | .arm i => s.producers i = .inserted ∧ s.muxBlocking = none
  | .notify i => s.producers i = .armed

/-- What a step does. -/
def next (s : Threads α) : ThreadEvent α → Comp (Threads α)
  | .wait => .ok { s with consumer := .testing }
  | .test => .ok { s with consumer := if TsQueue.empty s.deqQueue then .locking else .outside }
  | .lockBlocking => .ok { s with consumer := .entering, muxBlocking := some .consumer }
  | .block => .ok { s with consumer := .blocked, muxBlocking := none }
  | .wakeUp => .ok { s with consumer := .waking }
  | .relock => .ok { s with consumer := .testing }
  | .pop => do
    let (_, q) ← TsQueue.popFront s.deqQueue
    return { s with deqQueue := q }
  | .insert i front item => .ok { s with
      muxQueue := some (.producer i)
      deqQueue := if front then TsQueue.pushFront s.deqQueue item else TsQueue.pushBack s.deqQueue item
      producers := Function.update s.producers i .inserted }
  | .arm i => .ok { s with
      muxBlocking := some (.producer i)
      producers := Function.update s.producers i .armed }
  | .notify i => .ok { s with
      muxQueue := none
      muxBlocking := none
      consumer := if s.consumer = .blocked then .waking else s.consumer
      producers := Function.update s.producers i .outside }

/-- The threads on the queue. -/
def machine : Machine Fault (Threads α) (ThreadEvent α) where
  enabled := enabled
  next := next

end Threads

end Netzwerk
