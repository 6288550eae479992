import BackupEngine.EventSystem.EventSystem

/-!
# Handing out events

An event is handed to the listeners one after another until one of them consumes it while it is usable: at once by
`addInstantTrigger`, or by the next `update` for the events that `addUpdateTrigger` queued. What a listener does with an
event is a parameter here. It may change its own state and any event, and it may queue further events while `update` runs
through the queue.
-/

namespace Events

open Cpp

/-- `a && b`: the second operand is evaluated when the first one is true. -/
def andAlso (a : Bool) (b : Comp Bool) : Comp Bool := if a then b else return false

/-- What the event system reads of an `Event`. -/
structure Event where
  usable : Bool
  destroy : Bool
  deriving DecidableEq, Repr

/-- What a call of `onEvent` leaves: whether it returned true, the events that exist then, the state of the listeners, and
the events it gave to `addUpdateTrigger`, in order. -/
structure Answer (σ : Type) where
  consumed : Bool
  events : Addr → Option Event
  world : σ
  triggered : List Addr := []

/-- `onEvent` of the listener at the first address, for the event at the second one. -/
abbrev OnEvent (σ : Type) := Addr → Addr → (Addr → Option Event) → σ → Comp (Answer σ)

/-- The event system with its queue, the events that exist, the state of the listeners, and the calls of `onEvent` made so
far: which listener was handed which event. -/
structure Dispatcher (σ : Type) extends EventSystem where
  onNextUpdate : List Addr := []
  events : Addr → Option Event
  world : σ
  calls : List (Addr × Addr) := []

namespace Dispatcher

variable {σ : Type}

/-- The event a pointer refers to. -/
def deref (s : Dispatcher σ) (e : Addr) : Comp Event :=
  match s.events e with
  | some event => .ok event
  | none => .error .badAccess

/-- `e->usable`. -/
def usable (s : Dispatcher σ) (e : Addr) : Comp Bool := do
  return (← s.deref e).usable

/-- `addUpdateTrigger`. -/
def addUpdateTrigger (s : Dispatcher σ) (e : Addr) : Dispatcher σ :=
  { s with onNextUpdate := s.onNextUpdate ++ [e] }

/-- `delete` of an event. -/
def delete (s : Dispatcher σ) (e : Addr) : Comp (Dispatcher σ) := do
  let _ ← s.deref e
  return { s with events := Function.update s.events e none }

section

variable (onEvent : OnEvent σ)

/-- `listener[i]->onEvent(e)`. -/
def call (s : Dispatcher σ) (listener e : Addr) : Comp (Bool × Dispatcher σ) := do
  let answer ← onEvent listener e s.events s.world
  let s := { s with events := answer.events, world := answer.world, calls := s.calls ++ [(listener, e)] }
  return (answer.consumed, answer.triggered.foldl addUpdateTrigger s)

/-- The loop of `addInstantTrigger` over the listeners that are left, the first of them at place `i`. -/
def instantLoop (e : Addr) : List Addr → Nat → Dispatcher σ → Comp (Dispatcher σ)
  | [], _, s => return s
  | l :: ls, i, s => do
    let (consumed, s) ← s.call onEvent l e
    let stop ← andAlso consumed (s.usable e)
    if stop then return s
    let _ ← int (i + 1)
    instantLoop e ls (i + 1) s

/-- `addInstantTrigger`. -/
def addInstantTrigger (s : Dispatcher σ) (e : Addr) : Comp (Dispatcher σ) := instantLoop onEvent e s.listener 0 s

/-- The inner loop of `update`, for the event at place `i` of the queue; the first of the listeners left is at place `j`. The
event is read from the queue each time. -/
def listenerLoop (i : Nat) : List Addr → Nat → Dispatcher σ → Comp (Dispatcher σ)
  | [], _, s => return s
  | l :: ls, j, s => do
    let (consumed, s) ← s.call onEvent l (← elemAt s.onNextUpdate i)
    let stop ← andAlso consumed (elemAt s.onNextUpdate i >>= s.usable)
    if stop then return s
    let _ ← int (j + 1)
    listenerLoop i ls (j + 1) s

/-- What `update` does after the listeners: an event that says so is deleted. -/
def discard (s : Dispatcher σ) (e : Addr) : Comp (Dispatcher σ) := do
  if (← s.deref e).destroy then s.delete e else return s

/-- The outer loop of `update` from place `i` of the queue on, `fuel` rounds of it at most: the listeners may queue events
for ever. -/
def queueLoop : Nat → Nat → Dispatcher σ → Comp (Option (Dispatcher σ))
  | 0, _, _ => return none
  | fuel + 1, i, s =>
    if i < s.onNextUpdate.length then do
      let s ← listenerLoop onEvent i s.listener 0 s
      let s ← s.discard (← elemAt s.onNextUpdate i)
      let _ ← int (i + 1)
      queueLoop fuel (i + 1) s
    else return some s

/-- `update`; nothing when it has not returned after `fuel` rounds. -/
def update (fuel : Nat) (s : Dispatcher σ) : Comp (Option (Dispatcher σ)) := do
  let s ← queueLoop onEvent fuel 0 s
  return s.map fun s => { s with onNextUpdate := [] }

end

end Dispatcher

end Events
