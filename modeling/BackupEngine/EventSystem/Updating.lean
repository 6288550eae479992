import BackupEngine.EventSystem.Dispatch
import BackupEngine.Lib.Transition

/-!
# Updates step by step

Events can be queued between two updates, and by a listener while one runs. The machine below interleaves the two: `update`
is cut at the points where a listener is called, and what the listener answers is part of the run.
-/

namespace Events

open Cpp Transition

/-- Where `update` is: not called, at the head of the outer loop with `i`, at the head of the inner one with `j`, in the call
of `onEvent`, or past the inner loop. -/
inductive Phase where
  | idle
  | atEntry (i : Nat)
  | asking (i j : Nat)
  | calling (i j : Nat)
  | served (i : Nat)
  deriving DecidableEq, Repr

/-- The event system while it updates, and the events that exist. -/
structure Updating where
  listener : List Addr
  onNextUpdate : List Addr := []
  events : Addr → Option Event
  phase : Phase := .idle

/-- What can happen: an event is queued or has its `usable` written, `update` is called, takes its next step, or a listener
returns. -/
inductive UpdateStep where
  | addUpdateTrigger (e : Addr)
  | writeUsable (e : Addr) (usable : Bool)
  | update
  | proceed
  | onEvent (consumed : Bool)
  deriving DecidableEq, Repr

namespace Updating

/-- The event that an entry of the queue points to. -/
def entry (s : Updating) (i : Nat) : Comp (Addr × Event) := do
  let e ← elemAt s.onNextUpdate i
  match s.events e with
  | some event => return (e, event)
  | none => .error .badAccess

/-- Code outside of `update` runs: between two calls of it, or in a listener it calls. -/
def Outside (s : Updating) : Prop := s.phase = .idle ∨ ∃ i j, s.phase = .calling i j

/-- Only events that exist are queued or written. -/
def enabled (s : Updating) : UpdateStep → Prop
  | .addUpdateTrigger e | .writeUsable e _ => s.Outside ∧ ∃ event, s.events e = some event
  | .update => s.phase = .idle
  | .proceed => ¬s.Outside
  | .onEvent _ => ∃ i j, s.phase = .calling i j

/-- The next step of `update`. An event that is handed to a listener has to exist; one that says so is deleted after the
listeners. -/
def proceed (s : Updating) : Comp Updating :=
  match s.phase with
  | .atEntry i =>
    if i < s.onNextUpdate.length then .ok { s with phase := .asking i 0 }
    else .ok { s with onNextUpdate := [], phase := .idle }
  | .asking i j =>
    if j < s.listener.length then do
      let _ ← s.entry i
      return { s with phase := .calling i j }
    else .ok { s with phase := .served i }
  | .served i => do
    let (e, event) ← s.entry i
    let events := if event.destroy then Function.update s.events e none else s.events
    let _ ← int (i + 1)
    return { s with events, phase := .atEntry (i + 1) }
  | .idle | .calling _ _ => .ok s

/-- A listener returns: `update` breaks off if it consumed the event and the event is usable. -/
def returned (s : Updating) (consumed : Bool) : Comp Updating :=
  match s.phase with
  | .calling i j => do
    let stop ← andAlso consumed (do return (← s.entry i).2.usable)
    if stop then return { s with phase := .served i }
    let _ ← int (j + 1)
    return { s with phase := .asking i (j + 1) }
  | _ => .ok s

def next (s : Updating) : UpdateStep → Comp Updating
  | .addUpdateTrigger e => .ok { s with onNextUpdate := s.onNextUpdate ++ [e] }
  | .writeUsable e usable =>
    .ok { s with events := Function.update s.events e ((s.events e).map fun event => { event with usable }) }
  | .update => .ok { s with phase := .atEntry 0 }
  | .proceed => s.proceed
  | .onEvent consumed => s.returned consumed

/-- The event system, its listeners and the code that queues events. -/
def machine : Machine Fault Updating UpdateStep where
  enabled := enabled
  next := next

end Updating

end Events
