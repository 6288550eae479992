import BackupEngine.EventSystem.Dispatch
import BackupEngine.Lib.Transition

/-!
# Listeners that register and remove listeners

While `onEvent` runs it may call `addEventListener` and `removeEventListener`, also on the listener itself. The loops of
`addInstantTrigger` and `update` hold a place in the vector and look at the vector again in every round, so the machine below
keeps the place and cuts the loops where a listener is called; what the listener does until it returns are steps of their
own. Beside the members of the event system it keeps a record of the dispatch that is going on.
-/

namespace Events

open Cpp Serializer Transition

/-- What is being handed out: an event by `addInstantTrigger`, or the entry of the queue `update` is at. -/
inductive Handed where
  | instant (e : Addr)
  | entry (i : Nat)
  deriving DecidableEq, Repr

/-- Where the two functions are: neither is called, at the head of the outer loop of `update`, at the head of the loop over the
listeners, in a call of `onEvent`, or past the loop, which was left at a place where the event was consumed or at its end. -/
inductive Stage where
  | idle
  | atEntry (i : Nat)
  | asking (h : Handed) (j : Nat)
  | calling (h : Handed) (j : Nat)
  | served (h : Handed) (stop : Option Nat)
  deriving DecidableEq, Repr

/-- The event system while it hands out events. The record of a dispatch: the listeners registered when it began (`first`),
those called in it, in order, and those removed during it. Over the whole run: the listeners that were removed and not
registered again since (`gone`), and those called while they were (`late`). -/
structure Reentrant extends EventSystem where
  onNextUpdate : List Addr := []
  events : Addr → Option Event
  stage : Stage := .idle
  first : List Addr := []
  called : List Addr := []
  dropped : List Addr := []
  gone : List Addr := []
  late : List Addr := []

/-- What can happen; see `Reentrant.enabled` for when. -/
inductive ReentrantStep (κ : Type) where
  | addEventListener (gameobject : GameObject κ) (el : Addr)
  | removeEventListener (el : Addr)
  | addInstantTrigger (e : Addr)
  | addUpdateTrigger (e : Addr)
  | writeUsable (e : Addr) (usable : Bool)
  | update
  | proceed
  | onEvent (consumed : Bool)

namespace Reentrant

variable {κ C : Type} [ComponentClasses κ C] (T : C)

/-- The event a pointer refers to. -/
def deref (s : Reentrant) (e : Addr) : Comp Event :=
  match s.events e with
  | some event => .ok event
  | none => .error .badAccess

/-- The event that is handed out. `update` reads it from the queue each time. -/
def handed (s : Reentrant) : Handed → Comp Addr
  | .instant e => .ok e
  | .entry i => elemAt s.onNextUpdate i

/-- Code outside of the two functions runs: between two calls of them, or in a listener. -/
def Outside (s : Reentrant) : Prop := s.stage = .idle ∨ ∃ h j, s.stage = .calling h j

/-- Listeners are registered and removed, and events queued and written, by code outside; the triggers are called between two
calls of them. -/
def enabled (s : Reentrant) : ReentrantStep κ → Prop
  | .addEventListener _ _ | .removeEventListener _ => s.Outside
  | .addUpdateTrigger e | .writeUsable e _ => s.Outside ∧ ∃ event, s.events e = some event
  | .addInstantTrigger e => s.stage = .idle ∧ ∃ event, s.events e = some event
  | .update => s.stage = .idle
  | .proceed => ¬s.Outside
  | .onEvent _ => ∃ h j, s.stage = .calling h j

/-- `addEventListener`, for a listener of the game object given; `T` is the class `EventListener`. -/
def register (s : Reentrant) (gameobject : GameObject κ) (el : Addr) : Comp Reentrant := do
  let system ← s.toEventSystem.addEventListener T gameobject el
  let gone := if el ∈ gameobject.findComponents T then s.gone.filter (· ≠ el) else s.gone
  return { s with toEventSystem := system, gone }

/-- `removeEventListener`. -/
def remove (s : Reentrant) (el : Addr) : Comp Reentrant := do
  let system ← s.toEventSystem.removeEventListener el
  if el ∈ s.listener then
    return { s with toEventSystem := system, dropped := s.dropped ++ [el], gone := s.gone ++ [el] }
  else return { s with toEventSystem := system }

/-- The loop over the listeners begins. -/
def begin (s : Reentrant) (h : Handed) : Reentrant :=
  { s with stage := .asking h 0, first := s.listener, called := [], dropped := [] }

/-- The next step of the function that runs. -/
def proceed (s : Reentrant) : Comp Reentrant :=
  match s.stage with
  | .atEntry i =>
    if i < s.onNextUpdate.length then .ok (s.begin (.entry i)) else .ok { s with onNextUpdate := [], stage := .idle }
  | .asking h j =>
    match s.listener[j]? with
    | some l => do
      let _ ← s.handed h
      let late := if l ∈ s.gone then s.late ++ [l] else s.late
      return { s with stage := .calling h j, called := s.called ++ [l], late }
    | none => .ok { s with stage := .served h none }
  | .served (.instant _) _ => .ok { s with stage := .idle }
  | .served (.entry i) _ => do
    let e ← elemAt s.onNextUpdate i
    let event ← s.deref e
    let events := if event.destroy then Function.update s.events e none else s.events
    let _ ← int (i + 1)
    return { s with events, stage := .atEntry (i + 1) }
  | .idle | .calling _ _ => .ok s

/-- A listener returns: the loop is left if it consumed the event and the event is usable. -/
def returned (s : Reentrant) (consumed : Bool) : Comp Reentrant :=
  match s.stage with
  | .calling h j => do
    let stop ← andAlso consumed (do return (← s.deref (← s.handed h)).usable)
    if stop then return { s with stage := .served h (some j) }
    let _ ← int (j + 1)
    return { s with stage := .asking h (j + 1) }
  | _ => .ok s

def next (s : Reentrant) : ReentrantStep κ → Comp Reentrant
  | .addEventListener gameobject el => s.register T gameobject el
  | .removeEventListener el => s.remove el
  | .addInstantTrigger e => .ok (s.begin (.instant e))
  | .addUpdateTrigger e => .ok { s with onNextUpdate := s.onNextUpdate ++ [e] }
  | .writeUsable e usable =>
    .ok { s with events := Function.update s.events e ((s.events e).map fun event => { event with usable }) }
  | .update => .ok { s with stage := .atEntry 0 }
  | .proceed => s.proceed
  | .onEvent consumed => s.returned consumed

/-- The event system, its listeners and the code that uses it. -/
def machine : Machine Fault Reentrant (ReentrantStep κ) where
  enabled := enabled
  next := next T

end Reentrant

end Events
