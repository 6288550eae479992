import BackupEngine.Application.Singletons
import BackupEngine.EventSystem.Dispatch
import BackupEngine.Lib.Transition

/-!
# Listeners among the components

`DragMover` and `ButtonChecker` register themselves with the event system when they are added to an object, and are deleted
with it when the storage is cleared. What they do with an event is a parameter here: they write members of components, and
say whether the event is consumed. Making and handing out events, clearing the storage and the calls on the singletons can
follow one another in any order. Which deletes of `clear` pass is a parameter, too.
-/

namespace SceenViewer

open Cpp Serializer Events Transition

/-- The pointer refers to a component of a stored object, and the component is an event listener. -/
def Refers (st : ObjectStorrage Data) (el : Addr) : Prop :=
  ∃ p ∈ st.objects.toList, el ∈ p.2.findComponents Class.eventListener

instance (st : ObjectStorrage Data) (el : Addr) : Decidable (Refers st el) :=
  inferInstanceAs (Decidable (∃ p ∈ st.objects.toList, el ∈ p.2.findComponents Class.eventListener))

/-- What a listener does with an event in a scene: whether it returns true, and the members it writes. -/
abbrev Reaction := Addr → Addr → Scene → Bool × List (Pointer × Data)

/-- Members of components are written, one after another. -/
def Scene.write (s : Scene) (writes : List (Pointer × Data)) : Comp Scene :=
  writes.foldlM (fun s p => s.update p.1 fun c => c.assign p.2) s

/-- `onEvent` of any listener, stored or not. -/
def Reaction.run (reaction : Reaction) : OnEvent Scene := fun listener e events scene => do
  let (consumed, writes) := reaction listener e scene
  let world ← scene.write writes
  return { consumed, events, world }

/-- `onEvent`: a call on a listener that has been deleted is undefined. -/
def Reaction.onEvent (reaction : Reaction) : OnEvent Scene := fun listener e events scene =>
  if Refers scene.storrageInstance listener then reaction.run listener e events scene else .error .badAccess

/-- What a program does with the singletons and with events. -/
inductive Turn where
  | call (c : Call)
  | clear
  | writeEvent (e : Addr) (event : Event)
  | addUpdateTrigger (e : Addr)
  | addInstantTrigger (e : Addr)
  | update (fuel : Nat)

/-- The singletons, the queue of events and the events that exist. -/
abbrev Session := Dispatcher Scene

namespace Session

/-- Nothing is stored or registered, and no event exists. -/
def start (w : World) : Session := { events := fun _ => none, world := ⟨{}, w⟩ }

def singletons (s : Session) : Singletons := { scene := s.world, events := s.toEventSystem }

def perform (deletes : Class → Bool) (reaction : Reaction) (s : Session) : Turn → Comp Session
  | .call c => do
    let t ← s.singletons.perform c
    return { s with toEventSystem := t.events, world := t.scene }
  | .clear => do
    let storrageInstance ← s.world.storrageInstance.clear deletes
    return { s with world := { s.world with storrageInstance } }
  | .writeEvent e event => .ok { s with events := Function.update s.events e (some event) }
  | .addUpdateTrigger e => .ok (s.addUpdateTrigger e)
  | .addInstantTrigger e => s.addInstantTrigger reaction.onEvent e
  | .update fuel => do
    let t ← s.update reaction.onEvent fuel
    return t.getD s

end Session

end SceenViewer
