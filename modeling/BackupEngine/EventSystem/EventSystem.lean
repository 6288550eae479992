import BackupEngine.Serializer.Objects

/-!
# The event system

The listeners of the `EventSystem`, and beside them the pairs of numbers each is to be found by: the id of its game object
and its place among the listeners there.
-/

namespace Events

open Cpp Serializer

/-- `EventSystem`. -/
structure EventSystem where
  listener : List Addr := []
  listenerIDs : List (Int32 × Int32) := []
  deriving DecidableEq

namespace EventSystem

section

variable {κ C : Type} [ComponentClasses κ C]

/-- `addEventListener`, for a listener of the game object given; `T` is the class `EventListener`. -/
def addEventListener (this : EventSystem) (T : C) (gameobject : GameObject κ) (el : Addr) : Comp EventSystem := do
  let c := gameobject.findComponents T
  match ← findPlace c el with
  | some i =>
    return {
      listener := this.listener ++ [el]
      listenerIDs := this.listenerIDs ++ [(gameobject.ID, Int32.ofNat i)] }
  | none => return this

end

/-- `removeEventListener`. -/
def removeEventListener (this : EventSystem) (el : Addr) : Comp EventSystem := do
  match ← findPlace this.listener el with
  | some i =>
    let listener ← eraseAt this.listener i
    let listenerIDs ← eraseAt this.listenerIDs i
    return { listener, listenerIDs }
  | none => return this

/-- `set` has an empty body. -/
def set (this : EventSystem) : Ser EventSystem := pure this

/-- `afterSet` has an empty body. -/
def afterSet (this : EventSystem) : Comp EventSystem := pure this

/-- The pairs are pushed from the first to the last, and their number as a `size_t`. -/
def serialize (this : EventSystem) : Ser Unit := do
  this.listenerIDs.forM fun p => do
    write p.1
    write p.2
  let _ ← lift (int this.listenerIDs.length)
  write (UInt64.ofNat this.listenerIDs.length)
  writeCString (chars "class EventSystem")

/-- The type name is popped, then `set` and `afterSet` are called. -/
def load (this : EventSystem) : Ser (List UInt8 × EventSystem) := do
  let name ← readString
  let this ← this.set
  let this ← lift this.afterSet
  return (name, this)

end EventSystem

end Events
