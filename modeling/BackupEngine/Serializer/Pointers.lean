import BackupEngine.Serializer.Objects

/-!
# Pointers to components

A component of a stored object is written through pointers to it. The object it belongs to is part of the pointer, as
`Component.gameobject`.
-/

namespace Serializer

open Cpp

variable {κ C : Type} [ComponentClasses κ C]

/-- A `Component*`: the id of the stored object that `gameobject` points to, and the address. -/
structure Pointer where
  gameobject : Int32
  addr : Addr
  deriving DecidableEq, Repr

/-- The place of a component in the list of its object. -/
def GameObject.placeOf (this : GameObject κ) (addr : Addr) : Comp Nat :=
  match this.componenten.findIdx? (·.addr = addr) with
  | some i => .ok i
  | none => .error .badAccess

def GameObject.setActiv (value : Bool) (this : GameObject κ) : GameObject κ :=
  { this with isActiv := value, componenten := this.componenten.map fun c => { c with isActiv := value } }

namespace ObjectStorrage

/-- A write through a `GameObject*`. -/
def onGameObject (this : ObjectStorrage κ) (ID : Int32) (f : GameObject κ → GameObject κ) : Comp (ObjectStorrage κ) := do
  let me ← this.deref ID
  return this.store ID (f me)

/-- What is done to a component through a pointer to it. -/
def update (this : ObjectStorrage κ) (p : Pointer) (f : κ → Comp κ) : Comp (ObjectStorrage κ) := do
  let me ← this.deref p.gameobject
  let i ← me.placeOf p.addr
  let c ← elemAt me.componenten i
  let data ← f c.data
  let componenten ← setAt me.componenten i { c with data }
  return this.store p.gameobject { me with componenten }

/-- The pointer `addComponent<T>` returns: to the last component. -/
def lastComponent (this : ObjectStorrage κ) (ID : Int32) : Comp Pointer := do
  let me ← this.deref ID
  let c ← elemAt me.componenten (me.componenten.length - 1)
  return { gameobject := ID, addr := c.addr }

end ObjectStorrage

end Serializer
