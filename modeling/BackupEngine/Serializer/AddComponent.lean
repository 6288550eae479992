import BackupEngine.Lib.Transition
import BackupEngine.Serializer.Objects

/-!
# Components added one after the other

`GameObject::addComponent` statement by statement, on the object itself: where it throws, the caller that catches it finds the
object as it is then. A game object is built by calls of `addComponent`, of which some throw.
-/

namespace Serializer

open Cpp Transition

/-- A game object, the heap, and what the calls of `setRequirements` were given, in order. -/
structure Building (κ : Type) where
  gameobject : GameObject κ
  world : World
  toSet : List (List Addr) := []

namespace Building

variable {κ C : Type} [ComponentClasses κ C]

open ComponentClasses (typeName getIsLonly getRequirements registered)

/-- A computation that returns or throws. -/
def lift {α : Type} : Comp α → EStateM Fault (Building κ) α
  | .ok a => return a
  | .error e => throw e

/-- What reads the object, or throws. -/
def ask {α : Type} (f : GameObject κ → Comp α) : EStateM Fault (Building κ) α := do lift (f (← get).gameobject)

/-- A write to the object. -/
def write (f : GameObject κ → GameObject κ) : EStateM Fault (Building κ) Unit :=
  modify fun s => { s with gameobject := f s.gameobject }

/-- `ComponentFactory::createInstance`. -/
def createInstance (name : List UInt8) : EStateM Fault (Building κ) (Component κ) := do
  let (c, world) ← lift (Serializer.createInstance name (← get).world)
  modify fun s => { s with world }
  return c

/-- `setRequirements` of the last component. -/
def setRequirements (toSetInComponent : List Addr) : EStateM Fault (Building κ) Unit := do
  modify fun s => { s with toSet := s.toSet ++ [toSetInComponent] }
  let componenten ← ask fun g => do
    let c ← elemAt g.componenten (g.componenten.length - 1)
    let data ← ComponentClasses.setRequirements toSetInComponent c.data
    setAt g.componenten (g.componenten.length - 1) { c with data }
  write fun g => { g with componenten }

/-- The last component takes over whether the object is active. -/
def setIsActiv : EStateM Fault (Building κ) Unit := do
  let componenten ← ask fun g => do
    let c ← elemAt g.componenten (g.componenten.length - 1)
    setAt g.componenten (g.componenten.length - 1) { c with isActiv := g.isActiv }
  write fun g => { g with componenten }

/-- The first check: of a lonly class there must not be a component yet. -/
def checkLonly (T : C) : EStateM Fault (Building κ) Unit := do
  if getIsLonly κ T then
    let found ← ask fun g => .ok (g.findComponents T)
    if !found.isEmpty then throw .thrown

/-- `tempC[0]` for a required class, which must be there. -/
def required (name : List UInt8) (g : GameObject κ) : Comp Addr :=
  match g.findComponentsNamed name with
  | c :: _ => .ok c
  | [] => .error .thrown

/-- `addComponent<T>()`. -/
def addComponent (T : C) : EStateM Fault (Building κ) Unit := do
  checkLonly T
  let toSetInComponent ← (getRequirements κ T).mapM fun name => ask (required name)
  let c ← createInstance (typeName κ T)
  write fun g => { g with componenten := g.componenten ++ [c] }
  setRequirements toSetInComponent
  setIsActiv

/-- A call for a registered class, whose throw is caught. -/
def machine : Machine Fault (Building κ) C where
  enabled := fun _ T => (registered (κ := κ) (typeName κ T)).isSome
  next := fun s T =>
    match (addComponent T).run s with
    | .ok _ s => .ok s
    | .error .thrown s => .ok s
    | .error e _ => .error e

end Building

end Serializer
