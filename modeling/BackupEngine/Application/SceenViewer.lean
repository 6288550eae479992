import BackupEngine.Engine.Components

/-!
# The component classes of the scene viewer

`DragMover`, `ButtonChecker` and `objectKlicker` beside the classes of `Serializer/` and `Engine/`. None of them saves a
member. The first two are event listeners; that `setRequirements` registers them with the `EventSystem` is not part of the
component.
-/

namespace SceenViewer

open Cpp Serializer Engine

/-- The classes of the program: those of the engine, the abstract `EventListener`, and its own. -/
inductive Class where
  | engine (T : Engine.Class)
  | eventListener
  | dragMover
  | buttonChecker
  | objectKlicker
  deriving DecidableEq, Repr

namespace Class

/-- `typeid(T).name()`. -/
def typeName : Class → List UInt8
  | engine T => T.typeName
  | eventListener => chars "class EventListener"
  | dragMover => chars "class DragMover"
  | buttonChecker => chars "class ButtonChecker"
  | objectKlicker => chars "class objectKlicker"

def isA : Class → Class → Bool
  | engine T, engine S => T.isA S
  | engine T, objectKlicker => T == .buttonActor
  | eventListener, dragMover => true
  | eventListener, buttonChecker => true
  | T, S => T == S

def getIsLonly : Class → Bool
  | engine T => T.getIsLonly
  | dragMover | buttonChecker => true
  | eventListener | objectKlicker => false

def getRequirements : Class → List (List UInt8)
  | engine T => T.getRequirements
  | dragMover => [Engine.Class.transform.typeName]
  | buttonChecker => [Engine.Class.drawableRenderer.typeName]
  | objectKlicker => [Engine.Class.instancedTeilSpriteInstance.typeName]
  | eventListener => []

def beginsWithComponent : Class → Bool
  | engine T => T.beginsWithComponent
  | _ => true

end Class

/-! ## DragMover -/

structure DragMover where
  transform : Option Addr := none
  deriving DecidableEq

namespace DragMover

def setRequirements (toSet : List Addr) (this : DragMover) : Comp DragMover := do
  let transform ← elemAt toSet 0
  return { this with transform := some transform }

def set (this : DragMover) : Ser DragMover := pure this

def serialize (_this : DragMover) : Ser Unit := writeCString Class.dragMover.typeName

end DragMover

/-! ## ButtonChecker -/

structure ButtonChecker where
  button : Option Addr := none
  deriving DecidableEq

namespace ButtonChecker

def setRequirements (toSet : List Addr) (this : ButtonChecker) : Comp ButtonChecker := do
  let button ← elemAt toSet 0
  return { this with button := some button }

def set (this : ButtonChecker) : Ser ButtonChecker := pure this

/-- The name pushed is that of `DragMover`. -/
def serialize (_this : ButtonChecker) : Ser Unit := writeCString Class.dragMover.typeName

end ButtonChecker

/-! ## objectKlicker -/

structure ObjectKlicker where
  klick : Bool
  onklick : XMFLOAT4 × XMFLOAT4
  inst : Option Addr
  deriving DecidableEq

namespace ObjectKlicker

/-- There is no constructor that writes a member. -/
def new (s : Storage) : ObjectKlicker where
  klick := s.flag 2
  onklick := ((s.word 3, s.word 4, s.word 5, s.word 6), (s.word 7, s.word 8, s.word 9, s.word 10))
  inst := s.pointer 11

def setRequirements (toSet : List Addr) (this : ObjectKlicker) : Comp ObjectKlicker := do
  let inst ← elemAt toSet 0
  return { this with inst := some inst }

def set (this : ObjectKlicker) : Ser ObjectKlicker := pure this

def serialize (_this : ObjectKlicker) : Ser Unit := writeCString Class.objectKlicker.typeName

end ObjectKlicker

/-! ## Objects of any class -/

/-- The data of a component of a registered class. -/
inductive Data where
  | engine (c : Engine.Data)
  | dragMover (c : DragMover)
  | buttonChecker (c : ButtonChecker)
  | objectKlicker (c : ObjectKlicker)
  deriving DecidableEq

namespace Data

def classOf : Data → Class
  | engine c => .engine c.classOf
  | dragMover _ => .dragMover
  | buttonChecker _ => .buttonChecker
  | objectKlicker _ => .objectKlicker

/-- The constructors in the map of `ComponentFactory`: those of the engine and the program's own. -/
def registered (name : List UInt8) : Option (Storage → Data) :=
  if name = Class.dragMover.typeName then some fun _ => dragMover {}
  else if name = Class.buttonChecker.typeName then some fun _ => buttonChecker {}
  else if name = Class.objectKlicker.typeName then some fun s => objectKlicker (ObjectKlicker.new s)
  else (Engine.Data.registered name).map fun new s => engine (new s)

def setRequirements (toSet : List Addr) : Data → Comp Data
  | engine c => engine <$> c.setRequirements toSet
  | dragMover c => dragMover <$> c.setRequirements toSet
  | buttonChecker c => buttonChecker <$> c.setRequirements toSet
  | objectKlicker c => objectKlicker <$> c.setRequirements toSet

def set : Data → Ser Data
  | engine c => engine <$> c.set
  | dragMover c => dragMover <$> c.set
  | buttonChecker c => buttonChecker <$> c.set
  | objectKlicker c => objectKlicker <$> c.set

/-- Of the program's own classes none does anything in `afterSet`. -/
def afterSet (find : Lookup) (own : Engine.Class → List Addr) : Data → Comp Data
  | engine c => engine <$> c.afterSet find own
  | c => pure c

def serialize : Data → Ser Unit
  | engine c => c.serialize
  | dragMover c => c.serialize
  | buttonChecker c => c.serialize
  | objectKlicker c => c.serialize

/-- The components of an object that cast to a class of the engine. -/
def castTo (componenten : List (Component Data)) (T : Engine.Class) : List Addr :=
  (componenten.filter fun d => (Class.engine T).isA d.data.classOf).map Component.addr

instance : ComponentClasses Data Class where
  typeName := Class.typeName
  classOf := classOf
  isA := Class.isA
  getIsLonly := Class.getIsLonly
  getRequirements := Class.getRequirements
  registered := registered
  setRequirements := setRequirements
  set := set
  afterSet := fun singleton gameobject c =>
    afterSet (fun g T => do
      let o ← singleton.deref g
      return castTo o.componenten T) (castTo gameobject.componenten) c
  serialize := serialize

end Data

end SceenViewer
