import BackupEngine.Engine.Components

/-!
# Components that point to others

How the buttons, renderers and transforms get to know other components. Each keeps the pointers in one vector and, to be
saved, what the pointers are found by in a second one. A search through the components of an object returns the place of what
it looked for; `T` is the class searched for.
-/

namespace Engine

open Cpp Serializer

variable {κ C : Type} [ComponentClasses κ C]

/-! ## The two vectors -/

/-- The id of the game object of a component and the place of the component among those of its class there. -/
def linkTo (T : C) (gameobject : GameObject κ) (c : Addr) : Comp (Option (Int32 × Int32)) := do
  match ← findPlace (gameobject.findComponents T) c with
  | some i => return some (gameobject.ID, Int32.ofNat i)
  | none => return none

/-- The pointer is pushed, and then what it is found by. -/
def addLink (T : C) (gameobject : GameObject κ) (c : Addr) (pointers : List Addr) (ids : List (Int32 × Int32)) :
    Comp (List Addr × List (Int32 × Int32)) := do
  match ← linkTo T gameobject c with
  | some id => return (pointers ++ [c], ids ++ [id])
  | none => return (pointers ++ [c], ids)

/-- The first place that holds the pointer is erased from both. -/
def remLink {α : Type} (c : Addr) (pointers : List Addr) (ids : List α) : Comp (List Addr × List α) := do
  match ← findPlace pointers c with
  | some i =>
    let pointers ← eraseAt pointers i
    let ids ← eraseAt ids i
    return (pointers, ids)
  | none => return (pointers, ids)

/-! ## Transform -/

namespace Transform

def setPosition (x y z : FloatBits) (this : Transform) : Transform := { this with position := (x, y, z), dirty := true }

def setScale (x y z : FloatBits) (this : Transform) : Transform := { this with scale := (x, y, z), dirty := true }

/-- `setParrent`: it throws when there is another transform in the object of the parent, and has written `m_parrent` then. -/
def setParrent (T : C) (gameobject : GameObject κ) (parrent : Addr) (this : Transform) : Comp Transform := do
  let this := { this with parrent := some parrent }
  if (gameobject.findComponents T).length ≠ 1 then .error .thrown
  return { this with pGOID := gameobject.ID }

end Transform

/-! ## Button -/

namespace Button

/-- `addActor`: nothing is pushed for an actor that is not found. -/
def addActor (T : C) (gameobject : GameObject κ) (ba : Addr) (this : Button) : Comp Button := do
  match ← linkTo T gameobject ba with
  | some id => return { this with payload := this.payload ++ [ba], payloadIDs := this.payloadIDs ++ [id] }
  | none => return this

def remActor (ba : Addr) (this : Button) : Comp Button := do
  let (payload, payloadIDs) ← remLink ba this.payload this.payloadIDs
  return { this with payload, payloadIDs }

end Button

/-! ## DrawableRenderer -/

namespace DrawableRenderer

/-- `addButton`: a button that is there is not pushed again. -/
def addButton (gameobject : GameObject κ) (button : Addr) (this : DrawableRenderer) : Comp DrawableRenderer := do
  match ← findPlace this.buttons button with
  | some _ => return this
  | none => return {
      this with
      buttons := this.buttons ++ [button]
      buttonGameObjectIDs := this.buttonGameObjectIDs ++ [gameobject.ID] }

def remButton (button : Addr) (this : DrawableRenderer) : Comp DrawableRenderer := do
  let (buttons, buttonGameObjectIDs) ← remLink button this.buttons this.buttonGameObjectIDs
  return { this with buttons, buttonGameObjectIDs }

/-- The pairs that the search of `addDrawable` pushes: it goes on after a match. -/
def drawableIDs (T : C) (gameobject : GameObject κ) (drawable : Addr) : List (Int32 × Int32) :=
  ((gameobject.findComponents T).zipIdx.filter fun p => p.1 = drawable).map fun p => (gameobject.ID, Int32.ofNat p.2)

/-- `addDrawable`: a drawable that is there is not pushed again. -/
def addDrawable (T : C) (gameobject : GameObject κ) (drawable : Addr) (this : DrawableRenderer) :
    Comp DrawableRenderer := do
  match ← findPlace this.allDrawable drawable with
  | some _ => return this
  | none =>
    let _ ← int (gameobject.findComponents T).length
    return {
      this with
      allDrawable := this.allDrawable ++ [drawable]
      allDrawableIDs := this.allDrawableIDs ++ drawableIDs T gameobject drawable }

/-- `remDrawable` erases the pointer only. -/
def remDrawable (drawable : Addr) (this : DrawableRenderer) : Comp DrawableRenderer := do
  match ← findPlace this.allDrawable drawable with
  | some i =>
    let allDrawable ← eraseAt this.allDrawable i
    return { this with allDrawable }
  | none => return this

/-- `UnloadContent` clears the pointers only. -/
def unloadContent (this : DrawableRenderer) : DrawableRenderer := { this with allDrawable := [] }

/-- `Dx11Base::clear` clears the pointers only. -/
def clearBase (this : DrawableRenderer) : DrawableRenderer := { this with buttons := [] }

def clear (this : DrawableRenderer) : DrawableRenderer := this.unloadContent.clearBase

def setKamera (gameobject : GameObject κ) (mainKamera : Addr) (this : DrawableRenderer) : DrawableRenderer :=
  { this with currentCamera := some mainKamera, currentCameraID := gameobject.ID }

end DrawableRenderer

/-! ## InstancedTeilSprite and StringRenderer -/

namespace InstancedTeilSprite

def addInstance (T : C) (gameobject : GameObject κ) (inst : Addr) (this : InstancedTeilSprite) :
    Comp InstancedTeilSprite := do
  let (instancen, instancenIDs) ← addLink T gameobject inst this.instancen this.instancenIDs
  return { this with instancen, instancenIDs }

def remInstance (inst : Addr) (this : InstancedTeilSprite) : Comp InstancedTeilSprite := do
  let (instancen, instancenIDs) ← remLink inst this.instancen this.instancenIDs
  return { this with instancen, instancenIDs }

end InstancedTeilSprite

namespace StringRenderer

def addInstance (T : C) (gameobject : GameObject κ) (inst : Addr) (this : StringRenderer) : Comp StringRenderer := do
  let (instancen, instancenIDs) ← addLink T gameobject inst this.instancen this.instancenIDs
  return { this with instancen, instancenIDs }

def remInstance (inst : Addr) (this : StringRenderer) : Comp StringRenderer := do
  let (instancen, instancenIDs) ← remLink inst this.instancen this.instancenIDs
  return { this with instancen, instancenIDs }

end StringRenderer

/-! ## Pointers of a class -/

namespace Data

/-- Through a `Transform*`. -/
def onTransform (f : Transform → Comp Transform) : Data → Comp Data
  | transform c => transform <$> f c
  | _ => .error .badAccess

/-- Through a `Button*`. -/
def onButton (f : Button → Comp Button) : Data → Comp Data
  | button c => button <$> f c
  | _ => .error .badAccess

/-- Through a `DrawableRenderer*`. -/
def onDrawableRenderer (f : DrawableRenderer → Comp DrawableRenderer) : Data → Comp Data
  | drawableRenderer c => drawableRenderer <$> f c
  | _ => .error .badAccess

/-- Through an `InstancedTeilSprite*`. -/
def onInstancedTeilSprite (f : InstancedTeilSprite → Comp InstancedTeilSprite) : Data → Comp Data
  | instancedTeilSprite c => instancedTeilSprite <$> f c
  | _ => .error .badAccess

/-- Through an `InstancedTeilSprite::Instance*`. -/
def onInstancedTeilSpriteInstance (f : InstancedTeilSprite.Instance → Comp InstancedTeilSprite.Instance) : Data → Comp Data
  | instancedTeilSpriteInstance c => instancedTeilSpriteInstance <$> f c
  | _ => .error .badAccess

/-- Through a `StringRenderer*`. -/
def onStringRenderer (f : StringRenderer → Comp StringRenderer) : Data → Comp Data
  | stringRenderer c => stringRenderer <$> f c
  | _ => .error .badAccess

/-- Through a `StringRenderer::Instance*`. -/
def onStringRendererInstance (f : StringRenderer.Instance → Comp StringRenderer.Instance) : Data → Comp Data
  | stringRendererInstance c => stringRendererInstance <$> f c
  | _ => .error .badAccess

end Data

end Engine
