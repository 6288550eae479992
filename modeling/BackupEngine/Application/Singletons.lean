import BackupEngine.Application.Displayer
import BackupEngine.EventSystem.EventSystem

/-!
# Calls on the singletons

The singleton storage and the event system, and what a program calls on them between two saves: objects and components are
made, components are told of each other, listeners are registered, and members are written.
-/

namespace SceenViewer

open Cpp Serializer Engine

/-! ## Writing members -/

/-- The members of an engine component are written with those of another one of its class, but for the pointers and ids by
which it knows other components. -/
def assignEngine : Engine.Data → Engine.Data → Comp Engine.Data
  | .fileComponent _, .fileComponent c => .ok (.fileComponent c)
  | .transform this, .transform c => .ok (.transform { c with pGOID := this.pGOID })
  | .kamera _, .kamera c => .ok (.kamera c)
  | .button this, .button c => .ok (.button { c with payload := this.payload, payloadIDs := this.payloadIDs })
  | .drawableRenderer this, .drawableRenderer c => .ok (.drawableRenderer {
      c with
      currentCamera := this.currentCamera
      currentCameraID := this.currentCameraID
      buttons := this.buttons
      buttonGameObjectIDs := this.buttonGameObjectIDs
      allDrawable := this.allDrawable
      allDrawableIDs := this.allDrawableIDs })
  | .sprite _, .sprite c => .ok (.sprite c)
  | .teilSprite _, .teilSprite c => .ok (.teilSprite c)
  | .instancedSprite this, .instancedSprite c =>
    .ok (.instancedSprite { c with instancen := this.instancen, instancenID := this.instancenID })
  | .instancedTeilSprite this, .instancedTeilSprite c =>
    .ok (.instancedTeilSprite { c with instancen := this.instancen, instancenIDs := this.instancenIDs })
  | .instancedTeilSpriteInstance _, .instancedTeilSpriteInstance c => .ok (.instancedTeilSpriteInstance c)
  | .stringRenderer this, .stringRenderer c =>
    .ok (.stringRenderer { c with instancen := this.instancen, instancenIDs := this.instancenIDs })
  | .stringRendererInstance _, .stringRendererInstance c => .ok (.stringRendererInstance c)
  | _, _ => .error .badAccess

/-- The same for a component of any class. -/
def Data.assign : Data → Data → Comp Data
  | engine this, engine c => engine <$> assignEngine this c
  | dragMover _, dragMover c => .ok (dragMover c)
  | buttonChecker _, buttonChecker c => .ok (buttonChecker c)
  | objectKlicker _, objectKlicker c => .ok (objectKlicker c)
  | _, _ => .error .badAccess

/-! ## Calls on a component -/

/-- What is called on a component. The calls of `InstancedTeilSprite` and of `StringRenderer` have the same names. -/
inductive ComponentCall where
  | assign (data : Data)
  | setParrent (parrent : Pointer)
  | addActor (ba : Pointer)
  | remActor (ba : Addr)
  | addInstance (inst : Pointer)
  | remInstance (inst : Addr)
  | addStringInstance (inst : Pointer)
  | remStringInstance (inst : Addr)
  | addButton (button : Pointer)
  | remButton (button : Addr)
  | addDrawable (drawable : Pointer)
  | remDrawable (drawable : Addr)
  | unloadContent
  | clear
  | setKamera (mainKamera : Pointer)

namespace ComponentCall

/-- The component a pointer that is handed over points to, with its class. -/
def argument : ComponentCall → Option (Class × Pointer)
  | setParrent parrent => some (.engine .transform, parrent)
  | addActor ba => some (.engine .buttonActor, ba)
  | addInstance inst => some (.engine .instancedTeilSpriteInstance, inst)
  | addStringInstance inst => some (.engine .stringRendererInstance, inst)
  | addButton button => some (.engine .button, button)
  | addDrawable drawable => some (.engine .drawable, drawable)
  | setKamera mainKamera => some (.engine .kamera, mainKamera)
  | _ => none

open Engine.Data (onTransform onButton onDrawableRenderer onInstancedTeilSprite onStringRenderer)

def perform (st : ObjectStorrage Data) : ComponentCall → Data → Comp Data
  | assign data, c => c.assign data
  | setParrent parrent, c => do
    let gameobject ← st.deref parrent.gameobject
    c.onEngine (onTransform (Transform.setParrent (Class.engine .transform) gameobject parrent.addr))
  | addActor ba, c => do
    let gameobject ← st.deref ba.gameobject
    c.onEngine (onButton (Button.addActor (Class.engine .buttonActor) gameobject ba.addr))
  | remActor ba, c => c.onEngine (onButton (Button.remActor ba))
  | addInstance inst, c => do
    let gameobject ← st.deref inst.gameobject
    c.onEngine (onInstancedTeilSprite
      (InstancedTeilSprite.addInstance (Class.engine .instancedTeilSpriteInstance) gameobject inst.addr))
  | remInstance inst, c => c.onEngine (onInstancedTeilSprite (InstancedTeilSprite.remInstance inst))
  | addStringInstance inst, c => do
    let gameobject ← st.deref inst.gameobject
    c.onEngine (onStringRenderer
      (StringRenderer.addInstance (Class.engine .stringRendererInstance) gameobject inst.addr))
  | remStringInstance inst, c => c.onEngine (onStringRenderer (StringRenderer.remInstance inst))
  | addButton button, c => do
    let gameobject ← st.deref button.gameobject
    c.onEngine (onDrawableRenderer (DrawableRenderer.addButton gameobject button.addr))
  | remButton button, c => c.onEngine (onDrawableRenderer (DrawableRenderer.remButton button))
  | addDrawable drawable, c => do
    let gameobject ← st.deref drawable.gameobject
    c.onEngine (onDrawableRenderer (DrawableRenderer.addDrawable (Class.engine .drawable) gameobject drawable.addr))
  | remDrawable drawable, c => c.onEngine (onDrawableRenderer (DrawableRenderer.remDrawable drawable))
  | unloadContent, c => c.onEngine (onDrawableRenderer fun this => .ok this.unloadContent)
  | clear, c => c.onEngine (onDrawableRenderer fun this => .ok this.clear)
  | setKamera mainKamera, c => do
    let gameobject ← st.deref mainKamera.gameobject
    c.onEngine (onDrawableRenderer fun this => .ok (this.setKamera gameobject mainKamera.addr))

end ComponentCall

/-! ## Calls on the singletons -/

/-- The singletons: the storage, with heap and disk, and the event system. -/
structure Singletons where
  scene : Scene
  events : Events.EventSystem := {}

inductive Call where
  | createGameObject
  | setName (this : Int32) (name : List UInt8)
  | setActiv (this : Int32) (value : Bool)
  | setParrent (this parrent : Int32)
  | setParrentID (this parrentID : Int32)
  | addComponent (this : Int32) (T : Class)
  | onComponent (this : Pointer) (call : ComponentCall)
  | addEventListener (el : Pointer)
  | removeEventListener (el : Addr)

namespace Singletons

/-- What `setRequirements` of the event listeners does beside giving them a pointer: they register themselves. -/
def register (s : Singletons) (T : Class) (el : Pointer) : Comp Singletons :=
  if T = .dragMover ∨ T = .buttonChecker then do
    let gameobject ← s.scene.storrageInstance.deref el.gameobject
    let events ← s.events.addEventListener Class.eventListener gameobject el.addr
    return { s with events }
  else return s

def perform (s : Singletons) : Call → Comp Singletons
  | .createGameObject => do
    let (_, scene) ← s.scene.createGameObject
    return { s with scene }
  | .setName this name => do
    let storrageInstance ← s.scene.storrageInstance.onGameObject this fun g => { g with name }
    return { s with scene := { s.scene with storrageInstance } }
  | .setActiv this value => do
    let storrageInstance ← s.scene.storrageInstance.onGameObject this (GameObject.setActiv value)
    return { s with scene := { s.scene with storrageInstance } }
  | .setParrent this parrent => do
    let scene ← s.scene.setParrent this parrent
    return { s with scene }
  | .setParrentID this parrentID => do
    let scene ← s.scene.setParrentID this parrentID
    return { s with scene }
  | .addComponent this T => do
    let (p, scene) ← s.scene.addComponent this T
    register { s with scene } T p
  | .onComponent this call => do
    let scene ← s.scene.update this (call.perform s.scene.storrageInstance)
    return { s with scene }
  | .addEventListener el => do
    let gameobject ← s.scene.storrageInstance.deref el.gameobject
    let events ← s.events.addEventListener Class.eventListener gameobject el.addr
    return { s with events }
  | .removeEventListener el => do
    let events ← s.events.removeEventListener el
    return { s with events }

end Singletons

end SceenViewer
