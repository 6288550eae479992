import BackupEngine.Application.SceenViewer
import BackupEngine.Engine.Links
import BackupEngine.Lib.Forest
import BackupEngine.Serializer.Pointers

/-!
# The display of a hierarchy

`addGameobjectDisplayer` of the scene viewer goes down the hierarchy of an inspected storage and makes three objects in the
singleton for each object it comes to: one that is placed by its row `counter` and its column `sidecount`, and below it a
button and the text of the id.
-/

namespace SceenViewer

open Cpp Serializer Engine

/-- The conversion of an `int` to `float`: the nearest one, and of two as near the one with an even mantissa. -/
def floatOf (n : Int) : FloatBits :=
  let m := n.natAbs
  if m = 0 then 0
  else
    let e := Nat.log2 m
    let mantissa :=
      if e ≤ 23 then m * 2 ^ (23 - e)
      else
        let unit := 2 ^ (e - 23)
        let q := m / unit
        let r := 2 * (m % unit)
        if unit < r ∨ (r = unit ∧ q % 2 = 1) then q + 1 else q
    -- A mantissa that was rounded up to 2^24 carries into the exponent.
    UInt32.ofNat ((if n < 0 then 2 ^ 31 else 0) + (e + 127) * 2 ^ 23 + mantissa - 2 ^ 23)

example : [0, 1, 8, -16, 80, 600, 16777217, 33554431].map floatOf =
    [0, 0x3F800000, 0x41000000, 0xC1800000, 0x42A00000, 0x44160000, 0x4B800000, 0x4C000000] := by decide

namespace Data

/-- Through a pointer to a class of the engine. -/
def onEngine (f : Engine.Data → Comp Engine.Data) : Data → Comp Data
  | engine c => engine <$> f c
  | _ => .error .badAccess

/-- Through an `objectKlicker*`. -/
def onObjectKlicker (f : ObjectKlicker → Comp ObjectKlicker) : Data → Comp Data
  | objectKlicker c => objectKlicker <$> f c
  | _ => .error .badAccess

end Data

/-! ## The singleton -/

/-- The singleton storage, with heap and disk. -/
structure Scene where
  storrageInstance : ObjectStorrage Data
  world : World

namespace Scene

def createGameObject (s : Scene) : Comp (Int32 × Scene) := do
  let ((ID, storrageInstance), world) ← s.storrageInstance.createGameObject s.world
  return (ID, { storrageInstance, world })

def addComponent (s : Scene) (this : Int32) (T : Class) : Comp (Pointer × Scene) := do
  let (storrageInstance, world) ← s.storrageInstance.addComponent this T s.world
  let p ← storrageInstance.lastComponent this
  return (p, { storrageInstance, world })

def setParrent (s : Scene) (this parrent : Int32) : Comp Scene := do
  let storrageInstance ← s.storrageInstance.setParrent this parrent
  return { s with storrageInstance }

def setParrentID (s : Scene) (this parrentID : Int32) : Comp Scene := do
  let storrageInstance ← s.storrageInstance.setParrentID this parrentID
  return { s with storrageInstance }

def update (s : Scene) (p : Pointer) (f : Data → Comp Data) : Comp Scene := do
  let storrageInstance ← s.storrageInstance.update p f
  return { s with storrageInstance }

/-- `update`, through a pointer to a class of the engine. -/
def updateEngine (s : Scene) (p : Pointer) (f : Engine.Data → Comp Engine.Data) : Comp Scene := s.update p (Data.onEngine f)

def onTransform (s : Scene) (p : Pointer) (f : Transform → Transform) : Comp Scene :=
  s.updateEngine p (Engine.Data.onTransform fun c => .ok (f c))

end Scene

/-! ## addGameobjectDisplayer -/

/-- The arguments that `addGameobjectDisplayer` hands on, and the height of the screen. The inspected storage is none when it
is the singleton itself. -/
structure Displayer where
  screenHeight : Int
  rects1 : List XMFLOAT4
  inspectedSceenStorrage : Option (ObjectStorrage Data)
  instanceRenderer : Pointer
  buttonChecker : Pointer

/-- A call: its row, its column, and the object of the inspected storage. -/
structure Displayed where
  counter : Int
  sidecount : Int
  it : Int32
  scene : Scene

namespace Displayer

/-- The storage the ids are looked up in. -/
def inspected (d : Displayer) (s : Scene) : ObjectStorrage Data := d.inspectedSceenStorrage.getD s.storrageInstance

/-- `temp[i]` and `tempTransform[i]`. -/
def newTemp (s : Scene) : Comp (Int32 × Pointer × Scene) := do
  let (temp, s) ← s.createGameObject
  let (tempTransform, s) ← s.addComponent temp (.engine .transform)
  return (temp, tempTransform, s)

/-- The button of a cell, made on `temp`. -/
def addButtonOf (d : Displayer) (temp : Int32) (tempTransform : Pointer) (s : Scene) : Comp Scene := do
  let (tempInstance, s) ← s.addComponent temp (.engine .instancedTeilSpriteInstance)
  let rect2 ← elemAt d.rects1 2
  let s ← s.updateEngine tempInstance (Engine.Data.onInstancedTeilSpriteInstance fun c => .ok { c with rect := rect2 })
  let s ← s.onTransform tempTransform (.setScale (floatOf 64) (floatOf 64) (floatOf 1))
  let gameobject ← s.storrageInstance.deref temp
  let s ← s.updateEngine d.instanceRenderer (Engine.Data.onInstancedTeilSprite
    (InstancedTeilSprite.addInstance (Class.engine .instancedTeilSpriteInstance) gameobject tempInstance.addr))
  let (button, s) ← s.addComponent temp (.engine .button)
  let gameobject ← s.storrageInstance.deref temp
  let s ← s.updateEngine d.buttonChecker (Engine.Data.onDrawableRenderer (DrawableRenderer.addButton gameobject button.addr))
  let (klicker, s) ← s.addComponent temp .objectKlicker
  let rect3 ← elemAt d.rects1 3
  let s ← s.update klicker (Data.onObjectKlicker fun c => .ok { c with onklick := (rect2, rect3) })
  let gameobject ← s.storrageInstance.deref temp
  s.updateEngine button (Engine.Data.onButton (Button.addActor (Class.engine .buttonActor) gameobject klicker.addr))

/-- The text of a cell, made on `temp`: the character whose code is the id and 48. -/
def addTextOf (d : Displayer) (it temp : Int32) (tempTransform : Pointer) (s : Scene) : Comp Scene := do
  let (textInstance, s) ← s.addComponent temp (.engine .stringRendererInstance)
  let it ← (d.inspected s).deref it
  let code ← int (it.ID.toInt + 48)
  let s ← s.updateEngine textInstance
    (Engine.Data.onStringRendererInstance fun c => .ok { c with string := [UInt8.ofInt code] })
  s.onTransform tempTransform (.setPosition (floatOf (-16)) (floatOf 16) (floatOf 0))

/-- What a call makes before it comes to the children. -/
def addCell (d : Displayer) (counter sidecount : Int) (it : Int32) (s : Scene) : Comp Scene := do
  let (temp0, tempTransform0, s) ← newTemp s
  let (temp1, tempTransform1, s) ← newTemp s
  let (temp2, tempTransform2, s) ← newTemp s
  let s ← s.setParrent temp1 temp0
  let s ← s.onTransform tempTransform1 fun c => { c with parrent := some tempTransform0.addr }
  let s ← s.setParrent temp2 temp0
  let s ← s.onTransform tempTransform2 fun c => { c with parrent := some tempTransform0.addr }
  let x ← int (sidecount * 80)
  let down ← int (80 * counter)
  let y ← int (d.screenHeight - down)
  let s ← s.onTransform tempTransform0 (.setPosition (floatOf x) (floatOf y) (floatOf 0))
  let s ← s.onTransform tempTransform0 (.setScale (floatOf 8) (floatOf 8) (floatOf 1))
  let s ← d.addButtonOf temp1 tempTransform1 s
  d.addTextOf it temp2 tempTransform2 s

/-- The loop over the children. None of the calls changes the list it goes through. -/
def addChildren (call : Displayed → Comp (Option (Int × Scene))) (counter sidecount : Int)
    (children : List Int32) (s : Scene) : Comp (Option (Int × Scene)) :=
  Forest.each (fun (childDepth, scene) ID => do
    let counter ← int (counter + childDepth)
    let sidecount ← int (sidecount + 1)
    match ← call { counter, sidecount, it := ID, scene } with
    | none => return none
    | some (n, scene) =>
      let childDepth ← int (childDepth + n)
      let childDepth ← int (childDepth + 1)
      return some (childDepth, scene)) (0, s) children

/-- The body of `addGameobjectDisplayer`. -/
def body (d : Displayer) (call : Displayed → Comp (Option (Int × Scene))) (a : Displayed) : Comp (Option (Int × Scene)) := do
  let s ← d.addCell a.counter a.sidecount a.it a.scene
  let it ← (d.inspected s).deref a.it
  match ← addChildren call a.counter a.sidecount it.childrenIds s with
  | none => return none
  | some (childDepth, s) => return some (max (childDepth - 1) 0, s)

/-- `addGameobjectDisplayer`, with how deep its calls may go. -/
def addGameobjectDisplayer (d : Displayer) : Nat → Displayed → Comp (Option (Int × Scene)) := Forest.within d.body

/-- The loop of `wWinMain` over `allObject`: the objects of the inspected storage that have no parent are displayed one below
the other. -/
def addAllObject (d : Displayer) (inspectedSceenStorrage : ObjectStorrage Data) (depth : Nat) (s : Scene) :
    Comp (Option (Int × Scene)) :=
  let d := { d with inspectedSceenStorrage := some inspectedSceenStorrage }
  Forest.each (fun (counter, scene) (ID, it) =>
    if it.parrentID = EMPTY_ID then do
      match ← d.addGameobjectDisplayer depth { counter, sidecount := 0, it := ID, scene } with
      | none => return none
      | some (n, scene) =>
        let counter ← int (counter + n)
        let counter ← int (counter + 1)
        return some (counter, scene)
    else return some (counter, scene)) (0, s) inspectedSceenStorrage.objects.toList

end Displayer

end SceenViewer
