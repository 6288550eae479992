import BackupEngine.Serializer.Objects

/-!
# The component classes

The classes derived from `Component` in `Serializer/` and `Engine/`. Each is a record of its members with a constructor, the
members `set`, `serialize`, `setRequirements` and, where it does something, `afterSet`. A member no constructor writes holds
what the storage held. What the classes keep for the GPU, and the matrices computed from the saved members, are left out.
-/

namespace Engine

open Cpp Serializer

/-- A `float`, by its bit pattern. -/
abbrev FloatBits := UInt32

abbrev XMFLOAT3 := FloatBits × FloatBits × FloatBits

abbrev XMFLOAT4 := FloatBits × FloatBits × FloatBits × FloatBits

/-- `Factory::float6`. -/
abbrev Float6 := FloatBits × FloatBits × FloatBits × FloatBits × FloatBits × FloatBits

/-- `1.0f`. -/
def oneF : FloatBits := 0x3F800000

/-- The classes `findComponents` is called with: the registered ones, and the abstract `Drawable` and `ButtonActor`. -/
inductive Class where
  | fileComponent
  | transform
  | kamera
  | button
  | buttonActor
  | drawable
  | drawableRenderer
  | sprite
  | teilSprite
  | instancedSprite
  | instancedTeilSprite
  | instancedTeilSpriteInstance
  | stringRenderer
  | stringRendererInstance
  deriving DecidableEq, Repr

namespace Class

/-- `typeid(T).name()`. -/
def typeName : Class → List UInt8
  | fileComponent => chars "class FileComponent"
  | transform => chars "class Transform"
  | kamera => chars "class Kamera"
  | button => chars "class Button"
  | buttonActor => chars "class Button::ButtonActor"
  | drawable => chars "class Drawable"
  | drawableRenderer => chars "class DrawableRenderer"
  | sprite => chars "class Sprite"
  | teilSprite => chars "class TeilSprite"
  | instancedSprite => chars "class InstancedSprite"
  | instancedTeilSprite => chars "class InstancedTeilSprite"
  | instancedTeilSpriteInstance => chars "class InstancedTeilSprite::Instance"
  | stringRenderer => chars "class StringRenderer"
  | stringRendererInstance => chars "class StringRenderer::Instance"

/-- The classes derived from `Drawable`. -/
def isDrawable : Class → Bool
  | drawable | sprite | teilSprite | instancedSprite | instancedTeilSprite | stringRenderer => true
  | _ => false

def isA (T S : Class) : Bool := T == S || (T == drawable && S.isDrawable)

def getIsLonly : Class → Bool
  | transform | kamera | button | drawableRenderer | stringRendererInstance => true
  | _ => false

def getRequirements : Class → List (List UInt8)
  | button | kamera | sprite | teilSprite | instancedTeilSpriteInstance | stringRendererInstance => [transform.typeName]
  | _ => []

/-- `Component` is the first base of every class but `DrawableRenderer`, so that only there a `Component*` is not the address
the object was allocated at. -/
def beginsWithComponent (T : Class) : Bool := T != drawableRenderer

end Class

/-- `getById(g)->findComponents<T>()`, in the storage an `afterSet` looks into. -/
abbrev Lookup := Int32 → Class → Comp (List Addr)

namespace Lookup

/-- The component that is named by the id of its game object and its place among the components of its class there. -/
def resolve (find : Lookup) (T : Class) (p : Int32 × Int32) : Comp Addr := do elemAt (← find p.1 T) (sizeT p.2.toInt)

/-- The first component of a class. -/
def first (find : Lookup) (T : Class) (g : Int32) : Comp Addr := do elemAt (← find g T) 0

end Lookup

/-! ## Pairs of numbers

The members of a pair are pushed one after the other. -/

def writePair (p : Int32 × Int32) : Ser Unit := do
  write p.1
  write p.2

def readPair : Ser (Int32 × Int32) := do
  let temp0 ← read Int32
  let temp1 ← read Int32
  return (temp1, temp0)

/-! ## FileComponent -/

structure FileComponent where
  toPutInFile : List UInt8 := []
  filePath : List UInt8 := []
  deriving DecidableEq

namespace FileComponent

/-- `set` also writes the file. -/
def set (this : FileComponent) : Ser FileComponent := do
  let filePath ← readString
  let toPutInFile ← readAll (read UInt8) this.toPutInFile
  outside fun w => do
    let disk ← createFileWith (cStr filePath) toPutInFile w.disk
    return ({ toPutInFile, filePath }, { w with disk })

def serialize (this : FileComponent) : Ser Unit := do
  writeAll write this.toPutInFile
  writeString this.filePath
  writeCString Class.fileComponent.typeName

end FileComponent

/-! ## Transform -/

structure Transform where
  position : XMFLOAT3
  rotation : XMFLOAT3
  scale : XMFLOAT3
  dirty : Bool
  pGOID : Int32 := -1
  parrent : Option Addr
  deriving DecidableEq

namespace Transform

def new (_ : Storage) : Transform where
  position := (0, 0, 0)
  rotation := (0, 0, 0)
  scale := (oneF, oneF, oneF)
  dirty := true
  parrent := none

def set (this : Transform) : Ser Transform := do
  let pGOID ← read Int32
  let scale ← read XMFLOAT3
  let rotation ← read XMFLOAT3
  let position ← read XMFLOAT3
  return { this with pGOID, scale, rotation, position, dirty := true }

def afterSet (find : Lookup) (this : Transform) : Comp Transform := do
  if this.pGOID ≠ -1 then
    let parrent ← find.first .transform this.pGOID
    return { this with parrent := some parrent }
  else return this

def serialize (this : Transform) : Ser Unit := do
  write this.position
  write this.rotation
  write this.scale
  write this.pGOID
  writeCString Class.transform.typeName

end Transform

/-! ## Kamera -/

structure Kamera where
  transform : Option Addr
  projectionDirty : Bool
  screenWidth : FloatBits
  screenHeigth : FloatBits
  maxViewDist : FloatBits
  minViewDist : FloatBits
  orthogonal : Bool
  deriving DecidableEq

namespace Kamera

def new (s : Storage) : Kamera where
  transform := s.pointer 2
  projectionDirty := s.flag 4
  screenWidth := s.word 5
  screenHeigth := s.word 6
  maxViewDist := s.word 7
  minViewDist := s.word 8
  orthogonal := s.flag 9

def setRequirements (toSet : List Addr) (this : Kamera) : Comp Kamera := do
  let transform ← elemAt toSet 0
  return { this with transform := some transform }

def set (this : Kamera) : Ser Kamera := do
  let orthogonal ← read Bool
  let minViewDist ← read FloatBits
  let maxViewDist ← read FloatBits
  let screenHeigth ← read FloatBits
  let screenWidth ← read FloatBits
  return { this with orthogonal, minViewDist, maxViewDist, screenHeigth, screenWidth, projectionDirty := true }

def serialize (this : Kamera) : Ser Unit := do
  write this.screenWidth
  write this.screenHeigth
  write this.maxViewDist
  write this.minViewDist
  write this.orthogonal
  writeCString Class.kamera.typeName

end Kamera

/-! ## Button -/

structure Button where
  transform : Option Addr
  up : Bool
  down : Bool
  payload : List Addr := []
  payloadIDs : List (Int32 × Int32) := []
  deriving DecidableEq

namespace Button

def new (s : Storage) : Button where
  transform := s.pointer 2
  up := s.flag 3
  down := s.flag 4

def setRequirements (toSet : List Addr) (this : Button) : Comp Button := do
  let transform ← elemAt toSet 0
  return { this with transform := some transform }

def set (this : Button) : Ser Button := do
  let payloadIDs ← readAll readPair this.payloadIDs
  return { this with payloadIDs }

def afterSet (find : Lookup) (this : Button) : Comp Button := do
  let found ← this.payloadIDs.mapM (find.resolve .buttonActor)
  return { this with payload := this.payload ++ found }

def serialize (this : Button) : Ser Unit := do
  writeAll writePair this.payloadIDs
  writeCString Class.button.typeName

end Button

/-! ## DrawableRenderer -/

/-- `DrawableRenderer` with the members of `Dx11Base` it saves. -/
structure DrawableRenderer where
  colorFormat : Int32 := 28
  refreshRateN : Int32 := 60
  refreshRateD : Int32 := 1
  windowed : Bool := true
  currentCamera : Option Addr
  currentCameraID : Int32
  buttons : List Addr := []
  buttonGameObjectIDs : List Int32 := []
  backgroundColor : XMFLOAT4 := (0, 0, 0, oneF)
  allDrawable : List Addr := []
  allDrawableIDs : List (Int32 × Int32) := []
  deriving DecidableEq

namespace DrawableRenderer

def new (s : Storage) : DrawableRenderer where
  currentCamera := s.pointer 10
  currentCameraID := (s.word 11).toInt32

def set (this : DrawableRenderer) : Ser DrawableRenderer := do
  let allDrawableIDs ← readAll readPair this.allDrawableIDs
  let buttonGameObjectIDs ← readAll (read Int32) this.buttonGameObjectIDs
  let b3 ← read FloatBits
  let b2 ← read FloatBits
  let b1 ← read FloatBits
  let b0 ← read FloatBits
  let windowed ← read Bool
  let refreshRateD ← read Int32
  let refreshRateN ← read Int32
  let colorFormat ← read Int32
  let currentCameraID ← read Int32
  return { this with
    allDrawableIDs, buttonGameObjectIDs, backgroundColor := (b0, b1, b2, b3), windowed, refreshRateD, refreshRateN,
    colorFormat, currentCameraID }

def afterSet (find : Lookup) (this : DrawableRenderer) : Comp DrawableRenderer := do
  let buttons ← this.buttonGameObjectIDs.mapM (find.first .button)
  let allDrawable ← this.allDrawableIDs.mapM (find.resolve .drawable)
  let currentCamera ← find.first .kamera this.currentCameraID
  return { this with
    buttons := this.buttons ++ buttons, allDrawable := this.allDrawable ++ allDrawable,
    currentCamera := some currentCamera }

/-- The number of buttons saved is the length of `buttons`, not of the list the ids are taken from. -/
def serialize (this : DrawableRenderer) : Ser Unit := do
  write this.currentCameraID
  write this.colorFormat
  write this.refreshRateN
  write this.refreshRateD
  write this.windowed
  let (b0, b1, b2, b3) := this.backgroundColor
  write b0
  write b1
  write b2
  write b3
  forDown this.buttons.length fun i => do
    let ID ← lift (elemAt this.buttonGameObjectIDs i)
    write ID
  write (Int32.ofNat this.buttons.length)
  writeAll writePair this.allDrawableIDs
  writeCString Class.drawableRenderer.typeName

end DrawableRenderer

/-! ## Sprite and TeilSprite -/

structure Sprite where
  transform : Option Addr := none
  texturePath : List UInt8 := []
  shaderPath : List UInt8 := []
  deriving DecidableEq

namespace Sprite

def setRequirements (toSet : List Addr) (this : Sprite) : Comp Sprite := do
  let transform ← elemAt toSet 0
  return { this with transform := some transform }

def set (this : Sprite) : Ser Sprite := do
  let shaderPath ← readString
  let texturePath ← readString
  return { this with shaderPath, texturePath }

def serialize (this : Sprite) : Ser Unit := do
  writeString this.texturePath
  writeString this.shaderPath
  writeCString Class.sprite.typeName

end Sprite

structure TeilSprite where
  transform : Option Addr
  texturePath : List UInt8 := []
  shaderPath : List UInt8 := []
  spriteRect : XMFLOAT4 := (0, 0, oneF, oneF)
  deriving DecidableEq

namespace TeilSprite

def new (s : Storage) : TeilSprite where
  transform := s.pointer 2

def setRequirements (toSet : List Addr) (this : TeilSprite) : Comp TeilSprite := do
  let transform ← elemAt toSet 0
  return { this with transform := some transform }

def set (this : TeilSprite) : Ser TeilSprite := do
  let r3 ← read FloatBits
  let r2 ← read FloatBits
  let r1 ← read FloatBits
  let r0 ← read FloatBits
  let shaderPath ← readString
  let texturePath ← readString
  return { this with spriteRect := (r0, r1, r2, r3), shaderPath, texturePath }

def serialize (this : TeilSprite) : Ser Unit := do
  writeString this.texturePath
  writeString this.shaderPath
  let (r0, r1, r2, r3) := this.spriteRect
  write r0
  write r1
  write r2
  write r3
  writeCString Class.teilSprite.typeName

end TeilSprite

/-! ## InstancedSprite -/

structure InstancedSprite where
  texturePath : List UInt8 := []
  shaderPath : List UInt8 := []
  instancen : List Addr := []
  instancenID : List Int32 := []
  deriving DecidableEq

namespace InstancedSprite

def set (this : InstancedSprite) : Ser InstancedSprite := do
  let instancenID ← readAll (read Int32) this.instancenID
  let shaderPath ← readString
  let texturePath ← readString
  return { this with instancenID, shaderPath, texturePath }

def afterSet (find : Lookup) (this : InstancedSprite) : Comp InstancedSprite := do
  let found ← this.instancenID.mapM (find.first .transform)
  return { this with instancen := this.instancen ++ found }

def serialize (this : InstancedSprite) : Ser Unit := do
  writeString this.texturePath
  writeString this.shaderPath
  writeAll write this.instancenID
  writeCString Class.instancedSprite.typeName

end InstancedSprite

/-! ## InstancedTeilSprite and its instances -/

structure InstancedTeilSprite where
  texturePath : List UInt8 := []
  shaderPath : List UInt8 := []
  instancen : List Addr := []
  instancenIDs : List (Int32 × Int32) := []
  deriving DecidableEq

namespace InstancedTeilSprite

def set (this : InstancedTeilSprite) : Ser InstancedTeilSprite := do
  let instancenIDs ← readAll readPair this.instancenIDs
  let shaderPath ← readString
  let texturePath ← readString
  return { this with instancenIDs, shaderPath, texturePath }

def afterSet (find : Lookup) (this : InstancedTeilSprite) : Comp InstancedTeilSprite := do
  let found ← this.instancenIDs.mapM (find.resolve .instancedTeilSpriteInstance)
  return { this with instancen := this.instancen ++ found }

def serialize (this : InstancedTeilSprite) : Ser Unit := do
  writeString this.texturePath
  writeString this.shaderPath
  writeAll writePair this.instancenIDs
  writeCString Class.instancedTeilSprite.typeName

/-- `InstancedTeilSprite::Instance`. -/
structure Instance where
  transform : Option Addr
  rect : XMFLOAT4
  deriving DecidableEq

namespace Instance

def new (s : Storage) : Instance where
  transform := s.pointer 2
  rect := (s.word 3, s.word 4, s.word 5, s.word 6)

def setRequirements (toSet : List Addr) (this : Instance) : Comp Instance := do
  let transform ← elemAt toSet 0
  return { this with transform := some transform }

def set (this : Instance) : Ser Instance := do
  let rect ← read XMFLOAT4
  return { this with rect }

def serialize (this : Instance) : Ser Unit := do
  write this.rect
  writeCString Class.instancedTeilSpriteInstance.typeName

end Instance

end InstancedTeilSprite

/-! ## StringRenderer and its instances -/

structure StringRenderer where
  texturePath : List UInt8 := []
  shaderPath : List UInt8 := []
  tabSize : FloatBits := oneF
  endLineSize : FloatBits := oneF
  charSizeMultiplier : FloatBits := oneF
  alphabetRects : Vector Float6 256
  instancen : List Addr := []
  instancenIDs : List (Int32 × Int32) := []
  deriving DecidableEq

namespace StringRenderer

/-- The rectangles are read as six words each. -/
def new (s : Storage) : StringRenderer where
  alphabetRects := Vector.ofFn fun i =>
    let w := fun k => s.word (7 + 6 * i.val + k)
    (w 0, w 1, w 2, w 3, w 4, w 5)

/-- `for (int i = 0; i < 256; i++) from >> m_alphabetRects[i];` -/
def setAlphabetRects (rects : Vector Float6 256) : Ser (Vector Float6 256) := do
  let (_, rects) ← ByteStack.loop 256 (fun (i, rects) => do
    let r ← read Float6
    return (i + 1, rects.setIfInBounds i r)) (0, rects)
  return rects

def set (this : StringRenderer) : Ser StringRenderer := do
  let alphabetRects ← setAlphabetRects this.alphabetRects
  let instancenIDs ← readAll readPair this.instancenIDs
  let charSizeMultiplier ← read FloatBits
  let endLineSize ← read FloatBits
  let tabSize ← read FloatBits
  let shaderPath ← readString
  let texturePath ← readString
  return { this with
    alphabetRects, instancenIDs, charSizeMultiplier, endLineSize, tabSize, shaderPath, texturePath }

def afterSet (find : Lookup) (this : StringRenderer) : Comp StringRenderer := do
  let found ← this.instancenIDs.mapM (find.resolve .stringRendererInstance)
  return { this with instancen := this.instancen ++ found }

def serialize (this : StringRenderer) : Ser Unit := do
  writeString this.texturePath
  writeString this.shaderPath
  write this.tabSize
  write this.endLineSize
  write this.charSizeMultiplier
  writeAll writePair this.instancenIDs
  (List.finRange 256).reverse.forM fun i => write (this.alphabetRects.get i)
  writeCString Class.stringRenderer.typeName

/-- `StringRenderer::Instance`. -/
structure Instance where
  transform : Option Addr
  string : List UInt8 := []
  deriving DecidableEq

namespace Instance

def new (s : Storage) : Instance where
  transform := s.pointer 2

def setRequirements (toSet : List Addr) (this : Instance) : Comp Instance := do
  let transform ← elemAt toSet 0
  return { this with transform := some transform }

def set (this : Instance) : Ser Instance := do
  let string ← readString
  return { this with string }

/-- `own` are the transforms of the game object the instance belongs to. -/
def afterSet (own : List Addr) (this : Instance) : Comp Instance := do
  let transform ← elemAt own 0
  return { this with transform := some transform }

def serialize (this : Instance) : Ser Unit := do
  writeString this.string
  writeCString Class.stringRendererInstance.typeName

end Instance

end StringRenderer

/-! ## Objects of any class -/

/-- The data of a component of a registered class. -/
inductive Data where
  | fileComponent (c : FileComponent)
  | transform (c : Transform)
  | kamera (c : Kamera)
  | button (c : Button)
  | drawableRenderer (c : DrawableRenderer)
  | sprite (c : Sprite)
  | teilSprite (c : TeilSprite)
  | instancedSprite (c : InstancedSprite)
  | instancedTeilSprite (c : InstancedTeilSprite)
  | instancedTeilSpriteInstance (c : InstancedTeilSprite.Instance)
  | stringRenderer (c : StringRenderer)
  | stringRendererInstance (c : StringRenderer.Instance)
  deriving DecidableEq

namespace Data

def classOf : Data → Class
  | fileComponent _ => .fileComponent
  | transform _ => .transform
  | kamera _ => .kamera
  | button _ => .button
  | drawableRenderer _ => .drawableRenderer
  | sprite _ => .sprite
  | teilSprite _ => .teilSprite
  | instancedSprite _ => .instancedSprite
  | instancedTeilSprite _ => .instancedTeilSprite
  | instancedTeilSpriteInstance _ => .instancedTeilSpriteInstance
  | stringRenderer _ => .stringRenderer
  | stringRendererInstance _ => .stringRendererInstance

/-- `new T` for a registered class. -/
def new : Class → Option (Storage → Data)
  | .fileComponent => some fun _ => fileComponent {}
  | .transform => some fun s => transform (Transform.new s)
  | .kamera => some fun s => kamera (Kamera.new s)
  | .button => some fun s => button (Button.new s)
  | .drawableRenderer => some fun s => drawableRenderer (DrawableRenderer.new s)
  | .sprite => some fun _ => sprite {}
  | .teilSprite => some fun s => teilSprite (TeilSprite.new s)
  | .instancedSprite => some fun _ => instancedSprite {}
  | .instancedTeilSprite => some fun _ => instancedTeilSprite {}
  | .instancedTeilSpriteInstance => some fun s => instancedTeilSpriteInstance (InstancedTeilSprite.Instance.new s)
  | .stringRenderer => some fun s => stringRenderer (StringRenderer.new s)
  | .stringRendererInstance => some fun s => stringRendererInstance (StringRenderer.Instance.new s)
  | .buttonActor | .drawable => none

/-- The classes with a `ComponentRegister`. -/
def registeredClasses : List Class :=
  [.fileComponent, .transform, .kamera, .button, .drawableRenderer, .sprite, .teilSprite, .instancedSprite,
    .instancedTeilSprite, .instancedTeilSpriteInstance, .stringRenderer, .stringRendererInstance]

/-- The map of `ComponentFactory`. -/
def registered (name : List UInt8) : Option (Storage → Data) :=
  (registeredClasses.find? fun T => T.typeName == name).bind new

def setRequirements (toSet : List Addr) : Data → Comp Data
  | kamera c => kamera <$> c.setRequirements toSet
  | button c => button <$> c.setRequirements toSet
  | sprite c => sprite <$> c.setRequirements toSet
  | teilSprite c => teilSprite <$> c.setRequirements toSet
  | instancedTeilSpriteInstance c => instancedTeilSpriteInstance <$> c.setRequirements toSet
  | stringRendererInstance c => stringRendererInstance <$> c.setRequirements toSet
  | c => pure c

def set : Data → Ser Data
  | fileComponent c => fileComponent <$> c.set
  | transform c => transform <$> c.set
  | kamera c => kamera <$> c.set
  | button c => button <$> c.set
  | drawableRenderer c => drawableRenderer <$> c.set
  | sprite c => sprite <$> c.set
  | teilSprite c => teilSprite <$> c.set
  | instancedSprite c => instancedSprite <$> c.set
  | instancedTeilSprite c => instancedTeilSprite <$> c.set
  | instancedTeilSpriteInstance c => instancedTeilSpriteInstance <$> c.set
  | stringRenderer c => stringRenderer <$> c.set
  | stringRendererInstance c => stringRendererInstance <$> c.set

/-- `afterSet`, with the components of the stored objects and those of the object this one belongs to. -/
def afterSet (find : Lookup) (own : Class → List Addr) : Data → Comp Data
  | transform c => transform <$> c.afterSet find
  | button c => button <$> c.afterSet find
  | drawableRenderer c => drawableRenderer <$> c.afterSet find
  | instancedSprite c => instancedSprite <$> c.afterSet find
  | instancedTeilSprite c => instancedTeilSprite <$> c.afterSet find
  | stringRenderer c => stringRenderer <$> c.afterSet find
  | stringRendererInstance c => stringRendererInstance <$> c.afterSet (own .transform)
  | c => pure c

def serialize : Data → Ser Unit
  | fileComponent c => c.serialize
  | transform c => c.serialize
  | kamera c => c.serialize
  | button c => c.serialize
  | drawableRenderer c => c.serialize
  | sprite c => c.serialize
  | teilSprite c => c.serialize
  | instancedSprite c => c.serialize
  | instancedTeilSprite c => c.serialize
  | instancedTeilSpriteInstance c => c.serialize
  | stringRenderer c => c.serialize
  | stringRendererInstance c => c.serialize

instance : ComponentClasses Data Class where
  typeName := Class.typeName
  classOf := classOf
  isA := Class.isA
  getIsLonly := Class.getIsLonly
  getRequirements := Class.getRequirements
  registered := registered
  setRequirements := setRequirements
  set := set
  afterSet := fun singleton gameobject c =>
    afterSet (fun g T => do
      let o ← singleton.deref g
      return (o.componenten.filter fun d => T.isA d.data.classOf).map Component.addr)
      (fun T => (gameobject.componenten.filter fun d => T.isA d.data.classOf).map Component.addr) c
  serialize := serialize

end Data

end Engine
