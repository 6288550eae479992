import BackupEngine.Serializer.FileWriter

/-!
# Game objects

A game object has an id, the id of its parent, the ids of its children and a list of components; `ObjectStorrage` keeps the
game objects in a `std::map` under their ids. A `GameObject*` to a stored object is the id it is stored under.

`Component` is an abstract class. Its classes are given by `ComponentClasses`: the data of an object of any of them is a
`κ`, and the virtual and static members are functions on it. `Component.gameobject` is the object whose list holds the
component.
-/

namespace Serializer

open Cpp

def EMPTY_ID : Int32 := -1

/-- A `Component`: where it is, its own members, and what its class adds. -/
structure Component (κ : Type) where
  addr : Addr
  isActiv : Bool
  data : κ
  deriving DecidableEq

/-- `GameObject`. The constructor leaves `isActiv` as it is. -/
structure GameObject (κ : Type) where
  ID : Int32 := EMPTY_ID
  parrentID : Int32 := EMPTY_ID
  childrenIds : List Int32 := []
  componenten : List (Component κ) := []
  isActiv : Bool
  name : List UInt8 := []
  deriving DecidableEq

/-- `ObjectStorrage`. `counter` is an `int`: whatever is assigned to it is computed with `int`. -/
structure ObjectStorrage (κ : Type) where
  objects : Std.ExtTreeMap Int32 (GameObject κ) := ∅
  counter : Int := 0
  deriving DecidableEq

/-- The classes derived from `Component`: `C` names them, abstract ones included, and `κ` is the data of an object. -/
class ComponentClasses (κ : Type) (C : outParam Type) where
  /-- `typeid(T).name()`. -/
  typeName : C → List UInt8
  /-- The class an object was created with. -/
  classOf : κ → C
  /-- `isA T S`: a pointer to an `S` casts dynamically to `T*`. -/
  isA : C → C → Bool
  getIsLonly : C → Bool
  getRequirements : C → List (List UInt8)
  /-- The constructors in the map of `ComponentFactory`, by name. -/
  registered : List UInt8 → Option (Storage → κ)
  setRequirements : List Addr → κ → Comp κ
  set : κ → Ser κ
  /-- The singleton storage, the object that holds the component, and the component. -/
  afterSet : ObjectStorrage κ → GameObject κ → κ → Comp κ
  serialize : κ → Ser Unit

section

variable {κ C : Type} [ComponentClasses κ C]

open ComponentClasses (typeName classOf isA getIsLonly getRequirements registered)

/-- `ComponentFactory::createInstance`, followed by a use of the pointer: it is null for a name nobody registered. -/
def createInstance (name : List UInt8) (w : World) : Comp (Component κ × World) :=
  match registered name with
  | none => .error .badAccess
  | some new =>
    let (addr, storage, w) := w.alloc
    .ok ({ addr, isActiv := storage.flag 0, data := new storage }, w)

namespace GameObject

/-- `new GameObject()`. -/
def new (w : World) : GameObject κ × World :=
  let (_, storage, w) := w.alloc
  ({ isActiv := storage.flag 4 }, w)

def addChild (this : GameObject κ) (ID : Int32) : GameObject κ := { this with childrenIds := this.childrenIds ++ [ID] }

/-- `remChild`: what `std::find` found is erased; the end of the list must not be. -/
def remChild (this : GameObject κ) (ID : Int32) : Comp (GameObject κ) :=
  if ID ∈ this.childrenIds then .ok { this with childrenIds := this.childrenIds.erase ID } else .error .eraseEnd

/-- `findComponents<T>()`. -/
def findComponents (this : GameObject κ) (T : C) : List Addr :=
  (this.componenten.filter fun c => isA κ T (classOf c.data)).map Component.addr

/-- `findComponents(std::string)`. -/
def findComponentsNamed (this : GameObject κ) (name : List UInt8) : List Addr :=
  (this.componenten.filter fun c => typeName κ (classOf c.data) == name).map Component.addr

/-- `addComponent<T>()`. -/
def addComponent (this : GameObject κ) (T : C) (w : World) : Comp (GameObject κ × World) := do
  if getIsLonly κ T && !(this.findComponents T).isEmpty then .error .thrown
  let toSetInComponent ← (getRequirements κ T).mapM fun name =>
    match this.findComponentsNamed name with
    | c :: _ => Except.ok c
    | [] => .error .thrown
  let (c, w) ← createInstance (typeName κ T) w
  let data ← ComponentClasses.setRequirements toSetInComponent c.data
  return ({ this with componenten := this.componenten ++ [{ c with data, isActiv := this.isActiv }] }, w)

/-- `~GameObject`: each component is deleted through a `Component*`. `Component` has no virtual destructor, so this is undefined
whatever class the component has; `deletes` says for which classes the platform lets it pass. -/
def destroy (deletes : C → Bool) (this : GameObject κ) : Comp Unit := do
  let _ ← int this.componenten.length
  this.componenten.forM fun c => if deletes (ComponentClasses.classOf c.data) then .ok () else .error .badDelete

def set (this : GameObject κ) : Ser (GameObject κ) := do
  let ID ← read Int32
  let name ← readString
  let parrentID ← read Int32
  let childrenIds ← readAll (read Int32) this.childrenIds
  let componenten ← readAll (do
    let name ← readString
    let c ← outside (createInstance name)
    let data ← ComponentClasses.set c.data
    return { c with data }) this.componenten
  return { this with ID, name, parrentID, childrenIds, componenten }

def serialize (this : GameObject κ) : Ser Unit := do
  writeAll (fun c => ComponentClasses.serialize c.data) this.componenten
  writeAll write this.childrenIds
  write this.parrentID
  writeString this.name
  write this.ID
  writeCString (chars "class GameObject")

end GameObject

namespace ObjectStorrage

/-- `getById`; `none` is the null pointer. -/
def getById (this : ObjectStorrage κ) (ID : Int32) : Option (GameObject κ) := this.objects[ID]?

/-- `getById` used without a check. -/
def deref (this : ObjectStorrage κ) (ID : Int32) : Comp (GameObject κ) :=
  match this.getById ID with
  | some g => .ok g
  | none => .error .badAccess

/-- A write through a pointer to the object stored under `ID`. -/
def store (this : ObjectStorrage κ) (ID : Int32) (g : GameObject κ) : ObjectStorrage κ :=
  { this with objects := this.objects.modify ID fun _ => g }

/-- `std::map::insert`: an id that is taken keeps its object. -/
def addOnId (this : ObjectStorrage κ) (ID : Int32) (g : GameObject κ) : ObjectStorrage κ :=
  { this with objects := this.objects.insertIfNew ID g }

/-- `createGameObject`; the result is the pointer to the new object. -/
def createGameObject (this : ObjectStorrage κ) (w : World) : Comp ((Int32 × ObjectStorrage κ) × World) := do
  let (temp, w) := GameObject.new w
  let ID := Int32.ofInt (← int this.counter)
  let this := this.addOnId ID { temp with ID }
  let counter ← int (this.counter + 1)
  return ((ID, { this with counter }), w)

/-- `clear`: every object is deleted. -/
def clear (deletes : C → Bool) (this : ObjectStorrage κ) : Comp (ObjectStorrage κ) := do
  this.objects.toList.forM fun it => it.2.destroy deletes
  return { objects := ∅, counter := 0 }

/-- `findByName`; the results are pointers to stored objects. `operator[]` of the map makes a null entry for a number that is
no id, and what follows reads through it. -/
def findByName (this : ObjectStorrage κ) (name : List UInt8) : Comp (List Int32) := do
  let _ ← int this.objects.size
  (List.range this.objects.size).foldlM (fun toRet i => do
    let it ← this.deref (Int32.ofNat i)
    return if it.name = name then toRet ++ [Int32.ofNat i] else toRet) []

/-- How `setParrentID` and `setParrent` begin: the object `me` is taken out of the list of its parent. -/
def leaveParrent (st : ObjectStorrage κ) (me : GameObject κ) : Comp (ObjectStorrage κ) :=
  if me.parrentID ≠ EMPTY_ID then do
    let temp ← st.deref me.parrentID
    let temp ← temp.remChild me.ID
    return st.store me.parrentID temp
  else return st

/-- How `setParrentID` goes on: an id that is not empty must be stored, and its object takes `me` into its list. -/
def enterParrent (st : ObjectStorrage κ) (parrentID : Int32) (me : GameObject κ) : Comp (ObjectStorrage κ) :=
  if parrentID ≠ EMPTY_ID then
    match st.getById parrentID with
    | some temp => .ok (st.store parrentID (temp.addChild me.ID))
    | none => .error .thrown
  else return st

/-- `GameObject::setParrentID` of the object stored under `this`. -/
def setParrentID (st : ObjectStorrage κ) (this parrentID : Int32) : Comp (ObjectStorrage κ) := do
  let me ← st.deref this
  let st ← st.leaveParrent me
  let st ← st.enterParrent parrentID me
  let me ← st.deref this
  return st.store this { me with parrentID }

/-- `GameObject::setParrent` of the object stored under `this`, with a pointer to the one stored under `parrent`. -/
def setParrent (st : ObjectStorrage κ) (this parrent : Int32) : Comp (ObjectStorrage κ) := do
  let me ← st.deref this
  let st ← st.leaveParrent me
  let temp ← st.deref parrent
  let st := st.store parrent (temp.addChild me.ID)
  let me ← st.deref this
  return st.store this { me with parrentID := temp.ID }

/-- `addComponent<T>` on the object stored under `this`. -/
def addComponent (st : ObjectStorrage κ) (this : Int32) (T : C) (w : World) : Comp (ObjectStorrage κ × World) := do
  let me ← st.deref this
  let (me, w) ← me.addComponent T w
  return (st.store this me, w)

/-- `set`: the objects are put under the ids they carry. -/
def set (this : ObjectStorrage κ) : Ser (ObjectStorrage κ) := do
  let size ← read UInt64
  forUpTo size (fun this => do
    let temp ← outside fun w => .ok (GameObject.new w)
    let _ ← readString
    let temp ← temp.set
    let this := this.addOnId temp.ID temp
    let next ← lift (int (temp.ID.toInt + 1))
    return { this with counter := max this.counter next }) this

def serialize (this : ObjectStorrage κ) : Ser Unit := do
  this.objects.toList.forM fun it => it.2.serialize
  write (UInt64.ofNat this.objects.size)
  writeCString (chars "class ObjectStorrage")

/-- `GameObject::afterSet` of the object stored under `ID` in the singleton: its components one after the other. -/
def afterSetObject (this : ObjectStorrage κ) (ID : Int32) : Comp (ObjectStorrage κ) := do
  let me ← this.deref ID
  let _ ← int me.componenten.length
  (List.range me.componenten.length).foldlM (fun this i => do
    let me ← this.deref ID
    let c ← elemAt me.componenten i
    let data ← ComponentClasses.afterSet this me c.data
    let componenten ← setAt me.componenten i { c with data }
    return this.store ID { me with componenten }) this

/-- `afterSet` of the singleton. `operator[]` of the map makes a null entry for a number that is no id. -/
def afterSet (this : ObjectStorrage κ) : Comp (ObjectStorrage κ) := do
  let _ ← int this.objects.size
  (List.range this.objects.size).foldlM (fun this i => this.afterSetObject (Int32.ofNat i)) this

/-- A scene is loaded by popping the type name and calling `set`. -/
def load (this : ObjectStorrage κ) : Ser (List UInt8 × ObjectStorrage κ) := do
  let name ← readString
  return (name, ← this.set)

end ObjectStorrage

end

end Serializer
