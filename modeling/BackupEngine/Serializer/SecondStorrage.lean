import BackupEngine.Serializer.Children

/-!
# A storage beside the singleton

What the operations do on an `ObjectStorrage` that is not the singleton instance, and on its objects. The objects look ids up
in the singleton, so that two storages are read and written.
-/

namespace Serializer

open Cpp

variable {κ C : Type} [ComponentClasses κ C]

namespace ObjectStorrage

/-- `setParrentID` of the object stored under `this` in `own`: the parents are those of the singleton. -/
def setParrentIDBeside (own singleton : ObjectStorrage κ) (this parrentID : Int32) :
    Comp (ObjectStorrage κ × ObjectStorrage κ) := do
  let me ← own.deref this
  let singleton ← singleton.leaveParrent me
  let singleton ← singleton.enterParrent parrentID me
  return (own.store this { me with parrentID }, singleton)

/-- `setParrent` of the object stored under `this` in `own`, with a pointer to the one stored under `parrent` there. -/
def setParrentBeside (own singleton : ObjectStorrage κ) (this parrent : Int32) :
    Comp (ObjectStorrage κ × ObjectStorrage κ) := do
  let me ← own.deref this
  let singleton ← singleton.leaveParrent me
  let temp ← own.deref parrent
  let own := own.store parrent (temp.addChild me.ID)
  let me ← own.deref this
  return (own.store this { me with parrentID := temp.ID }, singleton)

/-- `GameObject::afterSet` of the object stored under `ID` in `own`. -/
def afterSetObjectBeside (own singleton : ObjectStorrage κ) (ID : Int32) : Comp (ObjectStorrage κ) := do
  let me ← own.deref ID
  let _ ← int me.componenten.length
  (List.range me.componenten.length).foldlM (fun own i => do
    let me ← own.deref ID
    let c ← elemAt me.componenten i
    let data ← ComponentClasses.afterSet singleton me c.data
    let componenten ← setAt me.componenten i { c with data }
    return own.store ID { me with componenten }) own

/-- `afterSet` of `own`. -/
def afterSetBeside (own singleton : ObjectStorrage κ) : Comp (ObjectStorrage κ) := do
  let _ ← int own.objects.size
  (List.range own.objects.size).foldlM (fun own i => own.afterSetObjectBeside singleton (Int32.ofNat i)) own

end ObjectStorrage

/-- What a call returns: a pointer to a stored object, what is left of a body, a string or components where the recursion
ended, or nothing. -/
inductive Result where
  | pointer (ID : Int32)
  | body (rest : SerializedObject)
  | string (s : Option (List UInt8))
  | components (cs : Option (List Addr))
  | nothing
  deriving DecidableEq

/-- A call on a storage or on one of its objects; `depth` is how deep a recursion may go. -/
inductive StorrageCall (C : Type) where
  | createGameObject
  | set (image : SerializedObject)
  | setParrentID (this parrentID : Int32)
  | setParrent (this parrent : Int32)
  | toString (this : Int32) (layer depth : Nat)
  | findComponentsInChildren (this : Int32) (T : C)
  | findComponentsInChildrenNamed (this : Int32) (name : List UInt8) (depth : Nat)
  | afterSetObject (this : Int32)
  | afterSet

/-- A storage, the singleton, heap and disk, and what the calls on the storage have returned. -/
structure Storrages (κ : Type) where
  own : ObjectStorrage κ
  singleton : ObjectStorrage κ
  world : World
  results : List Result := []

namespace Storrages

/-- A call returns. -/
def give (s : Storrages κ) (r : Result) : Storrages κ := { s with results := s.results ++ [r] }

/-- One call. -/
def call (s : Storrages κ) : StorrageCall C → Comp (Storrages κ)
  | .createGameObject => do
    let ((ID, own), world) ← s.own.createGameObject s.world
    return { s with own, world }.give (.pointer ID)
  | .set image => do
    let (own, rest, world) ← s.own.set (image, s.world)
    return { s with own, world }.give (.body rest)
  | .setParrentID this parrentID => do
    let (own, singleton) ← s.own.setParrentIDBeside s.singleton this parrentID
    return { s with own, singleton }.give .nothing
  | .setParrent this parrent => do
    let (own, singleton) ← s.own.setParrentBeside s.singleton this parrent
    return { s with own, singleton }.give .nothing
  | .toString this layer depth => do
    let me ← s.own.deref this
    let r ← GameObject.toString s.singleton depth (me, layer)
    return s.give (.string r)
  | .findComponentsInChildren this T => do
    let me ← s.own.deref this
    let r ← me.findComponentsInChildren s.singleton T
    return s.give (.components (some r))
  | .findComponentsInChildrenNamed this name depth => do
    let me ← s.own.deref this
    let r ← GameObject.findComponentsInChildrenNamed s.singleton name depth me
    return s.give (.components r)
  | .afterSetObject this => do
    let own ← s.own.afterSetObjectBeside s.singleton this
    return { s with own }.give .nothing
  | .afterSet => do
    let own ← s.own.afterSetBeside s.singleton
    return { s with own }.give .nothing

/-- A sequence of calls. -/
def calls (s : Storrages κ) (cs : List (StorrageCall C)) : Comp (Storrages κ) := cs.foldlM call s

end Storrages

end Serializer
