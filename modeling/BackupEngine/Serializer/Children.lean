import BackupEngine.Lib.Forest
import BackupEngine.Serializer.Objects

/-!
# Going through the children of an object

The members of `GameObject` that go down the hierarchy. The children are ids, and they are looked up in the singleton,
whatever storage the object is in. What recurses does so without a bound of its own: `depth` is how deep the calls may go,
and the result is none where that is not enough.
-/

namespace Serializer

open Cpp

variable {κ C : Type} [ComponentClasses κ C]

namespace GameObject

/-- `findComponentsInChildren<T>()`: the components of the object and of its children, not of theirs. -/
def findComponentsInChildren (singleton : ObjectStorrage κ) (this : GameObject κ) (T : C) : Comp (List Addr) :=
  this.childrenIds.foldlM (fun toRet ID => do
    let temp ← singleton.deref ID
    return toRet ++ temp.findComponents T) (this.findComponents T)

/-- A loop over the children that appends what `call` gives for each; none as soon as a call gives none. -/
def appendChildren {α : Type} (singleton : ObjectStorrage κ) (call : GameObject κ → Comp (Option (List α)))
    (before : Nat → List α) (start : List α) (childrenIds : List Int32) : Comp (Option (List α)) :=
  Forest.each (fun s (ID, i) => do
    let child ← singleton.deref ID
    let temp ← call child
    return temp.map (s ++ before i ++ ·)) start childrenIds.zipIdx

/-- The body of `findComponentsInChildren(std::string)`. -/
def findInChildren (singleton : ObjectStorrage κ) (name : List UInt8)
    (call : GameObject κ → Comp (Option (List Addr))) (this : GameObject κ) : Comp (Option (List Addr)) :=
  appendChildren singleton call (fun _ => []) (this.findComponentsNamed name) this.childrenIds

/-- `findComponentsInChildren(std::string)`. -/
def findComponentsInChildrenNamed (singleton : ObjectStorrage κ) (name : List UInt8) :
    Nat → GameObject κ → Comp (Option (List Addr)) := Forest.within (findInChildren singleton name)

/-- The body of `toString`, for an object and its layer. -/
def toStringBody (singleton : ObjectStorrage κ) (call : GameObject κ × Nat → Comp (Option (List UInt8)))
    (this : GameObject κ × Nat) : Comp (Option (List UInt8)) := do
  let (this, layer) := this
  let ID ← int (this.ID.toInt + 48)
  let s := [UInt8.ofInt ID] ++ chars "\t"
  if this.childrenIds.isEmpty then return some (s ++ chars "\n")
  else
    appendChildren singleton (fun child => call (child, layer + 1))
      (fun i => (if i > 0 then List.replicate (layer + 1) 9 else []) ++ chars "->") s this.childrenIds

/-- `toString`, with its layer. -/
def toString (singleton : ObjectStorrage κ) : Nat → GameObject κ × Nat → Comp (Option (List UInt8)) :=
  Forest.within (toStringBody singleton)

end GameObject

end Serializer
