import BackupEngine.Serializer.Objects

/-!
# Reparenting with what a throw leaves behind

`GameObject::setParrentID` statement by statement on the singleton: where it throws, the caller that catches it finds the
storage as it is then.
-/

namespace Serializer

open Cpp

variable {κ C : Type} [ComponentClasses κ C]

namespace ObjectStorrage

/-- What reads the storage, or throws. -/
def ask {α : Type} (f : ObjectStorrage κ → Comp α) : EStateM Fault (ObjectStorrage κ) α := fun st =>
  match f st with
  | .ok a => .ok a st
  | .error e => .error e st

/-- A statement that writes to one object, or throws. -/
def change (f : ObjectStorrage κ → Comp (ObjectStorrage κ)) : EStateM Fault (ObjectStorrage κ) Unit := do
  let st ← ask f
  modify fun _ => st

/-- `GameObject::setParrentID` of the object stored under `this`. -/
def setParrentIDFrom (this parrentID : Int32) : EStateM Fault (ObjectStorrage κ) Unit := do
  let me ← ask (·.deref this)
  change (·.leaveParrent me)
  change (·.enterParrent parrentID me)
  change fun st => do
    let me ← st.deref this
    return st.store this { me with parrentID }

end ObjectStorrage

end Serializer
