import BackupEngine.Application.SceenViewer
import BackupEngine.Lemmas.Components

/-!
# Saving the components of the scene viewer

What `serialize` of a component pushes and what `set` makes of it. A `ButtonChecker` pushes the name of `DragMover`, and a
`DrawableRenderer` as many of its button ids as it has buttons, so that each is saved like another component.
-/

namespace SceenViewer

open Cpp Serializer ByteStack

/-- The ids of a renderer that are pushed: as many as it has buttons. -/
def trimmed : Engine.Data → Engine.Data
  | .drawableRenderer c => .drawableRenderer { c with buttonGameObjectIDs := c.buttonGameObjectIDs.take c.buttons.length }
  | c => c

/-- A renderer has an id for each of its buttons. -/
def Covered : Engine.Data → Prop
  | .drawableRenderer c => c.buttons.length ≤ c.buttonGameObjectIDs.length
  | _ => True

/-- The component that is saved with the same bytes under the name of its own class. -/
def Data.asSaved : Data → Data
  | engine c => engine (trimmed c)
  | dragMover c => dragMover c
  | buttonChecker _ => dragMover {}
  | objectKlicker c => objectKlicker c

/-- All renderers of a component's kind are covered. -/
def Data.Covered : Data → Prop
  | engine c => SceenViewer.Covered c
  | _ => True

/-- What is kept of a component. -/
def Data.saved : Data → Data
  | engine c => engine c.saved
  | dragMover _ => dragMover {}
  | buttonChecker _ => buttonChecker {}
  | objectKlicker _ => objectKlicker { klick := false, onklick := default, inst := none }

/-- The bytes of a component below the name of its class. -/
def Data.encode : Data → List UInt8
  | engine c => c.encode
  | _ => []

/-- Components that are saved under the name of their own class. -/
def Data.Tagged : Data → Prop
  | engine c => c.Even
  | buttonChecker _ => False
  | _ => True

/-- What is not saved does not make the class. -/
theorem classOf_trimmed (c : Engine.Data) : (trimmed c).classOf = c.classOf := by cases c <;> rfl

/-- A saved component is of its class. -/
theorem Data.classOf_saved (c : Data) : c.saved.classOf = c.classOf := by
  cases c with
  | engine c => cases c <;> rfl
  | _ => rfl

/-- A component comes back in its class, unless it is a `ButtonChecker`. -/
theorem Data.classOf_asSaved (c : Data) : c.asSaved.classOf = c.classOf ↔ c.classOf ≠ .buttonChecker := by
  cases c with
  | engine c => simp [asSaved, classOf, classOf_trimmed]
  | _ => simp [asSaved, classOf]

theorem Data.tagged_asSaved {c : Data} (h : c.Covered) : c.asSaved.Tagged := by
  cases c with
  | engine c =>
    cases c with
    | drawableRenderer c =>
      change c.buttons.length = (c.buttonGameObjectIDs.take c.buttons.length).length
      rw [List.length_take]
      exact (Nat.min_eq_left h).symm
    | _ => exact True.intro
  | _ => exact True.intro

/-- The ids beyond the number of buttons are not pushed. -/
theorem serialize_trimmed {c : Engine.Data} (h : Covered c) : (trimmed c).serialize = c.serialize := by
  cases c with
  | drawableRenderer c =>
    have hids : forDown c.buttons.length (fun i => lift (elemAt (c.buttonGameObjectIDs.take c.buttons.length) i) >>= write) =
        forDown c.buttons.length (fun i => lift (elemAt c.buttonGameObjectIDs i) >>= write) := by
      refine forDown_congr fun i hi => ?_
      have helem : elemAt (c.buttonGameObjectIDs.take c.buttons.length) i = elemAt c.buttonGameObjectIDs i := by
        simp only [elemAt, List.getElem?_take_of_lt hi]
      rw [helem]
    simp only [trimmed, Engine.Data.serialize, Engine.DrawableRenderer.serialize, hids]
  | _ => rfl

/-- It is pushed like the component that it comes back as. -/
theorem Data.serialize_asSaved {c : Data} (h : c.Covered) : c.asSaved.serialize = c.serialize := by
  cases c with
  | engine c => exact serialize_trimmed h
  | _ => rfl

/-- The name of a class of the engine leads to the constructor it has in the engine. -/
theorem Data.registered_engine (T : Engine.Class) :
    registered T.typeName = (Engine.Data.registered T.typeName).map fun new s => engine (new s) := by
  have hne : T.typeName ≠ Class.dragMover.typeName ∧ T.typeName ≠ Class.buttonChecker.typeName ∧
      T.typeName ≠ Class.objectKlicker.typeName := by cases T <;> decide
  rw [registered, if_neg hne.1, if_neg hne.2.1, if_neg hne.2.2]

/-- The classes of the program save their components under their own names, but for `ButtonChecker`. -/
theorem saves : Saves Data.saved Data.Tagged Data.encode where
  writes := by
    intro c hc
    cases c with
    | engine c => exact Engine.saves.writes c hc
    | dragMover c => exact writeCString_writes _
    | buttonChecker c => exact hc.elim
    | objectKlicker c => exact writeCString_writes _
  reads := by
    intro c hc
    cases c with
    | engine c =>
      obtain ⟨new, hnew, hread⟩ := Engine.saves.reads c hc
      have hname : Engine.Data.registered c.classOf.typeName = some new := hnew
      refine ⟨fun s => .engine (new s), ?_, fun s => (hread s).map fun c' h => congrArg Data.engine h⟩
      exact (Data.registered_engine c.classOf).trans (by rw [hname, Option.map_some])
    | dragMover c => exact ⟨_, rfl, fun _ => Reads.pure rfl⟩
    | buttonChecker c => exact hc.elim
    | objectKlicker c => exact ⟨_, rfl, fun _ => Reads.pure rfl⟩

/-- No class pushes anything in `set`. -/
theorem pops : Pops Data := by
  intro memory c
  cases c with
  | engine c => exact (Engine.pops memory c).map
  | _ => exact (Keeps.pure _).map

/-- The renderers are covered, no object has the largest `int` as its id, and the bytes of the storage are fewer than a body
may have. -/
structure Fits (st : ObjectStorrage Data) : Prop where
  covered : st.All Data.Covered
  countable : st.Countable
  size : (encodeStorrage Data.encode (st.mapData Data.asSaved)).length < 2 ^ 31

end SceenViewer
