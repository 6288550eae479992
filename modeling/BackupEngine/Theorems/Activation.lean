import BackupEngine.Application.SceenViewer
import BackupEngine.Lemmas.Trees
import BackupEngine.Serializer.Pointers

/-!
# Switching objects on and off

`setActiv` writes its value to an object and into the components of the object. The loop over the children that follows has
an empty body, so the objects below keep their flags and those of their components; a component that is added to one of them
later takes over the flag of the object it is added to.
-/

namespace SceenViewer

open Cpp Serializer

open Forest (Reaches Grounded)

section

variable {κ C : Type} [ComponentClasses κ C]

/-- What becomes of an object by calls of `addComponent` that return. -/
inductive Grown : GameObject κ → GameObject κ → Prop
  | refl (g : GameObject κ) : Grown g g
  | add {g me me' : GameObject κ} {T : C} {w w' : World} (before : Grown g me) (call : me.addComponent T w = .ok (me', w')) :
    Grown g me'

/-- A component that is added takes over the flag of the object. -/
theorem addComponent_isActiv {me me' : GameObject κ} {T : C} {w w' : World} (h : me.addComponent T w = .ok (me', w')) :
    ∃ c, me'.componenten = me.componenten ++ [c] ∧ c.isActiv = me.isActiv ∧ me'.isActiv = me.isActiv := by
  unfold GameObject.addComponent at h
  split at h
  · cases h
  · obtain ⟨_, _, h⟩ := bind_eq_ok.mp h
    obtain ⟨⟨c, w₁⟩, _, h⟩ := bind_eq_ok.mp h
    obtain ⟨data, _, h⟩ := bind_eq_ok.mp h
    cases h
    exact ⟨_, rfl, rfl, rfl⟩

/-- An object that is switched to a value, with its components. -/
def Switched (v : Bool) (g : GameObject κ) : Prop := g.isActiv = v ∧ ∀ c ∈ g.componenten, c.isActiv = v

theorem Switched.grown {v : Bool} {g g' : GameObject κ} (h : Switched v g) (hgrown : Grown g g') : Switched v g' := by
  induction hgrown with
  | refl => exact h
  | add _ call ih =>
    obtain ⟨c, hcomponenten, hflag, hkeep⟩ := addComponent_isActiv call
    refine ⟨hkeep.trans ih.1, fun d hd => ?_⟩
    rw [hcomponenten] at hd
    rcases List.mem_append.mp hd with hd | hd
    · exact ih.2 d hd
    · obtain rfl := List.mem_singleton.mp hd
      exact hflag.trans ih.1

end

variable {st : ObjectStorrage Data} {o : Int32} {g : GameObject Data} {v : Bool}

/-- An object with a child that has one component; all flags are the same. -/
def family (flag : Bool) : ObjectStorrage Data :=
  let c : Component Data := { addr := 0, isActiv := flag, data := .engine (.fileComponent {}) }
  let parrent : GameObject Data := { ID := 0, childrenIds := [1], isActiv := flag }
  let child : GameObject Data := { ID := 1, parrentID := 0, componenten := [c], isActiv := flag }
  { objects := .ofList [((0 : Int32), parrent), (1, child)], counter := 2 }

theorem family_agrees (flag : Bool) : (family flag).Agrees ∧ Grounded (family flag).parrentOf := by
  refine ⟨.of_entries ?_, ObjectStorrage.grounded_of_entries 3 ?_⟩ <;> cases flag <;> decide +kernel

end SceenViewer
