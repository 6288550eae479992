import BackupEngine.Lemmas.Displayer
import BackupEngine.Lib.Transition

/-!
# Going up and down the hierarchy ends

Nothing keeps an object from being moved below itself or below one of the objects under it. From then on the parent ids go in
circles, and what goes down to the children does not end. Where no such move is made, the parent ids of every object lead to
`EMPTY_ID` and the recursions end.
-/

namespace SceenViewer

open Cpp Serializer Transition

open Forest (Reaches Grounded)

/-- A call that changes the hierarchy of the singleton. -/
inductive HierarchyCall where
  | createGameObject
  | setParrent (this parrent : Int32)
  | setParrentID (this parrentID : Int32)

namespace HierarchyCall

/-- The objects the call is about are stored. -/
def Stored (st : ObjectStorrage Data) : HierarchyCall → Prop
  | createGameObject => True
  | setParrent this parrent => (∃ me, st.getById this = some me) ∧ ∃ there, st.getById parrent = some there
  | setParrentID this parrentID =>
    (∃ me, st.getById this = some me) ∧ (parrentID = EMPTY_ID ∨ ∃ there, st.getById parrentID = some there)

/-- The object does not get itself or an object below it as its parent. -/
def Ascends (st : ObjectStorrage Data) : HierarchyCall → Prop
  | createGameObject => True
  | setParrent this parrent => ¬Reaches st.parrentOf parrent this
  | setParrentID this parrentID => ¬Reaches st.parrentOf parrentID this

def perform (s : Scene) : HierarchyCall → Comp Scene
  | createGameObject => do
    let (_, s) ← s.createGameObject
    return s
  | setParrent this parrent => s.setParrent this parrent
  | setParrentID this parrentID => s.setParrentID this parrentID

end HierarchyCall

/-- The calls on the singleton, in any order. -/
def hierarchyCalls : Machine Fault Scene HierarchyCall where
  enabled := fun s c => c.Stored s.storrageInstance
  next := HierarchyCall.perform

/-- From every object the parent ids lead to `EMPTY_ID`, and the recursions end: those that look the children up in this
storage, and the display of it, as a storage of its own or as the singleton that the display adds to. -/
structure Descends (st : ObjectStorrage Data) : Prop where
  chains : ∀ k g, st.getById k = some g → Reaches st.parrentOf k EMPTY_ID
  toString : ∀ k g layer, st.getById k = some g → ∃ depth, GameObject.toString st depth (g, layer) ≠ .ok none
  findComponentsInChildren : ∀ k g name, st.getById k = some g →
    ∃ depth, GameObject.findComponentsInChildrenNamed st name depth g ≠ .ok none
  display : ∀ (d : Displayer) (a : Displayed) (g : GameObject Data), d.inspected a.scene = st → st.getById a.it = some g →
    ∃ depth, d.addGameobjectDisplayer depth a ≠ .ok none

/-- What goes down ends exactly when what goes up does. -/
theorem descends_iff_grounded {st : ObjectStorrage Data} (h : st.Hierarchy) : Descends st ↔ Grounded st.parrentOf := by
  constructor
  · exact fun hdescends => h.grounded_iff.mpr hdescends.chains
  · intro hforest
    refine ⟨h.grounded_iff.mp hforest, fun k g layer hk => GameObject.toString_ends h hforest layer hk,
      fun k g name hk => GameObject.findComponentsInChildrenNamed_ends h hforest name hk, fun d a g hst hit => ?_⟩
    refine Displayer.addGameobjectDisplayer_ends h hforest ?_ hit
    unfold Displayer.inspected at hst
    unfold Displayer.Sees
    split
    · rename_i hsome
      rw [hsome, Option.getD_some] at hst
      exact hst
    · rename_i hnone
      rw [hnone, Option.getD_none] at hst
      rw [hst]
      exact .refl h

/-- What one call does to the hierarchy and to the parent ids. -/
theorem hierarchyCalls_step {s t : Scene} {c : HierarchyCall} (h : s.storrageInstance.Hierarchy)
    (hstep : hierarchyCalls.Step s c t) :
    t.storrageInstance.Hierarchy ∧ ∃ a p, (c.Ascends s.storrageInstance ↔ ¬Reaches s.storrageInstance.parrentOf p a) ∧
      t.storrageInstance.parrentOf = Function.update s.storrageInstance.parrentOf a (some p) := by
  obtain ⟨hstored, hnext⟩ := hstep
  cases c with
  | createGameObject =>
    obtain ⟨⟨ID, s'⟩, hcall, hr⟩ := Cpp.bind_eq_ok.mp hnext
    cases hr
    obtain ⟨⟨⟨ID', st⟩, w⟩, hcreate, hr⟩ := Cpp.bind_eq_ok.mp hcall
    cases hr
    obtain ⟨_, hne, hup⟩ := ObjectStorrage.parrentOf_createGameObject h hcreate
    refine ⟨h.createGameObject hcreate, ID, EMPTY_ID, iff_of_true trivial fun hreach => ?_, hup⟩
    obtain ⟨p, hp, _⟩ := hreach.tail (Ne.symm hne)
    rw [h.parrentOf_empty] at hp
    cases hp
  | setParrent this parrent =>
    obtain ⟨⟨me, hme⟩, there, hthere⟩ := hstored
    obtain ⟨st, hset, hr⟩ := Cpp.bind_eq_ok.mp hnext
    cases hr
    rw [ObjectStorrage.setParrent_eq h.agrees hme hthere] at hset
    obtain ⟨hst, hup⟩ := ObjectStorrage.parrentOf_setParrentID h hme (.inr ⟨there, hthere⟩) hset
    exact ⟨hst, this, parrent, .rfl, hup⟩
  | setParrentID this parrentID =>
    obtain ⟨⟨me, hme⟩, hthere⟩ := hstored
    obtain ⟨st, hset, hr⟩ := Cpp.bind_eq_ok.mp hnext
    cases hr
    obtain ⟨hst, hup⟩ := ObjectStorrage.parrentOf_setParrentID h hme hthere hset
    exact ⟨hst, this, parrentID, .rfl, hup⟩

/-- The parent ids lead to `EMPTY_ID` and the recursions end in every state of a run exactly when no call of it gives an
object itself or an object below it as its parent. -/
theorem descends_always_iff (w : World) {cs : List HierarchyCall} {s : Scene}
    (h : Run hierarchyCalls { storrageInstance := {}, world := w } cs s) :
    (∀ bs t, bs <+: cs → Run hierarchyCalls { storrageInstance := {}, world := w } bs t → Descends t.storrageInstance) ↔
      Run (hierarchyCalls.when fun s c => c.Ascends s.storrageInstance) { storrageInstance := {}, world := w } cs s := by
  have hempty : ({} : ObjectStorrage Data).Hierarchy := .empty 0 (Int.le_refl 0)
  have hforest : Grounded ({} : ObjectStorrage Data).parrentOf :=
    fun k => .of_none (by simp [ObjectStorrage.parrentOf, ObjectStorrage.getById])
  refine Run.always_iff_under (I := fun s : Scene => s.storrageInstance.Hierarchy)
    (P := fun s : Scene => Descends s.storrageInstance) hempty ((descends_iff_grounded hempty).mpr hforest) ?_ h
  intro t c u ht hdescends hstep
  obtain ⟨hu, a, p, hasc, hup⟩ := hierarchyCalls_step ht hstep
  rw [descends_iff_grounded hu, hup, hasc]
  exact ⟨hu, ((descends_iff_grounded ht).mp hdescends).move_iff⟩

/-- Two new objects, the second below the first. -/
theorem descends_always_pair :
    ∃ s, Run hierarchyCalls { storrageInstance := {}, world := .blank }
        [.createGameObject, .createGameObject, .setParrent 1 0] s ∧
      ∀ bs t, bs <+: [.createGameObject, .createGameObject, .setParrent 1 0] →
        Run hierarchyCalls { storrageInstance := {}, world := .blank } bs t → Descends t.storrageInstance := by
  have h₁ := Run.snoc (a := HierarchyCall.createGameObject)
    (Run.nil (M := hierarchyCalls) (s := { storrageInstance := {}, world := .blank })) ⟨trivial, rfl⟩
  have h₂ := Run.snoc (a := HierarchyCall.createGameObject) h₁ ⟨trivial, rfl⟩
  have h₃ := Run.snoc (a := HierarchyCall.setParrent 1 0) h₂ ⟨⟨⟨_, rfl⟩, _, rfl⟩, rfl⟩
  refine ⟨_, h₃, (descends_always_iff .blank h₃).mpr ?_⟩
  have g₁ := Run.snoc (a := HierarchyCall.createGameObject)
    (Run.nil (M := hierarchyCalls.when fun s c => c.Ascends s.storrageInstance)
      (s := { storrageInstance := {}, world := .blank })) ⟨⟨trivial, trivial⟩, rfl⟩
  have g₂ := Run.snoc (a := HierarchyCall.createGameObject) g₁ ⟨⟨trivial, trivial⟩, rfl⟩
  refine Run.snoc (a := HierarchyCall.setParrent 1 0) g₂ ⟨⟨⟨⟨_, rfl⟩, _, rfl⟩, fun hreach => ?_⟩, rfl⟩
  obtain ⟨p, hp, hreach⟩ := hreach.tail (by decide)
  cases hp
  obtain ⟨p, hp, _⟩ := hreach.tail (by decide)
  cases hp

/-- The parent ids of an object that is its own parent do not lead to `EMPTY_ID`. -/
theorem not_reaches_of_own {st : ObjectStorrage Data} (h : st.Hierarchy) {k : Int32} {g : GameObject Data}
    (hk : st.getById k = some g) (hown : g.parrentID = k) : ¬Reaches st.parrentOf k EMPTY_ID := by
  rw [h.reaches_empty_iff hk]
  refine Forest.not_ends_of_closed (P := fun j => j = k) ?_ rfl
  rintro j rfl
  exact ⟨g.parrentID, ObjectStorrage.parrentOf_of_get hk, hown⟩

/-- `toString` of an object that is its own only child does not end. -/
theorem toString_of_own {st : ObjectStorrage Data} {k : Int32} {g : GameObject Data} (hk : st.getById k = some g)
    (hown : g.childrenIds = [k]) (hint : InInt (g.ID.toInt + 48)) (depth : Nat) :
    ∀ layer, GameObject.toString st depth (g, layer) = .ok none := by
  induction depth with
  | zero => exact fun _ => rfl
  | succ depth ih =>
    intro layer
    have hbody : GameObject.toStringBody st (GameObject.toString st depth) (g, layer) = .ok none := by
      simp only [GameObject.toStringBody, int_of_inInt hint, ok_bind, hown, List.isEmpty_cons, Bool.false_eq_true,
        if_false, GameObject.appendChildren, Forest.each, List.zipIdx_cons, List.zipIdx_nil, List.foldlM_cons,
        List.foldlM_nil, ObjectStorrage.deref_eq_ok.mpr hk, ih]
      rfl
    exact hbody

/-- One new object that gets itself as its parent: its parent ids do not lead to `EMPTY_ID`, and `toString` never ends. -/
theorem own_parrent :
    ∃ s g, Run hierarchyCalls { storrageInstance := {}, world := .blank } [.createGameObject, .setParrent 0 0] s ∧
      s.storrageInstance.getById 0 = some g ∧ ¬Reaches s.storrageInstance.parrentOf 0 EMPTY_ID ∧
      (∀ depth layer, GameObject.toString s.storrageInstance depth (g, layer) = .ok none) ∧
      ¬Descends s.storrageInstance := by
  have h₁ := Run.snoc (a := HierarchyCall.createGameObject)
    (Run.nil (M := hierarchyCalls) (s := { storrageInstance := {}, world := .blank })) ⟨trivial, rfl⟩
  have h₂ := Run.snoc (a := HierarchyCall.setParrent 0 0) h₁ ⟨⟨⟨_, rfl⟩, _, rfl⟩, rfl⟩
  have hst : (Scene.storrageInstance _).Hierarchy :=
    h₂.invariant (fun _ s => s.storrageInstance.Hierarchy) (.empty 0 (Int.le_refl 0))
      fun _ t c u ht hstep => (hierarchyCalls_step ht hstep).1
  have hchain := not_reaches_of_own hst (k := 0) rfl rfl
  exact ⟨_, _, h₂, rfl, hchain, toString_of_own rfl rfl (by decide), fun h => hchain (h.chains 0 _ rfl)⟩

end SceenViewer
