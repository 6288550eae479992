import BackupEngine.Lemmas.Hierarchy
import BackupEngine.Lemmas.Links
import BackupEngine.Lib.Transition
import BackupEngine.Serializer.Pointers

/-!
# The buttons and drawables of a renderer

A `DrawableRenderer` keeps its buttons and drawables as pointers and, in two other vectors, what they are saved by. `addButton`,
`remButton` and `addDrawable` keep the two in step; `remDrawable`, `UnloadContent` and `clear` forget the second one.
-/

namespace Engine

open Cpp Serializer Transition

/-- The stored game objects as they lie in memory: two components of an object have two addresses. -/
structure StoredObjects where
  storrage : ObjectStorrage Data
  apart : ∀ k g, storrage.getById k = some g → (g.componenten.map Component.addr).Nodup

/-- A pointer to a component of a class of a stored object. -/
def StoredObjects.Holds (objects : StoredObjects) (T : Class) (p : Pointer) : Prop :=
  ∃ g, objects.storrage.getById p.gameobject = some g ∧ p.addr ∈ g.findComponents T

inductive RendererCall where
  | addButton (button : Pointer)
  | remButton (button : Addr)
  | addDrawable (drawable : Pointer)
  | remDrawable (drawable : Addr)
  | unloadContent
  | clear

namespace RendererCall

/-- What is added lives in a stored object. -/
def Stored (objects : StoredObjects) : RendererCall → Prop
  | addButton button => objects.Holds .button button
  | addDrawable drawable => objects.Holds .drawable drawable
  | _ => True

def perform (objects : StoredObjects) (this : DrawableRenderer) : RendererCall → Comp DrawableRenderer
  | addButton button => do
    let gameobject ← objects.storrage.deref button.gameobject
    this.addButton gameobject button.addr
  | remButton button => this.remButton button
  | addDrawable drawable => do
    let gameobject ← objects.storrage.deref drawable.gameobject
    this.addDrawable Class.drawable gameobject drawable.addr
  | remDrawable drawable => this.remDrawable drawable
  | unloadContent => return this.unloadContent
  | clear => return this.clear

/-- The call drops no pointer whose id it would have to drop as well. -/
def KeepsIDs (this : DrawableRenderer) : RendererCall → Prop
  | remDrawable drawable => drawable ∉ this.allDrawable
  | unloadContent => this.allDrawable = []
  | clear => this.allDrawable = [] ∧ this.buttons = []
  | _ => True

end RendererCall

/-- The calls on a renderer, in any order. -/
def rendererCalls (objects : StoredObjects) : Machine Fault DrawableRenderer RendererCall where
  enabled := fun _ c => c.Stored objects
  next := RendererCall.perform objects

namespace StoredObjects

variable (objects : StoredObjects)

/-- The button is one of the stored object that carries the id. -/
def IsButtonOf (button : Addr) (ID : Int32) : Prop :=
  ∃ k g, objects.storrage.getById k = some g ∧ g.ID = ID ∧ button ∈ g.findComponents Class.button

/-- The drawable is the one with the number among those of the stored object that carries the id. -/
def IsDrawableAt (drawable : Addr) (id : Int32 × Int32) : Prop :=
  ∃ k g, objects.storrage.getById k = some g ∧ g.ID = id.1 ∧
    (g.findComponents Class.drawable)[sizeT id.2.toInt]? = some drawable

end StoredObjects

/-- What `serialize` pushes when these are the ids of the buttons and the pairs of the drawables. -/
def DrawableRenderer.save (this : DrawableRenderer) (buttons : List Int32) (drawables : List (Int32 × Int32)) : Ser Unit := do
  write this.currentCameraID
  write this.colorFormat
  write this.refreshRateN
  write this.refreshRateD
  write this.windowed
  let (b0, b1, b2, b3) := this.backgroundColor
  write b0
  write b1
  write b2
  write b3
  writeAll write buttons
  writeAll writePair drawables
  writeCString Class.drawableRenderer.typeName

/-- The ids belong to the pointers, entry by entry, no pointer is there twice, and `serialize` saves what is registered. -/
structure Registered (objects : StoredObjects) (this : DrawableRenderer) : Prop where
  buttons : List.Forall₂ objects.IsButtonOf this.buttons this.buttonGameObjectIDs
  drawables : List.Forall₂ objects.IsDrawableAt this.allDrawable this.allDrawableIDs
  buttonsOnce : this.buttons.Nodup
  drawablesOnce : this.allDrawable.Nodup
  saves : ∃ ids pairs, List.Forall₂ objects.IsButtonOf this.buttons ids ∧
    List.Forall₂ objects.IsDrawableAt this.allDrawable pairs ∧ this.serialize = this.save ids pairs

variable {objects : StoredObjects} {this : DrawableRenderer}

theorem DrawableRenderer.serialize_eq_save (h : this.buttons.length = this.buttonGameObjectIDs.length) :
    this.serialize = this.save this.buttonGameObjectIDs this.allDrawableIDs := by
  simp only [DrawableRenderer.serialize, DrawableRenderer.save, writeAll, h, bind_assoc]

/-- The last part follows from the others. -/
theorem Registered.of_lists (hbuttons : List.Forall₂ objects.IsButtonOf this.buttons this.buttonGameObjectIDs)
    (hdrawables : List.Forall₂ objects.IsDrawableAt this.allDrawable this.allDrawableIDs) (honce : this.buttons.Nodup)
    (hdrawablesOnce : this.allDrawable.Nodup) : Registered objects this :=
  ⟨hbuttons, hdrawables, honce, hdrawablesOnce, _, _, hbuttons, hdrawables,
    DrawableRenderer.serialize_eq_save hbuttons.length_eq⟩

/-- A new renderer has nothing registered. -/
theorem Registered.new (objects : StoredObjects) (s : Storage) : Registered objects (DrawableRenderer.new s) :=
  .of_lists .nil .nil .nil .nil

/-! ## Single calls -/

namespace Registered

theorem addButton (h : Registered objects this) {p : Pointer} {g : GameObject Data}
    (hg : objects.storrage.getById p.gameobject = some g) (hp : p.addr ∈ g.findComponents Class.button)
    {this' : DrawableRenderer} (hadd : this.addButton g p.addr = .ok this') : Registered objects this' := by
  obtain ⟨found, hfound, hadd⟩ := bind_eq_ok.mp hadd
  cases found with
  | some i =>
    cases hadd
    exact h
  | none =>
    cases hadd
    refine .of_lists (forall₂_concat h.buttons ⟨p.gameobject, g, hg, rfl, hp⟩) h.drawables ?_ h.drawablesOnce
    exact List.nodup_append_comm.mp (List.nodup_cons.mpr ⟨not_mem_of_findPlace hfound, h.buttonsOnce⟩)

theorem remButton (h : Registered objects this) {button : Addr} {this' : DrawableRenderer}
    (hrem : this.remButton button = .ok this') : Registered objects this' := by
  obtain ⟨⟨buttons, ids⟩, hlink, hrem⟩ := bind_eq_ok.mp hrem
  cases hrem
  exact .of_lists (remLink_keeps hlink h.buttons) h.drawables (h.buttonsOnce.sublist (remLink_sublist hlink).1)
    h.drawablesOnce

theorem addDrawable (h : Registered objects this) {p : Pointer} {g : GameObject Data}
    (hg : objects.storrage.getById p.gameobject = some g) (hp : p.addr ∈ g.findComponents Class.drawable)
    {this' : DrawableRenderer} (hadd : this.addDrawable Class.drawable g p.addr = .ok this') : Registered objects this' := by
  obtain ⟨found, hfound, hadd⟩ := bind_eq_ok.mp hadd
  cases found with
  | some i =>
    cases hadd
    exact h
  | none =>
    obtain ⟨_, hint, hadd⟩ := bind_eq_ok.mp hadd
    cases hadd
    have hsize : (g.findComponents Class.drawable).length < 2 ^ 31 := by
      have := (int_eq_ok.mp hint).1.2
      omega
    have hnodup : (g.findComponents Class.drawable).Nodup :=
      (objects.apart _ g hg).sublist (List.filter_sublist.map _)
    obtain ⟨id, hid, hID, hat⟩ := DrawableRenderer.drawableIDs_eq hnodup hp hsize
    simp only [hid]
    refine .of_lists h.buttons (forall₂_concat h.drawables ⟨p.gameobject, g, hg, hID.symm, hat⟩) h.buttonsOnce ?_
    exact List.nodup_append_comm.mp (List.nodup_cons.mpr ⟨not_mem_of_findPlace hfound, h.drawablesOnce⟩)

/-- `remDrawable` of a registered drawable leaves its pair behind. -/
theorem remDrawable_iff (h : Registered objects this) {drawable : Addr} {this' : DrawableRenderer}
    (hrem : this.remDrawable drawable = .ok this') : Registered objects this' ↔ drawable ∉ this.allDrawable := by
  obtain ⟨found, hfound, hrem⟩ := bind_eq_ok.mp hrem
  cases found with
  | none =>
    cases hrem
    exact iff_of_true h (not_mem_of_findPlace hfound)
  | some i =>
    obtain ⟨allDrawable, herase, hrem⟩ := bind_eq_ok.mp hrem
    cases hrem
    obtain ⟨hlt, rfl⟩ := eraseAt_eq_ok.mp herase
    have hmem := List.mem_of_getElem? (getElem?_of_findPlace hfound)
    refine iff_of_false (fun h' => ?_) (not_not_intro hmem)
    have hbefore := h.drawables.length_eq
    have hafter := h'.drawables.length_eq
    simp only [List.length_eraseIdx_of_lt hlt] at hafter
    omega

/-- `UnloadContent` leaves the pairs of all drawables behind. -/
theorem unloadContent_iff (h : Registered objects this) :
    Registered objects this.unloadContent ↔ this.allDrawable = [] := by
  constructor
  · intro h'
    have hnone : this.allDrawableIDs = [] := List.forall₂_nil_left_iff.mp h'.drawables
    have hlen := h.drawables.length_eq
    rw [hnone] at hlen
    exact List.length_eq_zero_iff.mp hlen
  · intro hnone
    have hthis : this.unloadContent = this := by
      rw [DrawableRenderer.unloadContent, ← hnone]
    exact hthis ▸ h

/-- `clear` leaves what belongs to all drawables and buttons behind. -/
theorem clear_iff (h : Registered objects this) :
    Registered objects this.clear ↔ this.allDrawable = [] ∧ this.buttons = [] := by
  constructor
  · intro h'
    have hnoIDs : this.buttonGameObjectIDs = [] := List.forall₂_nil_left_iff.mp h'.buttons
    have hlen := h.buttons.length_eq
    rw [hnoIDs] at hlen
    refine ⟨h.unloadContent_iff.mp ?_, List.length_eq_zero_iff.mp hlen⟩
    exact .of_lists h.buttons h'.drawables h.buttonsOnce .nil
  · rintro ⟨hdrawables, hbuttons⟩
    have hthis : this.clear = this := by
      have hunloaded : this.unloadContent = this := by
        rw [DrawableRenderer.unloadContent, ← hdrawables]
      rw [DrawableRenderer.clear, hunloaded, DrawableRenderer.clearBase, ← hbuttons]
    exact hthis ▸ h

/-- One call. -/
theorem step (h : Registered objects this) {c : RendererCall} {this' : DrawableRenderer}
    (hstep : (rendererCalls objects).Step this c this') : Registered objects this' ↔ c.KeepsIDs this := by
  obtain ⟨hstored, hnext⟩ := hstep
  cases c with
  | addButton p =>
    obtain ⟨g, hg, hp⟩ := hstored
    obtain ⟨g', hg', hadd⟩ := bind_eq_ok.mp hnext
    cases hg.symm.trans (ObjectStorrage.deref_eq_ok.mp hg')
    exact iff_of_true (h.addButton hg hp hadd) trivial
  | remButton button => exact iff_of_true (h.remButton hnext) trivial
  | addDrawable p =>
    obtain ⟨g, hg, hp⟩ := hstored
    obtain ⟨g', hg', hadd⟩ := bind_eq_ok.mp hnext
    cases hg.symm.trans (ObjectStorrage.deref_eq_ok.mp hg')
    exact iff_of_true (h.addDrawable hg hp hadd) trivial
  | remDrawable drawable => exact h.remDrawable_iff hnext
  | unloadContent =>
    cases hnext
    exact h.unloadContent_iff
  | clear =>
    cases hnext
    exact h.clear_iff

end Registered

/-! ## Sequences of calls -/

/-- From a new renderer on, the ids belong to the pointers in every state of a run, and `serialize` saves what is registered,
exactly when no `remDrawable` is called with a registered drawable, no `UnloadContent` while there is one, and no `clear` while
there is a drawable or a button. -/
theorem registered_always_iff (objects : StoredObjects) (s : Storage) {cs : List RendererCall} {this : DrawableRenderer}
    (h : Run (rendererCalls objects) (DrawableRenderer.new s) cs this) :
    (∀ bs t, bs <+: cs → Run (rendererCalls objects) (DrawableRenderer.new s) bs t → Registered objects t) ↔
      Run ((rendererCalls objects).when fun t c => c.KeepsIDs t) (DrawableRenderer.new s) cs this :=
  Run.always_iff (Registered.new objects s) (fun _ _ _ ht hstep => ht.step hstep) h

/-- A transform, a button and a sprite in one object. -/
def buttonAndSprite : GameObject Data where
  ID := 0
  isActiv := true
  componenten := [
    { addr := 1, isActiv := true, data := .transform (Transform.new (World.blank.memory 1)) },
    { addr := 2, isActiv := true, data := .button (Button.new (World.blank.memory 2)) },
    { addr := 3, isActiv := true, data := .sprite {} }]

/-- The storage with this object only. -/
def oneObject : StoredObjects where
  storrage := ObjectStorrage.addOnId {} 0 buttonAndSprite
  apart := by
    intro k g hg
    rw [ObjectStorrage.getById_addOnId _ _ (by simp [ObjectStorrage.getById])] at hg
    split at hg
    · cases hg
      decide
    · simp [ObjectStorrage.getById] at hg

/-- A new renderer with these entries. -/
def rendererWith (buttons : List Addr) (buttonGameObjectIDs : List Int32) (allDrawable : List Addr)
    (allDrawableIDs : List (Int32 × Int32)) : DrawableRenderer :=
  { DrawableRenderer.new (World.blank.memory 0) with buttons, buttonGameObjectIDs, allDrawable, allDrawableIDs }

/-- The button and the sprite are registered, and the button is taken out again. -/
theorem registered_always_three :
    ∃ this, Run (rendererCalls oneObject) (DrawableRenderer.new (World.blank.memory 0))
        [.addButton ⟨0, 2⟩, .addDrawable ⟨0, 3⟩, .remButton 2] this ∧
      ∀ bs t, bs <+: [.addButton ⟨0, 2⟩, .addDrawable ⟨0, 3⟩, .remButton 2] →
        Run (rendererCalls oneObject) (DrawableRenderer.new (World.blank.memory 0)) bs t → Registered oneObject t := by
  have hbutton : oneObject.Holds .button ⟨0, 2⟩ := ⟨buttonAndSprite, rfl, by decide⟩
  have hsprite : oneObject.Holds .drawable ⟨0, 3⟩ := ⟨buttonAndSprite, rfl, by decide⟩
  have h₁ := Run.snoc (a := RendererCall.addButton ⟨0, 2⟩)
    (Run.nil (M := rendererCalls oneObject) (s := DrawableRenderer.new (World.blank.memory 0))) ⟨hbutton, rfl⟩
  have h₂ := Run.snoc (a := RendererCall.addDrawable ⟨0, 3⟩) (u := rendererWith [2] [0] [3] [(0, 0)]) h₁
    ⟨hsprite, by decide +kernel⟩
  have h₃ := Run.snoc (a := RendererCall.remButton 2) h₂ ⟨trivial, rfl⟩
  refine ⟨_, h₃, (registered_always_iff oneObject _ h₃).mpr ?_⟩
  have g₁ := Run.snoc (a := RendererCall.addButton ⟨0, 2⟩)
    (Run.nil (M := (rendererCalls oneObject).when fun t c => c.KeepsIDs t)
      (s := DrawableRenderer.new (World.blank.memory 0))) ⟨⟨hbutton, trivial⟩, rfl⟩
  have g₂ := Run.snoc (a := RendererCall.addDrawable ⟨0, 3⟩) (u := rendererWith [2] [0] [3] [(0, 0)]) g₁
    ⟨⟨hsprite, trivial⟩, by decide +kernel⟩
  exact Run.snoc (a := RendererCall.remButton 2) g₂ ⟨⟨trivial, trivial⟩, rfl⟩

/-- The sprite is registered and taken out again: its pair is left. -/
theorem pair_left_behind :
    ∃ this, Run (rendererCalls oneObject) (DrawableRenderer.new (World.blank.memory 0))
        [.addDrawable ⟨0, 3⟩, .remDrawable 3] this ∧
      this.allDrawable = [] ∧ this.allDrawableIDs = [(0, 0)] ∧ ¬Registered oneObject this := by
  have hsprite : oneObject.Holds .drawable ⟨0, 3⟩ := ⟨buttonAndSprite, rfl, by decide⟩
  have h₁ := Run.snoc (a := RendererCall.addDrawable ⟨0, 3⟩) (u := rendererWith [] [] [3] [(0, 0)])
    (Run.nil (M := rendererCalls oneObject) (s := DrawableRenderer.new (World.blank.memory 0)))
    ⟨hsprite, by decide +kernel⟩
  have h₂ := Run.snoc (a := RendererCall.remDrawable 3) h₁ ⟨trivial, rfl⟩
  exact ⟨_, h₂, rfl, rfl, fun h => absurd h.drawables.length_eq (by decide)⟩

end Engine
