import BackupEngine.Application.Singletons
import BackupEngine.Lemmas.AfterSet
import BackupEngine.Lemmas.Displayer
import BackupEngine.Lemmas.Links
import BackupEngine.Lemmas.SavedClasses

/-!
# Places among the components of a class

A component is saved as the id of its object and its place among the components of its class there. No call on the singletons
takes a component out of an object or puts one before another, so that such a place leads to the same component from then on.
-/

namespace Serializer

open Cpp

open ComponentClasses (classOf isA)

variable {κ C : Type} [ComponentClasses κ C]

namespace ObjectStorrage

/-! ## Growing storages -/

/-- Everything that was stored is stored, and the components an object had are the first it has. -/
def Grows (st st' : ObjectStorrage κ) : Prop :=
  ∀ k g, st.getById k = some g → ∃ g', st'.getById k = some g' ∧ g.shape <+: g'.shape

namespace Grows

variable {st st' : ObjectStorrage κ}

/-- A storage of the same shape has grown by nothing. -/
theorem of_sameShape (h : SameShape st st') : Grows st st' := by
  intro k g hg
  obtain ⟨g', hg', hshape⟩ := h.get hg
  exact ⟨g', hg', hshape ▸ List.prefix_refl _⟩

/-- A new object is a new id. -/
theorem createGameObject (h : st.Hierarchy) {w w' : World} {ID : Int32}
    (hcreate : st.createGameObject w = .ok ((ID, st'), w')) : Grows st st' := by
  obtain ⟨_, hfresh, _, b, hget⟩ := createGameObject_spec h hcreate
  intro k g hg
  refine ⟨g, ?_, List.prefix_refl _⟩
  rw [hget, if_neg, hg]
  rintro rfl
  rw [hfresh] at hg
  cases hg

end Grows

/-- A search through an object that has grown finds what it found, and more. -/
theorem findComponents_prefix {g g' : GameObject κ} (h : g.shape <+: g'.shape) (T : C) :
    g.findComponents T <+: g'.findComponents T := by
  rw [GameObject.findComponents_eq, GameObject.findComponents_eq]
  exact (h.filter _).map _

/-! ## What a place leads to -/

/-- The pair leads to the component: the id to its object, the number to its place among the components of the class. -/
def Names (st : ObjectStorrage κ) (T : C) (c : Addr) (p : Int32 × Int32) : Prop :=
  ∃ g, st.getById p.1 = some g ∧ (g.findComponents T)[sizeT p.2.toInt]? = some c

/-- The stored object has a component of the class. -/
def Has (st : ObjectStorrage κ) (T : C) (k : Int32) : Prop := ∃ g, st.getById k = some g ∧ g.findComponents T ≠ []

/-- The pointer points to a component of the class in a stored object. -/
def Holds (st : ObjectStorrage κ) (T : C) (p : Pointer) : Prop :=
  ∃ g, st.getById p.gameobject = some g ∧ p.addr ∈ g.findComponents T

section

variable {st st' : ObjectStorrage κ} {T : C}

/-- A place leads where it led, in a storage that has grown. -/
theorem Names.mono (h : Grows st st') {c : Addr} {p : Int32 × Int32} (hc : st.Names T c p) : st'.Names T c p := by
  obtain ⟨g, hg, hplace⟩ := hc
  obtain ⟨g', hg', hshape⟩ := h p.1 g hg
  obtain ⟨hlt, _⟩ := List.getElem?_eq_some_iff.mp hplace
  obtain ⟨rest, hrest⟩ := findComponents_prefix hshape T
  exact ⟨g', hg', by rw [← hrest, List.getElem?_append_left hlt, hplace]⟩

/-- A place leads to one component. -/
theorem Names.unique {c c' : Addr} {p : Int32 × Int32} (h : st.Names T c p) (h' : st.Names T c' p) : c = c' := by
  obtain ⟨g, hg, hplace⟩ := h
  obtain ⟨g', hg', hplace'⟩ := h'
  cases hg.symm.trans hg'
  exact Option.some_inj.mp (hplace.symm.trans hplace')

/-- An object keeps its components. -/
theorem Has.mono (h : Grows st st') {k : Int32} (hk : st.Has T k) : st'.Has T k := by
  obtain ⟨g, hg, hne⟩ := hk
  obtain ⟨g', hg', hshape⟩ := h k g hg
  refine ⟨g', hg', fun hnil => hne ?_⟩
  exact List.prefix_nil.mp (hnil ▸ findComponents_prefix hshape T)

/-- Behind a pointer that is held there is an object with such a component. -/
theorem Holds.has {p : Pointer} (h : st.Holds T p) : st.Has T p.gameobject := by
  obtain ⟨g, hg, hmem⟩ := h
  exact ⟨g, hg, List.ne_nil_of_mem hmem⟩

end

end ObjectStorrage

end Serializer

namespace Engine

open Cpp Serializer

variable {κ C : Type} [ComponentClasses κ C] {st : ObjectStorrage κ} {T : C} {g : GameObject κ} {k : Int32}

/-! ## The vectors of places -/

/-- What a search through a stored object finds is where the pair leads. -/
theorem linkTo_names (hkey : st.Keyed) (hk : st.getById k = some g) {c : Addr} {p : Int32 × Int32}
    (h : linkTo T g c = .ok (some p)) : st.Names T c p := by
  obtain ⟨hID, hplace⟩ := linkTo_some h
  exact ⟨g, by rw [hID, hkey k g hk, hk], hplace⟩

/-- A link that is added leads to its component, and the others lead where they led. -/
theorem addLink_names (hkey : st.Keyed) (hk : st.getById k = some g) {c : Addr} (hc : c ∈ g.findComponents T)
    {pointers pointers' : List Addr} {ids ids' : List (Int32 × Int32)}
    (h : addLink T g c pointers ids = .ok (pointers', ids')) (hnames : List.Forall₂ (st.Names T) pointers ids) :
    List.Forall₂ (st.Names T) pointers' ids' := by
  obtain ⟨found, hfound, h⟩ := bind_eq_ok.mp h
  cases found with
  | none => exact absurd hc (linkTo_none hfound)
  | some p =>
    cases h
    exact forall₂_concat hnames (linkTo_names hkey hk hfound)

/-- So it is with the actors of a button. -/
theorem Button.addActor_names (hkey : st.Keyed) (hk : st.getById k = some g) {ba : Addr} {b b' : Button}
    (h : b.addActor T g ba = .ok b') (hnames : List.Forall₂ (st.Names T) b.payload b.payloadIDs) :
    List.Forall₂ (st.Names T) b'.payload b'.payloadIDs := by
  obtain ⟨found, hfound, h⟩ := bind_eq_ok.mp h
  cases found with
  | none =>
    cases h
    exact hnames
  | some p =>
    cases h
    exact forall₂_concat hnames (linkTo_names hkey hk hfound)

end Engine

namespace Events

open Cpp Serializer

variable {κ C : Type} [ComponentClasses κ C] {st : ObjectStorrage κ} {T : C} {g : GameObject κ} {k : Int32}
  {this this' : EventSystem} {el : Addr}

/-- So it is with the listeners of the event system. -/
theorem EventSystem.addEventListener_names (hkey : st.Keyed) (hk : st.getById k = some g)
    (h : this.addEventListener T g el = .ok this') (hnames : List.Forall₂ (st.Names T) this.listener this.listenerIDs) :
    List.Forall₂ (st.Names T) this'.listener this'.listenerIDs := by
  obtain ⟨found, hfound, h⟩ := bind_eq_ok.mp h
  cases found with
  | none =>
    cases h
    exact hnames
  | some i =>
    cases h
    refine Engine.forall₂_concat hnames ⟨g, by rw [hkey k g hk, hk], ?_⟩
    rw [Engine.sizeT_ofNat (lt_of_findPlace hfound)]
    exact getElem?_of_findPlace hfound

/-- A listener is removed with its place, so that the others stay beside theirs. -/
theorem EventSystem.removeEventListener_keeps {R : Addr → Int32 × Int32 → Prop} (h : this.removeEventListener el = .ok this')
    (hR : List.Forall₂ R this.listener this.listenerIDs) : List.Forall₂ R this'.listener this'.listenerIDs := by
  obtain ⟨found, _, h⟩ := bind_eq_ok.mp h
  cases found with
  | none =>
    cases h
    exact hR
  | some i =>
    obtain ⟨listener, hlistener, h⟩ := bind_eq_ok.mp h
    obtain ⟨listenerIDs, hlistenerIDs, h⟩ := bind_eq_ok.mp h
    cases h
    obtain ⟨_, rfl⟩ := eraseAt_eq_ok.mp hlistener
    obtain ⟨_, rfl⟩ := eraseAt_eq_ok.mp hlistenerIDs
    exact Engine.forall₂_eraseIdx hR i

end Events

namespace Engine

open Cpp

/-! ## Components that keep places -/

/-- The class of the components a component keeps pointers to, the pointers, and the pairs beside them. -/
def Data.links : Data → Option (Class × List Addr × List (Int32 × Int32))
  | .button c => some (.buttonActor, c.payload, c.payloadIDs)
  | .instancedTeilSprite c => some (.instancedTeilSpriteInstance, c.instancen, c.instancenIDs)
  | .stringRenderer c => some (.stringRendererInstance, c.instancen, c.instancenIDs)
  | _ => none

end Engine

namespace SceenViewer

open Cpp Serializer

open Serializer.ObjectStorrage (Grows Names Has Holds)

def Data.links : Data → Option (Engine.Class × List Addr × List (Int32 × Int32))
  | engine c => c.links
  | _ => none

/-- Every pointer a component keeps is where the pair beside it leads. -/
def Agrees (st : ObjectStorrage Data) (d : Data) : Prop :=
  ∀ T pointers ids, d.links = some (T, pointers, ids) → List.Forall₂ (st.Names (Class.engine T)) pointers ids

/-- The other ids of a component of `g` lead to components too: `afterSet` finds what it looks for, but for the camera. -/
def Resolvable (st : ObjectStorrage Data) (g : GameObject Data) : Data → Prop
  | .engine (.transform c) => c.pGOID = -1 ∨ st.Has (Class.engine .transform) c.pGOID
  | .engine (.drawableRenderer c) =>
    c.buttons.length ≤ c.buttonGameObjectIDs.length ∧
      (∀ ID ∈ c.buttonGameObjectIDs, st.Has (Class.engine .button) ID) ∧
      ∀ p ∈ c.allDrawableIDs, ∃ a, st.Names (Class.engine .drawable) a p
  | .engine (.instancedSprite c) => ∀ ID ∈ c.instancenID, st.Has (Class.engine .transform) ID
  | .engine (.stringRendererInstance _) => g.findComponents (Class.engine .transform) ≠ []
  | _ => True

/-- A component of `g` that agrees and is resolvable. -/
structure Linked (st : ObjectStorrage Data) (g : GameObject Data) (d : Data) : Prop where
  agrees : Agrees st d
  resolvable : Resolvable st g d

section

variable {st st' : ObjectStorrage Data} {g g' : GameObject Data} {d d' : Data}

/-- Growing keeps every link. -/
theorem Linked.mono (hgrows : Grows st st') (hshape : g.shape <+: g'.shape) (h : Linked st g d) : Linked st' g' d := by
  refine ⟨fun T pointers ids hlinks => (h.agrees T pointers ids hlinks).imp fun _ _ hc => hc.mono hgrows, ?_⟩
  have hres := h.resolvable
  rcases d with d | _ | _ | _
  · cases d with
    | transform c => exact Or.imp_right (Has.mono hgrows) hres
    | drawableRenderer c =>
      obtain ⟨hlen, hbuttons, hdrawables⟩ := hres
      refine ⟨hlen, fun ID hID => (hbuttons ID hID).mono hgrows, fun p hp => ?_⟩
      obtain ⟨a, ha⟩ := hdrawables p hp
      exact ⟨a, ha.mono hgrows⟩
    | instancedSprite c => exact fun ID hID => Has.mono hgrows (hres ID hID)
    | stringRendererInstance c =>
      refine fun hnil => hres ?_
      exact List.prefix_nil.mp (hnil ▸ ObjectStorrage.findComponents_prefix hshape _)
    | _ => trivial
  all_goals trivial

/-! ## New components -/

/-- A component that knows no other one, except for what it requires. -/
def Blank : Engine.Data → Prop
  | .transform c => c.pGOID = -1
  | .button c => c.payload = [] ∧ c.payloadIDs = []
  | .drawableRenderer c => c.buttons = [] ∧ c.buttonGameObjectIDs = [] ∧ c.allDrawableIDs = []
  | .instancedSprite c => c.instancenID = []
  | .instancedTeilSprite c => c.instancen = [] ∧ c.instancenIDs = []
  | .stringRenderer c => c.instancen = [] ∧ c.instancenIDs = []
  | _ => True

def Data.Blank : Data → Prop
  | engine c => SceenViewer.Blank c
  | _ => True

/-- A constructor of the factory makes an object of its class, and its lists are empty. -/
theorem Data.registered_blank {T : Class} {new : Storage → Data} (h : registered T.typeName = some new) (s : Storage) :
    (new s).classOf = T ∧ (new s).Blank := by
  cases T with
  | engine T =>
    have hengine := (registered_engine T).symm.trans h
    cases T with
    | buttonActor | drawable => cases hengine
    | _ =>
      rw [Engine.registered_typeName (by simp [Engine.Data.registeredClasses])] at hengine
      cases hengine
      simp [classOf, Engine.Data.classOf, Blank, SceenViewer.Blank, Engine.Transform.new, Engine.Button.new,
        Engine.DrawableRenderer.new, Engine.StringRenderer.new]
  | eventListener => cases h
  | dragMover | buttonChecker | objectKlicker =>
    cases h
    exact ⟨rfl, trivial⟩

/-- `setRequirements` writes none of the lists. -/
theorem Data.setRequirements_keeps {toSet : List Addr} (h : d.setRequirements toSet = .ok d') :
    d'.classOf = d.classOf ∧ (d.Blank → d'.Blank) := by
  rcases d with d | _ | _ | _
  · obtain ⟨e, he, h⟩ := Cpp.bind_eq_ok.mp h
    cases h
    cases d with
    | kamera | button | sprite | teilSprite | instancedTeilSpriteInstance | stringRendererInstance =>
      obtain ⟨c, hc, he⟩ := Cpp.bind_eq_ok.mp he
      cases he
      obtain ⟨_, _, hc⟩ := Cpp.bind_eq_ok.mp hc
      cases hc
      exact ⟨rfl, id⟩
    | _ =>
      cases he
      exact ⟨rfl, id⟩
  all_goals
    obtain ⟨c, hc, h⟩ := Cpp.bind_eq_ok.mp h
    cases h
    exact ⟨rfl, id⟩

/-- A blank component is linked where it has what it looks for in its own object. -/
theorem Data.Blank.linked (h : d.Blank)
    (hown : d.classOf = .engine .stringRendererInstance → g.findComponents (Class.engine .transform) ≠ []) :
    Linked st g d := by
  rcases d with d | _ | _ | _
  · cases d with
    | transform c => exact ⟨nofun, .inl h⟩
    | button c =>
      obtain ⟨hpayload, hids⟩ := h
      refine ⟨fun T pointers ids hlinks => ?_, trivial⟩
      cases hlinks
      rw [hpayload, hids]
      exact .nil
    | drawableRenderer c =>
      obtain ⟨hbuttons, hids, hdrawables⟩ := h
      refine ⟨nofun, ?_⟩
      simp [Resolvable, hbuttons, hids, hdrawables]
    | instancedSprite c =>
      refine ⟨nofun, ?_⟩
      simp only [Resolvable, show c.instancenID = [] from h]
      exact nofun
    | instancedTeilSprite c | stringRenderer c =>
      obtain ⟨hpointers, hids⟩ := h
      refine ⟨fun T pointers ids hlinks => ?_, trivial⟩
      cases hlinks
      rw [hpointers, hids]
      exact .nil
    | stringRendererInstance c => exact ⟨nofun, hown rfl⟩
    | _ => exact ⟨nofun, trivial⟩
  all_goals exact ⟨nofun, trivial⟩

end

end SceenViewer
