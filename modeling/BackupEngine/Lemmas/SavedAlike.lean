import BackupEngine.Lemmas.Relinking
import BackupEngine.Lemmas.Reload

/-!
# Scenes that were saved and loaded again

What `afterSet` leaves of a loaded component is saved as the component it was loaded for, and so the whole scene: its bytes are
told by the links and the names of the objects and by what is saved of their components.
-/

namespace Serializer

open Cpp ByteStack

variable {κ C : Type} [ComponentClasses κ C] {enc : κ → List UInt8}

/-! ## Scenes of the same bytes -/

/-- The bytes of an object are told by its links, its name and the bytes of its components. -/
theorem encodeObject_congr {g g' : GameObject κ} (hlinks : g'.links = g.links) (hname : g'.name = g.name)
    (hcomps : List.Forall₂ (fun c c' => encodeComponent enc c' = encodeComponent enc c) g.componenten g'.componenten) :
    encodeObject enc g' = encodeObject enc g := by
  obtain ⟨hID, hlinks⟩ := Prod.mk.inj hlinks
  obtain ⟨hparrent, hchilds⟩ := Prod.mk.inj hlinks
  have hbytes :
      g'.componenten.reverse.flatMap (encodeComponent enc) = g.componenten.reverse.flatMap (encodeComponent enc) := by
    rw [List.flatMap_def, List.flatMap_def, List.map_reverse, List.map_reverse, map_eq_of_forall₂ hcomps]
  have hall : encodeAll (encodeComponent enc) g'.componenten = encodeAll (encodeComponent enc) g.componenten := by
    rw [encodeAll, encodeAll, hbytes, hcomps.length_eq]
  rw [encodeObject, encodeObject, encodeMembers, encodeMembers, hall, hID, hparrent, hchilds, hname]

/-- The bytes of a storage are told by the bytes of its objects. -/
theorem encodeStorrage_congr {st st' : ObjectStorrage κ}
    (h : ∀ k, (st'.getById k).map (encodeObject enc) = (st.getById k).map (encodeObject enc)) :
    encodeStorrage enc st' = encodeStorrage enc st := by
  have hmaps : st'.objects.map (fun _ g => encodeObject enc g) = st.objects.map fun _ g => encodeObject enc g := by
    refine Std.ExtTreeMap.ext_getElem? fun k => ?_
    rw [Std.ExtTreeMap.getElem?_map, Std.ExtTreeMap.getElem?_map]
    exact h k
  have hsize := congrArg Std.ExtTreeMap.size hmaps
  have hlists := congrArg (fun m => m.toList.flatMap Prod.snd) hmaps
  simp only [Std.ExtTreeMap.size_map, Std.ExtTreeMap.toList_map, List.flatMap_map] at hsize hlists
  rw [encodeStorrage, encodeStorrage, hsize, hlists]

end Serializer

namespace SceenViewer

open Cpp Serializer ByteStack

open Serializer.ObjectStorrage (Names Has SameShape settle settled)

variable {st st' : ObjectStorrage Data} {g g' : GameObject Data} {d d' e : Data}

/-! ## What is left of a loaded component -/

/-- Whatever the name of the class, the lists of a new object are empty. -/
theorem Data.blank_of_registered {name : List UInt8} {new : Storage → Data} (h : registered name = some new) (s : Storage) :
    (new s).Blank := by
  obtain ⟨T, rfl⟩ : ∃ T : Class, T.typeName = name := by
    by_cases hmover : name = Class.dragMover.typeName
    · exact ⟨_, hmover.symm⟩
    by_cases hchecker : name = Class.buttonChecker.typeName
    · exact ⟨_, hchecker.symm⟩
    by_cases hklicker : name = Class.objectKlicker.typeName
    · exact ⟨_, hklicker.symm⟩
    rw [registered, if_neg hmover, if_neg hchecker, if_neg hklicker] at h
    obtain ⟨_, hengine, _⟩ := Option.map_eq_some_iff.mp h
    obtain ⟨T, hT, _⟩ := Option.bind_eq_some_iff.mp hengine
    have hname := List.find?_some hT
    exact ⟨.engine T, eq_of_beq hname⟩
  exact (Data.registered_blank h s).2

theorem Data.Blank.buttons (h : d.Blank) : d.buttons = [] := by
  cases d with
  | engine d =>
    cases d with
    | drawableRenderer c => exact h.1
    | _ => rfl
  | _ => rfl

/-- A renderer without buttons has one for each of its ids when `afterSet` is done. -/
theorem even_of_afterSet {find : Engine.Lookup} {own : Engine.Class → List Addr} (hnone : d.buttons = [])
    (hclass : d.classOf ≠ .buttonChecker) (h : d.afterSet find own = .ok e) : e.Tagged := by
  cases d with
  | engine d =>
    obtain ⟨e, he, h⟩ := Cpp.bind_eq_ok.mp h
    cases h
    cases d with
    | drawableRenderer c =>
      obtain ⟨c', hc, he⟩ := Cpp.bind_eq_ok.mp he
      cases he
      obtain ⟨found, hfound, hc⟩ := Cpp.bind_eq_ok.mp hc
      obtain ⟨_, _, hc⟩ := Cpp.bind_eq_ok.mp hc
      obtain ⟨_, _, hc⟩ := Cpp.bind_eq_ok.mp hc
      cases hc
      change (c.buttons ++ found).length = c.buttonGameObjectIDs.length
      rw [show c.buttons = [] from hnone, List.nil_append, (mapM_eq_ok.mp hfound).length_eq]
    | transform | button | instancedSprite | instancedTeilSprite | stringRenderer | stringRendererInstance =>
      obtain ⟨c', _, he⟩ := Cpp.bind_eq_ok.mp he
      cases he
      trivial
    | _ =>
      cases he
      trivial
  | buttonChecker => exact absurd rfl hclass
  | _ =>
    cases h
    trivial

/-- A component that is saved under its own name, with all of its ids. -/
theorem Data.asSaved_of_tagged (h : d.Tagged) : d.asSaved = d := by
  cases d with
  | engine d =>
    cases d with
    | drawableRenderer c =>
      have hids : c.buttonGameObjectIDs.take c.buttons.length = c.buttonGameObjectIDs :=
        List.take_of_length_le (Nat.le_of_eq (Eq.symm h))
      simp only [Data.asSaved, trimmed, hids]
    | _ => rfl
  | buttonChecker => exact h.elim
  | _ => rfl

theorem Data.covered_of_tagged (h : d.Tagged) : d.Covered := by
  cases d with
  | engine d =>
    cases d with
    | drawableRenderer c => exact Nat.le_of_eq h
    | _ => trivial
  | _ => trivial

theorem Data.encode_saved (d : Data) : d.saved.encode = d.encode ∧ d.saved.classOf = d.classOf := by
  cases d with
  | engine d => cases d <;> exact ⟨rfl, rfl⟩
  | _ => exact ⟨rfl, rfl⟩

/-- The loaded component is saved as the one it was loaded for. -/
theorem Came.settles {find : Engine.Lookup} {own : Engine.Class → List Addr} (h : Came d d') (hnone : d'.buttons = [])
    (hafter : d'.afterSet find own = .ok e) : e.Tagged ∧ e.asSaved.saved = d.asSaved.saved := by
  have htagged : e.Tagged := by
    refine even_of_afterSet hnone ?_ hafter
    rw [h.classOf]
    cases d <;> exact nofun
  refine ⟨htagged, ?_⟩
  rw [Data.asSaved_of_tagged htagged, Data.saved_of_afterSet hafter, h.saved]

/-! ## Scenes that are saved alike -/

/-- The same ids are stored, and the objects have the same links and names, and components that are saved alike. -/
structure SavedAlike (st st' : ObjectStorrage Data) : Prop where
  objects : ∀ k g, st.getById k = some g → ∃ g', st'.getById k = some g' ∧ g'.links = g.links ∧ g'.name = g.name ∧
    List.Forall₂ (fun c c' => c'.data.asSaved.saved = c.data.asSaved.saved) g.componenten g'.componenten
  ids : ∀ k g', st'.getById k = some g' → ∃ g, st.getById k = some g

namespace SavedAlike

theorem refl (st : ObjectStorrage Data) : SavedAlike st st :=
  ⟨fun _ g hg => ⟨g, hg, rfl, rfl, List.forall₂_same.mpr fun _ _ => rfl⟩, fun _ g hg => ⟨g, hg⟩⟩

theorem trans {st'' : ObjectStorrage Data} (h : SavedAlike st st') (h' : SavedAlike st' st'') : SavedAlike st st'' := by
  refine ⟨fun k g hg => ?_, fun k g'' hg'' => ?_⟩
  · obtain ⟨g', hg', hlinks, hname, hcomps⟩ := h.objects k g hg
    obtain ⟨g'', hg'', hlinks', hname', hcomps'⟩ := h'.objects k g' hg'
    refine ⟨g'', hg'', hlinks'.trans hlinks, hname'.trans hname, ?_⟩
    refine Engine.forall₂_of_getElem? (hcomps.length_eq.trans hcomps'.length_eq) fun i c c'' hc hc'' => ?_
    obtain ⟨c', hc', hsaved⟩ := Engine.forall₂_getElem? hcomps hc
    obtain ⟨d, hd, hsaved'⟩ := Engine.forall₂_getElem? hcomps' hc'
    cases hc''.symm.trans hd
    exact hsaved'.trans hsaved
  · obtain ⟨g', hg'⟩ := h'.ids k g'' hg''
    exact h.ids k g' hg'

/-- They have the same bytes. -/
theorem encode (h : SavedAlike st st') :
    encodeStorrage Data.encode (st'.mapData Data.asSaved) = encodeStorrage Data.encode (st.mapData Data.asSaved) := by
  refine encodeStorrage_congr fun k => ?_
  rw [ObjectStorrage.getById_mapData, ObjectStorrage.getById_mapData]
  cases hg : st.getById k with
  | none =>
    cases hg' : st'.getById k with
    | none => rfl
    | some g' =>
      obtain ⟨g, hstored⟩ := h.ids k g' hg'
      cases hg.symm.trans hstored
  | some g =>
    obtain ⟨g', hg', hlinks, hname, hcomps⟩ := h.objects k g hg
    rw [hg']
    refine congrArg some (encodeObject_congr hlinks hname ?_)
    refine List.forall₂_map_left_iff.mpr (List.forall₂_map_right_iff.mpr (hcomps.imp fun c c' hsaved => ?_))
    obtain ⟨hbytes, hclass⟩ := Data.encode_saved c.data.asSaved
    obtain ⟨hbytes', hclass'⟩ := Data.encode_saved c'.data.asSaved
    change Data.encode c'.data.asSaved ++ encodeString c'.data.asSaved.classOf.typeName =
      Data.encode c.data.asSaved ++ encodeString c.data.asSaved.classOf.typeName
    rw [← hbytes', ← hclass', hsaved, hbytes, hclass]

theorem findsAlike (h : SavedAlike st st') : FindsAlike st st' :=
  .of_objects fun k g hg => by
    obtain ⟨g', hg', _, _, hcomps⟩ := h.objects k g hg
    refine ⟨g', hg', hcomps.imp fun c c' hsaved T => ?_⟩
    rw [← Data.isA_asSaved c'.data, ← Data.classOf_saved, hsaved, Data.classOf_saved, Data.isA_asSaved]

end SavedAlike

/-! ## What the places of a component are good for -/

/-- The classes that keep ids without a pointer beside them. -/
def Class.keepsIds : Class → Bool
  | engine T => T ∈ [.transform, .drawableRenderer, .instancedSprite, .stringRendererInstance]
  | _ => false

theorem resolvable_of_class (h : d.classOf.keepsIds = false) : Resolvable st g d ∧ Filmed st d := by
  cases d with
  | engine d =>
    cases d with
    | transform | drawableRenderer | instancedSprite | stringRendererInstance => cases h
    | _ => exact ⟨trivial, trivial⟩
  | _ => exact ⟨trivial, trivial⟩

/-- The ids of a component that is saved with all of its ids lead to components where those of the other one do. -/
theorem FindsAlike.resolvable (h : FindsAlike st st') {k : Int32} (hg : st.getById k = some g) (hg' : st'.getById k = some g')
    (htagged : e.Tagged) (hsaved : e.saved = d.asSaved.saved) (hres : Resolvable st g d) (hfilmed : Filmed st d) :
    Resolvable st' g' e ∧ Filmed st' e := by
  have hclass : e.classOf = d.asSaved.classOf := by
    rw [← Data.classOf_saved e, hsaved, Data.classOf_saved]
  cases d with
  | engine d =>
    cases d with
    | transform c =>
      obtain ⟨c', rfl, hID⟩ := Data.transform_of_saved hsaved
      refine ⟨?_, trivial⟩
      change c'.pGOID = -1 ∨ st'.Has _ c'.pGOID
      rw [hID]
      exact hres.imp_right h.has
    | instancedSprite c =>
      obtain ⟨c', rfl, hIDs⟩ := Data.instancedSprite_of_saved hsaved
      refine ⟨fun ID hID => h.has (hres ID ?_), trivial⟩
      rwa [← hIDs]
    | drawableRenderer c =>
      obtain ⟨c', rfl, hbuttonIDs, hdrawableIDs, hcamera⟩ := Data.drawableRenderer_of_saved hsaved
      obtain ⟨_, hbuttons, hdrawables⟩ := hres
      refine ⟨⟨Data.covered_of_tagged htagged, fun ID hID => ?_, fun p hp => ?_⟩, ?_⟩
      · rw [hbuttonIDs] at hID
        exact h.has (hbuttons ID (List.mem_of_mem_take hID))
      · rw [hdrawableIDs] at hp
        obtain ⟨a, ha⟩ := hdrawables p hp
        obtain ⟨a', ha', _⟩ := h.names ha
        exact ⟨a', ha'⟩
      · change st'.Has _ c'.currentCameraID
        rw [hcamera]
        exact h.has hfilmed
    | stringRendererInstance c =>
      obtain ⟨g₂, hg₂, hfound⟩ := h .transform k g hg
      cases hg'.symm.trans hg₂
      cases e with
      | engine e =>
        cases e with
        | stringRendererInstance c' =>
          refine ⟨fun hnil => hres ?_, trivial⟩
          rw [hnil] at hfound
          exact List.forall₂_nil_right_iff.mp hfound
        | _ => cases hclass
      | _ => cases hclass
    | _ => exact resolvable_of_class (by rw [hclass]; rfl)
  | _ => exact resolvable_of_class (by rw [hclass]; rfl)

/-! ## Loads -/

/-- No component of a scene that was loaded into an empty storage has a button. -/
theorem buttons_of_load {base : ObjectStorrage Data} (hbase : base.objects = ∅) {image rest name : List UInt8}
    (hlt : image.length < 2 ^ 31) {w w' : World} (h : base.load (image, w) = .ok ((name, st), rest, w')) :
    st.AllComponents fun c => c.data.buttons = [] := by
  intro k g hg c hc
  obtain ⟨name, w, c₀, w₁, s, s₁, _, hcreate, hset, _⟩ := ObjectStorrage.load_made pops hbase hlt h k g hg c hc
  rw [(Data.pointers_of_set hset).2]
  unfold createInstance at hcreate
  split at hcreate
  · cases hcreate
  · rename_i new hnew
    cases hcreate
    exact (Data.blank_of_registered hnew _).buttons

end SceenViewer
