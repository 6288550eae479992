import BackupEngine.Lemmas.Relinking
import BackupEngine.Theorems.Relinking

/-!
# Loading on top of a scene

`set` puts each object under the id it was saved with, and `std::map::insert` does nothing for an id that is taken. The
objects of two scenes can only both be there when the scenes have no id in common.
-/

namespace SceenViewer

open Cpp Serializer Transition

/-! ## What should be there -/

/-- The loaded component is the saved one: its class, and what is saved of it. -/
def SameComponent (d d' : Data) : Prop := d'.classOf = d.classOf ∧ d'.saved = d.asSaved.saved

/-- The parent ids and the lists of children tell the same edges. -/
def EdgesAgree (st : ObjectStorrage Data) : Prop :=
  ∀ a ga b gb, st.getById a = some ga → st.getById b = some gb → (gb.parrentID = ga.ID ↔ gb.ID ∈ ga.childrenIds)

/-- Both scenes are in the merged one: the objects that were stored are stored as they were, every loaded object has a place
of its own where nothing was stored, with its name and components, and the edges agree. -/
structure Merges (base st merged : ObjectStorrage Data) : Prop where
  kept : ∀ k g, base.getById k = some g → merged.getById k = some g
  arrived : ∃ place : Int32 → Int32, Set.InjOn place {k | ∃ g, st.getById k = some g} ∧
    ∀ k g, st.getById k = some g → base.getById (place k) = none ∧ ∃ g', merged.getById (place k) = some g' ∧
      g'.name = g.name ∧ List.Forall₂ (fun c c' => SameComponent c.data c'.data) g.componenten g'.componenten
  edges : EdgesAgree merged

/-- No id of `st` is stored in `base`, or the parent or a child of an object there. -/
def Apart (base st : ObjectStorrage Data) : Prop :=
  ∀ k g, st.getById k = some g → base.getById k = none ∧
    ∀ j o, base.getById j = some o → o.parrentID ≠ k ∧ k ∉ o.childrenIds

/-- No object has a `ButtonChecker`. -/
def NoChecker (st : ObjectStorrage Data) : Prop := st.All fun d => d.classOf ≠ .buttonChecker

/-! ## What is there -/

section

variable {base st merged : ObjectStorrage Data}

theorem asSaved_classOf_ne (d : Data) : d.asSaved.classOf ≠ .buttonChecker := by
  cases d <;> exact nofun

theorem Came.same_iff {d d' : Data} (h : Came d d') : SameComponent d d' ↔ d.classOf ≠ .buttonChecker := by
  rw [← Data.classOf_asSaved, ← h.classOf]
  exact and_iff_left h.saved

/-- An id that only one of the scenes stores. -/
theorem LoadedOnto.get (h : LoadedOnto base st merged) (hapart : ∀ k g, st.getById k = some g → base.getById k = none)
    {k : Int32} {g' : GameObject Data} (hk : merged.getById k = some g') :
    base.getById k = some g' ∨ base.getById k = none ∧ ∃ g, st.getById k = some g ∧ g'.links = g.links := by
  rcases h.ids k g' hk with ⟨g, hg⟩ | ⟨g, hg⟩
  · obtain rfl := Option.some_inj.mp ((h.kept k g hg).symm.trans hk)
    exact .inl hg
  · have hnone := hapart k g hg
    obtain ⟨o, ho, hlinks, _⟩ := h.added k g hnone hg
    obtain rfl := Option.some_inj.mp (ho.symm.trans hk)
    exact .inr ⟨hnone, g, hg, hlinks⟩

/-- As many places as objects, all among the ids of the loaded scene: no id is taken. -/
theorem LoadedOnto.apart (h : LoadedOnto base st merged) {place : Int32 → Int32}
    (hinj : Set.InjOn place {k | ∃ g, st.getById k = some g})
    (hplace : ∀ k g, st.getById k = some g → base.getById (place k) = none ∧ ∃ g', merged.getById (place k) = some g') :
    ∀ k g, st.getById k = some g → base.getById k = none := by
  have hmaps : Set.MapsTo place {k | ∃ g, st.getById k = some g} {k | ∃ g, st.getById k = some g} := by
    rintro k ⟨g, hg⟩
    obtain ⟨hnone, g', hg'⟩ := hplace k g hg
    refine (h.ids _ g' hg').resolve_left ?_
    rintro ⟨o, ho⟩
    rw [hnone] at ho
    cases ho
  have hfinite : Set.Finite {k | ∃ g, st.getById k = some g} := by
    refine (List.finite_toSet st.objects.keys).subset ?_
    rintro k ⟨g, hg⟩
    exact Std.ExtTreeMap.mem_keys.mpr (Std.ExtTreeMap.isSome_getElem?_iff_mem.mp (Option.isSome_iff_exists.mpr ⟨g, hg⟩))
  intro k g hg
  obtain ⟨j, ⟨o, ho⟩, rfl⟩ := ((hfinite.injOn_iff_bijOn_of_mapsTo hmaps).mp hinj).surjOn ⟨g, hg⟩
  exact (hplace j o ho).1

/-- The edges of two scenes apart are those of the one and those of the other. -/
theorem LoadedOnto.edges (h : LoadedOnto base st merged) (hkey : base.Keyed) (hempty : base.getById EMPTY_ID = none)
    (hst : st.Hierarchy) (hapart : Apart base st) (hagree : EdgesAgree base) : EdgesAgree merged := by
  have hID : ∀ {g g' : GameObject Data}, g'.links = g.links → g'.ID = g.ID := congrArg Prod.fst
  have hparrent : ∀ {g g' : GameObject Data}, g'.links = g.links → g'.parrentID = g.parrentID :=
    fun h => congrArg (fun l => l.2.1) h
  have hchilds : ∀ {g g' : GameObject Data}, g'.links = g.links → g'.childrenIds = g.childrenIds :=
    fun h => congrArg (fun l => l.2.2) h
  have hnone : ∀ k g, st.getById k = some g → base.getById k = none := fun k g hg => (hapart k g hg).1
  intro a ga b gb ha hb
  rcases h.get hnone ha with ha | ⟨hna, oa, ha, hla⟩
  · rcases h.get hnone hb with hb | ⟨hnb, ob, hb, hlb⟩
    · exact hagree a ga b gb ha hb
    · -- The parent of a loaded object was loaded, and its id is no child of an object that was stored.
      rw [hparrent hlb, hID hlb, hst.keyed b ob hb, hkey a ga ha]
      refine iff_of_false (fun heq => ?_) ((hapart b ob hb).2 a ga ha).2
      have hne : ob.parrentID ≠ EMPTY_ID := by
        rw [heq]
        rintro rfl
        rw [hempty] at ha
        cases ha
      obtain ⟨p, hp⟩ := hst.parents b ob hb hne
      rw [heq] at hp
      rw [hnone a p hp] at ha
      cases ha
  · rcases h.get hnone hb with hb | ⟨hnb, ob, hb, hlb⟩
    · rw [hID hla, hchilds hla, hst.keyed a oa ha, hkey b gb hb]
      refine iff_of_false ((hapart a oa ha).2 b gb hb).1 fun hmem => ?_
      obtain ⟨o, ho⟩ := hst.childs a oa ha b hmem
      rw [hnone b o ho] at hb
      cases hb
    · rw [hparrent hlb, hID hla, hID hlb, hchilds hla, hst.keyed a oa ha, hst.keyed b ob hb]
      have hedge := hst.edges a oa b ob ha hb
      rw [← List.count_pos_iff, hedge]
      split <;> simp_all

/-- An object of the base that names a loaded id makes an edge that the loaded object does not have. -/
theorem LoadedOnto.apart_of_edges (h : LoadedOnto base st merged) (hkey : base.Keyed)
    (hempty : base.getById EMPTY_ID = none) (hst : st.Hierarchy)
    (hnone : ∀ k g, st.getById k = some g → base.getById k = none) (hagree : EdgesAgree merged) : Apart base st := by
  intro k g hg
  refine ⟨hnone k g hg, fun j o ho => ?_⟩
  obtain ⟨g', hg', hlinks, _⟩ := h.added k g (hnone k g hg) hg
  have hID : g'.ID = k := (congrArg Prod.fst hlinks).trans (hst.keyed k g hg)
  have hnot : ∀ u, ¬st.getById j = some u := by
    intro u hu
    rw [hnone j u hu] at ho
    cases ho
  constructor
  · intro hparrent
    have hmem := (hagree k g' j o hg' (h.kept j o ho)).mp (hparrent.trans hID.symm)
    rw [show g'.childrenIds = g.childrenIds from congrArg (fun l => l.2.2) hlinks, hkey j o ho] at hmem
    obtain ⟨u, hu⟩ := hst.childs k g hg j hmem
    exact hnot u hu
  · intro hmem
    have hparrent := (hagree j o k g' (h.kept j o ho) hg').mpr (hID.symm ▸ hmem)
    rw [show g'.parrentID = g.parrentID from congrArg (fun l => l.2.1) hlinks, hkey j o ho] at hparrent
    have hne : g.parrentID ≠ EMPTY_ID := by
      rw [hparrent]
      rintro rfl
      rw [hempty] at ho
      cases ho
    obtain ⟨u, hu⟩ := hst.parents k g hg hne
    rw [hparrent] at hu
    exact hnot u hu

/-- What a load makes is both scenes exactly when they are apart, the base was in order and nothing loses its class. -/
theorem LoadedOnto.isMerge_iff (h : LoadedOnto base st merged) (hkey : base.Keyed) (hempty : base.getById EMPTY_ID = none)
    (hst : st.Hierarchy) : Merges base st merged ↔ Apart base st ∧ EdgesAgree base ∧ NoChecker st := by
  constructor
  · rintro ⟨_, ⟨place, hinj, hplace⟩, hedges⟩
    have hnone := h.apart hinj fun k g hg => (hplace k g hg).imp_right fun ⟨g', hg', _⟩ => ⟨g', hg'⟩
    refine ⟨h.apart_of_edges hkey hempty hst hnone hedges, fun a ga b gb ha hb =>
      hedges a ga b gb (h.kept a ga ha) (h.kept b gb hb), fun k g hg c hc hchecker => ?_⟩
    obtain ⟨hfree, g', hg', _, hcomps⟩ := hplace k g hg
    obtain ⟨i, hi⟩ := List.mem_iff_getElem?.mp hc
    obtain ⟨c', hc', hclass, _⟩ := Engine.forall₂_getElem? hcomps hi
    -- What is stored at the place was loaded, and nothing is loaded as a `ButtonChecker`.
    rcases h.ids _ g' hg' with ⟨o, ho⟩ | ⟨o, ho⟩
    · rw [hfree] at ho
      cases ho
    · obtain ⟨g'', hg'', _, _, hcame⟩ := h.added _ o hfree ho
      obtain rfl := Option.some_inj.mp (hg''.symm.trans hg')
      obtain ⟨d, _, hd⟩ := Engine.forall₂_getElem? hcame.flip hc'
      exact asSaved_classOf_ne d.data (hd.classOf.symm.trans (hclass.trans hchecker))
  · rintro ⟨hapart, hagree, hchecker⟩
    refine ⟨h.kept, ⟨id, Function.injective_id.injOn, fun k g hg => ?_⟩, h.edges hkey hempty hst hapart hagree⟩
    have hnone := (hapart k g hg).1
    obtain ⟨g', hg', _, hname, hcomps⟩ := h.added k g hnone hg
    refine ⟨hnone, g', hg', hname, ?_⟩
    refine Engine.forall₂_of_getElem? hcomps.length_eq fun i c c' hc hc' => ?_
    obtain ⟨c'', hc'', hcame⟩ := Engine.forall₂_getElem? hcomps hc
    obtain rfl := Option.some_inj.mp (hc''.symm.trans hc')
    exact hcame.same_iff.mpr (hchecker k g hg c (List.mem_of_getElem? hc))

/-- The same for a save and a load. -/
theorem load_merges_iff (hkey : base.Keyed) (hempty : base.getById EMPTY_ID = none) (hst : st.Hierarchy) (hfits : Fits st)
    (w : World) :
    ∃ image, st.serialize ([], w) = .ok ((), image, w) ∧ ∀ later, ∃ name merged later',
      base.load (image, later) = .ok ((name, merged), [], later') ∧
        (Merges base st merged ↔ Apart base st ∧ EdgesAgree base ∧ NoChecker st) := by
  obtain ⟨hserialize, hloads⟩ := hfits.loads_onto hst.keyed w
  refine ⟨_, hserialize, fun later => ?_⟩
  obtain ⟨name, merged, later', hload, honto⟩ := hloads base later
  exact ⟨name, merged, later', hload, honto.isMerge_iff hkey hempty hst⟩

end

/-- A scene that was built by calls on the singletons, and whose bytes a body can hold, is saved and loaded on top of another:
both are there exactly when no id of the scene is stored or named in the other, the edges of the other agree, and the scene has
no `ButtonChecker`. -/
theorem merges_iff {base : ObjectStorrage Data} (hkey : base.Keyed) (hempty : base.getById EMPTY_ID = none) {w : World}
    {cs : List Call} {s : Singletons} (h : Run calls { scene := ⟨{}, w⟩ } cs s) (hsize : s.scene.image.length < 2 ^ 31) :
    ∃ image, s.scene.storrageInstance.serialize ([], s.scene.world) = .ok ((), image, s.scene.world) ∧
      ∀ later, ∃ name merged later', base.load (image, later) = .ok ((name, merged), [], later') ∧
        (Merges base s.scene.storrageInstance merged ↔
          Apart base s.scene.storrageInstance ∧ EdgesAgree base ∧ NoChecker s.scene.storrageInstance) :=
  load_merges_iff hkey hempty (Sound.run h).hierarchy ((Sound.run h).fits hsize) s.scene.world

/-- A storage with one object, under an id of its own. -/
def farObject : ObjectStorrage Data := ObjectStorrage.addOnId {} 5 { ID := 5, isActiv := true }

theorem getById_farObject {k : Int32} {g : GameObject Data} (h : farObject.getById k = some g) :
    5 = k ∧ g = { ID := 5, isActiv := true } := by
  rw [farObject, ObjectStorrage.getById_addOnId _ _ (by decide)] at h
  split at h
  · exact ⟨by assumption, (Option.some_inj.mp h).symm⟩
  · simp [ObjectStorrage.getById] at h

/-- A new scene of one object loaded on top of this one. -/
theorem merges_iff_far :
    ∃ s image, Run calls { scene := ⟨{}, .blank⟩ } [.createGameObject] s ∧
      s.scene.storrageInstance.serialize ([], s.scene.world) = .ok ((), image, s.scene.world) ∧
      ∀ later, ∃ name merged later', farObject.load (image, later) = .ok ((name, merged), [], later') ∧
        Merges farObject s.scene.storrageInstance merged := by
  have hexec : ∃ s ∈ exec calls { scene := ⟨{}, .blank⟩ } [.createGameObject],
      s.scene.image.length < 2 ^ 31 ∧ s.scene.storrageInstance.objects.toList = [(0, { ID := 0, isActiv := false })] := by
    decide +kernel
  obtain ⟨s, hs, hsize, hobjects⟩ := hexec
  have hone : ∀ k g, s.scene.storrageInstance.getById k = some g → k = 0 ∧ g = { ID := 0, isActiv := false } := by
    intro k g hg
    rw [← ObjectStorrage.mem_toList, hobjects, List.mem_singleton, Prod.mk.injEq] at hg
    exact hg
  have hkey : farObject.Keyed := by
    intro k g hg
    obtain ⟨rfl, rfl⟩ := getById_farObject hg
    rfl
  obtain ⟨image, hsave, hload⟩ := merges_iff hkey (by decide) (Run.of_exec hs) hsize
  refine ⟨s, image, Run.of_exec hs, hsave, fun later => ?_⟩
  obtain ⟨name, merged, later', hmerged, hiff⟩ := hload later
  refine ⟨name, merged, later', hmerged, hiff.mpr ⟨fun k g hg => ?_, fun a ga b gb ha hb => ?_, fun k g hg c hc => ?_⟩⟩
  · obtain ⟨rfl, rfl⟩ := hone k g hg
    refine ⟨by decide, fun j o ho => ?_⟩
    obtain ⟨rfl, rfl⟩ := getById_farObject ho
    decide
  · obtain ⟨rfl, rfl⟩ := getById_farObject ha
    obtain ⟨_, rfl⟩ := getById_farObject hb
    decide
  · obtain ⟨rfl, rfl⟩ := hone k g hg
    exact absurd hc List.not_mem_nil

/-- An object with a name, loaded on top of an object with the same id: it is not there. -/
theorem same_id_lost :
    ∃ s₁ s₂ image w name merged rest w',
      Run calls { scene := ⟨{}, .blank⟩ } [.createGameObject] s₁ ∧
      Run calls { scene := ⟨{}, .blank⟩ } [.createGameObject, .setName 0 (chars "tile")] s₂ ∧
      s₂.scene.storrageInstance.serialize ([], s₂.scene.world) = .ok ((), image, w) ∧
      s₁.scene.storrageInstance.load (image, .blank) = .ok ((name, merged), rest, w') ∧
      merged.objects.toList.map (fun it => (it.1, it.2.name)) = [(0, [])] ∧
      ¬Merges s₁.scene.storrageInstance s₂.scene.storrageInstance merged := by
  have hrun : (do
      let s₁ ← Singletons.perform { scene := ⟨{}, .blank⟩ } .createGameObject
      let _ ← s₁.scene.storrageInstance.deref 0
      let s₂ ← s₁.perform (.setName 0 (chars "tile"))
      let _ ← s₂.scene.storrageInstance.deref 0
      let saved ← s₂.scene.storrageInstance.serialize ([], s₂.scene.world)
      let loaded ← s₁.scene.storrageInstance.load (saved.2.1, .blank)
      return loaded.1.2.objects.toList.map fun it => (it.1, it.2.name)) = (.ok [(0, [])] : Comp (List (Int32 × List UInt8))) := by
    decide +kernel
  obtain ⟨s₁, hnext₁, hrun⟩ := Cpp.bind_eq_ok.mp hrun
  obtain ⟨g₁, hg₁, hrun⟩ := Cpp.bind_eq_ok.mp hrun
  obtain ⟨s₂, hnext₂, hrun⟩ := Cpp.bind_eq_ok.mp hrun
  obtain ⟨g₂, hg₂, hrun⟩ := Cpp.bind_eq_ok.mp hrun
  obtain ⟨⟨_, image, w⟩, hsave, hrun⟩ := Cpp.bind_eq_ok.mp hrun
  obtain ⟨⟨⟨name, merged⟩, rest, w'⟩, hload, hrun⟩ := Cpp.bind_eq_ok.mp hrun
  have hfirst := Run.snoc (a := Call.createGameObject) (Run.nil (M := calls)) ⟨trivial, hnext₁⟩
  have hsecond := Run.snoc (a := Call.setName 0 (chars "tile")) hfirst ⟨⟨g₁, ObjectStorrage.deref_eq_ok.mp hg₁⟩, hnext₂⟩
  have hone : merged.objects.toList.map (fun it => (it.1, it.2.name)) = [(0, [])] := Except.ok.inj hrun
  refine ⟨s₁, s₂, image, w, name, merged, rest, w', hfirst, hsecond, hsave, hload, hone, ?_⟩
  -- The loaded object could only be at the one id there is, which is taken.
  rintro ⟨_, ⟨place, _, hplace⟩, _⟩
  obtain ⟨hfree, g', hg', _⟩ := hplace 0 g₂ (ObjectStorrage.deref_eq_ok.mp hg₂)
  have hmem := List.mem_map_of_mem (f := fun it : Int32 × GameObject Data => (it.1, it.2.name))
    (ObjectStorrage.mem_toList.mpr hg')
  rw [hone, List.mem_singleton] at hmem
  have hplace₀ : place 0 = 0 := (Prod.mk.inj hmem).1
  rw [hplace₀, ObjectStorrage.deref_eq_ok.mp hg₁] at hfree
  cases hfree

end SceenViewer
