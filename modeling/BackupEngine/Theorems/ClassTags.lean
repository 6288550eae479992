import BackupEngine.Lemmas.SavedClasses

/-!
# Class names in a saved scene

`serialize` of a component ends with the name its class is looked up by in a load. All classes of the engine push their own
name, and so do `DragMover` and `objectKlicker`; `ButtonChecker` pushes the name of `DragMover`, and comes back as one.
-/

namespace SceenViewer

open Cpp Serializer ByteStack

/-- The classes of the components of an object, in order. -/
def classes (g : GameObject Data) : List Class := g.componenten.map fun c => c.data.classOf

/-- The components of the object under `k` keep their classes when the storage is saved and loaded: each pushes last a name
that leads to its class, whose `set` reads what lies below that name, and the object that is loaded has the same classes. -/
structure ClassesKept (st : ObjectStorrage Data) (k : Int32) (g : GameObject Data) : Prop where
  tags : ∀ c ∈ g.componenten, ∃ payload name new, Writes (2 ^ 31) c.data.serialize (payload ++ encodeString name) ∧
    Data.registered name = some new ∧
      ∀ s, Reads (2 ^ 31) (new s).set (fun c' => c'.classOf = c.data.classOf) payload
  loaded : ∀ w, ∃ image, st.serialize ([], w) = .ok ((), image, w) ∧
    ∀ counter w', ∃ st' w'', ObjectStorrage.load { objects := ∅, counter := counter } (image, w') =
        .ok ((chars "class ObjectStorrage", st'), [], w'') ∧
      ∃ g', st'.getById k = some g' ∧ classes g' = classes g

section

variable {st : ObjectStorrage Data}

/-- A storage that fits is saved and loaded, and each object comes back with the classes of the names its components pushed. -/
theorem Fits.round_trip (hfits : Fits st) (hkey : st.Keyed) (w : World) :
    ∃ image, st.serialize ([], w) = .ok ((), image, w) ∧
      ∀ counter w', ∃ st' w'', ObjectStorrage.load { objects := ∅, counter := counter } (image, w') =
          .ok ((chars "class ObjectStorrage", st'), [], w'') ∧
        ∀ k g, st.getById k = some g → ∃ g', st'.getById k = some g' ∧
          classes g' = g.componenten.map fun c => c.data.asSaved.classOf := by
  have htagged : (st.mapData Data.asSaved).All Data.Tagged := by
    intro k g hg c hc
    rw [ObjectStorrage.getById_mapData] at hg
    obtain ⟨o, ho, rfl⟩ := Option.map_eq_some_iff.mp hg
    obtain ⟨d, hd, rfl⟩ := List.mem_map.mp hc
    exact Data.tagged_asSaved (hfits.covered k o ho d hd)
  have hkeyed : (st.mapData Data.asSaved).Keyed := by
    intro k g hg
    rw [ObjectStorrage.getById_mapData] at hg
    obtain ⟨o, ho, rfl⟩ := Option.map_eq_some_iff.mp hg
    exact hkey k o ho
  have hserialize : st.serialize = (st.mapData Data.asSaved).serialize :=
    (ObjectStorrage.serialize_mapData fun k g hg c hc => Data.serialize_asSaved (hfits.covered k g hg c hc)).symm
  refine ⟨encodeStorrage Data.encode (st.mapData Data.asSaved), ?_, fun counter w' => ?_⟩
  · rw [hserialize]
    exact ObjectStorrage.serialize_writes saves htagged [] w hfits.size
  · obtain ⟨⟨name, st'⟩, w'', hload, hname, hsaved, _⟩ :=
      ObjectStorrage.load_reads saves htagged hkeyed (hfits.countable.mapData _) counter [] w' hfits.size
    simp only at hname hsaved
    subst hname
    refine ⟨st', w'', hload, fun k g hg => ?_⟩
    have hk := congrFun hsaved k
    rw [ObjectStorrage.saved, ObjectStorrage.saved, ObjectStorrage.getById_mapData, hg, Option.map_some, Option.map_some]
      at hk
    obtain ⟨g', hg', hsame⟩ := Option.map_eq_some_iff.mp hk
    refine ⟨g', hg', ?_⟩
    have hcomp := congrArg (List.map Data.classOf) (congrArg SavedObject.componenten hsame)
    simpa only [classes, GameObject.saved, GameObject.mapData, List.map_map, Function.comp_def, Data.classOf_saved]
      using hcomp

/-- The classes of the names are the classes of the components exactly when there is no `ButtonChecker`. -/
theorem map_asSaved_iff (cs : List (Component Data)) :
    (cs.map fun c => c.data.asSaved.classOf) = (cs.map fun c => c.data.classOf) ↔
      ∀ c ∈ cs, c.data.classOf ≠ .buttonChecker := by
  rw [List.map_inj_left]
  exact forall_congr' fun c => imp_congr_right fun _ => Data.classOf_asSaved c.data

/-- In a storage that fits, an object keeps the classes of its components exactly when it holds no `ButtonChecker`. -/
theorem classes_kept_iff (hkey : st.Keyed) (hfits : Fits st) {k : Int32} {g : GameObject Data}
    (hg : st.getById k = some g) : ClassesKept st k g ↔ ∀ c ∈ g.componenten, c.data.classOf ≠ .buttonChecker := by
  rw [← map_asSaved_iff]
  constructor
  · intro h
    obtain ⟨image, hsave, hload⟩ := h.loaded .blank
    obtain ⟨image', hsave', hload'⟩ := hfits.round_trip hkey .blank
    rw [hsave] at hsave'
    cases hsave'
    obtain ⟨st', w', hst', g', hg', hclasses⟩ := hload 0 .blank
    obtain ⟨st'', w'', hst'', hobjects⟩ := hload' 0 .blank
    rw [hst'] at hst''
    cases hst''
    obtain ⟨g'', hg'', hclasses'⟩ := hobjects k g hg
    rw [hg'] at hg''
    cases hg''
    exact hclasses'.symm.trans hclasses
  · intro h
    constructor
    case tags =>
      intro c hc
      have hcovered := hfits.covered k g hg c hc
      have htagged := Data.tagged_asSaved hcovered
      obtain ⟨new, hnew, hread⟩ := saves.reads c.data.asSaved htagged
      refine ⟨c.data.asSaved.encode, c.data.asSaved.classOf.typeName, new, ?_, hnew, fun s => (hread s).mono fun c' hc' => ?_⟩
      · rw [← Data.serialize_asSaved hcovered]
        exact saves.writes c.data.asSaved htagged
      · rw [← Data.classOf_saved c', hc', Data.classOf_saved]
        exact List.map_inj_left.mp h c hc
    case loaded =>
      intro w
      obtain ⟨image, hsave, hload⟩ := hfits.round_trip hkey w
      refine ⟨image, hsave, fun counter w' => ?_⟩
      obtain ⟨st', w'', hst', hobjects⟩ := hload counter w'
      obtain ⟨g', hg', hclasses⟩ := hobjects k g hg
      exact ⟨st', w'', hst', g', hg', hclasses.trans h⟩

/-- A transform, a `DragMover` and a renderer that has forgotten its buttons, all of which keep their classes. -/
theorem classes_kept_mover :
    ∃ st g, ObjectStorrage.getById st 0 = some g ∧
      classes g = [.engine .transform, .dragMover, .engine .drawableRenderer] ∧ ClassesKept st 0 g := by
  let g : GameObject Data :=
    { ID := 0, isActiv := true,
      componenten :=
        [{ addr := 1, isActiv := true, data := .engine (.transform (Engine.Transform.new (World.blank.memory 1))) },
          { addr := 2, isActiv := true, data := .dragMover { transform := some 1 } },
          { addr := 3, isActiv := true, data := .engine (.drawableRenderer
              { currentCamera := none, currentCameraID := 0, buttonGameObjectIDs := [6] }) }] }
  have hget : ∀ k o, (ObjectStorrage.addOnId {} 0 g).getById k = some o → 0 = k ∧ g = o := by
    intro k o h
    rw [ObjectStorrage.getById_addOnId _ _ (by decide)] at h
    split at h
    · exact ⟨by assumption, Option.some_inj.mp h⟩
    · simp [ObjectStorrage.getById] at h
  have hg : (ObjectStorrage.addOnId {} 0 g).getById 0 = some g := by
    rw [ObjectStorrage.getById_addOnId _ _ (by decide), if_pos rfl]
  have hkey : (ObjectStorrage.addOnId {} 0 g).Keyed := by
    intro k o h
    obtain ⟨rfl, rfl⟩ := hget k o h
    rfl
  have hfits : Fits (ObjectStorrage.addOnId {} 0 g) := by
    refine ⟨fun k o h => ?_, fun k o h => ?_, by decide +kernel⟩
    · obtain ⟨rfl, rfl⟩ := hget k o h
      simp [g, Data.Covered, Covered]
    · obtain ⟨rfl, _⟩ := hget k o h
      decide
  exact ⟨_, g, hg, rfl, (classes_kept_iff hkey hfits hg).mpr (by simp [g, Data.classOf])⟩

/-- An object with a renderer and a `ButtonChecker`. -/
def checkerScene : Comp (ObjectStorrage Data × World) := do
  let ((this, st), w) ← ObjectStorrage.createGameObject {} World.blank
  let (st, w) ← st.addComponent this (Class.engine .drawableRenderer) w
  st.addComponent this Class.buttonChecker w

/-- The `ButtonChecker` comes back as a `DragMover`. -/
theorem reloaded_checker :
    ∃ st w g, checkerScene = .ok (st, w) ∧ st.getById 0 = some g ∧
      classes g = [.engine .drawableRenderer, .buttonChecker] ∧ ¬ClassesKept st 0 g := by
  have hrun : (do
      let (st, w) ← checkerScene
      let (_, image, _) ← st.serialize ([], w)
      let ((_, st'), _, _) ← ObjectStorrage.load {} (image, w)
      return ((st.getById 0).map classes, (st'.getById 0).map classes)) =
      (.ok (some [.engine .drawableRenderer, .buttonChecker], some [.engine .drawableRenderer, .dragMover]) :
        Comp (Option (List Class) × Option (List Class))) := by decide +kernel
  obtain ⟨⟨st, w⟩, hscene, hrun⟩ := Cpp.bind_eq_ok.mp hrun
  obtain ⟨⟨_, image, w₁⟩, hsave, hrun⟩ := Cpp.bind_eq_ok.mp hrun
  obtain ⟨⟨⟨name, st'⟩, rest, w₂⟩, hload, hrun⟩ := Cpp.bind_eq_ok.mp hrun
  obtain ⟨hbefore, hafter⟩ := Prod.mk.inj (Except.ok.inj hrun)
  obtain ⟨g, hg, hclasses⟩ := Option.map_eq_some_iff.mp hbefore
  refine ⟨st, w, g, hscene, hg, hclasses, fun hkept => ?_⟩
  obtain ⟨image', hsave', hload'⟩ := hkept.loaded w
  rw [hsave] at hsave'
  cases hsave'
  obtain ⟨st'', w₃, hst'', g', hg', hsame⟩ := hload' 0 w
  rw [hload] at hst''
  cases hst''
  rw [hg', Option.map_some, Option.some_inj, hsame, hclasses] at hafter
  exact absurd hafter (by decide)

end

end SceenViewer
