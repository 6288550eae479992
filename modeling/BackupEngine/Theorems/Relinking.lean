import BackupEngine.Lemmas.SavedAlike
import BackupEngine.Lib.Transition

/-!
# Links between components

Whatever is called on the singletons, a button, a renderer of instances and the event system keep beside each pointer the
place it is found at. A scene whose image a body can hold comes back with the same components at the same places, and with
them the pointers; one whose image it cannot hold need not come back at all.
-/

namespace SceenViewer

open Cpp Serializer ByteStack Transition

open Serializer.ObjectStorrage (Names Has Holds settle settled)

/-! ## The calls of a run -/

/-- What a call is about is stored: its objects, and the component that is handed over. -/
def Call.Stored (st : ObjectStorrage Data) : Call → Prop
  | .createGameObject | .removeEventListener _ => True
  | .setName this _ | .setActiv this _ | .addComponent this _ => ∃ me, st.getById this = some me
  | .setParrent this parrent => (∃ me, st.getById this = some me) ∧ ∃ there, st.getById parrent = some there
  | .setParrentID this parrentID =>
    (∃ me, st.getById this = some me) ∧ (parrentID = EMPTY_ID ∨ ∃ there, st.getById parrentID = some there)
  | .onComponent _ call => ∀ T p, call.argument = some (T, p) → st.Holds T p
  | .addEventListener el => st.Holds Class.eventListener el

/-- The calls on the singletons, in any order. -/
def calls : Machine Fault Singletons Call where
  enabled := fun s c => c.Stored s.scene.storrageInstance
  next := Singletons.perform

/-! ## What a run keeps -/

theorem Sound.register {s t : Singletons} {T : Class} {el : Pointer} (h : Sound s.scene.storrageInstance s.events)
    (hregister : s.register T el = .ok t) : Sound t.scene.storrageInstance t.events := by
  unfold Singletons.register at hregister
  split at hregister
  · obtain ⟨g, hg, hregister⟩ := Cpp.bind_eq_ok.mp hregister
    obtain ⟨events, hadd, hregister⟩ := Cpp.bind_eq_ok.mp hregister
    cases hregister
    exact h.addEventListener (ObjectStorrage.deref_eq_ok.mp hg) hadd
  · cases hregister
    exact h

/-- Every call keeps what the states reached have. -/
theorem Sound.step {s t : Singletons} {c : Call} (h : Sound s.scene.storrageInstance s.events) (hstep : calls.Step s c t) :
    Sound t.scene.storrageInstance t.events := by
  obtain ⟨hstored, hnext⟩ := hstep
  cases c with
  | createGameObject =>
    obtain ⟨⟨ID, scene⟩, hcall, hr⟩ := Cpp.bind_eq_ok.mp hnext
    cases hr
    obtain ⟨⟨⟨ID', st⟩, w⟩, hcreate, hr⟩ := Cpp.bind_eq_ok.mp hcall
    cases hr
    exact h.createGameObject hcreate
  | setName this name =>
    obtain ⟨st, hwrite, hr⟩ := Cpp.bind_eq_ok.mp hnext
    cases hr
    exact h.onGameObject (f := fun g => { g with name }) (fun _ => rfl) (fun _ => rfl) (fun g c hc => ⟨c, hc, rfl⟩) hwrite
  | setActiv this value =>
    obtain ⟨st, hwrite, hr⟩ := Cpp.bind_eq_ok.mp hnext
    cases hr
    refine h.onGameObject (f := GameObject.setActiv value) (fun _ => rfl) (fun g => ?_) (fun g c hc => ?_) hwrite
    · simp only [GameObject.shape, GameObject.setActiv, List.map_map, Function.comp_def]
    · obtain ⟨o, ho, rfl⟩ := List.mem_map.mp hc
      exact ⟨o, ho, rfl⟩
  | setParrent this parrent =>
    obtain ⟨⟨me, hme⟩, there, hthere⟩ := hstored
    obtain ⟨scene, hcall, hr⟩ := Cpp.bind_eq_ok.mp hnext
    cases hr
    obtain ⟨st, hset, hr⟩ := Cpp.bind_eq_ok.mp hcall
    cases hr
    rw [ObjectStorrage.setParrent_eq h.hierarchy.agrees hme hthere] at hset
    exact h.setParrentID hme (.inr ⟨there, hthere⟩) hset
  | setParrentID this parrentID =>
    obtain ⟨⟨me, hme⟩, hthere⟩ := hstored
    obtain ⟨scene, hcall, hr⟩ := Cpp.bind_eq_ok.mp hnext
    cases hr
    obtain ⟨st, hset, hr⟩ := Cpp.bind_eq_ok.mp hcall
    cases hr
    exact h.setParrentID hme hthere hset
  | addComponent this T =>
    obtain ⟨⟨p, scene⟩, hcall, hregister⟩ := Cpp.bind_eq_ok.mp hnext
    obtain ⟨⟨st, w⟩, hadd, hcall⟩ := Cpp.bind_eq_ok.mp hcall
    obtain ⟨p', _, hr⟩ := Cpp.bind_eq_ok.mp hcall
    cases hr
    exact Sound.register (s := { s with scene := ⟨st, w⟩ }) (h.addComponent hadd) hregister
  | onComponent this call =>
    obtain ⟨scene, hcall, hr⟩ := Cpp.bind_eq_ok.mp hnext
    cases hr
    obtain ⟨st, hupdate, hr⟩ := Cpp.bind_eq_ok.mp hcall
    cases hr
    exact h.update (fun g d d' hd => ComponentCall.perform_keeps h.hierarchy.keyed hstored hd) hupdate
  | addEventListener el =>
    obtain ⟨g, hg, hnext⟩ := Cpp.bind_eq_ok.mp hnext
    obtain ⟨events, hadd, hr⟩ := Cpp.bind_eq_ok.mp hnext
    cases hr
    exact h.addEventListener (ObjectStorrage.deref_eq_ok.mp hg) hadd
  | removeEventListener el =>
    obtain ⟨events, hrem, hr⟩ := Cpp.bind_eq_ok.mp hnext
    cases hr
    exact h.removeEventListener hrem

theorem Sound.run {w : World} {cs : List Call} {s : Singletons} (h : Run calls { scene := ⟨{}, w⟩ } cs s) :
    Sound s.scene.storrageInstance s.events :=
  h.invariant (fun _ s => Sound s.scene.storrageInstance s.events) .empty fun _ _ _ _ hs hstep => hs.step hstep

/-! ## The pairs lead to the pointers -/

/-- Every pointer of a button, of a renderer of instances and of the event system is where the pair beside it leads. -/
structure InStep (s : Singletons) : Prop where
  components : ∀ k g, s.scene.storrageInstance.getById k = some g → ∀ c ∈ g.componenten, Agrees s.scene.storrageInstance c.data
  listener : List.Forall₂ (s.scene.storrageInstance.Names Class.eventListener) s.events.listener s.events.listenerIDs

theorem Sound.inStep {s : Singletons} (h : Sound s.scene.storrageInstance s.events) : InStep s where
  components := fun k g hg c hc => (h.linked k g hg c hc).agrees
  listener := h.listener

/-! ## Saving and loading -/

/-- The scene is serialized, what was pushed is set into an empty storage, and that is told where everything is. Heap and disk
may be in any state at the load. -/
def Scene.restore (s : Scene) (later : World) : Comp (ObjectStorrage Data) := do
  let ((), image, _) ← s.storrageInstance.serialize ([], s.world)
  let ((_, st), _, _) ← ObjectStorrage.load {} (image, later)
  st.afterSet

/-- The same in the singleton, which is cleared in between. -/
def Scene.reload (deletes : Class → Bool) (s : Scene) (later : World) : Comp (ObjectStorrage Data) := do
  let ((), image, _) ← s.storrageInstance.serialize ([], s.world)
  let st ← s.storrageInstance.clear deletes
  let ((_, st), _, _) ← st.load (image, later)
  st.afterSet

/-- A reload returns what `restore` does, if the components can be deleted. -/
theorem Scene.reload_eq_ok {deletes : Class → Bool} {s : Scene} {later : World} {st' : ObjectStorrage Data} :
    s.reload deletes later = .ok st' ↔ s.storrageInstance.Deletable deletes ∧ s.restore later = .ok st' := by
  constructor
  · intro h
    obtain ⟨saved, hsave, h⟩ := Cpp.bind_eq_ok.mp h
    obtain ⟨cleared, hclear, h⟩ := Cpp.bind_eq_ok.mp h
    obtain ⟨hdelete, rfl⟩ := ObjectStorrage.clear_eq_ok.mp hclear
    exact ⟨hdelete, Cpp.bind_eq_ok.mpr ⟨saved, hsave, h⟩⟩
  · rintro ⟨hdelete, h⟩
    obtain ⟨saved, hsave, h⟩ := Cpp.bind_eq_ok.mp h
    have hclear := ObjectStorrage.clear_eq_ok.mpr ⟨hdelete, rfl⟩
    exact Cpp.bind_eq_ok.mpr ⟨saved, hsave, Cpp.bind_eq_ok.mpr ⟨_, hclear, h⟩⟩

/-- The links of every component that keeps places came back: the same pairs, beside them pointers they lead to, and the
pointers are to the components that came back for those they were to. -/
def Relinked (st st' : ObjectStorrage Data) : Prop :=
  ∀ k g, st.getById k = some g → ∀ (i : Nat) c, g.componenten[i]? = some c → ∀ T pointers ids,
    c.data.links = some (T, pointers, ids) → ∃ g' c' pointers', st'.getById k = some g' ∧ g'.componenten[i]? = some c' ∧
      c'.data.links = some (T, pointers', ids) ∧ List.Forall₂ (st'.Names (Class.engine T)) pointers' ids ∧
        List.Forall₂ (Corresponds st st') pointers pointers'

/-- The scene comes back with its links, whatever heap and disk hold then. -/
def ComesBack (deletes : Class → Bool) (s : Scene) : Prop :=
  ∀ later, ∃ st', s.reload deletes later = .ok st' ∧ Relinked s.storrageInstance st'

/-- The bytes of the scene. -/
def Scene.image (s : Scene) : List UInt8 := encodeStorrage Data.encode (s.storrageInstance.mapData Data.asSaved)

/-- What a scene has that can be saved and loaded again: its ids are the numbers below its size, its components are linked,
its renderers have a stored camera, and its bytes are fewer than a body may have. -/
structure Reloadable (st : ObjectStorrage Data) : Prop where
  keyed : st.Keyed
  below : ∀ k g, st.getById k = some g → 0 ≤ k.toInt ∧ k.toInt < st.objects.size
  dense : ∀ i < st.objects.size, ∃ g, st.getById (Int32.ofNat i) = some g
  linked : ∀ k g, st.getById k = some g → ∀ c ∈ g.componenten, Linked st g c.data
  filmed : st.All (Filmed st)
  size : (encodeStorrage Data.encode (st.mapData Data.asSaved)).length < 2 ^ 31

section

variable {st st₁ st' : ObjectStorrage Data} {events : Events.EventSystem}

/-- A storage whose bytes a body can hold has an `int` number of objects. -/
theorem objects_lt (hsize : (encodeStorrage Data.encode (st.mapData Data.asSaved)).length < 2 ^ 31) :
    st.objects.size < 2 ^ 31 := by
  have hle := ObjectStorrage.length_toList_le Data.encode (st.mapData Data.asSaved)
  rw [encodeStorrage, List.length_append, List.length_append] at hsize
  have hmap : (st.mapData Data.asSaved).objects.toList.length = st.objects.size := by
    rw [Std.ExtTreeMap.length_toList, ObjectStorrage.mapData, Std.ExtTreeMap.size_map]
  omega

theorem Fits.components_lt (h : Fits st) {k : Int32} {g : GameObject Data} (hg : st.getById k = some g) :
    g.componenten.length < 2 ^ 31 := by
  have hk : (st.mapData Data.asSaved).getById k = some (g.mapData Data.asSaved) := by
    rw [ObjectStorrage.getById_mapData, hg, Option.map_some]
  have hle := ObjectStorrage.length_componenten_le Data.encode hk
  rw [GameObject.mapData, List.length_map] at hle
  exact lt_of_le_of_lt hle h.size

theorem Linked.covered {g : GameObject Data} {d : Data} (h : Linked st g d) : d.Covered := by
  have hres := h.resolvable
  cases d with
  | engine d =>
    cases d with
    | drawableRenderer d => exact hres.1
    | _ => trivial
  | _ => trivial

theorem Reloadable.fits (h : Reloadable st) : Fits st := by
  refine ⟨fun k g hg c hc => (h.linked k g hg c hc).covered, fun k g hg => ?_, h.size⟩
  have := objects_lt h.size
  have := h.below k g hg
  omega

theorem Sound.fits (h : Sound st events)
    (hsize : (encodeStorrage Data.encode (st.mapData Data.asSaved)).length < 2 ^ 31) : Fits st :=
  ⟨fun k g hg c hc => (h.linked k g hg c hc).covered,
    ObjectStorrage.countable_of_dense h.hierarchy.counter h.hierarchy.ids h.dense (objects_lt hsize), hsize⟩

/-- A state of a run whose renderers are filmed and whose bytes a body can hold. -/
theorem Sound.reloadable (h : Sound st events) (hfilmed : st.All (Filmed st))
    (hsize : (encodeStorrage Data.encode (st.mapData Data.asSaved)).length < 2 ^ 31) : Reloadable st := by
  have hobjects := objects_lt hsize
  have hcounter := ObjectStorrage.counter_eq_size h.hierarchy.counter h.hierarchy.ids h.dense hobjects
  refine ⟨h.hierarchy.keyed, fun k g hg => ?_, fun i hi => ?_, h.linked, hfilmed, hsize⟩
  · have := h.hierarchy.ids k g hg
    omega
  · have htoInt : (Int32.ofNat i).toInt = i := Int32.toInt_ofNat_of_lt (by omega)
    exact h.dense (Int32.ofNat i) (by omega) (by omega)

theorem CameBack.stored_iff (hback : CameBack st st₁) (k : Int32) :
    (∃ g₁, st₁.getById k = some g₁) ↔ ∃ g, st.getById k = some g :=
  ⟨fun ⟨g₁, hg₁⟩ => hback.ids k g₁ hg₁, fun ⟨g, hg⟩ => (hback.objects k g hg).imp fun _ h => h.1⟩

theorem size_eq_of_stored (h : ∀ k, (∃ g', st'.getById k = some g') ↔ ∃ g, st.getById k = some g) :
    st'.objects.size = st.objects.size :=
  Nat.le_antisymm (ObjectStorrage.size_le_of_stored fun k g' hg' => (h k).mp ⟨g', hg'⟩)
    (ObjectStorrage.size_le_of_stored fun k g hg => (h k).mpr ⟨g, hg⟩)

/-- `afterSet` of each component that came back returns. -/
theorem Reloadable.returns (h : Reloadable st) (hback : CameBack st st₁) {k : Int32} {g₁ : GameObject Data}
    (hg₁ : st₁.getById k = some g₁) {c₁ : Component Data} (hc₁ : c₁ ∈ g₁.componenten) :
    ∃ e, c₁.data.afterSet (look st₁) (Data.castTo g₁.componenten) = .ok e := by
  obtain ⟨g, hg⟩ := hback.ids k g₁ hg₁
  obtain ⟨g₂, hg₂, hcomps⟩ := hback.objects k g hg
  cases hg₁.symm.trans hg₂
  obtain ⟨i, hi⟩ := List.mem_iff_getElem?.mp hc₁
  obtain ⟨c, hc, hcame⟩ := Engine.forall₂_getElem? hcomps.flip hi
  have hmem := List.mem_of_getElem? hc
  exact hback.returns hg (h.linked k g hg c hmem) (h.filmed k g hg c hmem) hcame hg₁

/-- `afterSet` of the scene that came back returns. -/
theorem Reloadable.tells (h : Reloadable st) (hback : CameBack st st₁) :
    ∃ st', st₁.afterSet = .ok st' ∧ ∀ k, st'.getById k = (st₁.getById k).map (settle st₁) := by
  have hsize := objects_lt h.size
  have hcount := size_eq_of_stored hback.stored_iff
  refine ObjectStorrage.afterSet_spec looks (by omega) (fun k g₁ hg₁ => ?_) (fun i hi => ?_) (fun k g₁ hg₁ => ?_)
    fun k g₁ hg₁ c₁ hc₁ => h.returns hback hg₁ hc₁
  · obtain ⟨g, hg⟩ := hback.ids k g₁ hg₁
    rw [hcount]
    exact h.below k g hg
  · exact (hback.stored_iff _).mpr (h.dense i (by omega))
  · obtain ⟨g, hg⟩ := hback.ids k g₁ hg₁
    obtain ⟨g₂, hg₂, hcomps⟩ := hback.objects k g hg
    cases hg₁.symm.trans hg₂
    rw [← hcomps.length_eq]
    exact h.fits.components_lt hg

/-- The objects that `afterSet` leaves have their components where the loaded ones have them. -/
theorem sameShape_settled (hget : ∀ k, st'.getById k = (st₁.getById k).map (settle st₁)) : st₁.SameShape st' := by
  intro k
  rw [hget, Option.map_map]
  cases st₁.getById k with
  | none => rfl
  | some g => exact congrArg some (ObjectStorrage.shape_settle looks)

/-- What `afterSet` leaves of a component that came back. -/
theorem Reloadable.settles (h : Reloadable st) (hback : CameBack st st₁)
    (hnone : st₁.AllComponents fun c => c.data.buttons = []) {k : Int32} {g g₁ : GameObject Data} (hg : st.getById k = some g)
    (hg₁ : st₁.getById k = some g₁) {c c₁ : Component Data} (hc : c ∈ g.componenten) (hc₁ : c₁ ∈ g₁.componenten)
    (hcame : Came c.data c₁.data) :
    (settled st₁ g₁ c₁).data.Tagged ∧ (settled st₁ g₁ c₁).data.asSaved.saved = c.data.asSaved.saved ∧
      Agrees st₁ (settled st₁ g₁ c₁).data := by
  obtain ⟨e, he⟩ := h.returns hback hg₁ hc₁
  obtain ⟨htagged, hsaved⟩ := hcame.settles (hnone k g₁ hg₁ c₁ hc₁) he
  have hkept : e.saved = c.data.asSaved.saved := by rw [← Data.asSaved_of_tagged htagged, hsaved]
  rw [ObjectStorrage.settled_of_ok he]
  exact ⟨htagged, hsaved, hback.agrees (h.linked k g hg c hc).agrees hcame he hkept⟩

/-- The components of the scene that came back, each with the one it was loaded for. -/
theorem Reloadable.arrived (h : Reloadable st) (hback : CameBack st st₁)
    (hnone : st₁.AllComponents fun c => c.data.buttons = []) (hget : ∀ k, st'.getById k = (st₁.getById k).map (settle st₁))
    {k : Int32} {g : GameObject Data} (hg : st.getById k = some g) :
    ∃ g₁, st₁.getById k = some g₁ ∧ st'.getById k = some (settle st₁ g₁) ∧
      List.Forall₂ (fun c c' => c ∈ g.componenten ∧ c'.data.Tagged ∧ c'.data.asSaved.saved = c.data.asSaved.saved ∧
        Agrees st₁ c'.data) g.componenten (settle st₁ g₁).componenten := by
  obtain ⟨g₁, hg₁, hcomps⟩ := hback.objects k g hg
  refine ⟨g₁, hg₁, by rw [hget, hg₁, Option.map_some], ?_⟩
  rw [settle, List.forall₂_map_right_iff]
  refine Engine.forall₂_of_getElem? hcomps.length_eq fun i c c₁ hc hc₁ => ?_
  obtain ⟨c₂, hc₂, hcame⟩ := Engine.forall₂_getElem? hcomps hc
  cases hc₁.symm.trans hc₂
  have hmem := List.mem_of_getElem? hc
  exact ⟨hmem, h.settles hback hnone hg hg₁ hmem (List.mem_of_getElem? hc₁) hcame⟩

/-- The scene that came back is saved as the one it was loaded for. -/
theorem Reloadable.savedAlike (h : Reloadable st) {base : ObjectStorrage Data} (hbase : base.objects = ∅)
    (honto : LoadedOnto base st st₁) (hnone : st₁.AllComponents fun c => c.data.buttons = [])
    (hget : ∀ k, st'.getById k = (st₁.getById k).map (settle st₁)) : SavedAlike st st' := by
  have hback := honto.cameBack hbase
  refine ⟨fun k g hg => ?_, fun k g' hg' => ?_⟩
  · obtain ⟨g₁, hg₁, hg', hcomps⟩ := h.arrived hback hnone hget hg
    obtain ⟨g₂, hg₂, hlinks, hname, _⟩ := honto.added k g (by simp [ObjectStorrage.getById, hbase]) hg
    cases hg₁.symm.trans hg₂
    exact ⟨settle st₁ g₁, hg', hlinks, hname, hcomps.imp fun _ _ hc => hc.2.2.1⟩
  · rw [hget] at hg'
    obtain ⟨g₁, hg₁, _⟩ := Option.map_eq_some_iff.mp hg'
    exact hback.ids k g₁ hg₁

theorem SavedAlike.stored_iff (h : SavedAlike st st') (k : Int32) :
    (∃ g', st'.getById k = some g') ↔ ∃ g, st.getById k = some g :=
  ⟨fun ⟨g', hg'⟩ => h.ids k g' hg', fun ⟨g, hg⟩ => (h.objects k g hg).imp fun _ h => h.1⟩

/-- The scene that came back can be saved and loaded again. -/
theorem Reloadable.again (h : Reloadable st) (hsame : SavedAlike st st') (hback : CameBack st st₁)
    (hnone : st₁.AllComponents fun c => c.data.buttons = [])
    (hget : ∀ k, st'.getById k = (st₁.getById k).map (settle st₁)) : Reloadable st' := by
  have hsize := size_eq_of_stored hsame.stored_iff
  -- A component is linked by what it was loaded for, once the object it is in is known on both sides.
  have hcarried : ∀ k g', st'.getById k = some g' → ∀ c' ∈ g'.componenten, Linked st' g' c'.data ∧ Filmed st' c'.data := by
    intro k g' hg' c' hc'
    obtain ⟨g, hg⟩ := hsame.ids k g' hg'
    obtain ⟨g₁, hg₁, hsettled, hcomps⟩ := h.arrived hback hnone hget hg
    cases hg'.symm.trans hsettled
    obtain ⟨i, hi⟩ := List.mem_iff_getElem?.mp hc'
    obtain ⟨c, _, hmem, htagged, hsaved, hagrees⟩ := Engine.forall₂_getElem? hcomps.flip hi
    rw [Data.asSaved_of_tagged htagged] at hsaved
    obtain ⟨hresolvable, hfilmed⟩ := hsame.findsAlike.resolvable hg hg' htagged hsaved (h.linked k g hg c hmem).resolvable
      (h.filmed k g hg c hmem)
    refine ⟨⟨fun T pointers ids hlinks => ?_, hresolvable⟩, hfilmed⟩
    exact (hagrees T pointers ids hlinks).imp fun _ _ ha => ha.mono (.of_sameShape (sameShape_settled hget))
  refine ⟨fun k g' hg' => ?_, fun k g' hg' => ?_, fun i hi => ?_, fun k g' hg' c' hc' => (hcarried k g' hg' c' hc').1,
    fun k g' hg' c' hc' => (hcarried k g' hg' c' hc').2, ?_⟩
  · obtain ⟨g, hg⟩ := hsame.ids k g' hg'
    obtain ⟨g₂, hg₂, hlinks, _⟩ := hsame.objects k g hg
    cases hg'.symm.trans hg₂
    exact (congrArg Prod.fst hlinks).trans (h.keyed k g hg)
  · obtain ⟨g, hg⟩ := hsame.ids k g' hg'
    rw [hsize]
    exact h.below k g hg
  · rw [hsize] at hi
    exact (hsame.stored_iff _).mpr (h.dense i hi)
  · rw [hsame.encode]
    exact h.size

/-- What was saved and loaded is a scene that is saved alike and that can be saved and loaded again. -/
theorem Reloadable.restore {s : Scene} (h : Reloadable s.storrageInstance) (later : World) :
    ∃ st', s.restore later = .ok st' ∧ SavedAlike s.storrageInstance st' ∧ Reloadable st' := by
  obtain ⟨hserialize, hloads⟩ := h.fits.loads_onto h.keyed s.world
  obtain ⟨name, st₁, later', hload, honto⟩ := hloads {} later
  have hback : CameBack s.storrageInstance st₁ := honto.cameBack rfl
  have hnone := buttons_of_load rfl h.size hload
  obtain ⟨st', hafter, hget⟩ := h.tells hback
  have hsame := h.savedAlike rfl honto hnone hget
  exact ⟨st', Cpp.bind_eq_ok.mpr ⟨_, hserialize, Cpp.bind_eq_ok.mpr ⟨_, hload, hafter⟩⟩, hsame, h.again hsame hback hnone hget⟩

/-- Components that are saved alike have the same pairs, which lead to the same places. -/
theorem SavedAlike.relinked (hsame : SavedAlike st st') (h : Reloadable st) (h' : Reloadable st') : Relinked st st' := by
  intro k g hg i c hc T pointers ids hlinks
  obtain ⟨g', hg', _, _, hcomps⟩ := hsame.objects k g hg
  obtain ⟨c', hc', hsaved⟩ := Engine.forall₂_getElem? hcomps hc
  have hplaces : c'.data.places = some (T, ids) := by
    rw [← Data.places_asSaved, ← Data.places_saved, hsaved, Data.places_saved, Data.places_asSaved, Data.places, hlinks,
      Option.map_some]
  obtain ⟨⟨T', pointers', ids'⟩, hlinks', heq⟩ := Option.map_eq_some_iff.mp hplaces
  cases heq
  have hnames := (h.linked k g hg c (List.mem_of_getElem? hc)).agrees _ _ _ hlinks
  have hnames' := (h'.linked k g' hg' c' (List.mem_of_getElem? hc')).agrees _ _ _ hlinks'
  exact ⟨g', c', pointers', hg', hc', hlinks', hnames', hsame.findsAlike.corresponds hnames hnames'⟩

/-- The components of a scene whose bytes a body can hold can be deleted exactly when their classes allow it. -/
theorem Fits.deletable_iff (h : Fits st) {deletes : Class → Bool} :
    st.Deletable deletes ↔ st.All fun d => deletes d.classOf :=
  ⟨fun hdelete k g hg => (hdelete k g hg).2, fun hall k g hg => ⟨h.components_lt hg, hall k g hg⟩⟩

/-- A scene whose renderers have a stored camera and whose bytes a body can hold comes back exactly when its components can be
deleted. -/
theorem Sound.comesBack_iff {s : Scene} (h : Sound s.storrageInstance events) (hsize : s.image.length < 2 ^ 31)
    (hfilmed : s.storrageInstance.All (Filmed s.storrageInstance)) (deletes : Class → Bool) :
    ComesBack deletes s ↔ s.storrageInstance.All fun d => deletes d.classOf := by
  rw [← (h.fits hsize).deletable_iff]
  constructor
  · intro hback
    obtain ⟨st', hreload, _⟩ := hback .blank
    exact (Scene.reload_eq_ok.mp hreload).1
  · intro hdelete later
    have hbefore := h.reloadable hfilmed hsize
    obtain ⟨st', hrestore, hsame, hafter⟩ := hbefore.restore later
    exact ⟨st', Scene.reload_eq_ok.mpr ⟨hdelete, hrestore⟩, hsame.relinked hbefore hafter⟩

end

/-! ## Every run -/

/-- In every state of a run the pairs lead to the pointers; and a scene whose renderers have a stored camera and whose bytes a
body can hold comes back with its links exactly when the deletes of `clear` pass for the classes of all its components. -/
theorem links_stay {w : World} {cs : List Call} {s : Singletons} (h : Run calls { scene := ⟨{}, w⟩ } cs s) :
    InStep s ∧ (s.scene.image.length < 2 ^ 31 → s.scene.storrageInstance.All (Filmed s.scene.storrageInstance) →
      ∀ deletes, ComesBack deletes s.scene ↔ s.scene.storrageInstance.All fun d => deletes d.classOf) :=
  ⟨(Sound.run h).inStep, (Sound.run h).comesBack_iff⟩

section

instance (st : ObjectStorrage Data) (k : Int32) : Decidable (∃ me, st.getById k = some me) :=
  decidable_of_iff ((st.getById k).isSome) Option.isSome_iff_exists

instance (st : ObjectStorrage Data) (T : Class) (p : Pointer) : Decidable (st.Holds T p) :=
  decidable_of_iff (∃ g ∈ st.getById p.gameobject, p.addr ∈ g.findComponents T) (by simp [Holds])

instance (st : ObjectStorrage Data) (call : ComponentCall) :
    Decidable (∀ T p, call.argument = some (T, p) → st.Holds T p) :=
  decidable_of_iff (∀ a ∈ call.argument, st.Holds a.1 a.2) (by simp)

instance (s : Singletons) (c : Call) : Decidable (calls.enabled s c) :=
  match c with
  | .createGameObject | .removeEventListener _ => inferInstanceAs (Decidable True)
  | .setName this _ | .setActiv this _ | .addComponent this _ =>
    inferInstanceAs (Decidable (∃ me, s.scene.storrageInstance.getById this = some me))
  | .setParrent this parrent =>
    inferInstanceAs (Decidable ((∃ me, s.scene.storrageInstance.getById this = some me) ∧
      ∃ there, s.scene.storrageInstance.getById parrent = some there))
  | .setParrentID this parrentID =>
    inferInstanceAs (Decidable ((∃ me, s.scene.storrageInstance.getById this = some me) ∧
      (parrentID = EMPTY_ID ∨ ∃ there, s.scene.storrageInstance.getById parrentID = some there)))
  | .onComponent _ call =>
    inferInstanceAs (Decidable (∀ T p, call.argument = some (T, p) → s.scene.storrageInstance.Holds T p))
  | .addEventListener el => inferInstanceAs (Decidable (s.scene.storrageInstance.Holds Class.eventListener el))

/-- An object with a button and an `objectKlicker`, which the button is told of. -/
def buttonCalls : List Call :=
  [.createGameObject, .addComponent 0 (.engine .transform), .addComponent 0 (.engine .instancedTeilSpriteInstance),
    .addComponent 0 (.engine .button), .addComponent 0 .objectKlicker, .onComponent ⟨0, 3⟩ (.addActor ⟨0, 4⟩)]

/-- What the calls leave: one object without a renderer, whose button points to the only actor of its object. -/
theorem exec_buttonCalls :
    ∃ s g c, exec calls { scene := ⟨{}, .blank⟩ } buttonCalls = some s ∧ s.scene.image.length < 2 ^ 31 ∧
      s.scene.storrageInstance.objects.toList = [(0, g)] ∧ (∀ o ∈ g.componenten, o.data.classOf ≠ .engine .drawableRenderer) ∧
      g.componenten[2]? = some c ∧ c.data.links = some (.buttonActor, [4], [(0, 0)]) := by
  have hrun : ∃ s ∈ exec calls { scene := ⟨{}, .blank⟩ } buttonCalls,
      s.scene.image.length < 2 ^ 31 ∧ s.scene.storrageInstance.objects.toList.map Prod.fst = [0] ∧
        (s.scene.storrageInstance.getById 0).any (fun g =>
          g.componenten.all (fun o => o.data.classOf ≠ .engine .drawableRenderer) &&
            g.componenten[2]?.any fun c => c.data.links == some (.buttonActor, [4], [(0, 0)])) = true := by decide +kernel
  obtain ⟨s, hs, himage, hkeys, hobject⟩ := hrun
  obtain ⟨g, hg, hobject⟩ := (Option.any_eq_true ..).mp hobject
  obtain ⟨hclasses, hlinks⟩ := (Bool.and_eq_true ..).mp hobject
  obtain ⟨c, hc, hlinks⟩ := (Option.any_eq_true ..).mp hlinks
  obtain ⟨⟨k, g'⟩, hsingle, hk⟩ := List.map_eq_singleton_iff.mp hkeys
  cases hk
  have hg' := ObjectStorrage.mem_toList.mpr hg
  rw [hsingle, List.mem_singleton] at hg'
  cases hg'
  exact ⟨s, g, c, hs, himage, hsingle, fun o ho => of_decide_eq_true (List.all_eq_true.mp hclasses o ho), hc,
    eq_of_beq hlinks⟩

theorem beginsWithComponent_of_ne {T : Class} (h : T ≠ .engine .drawableRenderer) : T.beginsWithComponent := by
  cases T with
  | engine T => exact bne_iff_ne.mpr fun hT => h (congrArg Class.engine hT)
  | _ => rfl

/-- The run of these calls: the scene comes back where only a `DrawableRenderer` cannot be deleted. -/
theorem links_stay_button :
    ∃ s, Run calls { scene := ⟨{}, .blank⟩ } buttonCalls s ∧ InStep s ∧ ComesBack Class.beginsWithComponent s.scene := by
  obtain ⟨s, g, _, hexec, himage, hobjects, hclasses, _⟩ := exec_buttonCalls
  have hrun := Run.of_exec hexec
  obtain ⟨hstep, hback⟩ := links_stay hrun
  have hone : s.scene.storrageInstance.All fun d => d.classOf ≠ .engine .drawableRenderer := by
    intro k o ho d hd
    rw [← ObjectStorrage.mem_toList, hobjects, List.mem_singleton] at ho
    cases ho
    exact hclasses d hd
  refine ⟨s, hrun, hstep, (hback himage (fun k o ho d hd => ?_) _).mpr fun k o ho d hd => ?_⟩
  · exact filmed_of_class (hone k o ho d hd)
  · exact beginsWithComponent_of_ne (hone k o ho d hd)

/-- An object with a camera and a renderer, which is given the camera. -/
def rendererCalls : List Call :=
  [.createGameObject, .addComponent 0 (.engine .transform), .addComponent 0 (.engine .kamera),
    .addComponent 0 (.engine .drawableRenderer), .onComponent ⟨0, 3⟩ (.setKamera ⟨0, 2⟩)]

/-- The camera of a renderer is that of the first object. -/
def filmedByFirst : Data → Bool
  | .engine (.drawableRenderer c) => c.currentCameraID == 0
  | _ => true

/-- What the calls leave: one object with a camera, whose renderer keeps the id of the object. -/
theorem exec_rendererCalls :
    ∃ s, exec calls { scene := ⟨{}, .blank⟩ } rendererCalls = some s ∧ s.scene.image.length < 2 ^ 31 ∧
      s.scene.storrageInstance.All (Filmed s.scene.storrageInstance) ∧
      s.scene.storrageInstance.clear Class.beginsWithComponent = .error .badDelete := by
  have hrun : ∃ s ∈ exec calls { scene := ⟨{}, .blank⟩ } rendererCalls, s.scene.image.length < 2 ^ 31 ∧
      s.scene.storrageInstance.objects.toList.map Prod.fst = [0] ∧
      (s.scene.storrageInstance.getById 0).any (fun g => g.findComponents (Class.engine .kamera) != [] &&
        g.componenten.all fun o => filmedByFirst o.data) = true ∧
      s.scene.storrageInstance.clear Class.beginsWithComponent = .error .badDelete := by decide +kernel
  obtain ⟨s, hs, himage, hkeys, hobject, hclear⟩ := hrun
  obtain ⟨g, hg, hobject⟩ := (Option.any_eq_true ..).mp hobject
  obtain ⟨hkamera, hrenderer⟩ := (Bool.and_eq_true ..).mp hobject
  refine ⟨s, hs, himage, fun k o ho d hd => ?_, hclear⟩
  have hk : k = 0 := by
    have hmem := List.mem_map_of_mem (f := Prod.fst) (ObjectStorrage.mem_toList.mpr ho)
    rwa [hkeys, List.mem_singleton] at hmem
  subst hk
  cases hg.symm.trans ho
  have hcheck := List.all_eq_true.mp hrenderer d hd
  unfold Filmed
  split
  · rename_i c hdata
    rw [hdata] at hcheck
    exact ⟨g, by rw [eq_of_beq hcheck]; exact hg, bne_iff_ne.mp hkamera⟩
  · trivial

/-- A scene with a renderer that has a stored camera does not come back where a `DrawableRenderer` cannot be deleted through a
`Component*`. -/
theorem renderer_not_deleted :
    ∃ s, Run calls { scene := ⟨{}, .blank⟩ } rendererCalls s ∧ s.scene.storrageInstance.All (Filmed s.scene.storrageInstance) ∧
      (∀ later, s.scene.reload Class.beginsWithComponent later = .error .badDelete) ∧
      ¬ComesBack Class.beginsWithComponent s.scene := by
  obtain ⟨s, hexec, himage, hfilmed, hclear⟩ := exec_rendererCalls
  have hrun := Run.of_exec hexec
  have hsave := ((Sound.run hrun).fits himage).loads_onto (Sound.run hrun).hierarchy.keyed s.scene.world
  have hreload : ∀ later, s.scene.reload Class.beginsWithComponent later = .error .badDelete := fun later =>
    Cpp.bind_eq_error.mpr (.inr ⟨_, hsave.1, Cpp.bind_eq_error.mpr (.inl hclear)⟩)
  refine ⟨s, hrun, hfilmed, hreload, fun hback => ?_⟩
  obtain ⟨st', hst', _⟩ := hback .blank
  rw [hreload] at hst'
  cases hst'

/-- The object with the button is given a name of `2^31` characters: the scene is not saved, whatever follows and whatever can
be deleted. -/
theorem long_name_lost :
    ∃ s g c, Run calls { scene := ⟨{}, .blank⟩ } (buttonCalls ++ [.setName 0 (List.replicate (2 ^ 31) 65)]) s ∧
      s.scene.storrageInstance.getById 0 = some g ∧ g.componenten[2]? = some c ∧
      c.data.links = some (.buttonActor, [4], [(0, 0)]) ∧ s.scene.storrageInstance.All (Filmed s.scene.storrageInstance) ∧
      (∀ later st', s.scene.restore later ≠ .ok st') ∧ ∀ deletes, ¬ComesBack deletes s.scene := by
  obtain ⟨s, g, c, hexec, _, hobjects, hclasses, hc, hlinks⟩ := exec_buttonCalls
  generalize hname : List.replicate (2 ^ 31) (65 : UInt8) = name
  have hlen : name.length = 2 ^ 31 := hname ▸ List.length_replicate
  have hstored : ∀ k o, s.scene.storrageInstance.getById k = some o ↔ k = 0 ∧ o = g := by
    intro k o
    rw [← ObjectStorrage.mem_toList, hobjects, List.mem_singleton, Prod.mk.injEq]
  have hg := (hstored 0 g).mpr ⟨rfl, rfl⟩
  have hget := fun j => ObjectStorrage.getById_store (j := j) (g := { g with name }) hg
  have hwrite : s.perform (.setName 0 name) =
      .ok { s with scene := { s.scene with storrageInstance := s.scene.storrageInstance.store 0 { g with name } } } := by
    rw [Singletons.perform, ObjectStorrage.onGameObject, ObjectStorrage.deref_eq_ok.mpr hg]
    rfl
  have hnever : ∀ later st', Scene.restore
      { s.scene with storrageInstance := s.scene.storrageInstance.store 0 { g with name } } later ≠ .ok st' := by
    intro later st' hrestore
    obtain ⟨_, hserialize, _⟩ := Cpp.bind_eq_ok.mp hrestore
    have := ObjectStorrage.serialize_name_lt hserialize (k := 0) (g := { g with name }) (by rw [hget, if_pos rfl])
      (by simp only [hlen]; norm_num)
    simp only [hlen] at this
    omega
  refine ⟨_, { g with name }, c, (Run.of_exec hexec).snoc ⟨⟨g, hg⟩, hwrite⟩, by rw [hget, if_pos rfl], hc, hlinks,
    fun k o ho d hd => ?_, hnever, fun deletes hback => ?_⟩
  · rw [hget] at ho
    split at ho
    · cases ho
      exact filmed_of_class (hclasses d hd)
    · rename_i hne
      exact absurd ((hstored k o).mp ho).1.symm hne
  · obtain ⟨st', hst', _⟩ := hback .blank
    exact hnever _ _ (Scene.reload_eq_ok.mp hst').2

end

end SceenViewer
