import BackupEngine.Lemmas.Reload

/-!
# Reloaded scenes

Whether the components of a scene can be used after it was saved, cleared and loaded. `serialize` saves neither `isActiv` nor
the pointers that `setRequirements` gave a component, and `createInstance` makes a component without calling
`setRequirements`; of the classes that were given a pointer only `StringRenderer::Instance` fetches it again in `afterSet`.
-/

namespace Engine

open Cpp Serializer

/-- The scenes built in the singleton with `createGameObject` and `addComponent`, with the heap and disk they leave. -/
inductive Built : ObjectStorrage Data → World → Prop where
  | empty (w : World) : Built {} w
  | createGameObject {st st' : ObjectStorrage Data} {w w' : World} {ID : Int32} :
    Built st w → st.createGameObject w = .ok ((ID, st'), w') → Built st' w'
  | addComponent {st st' : ObjectStorrage Data} {w w' : World} {this : Int32} {T : Class} :
    Built st w → st.addComponent this T w = .ok (st', w') → Built st' w'

/-- The singleton is saved, cleared and loaded, and its components are told: `deletes` is what the platform lets `clear`
delete, `w` the world of the save and `w'` the one of the load. -/
def reload (deletes : Class → Bool) (st : ObjectStorrage Data) (w w' : World) : Comp (ObjectStorrage Data) := do
  let (_, image, _) ← st.serialize ([], w)
  let st ← st.clear deletes
  let ((_, st), _, _) ← st.load (image, w')
  st.afterSet

theorem reload_eq_ok {deletes : Class → Bool} {st st' : ObjectStorrage Data} {w w' : World}
    (h : reload deletes st w w' = .ok st') :
    ∃ image w₁ name st₁ rest w₂, st.serialize ([], w) = .ok ((), image, w₁) ∧
      ObjectStorrage.load {} (image, w') = .ok ((name, st₁), rest, w₂) ∧ st₁.afterSet = .ok st' := by
  obtain ⟨⟨_, image, w₁⟩, hsave, h⟩ := Cpp.bind_eq_ok.mp h
  obtain ⟨cleared, hclear, h⟩ := Cpp.bind_eq_ok.mp h
  obtain rfl := (ObjectStorrage.clear_eq_ok.mp hclear).2
  obtain ⟨⟨⟨name, st₁⟩, rest, w₂⟩, hload, h⟩ := Cpp.bind_eq_ok.mp h
  exact ⟨image, w₁, name, st₁, rest, w₂, hsave, hload, h⟩

/-- The pointer that `setRequirements` gave a component. -/
def Data.required : Data → Option Addr
  | .kamera c => c.transform
  | .button c => c.transform
  | .sprite c => c.transform
  | .teilSprite c => c.transform
  | .instancedTeilSpriteInstance c => c.transform
  | .stringRendererInstance c => c.transform
  | _ => none

/-- The objects of `st'` have the components of those of `st`, with the same `isActiv`, and a component that pointed to
another one of its object points to what has become of it. -/
def Alike (st st' : ObjectStorrage Data) : Prop :=
  ∀ k g, st.getById k = some g → ∃ g', st'.getById k = some g' ∧ g'.componenten.length = g.componenten.length ∧
    ∀ (i : Nat) (c c' : Component Data), g.componenten[i]? = some c → g'.componenten[i]? = some c' →
      c'.isActiv = c.isActiv ∧ ∀ (j : Nat) (d d' : Component Data), g.componenten[j]? = some d →
        g'.componenten[j]? = some d' → c.data.required = some d.addr → c'.data.required = some d'.addr

/-- Whatever heap and disk hold when the scene is loaded, it is loaded and its components are like those saved. -/
def Usable (deletes : Class → Bool) (st : ObjectStorrage Data) (w : World) : Prop :=
  ∀ w', ∃ st', reload deletes st w w' = .ok st' ∧ Alike st st'

/-! ## Scenes as they are built -/

/-- The ids up to the counter are stored, and no object has a name, a child or a parent. -/
structure Fresh (st : ObjectStorrage Data) : Prop extends st.Hierarchy where
  dense : ∀ k : Int32, 0 ≤ k.toInt → k.toInt < st.counter → ∃ g, st.getById k = some g
  plain : ∀ k g, st.getById k = some g → g.name = [] ∧ g.childrenIds = []

namespace Fresh

variable {st st' : ObjectStorrage Data} {w w' : World}

theorem createGameObject (h : Fresh st) {ID : Int32} (hcreate : st.createGameObject w = .ok ((ID, st'), w')) :
    Fresh st' := by
  obtain ⟨hID, _, hcounter, b, hget⟩ := ObjectStorrage.createGameObject_spec h.toHierarchy hcreate
  refine ⟨h.toHierarchy.createGameObject hcreate, fun k h0 hk => ?_, fun k g hk => ?_⟩
  · rw [hget]
    by_cases hkID : ID = k
    · exact ⟨_, if_pos hkID⟩
    · have hne : k.toInt ≠ ID.toInt := fun heq => hkID (Int32.toInt_inj.mp heq).symm
      rw [if_neg hkID]
      exact h.dense k h0 (by omega)
  · rw [hget] at hk
    split at hk
    · cases hk
      exact ⟨rfl, rfl⟩
    · exact h.plain k g hk

theorem addComponent (h : Fresh st) {this : Int32} {T : Class} (hadd : st.addComponent this T w = .ok (st', w')) :
    Fresh st' := by
  obtain ⟨me, hme, hadd⟩ := Cpp.bind_eq_ok.mp hadd
  obtain ⟨⟨me', w₁⟩, hcomp, hadd⟩ := Cpp.bind_eq_ok.mp hadd
  cases hadd
  obtain ⟨cs, hme'⟩ : ∃ cs, me' = { me with componenten := cs } := by
    unfold GameObject.addComponent at hcomp
    split at hcomp
    · cases hcomp
    · obtain ⟨_, _, hcomp⟩ := Cpp.bind_eq_ok.mp hcomp
      obtain ⟨_, _, hcomp⟩ := Cpp.bind_eq_ok.mp hcomp
      obtain ⟨_, _, hcomp⟩ := Cpp.bind_eq_ok.mp hcomp
      cases hcomp
      exact ⟨_, rfl⟩
  subst hme'
  have hget := ObjectStorrage.deref_eq_ok.mp hme
  have hmap : ∀ {β : Type} (f : GameObject Data → β), f { me with componenten := cs } = f me →
      ∀ k, ((st.store this { me with componenten := cs }).getById k).map f = (st.getById k).map f := by
    intro β f hf k
    rw [ObjectStorrage.getById_store hget]
    split
    · rename_i hk
      rw [← hk, hget, Option.map_some, Option.map_some, hf]
    · rfl
  have hback : ∀ k g, (st.store this { me with componenten := cs }).getById k = some g → ∃ o, st.getById k = some o ∧
      o.name = g.name ∧ o.childrenIds = g.childrenIds := by
    intro k g hk
    have := hmap (fun o => (o.name, o.childrenIds)) rfl k
    rw [hk, Option.map_some] at this
    obtain ⟨o, ho, heq⟩ := Option.map_eq_some_iff.mp this.symm
    exact ⟨o, ho, (Prod.mk.inj heq).1, (Prod.mk.inj heq).2⟩
  refine ⟨h.toHierarchy.of_links (hmap GameObject.links rfl) h.counter fun k g hk => ?_, fun k h0 hk => ?_, fun k g hk => ?_⟩
  · obtain ⟨o, ho, _⟩ := hback k g hk
    exact (h.ids k o ho).2
  · obtain ⟨g, hg⟩ := h.dense k h0 hk
    have := hmap (fun _ => ()) rfl k
    rw [hg, Option.map_some] at this
    obtain ⟨g', hg', _⟩ := Option.map_eq_some_iff.mp this
    exact ⟨g', hg'⟩
  · obtain ⟨o, ho, hname, hchilds⟩ := hback k g hk
    rw [← hname, ← hchilds]
    exact h.plain k o ho

end Fresh

theorem Built.fresh {st : ObjectStorrage Data} {w : World} (h : Built st w) : Fresh st := by
  induction h with
  | empty w =>
    refine ⟨.empty 0 (Int.le_refl 0), fun k h0 hk => ?_, fun k g hk => ?_⟩
    · exact absurd hk (Int.not_lt.mpr h0)
    · simp [ObjectStorrage.getById] at hk
  | createGameObject _ hcreate ih => exact ih.createGameObject hcreate
  | addComponent _ hadd ih => exact ih.addComponent hadd

/-! ## When a scene can be used -/

/-- A heap whose storage holds `b` where a flag is. -/
def World.flagged (b : Bool) : World :=
  { World.blank with memory := fun _ => { flag := fun _ => b, word := fun _ => 0, pointer := fun _ => none } }

/-- A component of a scene that can be used would have to be active and inactive: `isActiv` is what the storage held. -/
theorem Usable.no_components {deletes : Class → Bool} {st : ObjectStorrage Data} {w : World} (h : Fresh st)
    (hu : Usable deletes st w) :
    ∀ k g, st.getById k = some g → g.componenten = [] := by
  intro k g hg
  refine List.eq_nil_iff_forall_not_mem.mpr fun c hc => ?_
  obtain ⟨i, hi⟩ := List.mem_iff_getElem?.mp hc
  obtain ⟨st', hreload, halike⟩ := hu (World.flagged !c.isActiv)
  obtain ⟨image, w₁, name, st₁, rest, w₂, hsave, hload, hset⟩ := reload_eq_ok hreload
  obtain ⟨hlt, _⟩ := ObjectStorrage.size_of_load pops h.size_le rfl hsave hload
  have hflag : st'.AllComponents fun d => d.isActiv = !c.isActiv :=
    (ObjectStorrage.load_isActiv pops rfl hlt hload).afterSet (fun _ _ hd => hd) hset
  obtain ⟨g', hg', hlen, hcomps⟩ := halike k g hg
  obtain ⟨c', hc'⟩ : ∃ c', g'.componenten[i]? = some c' := by
    refine ⟨_, List.getElem?_eq_getElem ?_⟩
    rw [hlen]
    exact (List.getElem?_eq_some_iff.mp hi).1
  have hsame := (hcomps i c c' hi hc').1
  rw [hflag k g' hg' c' (List.mem_of_getElem? hc')] at hsame
  exact Bool.not_ne_self c.isActiv hsame

/-- A reload that returns has saved less than `2^31` bytes. -/
theorem Usable.size {deletes : Class → Bool} {st : ObjectStorrage Data} {w : World} (h : Fresh st)
    (hu : Usable deletes st w) (hbare : st.Bare) :
    40 * st.objects.size + 32 < 2 ^ 31 := by
  obtain ⟨st', hreload, _⟩ := hu w
  obtain ⟨image, w₁, name, st₁, rest, w₂, hsave, hload, _⟩ := reload_eq_ok hreload
  obtain ⟨hlt, _⟩ := ObjectStorrage.size_of_load pops h.size_le rfl hsave hload
  have hchilds : ∀ k g, st.getById k = some g → g.childrenIds = [] := fun k g hg => (h.plain k g hg).2
  have himage : image = st.bareBytes := by
    refine ObjectStorrage.serialize_bare hbare (fun k g hg => ?_) hsave
    rw [hchilds k g hg]
    exact Nat.zero_le _
  rwa [himage, ObjectStorrage.length_bareBytes hbare hchilds] at hlt

/-- Objects without components come back. -/
theorem usable_of_bare {deletes : Class → Bool} {st : ObjectStorrage Data} {w : World} (h : Fresh st) (hbare : st.Bare)
    (hsize : 40 * st.objects.size + 32 < 2 ^ 31) : Usable deletes st w := by
  intro w'
  have hlen : ([] ++ st.bareBytes).length < 2 ^ 31 := by
    rw [List.nil_append, ObjectStorrage.length_bareBytes hbare fun k g hg => (h.plain k g hg).2]
    exact hsize
  have hsave := ObjectStorrage.serialize_writes saves_nothing (hbare.all _) [] w hlen
  have hcount : st.Countable := ObjectStorrage.countable_of_dense h.counter h.ids h.dense (by omega)
  obtain ⟨⟨name, st₁⟩, w₂, hload, _, hsaved, _⟩ :=
    ObjectStorrage.load_reads saves_nothing (hbare.all _) h.keyed hcount 0 [] w' hlen
  simp only at hsaved
  have hstored : ∀ {k g}, st.getById k = some g → ∃ g', st₁.getById k = some g' := by
    intro k g hg
    have := congrFun hsaved k
    rw [ObjectStorrage.saved, ObjectStorrage.saved, hg, Option.map_some] at this
    obtain ⟨g', hg', _⟩ := Option.map_eq_some_iff.mp this
    exact ⟨g', hg'⟩
  have hback : ∀ k g', st₁.getById k = some g' → ∃ g, st.getById k = some g := by
    intro k g' hg'
    have := congrFun hsaved k
    rw [ObjectStorrage.saved, ObjectStorrage.saved, hg', Option.map_some] at this
    obtain ⟨g, hg, _⟩ := Option.map_eq_some_iff.mp this.symm
    exact ⟨g, hg⟩
  have hbare₁ : st₁.Bare := hbare.of_saved hsaved
  have hle := ObjectStorrage.size_le_of_stored hback
  have hcounter : st.objects.size ≤ st.counter.toNat := by
    refine ObjectStorrage.size_le_of_ids fun k g hg => ?_
    have := h.ids k g hg
    omega
  have hset : st₁.afterSet = .ok st₁ := by
    refine ObjectStorrage.afterSet_of_plain (fun k g hg => (hbare₁ k g hg).2) (by omega) fun i hi => ?_
    have hint : (Int32.ofNat i).toInt = i := Int32.toInt_ofNat_of_lt (by omega)
    obtain ⟨g, hg⟩ := h.dense (Int32.ofNat i) (by omega) (by omega)
    exact hstored hg
  refine ⟨st₁, ?_, fun k g hg => ?_⟩
  · have hplain : st.Plain := fun k g hg => (hbare k g hg).2
    exact Cpp.bind_eq_ok.mpr ⟨_, hsave, Cpp.bind_eq_ok.mpr ⟨_, hplain.clear deletes, Cpp.bind_eq_ok.mpr ⟨_, hload, hset⟩⟩⟩
  · obtain ⟨g', hg'⟩ := hstored hg
    refine ⟨g', hg', ?_, fun i c c' hc => ?_⟩
    · rw [(hbare k g hg).2, (hbare₁ k g' hg').2]
    · rw [(hbare k g hg).2] at hc
      cases hc

/-- A scene can be used after a reload, whatever heap and disk hold then and whatever the platform makes of the deletes of
`clear`, exactly when it has no component and its objects fit into `2^31` bytes. -/
theorem usable_iff (deletes : Class → Bool) {st : ObjectStorrage Data} {w : World} (h : Built st w) :
    Usable deletes st w ↔
      (∀ k g, st.getById k = some g → g.componenten = []) ∧ 40 * st.objects.size + 32 < 2 ^ 31 := by
  have hfresh := h.fresh
  constructor
  · intro hu
    have hnone := hu.no_components hfresh
    exact ⟨hnone, hu.size hfresh fun k g hg => ⟨(hfresh.plain k g hg).1, hnone k g hg⟩⟩
  · rintro ⟨hnone, hsize⟩
    exact usable_of_bare hfresh (fun k g hg => ⟨(hfresh.plain k g hg).1, hnone k g hg⟩) hsize

/-- Two objects without components. -/
theorem usable_iff_two :
    ∃ st w, Built st w ∧ (st.getById 1).isSome ∧
      (Usable (fun _ => false) st w ↔
        (∀ k g, st.getById k = some g → g.componenten = []) ∧ 40 * st.objects.size + 32 < 2 ^ 31) := by
  have h₁ := Built.createGameObject (.empty .blank) rfl
  have h₂ := Built.createGameObject h₁ rfl
  exact ⟨_, _, h₂, rfl, usable_iff _ h₂⟩

/-- One object with a transform and a button, in a heap whose flags hold `true`. -/
def buttonScene : Comp (ObjectStorrage Data × World) := do
  let ((this, st), w) ← ObjectStorrage.createGameObject {} (World.flagged true)
  let (st, w) ← st.addComponent this Class.transform w
  st.addComponent this Class.button w

/-- What is compared of a component. -/
structure Shown where
  addr : Addr
  isActiv : Bool
  required : Option Addr
  deriving DecidableEq

/-- The components of an object. -/
def view (st : ObjectStorrage Data) (ID : Int32) : Option (List Shown) :=
  (st.getById ID).map fun g => g.componenten.map fun c => ⟨c.addr, c.isActiv, c.data.required⟩

/-- The reloaded button is not active, and its transform is no pointer to the transform of its object, also where the deletes
of `clear` pass. -/
theorem reloaded_button :
    ∃ st w st', buttonScene = .ok (st, w) ∧ Built st w ∧ reload Class.beginsWithComponent st w World.blank = .ok st' ∧
      view st 0 = some [⟨1, true, none⟩, ⟨2, true, some 1⟩] ∧ view st' 0 = some [⟨1, false, none⟩, ⟨2, false, none⟩] ∧
      ¬ Alike st st' := by
  have hrun : (do
      let (st, w) ← buttonScene
      let st' ← reload Class.beginsWithComponent st w World.blank
      return (view st 0, view st' 0)) =
      .ok (some [⟨1, true, none⟩, ⟨2, true, some 1⟩], some [⟨1, false, none⟩, ⟨2, false, none⟩]) := by decide +kernel
  obtain ⟨⟨st, w⟩, hscene, hrun⟩ := Cpp.bind_eq_ok.mp hrun
  obtain ⟨st', hreload, hrun⟩ := Cpp.bind_eq_ok.mp hrun
  obtain ⟨hview, hview'⟩ := Prod.mk.inj (Except.ok.inj hrun)
  have hbuilt : Built st w := by
    obtain ⟨⟨⟨this, st₁⟩, w₁⟩, hcreate, h⟩ := Cpp.bind_eq_ok.mp hscene
    obtain ⟨⟨st₂, w₂⟩, htransform, hbutton⟩ := Cpp.bind_eq_ok.mp h
    exact (((Built.empty _).createGameObject hcreate).addComponent htransform).addComponent hbutton
  refine ⟨st, w, st', hscene, hbuilt, hreload, hview, hview', fun halike => ?_⟩
  obtain ⟨g, hg, hcomps⟩ := Option.map_eq_some_iff.mp hview
  obtain ⟨g', hg', _, hlike⟩ := halike 0 g hg
  rw [view, hg', Option.map_some, Option.some_inj] at hview'
  obtain ⟨c, _, hcs, hc, _⟩ := List.map_eq_cons_iff.mp hcomps
  obtain ⟨c', _, hcs', hc', _⟩ := List.map_eq_cons_iff.mp hview'
  have hsame := (hlike 0 c c' (by rw [hcs]; rfl) (by rw [hcs']; rfl)).1
  rw [(Shown.mk.inj hc).2.1, (Shown.mk.inj hc').2.1] at hsame
  cases hsame

end Engine
