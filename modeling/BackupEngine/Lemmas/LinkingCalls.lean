import BackupEngine.Lemmas.Linking

/-!
# Calls keep the places

Every call on the singletons leaves the components of an object in front of those it adds and writes none of the pairs but
with the pointers beside them. `Sound` collects what every reached state has; each call keeps it.
-/

namespace SceenViewer

open Cpp Serializer

open Engine.Data (onTransform onButton onDrawableRenderer onInstancedTeilSprite onStringRenderer)

open Serializer.ObjectStorrage (Grows Names Has Holds SameShape SameLinks)

/-! ## Through a pointer of a class -/

/-- A call through a pointer to a component of the engine returned, so that there is one. -/
theorem Data.onEngine_ok {f : Engine.Data → Comp Engine.Data} {d d' : Data} (h : d.onEngine f = .ok d') :
    ∃ e e', d = engine e ∧ f e = .ok e' ∧ d' = engine e' := by
  cases d with
  | engine e =>
    obtain ⟨e', he, h⟩ := Cpp.bind_eq_ok.mp h
    cases h
    exact ⟨e, e', rfl, he, rfl⟩
  | _ => cases h

section

variable {e e' : Engine.Data}

/-- So it is with a pointer to a `Transform`. -/
theorem onTransform_ok {f : Engine.Transform → Comp Engine.Transform} (h : onTransform f e = .ok e') :
    ∃ c c', e = .transform c ∧ f c = .ok c' ∧ e' = .transform c' := by
  cases e with
  | transform c =>
    obtain ⟨c', hc, h⟩ := Cpp.bind_eq_ok.mp h
    cases h
    exact ⟨c, c', rfl, hc, rfl⟩
  | _ => cases h

/-- With one to a `Button`. -/
theorem onButton_ok {f : Engine.Button → Comp Engine.Button} (h : onButton f e = .ok e') :
    ∃ c c', e = .button c ∧ f c = .ok c' ∧ e' = .button c' := by
  cases e with
  | button c =>
    obtain ⟨c', hc, h⟩ := Cpp.bind_eq_ok.mp h
    cases h
    exact ⟨c, c', rfl, hc, rfl⟩
  | _ => cases h

/-- With one to a `DrawableRenderer`. -/
theorem onDrawableRenderer_ok {f : Engine.DrawableRenderer → Comp Engine.DrawableRenderer}
    (h : onDrawableRenderer f e = .ok e') :
    ∃ c c', e = .drawableRenderer c ∧ f c = .ok c' ∧ e' = .drawableRenderer c' := by
  cases e with
  | drawableRenderer c =>
    obtain ⟨c', hc, h⟩ := Cpp.bind_eq_ok.mp h
    cases h
    exact ⟨c, c', rfl, hc, rfl⟩
  | _ => cases h

/-- With one to an `InstancedTeilSprite`. -/
theorem onInstancedTeilSprite_ok {f : Engine.InstancedTeilSprite → Comp Engine.InstancedTeilSprite}
    (h : onInstancedTeilSprite f e = .ok e') :
    ∃ c c', e = .instancedTeilSprite c ∧ f c = .ok c' ∧ e' = .instancedTeilSprite c' := by
  cases e with
  | instancedTeilSprite c =>
    obtain ⟨c', hc, h⟩ := Cpp.bind_eq_ok.mp h
    cases h
    exact ⟨c, c', rfl, hc, rfl⟩
  | _ => cases h

/-- With one to a `StringRenderer`. -/
theorem onStringRenderer_ok {f : Engine.StringRenderer → Comp Engine.StringRenderer} (h : onStringRenderer f e = .ok e') :
    ∃ c c', e = .stringRenderer c ∧ f c = .ok c' ∧ e' = .stringRenderer c' := by
  cases e with
  | stringRenderer c =>
    obtain ⟨c', hc, h⟩ := Cpp.bind_eq_ok.mp h
    cases h
    exact ⟨c, c', rfl, hc, rfl⟩
  | _ => cases h

end

/-! ## What a call does to a component -/

section

variable {st : ObjectStorrage Data} {g : GameObject Data} {d d' : Data}

/-- The call leaves a component of its class, and a linked one linked. -/
def Keeps (st : ObjectStorrage Data) (g : GameObject Data) (d d' : Data) : Prop :=
  d'.classOf = d.classOf ∧ (Linked st g d → Linked st g d')

/-- Members that are no links. -/
theorem assign_keeps {data : Data} (h : d.assign data = .ok d') : Keeps st g d d' := by
  unfold Data.assign at h
  split at h
  · obtain ⟨e, he, h⟩ := Cpp.bind_eq_ok.mp h
    cases h
    unfold assignEngine at he
    split at he
    all_goals
      cases he
    all_goals exact ⟨rfl, fun hd => ⟨hd.agrees, hd.resolvable⟩⟩
  all_goals
    cases h
  all_goals exact ⟨rfl, fun hd => ⟨hd.agrees, hd.resolvable⟩⟩

/-- A component whose links are replaced. -/
theorem keeps_of_links {e e' : Engine.Data} {T : Engine.Class} {pointers pointers' : List Addr}
    {ids ids' : List (Int32 × Int32)} (hclass : e'.classOf = e.classOf) (he : e.links = some (T, pointers, ids))
    (he' : e'.links = some (T, pointers', ids')) (hres : Resolvable st g (.engine e'))
    (h : List.Forall₂ (st.Names (Class.engine T)) pointers ids → List.Forall₂ (st.Names (Class.engine T)) pointers' ids') :
    Keeps st g (.engine e) (.engine e') := by
  refine ⟨congrArg Class.engine hclass, fun hd => ⟨fun T' ps is hlinks => ?_, hres⟩⟩
  cases he'.symm.trans hlinks
  exact h (hd.agrees T pointers ids he)

/-- A renderer has no links of the kind that is saved with its pointers. -/
theorem keeps_of_renderer {c c' : Engine.DrawableRenderer}
    (h : Resolvable st g (.engine (.drawableRenderer c)) → Resolvable st g (.engine (.drawableRenderer c'))) :
    Keeps st g (.engine (.drawableRenderer c)) (.engine (.drawableRenderer c')) :=
  ⟨rfl, fun hd => ⟨nofun, h hd.resolvable⟩⟩

/-- A button that is added is found again through the id of its object. -/
theorem addButton_resolvable {c c' : Engine.DrawableRenderer} (hkey : st.Keyed) {p : Pointer}
    (hp : st.Holds (Class.engine .button) p) {o : GameObject Data} (ho : st.getById p.gameobject = some o)
    (h : c.addButton o p.addr = .ok c') (hc : Resolvable st g (.engine (.drawableRenderer c))) :
    Resolvable st g (.engine (.drawableRenderer c')) := by
  obtain ⟨hlen, hbuttons, hdrawables⟩ := hc
  obtain ⟨found, _, h⟩ := Cpp.bind_eq_ok.mp h
  cases found with
  | some i =>
    cases h
    exact ⟨hlen, hbuttons, hdrawables⟩
  | none =>
    cases h
    refine ⟨?_, fun ID hID => ?_, hdrawables⟩
    · simp only [List.length_append, List.length_singleton]
      omega
    · rcases List.mem_append.mp hID with hID | hID
      · exact hbuttons ID hID
      · rw [List.mem_singleton.mp hID, hkey _ o ho]
        exact hp.has

/-- Button and id are dropped together, or neither. -/
theorem remButton_resolvable {c c' : Engine.DrawableRenderer} {button : Addr} (h : c.remButton button = .ok c')
    (hc : Resolvable st g (.engine (.drawableRenderer c))) : Resolvable st g (.engine (.drawableRenderer c')) := by
  obtain ⟨hlen, hbuttons, hdrawables⟩ := hc
  obtain ⟨⟨buttons, ids⟩, hlink, h⟩ := Cpp.bind_eq_ok.mp h
  cases h
  refine ⟨?_, fun ID hID => hbuttons ID ((Engine.remLink_sublist hlink).2.subset hID), hdrawables⟩
  obtain ⟨i, ⟨rfl, rfl⟩ | ⟨rfl, rfl⟩⟩ := Engine.remLink_cases hlink
  · simp only [List.length_eraseIdx]
    split <;> split <;> omega
  · exact hlen

/-- The pair beside a drawable that is added leads to it. -/
theorem addDrawable_resolvable {c c' : Engine.DrawableRenderer} (hkey : st.Keyed) {k : Int32} {o : GameObject Data}
    (ho : st.getById k = some o) {drawable : Addr} (h : c.addDrawable (Class.engine .drawable) o drawable = .ok c')
    (hc : Resolvable st g (.engine (.drawableRenderer c))) : Resolvable st g (.engine (.drawableRenderer c')) := by
  obtain ⟨hlen, hbuttons, hdrawables⟩ := hc
  obtain ⟨found, _, h⟩ := Cpp.bind_eq_ok.mp h
  cases found with
  | some i =>
    cases h
    exact ⟨hlen, hbuttons, hdrawables⟩
  | none =>
    obtain ⟨_, hint, h⟩ := Cpp.bind_eq_ok.mp h
    cases h
    refine ⟨hlen, hbuttons, fun p hp => ?_⟩
    rcases List.mem_append.mp hp with hp | hp
    · exact hdrawables p hp
    · obtain ⟨⟨a, i⟩, hmem, rfl⟩ := List.mem_map.mp hp
      have hplace := List.mem_zipIdx_iff_getElem?.mp (List.mem_filter.mp hmem).1
      have hlt := (List.getElem?_eq_some_iff.mp hplace).1
      have hsize := (int_eq_ok.mp hint).1.2
      refine ⟨a, o, ?_, ?_⟩
      · simp only [hkey k o ho, ho]
      · rw [Engine.sizeT_ofNat (by omega)]
        exact hplace

/-- Every call on a component whose argument points to a component of its class. -/
theorem ComponentCall.perform_keeps {call : ComponentCall} (hkey : st.Keyed)
    (harg : ∀ T p, call.argument = some (T, p) → st.Holds T p) (h : call.perform st d = .ok d') : Keeps st g d d' := by
  cases call with
  | assign data => exact assign_keeps h
  | setParrent p =>
    obtain ⟨o, ho, h⟩ := Cpp.bind_eq_ok.mp h
    obtain ⟨e, e', rfl, he, rfl⟩ := Data.onEngine_ok h
    obtain ⟨c, c', rfl, hc, rfl⟩ := onTransform_ok he
    simp only [Engine.Transform.setParrent] at hc
    split at hc
    · cases hc
    · cases hc
      refine ⟨rfl, fun _ => ⟨nofun, .inr ?_⟩⟩
      rw [hkey _ o (ObjectStorrage.deref_eq_ok.mp ho)]
      exact (harg _ _ rfl).has
  | addActor p =>
    obtain ⟨o, ho, h⟩ := Cpp.bind_eq_ok.mp h
    obtain ⟨e, e', rfl, he, rfl⟩ := Data.onEngine_ok h
    obtain ⟨c, c', rfl, hc, rfl⟩ := onButton_ok he
    exact keeps_of_links rfl rfl rfl trivial (Engine.Button.addActor_names hkey (ObjectStorrage.deref_eq_ok.mp ho) hc)
  | remActor a =>
    obtain ⟨e, e', rfl, he, rfl⟩ := Data.onEngine_ok h
    obtain ⟨c, c', rfl, hc, rfl⟩ := onButton_ok he
    obtain ⟨⟨pointers, ids⟩, hlink, hc⟩ := Cpp.bind_eq_ok.mp hc
    cases hc
    exact keeps_of_links rfl rfl rfl trivial (Engine.remLink_keeps hlink)
  | addInstance p =>
    obtain ⟨o, ho, h⟩ := Cpp.bind_eq_ok.mp h
    obtain ⟨e, e', rfl, he, rfl⟩ := Data.onEngine_ok h
    obtain ⟨c, c', rfl, hc, rfl⟩ := onInstancedTeilSprite_ok he
    obtain ⟨⟨pointers, ids⟩, hlink, hc⟩ := Cpp.bind_eq_ok.mp hc
    cases hc
    obtain ⟨o', ho', hmem⟩ := harg _ _ rfl
    cases (ObjectStorrage.deref_eq_ok.mp ho).symm.trans ho'
    exact keeps_of_links rfl rfl rfl trivial (Engine.addLink_names hkey ho' hmem hlink)
  | addStringInstance p =>
    obtain ⟨o, ho, h⟩ := Cpp.bind_eq_ok.mp h
    obtain ⟨e, e', rfl, he, rfl⟩ := Data.onEngine_ok h
    obtain ⟨c, c', rfl, hc, rfl⟩ := onStringRenderer_ok he
    obtain ⟨⟨pointers, ids⟩, hlink, hc⟩ := Cpp.bind_eq_ok.mp hc
    cases hc
    obtain ⟨o', ho', hmem⟩ := harg _ _ rfl
    cases (ObjectStorrage.deref_eq_ok.mp ho).symm.trans ho'
    exact keeps_of_links rfl rfl rfl trivial (Engine.addLink_names hkey ho' hmem hlink)
  | remInstance a =>
    obtain ⟨e, e', rfl, he, rfl⟩ := Data.onEngine_ok h
    obtain ⟨c, c', rfl, hc, rfl⟩ := onInstancedTeilSprite_ok he
    obtain ⟨⟨pointers, ids⟩, hlink, hc⟩ := Cpp.bind_eq_ok.mp hc
    cases hc
    exact keeps_of_links rfl rfl rfl trivial (Engine.remLink_keeps hlink)
  | remStringInstance a =>
    obtain ⟨e, e', rfl, he, rfl⟩ := Data.onEngine_ok h
    obtain ⟨c, c', rfl, hc, rfl⟩ := onStringRenderer_ok he
    obtain ⟨⟨pointers, ids⟩, hlink, hc⟩ := Cpp.bind_eq_ok.mp hc
    cases hc
    exact keeps_of_links rfl rfl rfl trivial (Engine.remLink_keeps hlink)
  | addButton p =>
    obtain ⟨o, ho, h⟩ := Cpp.bind_eq_ok.mp h
    obtain ⟨e, e', rfl, he, rfl⟩ := Data.onEngine_ok h
    obtain ⟨c, c', rfl, hc, rfl⟩ := onDrawableRenderer_ok he
    exact keeps_of_renderer (addButton_resolvable hkey (harg _ _ rfl) (ObjectStorrage.deref_eq_ok.mp ho) hc)
  | remButton a =>
    obtain ⟨e, e', rfl, he, rfl⟩ := Data.onEngine_ok h
    obtain ⟨c, c', rfl, hc, rfl⟩ := onDrawableRenderer_ok he
    exact keeps_of_renderer (remButton_resolvable hc)
  | addDrawable p =>
    obtain ⟨o, ho, h⟩ := Cpp.bind_eq_ok.mp h
    obtain ⟨e, e', rfl, he, rfl⟩ := Data.onEngine_ok h
    obtain ⟨c, c', rfl, hc, rfl⟩ := onDrawableRenderer_ok he
    exact keeps_of_renderer (addDrawable_resolvable hkey (ObjectStorrage.deref_eq_ok.mp ho) hc)
  | remDrawable a =>
    obtain ⟨e, e', rfl, he, rfl⟩ := Data.onEngine_ok h
    obtain ⟨c, c', rfl, hc, rfl⟩ := onDrawableRenderer_ok he
    obtain ⟨found, _, hc⟩ := Cpp.bind_eq_ok.mp hc
    cases found with
    | none =>
      cases hc
      exact keeps_of_renderer id
    | some i =>
      obtain ⟨allDrawable, _, hc⟩ := Cpp.bind_eq_ok.mp hc
      cases hc
      exact keeps_of_renderer id
  | unloadContent =>
    obtain ⟨e, e', rfl, he, rfl⟩ := Data.onEngine_ok h
    obtain ⟨c, c', rfl, hc, rfl⟩ := onDrawableRenderer_ok he
    cases hc
    exact keeps_of_renderer id
  | clear =>
    obtain ⟨e, e', rfl, he, rfl⟩ := Data.onEngine_ok h
    obtain ⟨c, c', rfl, hc, rfl⟩ := onDrawableRenderer_ok he
    cases hc
    exact keeps_of_renderer fun hc => ⟨Nat.zero_le _, hc.2⟩
  | setKamera p =>
    obtain ⟨o, ho, h⟩ := Cpp.bind_eq_ok.mp h
    obtain ⟨e, e', rfl, he, rfl⟩ := Data.onEngine_ok h
    obtain ⟨c, c', rfl, hc, rfl⟩ := onDrawableRenderer_ok he
    cases hc
    exact keeps_of_renderer id

end

/-! ## What every reached state has -/

/-- Objects of the ids below the counter whose components are linked, and listeners where the pairs beside them lead. -/
structure Sound (st : ObjectStorrage Data) (events : Events.EventSystem) : Prop where
  hierarchy : st.Hierarchy
  dense : ∀ k : Int32, 0 ≤ k.toInt → k.toInt < st.counter → ∃ g, st.getById k = some g
  linked : ∀ k g, st.getById k = some g → ∀ c ∈ g.componenten, Linked st g c.data
  listener : List.Forall₂ (st.Names Class.eventListener) events.listener events.listenerIDs

/-- No other class has the name of `Transform`. -/
theorem Class.eq_transform {T : Class} (h : T.typeName = Engine.Class.transform.typeName) : T = .engine .transform := by
  cases T with
  | engine T =>
    cases T with
    | transform => rfl
    | _ => exact absurd h (by decide)
  | _ => exact absurd h (by decide)

namespace Sound

variable {st st' : ObjectStorrage Data} {events events' : Events.EventSystem}

/-- Nothing is stored and nobody listens. -/
theorem empty : Sound {} {} where
  hierarchy := .empty 0 (Int.le_refl 0)
  dense := fun _ h0 hk => absurd hk (Int.not_lt.mpr h0)
  linked := fun k g hg => by simp [ObjectStorrage.getById] at hg
  listener := .nil

/-- A state whose objects have grown, with components that were there or are linked. -/
theorem grow (h : Sound st events) (hhierarchy : st'.Hierarchy)
    (hdense : ∀ k : Int32, 0 ≤ k.toInt → k.toInt < st'.counter → ∃ g, st'.getById k = some g) (hgrows : Grows st st')
    (hcomps : ∀ k g', st'.getById k = some g' → ∀ c ∈ g'.componenten,
      (∃ g, st.getById k = some g ∧ ∃ o ∈ g.componenten, c.data = o.data) ∨ Linked st' g' c.data) : Sound st' events := by
  refine ⟨hhierarchy, hdense, fun k g' hg' c hc => ?_, h.listener.imp fun _ _ hc => hc.mono hgrows⟩
  rcases hcomps k g' hg' c hc with ⟨g, hg, o, ho, hdata⟩ | hlinked
  · obtain ⟨g'', hg'', hshape⟩ := hgrows k g hg
    cases hg'.symm.trans hg''
    rw [hdata]
    exact (h.linked k g hg o ho).mono hgrows hshape
  · exact hlinked

/-- A write to one object. -/
theorem store (h : Sound st events) {k : Int32} {me me' : GameObject Data} (hk : st.getById k = some me)
    (hlinks : me'.links = me.links) (hshape : me.shape <+: me'.shape)
    (hcomps : ∀ c ∈ me'.componenten, (∃ o ∈ me.componenten, c.data = o.data) ∨ Linked (st.store k me') me' c.data) :
    Sound (st.store k me') events := by
  have hget := fun j => ObjectStorrage.getById_store (j := j) (g := me') hk
  have hgrows : Grows st (st.store k me') := by
    intro j g hg
    rw [hget]
    split
    · rename_i hkj
      subst hkj
      cases hk.symm.trans hg
      exact ⟨me', rfl, hshape⟩
    · exact ⟨g, hg, List.prefix_refl _⟩
  refine h.grow ((SameLinks.store hk hlinks).hierarchy h.hierarchy) (fun j h0 hj => ?_) hgrows fun j g' hg' c hc => ?_
  · obtain ⟨g, hg⟩ := h.dense j h0 hj
    obtain ⟨g', hg', _⟩ := hgrows j g hg
    exact ⟨g', hg'⟩
  · rw [hget] at hg'
    split at hg'
    · rename_i hkj
      subst hkj
      cases hg'
      exact (hcomps c hc).imp_left fun ho => ⟨me, hk, ho⟩
    · exact .inl ⟨g', hg', c, hc, rfl⟩

/-- A new object takes the id of the counter, so that the ids stay dense. -/
theorem createGameObject (h : Sound st events) {w w' : World} {ID : Int32}
    (hcreate : st.createGameObject w = .ok ((ID, st'), w')) : Sound st' events := by
  obtain ⟨hID, _, hcounter, b, hget⟩ := ObjectStorrage.createGameObject_spec h.hierarchy hcreate
  refine h.grow (h.hierarchy.createGameObject hcreate) (fun k h0 hk => ?_) (.createGameObject h.hierarchy hcreate)
    fun k g' hg' c hc => ?_
  · rw [hget]
    by_cases hkID : ID = k
    · exact ⟨_, if_pos hkID⟩
    · have hne : k.toInt ≠ ID.toInt := fun heq => hkID (Int32.toInt_inj.mp heq).symm
      rw [if_neg hkID]
      exact h.dense k h0 (by omega)
  · rw [hget] at hg'
    split at hg'
    · cases hg'
      exact absurd hc List.not_mem_nil
    · exact .inl ⟨g', hg', c, hc, rfl⟩

/-- A write that leaves the components what and where they are. -/
theorem onGameObject (h : Sound st events) {k : Int32} {f : GameObject Data → GameObject Data}
    (hlinks : ∀ g, (f g).links = g.links) (hshape : ∀ g, (f g).shape = g.shape)
    (hcomps : ∀ g, ∀ c ∈ (f g).componenten, ∃ o ∈ g.componenten, c.data = o.data)
    (hwrite : st.onGameObject k f = .ok st') : Sound st' events := by
  obtain ⟨me, hme, hwrite⟩ := Cpp.bind_eq_ok.mp hwrite
  cases hwrite
  exact h.store (ObjectStorrage.deref_eq_ok.mp hme) (hlinks me) (hshape me ▸ List.prefix_refl _)
    fun c hc => .inl (hcomps me c hc)

/-- The new parent is stored, or there is none. The components stay. -/
theorem setParrentID (h : Sound st events) {this parrentID : Int32} {me : GameObject Data}
    (hme : st.getById this = some me) (hp : parrentID = EMPTY_ID ∨ ∃ o, st.getById parrentID = some o)
    (hset : st.setParrentID this parrentID = .ok st') : Sound st' events := by
  obtain ⟨st'', hok, hcounter, hget⟩ := ObjectStorrage.setParrentID_spec h.hierarchy.agrees hme hp
  cases hset.symm.trans hok
  refine h.grow (h.hierarchy.reparent hme hp hcounter hget) (fun k h0 hk => ?_) (.of_sameShape fun k => ?_)
    fun k g' hg' c hc => ?_
  · obtain ⟨g, hg⟩ := h.dense k h0 (hcounter ▸ hk)
    exact ⟨_, by rw [hget, hg, Option.map_some]⟩
  · rw [hget, Option.map_map]
    rfl
  · rw [hget] at hg'
    obtain ⟨g, hg, rfl⟩ := Option.map_eq_some_iff.mp hg'
    exact .inl ⟨g, hg, c, hc, rfl⟩

/-- A new component has no links yet, and an instance of a string has the transform it requires beside it. -/
theorem addComponent (h : Sound st events) {this : Int32} {T : Class} {w w' : World}
    (hadd : st.addComponent this T w = .ok (st', w')) : Sound st' events := by
  obtain ⟨me, hme, hadd⟩ := Cpp.bind_eq_ok.mp hadd
  obtain ⟨⟨me', w₁⟩, hcomp, hadd⟩ := Cpp.bind_eq_ok.mp hadd
  cases hadd
  have hk := ObjectStorrage.deref_eq_ok.mp hme
  obtain ⟨toSet, new, storage, c, hrequired, hnew, hset, rfl⟩ := GameObject.addComponent_ok hcomp
  have hshape : me.shape <+: GameObject.shape { me with componenten := me.componenten ++ [c] } := by
    simp only [GameObject.shape, List.map_append]
    exact List.prefix_append _ _
  obtain ⟨hclass, hblank⟩ := Data.registered_blank hnew storage
  obtain ⟨hclass', hblank'⟩ := Data.setRequirements_keeps hset
  refine h.store hk rfl hshape fun o ho => ?_
  rcases List.mem_append.mp ho with ho | ho
  · exact .inl ⟨o, ho, rfl⟩
  · rw [List.mem_singleton.mp ho]
    refine .inr ((hblank' hblank).linked fun hstring => ?_)
    -- An instance of a string requires a transform of its object.
    have hT : T = .engine .stringRendererInstance := (hclass'.trans hclass).symm.trans hstring
    subst hT
    have hnamed := hrequired Engine.Class.transform.typeName List.mem_cons_self
    refine fun hnil => hnamed (List.map_eq_nil_iff.mpr (List.filter_eq_nil_iff.mpr fun o ho hname => ?_))
    have hnone := List.filter_eq_nil_iff.mp (List.map_eq_nil_iff.mp hnil) o (List.mem_append_left _ ho)
    have htransform : ComponentClasses.classOf o.data = .engine .transform := Class.eq_transform (eq_of_beq hname)
    rw [htransform] at hnone
    exact hnone rfl

/-- What is done to a component through a pointer to it. -/
theorem update (h : Sound st events) {p : Pointer} {f : Data → Comp Data}
    (hf : ∀ g d d', f d = .ok d' → Keeps st g d d') (hupdate : st.update p f = .ok st') : Sound st' events := by
  obtain ⟨me, hme, hupdate⟩ := Cpp.bind_eq_ok.mp hupdate
  obtain ⟨i, _, hupdate⟩ := Cpp.bind_eq_ok.mp hupdate
  obtain ⟨c, hc, hupdate⟩ := Cpp.bind_eq_ok.mp hupdate
  obtain ⟨data, hdata, hupdate⟩ := Cpp.bind_eq_ok.mp hupdate
  obtain ⟨cs, hcs, hupdate⟩ := Cpp.bind_eq_ok.mp hupdate
  cases hupdate
  obtain ⟨hlt, rfl⟩ := setAt_eq_ok.mp hcs
  have hk := ObjectStorrage.deref_eq_ok.mp hme
  have hi := elemAt_eq_ok.mp hc
  obtain ⟨hclass, hlinked⟩ := hf me c.data data hdata
  refine h.store hk rfl (GameObject.shape_set hi hclass ▸ List.prefix_refl _) fun o ho => ?_
  rcases List.mem_or_eq_of_mem_set ho with ho | rfl
  · exact .inl ⟨o, ho, rfl⟩
  · have hgrows : Grows st (st.store p.gameobject { me with componenten := me.componenten.set i { c with data } }) :=
      .of_sameShape (.store hk (GameObject.shape_set hi hclass))
    exact .inr ((hlinked (h.linked _ me hk c (List.mem_of_getElem? hi))).mono hgrows
      (GameObject.shape_set hi hclass ▸ List.prefix_refl _))

/-- A listener is registered. -/
theorem addEventListener (h : Sound st events) {k : Int32} {g : GameObject Data} (hk : st.getById k = some g) {el : Addr}
    (hadd : events.addEventListener Class.eventListener g el = .ok events') : Sound st events' :=
  { h with listener := Events.EventSystem.addEventListener_names h.hierarchy.keyed hk hadd h.listener }

/-- A listener is dropped with its pair. -/
theorem removeEventListener (h : Sound st events) {el : Addr} (hrem : events.removeEventListener el = .ok events') :
    Sound st events' :=
  { h with listener := Events.EventSystem.removeEventListener_keeps hrem h.listener }

end Sound

end SceenViewer
