import BackupEngine.Lemmas.LinkingCalls

/-!
# Links after a reload

What a load makes of a saved scene, and what `afterSet` finds in it. A loaded component casts to the classes of the engine
the saved one casts to, so that a place leads to the component at the same place of the same object.
-/

namespace SceenViewer

open Cpp Serializer ByteStack

open Serializer.ObjectStorrage (Grows Names Has SameShape Looks settle settled)

variable {st st' : ObjectStorrage Data} {g g' : GameObject Data} {d d' e : Data}

/-! ## What `afterSet` looks at -/

/-- `afterSet` writes nothing that is saved. -/
theorem Data.saved_of_afterSet {find : Engine.Lookup} {own : Engine.Class → List Addr} (h : d.afterSet find own = .ok e) :
    e.saved = d.saved := by
  cases d with
  | engine d =>
    obtain ⟨e, he, h⟩ := Cpp.bind_eq_ok.mp h
    cases h
    cases d with
    | drawableRenderer c =>
      obtain ⟨c', hc, he⟩ := Cpp.bind_eq_ok.mp he
      cases he
      obtain ⟨_, _, hc⟩ := Cpp.bind_eq_ok.mp hc
      obtain ⟨_, _, hc⟩ := Cpp.bind_eq_ok.mp hc
      obtain ⟨_, _, hc⟩ := Cpp.bind_eq_ok.mp hc
      cases hc
      rfl
    | transform c =>
      obtain ⟨c', hc, he⟩ := Cpp.bind_eq_ok.mp he
      cases he
      unfold Engine.Transform.afterSet at hc
      split at hc
      · obtain ⟨_, _, hc⟩ := Cpp.bind_eq_ok.mp hc
        cases hc
        rfl
      · cases hc
        rfl
    | button c | instancedSprite c | instancedTeilSprite c | stringRenderer c | stringRendererInstance c =>
      obtain ⟨c', hc, he⟩ := Cpp.bind_eq_ok.mp he
      cases he
      obtain ⟨_, _, hc⟩ := Cpp.bind_eq_ok.mp hc
      cases hc
      rfl
    | _ =>
      cases he
      rfl
  | _ =>
    cases h
    rfl

/-- The searches of `afterSet` go by addresses and classes. -/
theorem looks : Looks Data where
  same := by
    intro st st' g g' d hst hg
    have hfind : ∀ {o o' : GameObject Data}, o'.shape = o.shape → Data.castTo o'.componenten = Data.castTo o.componenten :=
      fun h => funext fun T => GameObject.findComponents_congr h (Class.engine T)
    have hlookup : (fun (k : Int32) (T : Engine.Class) => do
        let o ← st'.deref k
        return Data.castTo o.componenten T) = fun k T => do
        let o ← st.deref k
        return Data.castTo o.componenten T := by
      funext k T
      have hk := hst k
      unfold ObjectStorrage.deref
      cases ho : st.getById k with
      | none =>
        rw [ho, Option.map_none, Option.map_eq_none_iff] at hk
        rw [hk]
      | some o =>
        rw [ho, Option.map_some] at hk
        obtain ⟨o', ho', hshape⟩ := Option.map_eq_some_iff.mp hk
        rw [ho']
        exact congrArg Except.ok (congrFun (hfind hshape) T)
    change Data.afterSet _ _ d = Data.afterSet _ _ d
    rw [hlookup, hfind hg]
  classOf := by
    intro st g d d' h
    have hsaved : d'.saved = d.saved := Data.saved_of_afterSet h
    change d'.classOf = d.classOf
    rw [← Data.classOf_saved, hsaved, Data.classOf_saved]

/-- `find.resolve` of a pair is what the pair leads to. -/
theorem resolve_eq_ok {T : Engine.Class} {p : Int32 × Int32} {a : Addr} :
    Engine.Lookup.resolve (fun k T => do
      let o ← st.deref k
      return Data.castTo o.componenten T) T p = .ok a ↔ st.Names (Class.engine T) a p := by
  simp only [Engine.Lookup.resolve, Cpp.bind_eq_ok, ObjectStorrage.deref_eq_ok, elemAt_eq_ok]
  constructor
  · rintro ⟨_, ⟨o, ho, h⟩, hplace⟩
    cases h
    exact ⟨o, ho, hplace⟩
  · rintro ⟨o, ho, hplace⟩
    exact ⟨_, ⟨o, ho, rfl⟩, hplace⟩

/-- `find.first` returns where there is a component of the class. -/
theorem first_returns {T : Engine.Class} {k : Int32} (h : st.Has (Class.engine T) k) :
    ∃ a, Engine.Lookup.first (fun k T => do
      let o ← st.deref k
      return Data.castTo o.componenten T) T k = .ok a := by
  obtain ⟨o, ho, hne⟩ := h
  obtain ⟨a, rest, hcons⟩ := List.exists_cons_of_ne_nil hne
  refine ⟨a, ?_⟩
  simp only [Engine.Lookup.first, Cpp.bind_eq_ok, ObjectStorrage.deref_eq_ok, elemAt_eq_ok]
  refine ⟨_, ⟨o, ho, rfl⟩, ?_⟩
  rw [show Data.castTo o.componenten T = o.findComponents (Class.engine T) from rfl, hcons]
  rfl

/-! ## What comes back of a component -/

/-- The pointers of the links of a component. -/
def Data.pointers (d : Data) : List Addr :=
  match d.links with
  | some (_, pointers, _) => pointers
  | none => []

/-- The buttons of a renderer. -/
def Data.buttons : Data → List Addr
  | engine (.drawableRenderer c) => c.buttons
  | _ => []

/-- What a load makes of a component: everything that is saved, and no pointer to another one. -/
structure Came (d d' : Data) : Prop where
  saved : d'.saved = d.asSaved.saved
  pointers : d'.pointers = []

/-- `set` writes no pointers and no buttons. -/
theorem Data.pointers_of_set {s s' : List UInt8 × World} (h : d.set s = .ok (d', s')) :
    d'.pointers = d.pointers ∧ d'.buttons = d.buttons := by
  cases d with
  | engine d =>
    obtain ⟨e, t, he, h⟩ := map_eq_ok.mp h
    cases h
    cases d with
    | button c =>
      obtain ⟨c', t', hc, he⟩ := map_eq_ok.mp he
      cases he
      obtain ⟨_, _, _, hc⟩ := ByteStack.bind_eq_ok.mp hc
      cases hc
      exact ⟨rfl, rfl⟩
    | drawableRenderer c =>
      obtain ⟨c', t', hc, he⟩ := map_eq_ok.mp he
      cases he
      simp only [Engine.DrawableRenderer.set] at hc
      obtain ⟨_, _, _, hc⟩ := ByteStack.bind_eq_ok.mp hc
      obtain ⟨_, _, _, hc⟩ := ByteStack.bind_eq_ok.mp hc
      obtain ⟨_, _, _, hc⟩ := ByteStack.bind_eq_ok.mp hc
      obtain ⟨_, _, _, hc⟩ := ByteStack.bind_eq_ok.mp hc
      obtain ⟨_, _, _, hc⟩ := ByteStack.bind_eq_ok.mp hc
      obtain ⟨_, _, _, hc⟩ := ByteStack.bind_eq_ok.mp hc
      obtain ⟨_, _, _, hc⟩ := ByteStack.bind_eq_ok.mp hc
      obtain ⟨_, _, _, hc⟩ := ByteStack.bind_eq_ok.mp hc
      obtain ⟨_, _, _, hc⟩ := ByteStack.bind_eq_ok.mp hc
      obtain ⟨_, _, _, hc⟩ := ByteStack.bind_eq_ok.mp hc
      obtain ⟨_, _, _, hc⟩ := ByteStack.bind_eq_ok.mp hc
      cases hc
      exact ⟨rfl, rfl⟩
    | instancedTeilSprite c =>
      obtain ⟨c', t', hc, he⟩ := map_eq_ok.mp he
      cases he
      obtain ⟨_, _, _, hc⟩ := ByteStack.bind_eq_ok.mp hc
      obtain ⟨_, _, _, hc⟩ := ByteStack.bind_eq_ok.mp hc
      obtain ⟨_, _, _, hc⟩ := ByteStack.bind_eq_ok.mp hc
      cases hc
      exact ⟨rfl, rfl⟩
    | stringRenderer c =>
      obtain ⟨c', t', hc, he⟩ := map_eq_ok.mp he
      cases he
      simp only [Engine.StringRenderer.set] at hc
      obtain ⟨_, _, _, hc⟩ := ByteStack.bind_eq_ok.mp hc
      obtain ⟨_, _, _, hc⟩ := ByteStack.bind_eq_ok.mp hc
      obtain ⟨_, _, _, hc⟩ := ByteStack.bind_eq_ok.mp hc
      obtain ⟨_, _, _, hc⟩ := ByteStack.bind_eq_ok.mp hc
      obtain ⟨_, _, _, hc⟩ := ByteStack.bind_eq_ok.mp hc
      obtain ⟨_, _, _, hc⟩ := ByteStack.bind_eq_ok.mp hc
      obtain ⟨_, _, _, hc⟩ := ByteStack.bind_eq_ok.mp hc
      cases hc
      exact ⟨rfl, rfl⟩
    | _ =>
      obtain ⟨c', t', _, he⟩ := map_eq_ok.mp he
      cases he
      exact ⟨rfl, rfl⟩
  | _ =>
    obtain ⟨c', t', _, h⟩ := map_eq_ok.mp h
    cases h
    exact ⟨rfl, rfl⟩

theorem Data.Blank.pointers (h : d.Blank) : d.pointers = [] := by
  cases d with
  | engine d =>
    cases d with
    | button c | instancedTeilSprite c | stringRenderer c => exact h.1
    | _ => rfl
  | _ => rfl

/-- The component without the pointers of its links. -/
def Data.emptied : Data → Data
  | engine (.button c) => engine (.button { c with payload := [] })
  | engine (.instancedTeilSprite c) => engine (.instancedTeilSprite { c with instancen := [] })
  | engine (.stringRenderer c) => engine (.stringRenderer { c with instancen := [] })
  | c => c

theorem Data.encode_emptied (d : Data) : d.emptied.encode = d.encode ∧ d.emptied.classOf = d.classOf := by
  cases d with
  | engine d => cases d <;> exact ⟨rfl, rfl⟩
  | _ => exact ⟨rfl, rfl⟩

theorem Data.serialize_emptied (d : Data) : d.emptied.serialize = d.serialize := by
  cases d with
  | engine d => cases d <;> rfl
  | _ => rfl

theorem Data.saved_emptied (d : Data) : d.emptied.saved = d.saved := by
  cases d with
  | engine d => cases d <;> rfl
  | _ => rfl

theorem Data.tagged_emptied (h : d.Tagged) : d.emptied.Tagged := by
  cases d with
  | engine d => cases d <;> exact h
  | _ => exact h

theorem Data.pointers_emptied (d : Data) : d.emptied.pointers = [] := by
  cases d with
  | engine d => cases d <;> rfl
  | _ => rfl

/-- Components without pointers are saved and come back without pointers. -/
theorem saves_links : Saves (fun d : Data => (d.saved, d.pointers)) (fun d => d.Tagged ∧ d.pointers = []) Data.encode where
  writes := fun d hd => saves.writes d hd.1
  reads := by
    rintro d ⟨htagged, hnone⟩
    obtain ⟨new, hnew, hread⟩ := saves.reads d htagged
    have hpointers : ∀ s (t : List UInt8 × World) d' t', Data.set (new s) t = .ok (d', t') → d'.pointers = d.pointers := by
      intro s t d' t' h
      rw [(Data.pointers_of_set h).1, (Data.registered_blank hnew s).2.pointers, hnone]
    exact ⟨new, hnew, fun s => ((hread s).and (hpointers s)).mono fun d' hd' => Prod.ext hd'.1 hd'.2⟩

/-- What a load of `st` makes of the storage `base`: what was stored is kept, and where nothing was the objects of `st` came
with their names and ids, each component at its place. -/
structure LoadedOnto (base st merged : ObjectStorrage Data) : Prop where
  kept : ∀ k g, base.getById k = some g → merged.getById k = some g
  added : ∀ k g, base.getById k = none → st.getById k = some g → ∃ g', merged.getById k = some g' ∧ g'.links = g.links ∧
    g'.name = g.name ∧ List.Forall₂ (fun c c' => Came c.data c'.data) g.componenten g'.componenten
  ids : ∀ k g', merged.getById k = some g' → (∃ g, base.getById k = some g) ∨ ∃ g, st.getById k = some g

/-- A storage that fits is saved, and loaded on top of any other. -/
theorem Fits.loads_onto (hfits : Fits st) (hkey : st.Keyed) (w : World) :
    st.serialize ([], w) = .ok ((), encodeStorrage Data.encode (st.mapData Data.asSaved), w) ∧
      ∀ (base : ObjectStorrage Data) later, ∃ name merged later',
        base.load (encodeStorrage Data.encode (st.mapData Data.asSaved), later) = .ok ((name, merged), [], later') ∧
          LoadedOnto base st merged := by
  let f : Data → Data := fun d => d.asSaved.emptied
  have hmap : ∀ {k g}, (st.mapData f).getById k = some g → ∃ o, st.getById k = some o ∧ o.mapData f = g := by
    intro k g hg
    rw [ObjectStorrage.getById_mapData] at hg
    exact Option.map_eq_some_iff.mp hg
  have hok : (st.mapData f).All fun d => d.Tagged ∧ d.pointers = [] := by
    intro k g hg c hc
    obtain ⟨o, ho, rfl⟩ := hmap hg
    obtain ⟨d, hd, rfl⟩ := List.mem_map.mp hc
    exact ⟨Data.tagged_emptied (Data.tagged_asSaved (hfits.covered k o ho d hd)), Data.pointers_emptied _⟩
  have hkeyed : (st.mapData f).Keyed := by
    intro k g hg
    obtain ⟨o, ho, rfl⟩ := hmap hg
    exact hkey k o ho
  have hserialize : (st.mapData f).serialize = st.serialize :=
    ObjectStorrage.serialize_mapData fun k g hg c hc =>
      (Data.serialize_emptied _).trans (Data.serialize_asSaved (hfits.covered k g hg c hc))
  have hbytes : encodeStorrage Data.encode (st.mapData f) = encodeStorrage Data.encode (st.mapData Data.asSaved) := by
    have hmaps : st.mapData f = (st.mapData Data.asSaved).mapData Data.emptied := by
      simp only [ObjectStorrage.mapData, Std.ExtTreeMap.map_map, GameObject.mapData, List.map_map]
      rfl
    rw [hmaps, encodeStorrage_mapData Data.encode_emptied]
  have hsize : ([] ++ encodeStorrage Data.encode (st.mapData f)).length < 2 ^ 31 := by
    rw [List.nil_append, hbytes]
    exact hfits.size
  rw [← hbytes]
  refine ⟨?_, fun base later => ?_⟩
  · rw [← hserialize]
    exact ObjectStorrage.serialize_writes saves_links hok [] w hsize
  · obtain ⟨⟨name, merged⟩, later', hload, _, hmerged⟩ :=
      ObjectStorrage.load_merges saves_links hok hkeyed (hfits.countable.mapData _) base [] later hsize
    refine ⟨name, merged, later', hload, hmerged.kept, fun k g hk hg => ?_, fun k g' hg' => ?_⟩
    · have hsaved := hmerged.added k hk
      rw [ObjectStorrage.saved, ObjectStorrage.saved, ObjectStorrage.getById_mapData, hg, Option.map_some, Option.map_some]
        at hsaved
      obtain ⟨g', hg', hsame⟩ := Option.map_eq_some_iff.mp hsaved
      refine ⟨g', hg', ?_, congrArg SavedObject.name hsame, ?_⟩
      · exact congrArg (fun o : SavedObject (Data × List Addr) => (o.ID, o.parrentID, o.childrenIds)) hsame
      have hcomps := congrArg SavedObject.componenten hsame
      simp only [GameObject.saved, GameObject.mapData, List.map_map] at hcomps
      rw [← List.forall₂_eq_eq_eq, List.forall₂_map_left_iff, List.forall₂_map_right_iff] at hcomps
      refine hcomps.flip.imp fun c c₁ h => ?_
      obtain ⟨hsaved, hpointers⟩ := Prod.mk.inj h
      exact ⟨hsaved.trans (Data.saved_emptied _), hpointers.trans (Data.pointers_emptied _)⟩
    · cases hk : base.getById k with
      | some g => exact .inl ⟨g, rfl⟩
      | none =>
        have hsaved := hmerged.added k hk
        rw [ObjectStorrage.saved, ObjectStorrage.saved, ObjectStorrage.getById_mapData, hg', Option.map_some] at hsaved
        obtain ⟨g, hg, _⟩ := Option.map_eq_some_iff.mp hsaved.symm
        obtain ⟨o, ho, _⟩ := Option.map_eq_some_iff.mp hg
        exact .inr ⟨o, ho⟩

/-! ## Where the places lead in the loaded scene -/

/-- The same ids are stored, and every component came back at its place. -/
structure CameBack (st st₁ : ObjectStorrage Data) : Prop where
  objects : ∀ k g, st.getById k = some g → ∃ g₁, st₁.getById k = some g₁ ∧
    List.Forall₂ (fun c c₁ => Came c.data c₁.data) g.componenten g₁.componenten
  ids : ∀ k g₁, st₁.getById k = some g₁ → ∃ g, st.getById k = some g

/-- A scene comes back when it is loaded into an empty storage. -/
theorem LoadedOnto.cameBack {base st₁ : ObjectStorrage Data} (h : LoadedOnto base st st₁) (hbase : base.objects = ∅) :
    CameBack st st₁ := by
  have hnone : ∀ k, base.getById k = none := fun k => by simp [ObjectStorrage.getById, hbase]
  refine ⟨fun k g hg => ?_, fun k g₁ hg₁ => (h.ids k g₁ hg₁).resolve_left fun hbefore => ?_⟩
  · obtain ⟨g₁, hg₁, _, _, hcomps⟩ := h.added k g (hnone k) hg
    exact ⟨g₁, hg₁, hcomps⟩
  · obtain ⟨g, hg⟩ := hbefore
    rw [hnone] at hg
    cases hg

/-- The components at the two addresses are at the same place of the same object. -/
def Corresponds (st st' : ObjectStorrage Data) (a a' : Addr) : Prop :=
  ∃ k g g', ∃ (i : Nat) (c c' : Component Data), st.getById k = some g ∧ st'.getById k = some g' ∧ g.componenten[i]? = some c ∧
    g'.componenten[i]? = some c' ∧ c.addr = a ∧ c'.addr = a'

theorem Came.classOf (h : Came d d') : d'.classOf = d.asSaved.classOf := by
  rw [← Data.classOf_saved d', h.saved, Data.classOf_saved]

/-- Of the classes of the engine a component casts to those the saved one casts to. -/
theorem Data.isA_asSaved (d : Data) (T : Engine.Class) :
    (Class.engine T).isA d.asSaved.classOf = (Class.engine T).isA d.classOf := by
  cases d with
  | engine d => rw [Data.asSaved, Data.classOf, Data.classOf, classOf_trimmed]
  | buttonChecker c => cases T <;> rfl
  | _ => rfl

theorem Came.isA (h : Came d d') (T : Engine.Class) : (Class.engine T).isA d'.classOf = (Class.engine T).isA d.classOf := by
  rw [h.classOf, Data.isA_asSaved]

/-- What a search finds in an object of the one scene is at the places of what it finds in that of the other. -/
def FindsAlike (st st' : ObjectStorrage Data) : Prop :=
  ∀ (T : Engine.Class) k g, st.getById k = some g → ∃ g', st'.getById k = some g' ∧
    List.Forall₂ (Corresponds st st') (g.findComponents (Class.engine T)) (g'.findComponents (Class.engine T))

namespace FindsAlike

variable {k : Int32} {T : Engine.Class}

/-- A search goes by the classes the components cast to. -/
theorem of_objects (h : ∀ k g, st.getById k = some g → ∃ g', st'.getById k = some g' ∧
    List.Forall₂ (fun c c' => ∀ T : Engine.Class, (Class.engine T).isA c'.data.classOf = (Class.engine T).isA c.data.classOf)
      g.componenten g'.componenten) : FindsAlike st st' := by
  intro T k g hg
  obtain ⟨g', hg', hcomps⟩ := h k g hg
  refine ⟨g', hg', ?_⟩
  have hplaces : List.Forall₂ (fun c c' =>
      (Class.engine T).isA c'.data.classOf = (Class.engine T).isA c.data.classOf ∧ Corresponds st st' c.addr c'.addr)
      g.componenten g'.componenten := by
    refine Engine.forall₂_of_getElem? hcomps.length_eq fun i c c' hc hc' => ?_
    obtain ⟨c₂, hc₂, hisA⟩ := Engine.forall₂_getElem? hcomps hc
    cases hc'.symm.trans hc₂
    exact ⟨hisA T, k, g, g', i, c, c', hg, hg', hc, hc', rfl, rfl⟩
  have hcasts := List.rel_filter (p := fun c : Component Data => (Class.engine T).isA c.data.classOf)
    (q := fun c => (Class.engine T).isA c.data.classOf) (fun c c' hc => by simp only [hc.1]) hplaces
  exact List.forall₂_map_left_iff.mpr (List.forall₂_map_right_iff.mpr (hcasts.imp fun _ _ hc => hc.2))

theorem names (h : FindsAlike st st') {a : Addr} {p : Int32 × Int32} (ha : st.Names (Class.engine T) a p) :
    ∃ a', st'.Names (Class.engine T) a' p ∧ Corresponds st st' a a' := by
  obtain ⟨g, hg, hplace⟩ := ha
  obtain ⟨g', hg', hfound⟩ := h T p.1 g hg
  obtain ⟨a', ha', hsame⟩ := Engine.forall₂_getElem? hfound hplace
  exact ⟨a', ⟨g', hg', ha'⟩, hsame⟩

theorem has (h : FindsAlike st st') (hk : st.Has (Class.engine T) k) : st'.Has (Class.engine T) k := by
  obtain ⟨g, hg, hne⟩ := hk
  obtain ⟨g', hg', hfound⟩ := h T k g hg
  refine ⟨g', hg', fun hnil => hne ?_⟩
  rw [hnil] at hfound
  exact List.forall₂_nil_right_iff.mp hfound

/-- The same pairs lead to the same places. -/
theorem corresponds (h : FindsAlike st st') {pointers pointers' : List Addr} {ids : List (Int32 × Int32)}
    (hnames : List.Forall₂ (st.Names (Class.engine T)) pointers ids)
    (hnames' : List.Forall₂ (st'.Names (Class.engine T)) pointers' ids) :
    List.Forall₂ (Corresponds st st') pointers pointers' := by
  refine Engine.forall₂_of_getElem? (hnames.length_eq.trans hnames'.length_eq.symm) fun i a a' ha ha' => ?_
  obtain ⟨p, hp, hap⟩ := Engine.forall₂_getElem? hnames ha
  obtain ⟨q, hq, haq⟩ := Engine.forall₂_getElem? hnames' ha'
  cases hp.symm.trans hq
  obtain ⟨a₂, ha₂, hsame⟩ := h.names hap
  rwa [haq.unique ha₂]

end FindsAlike

theorem CameBack.findsAlike {st₁ : ObjectStorrage Data} (h : CameBack st st₁) : FindsAlike st st₁ :=
  .of_objects fun k g hg => by
    obtain ⟨g₁, hg₁, hcomps⟩ := h.objects k g hg
    exact ⟨g₁, hg₁, hcomps.imp fun _ _ hcame => hcame.isA⟩

/-! ## What `afterSet` makes of a loaded component -/

/-- The stored camera of a renderer: its id is that of a stored object with a camera. -/
def Filmed (st : ObjectStorrage Data) : Data → Prop
  | .engine (.drawableRenderer c) => st.Has (Class.engine .kamera) c.currentCameraID
  | _ => True

theorem filmed_of_class (h : d.classOf ≠ .engine .drawableRenderer) : Filmed st d := by
  cases d with
  | engine d =>
    cases d with
    | drawableRenderer c => exact absurd rfl h
    | _ => trivial
  | _ => trivial

/-- The class and the pairs of the links of a component. -/
def Data.places (d : Data) : Option (Engine.Class × List (Int32 × Int32)) := d.links.map fun l => (l.1, l.2.2)

theorem Data.places_saved (d : Data) : d.saved.places = d.places := by
  cases d with
  | engine d => cases d <;> rfl
  | _ => rfl

theorem Data.places_asSaved (d : Data) : d.asSaved.places = d.places := by
  cases d with
  | engine d => cases d <;> rfl
  | _ => rfl

/-- The pairs come back, the pointers do not. -/
theorem Came.links (h : Came d d') {T : Engine.Class} {pointers : List Addr} {ids : List (Int32 × Int32)}
    (hlinks : d.links = some (T, pointers, ids)) : d'.links = some (T, [], ids) := by
  have hplaces : d'.places = some (T, ids) := by
    rw [← Data.places_saved, h.saved, Data.places_saved, Data.places_asSaved, Data.places, hlinks, Option.map_some]
  obtain ⟨⟨T', pointers', ids'⟩, hlinks', heq⟩ := Option.map_eq_some_iff.mp hplaces
  cases heq
  have hnone := h.pointers
  rw [Data.pointers, hlinks'] at hnone
  rw [hlinks', show pointers' = [] from hnone]

/-- `afterSet` pushes what the pairs lead to. -/
theorem afterSet_links {find : Engine.Lookup} (own : Engine.Class → List Addr) {T : Engine.Class}
    {pointers found : List Addr} {ids : List (Int32 × Int32)} (hlinks : d.links = some (T, pointers, ids))
    (hfound : ids.mapM (find.resolve T) = .ok found) :
    ∃ d', d.afterSet find own = .ok d' ∧ d'.links = some (T, pointers ++ found, ids) := by
  cases d with
  | engine d =>
    cases d with
    | button c | instancedTeilSprite c | stringRenderer c =>
      cases hlinks
      simp only [Data.afterSet, Engine.Data.afterSet, Engine.Button.afterSet, Engine.InstancedTeilSprite.afterSet,
        Engine.StringRenderer.afterSet, hfound]
      exact ⟨_, rfl, rfl⟩
    | _ => cases hlinks
  | _ => cases hlinks

/-- A transform comes back with its id. -/
theorem Data.transform_of_saved {c : Engine.Transform} (h : d'.saved = (Data.engine (.transform c)).asSaved.saved) :
    ∃ c', d' = .engine (.transform c') ∧ c'.pGOID = c.pGOID := by
  cases d' with
  | engine d' =>
    cases d' with
    | transform c' =>
      simp only [Data.saved, Data.asSaved, trimmed, Engine.Data.saved, Data.engine.injEq, Engine.Data.transform.injEq,
        Engine.Transform.mk.injEq] at h
      exact ⟨c', rfl, h.2.2.2.2.1⟩
    | _ => cases h
  | _ => cases h

theorem Data.instancedSprite_of_saved {c : Engine.InstancedSprite}
    (h : d'.saved = (Data.engine (.instancedSprite c)).asSaved.saved) :
    ∃ c', d' = .engine (.instancedSprite c') ∧ c'.instancenID = c.instancenID := by
  cases d' with
  | engine d' =>
    cases d' with
    | instancedSprite c' =>
      simp only [Data.saved, Data.asSaved, trimmed, Engine.Data.saved, Data.engine.injEq,
        Engine.Data.instancedSprite.injEq, Engine.InstancedSprite.mk.injEq] at h
      exact ⟨c', rfl, h.2.2.2⟩
    | _ => cases h
  | _ => cases h

/-- A renderer comes back with as many button ids as it had buttons. -/
theorem Data.drawableRenderer_of_saved {c : Engine.DrawableRenderer}
    (h : d'.saved = (Data.engine (.drawableRenderer c)).asSaved.saved) :
    ∃ c', d' = .engine (.drawableRenderer c') ∧ c'.buttonGameObjectIDs = c.buttonGameObjectIDs.take c.buttons.length ∧
      c'.allDrawableIDs = c.allDrawableIDs ∧ c'.currentCameraID = c.currentCameraID := by
  cases d' with
  | engine d' =>
    cases d' with
    | drawableRenderer c' =>
      simp only [Data.saved, Data.asSaved, trimmed, Engine.Data.saved, Data.engine.injEq,
        Engine.Data.drawableRenderer.injEq, Engine.DrawableRenderer.mk.injEq] at h
      exact ⟨c', rfl, h.2.2.2.2.2.2.2.1, h.2.2.2.2.2.2.2.2.2.2, h.2.2.2.2.2.1⟩
    | _ => cases h
  | _ => cases h

/-- The classes whose `afterSet` does something. -/
def Class.looksUp : Class → Bool
  | engine T => T ∈ [.transform, .button, .drawableRenderer, .instancedSprite, .instancedTeilSprite, .stringRenderer,
    .stringRendererInstance]
  | _ => false

/-- A component of another class is left as it comes back. -/
theorem Came.quiet (h : Came d d') (hd : d.classOf.looksUp = false) (find : Engine.Lookup)
    (own : Engine.Class → List Addr) : d'.afterSet find own = .ok d' := by
  have hquiet : d'.classOf.looksUp = false := by
    rw [h.classOf]
    cases d with
    | engine d => rwa [Data.asSaved, Data.classOf, classOf_trimmed]
    | _ => rfl
  cases d' with
  | engine d' =>
    cases d' with
    | fileComponent | kamera | sprite | teilSprite | instancedTeilSpriteInstance => rfl
    | _ => cases hquiet
  | _ => rfl

/-- What `afterSet` of an object in `st` looks at. -/
abbrev look (st : ObjectStorrage Data) : Engine.Lookup := fun k T => do
  let o ← st.deref k
  return Data.castTo o.componenten T

/-- A component with links finds what its pairs lead to. -/
theorem CameBack.relinks {st₁ : ObjectStorrage Data} (hback : CameBack st st₁) (hagrees : Agrees st d) (hcame : Came d d')
    {T : Engine.Class} {pointers : List Addr} {ids : List (Int32 × Int32)} (hlinks : d.links = some (T, pointers, ids))
    (own : Engine.Class → List Addr) :
    ∃ e found, d'.afterSet (look st₁) own = .ok e ∧ e.links = some (T, found, ids) ∧
      List.Forall₂ (st₁.Names (Class.engine T)) found ids := by
  have hnames := hagrees T pointers ids hlinks
  obtain ⟨found, hfound⟩ : ∃ found, ids.mapM ((look st₁).resolve T) = .ok found := by
    refine mapM_returns.mpr fun p hp => ?_
    obtain ⟨i, hi⟩ := List.mem_iff_getElem?.mp hp
    obtain ⟨a, _, ha⟩ := Engine.forall₂_getElem? hnames.flip hi
    obtain ⟨a₁, ha₁, _⟩ := hback.findsAlike.names ha
    exact ⟨a₁, resolve_eq_ok.mpr ha₁⟩
  obtain ⟨e, he, helinks⟩ := afterSet_links own (hcame.links hlinks) hfound
  exact ⟨e, found, he, helinks, ((mapM_eq_ok.mp hfound).imp fun p a h => resolve_eq_ok.mp h).flip⟩

/-- The pairs of a component lead to the pointers that `afterSet` makes of them. -/
theorem CameBack.agrees {st₁ : ObjectStorrage Data} (hback : CameBack st st₁) (hagrees : Agrees st d) (hcame : Came d d')
    {own : Engine.Class → List Addr} {e : Data} (he : d'.afterSet (look st₁) own = .ok e) (hsaved : e.saved = d.asSaved.saved) :
    Agrees st₁ e := by
  intro T pointers ids hlinks
  have hplaces : d.places = some (T, ids) := by
    rw [← Data.places_asSaved, ← Data.places_saved, ← hsaved, Data.places_saved, Data.places, hlinks, Option.map_some]
  obtain ⟨⟨T', pointers', ids'⟩, hlinks', heq⟩ := Option.map_eq_some_iff.mp hplaces
  cases heq
  obtain ⟨e', found, he', helinks, hnames⟩ := hback.relinks hagrees hcame hlinks' own
  cases he.symm.trans he'
  cases hlinks.symm.trans helinks
  exact hnames

/-- `afterSet` of every component that came back returns. -/
theorem CameBack.returns {st₁ : ObjectStorrage Data} (hback : CameBack st st₁) {k : Int32} (hg : st.getById k = some g)
    (hlinked : Linked st g d) (hfilmed : Filmed st d) (hcame : Came d d') {g₁ : GameObject Data}
    (hg₁ : st₁.getById k = some g₁) : ∃ e, d'.afterSet (look st₁) (Data.castTo g₁.componenten) = .ok e := by
  have hquiet : d.classOf.looksUp = false → ∃ e, d'.afterSet (look st₁) (Data.castTo g₁.componenten) = .ok e :=
    fun h => ⟨d', hcame.quiet h _ _⟩
  have hres := hlinked.resolvable
  cases d with
  | engine d =>
    cases d with
    | button c | instancedTeilSprite c | stringRenderer c =>
      obtain ⟨e, _, he, _⟩ := hback.relinks hlinked.agrees hcame rfl (Data.castTo g₁.componenten)
      exact ⟨e, he⟩
    | transform c =>
      obtain ⟨c', rfl, hID⟩ := Data.transform_of_saved hcame.saved
      simp only [Data.afterSet, Engine.Data.afterSet, Engine.Transform.afterSet, hID]
      rcases hres with hnone | hhas
      · rw [if_neg (not_not_intro hnone)]
        exact ⟨_, rfl⟩
      · split
        · obtain ⟨a, ha⟩ := first_returns (hback.findsAlike.has hhas)
          rw [show Engine.Lookup.first (look st₁) .transform c.pGOID = .ok a from ha]
          exact ⟨_, rfl⟩
        · exact ⟨_, rfl⟩
    | instancedSprite c =>
      obtain ⟨c', rfl, hIDs⟩ := Data.instancedSprite_of_saved hcame.saved
      obtain ⟨found, hfound⟩ : ∃ found, c.instancenID.mapM ((look st₁).first .transform) = .ok found :=
        mapM_returns.mpr fun ID hID => first_returns (hback.findsAlike.has (hres ID hID))
      simp only [Data.afterSet, Engine.Data.afterSet, Engine.InstancedSprite.afterSet, hIDs, hfound]
      exact ⟨_, rfl⟩
    | drawableRenderer c =>
      obtain ⟨_, hbuttons, hdrawables⟩ := hres
      obtain ⟨c', rfl, hbuttonIDs, hdrawableIDs, hcamera⟩ := Data.drawableRenderer_of_saved hcame.saved
      obtain ⟨buttons, hfoundButtons⟩ : ∃ found, (c.buttonGameObjectIDs.take c.buttons.length).mapM
          ((look st₁).first .button) = .ok found :=
        mapM_returns.mpr fun ID hID => first_returns (hback.findsAlike.has (hbuttons ID (List.mem_of_mem_take hID)))
      obtain ⟨drawables, hfoundDrawables⟩ : ∃ found, c.allDrawableIDs.mapM ((look st₁).resolve .drawable) = .ok found := by
        refine mapM_returns.mpr fun p hp => ?_
        obtain ⟨a, ha⟩ := hdrawables p hp
        obtain ⟨a₁, ha₁, _⟩ := hback.findsAlike.names ha
        exact ⟨a₁, resolve_eq_ok.mpr ha₁⟩
      obtain ⟨camera, hfoundCamera⟩ := first_returns (hback.findsAlike.has hfilmed)
      simp only [Data.afterSet, Engine.Data.afterSet, Engine.DrawableRenderer.afterSet, hbuttonIDs, hdrawableIDs, hcamera,
        hfoundButtons, hfoundDrawables, ok_bind]
      rw [show Engine.Lookup.first (look st₁) .kamera c.currentCameraID = .ok camera from hfoundCamera]
      exact ⟨_, rfl⟩
    | stringRendererInstance c =>
      obtain ⟨g₂, hg₂, hfound⟩ := hback.findsAlike .transform k g hg
      cases hg₁.symm.trans hg₂
      obtain ⟨a, rest, hcons⟩ : ∃ a rest, g₁.findComponents (Class.engine .transform) = a :: rest := by
        refine List.exists_cons_of_ne_nil fun hnil => hres ?_
        rw [hnil] at hfound
        exact List.forall₂_nil_right_iff.mp hfound
      have hown : Data.castTo g₁.componenten .transform = a :: rest := hcons
      have hclass := hcame.classOf
      cases d' with
      | engine d' =>
        cases d' with
        | stringRendererInstance c' =>
          simp only [Data.afterSet, Engine.Data.afterSet, Engine.StringRenderer.Instance.afterSet, hown]
          exact ⟨_, rfl⟩
        | _ => cases hclass
      | _ => cases hclass
    | _ => exact hquiet rfl
  | _ => exact hquiet rfl

end SceenViewer
