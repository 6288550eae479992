import BackupEngine.Application.Displayer
import BackupEngine.Lemmas.Descent

/-!
# What the display leaves alone

A component that is added or written changes no id an object carries. The objects that the display adds to a storage are
linked to one another only, so that every object that was there keeps its parent and its children.
-/

namespace Serializer

open Cpp

variable {κ C : Type} [ComponentClasses κ C]

/-- A component is pushed behind those that are there: a new one of the class, which was given what it requires. -/
theorem GameObject.addComponent_ok {me me' : GameObject κ} {T : C} {w w' : World} (h : me.addComponent T w = .ok (me', w')) :
    ∃ toSet new storage c, (∀ name ∈ ComponentClasses.getRequirements κ T, me.findComponentsNamed name ≠ []) ∧
      ComponentClasses.registered (ComponentClasses.typeName κ T) = some new ∧
      ComponentClasses.setRequirements toSet (new storage) = .ok c.data ∧
      me' = { me with componenten := me.componenten ++ [c] } := by
  unfold GameObject.addComponent at h
  split at h
  · cases h
  · obtain ⟨toSet, hrequired, h⟩ := bind_eq_ok.mp h
    obtain ⟨⟨c, w₁⟩, hcreate, h⟩ := bind_eq_ok.mp h
    obtain ⟨data, hset, h⟩ := bind_eq_ok.mp h
    cases h
    unfold createInstance at hcreate
    split at hcreate
    · cases hcreate
    · rename_i new hnew
      cases hcreate
      refine ⟨toSet, new, _, _, fun name hname hnone => ?_, hnew, hset, rfl⟩
      obtain ⟨_, ha⟩ := mapM_returns.mp ⟨_, hrequired⟩ name hname
      rw [hnone] at ha
      cases ha

namespace ObjectStorrage

variable {base st st' : ObjectStorrage κ}

/-- The objects of two storages carry the same ids. -/
structure SameLinks (st st' : ObjectStorrage κ) : Prop where
  counter : st'.counter = st.counter
  links : ∀ k, (st'.getById k).map GameObject.links = (st.getById k).map GameObject.links

/-- An object is replaced by one with the same links. -/
theorem SameLinks.store {k : Int32} {g o : GameObject κ} (hk : st.getById k = some o) (hlinks : g.links = o.links) :
    SameLinks st (st.store k g) where
  counter := rfl
  links := by
    intro j
    rw [getById_store hk]
    split
    · rename_i hkj
      rw [← hkj, hk, Option.map_some, Option.map_some, hlinks]
    · rfl

/-- A write to a component. -/
theorem SameLinks.update {p : Pointer} {f : κ → Comp κ} (h : st.update p f = .ok st') : SameLinks st st' := by
  obtain ⟨me, hme, h⟩ := bind_eq_ok.mp h
  obtain ⟨_, _, h⟩ := bind_eq_ok.mp h
  obtain ⟨_, _, h⟩ := bind_eq_ok.mp h
  obtain ⟨_, _, h⟩ := bind_eq_ok.mp h
  obtain ⟨_, _, h⟩ := bind_eq_ok.mp h
  cases h
  exact .store (deref_eq_ok.mp hme) rfl

/-- A component more. -/
theorem SameLinks.addComponent {this : Int32} {T : C} {w w' : World} (h : st.addComponent this T w = .ok (st', w')) :
    SameLinks st st' := by
  obtain ⟨me, hme, h⟩ := bind_eq_ok.mp h
  obtain ⟨⟨me', w₁⟩, hadd, h⟩ := bind_eq_ok.mp h
  cases h
  obtain ⟨_, _, _, c, _, _, _, rfl⟩ := GameObject.addComponent_ok hadd
  exact .store (deref_eq_ok.mp hme) rfl

namespace SameLinks

/-- Every object is there, with its links. -/
theorem get (h : SameLinks st st') {k : Int32} {g : GameObject κ} (hk : st.getById k = some g) :
    ∃ g', st'.getById k = some g' ∧ g'.links = g.links := by
  have := h.links k
  rw [hk, Option.map_some] at this
  exact Option.map_eq_some_iff.mp this

/-- The relation goes both ways. -/
theorem symm (h : SameLinks st st') : SameLinks st' st := ⟨h.counter.symm, fun k => (h.links k).symm⟩

/-- The ids agree as they did. -/
theorem hierarchy (h : SameLinks st st') (hst : st.Hierarchy) : st'.Hierarchy := by
  refine hst.of_links h.links (h.counter ▸ hst.counter) fun k g hk => ?_
  obtain ⟨o, ho, _⟩ := h.symm.get hk
  exact h.counter ▸ (hst.ids k o ho).2

/-- The parents are the same. -/
theorem parrentOf (h : SameLinks st st') : st'.parrentOf = st.parrentOf := by
  funext k
  have := congrArg (Option.map fun l => l.2.1) (h.links k)
  rwa [Option.map_map, Option.map_map] at this

end SameLinks

/-- `st` has the objects of `base` with the ids they carry, and beside others the objects under the ids `loose`, which have
no parent. -/
structure Adds (base st : ObjectStorrage κ) (loose : List Int32) : Prop where
  hierarchy : st.Hierarchy
  old : ∀ k g, base.getById k = some g → ∃ g', st.getById k = some g' ∧ g'.links = g.links
  new : ∀ k ∈ loose, base.getById k = none ∧ st.parrentOf k = some EMPTY_ID

namespace Adds

variable {loose loose' : List Int32}

/-- Nothing was added. -/
theorem refl (h : st.Hierarchy) : Adds st st [] := ⟨h, fun _ g hk => ⟨g, hk, rfl⟩, nofun⟩

/-- A step that leaves the links alone. -/
theorem same (h : Adds base st loose) (hsame : SameLinks st st') : Adds base st' loose := by
  refine ⟨hsame.hierarchy h.hierarchy, fun k g hk => ?_, fun k hk => ?_⟩
  · obtain ⟨g₁, hg₁, hlinks₁⟩ := h.old k g hk
    obtain ⟨g₂, hg₂, hlinks₂⟩ := hsame.get hg₁
    exact ⟨g₂, hg₂, hlinks₂.trans hlinks₁⟩
  · rw [hsame.parrentOf]
    exact h.new k hk

/-- A new object is a loose one, with an id that none of the others has. -/
theorem createGameObject (h : Adds base st loose) {w w' : World} {ID : Int32}
    (hcreate : st.createGameObject w = .ok ((ID, st'), w')) : Adds base st' (ID :: loose) ∧ ID ∉ loose := by
  obtain ⟨_, hfresh, _, b, hget⟩ := createGameObject_spec h.hierarchy hcreate
  obtain ⟨hnone, _, hup⟩ := parrentOf_createGameObject h.hierarchy hcreate
  have hnot : ID ∉ loose := by
    intro hmem
    have := (h.new ID hmem).2
    rw [hnone] at this
    cases this
  refine ⟨⟨h.hierarchy.createGameObject hcreate, fun k g hk => ?_, fun k hk => ?_⟩, hnot⟩
  · obtain ⟨g', hg', hlinks⟩ := h.old k g hk
    have hne : ID ≠ k := by
      rintro rfl
      rw [hfresh] at hg'
      cases hg'
    exact ⟨g', by rw [hget, if_neg hne, hg'], hlinks⟩
  · rcases List.mem_cons.mp hk with rfl | hk
    · refine ⟨?_, by rw [hup, Function.update_self]⟩
      cases hb : base.getById k with
      | none => rfl
      | some g =>
        obtain ⟨g', hg', _⟩ := h.old k g hb
        rw [hfresh] at hg'
        cases hg'
    · have hne : k ≠ ID := fun heq => hnot (heq ▸ hk)
      refine ⟨(h.new k hk).1, ?_⟩
      rw [hup, Function.update_of_ne hne]
      exact (h.new k hk).2

/-- A loose object that is put below another one. -/
theorem setParrent (h : Adds base st loose) {a p : Int32} (ha : a ∈ loose) (hp : p ∈ loose)
    (hset : st.setParrent a p = .ok st') (hsub : loose' ⊆ loose) (hnot : a ∉ loose') : Adds base st' loose' := by
  obtain ⟨g, hg, hempty⟩ := Option.map_eq_some_iff.mp (h.new a ha).2
  obtain ⟨o, ho, _⟩ := Option.map_eq_some_iff.mp (h.new p hp).2
  rw [setParrent_eq h.hierarchy.agrees hg ho] at hset
  obtain ⟨hst', hup⟩ := parrentOf_setParrentID h.hierarchy hg (.inr ⟨o, ho⟩) hset
  obtain ⟨st'', hok, _, hget⟩ := setParrentID_spec h.hierarchy.agrees hg (.inr ⟨o, ho⟩)
  rw [hok] at hset
  cases hset
  refine ⟨hst', fun k b hk => ?_, fun k hk => ⟨(h.new k (hsub hk)).1, ?_⟩⟩
  · obtain ⟨b', hb', hlinks⟩ := h.old k b hk
    have hold : ∀ {j}, j ∈ loose → k ≠ j := by
      rintro j hj rfl
      rw [(h.new k hj).1] at hk
      cases hk
    refine ⟨_, by rw [hget, hb', Option.map_some], ?_⟩
    rw [← hlinks, reparented, if_neg (hold ha), if_neg (hold hp), if_neg (hempty ▸ h.hierarchy.ne_empty hb'),
      List.append_nil]
  · have hne : k ≠ a := fun heq => hnot (heq ▸ hk)
    rw [hup, Function.update_of_ne hne]
    exact (h.new k (hsub hk)).2

end Adds

end ObjectStorrage

end Serializer

namespace SceenViewer

open Cpp Serializer

open ObjectStorrage (Adds SameLinks)

open Forest (Grounded Yields)

variable {base : ObjectStorrage Data} {s s' : Scene} {loose : List Int32}

/-! ## Steps of the display -/

namespace Scene

/-- `addComponent` in the scene. -/
theorem addComponent_same {this : Int32} {T : Class} {p : Pointer} (h : s.addComponent this T = .ok (p, s')) :
    SameLinks s.storrageInstance s'.storrageInstance := by
  obtain ⟨⟨st, w⟩, hadd, h⟩ := Cpp.bind_eq_ok.mp h
  obtain ⟨p', _, h⟩ := Cpp.bind_eq_ok.mp h
  cases h
  exact .addComponent hadd

/-- A write through a pointer in the scene. -/
theorem update_same {p : Pointer} {f : Data → Comp Data} (h : s.update p f = .ok s') :
    SameLinks s.storrageInstance s'.storrageInstance := by
  obtain ⟨st, hupdate, h⟩ := Cpp.bind_eq_ok.mp h
  cases h
  exact .update hupdate

/-- `createGameObject` in the scene. -/
theorem createGameObject_adds (hs : Adds base s.storrageInstance loose) {ID : Int32}
    (h : s.createGameObject = .ok (ID, s')) : Adds base s'.storrageInstance (ID :: loose) ∧ ID ∉ loose := by
  obtain ⟨⟨⟨ID', st⟩, w⟩, hcreate, h⟩ := Cpp.bind_eq_ok.mp h
  cases h
  exact hs.createGameObject hcreate

/-- `setParrent` in the scene. -/
theorem setParrent_adds (hs : Adds base s.storrageInstance loose) {a p : Int32} (ha : a ∈ loose) (hp : p ∈ loose)
    (h : s.setParrent a p = .ok s') {loose' : List Int32} (hsub : loose' ⊆ loose) (hnot : a ∉ loose') :
    Adds base s'.storrageInstance loose' := by
  obtain ⟨st, hset, h⟩ := Cpp.bind_eq_ok.mp h
  cases h
  exact hs.setParrent ha hp hset hsub hnot

end Scene

namespace Displayer

/-- `temp[i]` is a loose object. -/
theorem newTemp_adds (hs : Adds base s.storrageInstance loose) {temp : Int32} {p : Pointer}
    (h : newTemp s = .ok (temp, p, s')) : Adds base s'.storrageInstance (temp :: loose) ∧ temp ∉ loose := by
  obtain ⟨⟨temp', s₁⟩, hcreate, h⟩ := Cpp.bind_eq_ok.mp h
  obtain ⟨⟨p', s₂⟩, hadd, h⟩ := Cpp.bind_eq_ok.mp h
  cases h
  obtain ⟨hs₁, hnot⟩ := Scene.createGameObject_adds hs hcreate
  exact ⟨hs₁.same (Scene.addComponent_same hadd), hnot⟩

/-- The button of a cell takes no object. -/
theorem addButtonOf_adds {d : Displayer} (hs : Adds base s.storrageInstance loose) {temp : Int32} {p : Pointer}
    (h : d.addButtonOf temp p s = .ok s') : Adds base s'.storrageInstance loose := by
  obtain ⟨⟨tempInstance, s₁⟩, hadd, h⟩ := Cpp.bind_eq_ok.mp h
  obtain ⟨_, _, h⟩ := Cpp.bind_eq_ok.mp h
  obtain ⟨s₂, hrect, h⟩ := Cpp.bind_eq_ok.mp h
  obtain ⟨s₃, hscale, h⟩ := Cpp.bind_eq_ok.mp h
  obtain ⟨_, _, h⟩ := Cpp.bind_eq_ok.mp h
  obtain ⟨s₄, hinstance, h⟩ := Cpp.bind_eq_ok.mp h
  obtain ⟨⟨button, s₅⟩, hbutton, h⟩ := Cpp.bind_eq_ok.mp h
  obtain ⟨_, _, h⟩ := Cpp.bind_eq_ok.mp h
  obtain ⟨s₆, haddButton, h⟩ := Cpp.bind_eq_ok.mp h
  obtain ⟨⟨klicker, s₇⟩, hklicker, h⟩ := Cpp.bind_eq_ok.mp h
  obtain ⟨_, _, h⟩ := Cpp.bind_eq_ok.mp h
  obtain ⟨s₈, honklick, h⟩ := Cpp.bind_eq_ok.mp h
  obtain ⟨_, _, h⟩ := Cpp.bind_eq_ok.mp h
  have hs₄ := (((hs.same (Scene.addComponent_same hadd)).same (Scene.update_same hrect)).same
    (Scene.update_same hscale)).same (Scene.update_same hinstance)
  have hs₇ := ((hs₄.same (Scene.addComponent_same hbutton)).same (Scene.update_same haddButton)).same
    (Scene.addComponent_same hklicker)
  exact (hs₇.same (Scene.update_same honklick)).same (Scene.update_same h)

/-- Neither does its text. -/
theorem addTextOf_adds {d : Displayer} (hs : Adds base s.storrageInstance loose) {it temp : Int32} {p : Pointer}
    (h : d.addTextOf it temp p s = .ok s') : Adds base s'.storrageInstance loose := by
  obtain ⟨⟨textInstance, s₁⟩, hadd, h⟩ := Cpp.bind_eq_ok.mp h
  obtain ⟨_, _, h⟩ := Cpp.bind_eq_ok.mp h
  obtain ⟨_, _, h⟩ := Cpp.bind_eq_ok.mp h
  obtain ⟨s₂, hstring, h⟩ := Cpp.bind_eq_ok.mp h
  exact ((hs.same (Scene.addComponent_same hadd)).same (Scene.update_same hstring)).same (Scene.update_same h)

/-- The three objects of a cell are linked to one another. -/
theorem addCell_adds {d : Displayer} (hs : Adds base s.storrageInstance []) {counter sidecount : Int} {it : Int32}
    (h : d.addCell counter sidecount it s = .ok s') : Adds base s'.storrageInstance [] := by
  obtain ⟨⟨temp0, tempTransform0, s₁⟩, h0, h⟩ := Cpp.bind_eq_ok.mp h
  obtain ⟨⟨temp1, tempTransform1, s₂⟩, h1, h⟩ := Cpp.bind_eq_ok.mp h
  obtain ⟨⟨temp2, tempTransform2, s₃⟩, h2, h⟩ := Cpp.bind_eq_ok.mp h
  obtain ⟨s₄, hset1, h⟩ := Cpp.bind_eq_ok.mp h
  obtain ⟨s₅, hparrent1, h⟩ := Cpp.bind_eq_ok.mp h
  obtain ⟨s₆, hset2, h⟩ := Cpp.bind_eq_ok.mp h
  obtain ⟨s₇, hparrent2, h⟩ := Cpp.bind_eq_ok.mp h
  obtain ⟨_, _, h⟩ := Cpp.bind_eq_ok.mp h
  obtain ⟨_, _, h⟩ := Cpp.bind_eq_ok.mp h
  obtain ⟨_, _, h⟩ := Cpp.bind_eq_ok.mp h
  obtain ⟨s₈, hposition, h⟩ := Cpp.bind_eq_ok.mp h
  obtain ⟨s₉, hscale, h⟩ := Cpp.bind_eq_ok.mp h
  obtain ⟨s₁₀, hbutton, h⟩ := Cpp.bind_eq_ok.mp h
  obtain ⟨hs₁, _⟩ := newTemp_adds hs h0
  obtain ⟨hs₂, hne1⟩ := newTemp_adds hs₁ h1
  obtain ⟨hs₃, hne2⟩ := newTemp_adds hs₂ h2
  have hs₄ : Adds base s₄.storrageInstance [temp2, temp0] :=
    Scene.setParrent_adds hs₃ (by simp) (by simp) hset1 (by simp) (by simp at hne1 hne2 ⊢; tauto)
  have hs₆ : Adds base s₆.storrageInstance [] :=
    Scene.setParrent_adds (hs₄.same (Scene.update_same hparrent1)) (by simp) (by simp) hset2 (by simp) (by simp)
  have hs₉ := ((hs₆.same (Scene.update_same hparrent2)).same (Scene.update_same hposition)).same (Scene.update_same hscale)
  exact addTextOf_adds (addButtonOf_adds hs₉ hbutton) h

/-! ## The recursion -/

/-- The inspected storage is `base`, or the singleton with objects added to `base`. -/
def Sees (d : Displayer) (base : ObjectStorrage Data) (s : Scene) : Prop :=
  match d.inspectedSceenStorrage with
  | some inspected => inspected = base
  | none => Adds base s.storrageInstance []

variable {d : Displayer}

/-- A cell more leaves what the display looks at as it was. -/
theorem Sees.addCell (hs : d.Sees base s) {counter sidecount : Int} {it : Int32}
    (h : d.addCell counter sidecount it s = .ok s') : d.Sees base s' := by
  unfold Sees at hs ⊢
  split at hs
  · exact hs
  · exact addCell_adds hs h

/-- What is read of an object of `base` is what it has there. -/
theorem Sees.childrenIds (hs : d.Sees base s) {k : Int32} {g g' : GameObject Data} (hk : base.getById k = some g)
    (hk' : (d.inspected s).getById k = some g') : g'.childrenIds = g.childrenIds := by
  unfold Sees at hs
  unfold inspected at hk'
  split at hs
  · rename_i hsome
    rw [hsome, Option.getD_some, hs, hk] at hk'
    cases hk'
    rfl
  · rename_i hnone
    rw [hnone, Option.getD_none] at hk'
    obtain ⟨o, ho, hlinks⟩ := hs.old k g hk
    rw [hk'] at ho
    cases ho
    exact congrArg (fun l => l.2.2) hlinks

/-- The loop over the children ends when the calls for them do. -/
theorem addChildren_yields {call : Displayed → Comp (Option (Int × Scene))} {counter sidecount : Int} {children : List Int32}
    (hcall : ∀ a : Displayed, a.it ∈ children → d.Sees base a.scene → Yields (fun r => d.Sees base r.2) (call a))
    (hs : d.Sees base s) : Yields (fun r => d.Sees base r.2) (addChildren call counter sidecount children s) := by
  refine .each (fun r : Int × Scene => d.Sees base r.2) (fun r ID hID hr => ?_) hs
  refine .bind fun counter _ => .bind fun sidecount _ => ?_
  refine (hcall { counter, sidecount, it := ID, scene := r.2 } hID hr).andThen fun c hc => ?_
  exact .bind fun _ _ => .bind fun _ _ => .value hc

/-- `addGameobjectDisplayer` ends on every object of a forest. -/
theorem addGameobjectDisplayer_ends (h : base.Hierarchy) (hforest : Grounded base.parrentOf) {a : Displayed}
    (hs : d.Sees base a.scene) {g : GameObject Data} (hit : base.getById a.it = some g) :
    ∃ depth, d.addGameobjectDisplayer depth a ≠ .ok none := by
  obtain ⟨rank, hrank⟩ := h.agrees.rank hforest
  have hends : Yields (fun r : Int × Scene => d.Sees base r.2) (d.addGameobjectDisplayer (rank a.it + 1) a) := by
    refine Forest.within_yields (fun a : Displayed => d.Sees base a.scene ∧ ∃ g, base.getById a.it = some g)
      (fun _ (r : Int × Scene) => d.Sees base r.2) (fun a => rank a.it) ?_ _ a ⟨hs, g, hit⟩ (Nat.lt_succ_self _)
    rintro call a ⟨hs, g, hg⟩ ih
    refine .bind fun s hcell => .bind fun me hme => ?_
    have hchildren := (hs.addCell hcell).childrenIds hg (ObjectStorrage.deref_eq_ok.mp hme)
    refine (addChildren_yields (fun b hb hbs => ?_) (hs.addCell hcell)).andThen fun c hc => .value hc
    rw [hchildren] at hb
    obtain ⟨o, ho⟩ := h.childs _ g hg _ hb
    exact ih b ⟨hbs, o, ho⟩ (hrank _ g _ o hg hb ho)
  exact ⟨_, hends.1⟩

end Displayer

end SceenViewer
