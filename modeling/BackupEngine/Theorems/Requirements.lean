import BackupEngine.Lemmas.AddComponent

/-!
# What components require

The components of an object that is built by calls of `addComponent`. Required classes are looked for by the exact name of
the type, lonly ones by a dynamic cast; none of the lonly classes has a derived class, and different classes have different
names, so the two rules never disagree.
-/

namespace Serializer

open Cpp Transition

variable {κ C : Type} [ComponentClasses κ C]

open ComponentClasses (typeName classOf isA getIsLonly getRequirements registered)

namespace Building

/-- The pointers are to one component for each class that is required, of exactly that name and in order. -/
def Meets (g : GameObject κ) (T : C) (toSet : List Addr) : Prop :=
  List.Forall₂ (fun name a => ∃ d ∈ g.componenten, d.addr = a ∧ typeName κ (classOf d.data) = name) (getRequirements κ T)
    toSet

/-- What holds of an object that was built from an empty list. -/
structure Built (s : Building κ) : Prop where
  /-- A pointer names one component of the list. -/
  nodup : (s.gameobject.componenten.map Component.addr).Nodup
  allocated : ∀ c ∈ s.gameobject.componenten, c.addr < s.world.next
  /-- What a component requires was there before it. -/
  required : ∀ (i : Nat) (c : Component κ), s.gameobject.componenten[i]? = some c →
    ∀ name ∈ getRequirements κ (classOf c.data), ∃ (j : Nat) (d : Component κ), j < i ∧
      s.gameobject.componenten[j]? = some d ∧ typeName κ (classOf d.data) = name
  /-- There is at most one component of a lonly class, those of derived classes included. -/
  lonly : ∀ T : C, getIsLonly κ T = true → (s.gameobject.findComponents T).length ≤ 1
  /-- `setRequirements` was called once for each component, with one component for each class it requires, in order. -/
  toSet : List.Forall₂ (fun (c : Component κ) toSet => Meets s.gameobject (classOf c.data) toSet) s.gameobject.componenten
    s.toSet

variable {s t : Building κ}

theorem Built.empty {g : GameObject κ} {w : World} (h : g.componenten = []) : Built { gameobject := g, world := w } where
  nodup := by simp [h]
  allocated := by simp [h]
  required := by simp [h]
  lonly := by simp [GameObject.findComponents, h]
  toSet := by simp [h]

/-- The first component of a name. -/
theorem mem_of_findComponentsNamed {g : GameObject κ} {name : List UInt8} {a : Addr}
    (h : (g.findComponentsNamed name).head? = some a) :
    ∃ d ∈ g.componenten, d.addr = a ∧ typeName κ (classOf d.data) = name := by
  obtain ⟨d, hd, ha⟩ := List.mem_map.mp (List.mem_of_mem_head? h)
  obtain ⟨hmem, hname⟩ := List.mem_filter.mp hd
  exact ⟨d, hmem, ha, beq_iff_eq.mp hname⟩

theorem Meets.mem {g : GameObject κ} {T : C} {toSet : List Addr} (h : Meets g T toSet) {name : List UInt8}
    (hname : name ∈ getRequirements κ T) : ∃ d ∈ g.componenten, typeName κ (classOf d.data) = name := by
  unfold Meets at h
  generalize getRequirements κ T = names at h hname
  induction h with
  | nil => cases hname
  | cons ha _ ih =>
    rcases List.mem_cons.mp hname with rfl | hname
    · obtain ⟨d, hd, _, hd'⟩ := ha
      exact ⟨d, hd, hd'⟩
    · exact ih hname

/-- The components that are there stay where they are. -/
theorem Meets.mono {g g' : GameObject κ} {T : C} {toSet : List Addr} (h : Meets g T toSet)
    (hg : g.componenten ⊆ g'.componenten) : Meets g' T toSet :=
  h.imp fun _ _ ⟨d, hd, ha⟩ => ⟨d, hg hd, ha⟩

/-- A component that was given what it requires is pushed. -/
theorem Built.pushed (hlawful : LawfulClasses κ) (h : Built s) {b : Bool} {data : κ} {toSet : List Addr}
    (hlonly : getIsLonly κ (classOf data) = true → s.gameobject.findComponents (classOf data) = [])
    (hmeets : Meets s.gameobject (classOf data) toSet) :
    Built (Building.pushed s ⟨s.world.next, b, data⟩ { s.world with next := s.world.next + 1 } toSet) := by
  have hsub : s.gameobject.componenten ⊆ (Building.pushed s ⟨s.world.next, b, data⟩
      { s.world with next := s.world.next + 1 } toSet).gameobject.componenten := List.subset_append_left _ _
  refine ⟨?_, ?_, ?_, ?_, ?_⟩
  · simp only [Building.pushed, List.map_append, List.map_singleton]
    rw [← List.concat_eq_append]
    refine h.nodup.concat fun hmem => ?_
    obtain ⟨c, hc, heq⟩ := List.mem_map.mp hmem
    exact Nat.lt_irrefl _ (heq ▸ h.allocated c hc)
  · intro c hc
    rcases List.mem_append.mp hc with hc | hc
    · exact Nat.lt_succ_of_lt (h.allocated c hc)
    · cases List.mem_singleton.mp hc
      exact Nat.lt_succ_self _
  · intro i c hi name hname
    have hold : ∀ {j d}, s.gameobject.componenten[j]? = some d → (Building.pushed s ⟨s.world.next, b, data⟩
        { s.world with next := s.world.next + 1 } toSet).gameobject.componenten[j]? = some d := fun hj =>
      (List.getElem?_append_left (List.getElem?_eq_some_iff.mp hj).1).trans hj
    rcases Nat.lt_or_ge i s.gameobject.componenten.length with hlt | hge
    · obtain ⟨j, d, hji, hj, hd⟩ := h.required i c ((List.getElem?_append_left hlt).symm.trans hi) name hname
      exact ⟨j, d, hji, hold hj, hd⟩
    · rw [Building.pushed, List.getElem?_append_right hge] at hi
      obtain ⟨_, rfl⟩ := List.getElem?_eq_some_iff.mp hi
      rw [List.getElem_singleton] at hname
      obtain ⟨d, hd, hdname⟩ := hmeets.mem hname
      obtain ⟨j, hj⟩ := List.mem_iff_getElem?.mp hd
      exact ⟨j, d, Nat.lt_of_lt_of_le (List.getElem?_eq_some_iff.mp hj).1 hge, hold hj, hdname⟩
  · intro T hT
    simp only [GameObject.findComponents, Building.pushed, List.filter_append, List.map_append, List.length_append]
    cases hisA : isA κ T (classOf data) with
    | false => simpa [hisA, GameObject.findComponents] using h.lonly T hT
    | true =>
      obtain rfl := hlawful.leaf T (classOf data) hT hisA
      have hnone := hlonly hT
      rw [GameObject.findComponents] at hnone
      simp [hnone, hisA]
  · refine List.rel_append (h.toSet.imp fun _ _ hc => hc.mono hsub) (.cons (hmeets.mono hsub) .nil)

/-- A call for a registered class, whether it throws or not. -/
theorem Built.step (hlawful : LawfulClasses κ) (h : Built s) {T : C} (hstep : machine.Step s T t) : Built t := by
  obtain ⟨hregistered, hnext⟩ := hstep
  simp only [machine] at hnext
  rcases addComponent_cases hlawful hregistered s with hthrown | ⟨toSet, data, hok, rfl, hlonly, hmet⟩
  · rw [hthrown] at hnext
    cases hnext
    exact h
  · rw [hok] at hnext
    cases hnext
    exact h.pushed hlawful hlonly (hmet.imp fun _ _ ha => mem_of_findComponentsNamed ha)

/-- Every object that is built from an empty list. -/
theorem built_of_run (hlawful : LawfulClasses κ) {g : GameObject κ} {w : World} (hempty : g.componenten = []) {Ts : List C}
    (h : Run machine { gameobject := g, world := w } Ts s) : Built s :=
  h.invariant (fun _ s => Built s) (.empty hempty) fun _ _ _ _ hs hstep => hs.step hlawful hstep

/-- Where only the result counts, the statements are those of `GameObject.addComponent`, which the storages call. -/
theorem addComponent_eq (T : C) (s : Building κ) :
    (match (addComponent T).run s with
      | .ok _ t => .ok (t.gameobject, t.world)
      | .error e _ => .error e) = s.gameobject.addComponent T s.world := by
  rw [run_addComponent, GameObject.addComponent]
  by_cases hlonly : getIsLonly κ T = true ∧ s.gameobject.findComponents T ≠ []
  · rw [if_pos hlonly, if_pos (by simpa using hlonly)]
    rfl
  · rw [if_neg hlonly, if_neg (by simpa using hlonly)]
    change _ = ((getRequirements κ T).mapM fun name => required name s.gameobject) >>= _
    cases (getRequirements κ T).mapM fun name => required name s.gameobject with
    | error e => rfl
    | ok toSet =>
      simp only [ok_bind]
      cases Serializer.createInstance (κ := κ) (typeName κ T) s.world with
      | error e => rfl
      | ok r =>
        obtain ⟨c, world⟩ := r
        simp only [ok_bind]
        cases ComponentClasses.setRequirements toSet c.data <;> rfl

end Building

end Serializer

namespace SceenViewer

open Cpp Serializer Transition

/-! ## The classes of the program -/

/-- The classes to which `setRequirements` casts the pointers it is given, without a check. -/
def Class.casts : Class → List Class
  | .engine .kamera | .engine .button | .engine .sprite | .engine .teilSprite | .engine .instancedTeilSpriteInstance
  | .engine .stringRendererInstance | .dragMover => [.engine .transform]
  | .buttonChecker => [.engine .drawableRenderer]
  | .objectKlicker => [.engine .instancedTeilSpriteInstance]
  | _ => []

/-- A class requires what it casts to. -/
theorem Class.getRequirements_eq (T : Class) : T.getRequirements = T.casts.map typeName := by
  cases T with
  | engine T => cases T <;> rfl
  | _ => rfl

/-- All classes. -/
def Class.all : List Class :=
  [.engine .fileComponent, .engine .transform, .engine .kamera, .engine .button, .engine .buttonActor, .engine .drawable,
    .engine .drawableRenderer, .engine .sprite, .engine .teilSprite, .engine .instancedSprite,
    .engine .instancedTeilSprite, .engine .instancedTeilSpriteInstance, .engine .stringRenderer,
    .engine .stringRendererInstance, .eventListener, .dragMover, .buttonChecker, .objectKlicker]

theorem Class.mem_all (T : Class) : T ∈ all := by
  cases T with
  | engine T => cases T <;> decide
  | _ => decide

/-- Different classes have different names. -/
theorem Class.typeName_injective (T S : Class) (h : T.typeName = S.typeName) : T = S :=
  List.inj_on_of_nodup_map (show (all.map typeName).Nodup by decide) T.mem_all S.mem_all h

/-- No class is derived from a lonly one. -/
theorem Class.leaf (T S : Class) (hT : T.getIsLonly = true) (h : T.isA S = true) : S = T := by
  have hall : all.all (fun T => all.all fun S => !T.getIsLonly || !T.isA S || S == T) = true := by decide
  simpa [hT, h] using List.all_eq_true.mp (List.all_eq_true.mp hall T T.mem_all) S S.mem_all

/-- `setRequirements` reads the first pointer at most, and only where a class is required. -/
theorem Data.sets {toSet : List Addr} {d : Data} (h : toSet.length = d.classOf.getRequirements.length) :
    ∃ d', d.setRequirements toSet = .ok d' := by
  rcases toSet with _ | ⟨a, toSet⟩
  · cases d with
    | engine d =>
      cases d with
      | kamera | button | sprite | teilSprite | instancedTeilSpriteInstance | stringRendererInstance => cases h
      | _ => exact ⟨_, rfl⟩
    | _ => cases h
  · cases d with
    | engine d => cases d <;> exact ⟨_, rfl⟩
    | _ => exact ⟨_, rfl⟩

theorem lawfulClasses : LawfulClasses Data where
  create := fun _ _ s h => (Data.registered_blank h s).1
  sets := fun toSet d h => by
    obtain ⟨d', hd'⟩ := Data.sets h
    exact ⟨d', hd', (Data.setRequirements_keeps hd').1⟩
  leaf := Class.leaf
  typeName := Class.typeName_injective

open Serializer.Building

/-- What `setRequirements` was given is for each component of exactly the classes it casts to. -/
def CastsRight (s : Building Data) : Prop :=
  List.Forall₂ (fun (c : Component Data) toSet => List.Forall₂ (fun S a => ∃ d ∈ s.gameobject.componenten, d.addr = a ∧
    d.data.classOf = S) c.data.classOf.casts toSet) s.gameobject.componenten s.toSet

theorem castsRight_of_built {s : Building Data} (h : s.Built) : CastsRight s := by
  refine h.toSet.imp fun c toSet hc => ?_
  have hc : List.Forall₂ (fun name a => ∃ d ∈ s.gameobject.componenten, d.addr = a ∧ d.data.classOf.typeName = name)
      c.data.classOf.getRequirements toSet := hc
  rw [Class.getRequirements_eq, List.forall₂_map_left_iff] at hc
  exact hc.imp fun S a ⟨d, hd, ha, hname⟩ => ⟨d, hd, ha, Class.typeName_injective _ _ hname⟩

/-- In every object that is built from an empty list by calls of `addComponent` that return or throw: the requirements are
met by components that were there before, there is at most one component of a lonly class, the casts of `setRequirements` are
right, and the next call that throws changes nothing. -/
theorem requirements_met {g : GameObject Data} {w : World} (hempty : g.componenten = []) {Ts : List Class}
    {s : Building Data} (h : Run machine { gameobject := g, world := w } Ts s) :
    Built s ∧ CastsRight s ∧
      ∀ T : Class, (Data.registered T.typeName).isSome → ∀ e t, (addComponent T).run s = .error e t → e = .thrown ∧ t = s := by
  have hbuilt := built_of_run lawfulClasses hempty h
  refine ⟨hbuilt, castsRight_of_built hbuilt, fun T hT e t herror => ?_⟩
  rcases addComponent_cases lawfulClasses hT s with hthrown | ⟨_, _, hok, _⟩
  · cases herror.symm.trans hthrown
    exact ⟨rfl, rfl⟩
  · cases herror.symm.trans hok

/-- A button is added before and after the transform it requires, and a second transform. -/
def buttonAndTransform : List Class := [.engine .button, .engine .transform, .engine .transform, .engine .button]

theorem requirements_met_button : ∃ s : Building Data,
    Run machine { gameobject := (GameObject.new World.blank).1, world := World.blank } buttonAndTransform s ∧
    s.gameobject.componenten.map (fun c => c.data.classOf) = [.engine .transform, .engine .button] ∧ s.toSet = [[], [0]] ∧
    Built s ∧ CastsRight s ∧
      ∀ T : Class, (Data.registered T.typeName).isSome → ∀ e t, (addComponent T).run s = .error e t → e = .thrown ∧ t = s := by
  have hbutton : (Data.registered (Class.engine .button).typeName).isSome = true := rfl
  have htransform : (Data.registered (Class.engine .transform).typeName).isSome = true := rfl
  obtain ⟨s, hrun, hclasses, htoSet⟩ : ∃ s : Building Data,
      Run machine { gameobject := (GameObject.new World.blank).1, world := World.blank } buttonAndTransform s ∧
      s.gameobject.componenten.map (fun c => c.data.classOf) = [.engine .transform, .engine .button] ∧
      s.toSet = [[], [0]] :=
    ⟨_, .cons ⟨hbutton, rfl⟩ (.cons ⟨htransform, rfl⟩ (.cons ⟨htransform, rfl⟩ (.single ⟨hbutton, rfl⟩))), rfl, rfl⟩
  exact ⟨s, hrun, hclasses, htoSet, requirements_met rfl hrun⟩

end SceenViewer
