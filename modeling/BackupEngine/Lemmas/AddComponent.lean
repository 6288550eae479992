import BackupEngine.Lemmas.Linking
import BackupEngine.Serializer.AddComponent

/-!
# One call of addComponent

Nothing is changed before the last check, so that a call that throws leaves everything as it was. A call that does not throw
has pushed one component of its class, and has handed `setRequirements` the first component of every required class.
-/

namespace Serializer

open Cpp Transition

variable {κ C : Type} [ComponentClasses κ C]

open ComponentClasses (typeName classOf isA getIsLonly getRequirements registered)

/-- What the proofs need of the table of the classes. -/
structure LawfulClasses (κ : Type) {C : Type} [ComponentClasses κ C] : Prop where
  /-- A constructor of the factory makes an object of the class it is registered for. -/
  create : ∀ (T : C) new s, registered (κ := κ) (typeName κ T) = some new → classOf (new s) = T
  /-- `setRequirements` returns when it is given as many components as the class requires. -/
  sets : ∀ (toSet : List Addr) (d : κ), toSet.length = (getRequirements κ (classOf d)).length →
    ∃ d', ComponentClasses.setRequirements toSet d = .ok d' ∧ classOf d' = classOf d
  /-- No other class is derived from one of which an object has at most one. -/
  leaf : ∀ T S : C, getIsLonly κ T = true → isA κ T S = true → S = T
  /-- Different classes have different names. -/
  typeName : ∀ T S : C, typeName κ T = typeName κ S → T = S

namespace Building

variable {s t : Building κ}

/-! ## Reading, writing, failing -/

theorem run_lift {α : Type} (x : Comp α) (s : Building κ) :
    (lift x).run s = match x with
      | .ok a => .ok a s
      | .error e => .error e s := by
  cases x <;> rfl

theorem run_ask {α : Type} (f : GameObject κ → Comp α) (s : Building κ) :
    (ask f).run s = match f s.gameobject with
      | .ok a => .ok a s
      | .error e => .error e s := run_lift _ s

/-- A loop that only reads leaves everything as it was. -/
theorem run_mapM_ask {α β : Type} (f : α → GameObject κ → Comp β) (l : List α) (s : Building κ) :
    (l.mapM fun a => ask (f a)).run s = match l.mapM fun a => f a s.gameobject with
      | .ok bs => .ok bs s
      | .error e => .error e s := by
  induction l with
  | nil => rfl
  | cons a l ih =>
    rw [List.mapM_cons, List.mapM_cons, EStateM.run_bind, run_ask]
    cases f a s.gameobject with
    | error e => rfl
    | ok b =>
      simp only [ok_bind, EStateM.run_bind, ih]
      cases l.mapM fun a => f a s.gameobject <;> rfl

/-- The last component is read. -/
theorem elemAt_last {g : GameObject κ} {l : List (Component κ)} {c : Component κ} (h : g.componenten = l ++ [c]) :
    elemAt g.componenten (g.componenten.length - 1) = .ok c := by
  rw [elemAt_eq_ok, h, List.length_append, List.length_singleton, Nat.add_sub_cancel, List.getElem?_concat_length]

/-- The last component is written. -/
theorem setAt_last {g : GameObject κ} {l : List (Component κ)} {c : Component κ} (h : g.componenten = l ++ [c])
    (d : Component κ) : setAt g.componenten (g.componenten.length - 1) d = .ok (l ++ [d]) := by
  rw [setAt_eq_ok, h, List.length_append, List.length_singleton, Nat.add_sub_cancel]
  exact ⟨Nat.lt_succ_self _, by simp⟩

theorem run_setRequirements {l : List (Component κ)} {c : Component κ} {toSetInComponent : List Addr} (s : Building κ)
    (h : s.gameobject.componenten = l ++ [c]) :
    (setRequirements toSetInComponent).run s = match ComponentClasses.setRequirements toSetInComponent c.data with
      | .ok data => .ok () { s with
          gameobject := { s.gameobject with componenten := l ++ [{ c with data }] }
          toSet := s.toSet ++ [toSetInComponent] }
      | .error e => .error e { s with toSet := s.toSet ++ [toSetInComponent] } := by
  simp only [setRequirements, EStateM.run_bind, EStateM.run_modify, run_ask, elemAt_last h, ok_bind]
  cases ComponentClasses.setRequirements toSetInComponent c.data with
  | error e => rfl
  | ok data =>
    simp only [ok_bind, setAt_last h]
    rfl

theorem run_setIsActiv {l : List (Component κ)} {c : Component κ} (s : Building κ)
    (h : s.gameobject.componenten = l ++ [c]) :
    setIsActiv.run s = .ok () { s with
      gameobject := { s.gameobject with componenten := l ++ [{ c with isActiv := s.gameobject.isActiv }] } } := by
  simp only [setIsActiv, EStateM.run_bind, run_ask, elemAt_last h, ok_bind, setAt_last h]
  rfl

/-! ## The whole call -/

/-- What a call pushes: the component, with what `setRequirements` made of it and what it was given. -/
def pushed (s : Building κ) (c : Component κ) (world : World) (toSet : List Addr) : Building κ where
  gameobject := { s.gameobject with componenten := s.gameobject.componenten ++ [{ c with isActiv := s.gameobject.isActiv }] }
  world := world
  toSet := s.toSet ++ [toSet]

theorem required_eq_ok {name : List UInt8} {g : GameObject κ} {a : Addr} :
    required name g = .ok a ↔ (g.findComponentsNamed name).head? = some a := by
  unfold required
  split <;> simp_all

/-- A required class that is not there is thrown for. -/
theorem eq_thrown_of_required {names : List (List UInt8)} {g : GameObject κ} {e : Fault}
    (h : (names.mapM fun name => required name g) = .error e) : e = .thrown := by
  induction names with
  | nil => cases h
  | cons name names ih =>
    rw [List.mapM_cons] at h
    rcases bind_eq_error.mp h with h | ⟨a, _, h⟩
    · unfold required at h
      split at h
      · cases h
      · cases h
        rfl
    · rcases bind_eq_error.mp h with h | ⟨_, _, h⟩
      · exact ih h
      · cases h

theorem run_checkLonly (T : C) (s : Building κ) :
    (checkLonly T).run s =
      if getIsLonly κ T = true ∧ s.gameobject.findComponents T ≠ [] then .error .thrown s else .ok () s := by
  unfold checkLonly
  cases getIsLonly κ T with
  | false => rfl
  | true =>
    simp only [if_true, EStateM.run_bind, run_ask, true_and]
    cases s.gameobject.findComponents T <;> rfl

/-- The checks throw before anything is changed, and behind them a component is pushed. -/
theorem run_addComponent (T : C) (s : Building κ) :
    (addComponent T).run s =
      if getIsLonly κ T = true ∧ s.gameobject.findComponents T ≠ [] then .error .thrown s
      else match (getRequirements κ T).mapM fun name => required name s.gameobject with
        | .error e => .error e s
        | .ok toSet =>
          match Serializer.createInstance (κ := κ) (typeName κ T) s.world with
          | .error e => .error e s
          | .ok (c, world) =>
            match ComponentClasses.setRequirements toSet c.data with
            | .error e => .error e { pushed s c world toSet with
                gameobject := { s.gameobject with componenten := s.gameobject.componenten ++ [c] } }
            | .ok data => .ok () (pushed s { c with data } world toSet) := by
  rw [addComponent, EStateM.run_bind, run_checkLonly]
  by_cases hlonly : getIsLonly κ T = true ∧ s.gameobject.findComponents T ≠ []
  · rw [if_pos hlonly, if_pos hlonly]
  · rw [if_neg hlonly, if_neg hlonly]
    simp only [EStateM.run_bind, run_mapM_ask, createInstance, EStateM.run_get, run_lift]
    cases (getRequirements κ T).mapM fun name => required name s.gameobject with
    | error e => rfl
    | ok toSet =>
      simp only
      cases Serializer.createInstance (κ := κ) (typeName κ T) s.world with
      | error e => rfl
      | ok r =>
        obtain ⟨c, world⟩ := r
        simp only [EStateM.run_modify, EStateM.run_pure, write]
        rw [run_setRequirements (l := s.gameobject.componenten) (c := c) _ rfl]
        cases ComponentClasses.setRequirements toSet c.data with
        | error e => rfl
        | ok data =>
          simp only
          rw [run_setIsActiv (l := s.gameobject.componenten) (c := { c with data }) _ rfl]
          rfl

/-- A call for a registered class throws and leaves everything as it was, or pushes a component of the class. -/
theorem addComponent_cases (h : LawfulClasses κ) {T : C} (hT : (registered (κ := κ) (typeName κ T)).isSome)
    (s : Building κ) :
    (addComponent T).run s = .error .thrown s ∨
      ∃ toSet data, (addComponent T).run s = .ok () (pushed s ⟨s.world.next, s.gameobject.isActiv, data⟩
          { s.world with next := s.world.next + 1 } toSet) ∧
        classOf data = T ∧ (getIsLonly κ T = true → s.gameobject.findComponents T = []) ∧
        List.Forall₂ (fun name a => (s.gameobject.findComponentsNamed name).head? = some a) (getRequirements κ T) toSet := by
  rw [run_addComponent]
  by_cases hlonly : getIsLonly κ T = true ∧ s.gameobject.findComponents T ≠ []
  · exact .inl (if_pos hlonly)
  rw [if_neg hlonly]
  cases hrequired : (getRequirements κ T).mapM fun name => required name s.gameobject with
  | error e => exact .inl (by rw [eq_thrown_of_required hrequired])
  | ok toSet =>
    obtain ⟨new, hnew⟩ := Option.isSome_iff_exists.mp hT
    have hcreate : Serializer.createInstance (κ := κ) (typeName κ T) s.world =
        .ok (⟨s.world.next, (s.world.memory s.world.next).flag 0, new (s.world.memory s.world.next)⟩,
          { s.world with next := s.world.next + 1 }) := by
      rw [Serializer.createInstance, hnew]
      rfl
    have hclass := h.create T new (s.world.memory s.world.next) hnew
    have hmet := mapM_eq_ok.mp hrequired
    obtain ⟨data, hdata, hkept⟩ := h.sets toSet (new (s.world.memory s.world.next))
      (hmet.length_eq.symm.trans (congrArg _ (congrArg _ hclass.symm)))
    refine .inr ⟨toSet, data, ?_, hkept.trans hclass, fun hT => ?_, hmet.imp fun _ _ ha => required_eq_ok.mp ha⟩
    · simp only [hcreate, hdata]
      rfl
    · by_contra hne
      exact hlonly ⟨hT, hne⟩

end Building

end Serializer
