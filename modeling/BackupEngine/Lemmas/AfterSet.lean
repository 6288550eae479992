import BackupEngine.Lemmas.Hierarchy

/-!
# What `afterSet` makes of a storage

`afterSet` goes through the objects and their components and looks, for each, at where other components are and of which
classes. Neither changes on the way, so that every component is given what it would have been given first.
-/

namespace Serializer

open Cpp

open ComponentClasses (classOf isA)

variable {κ C : Type} [ComponentClasses κ C]

/-! ## Where components are, and of which classes -/

/-- The address and the class of each component. -/
def GameObject.shape (g : GameObject κ) : List (Addr × C) := g.componenten.map fun c => (c.addr, classOf c.data)

/-- A search goes by addresses and classes. -/
theorem GameObject.findComponents_eq (g : GameObject κ) (T : C) :
    g.findComponents T = (g.shape.filter fun s => isA κ T s.2).map Prod.fst := by
  simp only [findComponents, shape, List.filter_map, List.map_map, Function.comp_def]

/-- A search goes by addresses and classes only. -/
theorem GameObject.findComponents_congr {g g' : GameObject κ} (h : g'.shape = g.shape) (T : C) :
    g'.findComponents T = g.findComponents T := by
  rw [findComponents_eq, findComponents_eq, h]

/-- Other data of the same class in the place of a component. -/
theorem GameObject.shape_set {g : GameObject κ} {i : Nat} {c : Component κ} {data : κ} (hi : g.componenten[i]? = some c)
    (hclass : classOf data = classOf c.data) :
    GameObject.shape { g with componenten := g.componenten.set i { c with data } } = g.shape := by
  refine List.ext_getElem? fun j => ?_
  simp only [shape, List.getElem?_map, List.getElem?_set]
  split
  · rename_i hij
    subst hij
    rw [if_pos (List.getElem?_eq_some_iff.mp hi).1, hi, Option.map_some, Option.map_some, hclass]
  · rfl

namespace ObjectStorrage

/-- The same ids are stored, and the objects have components at the same addresses and of the same classes. -/
def SameShape (st st' : ObjectStorrage κ) : Prop :=
  ∀ k, (st'.getById k).map GameObject.shape = (st.getById k).map GameObject.shape

namespace SameShape

variable {st st' : ObjectStorrage κ}

/-- Every object is there, with components at the same addresses and of the same classes. -/
theorem get (h : SameShape st st') {k : Int32} {g : GameObject κ} (hk : st.getById k = some g) :
    ∃ g', st'.getById k = some g' ∧ g'.shape = g.shape := by
  have := h k
  rw [hk, Option.map_some] at this
  exact Option.map_eq_some_iff.mp this

/-- An object is replaced by one with components at the same addresses and of the same classes. -/
theorem store {k : Int32} {g o : GameObject κ} (hk : st.getById k = some o) (hshape : g.shape = o.shape) :
    SameShape st (st.store k g) := by
  intro j
  rw [getById_store hk]
  split
  · rename_i hkj
    rw [← hkj, hk, Option.map_some, Option.map_some, hshape]
  · rfl

end SameShape

/-! ## The loops of `afterSet` -/

/-- `afterSet` of a component reads only where components are and of which classes, and leaves the class as it is. -/
structure Looks (κ : Type) {C : Type} [ComponentClasses κ C] : Prop where
  same : ∀ {st st' : ObjectStorrage κ} {g g' : GameObject κ} (d : κ), SameShape st st' → g'.shape = g.shape →
    ComponentClasses.afterSet st' g' d = ComponentClasses.afterSet st g d
  classOf : ∀ {st : ObjectStorrage κ} {g : GameObject κ} {d d' : κ}, ComponentClasses.afterSet st g d = .ok d' →
    classOf d' = classOf d

/-- What `afterSet` makes of a component of `g`, when it looks into `st`. -/
def settled (st : ObjectStorrage κ) (g : GameObject κ) (c : Component κ) : Component κ :=
  match ComponentClasses.afterSet st g c.data with
  | .ok data => { c with data }
  | .error _ => c

/-- The object after the first `n` of its components were told. -/
def settleTo (st : ObjectStorrage κ) (n : Nat) (g : GameObject κ) : GameObject κ :=
  { g with componenten := (g.componenten.take n).map (settled st g) ++ g.componenten.drop n }

/-- The object after `afterSet`. -/
def settle (st : ObjectStorrage κ) (g : GameObject κ) : GameObject κ :=
  { g with componenten := g.componenten.map (settled st g) }

/-- Before the loop over the components nothing is settled. -/
theorem settleTo_zero (st : ObjectStorrage κ) (g : GameObject κ) : settleTo st 0 g = g := rfl

/-- Behind it all of them are. -/
theorem settleTo_length (st : ObjectStorrage κ) (g : GameObject κ) : settleTo st g.componenten.length g = settle st g := by
  rw [settleTo, settle, List.take_length, List.drop_length, List.append_nil]

section

variable {st : ObjectStorrage κ} {g : GameObject κ}

/-- A call of `afterSet` that returned leaves the component as it says. -/
theorem settled_of_ok {c : Component κ} {data : κ} (h : ComponentClasses.afterSet st g c.data = .ok data) :
    settled st g c = { c with data } := by rw [settled, h]

/-- The component stays where it is. -/
@[simp] theorem addr_settled (c : Component κ) : (settled st g c).addr = c.addr := by
  unfold settled
  split <;> rfl

/-- It stays of its class. -/
theorem classOf_settled (hlooks : Looks κ) (c : Component κ) : classOf (settled st g c).data = classOf c.data := by
  unfold settled
  split
  · rename_i data h
    exact hlooks.classOf h
  · rfl

/-- The object keeps its shape throughout the loop. -/
theorem shape_settleTo (hlooks : Looks κ) (n : Nat) : (settleTo st n g).shape = g.shape := by
  have hone : ∀ c, ((settled st g c).addr, classOf (settled st g c).data) = (c.addr, classOf c.data) := fun c => by
    rw [addr_settled, classOf_settled hlooks]
  simp only [GameObject.shape, settleTo, List.map_append, List.map_map, Function.comp_def, hone]
  rw [← List.map_append, List.take_append_drop]

theorem shape_settle (hlooks : Looks κ) : (settle st g).shape = g.shape :=
  settleTo_length st g ▸ shape_settleTo hlooks _

variable (st) in
/-- The next component of the object. -/
theorem settleTo_succ {i : Nat} (hi : i < g.componenten.length) :
    (settleTo st i g).componenten[i]? = some g.componenten[i] ∧
      { settleTo st i g with componenten := (settleTo st i g).componenten.set i (settled st g g.componenten[i]) } =
        settleTo st (i + 1) g := by
  have hlen : ((g.componenten.take i).map (settled st g)).length = i := by
    rw [List.length_map, List.length_take, Nat.min_eq_left hi.le]
  have hdrop : g.componenten.drop i = g.componenten[i] :: g.componenten.drop (i + 1) := List.drop_eq_getElem_cons hi
  constructor
  · rw [settleTo, List.getElem?_append_right hlen.le, hlen, Nat.sub_self, hdrop]
    rfl
  · have hset : (settleTo st i g).componenten.set i (settled st g g.componenten[i]) =
        (settleTo st (i + 1) g).componenten := by
      simp only [settleTo]
      rw [List.set_append_right _ _ hlen.le, hlen, Nat.sub_self, hdrop, List.set_cons_zero,
        List.take_succ_eq_append_getElem hi, List.map_append, List.append_assoc]
      rfl
    rw [hset]
    rfl

end

/-- The next component of an object is told, after the components before it were. -/
theorem tell_next (hlooks : Looks κ) {st s t : ObjectStorrage κ} (hshape : SameShape st s) {k : Int32} {g : GameObject κ}
    (hk : s.getById k = some g) {i : Nat} (hi : i < g.componenten.length)
    (hget : ∀ j, t.getById j = if k = j then some (settleTo st i g) else s.getById j) :
    (do
      let me ← t.deref k
      let c ← elemAt me.componenten i
      let data ← ComponentClasses.afterSet t me c.data
      let componenten ← setAt me.componenten i { c with data }
      return t.store k { me with componenten } : Comp (ObjectStorrage κ)) =
    ComponentClasses.afterSet st g g.componenten[i].data >>= fun _ => .ok (t.store k (settleTo st (i + 1) g)) := by
  obtain ⟨helem, hnext⟩ := settleTo_succ st hi
  have hme : t.getById k = some (settleTo st i g) := by rw [hget, if_pos rfl]
  have hsame : SameShape st t := by
    intro j
    rw [hget]
    split
    · rename_i hkj
      rw [← hkj, Option.map_some, shape_settleTo hlooks, ← hshape k, hk, Option.map_some]
    · exact hshape j
  have htold : ComponentClasses.afterSet t (settleTo st i g) g.componenten[i].data =
      ComponentClasses.afterSet st g g.componenten[i].data := hlooks.same _ hsame (shape_settleTo hlooks i)
  have hlt : i < (settleTo st i g).componenten.length := (List.getElem?_eq_some_iff.mp helem).1
  simp only [deref_eq_ok.mpr hme, ok_bind, elemAt_eq_ok.mpr helem, htold]
  cases hd : ComponentClasses.afterSet st g g.componenten[i].data with
  | error e => rfl
  | ok d =>
    rw [ok_bind, ok_bind, setAt_eq_ok.mpr ⟨hlt, rfl⟩, ok_bind, ← settled_of_ok hd, hnext]
    rfl

/-- `afterSet` of an object whose components can all be told. -/
theorem afterSetObject_spec (hlooks : Looks κ) {st s : ObjectStorrage κ} (hshape : SameShape st s) {k : Int32}
    {g : GameObject κ} (hk : s.getById k = some g) (hcount : g.componenten.length < 2 ^ 31)
    (hok : ∀ c ∈ g.componenten, ∃ d, ComponentClasses.afterSet st g c.data = .ok d) :
    ∃ t, s.afterSetObject k = .ok t ∧ t.objects.size = s.objects.size ∧
      ∀ j, t.getById j = if k = j then some (settle st g) else s.getById j := by
  have hint : int (g.componenten.length : Int) = .ok (g.componenten.length : Int) := int_of_inInt ⟨by omega, by omega⟩
  rw [afterSetObject, deref_eq_ok.mpr hk, ok_bind, hint, ok_bind]
  have hend : ∀ t : ObjectStorrage κ, (∀ j, t.getById j = if k = j then some (settleTo st g.componenten.length g)
      else s.getById j) → ∀ j, t.getById j = if k = j then some (settle st g) else s.getById j := by
    intro t hget j
    rw [hget, settleTo_length]
  refine Exists.imp (fun t h => And.imp_right (And.imp_right (hend t)) h) (foldlM_range
    (P := fun i (t : ObjectStorrage κ) => t.objects.size = s.objects.size ∧
      ∀ j, t.getById j = if k = j then some (settleTo st i g) else s.getById j) ?_ ⟨rfl, fun j => ?_⟩)
  · rintro i hi t ⟨hsize, hget⟩
    obtain ⟨d, hd⟩ := hok _ (List.getElem_mem hi)
    refine ⟨t.store k (settleTo st (i + 1) g), ?_, ?_, fun j => ?_⟩
    · rw [tell_next hlooks hshape hk hi hget, hd]
      rfl
    · rw [← hsize]
      exact Std.ExtTreeMap.size_modify
    · rw [getById_store (by rw [hget, if_pos rfl])]
      split
      · rfl
      · rename_i hne
        rw [hget, if_neg hne]
  · rw [settleTo_zero]
    split
    · rename_i hkj
      rw [← hkj, hk]
    · rfl

/-- `afterSet` of a storage whose ids are the numbers below its size, and whose components can all be told. -/
theorem afterSet_spec (hlooks : Looks κ) {st : ObjectStorrage κ} (hsize : st.objects.size < 2 ^ 31)
    (hids : ∀ k g, st.getById k = some g → 0 ≤ k.toInt ∧ k.toInt < st.objects.size)
    (hdense : ∀ i < st.objects.size, ∃ g, st.getById (Int32.ofNat i) = some g)
    (hcount : ∀ k g, st.getById k = some g → g.componenten.length < 2 ^ 31)
    (hok : ∀ k g, st.getById k = some g → ∀ c ∈ g.componenten, ∃ d, ComponentClasses.afterSet st g c.data = .ok d) :
    ∃ st', st.afterSet = .ok st' ∧ ∀ k, st'.getById k = (st.getById k).map (settle st) := by
  have hint : int (st.objects.size : Int) = .ok (st.objects.size : Int) := int_of_inInt ⟨by omega, by omega⟩
  have htoInt : ∀ i < st.objects.size, (Int32.ofNat i).toInt = i := fun i hi => Int32.toInt_ofNat_of_lt (by omega)
  rw [afterSet, hint, ok_bind]
  have hend : ∀ t : ObjectStorrage κ, (∀ k, t.getById k = (st.getById k).map fun g =>
      if k.toInt < st.objects.size then settle st g else g) → ∀ k, t.getById k = (st.getById k).map (settle st) := by
    intro t hget k
    rw [hget]
    cases hk : st.getById k with
    | none => rfl
    | some g => rw [Option.map_some, Option.map_some, if_pos (hids k g hk).2]
  refine Exists.imp (fun t h => And.imp_right (hend t) h) (foldlM_range (P := fun i (t : ObjectStorrage κ) =>
    ∀ k, t.getById k = (st.getById k).map fun g => if k.toInt < i then settle st g else g) ?_ fun k => ?_)
  · intro i hi t hget
    obtain ⟨g, hg⟩ := hdense i hi
    have hk : t.getById (Int32.ofNat i) = some g := by
      rw [hget, hg, Option.map_some, if_neg (by rw [htoInt i hi]; omega)]
    have hsame : SameShape st t := by
      intro k
      rw [hget]
      cases st.getById k with
      | none => rfl
      | some o =>
        rw [Option.map_some, Option.map_some, Option.map_some]
        split
        · rw [shape_settle hlooks]
        · rfl
    obtain ⟨u, hu, _, hget'⟩ := afterSetObject_spec hlooks hsame hk (hcount _ g hg) (hok _ g hg)
    refine ⟨u, hu, fun k => ?_⟩
    rw [hget', hget]
    by_cases hki : Int32.ofNat i = k
    · subst hki
      rw [if_pos rfl, hg, Option.map_some, if_pos (by rw [htoInt i hi]; omega)]
    · rw [if_neg hki]
      cases hk : st.getById k with
      | none => rfl
      | some o =>
        have hne : k.toInt ≠ i := by
          intro heq
          exact hki (Int32.toInt_inj.mp ((htoInt i hi).trans heq.symm))
        rw [Option.map_some, Option.map_some]
        by_cases hlt : k.toInt < i
        · rw [if_pos hlt, if_pos (by omega)]
        · rw [if_neg hlt, if_neg (by omega)]
  · cases hk : st.getById k with
    | none => rfl
    | some g =>
      have := (hids k g hk).1
      rw [Option.map_some, if_neg (by omega)]

end ObjectStorrage

end Serializer
