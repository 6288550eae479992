import BackupEngine.Lemmas.Displayer

/-!
# What the stored objects hold

The components of a stored object as a list of addresses and data. A call on a storage changes the list of one object, or of
none: each lemma says when the call returns and which list it leaves.
-/

namespace Serializer

open Cpp

variable {κ C : Type} [ComponentClasses κ C]

open ComponentClasses (typeName classOf isA getIsLonly getRequirements registered)

namespace GameObject

/-- The components of an object: where they are, and their data. -/
def holds (this : GameObject κ) : List (Addr × κ) := this.componenten.map fun c => (c.addr, c.data)

/-- What `findComponents<T>()` finds among the components listed. -/
theorem findComponents_holds (g : GameObject κ) (T : C) :
    g.findComponents T = (g.holds.filter fun c => isA κ T (classOf c.2)).map Prod.fst := by
  rw [findComponents, holds, List.filter_map, List.map_map]
  rfl

/-- What `findComponents(std::string)` finds among the components listed. -/
theorem findComponentsNamed_holds (g : GameObject κ) (name : List UInt8) :
    g.findComponentsNamed name = (g.holds.filter fun c => typeName κ (classOf c.2) == name).map Prod.fst := by
  rw [findComponentsNamed, holds, List.filter_map, List.map_map]
  rfl

/-- The place of the first component with an address. -/
theorem placeOf_eq {g : GameObject κ} {before after : List (Component κ)} {c : Component κ}
    (hg : g.componenten = before ++ c :: after) (hbefore : ∀ b ∈ before, b.addr ≠ c.addr) :
    g.placeOf c.addr = .ok before.length := by
  have hnone : before.findIdx? (fun b => decide (b.addr = c.addr)) = none := by
    simpa [List.findIdx?_eq_none_iff] using hbefore
  have hplace : g.componenten.findIdx? (fun b => decide (b.addr = c.addr)) = some before.length := by
    rw [hg, List.findIdx?_append, hnone, List.findIdx?_cons]
    simp
  rw [placeOf, hplace]

end GameObject

namespace ObjectStorrage

variable {st st' : ObjectStorrage κ}

/-- What the stored objects hold. -/
def heap (st : ObjectStorrage κ) (k : Int32) : Option (List (Addr × κ)) := (st.getById k).map GameObject.holds

/-- What a pointer leads to. -/
def component (st : ObjectStorrage κ) (p : Pointer) : Option κ :=
  (st.heap p.gameobject).bind fun l => (l.find? fun c => c.1 = p.addr).map Prod.snd

/-- A pointer leads to the first component with its address. -/
theorem component_eq_some {p : Pointer} {x : κ} : st.component p = some x ↔ ∃ before after,
    st.heap p.gameobject = some (before ++ (p.addr, x) :: after) ∧ ∀ c ∈ before, c.1 ≠ p.addr := by
  rw [component, Option.bind_eq_some_iff]
  constructor
  · rintro ⟨l, hl, hx⟩
    obtain ⟨⟨a, y⟩, hfind, rfl⟩ := Option.map_eq_some_iff.mp hx
    obtain ⟨ha, before, after, rfl, hbefore⟩ := List.find?_eq_some_iff_append.mp hfind
    obtain rfl : a = p.addr := of_decide_eq_true ha
    exact ⟨before, after, hl, fun c hc => by simpa using hbefore c hc⟩
  · rintro ⟨before, after, hl, hbefore⟩
    refine ⟨_, hl, ?_⟩
    have hfind : (before ++ (p.addr, x) :: after).find? (fun c => decide (c.1 = p.addr)) = some (p.addr, x) :=
      List.find?_eq_some_iff_append.mpr ⟨by simp, before, after, rfl, fun c hc => by simpa using hbefore c hc⟩
    rw [hfind, Option.map_some]

/-- A pointer leads where it led when the object holds the same. -/
theorem component_congr {p : Pointer} (h : st'.heap p.gameobject = st.heap p.gameobject) :
    st'.component p = st.component p := by
  rw [component, component, h]

theorem heap_store {k : Int32} {g o : GameObject κ} (hk : st.getById k = some o) :
    (st.store k g).heap = Function.update st.heap k (some g.holds) := by
  funext j
  rw [heap, getById_store hk]
  by_cases hj : k = j
  · subst hj
    rw [if_pos rfl, Function.update_self, Option.map_some]
  · rw [if_neg hj, Function.update_of_ne (Ne.symm hj), heap]

/-! ## The calls -/

/-- A write through a pointer that leads to a component returns when the write does. -/
theorem update_heap {p : Pointer} {f : κ → Comp κ} {before after : List (Addr × κ)} {x y : κ}
    (hheap : st.heap p.gameobject = some (before ++ (p.addr, x) :: after)) (hbefore : ∀ c ∈ before, c.1 ≠ p.addr)
    (hf : f x = .ok y) :
    ∃ st', st.update p f = .ok st' ∧ SameLinks st st' ∧
      st'.heap = Function.update st.heap p.gameobject (some (before ++ (p.addr, y) :: after)) := by
  obtain ⟨g, hg, hholds⟩ := Option.map_eq_some_iff.mp hheap
  obtain ⟨cs, ds, hcs, rfl, hds⟩ := List.map_eq_append_iff.mp hholds
  obtain ⟨c, es, rfl, hc, rfl⟩ := List.map_eq_cons_iff.mp hds
  obtain ⟨haddr, rfl⟩ := Prod.mk.inj hc
  have hplace : g.placeOf p.addr = .ok cs.length := by
    rw [← haddr]
    refine g.placeOf_eq hcs fun b hb => ?_
    rw [haddr]
    exact hbefore (b.addr, b.data) (List.mem_map_of_mem hb)
  have hat : elemAt g.componenten cs.length = .ok c := by
    rw [elemAt, hcs, List.getElem?_append_right (Nat.le_refl _), Nat.sub_self, List.getElem?_cons_zero]
  have hset : setAt g.componenten cs.length { c with data := y } = .ok (cs ++ { c with data := y } :: es) := by
    rw [setAt, if_pos (by simp [hcs]), hcs, List.set_append_right _ _ (Nat.le_refl _), Nat.sub_self, List.set_cons_zero]
  refine ⟨st.store p.gameobject { g with componenten := cs ++ { c with data := y } :: es }, ?_, .store hg rfl, ?_⟩
  · rw [update, deref_eq_ok.mpr hg, ok_bind, hplace, ok_bind, hat, ok_bind, hf, ok_bind, hset]
    rfl
  · rw [heap_store hg, GameObject.holds]
    simp [haddr]

/-- Such a write changes what the pointer leads to, and nothing else. -/
theorem update_component {p : Pointer} {f : κ → Comp κ} {x y : κ} (hx : st.component p = some x) (hf : f x = .ok y) :
    ∃ st', st.update p f = .ok st' ∧ SameLinks st st' ∧ st'.component p = some y ∧
      (∀ q, q ≠ p → st'.component q = st.component q) ∧ ∀ k, k ≠ p.gameobject → st'.heap k = st.heap k := by
  obtain ⟨before, after, hheap, hbefore⟩ := component_eq_some.mp hx
  obtain ⟨st', hupdate, hsame, hheap'⟩ := update_heap hheap hbefore hf
  refine ⟨st', hupdate, hsame, component_eq_some.mpr ⟨before, after, by rw [hheap', Function.update_self], hbefore⟩,
    fun q hq => ?_, fun k hk => by rw [hheap', Function.update_of_ne hk]⟩
  by_cases hk : q.gameobject = p.gameobject
  · -- Another component of the object.
    have haddr : p.addr ≠ q.addr := by
      intro haddr
      cases p
      cases q
      exact hq (congr (congrArg Pointer.mk hk) haddr.symm)
    rw [component, component, hheap', hk, Function.update_self, hheap]
    simp [List.find?_append, haddr]
  · exact component_congr (by rw [hheap', Function.update_of_ne hk])

/-- `addComponent<T>` returns when the class may be added to what the object holds. -/
theorem addComponent_heap {k : Int32} {T : C} {w : World} {l : List (Addr × κ)} {toSet : List Addr} {new : Storage → κ}
    {data : κ} (hheap : st.heap k = some l)
    (hlonly : (getIsLonly κ T && !(l.filter fun c => isA κ T (classOf c.2)).isEmpty) = false)
    (hrequired : List.Forall₂ (fun name a => ((l.filter fun c => typeName κ (classOf c.2) == name).map Prod.fst).head? =
      some a) (getRequirements κ T) toSet)
    (hnew : registered (typeName κ T) = some new)
    (hset : ComponentClasses.setRequirements toSet (new (w.memory w.next)) = .ok data) :
    ∃ st' w', st.addComponent k T w = .ok (st', w') ∧ st'.lastComponent k = .ok { gameobject := k, addr := w.next } ∧
      SameLinks st st' ∧ w'.next = w.next + 1 ∧ st'.heap = Function.update st.heap k (some (l ++ [(w.next, data)])) := by
  obtain ⟨g, hg, rfl⟩ := Option.map_eq_some_iff.mp hheap
  have hfound : List.Forall₂ (fun name a => ∃ rest, g.findComponentsNamed name = a :: rest) (getRequirements κ T) toSet := by
    refine hrequired.imp fun name a ha => ?_
    rwa [← g.findComponentsNamed_holds, List.head?_eq_some_iff] at ha
  have hempty : (getIsLonly κ T && !(g.findComponents T).isEmpty) = false := by
    rw [g.findComponents_holds, List.isEmpty_map]
    exact hlonly
  have hcreate : createInstance (typeName κ T) w =
      .ok ({ addr := w.next, isActiv := (w.memory w.next).flag 0, data := new (w.memory w.next) },
        { w with next := w.next + 1 }) := by
    rw [createInstance, hnew]
    rfl
  let c : Component κ := { addr := w.next, isActiv := g.isActiv, data }
  have hadd : g.addComponent T w = .ok ({ g with componenten := g.componenten ++ [c] }, { w with next := w.next + 1 }) := by
    rw [GameObject.addComponent, hempty]
    simp only [Bool.false_eq_true, if_false]
    refine bind_eq_ok.mpr ⟨toSet, mapM_eq_ok.mpr (hfound.imp fun name a ha => ?_),
      bind_eq_ok.mpr ⟨_, hcreate, bind_eq_ok.mpr ⟨data, hset, rfl⟩⟩⟩
    obtain ⟨rest, ha⟩ := ha
    rw [ha]
  refine ⟨st.store k { g with componenten := g.componenten ++ [c] }, { w with next := w.next + 1 }, ?_, ?_,
    .store hg rfl, rfl, ?_⟩
  · rw [addComponent, deref_eq_ok.mpr hg, ok_bind, hadd]
    rfl
  · rw [lastComponent, deref_eq_ok.mpr (getById_store hg |>.trans (if_pos rfl)), ok_bind]
    simp [elemAt, c]
  · rw [heap_store hg, GameObject.holds, GameObject.holds, List.map_append]
    rfl

/-- `createGameObject` returns as long as there are ids, and gives an object that holds nothing. -/
theorem createGameObject_heap (h : st.Hierarchy) (hroom : st.counter + 1 < 2 ^ 31) (w : World) :
    ∃ st' w', st.createGameObject w = .ok ((Int32.ofInt st.counter, st'), w') ∧ st'.Hierarchy ∧
      st.heap (Int32.ofInt st.counter) = none ∧ st'.counter = st.counter + 1 ∧ w'.next = w.next + 1 ∧
      st'.heap = Function.update st.heap (Int32.ofInt st.counter) (some []) := by
  have h0 := h.counter
  have hcounter : InInt st.counter := by
    unfold InInt
    omega
  have hnext : InInt (st.counter + 1) := by
    unfold InInt
    omega
  obtain ⟨st', w', hcreate, hw⟩ : ∃ st' w', st.createGameObject w = .ok ((Int32.ofInt st.counter, st'), w') ∧
      w'.next = w.next + 1 := by
    let added := st.addOnId (Int32.ofInt st.counter) { (GameObject.new w).1 with ID := Int32.ofInt st.counter }
    refine ⟨{ added with counter := st.counter + 1 }, { w with next := w.next + 1 }, ?_, rfl⟩
    exact bind_eq_ok.mpr ⟨_, int_of_inInt hcounter, bind_eq_ok.mpr ⟨_, int_of_inInt hnext, rfl⟩⟩
  obtain ⟨_, hfresh, hcounter', b, hget⟩ := createGameObject_spec h hcreate
  refine ⟨st', w', hcreate, h.createGameObject hcreate, by rw [heap, hfresh, Option.map_none], hcounter', hw, ?_⟩
  funext k
  rw [heap, hget]
  by_cases hk : Int32.ofInt st.counter = k
  · rw [if_pos hk, ← hk, Function.update_self]
    rfl
  · rw [if_neg hk, Function.update_of_ne (Ne.symm hk), heap]

/-- `setParrent` of one stored object to another one returns and changes no component. -/
theorem setParrent_heap (h : st.Hierarchy) {a p : Int32} {l l' : List (Addr × κ)} (ha : st.heap a = some l)
    (hp : st.heap p = some l') :
    ∃ st', st.setParrent a p = .ok st' ∧ st'.Hierarchy ∧ st'.counter = st.counter ∧ st'.heap = st.heap := by
  obtain ⟨g, hg, _⟩ := Option.map_eq_some_iff.mp ha
  obtain ⟨o, ho, _⟩ := Option.map_eq_some_iff.mp hp
  obtain ⟨st', hset, hcounter, hget⟩ := setParrentID_spec h.agrees hg (.inr ⟨o, ho⟩)
  refine ⟨st', by rw [setParrent_eq h.agrees hg ho, hset], (parrentOf_setParrentID h hg (.inr ⟨o, ho⟩) hset).1, hcounter, ?_⟩
  funext k
  rw [heap, hget, Option.map_map]
  rfl

end ObjectStorrage

end Serializer
