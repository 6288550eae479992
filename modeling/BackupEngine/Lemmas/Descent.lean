import BackupEngine.Lemmas.Hierarchy
import BackupEngine.Serializer.Children

/-!
# The way up and the way down

The parent ids of a storage as links, what the operations make of them, and the recursions that go down to the children:
where the links are those of a forest, they end.
-/

namespace Serializer

open Cpp

open Forest (Reaches Ends Grounded Yields)

variable {κ C : Type} [ComponentClasses κ C]

namespace ObjectStorrage

/-- The parent id of a stored object. -/
def parrentOf (st : ObjectStorrage κ) (k : Int32) : Option Int32 := (st.getById k).map GameObject.parrentID

theorem parrentOf_of_get {st : ObjectStorrage κ} {k : Int32} {g : GameObject κ} (h : st.getById k = some g) :
    st.parrentOf k = some g.parrentID := by rw [parrentOf, h, Option.map_some]

/-- A new object has no parent. -/
theorem parrentOf_createGameObject {st st' : ObjectStorrage κ} (h : st.Hierarchy) {w w' : World} {ID : Int32}
    (hcreate : st.createGameObject w = .ok ((ID, st'), w')) :
    st.parrentOf ID = none ∧ ID ≠ EMPTY_ID ∧ st'.parrentOf = Function.update st.parrentOf ID (some EMPTY_ID) := by
  obtain ⟨hID, hfresh, _, b, hget⟩ := createGameObject_spec h hcreate
  refine ⟨by rw [parrentOf, hfresh, Option.map_none], ?_, ?_⟩
  · rintro rfl
    have := h.counter
    rw [← hID] at this
    exact absurd this (by decide)
  · funext k
    rw [parrentOf, hget]
    by_cases hk : ID = k
    · subst hk
      rw [if_pos rfl, Option.map_some, Function.update_self]
    · rw [if_neg hk, Function.update_of_ne (Ne.symm hk), parrentOf]

/-- A move changes the one link. -/
theorem parrentOf_setParrentID {st st' : ObjectStorrage κ} (h : st.Hierarchy) {a p : Int32} {g : GameObject κ}
    (ha : st.getById a = some g) (hp : p = EMPTY_ID ∨ ∃ o, st.getById p = some o) (hset : st.setParrentID a p = .ok st') :
    st'.Hierarchy ∧ st'.parrentOf = Function.update st.parrentOf a (some p) := by
  obtain ⟨st'', hok, hcounter, hget⟩ := setParrentID_spec h.agrees ha hp
  rw [hok] at hset
  cases hset
  refine ⟨h.reparent ha hp hcounter hget, ?_⟩
  funext k
  rw [parrentOf, hget]
  by_cases hk : k = a
  · subst hk
    rw [ha, Option.map_some, Option.map_some, Function.update_self, reparented, if_pos rfl]
  · rw [Function.update_of_ne hk, parrentOf, Option.map_map]
    congr 1
    funext o
    rw [Function.comp_apply, reparented, if_neg hk]

namespace Hierarchy

variable {st : ObjectStorrage κ}

theorem parrentOf_empty (h : st.Hierarchy) : st.parrentOf EMPTY_ID = none := by
  cases hk : st.getById EMPTY_ID with
  | none => rw [parrentOf, hk, Option.map_none]
  | some g => exact absurd rfl (h.ne_empty hk)

/-- A chain of parent ids ends exactly where it comes to `EMPTY_ID`. -/
theorem reaches_empty_iff (h : st.Hierarchy) {k : Int32} {g : GameObject κ} (hk : st.getById k = some g) :
    Reaches st.parrentOf k EMPTY_ID ↔ Ends st.parrentOf k := by
  constructor
  · rintro ⟨n, hn⟩
    refine ⟨n + 1, ?_⟩
    rw [Forest.ancestor_succ, hn, Option.bind_some, h.parrentOf_empty]
  · intro hends
    refine hends.rec_up (P := fun k => ∀ g, st.getById k = some g → Reaches st.parrentOf k EMPTY_ID) (fun k ih g hk => ?_) g hk
    have hup := parrentOf_of_get hk
    refine .head hup ?_
    by_cases hempty : g.parrentID = EMPTY_ID
    · exact hempty ▸ .refl _
    · obtain ⟨o, ho⟩ := h.parents k g hk hempty
      exact ih _ hup o ho

/-- Every chain ends when those from stored objects do. -/
theorem grounded_iff (h : st.Hierarchy) :
    Grounded st.parrentOf ↔ ∀ k g, st.getById k = some g → Reaches st.parrentOf k EMPTY_ID := by
  refine ⟨fun hall k g hk => (h.reaches_empty_iff hk).mpr (hall k), fun hall k => ?_⟩
  cases hk : st.getById k with
  | none => exact .of_none (by rw [parrentOf, hk, Option.map_none])
  | some g => exact (h.reaches_empty_iff hk).mp (hall k g hk)

end Hierarchy

namespace Agrees

variable {st : ObjectStorrage κ}

/-- A child links to the object whose list it is in. -/
theorem parrentOf_child (h : st.Agrees) {k c : Int32} {g o : GameObject κ} (hk : st.getById k = some g)
    (hc : c ∈ g.childrenIds) (ho : st.getById c = some o) : st.parrentOf c = some k := by
  have hedge := h.edges k g c o hk ho
  have hpos := List.count_pos_iff.mpr hc
  rw [parrentOf_of_get ho]
  split at hedge
  · rename_i hp
    rw [hp]
  · omega

/-- The objects of a forest are ranked above their children. -/
theorem rank (h : st.Agrees) (hforest : Grounded st.parrentOf) :
    ∃ rank : Int32 → Nat, ∀ k g c o, st.getById k = some g → c ∈ g.childrenIds → st.getById c = some o → rank c < rank k := by
  obtain ⟨rank, hrank⟩ := hforest.rank (st.objects.toList.map Prod.fst)
  refine ⟨rank, fun k g c o hk hc ho => hrank c k ?_ (h.parrentOf_child hk hc ho)⟩
  exact List.mem_map.mpr ⟨(c, o), mem_toList.mpr ho, rfl⟩

end Agrees

end ObjectStorrage

/-! ## The recursions -/

namespace GameObject

theorem appendChildren_ends {α : Type} {st : ObjectStorrage κ} {call : GameObject κ → Comp (Option (List α))}
    {before : Nat → List α} {start : List α} {childrenIds : List Int32}
    (h : ∀ c ∈ childrenIds, ∀ o, st.getById c = some o → Yields (fun _ => True) (call o)) :
    Yields (fun _ => True) (appendChildren st call before start childrenIds) := by
  refine .each (fun _ => True) (fun s a ha _ => .bind fun o ho => ?_) trivial
  exact (h a.1 (List.fst_mem_of_mem_zipIdx ha) o (ObjectStorrage.deref_eq_ok.mp ho)).andThen fun _ _ => .value trivial

/-- `findComponentsInChildren(std::string)` ends on every object of a forest. -/
theorem findComponentsInChildrenNamed_ends {st : ObjectStorrage κ} (h : st.Hierarchy) (hforest : Grounded st.parrentOf)
    (name : List UInt8) {k : Int32} {g : GameObject κ} (hk : st.getById k = some g) :
    ∃ depth, findComponentsInChildrenNamed st name depth g ≠ .ok none := by
  obtain ⟨rank, hrank⟩ := h.agrees.rank hforest
  refine ⟨rank g.ID + 1, (Forest.within_yields (fun g => st.getById g.ID = some g) (fun _ _ => True) (fun g => rank g.ID)
    (fun call g hg ih => ?_) _ g ?_ (Nat.lt_succ_self _)).1⟩
  · refine appendChildren_ends fun c hc o ho => ih o ?_ ?_
    · rw [h.keyed c o ho, ho]
    · rw [h.keyed c o ho]
      exact hrank _ g c o hg hc ho
  · rw [h.keyed k g hk, hk]

/-- `toString` ends on every object of a forest. -/
theorem toString_ends {st : ObjectStorrage κ} (h : st.Hierarchy) (hforest : Grounded st.parrentOf) (layer : Nat)
    {k : Int32} {g : GameObject κ} (hk : st.getById k = some g) : ∃ depth, toString st depth (g, layer) ≠ .ok none := by
  obtain ⟨rank, hrank⟩ := h.agrees.rank hforest
  refine ⟨rank g.ID + 1, (Forest.within_yields (fun a : GameObject κ × Nat => st.getById a.1.ID = some a.1)
    (fun _ _ => True) (fun a => rank a.1.ID) (fun call a ha ih => ?_) _ (g, layer) ?_ (Nat.lt_succ_self _)).1⟩
  · refine .bind fun ID _ => ?_
    split
    · exact .value trivial
    · refine appendChildren_ends fun c hc o ho => ih (o, a.2 + 1) ?_ ?_
      · rw [h.keyed c o ho, ho]
      · rw [h.keyed c o ho]
        exact hrank _ a.1 c o ha hc ho
  · rw [h.keyed k g hk, hk]

end GameObject

end Serializer
