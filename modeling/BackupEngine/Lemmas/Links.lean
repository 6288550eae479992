import BackupEngine.Engine.Links
import BackupEngine.Lemmas.Serializer

/-!
# The vectors of pointers and the vectors beside them

What the searches find and what is pushed and erased: a pointer and what it is found by come and go together.
-/

namespace Engine

open Cpp Serializer

variable {κ C : Type} [ComponentClasses κ C] {α β : Type}

/-! ## Two lists -/

theorem forall₂_concat {R : α → β → Prop} {xs : List α} {ys : List β} (h : List.Forall₂ R xs ys) {a : α} {b : β}
    (hR : R a b) : List.Forall₂ R (xs ++ [a]) (ys ++ [b]) := List.rel_append h (.cons hR .nil)

/-- Erasing at one place of both. -/
theorem forall₂_eraseIdx {R : α → β → Prop} {xs : List α} {ys : List β} (h : List.Forall₂ R xs ys) (i : Nat) :
    List.Forall₂ R (xs.eraseIdx i) (ys.eraseIdx i) := by
  rw [List.eraseIdx_eq_take_drop_succ, List.eraseIdx_eq_take_drop_succ]
  exact List.rel_append (List.forall₂_take i h) (List.forall₂_drop (i + 1) h)

/-- What is at a place of the one list is related to what is there in the other. -/
theorem forall₂_getElem? {R : α → β → Prop} {xs : List α} {ys : List β} (h : List.Forall₂ R xs ys) {i : Nat} {a : α}
    (hi : xs[i]? = some a) : ∃ b, ys[i]? = some b ∧ R a b := by
  obtain ⟨hlt, rfl⟩ := List.getElem?_eq_some_iff.mp hi
  have hlt' : i < ys.length := h.length_eq ▸ hlt
  exact ⟨ys[i], List.getElem?_eq_getElem hlt', h.get hlt hlt'⟩

/-- Lists of one length are related where every place of them is. -/
theorem forall₂_of_getElem? {R : α → β → Prop} {xs : List α} {ys : List β} (hlen : xs.length = ys.length)
    (h : ∀ (i : Nat) a b, xs[i]? = some a → ys[i]? = some b → R a b) : List.Forall₂ R xs ys :=
  List.forall₂_iff_get.mpr ⟨hlen, fun i h₁ h₂ =>
    h i _ _ (List.getElem?_eq_getElem h₁) (List.getElem?_eq_getElem h₂)⟩

theorem remLink_cases {c : Addr} {pointers pointers' : List Addr} {ids ids' : List α}
    (h : remLink c pointers ids = .ok (pointers', ids')) :
    ∃ i, pointers' = pointers.eraseIdx i ∧ ids' = ids.eraseIdx i ∨ pointers' = pointers ∧ ids' = ids := by
  obtain ⟨found, _, h⟩ := bind_eq_ok.mp h
  cases found with
  | none =>
    cases h
    exact ⟨0, .inr ⟨rfl, rfl⟩⟩
  | some i =>
    obtain ⟨ps, hps, h⟩ := bind_eq_ok.mp h
    obtain ⟨is, his, h⟩ := bind_eq_ok.mp h
    cases h
    exact ⟨i, .inl ⟨(eraseAt_eq_ok.mp hps).2.symm, (eraseAt_eq_ok.mp his).2.symm⟩⟩

/-- What is left belongs together as before. -/
theorem remLink_keeps {R : Addr → α → Prop} {c : Addr} {pointers pointers' : List Addr} {ids ids' : List α}
    (h : remLink c pointers ids = .ok (pointers', ids')) (hR : List.Forall₂ R pointers ids) :
    List.Forall₂ R pointers' ids' := by
  obtain ⟨i, ⟨rfl, rfl⟩ | ⟨rfl, rfl⟩⟩ := remLink_cases h
  · exact forall₂_eraseIdx hR i
  · exact hR

theorem remLink_sublist {c : Addr} {pointers pointers' : List Addr} {ids ids' : List α}
    (h : remLink c pointers ids = .ok (pointers', ids')) : pointers'.Sublist pointers ∧ ids'.Sublist ids := by
  obtain ⟨i, ⟨rfl, rfl⟩ | ⟨rfl, rfl⟩⟩ := remLink_cases h
  · exact ⟨List.eraseIdx_sublist .., List.eraseIdx_sublist ..⟩
  · exact ⟨.refl _, .refl _⟩

/-! ## The searches -/

/-- A place that is an `int` is converted back to itself. -/
theorem sizeT_ofNat {i : Nat} (h : i < 2 ^ 31) : sizeT (Int32.ofNat i).toInt = i := by
  rw [toInt_ofNat h, sizeT_natCast h]

/-- What is found lies where the pair says. -/
theorem linkTo_some {T : C} {gameobject : GameObject κ} {c : Addr} {id : Int32 × Int32}
    (h : linkTo T gameobject c = .ok (some id)) :
    id.1 = gameobject.ID ∧ (gameobject.findComponents T)[sizeT id.2.toInt]? = some c := by
  obtain ⟨found, hfound, h⟩ := bind_eq_ok.mp h
  cases found with
  | none => cases h
  | some i =>
    cases h
    refine ⟨rfl, ?_⟩
    rw [sizeT_ofNat (lt_of_findPlace hfound)]
    exact getElem?_of_findPlace hfound

theorem linkTo_none {T : C} {gameobject : GameObject κ} {c : Addr} (h : linkTo T gameobject c = .ok none) :
    c ∉ gameobject.findComponents T := by
  obtain ⟨found, hfound, h⟩ := bind_eq_ok.mp h
  cases found with
  | none => exact not_mem_of_findPlace hfound
  | some i => cases h

/-- Of different elements one is the one looked for. -/
theorem filter_zipIdx_of_nodup {xs : List Addr} (hnodup : xs.Nodup) {a : Addr} (n : Nat) (hmem : a ∈ xs) :
    (xs.zipIdx n).filter (fun p => p.1 = a) = [(a, n + xs.idxOf a)] := by
  induction xs generalizing n with
  | nil => cases hmem
  | cons x xs ih =>
    obtain ⟨hx, hnodup⟩ := List.nodup_cons.mp hnodup
    rw [List.zipIdx_cons]
    by_cases hxa : x = a
    · subst hxa
      have hnone : (xs.zipIdx (n + 1)).filter (fun p => p.1 = x) = [] := by
        refine List.filter_eq_nil_iff.mpr fun p hp heq => hx ?_
        exact of_decide_eq_true heq ▸ List.fst_mem_of_mem_zipIdx hp
      rw [List.filter_cons_of_pos (by simp), hnone, List.idxOf_cons_self, Nat.add_zero]
    · rw [List.filter_cons_of_neg (by simpa using hxa), ih hnodup (n + 1) ((List.mem_cons.mp hmem).resolve_left (Ne.symm hxa)),
        List.idxOf_cons_ne xs hxa, Nat.add_right_comm, Nat.add_assoc]

/-- `addDrawable` pushes one pair where no pointer is in the object twice. -/
theorem DrawableRenderer.drawableIDs_eq {T : C} {gameobject : GameObject κ} {drawable : Addr}
    (hnodup : (gameobject.findComponents T).Nodup) (hmem : drawable ∈ gameobject.findComponents T)
    (hsize : (gameobject.findComponents T).length < 2 ^ 31) :
    ∃ id : Int32 × Int32, drawableIDs T gameobject drawable = [id] ∧ id.1 = gameobject.ID ∧
      (gameobject.findComponents T)[sizeT id.2.toInt]? = some drawable := by
  have hlt := List.idxOf_lt_length_of_mem hmem
  refine ⟨(gameobject.ID, Int32.ofNat ((gameobject.findComponents T).idxOf drawable)), ?_, rfl, ?_⟩
  · rw [drawableIDs, filter_zipIdx_of_nodup hnodup 0 hmem, Nat.zero_add]
    rfl
  · rw [sizeT_ofNat (hlt.trans hsize)]
    exact List.getElem?_eq_some_iff.mpr ⟨hlt, List.getElem_idxOf hlt⟩

end Engine
