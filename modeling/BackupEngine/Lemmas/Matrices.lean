import BackupEngine.Engine.Matrices

/-!
# The matrices kept

A transform or a camera is fresh when the matrix it keeps is the one of its fields, or its flag says that the matrix has to be
computed again. `GetWorldMatrix` writes kept matrices and flags only, returns the product along the chain of parents and leaves
every transform fresh.
-/

namespace Engine

open Cpp Serializer Transition

variable {M : Type} {ops : Matrices M}

/-! ## A single transform -/

namespace MatrixTransform

variable {t u : MatrixTransform M}

/-- The transform without the flag: what its matrix is computed from, and its parent. -/
def fields (this : MatrixTransform M) : Transform := { this.toTransform with dirty := false }

variable (ops) in
/-- The matrix is the one of the fields, unless the flag is raised. -/
def Fresh (this : MatrixTransform M) : Prop := this.dirty = false → this.matrix = this.localMatrix ops

/-- The matrix of a transform is made of its fields. -/
theorem localMatrix_of_fields (h : t.fields = u.fields) : t.localMatrix ops = u.localMatrix ops := by
  have : t.fields.localMatrix ops = u.fields.localMatrix ops := by rw [h]
  exact this

theorem parrent_of_fields (h : t.fields = u.fields) : t.parrent = u.parrent := by
  have : t.fields.parrent = u.fields.parrent := by rw [h]
  exact this

/-- Computing the matrix again leaves the fields as they are. -/
theorem fields_refresh (t : MatrixTransform M) : (t.refresh ops).fields = t.fields := by
  unfold refresh
  split
  · rfl
  · rfl

/-- A fresh transform has the matrix of its fields when it is asked for. -/
theorem refresh_matrix (h : t.Fresh ops) : (t.refresh ops).matrix = t.localMatrix ops := by
  unfold refresh
  split
  · rfl
  · rename_i hdirty
    exact h (Bool.eq_false_iff.mpr hdirty)

theorem fresh_refresh (h : t.Fresh ops) : (t.refresh ops).Fresh ops := by
  intro _
  rw [refresh_matrix h, localMatrix_of_fields (fields_refresh t)]

end MatrixTransform

/-! ## The chain of parents -/

open MatrixTransform

variable {ts us : List (MatrixTransform M)} {this : Addr}

/-- Where the pointers to parents lead. -/
def above (ts : List (MatrixTransform M)) (this : Addr) : Option Addr := (ts[this]?).bind (·.parrent)

/-- The transforms differ in flags and kept matrices only. -/
def SameFields (ts us : List (MatrixTransform M)) : Prop := ts.map fields = us.map fields

/-- As many transforms. -/
theorem SameFields.length (h : SameFields ts us) : ts.length = us.length := by
  simpa using congrArg List.length h

/-- Each of them is there, with its fields. -/
theorem SameFields.getElem? (h : SameFields ts us) {t : MatrixTransform M} (ht : ts[this]? = some t) :
    ∃ u, us[this]? = some u ∧ t.fields = u.fields := by
  have hmap : (ts.map fields)[this]? = (us.map fields)[this]? := by rw [h]
  rw [List.getElem?_map, List.getElem?_map, ht, Option.map_some] at hmap
  obtain ⟨u, hu, hfields⟩ := Option.map_eq_some_iff.mp hmap.symm
  exact ⟨u, hu, hfields.symm⟩

/-- The chains of parents are the same. -/
theorem SameFields.above (h : SameFields ts us) : above us = above ts := by
  funext this
  rcases ht : ts[this]? with _ | t
  · have hlength := List.getElem?_eq_none_iff.mp ht
    rw [Engine.above, Engine.above, ht, List.getElem?_eq_none (h.length ▸ hlength)]
  · obtain ⟨u, hu, hfields⟩ := h.getElem? ht
    rw [Engine.above, Engine.above, ht, hu, Option.bind_some, Option.bind_some, parrent_of_fields hfields]

variable (ops) in
/-- The product of the matrices of a transform and all above it, each from the current fields. -/
inductive WorldOf (ts : List (MatrixTransform M)) : Addr → M → Prop
  | root {this : Addr} {t : MatrixTransform M} (ht : ts[this]? = some t) (hroot : t.parrent = none) :
    WorldOf ts this (t.localMatrix ops)
  | under {this parrent : Addr} {t : MatrixTransform M} {world : M} (ht : ts[this]? = some t)
    (hparrent : t.parrent = some parrent) (rest : WorldOf ts parrent world) :
    WorldOf ts this (ops.multiply (t.localMatrix ops) world)

/-- There is one such product. -/
theorem WorldOf.unique {m m' : M} (h : WorldOf ops ts this m) (h' : WorldOf ops ts this m') : m = m' := by
  induction h generalizing m' with
  | root ht hroot =>
    cases h' with
    | root ht' _ => rw [Option.some_inj.mp (ht.symm.trans ht')]
    | under ht' hparrent _ =>
      rw [← Option.some_inj.mp (ht.symm.trans ht'), hroot] at hparrent
      cases hparrent
  | under ht hparrent _ ih =>
    cases h' with
    | root ht' hroot =>
      rw [← Option.some_inj.mp (ht.symm.trans ht'), hparrent] at hroot
      cases hroot
    | under ht' hparrent' rest' =>
      cases Option.some_inj.mp (ht.symm.trans ht')
      cases hparrent.symm.trans hparrent'
      rw [ih rest']

/-- A world matrix is a matter of the fields. -/
theorem WorldOf.of_sameFields {m : M} (h : WorldOf ops ts this m) (hsame : SameFields ts us) : WorldOf ops us this m := by
  induction h with
  | root ht hroot =>
    obtain ⟨u, hu, hfields⟩ := hsame.getElem? ht
    rw [localMatrix_of_fields hfields]
    exact .root hu (parrent_of_fields hfields ▸ hroot)
  | under ht hparrent _ ih =>
    obtain ⟨u, hu, hfields⟩ := hsame.getElem? ht
    rw [localMatrix_of_fields hfields]
    exact .under hu (parrent_of_fields hfields ▸ hparrent) ih

/-- The first part of `GetWorldMatrix`, in the list. -/
theorem sameFields_refresh {t : MatrixTransform M} (ht : ts[this]? = some t) :
    SameFields ts (ts.set this (t.refresh ops)) := by
  obtain ⟨hthis, rfl⟩ := List.getElem?_eq_some_iff.mp ht
  have hmap : this < (ts.map fields).length := by rwa [List.length_map]
  rw [SameFields, List.map_set, fields_refresh, ← List.getElem_map fields (h := hmap), List.set_getElem_self]

/-- `GetWorldMatrix` of a transform whose chain of parents ends returns the product of the current matrices along the chain. -/
theorem getWorldMatrix_spec {n depth : Nat} (hfresh : ∀ t ∈ ts, t.Fresh ops)
    (hstored : ∀ this parrent, above ts this = some parrent → parrent < ts.length) (hthis : this < ts.length)
    (hend : Forest.ancestor (above ts) n this = none) (hdepth : n ≤ depth) :
    ∃ world us, MatrixTransform.getWorldMatrix ops depth this ts = .ok (some (world, us)) ∧ WorldOf ops ts this world ∧
      SameFields ts us ∧ ∀ u ∈ us, u.Fresh ops := by
  induction n generalizing this ts depth with
  | zero => cases hend
  | succ n ih =>
    obtain ⟨depth, rfl⟩ : ∃ d, depth = d + 1 := ⟨depth - 1, by omega⟩
    obtain ⟨t, ht⟩ : ∃ t, ts[this]? = some t := ⟨_, List.getElem?_eq_getElem hthis⟩
    have hset : setAt ts this (t.refresh ops) = .ok (ts.set this (t.refresh ops)) := setAt_eq_ok.mpr ⟨hthis, rfl⟩
    have hsame : SameFields ts (ts.set this (t.refresh ops)) := sameFields_refresh ht
    have hkept : ∀ u ∈ ts.set this (t.refresh ops), u.Fresh ops := by
      intro u hu
      rcases List.mem_or_eq_of_mem_set hu with hu | rfl
      · exact hfresh u hu
      · exact fresh_refresh (hfresh t (List.mem_of_getElem? ht))
    have hmatrix := refresh_matrix (hfresh t (List.mem_of_getElem? ht))
    have hparrent : (t.refresh ops).parrent = t.parrent := parrent_of_fields (fields_refresh t)
    rw [MatrixTransform.getWorldMatrix, Forest.within, worldBody, elemAt_eq_ok.mpr ht, ok_bind]
    simp only [hset, ok_bind, hparrent, hmatrix]
    cases hup : t.parrent with
    | none => exact ⟨_, _, rfl, .root ht hup, hsame, hkept⟩
    | some parrent =>
      have habove : above ts this = some parrent := by rw [above, ht, Option.bind_some, hup]
      rw [Forest.ancestor, habove, Option.bind_some, ← hsame.above] at hend
      obtain ⟨world, us, hcall, hworld, hus, hfresh'⟩ :=
        ih hkept (fun a b hab => hsame.length ▸ hstored a b (hsame.above ▸ hab))
          (hsame.length ▸ hstored this parrent habove) hend (Nat.le_of_succ_le_succ hdepth)
      rw [MatrixTransform.getWorldMatrix] at hcall
      simp only [hcall, ok_bind]
      exact ⟨_, _, rfl, .under ht hup (hworld.of_sameFields hsame.symm), hsame.trans hus, hfresh'⟩

/-! ## Cameras -/

namespace MatrixKamera

variable {k : MatrixKamera M}

variable (ops) in
/-- The matrix is the one of the fields, unless the flag is raised. -/
def Fresh (this : MatrixKamera M) : Prop := this.projectionDirty = false → this.projectionMatrix = this.projection ops

/-- Computing the projection again changes nothing that it is computed from. -/
theorem refresh_eq (k : MatrixKamera M) :
    (k.refresh ops).transform = k.transform ∧ (k.refresh ops).projection ops = k.projection ops := by
  unfold refresh
  split
  · exact ⟨rfl, rfl⟩
  · exact ⟨rfl, rfl⟩

/-- A fresh camera has the projection of its members when it is asked for. -/
theorem refresh_projectionMatrix (h : k.Fresh ops) : (k.refresh ops).projectionMatrix = k.projection ops := by
  unfold refresh
  split
  · rfl
  · rename_i hdirty
    exact h (Bool.eq_false_iff.mpr hdirty)

theorem fresh_refresh (h : k.Fresh ops) : (k.refresh ops).Fresh ops := by
  intro _
  rw [refresh_projectionMatrix h, (refresh_eq k).2]

end MatrixKamera

end Engine
