import BackupEngine.Lemmas.Matrices

/-!
# The matrices are those of the fields

Whatever has been called on the transforms and cameras, a matrix that is asked for is the one of the fields as they are then:
every member that writes a field raises the flag, and the pointers to parents are followed at every call.
-/

namespace Engine

open Cpp Serializer Transition

variable {M : Type} {ops : Matrices M}

/-! ## What a call does -/

/-- The camera a call has written the whole projection of. -/
def ViewCall.projected : ViewCall → Option Nat
  | setProjection this .. => some this
  | setKamera this .. => some this
  | _ => none

namespace View

variable {s t : View M} {call : ViewCall} {calls : List ViewCall} {this : Addr}

/-- `setProjection` or `set` has been called on the camera. -/
def Projected (calls : List ViewCall) (this : Nat) : Prop := ∃ call ∈ calls, call.projected = some this

/-- A camera was asked for its projection by the last call or before. -/
theorem projected_concat : Projected (calls ++ [call]) this ↔ Projected calls this ∨ call.projected = some this := by
  simp [Projected, or_and_right, exists_or]

variable (ops) in
/-- A member of a transform raises the flag, or it leaves it and what the matrix is computed from as they are. -/
def Raises (f : Transform → Comp Transform) : Prop :=
  ∀ t u, f t = .ok u → u.dirty = true ∨ u.dirty = t.dirty ∧ u.localMatrix ops = t.localMatrix ops

/-- A member of a camera raises the flag and leaves the transform alone. -/
def RaisesProjection (f : Kamera → Comp Kamera) : Prop :=
  ∀ k l, f k = .ok l → l.projectionDirty = true ∧ l.transform = k.transform

/-- A call that sets members and the flag. -/
theorem raises_pure {f : Transform → Transform} (h : ∀ t, (f t).dirty = true) : Raises ops fun t => return f t := by
  intro t u hu
  cases hu
  exact .inl (h t)

/-- `Transform::set` -/
theorem raises_set (inFrom : SerializedObject) (w : World) :
    Raises ops fun t => do return (← t.set (inFrom, w)).1 := by
  intro t u hu
  obtain ⟨⟨u', r⟩, hset, hu⟩ := Cpp.bind_eq_ok.mp hu
  cases hu
  obtain ⟨_, _, _, hset⟩ := ByteStack.bind_eq_ok.mp hset
  obtain ⟨_, _, _, hset⟩ := ByteStack.bind_eq_ok.mp hset
  obtain ⟨_, _, _, hset⟩ := ByteStack.bind_eq_ok.mp hset
  obtain ⟨_, _, _, hset⟩ := ByteStack.bind_eq_ok.mp hset
  cases hset
  exact .inl rfl

/-- Assigning a parent raises no flag: the transform's own matrix does not depend on it. -/
theorem raises_assignParrent (parrent : Option Addr) : Raises ops fun t => return { t with parrent := parrent } := by
  intro t u hu
  cases hu
  exact .inr ⟨rfl, rfl⟩

/-- A call that sets members of a camera and its flag. -/
theorem raisesProjection_pure {f : Kamera → Kamera} (h : ∀ k, (f k).projectionDirty = true ∧ (f k).transform = k.transform) :
    RaisesProjection fun k => return f k := by
  intro k l hl
  cases hl
  exact h k

/-- `Kamera::set` -/
theorem raisesProjection_set (inFrom : SerializedObject) (w : World) :
    RaisesProjection fun k => do return (← k.set (inFrom, w)).1 := by
  intro k l hl
  obtain ⟨⟨l', r⟩, hset, hl⟩ := Cpp.bind_eq_ok.mp hl
  cases hl
  obtain ⟨_, _, _, hset⟩ := ByteStack.bind_eq_ok.mp hset
  obtain ⟨_, _, _, hset⟩ := ByteStack.bind_eq_ok.mp hset
  obtain ⟨_, _, _, hset⟩ := ByteStack.bind_eq_ok.mp hset
  obtain ⟨_, _, _, hset⟩ := ByteStack.bind_eq_ok.mp hset
  obtain ⟨_, _, _, hset⟩ := ByteStack.bind_eq_ok.mp hset
  cases hset
  exact ⟨rfl, rfl⟩

/-- A call writes a transform, writes a camera, or asks for one of the two matrices. -/
theorem next_cases (h : s.next ops call = .ok t) :
    (call.projected = none ∧ ∃ this f, Raises ops f ∧ s.onTransform this f = .ok t) ∨
    (∃ this f, RaisesProjection f ∧ s.onKamera this f = .ok t ∧ ∀ i, call.projected = some i → i = this) ∨
    (call.projected = none ∧ ∃ this world, View.getWorldMatrix ops s this = .ok (world, t)) ∨
    (call.projected = none ∧ ∃ this projection, View.getProjectionMatrix ops s this = .ok (projection, t)) := by
  cases call with
  | setPosition this v => exact .inl ⟨rfl, this, _, raises_pure fun _ => rfl, h⟩
  | setRotation this v => exact .inl ⟨rfl, this, _, raises_pure fun _ => rfl, h⟩
  | setScale this v => exact .inl ⟨rfl, this, _, raises_pure fun _ => rfl, h⟩
  | addPosition this v => exact .inl ⟨rfl, this, _, raises_pure fun _ => rfl, h⟩
  | addRotation this v => exact .inl ⟨rfl, this, _, raises_pure fun _ => rfl, h⟩
  | addScale this v => exact .inl ⟨rfl, this, _, raises_pure fun _ => rfl, h⟩
  | set this inFrom w => exact .inl ⟨rfl, this, _, raises_set inFrom w, h⟩
  | assignParrent this parrent => exact .inl ⟨rfl, this, _, raises_assignParrent parrent, h⟩
  | getWorldMatrix this =>
    obtain ⟨⟨world, u⟩, hcall, h⟩ := Cpp.bind_eq_ok.mp h
    cases h
    exact .inr (.inr (.inl ⟨rfl, this, world, hcall⟩))
  | setProjection this width height maxDist minDist =>
    exact .inr (.inl ⟨this, _, raisesProjection_pure (f := Kamera.setProjection width height maxDist minDist)
      fun _ => ⟨rfl, rfl⟩, h, fun i hi => (Option.some_inj.mp hi).symm⟩)
  | setOrthogonal this value =>
    exact .inr (.inl ⟨this, _, raisesProjection_pure (f := Kamera.setOrthogonal value) fun _ => ⟨rfl, rfl⟩, h, nofun⟩)
  | setKamera this inFrom w =>
    exact .inr (.inl ⟨this, _, raisesProjection_set inFrom w, h, fun i hi => (Option.some_inj.mp hi).symm⟩)
  | getProjectionMatrix this =>
    obtain ⟨⟨projection, u⟩, hcall, h⟩ := Cpp.bind_eq_ok.mp h
    cases h
    exact .inr (.inr (.inr ⟨rfl, this, projection, hcall⟩))

/-! ## The invariant -/

/-- Transforms as constructed, below one another in no circle, and cameras on some of them. -/
structure Start (s : View M) : Prop where
  dirty : ∀ t ∈ s.transforms, t.dirty = true
  acyclic : s.Acyclic
  placed : ∀ k ∈ s.kameras, ∃ transform, k.transform = some transform ∧ transform < s.transforms.length

variable (ops) in
/-- Every transform is fresh, and so is every camera whose projection has been written. -/
structure Coherent (calls : List ViewCall) (s : View M) : Prop where
  acyclic : s.Acyclic
  transforms : ∀ t ∈ s.transforms, t.Fresh ops
  placed : ∀ k ∈ s.kameras, ∃ transform, k.transform = some transform ∧ transform < s.transforms.length
  kameras : ∀ this k, s.kameras[this]? = some k → Projected calls this → k.Fresh ops

/-- Every flag is raised at the start. -/
theorem Start.coherent (h : Start s) : Coherent ops [] s where
  acyclic := h.acyclic
  transforms t ht hdirty := by
    rw [h.dirty t ht] at hdirty
    cases hdirty
  placed := h.placed
  kameras := by
    rintro _ _ _ ⟨_, hcall, _⟩
    cases hcall

/-- `GetWorldMatrix` of a stored transform returns the product along the chain, and writes kept matrices and flags only. -/
theorem getWorldMatrix_of_fresh (hacyclic : s.Acyclic) (hfresh : ∀ t ∈ s.transforms, t.Fresh ops)
    (hthis : this < s.transforms.length) :
    ∃ world transforms, View.getWorldMatrix ops s this = .ok (world, { s with transforms }) ∧
      WorldOf ops s.transforms this world ∧ SameFields s.transforms transforms ∧ ∀ t ∈ transforms, t.Fresh ops := by
  have hend : Forest.ancestor (above s.transforms) s.transforms.length this = none := by
    have := Forest.ancestor_card_eq_none (s := Finset.range s.transforms.length)
      (fun a p hp => Finset.mem_range.mpr (hacyclic.stored a p hp)) hacyclic.noCircle (Finset.mem_range.mpr hthis)
    rwa [Finset.card_range] at this
  obtain ⟨world, transforms, hcall, hworld, hsame, hkept⟩ :=
    getWorldMatrix_spec hfresh hacyclic.stored hthis hend (Nat.le_refl _)
  refine ⟨world, transforms, ?_, hworld, hsame, hkept⟩
  rw [View.getWorldMatrix, hcall]
  rfl

/-- The chains of parents end where they ended. -/
theorem Acyclic.of_sameFields {transforms : List (MatrixTransform M)} (h : s.Acyclic)
    (hsame : SameFields s.transforms transforms) : Acyclic { s with transforms } where
  stored a p hp := by
    have hp : above transforms a = some p := hp
    rw [hsame.above] at hp
    exact hsame.length ▸ h.stored a p hp
  noCircle n a hn := by
    refine h.noCircle n a ?_
    have hn : Forest.ancestor (above transforms) (n + 1) a = some a := hn
    rwa [hsame.above] at hn

/-- A member of a transform keeps the invariant. -/
theorem Coherent.onTransform {f : Transform → Comp Transform} (h : Coherent ops calls s) (hf : Raises ops f)
    (hcall : s.onTransform this f = .ok t) (hacyclic : t.Acyclic) : Coherent ops calls t := by
  obtain ⟨old, hold, hcall⟩ := Cpp.bind_eq_ok.mp hcall
  obtain ⟨fields, hfields, hcall⟩ := Cpp.bind_eq_ok.mp hcall
  obtain ⟨transforms, hset, hcall⟩ := Cpp.bind_eq_ok.mp hcall
  cases hcall
  obtain ⟨hthis, rfl⟩ := setAt_eq_ok.mp hset
  refine ⟨hacyclic, fun u hu => ?_, fun k hk => ?_, h.kameras⟩
  · rcases List.mem_or_eq_of_mem_set hu with hu | rfl
    · exact h.transforms u hu
    · intro hdirty
      rcases hf _ _ hfields with hraised | ⟨hflag, hmatrix⟩
      · exact absurd (hraised.symm.trans hdirty) nofun
      · exact (h.transforms old (List.mem_of_getElem? (elemAt_eq_ok.mp hold)) (hflag.symm.trans hdirty)).trans hmatrix.symm
  · obtain ⟨transform, hk, hlt⟩ := h.placed k hk
    exact ⟨transform, hk, by rwa [List.length_set]⟩

/-- A member of a camera keeps the invariant, and starts the camera if it has written the whole projection. -/
theorem Coherent.onKamera {f : Kamera → Comp Kamera} (h : Coherent ops calls s) (hf : RaisesProjection f)
    (hcall : s.onKamera this f = .ok t) (hthis : ∀ i, call.projected = some i → i = this) :
    Coherent ops (calls ++ [call]) t := by
  obtain ⟨old, hold, hcall⟩ := Cpp.bind_eq_ok.mp hcall
  obtain ⟨fields, hfields, hcall⟩ := Cpp.bind_eq_ok.mp hcall
  obtain ⟨kameras, hset, hcall⟩ := Cpp.bind_eq_ok.mp hcall
  cases hcall
  obtain ⟨hlt, rfl⟩ := setAt_eq_ok.mp hset
  obtain ⟨hraised, htransform⟩ := hf _ _ hfields
  refine ⟨⟨h.acyclic.stored, h.acyclic.noCircle⟩, h.transforms, fun k hk => ?_, fun i k hk hprojected => ?_⟩
  · rcases List.mem_or_eq_of_mem_set hk with hk | rfl
    · exact h.placed k hk
    · obtain ⟨transform, hold', hlt⟩ := h.placed old (List.mem_of_getElem? (elemAt_eq_ok.mp hold))
      exact ⟨transform, htransform.trans hold', hlt⟩
  · rcases eq_or_ne i this with rfl | hne
    · rw [List.getElem?_set_self hlt] at hk
      cases hk
      intro hdirty
      exact absurd (hraised.symm.trans hdirty) nofun
    · rw [List.getElem?_set_ne hne.symm] at hk
      rcases projected_concat.mp hprojected with hbefore | hnow
      · exact h.kameras i k hk hbefore
      · exact absurd (hthis i hnow) hne

/-- Transforms that are only computed again. -/
theorem Coherent.of_sameFields {transforms : List (MatrixTransform M)} (h : Coherent ops calls s)
    (hsame : SameFields s.transforms transforms) (hkept : ∀ t ∈ transforms, t.Fresh ops) :
    Coherent ops calls { s with transforms } := by
  refine ⟨h.acyclic.of_sameFields hsame, hkept, fun k hk => ?_, h.kameras⟩
  obtain ⟨transform, hk, hlt⟩ := h.placed k hk
  exact ⟨transform, hk, hsame.length ▸ hlt⟩

/-- `GetWorldMatrix` is called on stored transforms only, and keeps the invariant. -/
theorem Coherent.getWorldMatrix {world : M} (h : Coherent ops calls s) (hcall : View.getWorldMatrix ops s this = .ok (world, t)) :
    Coherent ops calls t := by
  by_cases hthis : this < s.transforms.length
  · obtain ⟨_, transforms, hreturns, -, hsame, hkept⟩ := getWorldMatrix_of_fresh h.acyclic h.transforms hthis
    rw [hreturns] at hcall
    cases hcall
    exact h.of_sameFields hsame hkept
  · rw [View.getWorldMatrix, MatrixTransform.getWorldMatrix] at hcall
    obtain ⟨r, hwithin, hcall⟩ := Cpp.bind_eq_ok.mp hcall
    cases hlength : s.transforms.length with
    | zero =>
      rw [hlength] at hwithin
      cases hwithin
      cases hcall
    | succ n =>
      rw [hlength, Forest.within] at hwithin
      obtain ⟨_, helem, -⟩ := Cpp.bind_eq_ok.mp hwithin
      rw [elemAt_eq_ok, List.getElem?_eq_none (Nat.le_of_not_lt hthis)] at helem
      cases helem

/-- What `getProjectionMatrix` has done when it asks for the matrix of the transform. -/
theorem Coherent.refreshKamera {k : MatrixKamera M} (h : Coherent ops calls s) (hk : s.kameras[this]? = some k) :
    Coherent ops calls { s with kameras := s.kameras.set this (k.refresh ops) } := by
  obtain ⟨hthis, -⟩ := List.getElem?_eq_some_iff.mp hk
  refine ⟨⟨h.acyclic.stored, h.acyclic.noCircle⟩, h.transforms, fun l hl => ?_, fun i l hl hprojected => ?_⟩
  · rcases List.mem_or_eq_of_mem_set hl with hl | rfl
    · exact h.placed l hl
    · rw [(MatrixKamera.refresh_eq k).1]
      exact h.placed k (List.mem_of_getElem? hk)
  · rcases eq_or_ne i this with rfl | hne
    · rw [List.getElem?_set_self hthis] at hl
      cases hl
      exact MatrixKamera.fresh_refresh (h.kameras i k hk hprojected)
    · rw [List.getElem?_set_ne hne.symm] at hl
      exact h.kameras i l hl hprojected

/-- `getProjectionMatrix` of a stored camera whose projection has been written returns the product of the two matrices. -/
theorem getProjectionMatrix_of_coherent {k : MatrixKamera M} (h : Coherent ops calls s) (hk : s.kameras[this]? = some k) :
    ∃ transform world t, k.transform = some transform ∧ WorldOf ops s.transforms transform world ∧
      View.getProjectionMatrix ops s this = .ok (ops.multiply world (k.refresh ops).projectionMatrix, t) := by
  obtain ⟨transform, htransform, hlt⟩ := h.placed k (List.mem_of_getElem? hk)
  have hstored := h.refreshKamera hk
  obtain ⟨world, transforms, hworld, hproduct, -, -⟩ :=
    getWorldMatrix_of_fresh hstored.acyclic hstored.transforms hlt
  refine ⟨transform, world, { transforms, kameras := s.kameras.set this (k.refresh ops) }, htransform, hproduct, ?_⟩
  obtain ⟨hthis, -⟩ := List.getElem?_eq_some_iff.mp hk
  have hset : setAt s.kameras this (k.refresh ops) = .ok (s.kameras.set this (k.refresh ops)) :=
    setAt_eq_ok.mpr ⟨hthis, rfl⟩
  rw [View.getProjectionMatrix, elemAt_eq_ok.mpr hk, ok_bind]
  simp only [hset, ok_bind, (MatrixKamera.refresh_eq k).1, htransform, hworld]
  rfl

/-- `getProjectionMatrix` keeps the invariant. -/
theorem Coherent.getProjectionMatrix {projection : M} (h : Coherent ops calls s)
    (hcall : View.getProjectionMatrix ops s this = .ok (projection, t)) : Coherent ops calls t := by
  obtain ⟨k, hk, hcall⟩ := Cpp.bind_eq_ok.mp hcall
  rw [elemAt_eq_ok] at hk
  obtain ⟨kameras, hset, hcall⟩ := Cpp.bind_eq_ok.mp hcall
  obtain ⟨-, rfl⟩ := setAt_eq_ok.mp hset
  split at hcall
  · cases hcall
  · obtain ⟨⟨world, u⟩, hworld, hcall⟩ := Cpp.bind_eq_ok.mp hcall
    cases hcall
    exact (h.refreshKamera hk).getWorldMatrix hworld

/-- Every call keeps the invariant. -/
theorem Coherent.step (h : Coherent ops calls s) (hstep : (machine ops).Step s call t) :
    Coherent ops (calls ++ [call]) t := by
  have hacyclic : t.Acyclic := hstep.1 t hstep.2
  have hconcat : call.projected = none → ∀ {u : View M}, Coherent ops calls u → Coherent ops (calls ++ [call]) u := by
    intro hnone u hu
    refine ⟨hu.acyclic, hu.transforms, hu.placed, fun i k hk hprojected => ?_⟩
    rcases projected_concat.mp hprojected with hbefore | hnow
    · exact hu.kameras i k hk hbefore
    · rw [hnone] at hnow
      cases hnow
  rcases next_cases hstep.2 with ⟨hnone, this, f, hf, hcall⟩ | ⟨this, f, hf, hcall, hthis⟩ | ⟨hnone, this, world, hcall⟩ |
    ⟨hnone, this, projection, hcall⟩
  · exact hconcat hnone (h.onTransform hf hcall hacyclic)
  · exact h.onKamera hf hcall hthis
  · exact hconcat hnone (h.getWorldMatrix hcall)
  · exact hconcat hnone (h.getProjectionMatrix hcall)

/-! ## Every run -/

/-- After any calls on transforms whose pointers to parents lead in no circle, `GetWorldMatrix` of any of them returns the
product of the matrices along the chain of parents, each computed from the fields as they are; and `getProjectionMatrix` of a
camera whose projection has been written returns such a product times the projection of its fields as they are. -/
theorem matrices_of_fields {start : View M} (hstart : Start start) (h : Run (machine ops) start calls s) :
    (∀ this, this < s.transforms.length →
      ∃ world t, View.getWorldMatrix ops s this = .ok (world, t) ∧ WorldOf ops s.transforms this world) ∧
    ∀ this k, s.kameras[this]? = some k → Projected calls this →
      ∃ transform world t, k.transform = some transform ∧ WorldOf ops s.transforms transform world ∧
        View.getProjectionMatrix ops s this = .ok (ops.multiply world (k.projection ops), t) := by
  have hcoherent : Coherent ops calls s :=
    h.invariant (Coherent ops) hstart.coherent fun _ _ _ _ hbefore hstep => hbefore.step hstep
  constructor
  · intro this hthis
    obtain ⟨world, transforms, hcall, hworld, -⟩ :=
      getWorldMatrix_of_fresh hcoherent.acyclic hcoherent.transforms hthis
    exact ⟨world, _, hcall, hworld⟩
  · intro this k hk hprojected
    obtain ⟨transform, world, t, htransform, hworld, hcall⟩ := getProjectionMatrix_of_coherent hcoherent hk
    rw [MatrixKamera.refresh_projectionMatrix (hcoherent.kameras this k hk hprojected)] at hcall
    exact ⟨transform, world, t, htransform, hworld, hcall⟩

/-! ## A camera below another transform -/

/-- Operations that write down what they are given. -/
def marks : Matrices (List FloatBits) where
  add x y := x + y
  neg x := -x
  half x := x / 2
  translation x y z := [1, x, y, z]
  rotationX x := [2, x]
  rotationY y := [3, y]
  rotationZ z := [4, z]
  scaling x y z := [5, x, y, z]
  multiply m n := m ++ n
  orthographicOffCenterLH l r b t n f := [6, l, r, b, t, n, f]
  perspectiveOffCenterLH l r b t n f := [7, l, r, b, t, n, f]

def storage : Storage := ⟨fun _ => true, fun _ => 0, fun _ => none⟩

/-- Two transforms, the second below the first, and a camera on the second. -/
def pair : View (List FloatBits) where
  transforms := [⟨Transform.new storage, []⟩, ⟨{ Transform.new storage with parrent := some 0 }, []⟩]
  kameras := [⟨{ Kamera.new storage with transform := some 1 }, []⟩]

/-- The camera is used, and the transform above its own is moved after that. -/
def pairCalls : List ViewCall :=
  [.setProjection 0 8 6 100 1, .getProjectionMatrix 0, .setPosition 0 (3, 4, 5)]

/-- One transform below another. -/
theorem acyclic_pair {a b : MatrixTransform M} {kameras : List (MatrixKamera M)} (ha : a.parrent = none)
    (hb : b.parrent = some 0) : Acyclic ⟨[a, b], kameras⟩ := by
  have hup : ∀ this parrent, parrentOf ⟨[a, b], kameras⟩ this = some parrent → this = 1 ∧ parrent = 0 := by
    intro this parrent h
    match this with
    | 0 => exact absurd (ha.symm.trans h) nofun
    | 1 => exact ⟨rfl, Option.some_inj.mp (h.symm.trans hb)⟩
    | _ + 2 => cases h
  constructor
  · intro this parrent h
    rw [(hup this parrent h).2]
    exact Nat.zero_lt_two
  · intro n this h
    obtain ⟨parrent, hparrent, h⟩ := Option.bind_eq_some_iff.mp h
    obtain ⟨rfl, rfl⟩ := hup this parrent hparrent
    cases n with
    | zero => cases h
    | succ n =>
      obtain ⟨parrent, hparrent, -⟩ := Option.bind_eq_some_iff.mp h
      exact absurd (hup 0 parrent hparrent).1 Nat.zero_ne_one

theorem start_pair : Start pair where
  dirty := by
    intro t ht
    simp only [pair, List.mem_cons, List.not_mem_nil, or_false] at ht
    rcases ht with rfl | rfl
    · rfl
    · rfl
  acyclic := acyclic_pair rfl rfl
  placed := by
    intro k hk
    rw [List.mem_singleton.mp hk]
    exact ⟨1, rfl, Nat.one_lt_two⟩

/-- The state the calls lead to. -/
theorem run_pair : ∃ t k, Run (machine marks) pair pairCalls t ∧ t.transforms.length = 2 ∧ t.kameras[0]? = some k ∧
    Projected pairCalls 0 := by
  refine ⟨_, _, .cons ⟨fun t ht => ?_, rfl⟩ (.cons ⟨fun t ht => ?_, rfl⟩ (.cons ⟨fun t ht => ?_, rfl⟩ .nil)), rfl, rfl,
    _, List.mem_cons_self, rfl⟩
  · cases ht
    exact acyclic_pair rfl rfl
  · cases ht
    exact acyclic_pair rfl rfl
  · cases ht
    exact acyclic_pair rfl rfl

theorem matrices_of_fields_pair : ∃ s, Run (machine marks) pair pairCalls s ∧
    (∃ world t, View.getWorldMatrix marks s 1 = .ok (world, t) ∧ WorldOf marks s.transforms 1 world) ∧
    ∃ k transform world t, s.kameras[0]? = some k ∧ k.transform = some transform ∧
      WorldOf marks s.transforms transform world ∧
      View.getProjectionMatrix marks s 0 = .ok (world ++ k.projection marks, t) := by
  obtain ⟨s, k, hrun, hlength, hk, hprojected⟩ := run_pair
  obtain ⟨htransforms, hkameras⟩ := matrices_of_fields start_pair hrun
  obtain ⟨transform, world, t, htransform, hworld, hcall⟩ := hkameras 0 k hk hprojected
  exact ⟨s, hrun, htransforms 1 (hlength ▸ Nat.one_lt_two), k, transform, world, t, hk, htransform, hworld, hcall⟩

end View

end Engine
