import BackupEngine.Application.SceenViewer
import BackupEngine.Lemmas.Trees
import BackupEngine.Serializer.Reparenting

/-!
# A throw in setParrentID

`setParrentID` takes the object out of the list of its parent before it looks the new parent up. Where it then throws, the
object still has the id of its old parent, which no longer has the object in its list, and nothing can move the object any
more.
-/

namespace Serializer

open Cpp

variable {κ C : Type} [ComponentClasses κ C]

namespace ObjectStorrage

variable {st st' : ObjectStorrage κ}

theorem run_ask {α : Type} (f : ObjectStorrage κ → Comp α) (st : ObjectStorrage κ) :
    (ask f).run st = match f st with
      | .ok a => .ok a st
      | .error e => .error e st := rfl

theorem run_change (f : ObjectStorrage κ → Comp (ObjectStorrage κ)) (st : ObjectStorrage κ) :
    (change f).run st = match f st with
      | .ok st' => .ok () st'
      | .error e => .error e st := by
  rw [change, EStateM.run_bind, run_ask]
  cases f st <;> rfl

/-- Statement by statement `setParrentID` does what it does taken as one. -/
theorem setParrentIDFrom_eq (this parrentID : Int32) (st : ObjectStorrage κ) :
    (match (setParrentIDFrom this parrentID).run st with
      | .ok _ t => .ok t
      | .error e _ => .error e) = st.setParrentID this parrentID := by
  rw [setParrentIDFrom, setParrentID, EStateM.run_bind, run_ask]
  cases st.deref this with
  | error e => rfl
  | ok me =>
    simp only [ok_bind, EStateM.run_bind, run_change]
    cases st.leaveParrent me with
    | error e => rfl
    | ok st₁ =>
      simp only [ok_bind]
      cases st₁.enterParrent parrentID me with
      | error e => rfl
      | ok st₂ =>
        simp only [ok_bind]
        cases st₂.deref this <;> rfl

/-- For an id that is not stored `setParrentID` throws behind the statement that took the object out of its parent's list. -/
theorem setParrentIDFrom_throws (h : st.Agrees) {a p : Int32} {g : GameObject κ} (ha : st.getById a = some g)
    (hp : p ≠ EMPTY_ID) (hnone : st.getById p = none) :
    ∃ st', st.leaveParrent g = .ok st' ∧ (setParrentIDFrom a p).run st = .error .thrown st' := by
  obtain ⟨st', hleave, _, hget⟩ := leaveParrent_spec h ha
  have henter : st'.enterParrent p g = .error .thrown := by
    rw [enterParrent, if_pos hp, hget, hnone]
    rfl
  refine ⟨st', hleave, ?_⟩
  rw [setParrentIDFrom, EStateM.run_bind, run_ask, deref_eq_ok.mpr ha]
  simp only [EStateM.run_bind, run_change, hleave, henter]

/-- The list of the parent has the object once. -/
theorem Agrees.count_parrent (h : st.Agrees) {a : Int32} {g : GameObject κ} (ha : st.getById a = some g)
    (hne : g.parrentID ≠ EMPTY_ID) : ∃ o, st.getById g.parrentID = some o ∧ o.childrenIds.count a = 1 := by
  obtain ⟨o, ho⟩ := h.parents a g ha hne
  exact ⟨o, ho, by rw [h.edges _ o a g ho ha, if_pos rfl]⟩

/-- Every object has the parent id and the child list that it had. -/
def LinksKept (st st' : ObjectStorrage κ) : Prop :=
  ∀ k, (st'.getById k).map (fun o => (o.parrentID, o.childrenIds)) = (st.getById k).map fun o => (o.parrentID, o.childrenIds)

/-- `setParrentID` throws, leaves all parent ids and child lists as they were, and can afterwards move the object or detach
it. -/
def ThrowsCleanly (st : ObjectStorrage κ) (a p : Int32) : Prop :=
  ∃ st', (setParrentIDFrom a p).run st = .error .thrown st' ∧ LinksKept st st' ∧
    ∀ q, q = EMPTY_ID ∨ (∃ o, st'.getById q = some o) → ∃ st'', (setParrentIDFrom a q).run st' = .ok () st''

/-- After a throw an object that has a parent cannot be moved or detached any more. -/
theorem setParrentIDFrom_stuck (h : st.Agrees) {a p : Int32} {g : GameObject κ} (ha : st.getById a = some g)
    (hne : g.parrentID ≠ EMPTY_ID) (hthrown : (setParrentIDFrom a p).run st = .error .thrown st') (hp : p ≠ EMPTY_ID)
    (hnone : st.getById p = none) (q : Int32) : (setParrentIDFrom a q).run st' = .error .eraseEnd st' := by
  obtain ⟨st₁, hleave, hrun⟩ := setParrentIDFrom_throws h ha hp hnone
  cases hthrown.symm.trans hrun
  obtain ⟨st₂, hleave₂, _, hget⟩ := leaveParrent_spec h ha
  cases hleave.symm.trans hleave₂
  obtain ⟨o, ho, hcount⟩ := h.count_parrent ha hne
  have ha' := hget a
  rw [ha, Option.map_some] at ha'
  have ho' := hget g.parrentID
  rw [ho, Option.map_some, if_pos rfl] at ho'
  have hnot : a ∉ o.childrenIds.erase a := by
    rw [← List.count_pos_iff, List.count_erase_self, hcount]
    exact Nat.lt_irrefl 0
  have hstuck : st'.leaveParrent { g with
      childrenIds := if a = g.parrentID then g.childrenIds.erase a else g.childrenIds } = .error .eraseEnd := by
    rw [leaveParrent, if_pos hne, deref_eq_ok.mpr ho', ok_bind, GameObject.remChild, h.keyed a g ha, if_neg hnot]
    rfl
  rw [setParrentIDFrom, EStateM.run_bind, run_ask, deref_eq_ok.mpr ha']
  simp only [EStateM.run_bind, run_change, hstuck]

/-- In every storage that agrees, for every stored object and every id that is neither empty nor stored: `setParrentID` throws
cleanly exactly when the object has no parent. -/
theorem throwsCleanly_iff (h : st.Agrees) {a p : Int32} {g : GameObject κ} (ha : st.getById a = some g) (hp : p ≠ EMPTY_ID)
    (hnone : st.getById p = none) : ThrowsCleanly st a p ↔ g.parrentID = EMPTY_ID := by
  obtain ⟨st', hleave, hthrown⟩ := setParrentIDFrom_throws h ha hp hnone
  constructor
  · rintro ⟨st₁, hrun, hkept, _⟩
    cases hrun.symm.trans hthrown
    obtain ⟨st₂, hleave₂, _, hget⟩ := leaveParrent_spec h ha
    cases hleave.symm.trans hleave₂
    by_contra hne
    obtain ⟨o, ho, hcount⟩ := h.count_parrent ha hne
    have hlist := hkept g.parrentID
    rw [hget, ho, Option.map_some, Option.map_some, Option.map_some, if_pos rfl, Option.some_inj] at hlist
    have hcount' := congrArg (fun l => l.2.count a) hlist
    simp only [List.count_erase_self, hcount] at hcount'
    omega
  · intro hempty
    have hst : st' = st := by
      rw [leaveParrent, if_neg (not_not_intro hempty)] at hleave
      cases hleave
      rfl
    subst hst
    refine ⟨st', hthrown, fun _ => rfl, fun q hq => ?_⟩
    obtain ⟨st'', hok, _⟩ := setParrentID_spec h ha hq
    rw [← setParrentIDFrom_eq] at hok
    split at hok
    · exact ⟨_, ‹_›⟩
    · cases hok

/-- An object and its child. -/
def family : ObjectStorrage SceenViewer.Data :=
  let parrent : GameObject SceenViewer.Data := { ID := 0, childrenIds := [1], isActiv := true }
  let child : GameObject SceenViewer.Data := { ID := 1, parrentID := 0, isActiv := true }
  { objects := .ofList [((0 : Int32), parrent), (1, child)], counter := 2 }

theorem family_agrees : family.Agrees := by
  refine .of_entries ?_
  decide +kernel

/-- The object that has no parent. -/
theorem throwsCleanly_root : ThrowsCleanly family 0 7 := by
  obtain ⟨g, hg, hempty⟩ : ∃ g, family.getById 0 = some g ∧ g.parrentID = EMPTY_ID := ⟨_, rfl, rfl⟩
  exact (throwsCleanly_iff family_agrees hg (by decide) (by decide +kernel)).mpr hempty

/-- The child has left the list of the parent that it still names, and cannot be detached. -/
theorem throw_leaves_child :
    family.Agrees ∧ ∃ st, (setParrentIDFrom 1 7).run family = .error .thrown st ∧
      (st.getById 0).map GameObject.childrenIds = some [] ∧ (st.getById 1).map GameObject.parrentID = some 0 ∧
      (setParrentIDFrom 1 EMPTY_ID).run st = .error .eraseEnd st ∧ ¬ThrowsCleanly family 1 7 := by
  have hg : family.getById 1 = some { ID := 1, parrentID := 0, isActiv := true } := rfl
  have hne : (0 : Int32) ≠ EMPTY_ID := by decide
  obtain ⟨st, hleave, hthrown⟩ := setParrentIDFrom_throws (p := 7) family_agrees hg (by decide) (by decide +kernel)
  obtain ⟨st', hleave', _, hget⟩ := leaveParrent_spec family_agrees hg
  cases hleave.symm.trans hleave'
  have hlist : (st.getById 0).map GameObject.childrenIds = some [] := by
    rw [hget]
    decide +kernel
  have hparrent : (st.getById 1).map GameObject.parrentID = some 0 := by
    rw [hget]
    decide +kernel
  have hstuck := setParrentIDFrom_stuck family_agrees hg hne hthrown (by decide) (by decide +kernel) EMPTY_ID
  refine ⟨family_agrees, st, hthrown, hlist, hparrent, hstuck, ?_⟩
  rintro ⟨st', hrun, _, hagain⟩
  cases hthrown.symm.trans hrun
  obtain ⟨st'', hok⟩ := hagain EMPTY_ID (.inl rfl)
  cases hstuck.symm.trans hok

end ObjectStorrage

end Serializer
