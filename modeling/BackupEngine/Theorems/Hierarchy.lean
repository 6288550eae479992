import BackupEngine.Lemmas.Components
import BackupEngine.Lemmas.Hierarchy

/-!
# Parents and children agree

The states the singleton storage gets into by the operations on its hierarchy, and what holds in all of them: an object is
in the list of its parent once and in no other list, its parent is stored, and moving it never faults.
-/

namespace Engine

open Cpp Serializer

/-- The states of the singleton reached from the empty one. A load is a load into an empty state of what `serialize` pushed
in a state so reached; heap and disk may be in any state whenever an operation touches them. -/
inductive Reachable : ObjectStorrage Data → Prop where
  | empty : Reachable {}
  | createGameObject {st st' : ObjectStorrage Data} {w w' : World} {ID : Int32} :
    Reachable st → st.createGameObject w = .ok ((ID, st'), w') → Reachable st'
  | setParrent {st st' : ObjectStorrage Data} {this parrent : Int32} {me there : GameObject Data} :
    Reachable st → st.getById this = some me → st.getById parrent = some there →
      st.setParrent this parrent = .ok st' → Reachable st'
  | setParrentID {st st' : ObjectStorrage Data} {this parrentID : Int32} {me : GameObject Data} :
    Reachable st → st.getById this = some me → (parrentID = EMPTY_ID ∨ ∃ there, st.getById parrentID = some there) →
      st.setParrentID this parrentID = .ok st' → Reachable st'
  | clear {st st' : ObjectStorrage Data} {deletes : Class → Bool} :
    Reachable st → st.clear deletes = .ok st' → Reachable st'
  | load {st₀ st st' : ObjectStorrage Data} {image rest name : List UInt8} {w w₁ w₂ w₃ : World} :
    Reachable st₀ → Reachable st → st.objects = ∅ → st₀.serialize ([], w) = .ok ((), image, w₁) →
      st.load (image, w₂) = .ok ((name, st'), rest, w₃) → Reachable st'

namespace Reachable

theorem move {st st' : ObjectStorrage Data} (h : st.Hierarchy) (hbare : st.Bare) {this parrentID : Int32}
    {me : GameObject Data} (hme : st.getById this = some me)
    (hp : parrentID = EMPTY_ID ∨ ∃ there, st.getById parrentID = some there) (hmove : st.setParrentID this parrentID = .ok st') :
    st'.Hierarchy ∧ st'.Bare := by
  obtain ⟨st'', hset, hcounter, hget⟩ := ObjectStorrage.setParrentID_spec h.agrees hme hp
  rw [hset] at hmove
  cases hmove
  refine ⟨h.reparent hme hp hcounter hget, fun k g hk => ?_⟩
  rw [hget] at hk
  obtain ⟨o, ho, rfl⟩ := Option.map_eq_some_iff.mp hk
  exact hbare k o ho

/-- Every reachable state is a hierarchy of objects that hold nothing but ids. -/
theorem hierarchy {st : ObjectStorrage Data} (h : Reachable st) : st.Hierarchy ∧ st.Bare := by
  induction h with
  | empty => exact ⟨.empty 0 (Int.le_refl 0), fun k g hk => by simp [ObjectStorrage.getById] at hk⟩
  | createGameObject _ hcreate ih =>
    obtain ⟨_, _, _, b, hget⟩ := ObjectStorrage.createGameObject_spec ih.1 hcreate
    refine ⟨ih.1.createGameObject hcreate, fun k g hk => ?_⟩
    rw [hget] at hk
    split at hk
    · cases hk
      exact ⟨rfl, rfl⟩
    · exact ih.2 k g hk
  | setParrent _ hme hthere hset ih =>
    rw [ObjectStorrage.setParrent_eq ih.1.agrees hme hthere] at hset
    exact move ih.1 ih.2 hme (.inr ⟨_, hthere⟩) hset
  | setParrentID _ hme hp hset ih => exact move ih.1 ih.2 hme hp hset
  | clear _ hclear _ =>
    obtain rfl := (ObjectStorrage.clear_eq_ok.mp hclear).2
    exact ⟨.empty 0 (Int.le_refl 0), fun k g hk => by simp [ObjectStorrage.getById] at hk⟩
  | load _ _ hempty hsave hload ih₀ ih => exact ih₀.1.load pops ih₀.2 hempty ih.1.counter hsave hload

end Reachable

/-- In every reachable state an edge is in the list of the parent once, a parent is stored, and no move of a stored object
searches a list for an id that is not in it: it does not fault at all. -/
theorem parents_and_children_agree (st : ObjectStorrage Data) (h : Reachable st) :
    (∀ ka a kb b, st.getById ka = some a → st.getById kb = some b →
        a.childrenIds.count b.ID = if b.parrentID = a.ID then 1 else 0) ∧
      (∀ k g, st.getById k = some g → g.parrentID ≠ EMPTY_ID → ∃ p, st.getById g.parrentID = some p ∧ p.ID = g.parrentID) ∧
      ∀ k g p, st.getById k = some g →
        (p = EMPTY_ID ∨ (∃ o, st.getById p = some o) → ∃ st', st.setParrentID k p = .ok st') ∧
          ((∃ o, st.getById p = some o) → ∃ st', st.setParrent k p = .ok st') := by
  have hst := h.hierarchy.1
  refine ⟨?_, ?_, ?_⟩
  · intro ka a kb b ha hb
    rw [hst.keyed ka a ha, hst.keyed kb b hb]
    exact hst.edges ka a kb b ha hb
  · intro k g hg hne
    obtain ⟨p, hp⟩ := hst.parents k g hg hne
    exact ⟨p, hp, hst.keyed _ p hp⟩
  · intro k g p hg
    refine ⟨fun hp => ?_, fun ⟨o, ho⟩ => ?_⟩
    · obtain ⟨st', hset, _⟩ := ObjectStorrage.setParrentID_spec hst.agrees hg hp
      exact ⟨st', hset⟩
    · obtain ⟨st', hset, _⟩ := ObjectStorrage.setParrentID_spec hst.agrees hg (.inr ⟨o, ho⟩)
      exact ⟨st', (ObjectStorrage.setParrent_eq hst.agrees hg ho).trans hset⟩

/-- Two new objects, the second moved under the first. -/
theorem parents_and_children_agree_pair :
    ∃ st : ObjectStorrage Data, Reachable st ∧ (st.getById 0).map GameObject.childrenIds = some [1] ∧
      (st.getById 1).map GameObject.parrentID = some 0 ∧
      ∀ a b, st.getById 0 = some a → st.getById 1 = some b →
        a.childrenIds.count b.ID = if b.parrentID = a.ID then 1 else 0 := by
  have h₁ := Reachable.createGameObject (w := .blank) .empty rfl
  have h₂ := Reachable.createGameObject (w := .blank) h₁ rfl
  have h₃ := Reachable.setParrent h₂ (rfl : ObjectStorrage.getById _ 1 = some _)
    (rfl : ObjectStorrage.getById _ 0 = some _) rfl
  exact ⟨_, h₃, rfl, rfl, fun a b ha hb => (parents_and_children_agree _ h₃).1 0 a 1 b ha hb⟩

end Engine
