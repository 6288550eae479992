import BackupEngine.Engine.Components
import BackupEngine.Lemmas.Dense

/-!
# Ids without gaps

The states a storage gets into by making objects, clearing it and loading what was saved, on top of other objects or not. In
all of them the ids are the numbers below the counter, so that a new id is free and the loops over the numbers below the size
come to every object.
-/

namespace Serializer

open Cpp

variable {κ C : Type} [ComponentClasses κ C]

namespace ObjectStorrage

/-- The states reached from the empty one. `set` is given what `serialize` pushed in a state so reached, and `name` is a public
member; heap and disk may be in any state whenever an operation touches them. -/
inductive Reached : ObjectStorrage κ → Prop where
  | empty : Reached {}
  | createGameObject {st st' : ObjectStorrage κ} {w w' : World} {ID : Int32} :
    Reached st → st.createGameObject w = .ok ((ID, st'), w') → Reached st'
  | setName {st : ObjectStorrage κ} {k : Int32} {g : GameObject κ} (name : List UInt8) :
    Reached st → st.getById k = some g → Reached (st.store k { g with name })
  | clear {st st' : ObjectStorrage κ} {deletes : C → Bool} : Reached st → st.clear deletes = .ok st' → Reached st'
  | set {st₀ st st' : ObjectStorrage κ} {image rest name : List UInt8} {w w₁ w₂ w₃ : World} :
    Reached st₀ → Reached st → st₀.serialize ([], w) = .ok ((), image, w₁) →
      st.load (image, w₂) = .ok ((name, st'), rest, w₃) → Reached st'

/-- No object has a component or a child. -/
def Alone (st : ObjectStorrage κ) : Prop := ∀ k g, st.getById k = some g → g.componenten = [] ∧ g.childrenIds = []

theorem Alone.merged {base st merged : ObjectStorrage κ} (hbase : base.Alone) (h : st.Alone)
    (hmerged : Merged (fun _ => ()) base st merged) : merged.Alone := by
  intro k g hg
  cases hk : base.getById k with
  | some o =>
    obtain rfl := Option.some_inj.mp ((hmerged.kept k o hk).symm.trans hg)
    exact hbase k o hk
  | none =>
    have hsame := hmerged.added k hk
    rw [saved, saved, hg, Option.map_some] at hsame
    obtain ⟨o, ho, hog⟩ := Option.map_eq_some_iff.mp hsame.symm
    obtain ⟨hcomp, hchilds⟩ := h k o ho
    have hcount := congrArg (fun s => s.componenten.length) hog
    simp only [GameObject.saved, hcomp, List.map_nil, List.length_nil, List.length_map] at hcount
    exact ⟨List.eq_nil_of_length_eq_zero hcount.symm, (congrArg SavedObject.childrenIds hog).symm.trans hchilds⟩

/-- A load of such a storage that returns has put its objects on top of the others. -/
theorem load_alone {st₀ st st' : ObjectStorrage κ} (halone : st₀.Alone) (hkey : st₀.Keyed) {image rest name : List UInt8}
    {w w₁ w₂ w₃ : World} (hsave : st₀.serialize ([], w) = .ok ((), image, w₁))
    (hload : st.load (image, w₂) = .ok ((name, st'), rest, w₃)) : Merged (fun _ => ()) st st₀.cut st' := by
  have hplain : st₀.Plain := fun k g hg => (halone k g hg).1
  obtain ⟨_, _, hshort⟩ := serialize_ok hsave
  have himage : image = st₀.cut.bareBytes :=
    serialize_plain hplain (fun k g hg => by rw [(halone k g hg).2]; exact Nat.zero_le _) hsave
  obtain ⟨_, _, hname, _⟩ := ByteStack.bind_eq_ok.mp hload
  obtain ⟨_, hpop, _⟩ := Cpp.bind_eq_ok.mp hname
  have hlt : ([] ++ st₀.cut.bareBytes).length < 2 ^ 31 := by
    rw [List.nil_append, ← himage]
    exact (popString_ok (by omega) hpop).1
  have hkeyed : st₀.cut.Keyed := by
    intro k g hg
    rw [getById_cut] at hg
    obtain ⟨o, ho, rfl⟩ := Option.map_eq_some_iff.mp hg
    exact hkey k o ho
  rw [himage] at hload
  have hcount := countable_of_load saves_nothing (hplain.cut.all _) hkeyed (B := []) hlt hload
  obtain ⟨r, w₄, hread, _, hmerged⟩ := load_merges saves_nothing (hplain.cut.all _) hkeyed hcount st [] w₂ hlt
  obtain ⟨rfl, _⟩ := Prod.mk.inj (Except.ok.inj (hread.symm.trans hload))
  exact hmerged

theorem Dense.cut {st : ObjectStorrage κ} (h : st.Dense) : st.cut.Dense := by
  refine ⟨fun k g hg => ?_, h.counter, fun k => ?_⟩
  · rw [getById_cut] at hg
    obtain ⟨o, ho, rfl⟩ := Option.map_eq_some_iff.mp hg
    exact h.keyed k o ho
  · rw [getById_cut, ← Option.isSome_iff_exists, Option.isSome_map, Option.isSome_iff_exists]
    exact h.stored k

namespace Reached

/-- Every state reached has dense ids, and objects that hold nothing but a name. -/
theorem dense {st : ObjectStorrage κ} (h : Reached st) : st.Dense ∧ st.Alone := by
  induction h with
  | empty => exact ⟨.empty, fun k g hg => by simp [getById] at hg⟩
  | createGameObject _ hcreate ih =>
    refine ⟨ih.1.createGameObject hcreate, fun k g hg => ?_⟩
    obtain ⟨_, _, _, b, hget⟩ := createGameObject_fresh (fun k g hg => ((ih.1.stored k).mp ⟨g, hg⟩).2) hcreate
    rw [hget] at hg
    split at hg
    · cases hg
      exact ⟨rfl, rfl⟩
    · exact ih.2 k g hg
  | setName name _ hk ih =>
    refine ⟨ih.1.store hk rfl, fun j g hg => ?_⟩
    rw [getById_store hk] at hg
    split at hg
    · cases hg
      obtain ⟨hcomp, hchilds⟩ := ih.2 _ _ hk
      exact ⟨hcomp, hchilds⟩
    · exact ih.2 j g hg
  | clear _ hclear _ =>
    obtain rfl := (clear_eq_ok.mp hclear).2
    exact ⟨.empty, fun k g hg => by simp [getById] at hg⟩
  | set _ _ hsave hload ih₀ ih =>
    have hmerged := load_alone ih₀.2 ih₀.1.keyed hsave hload
    refine ⟨ih.1.merged ih₀.1.cut hmerged, ih.2.merged (fun k g hg => ?_) hmerged⟩
    rw [getById_cut] at hg
    obtain ⟨o, ho, rfl⟩ := Option.map_eq_some_iff.mp hg
    exact ih₀.2 k o ho

end Reached

/-- A storage that can be used as an array: the ids are the numbers below its size, each carried by the object that is stored
under it, and the counter is the size; a new object is stored under a free id; the numbers below the size are the ids, each
once and in order; `findByName` returns the objects of the name in the order of their ids, and `afterSet` goes through all of
them and returns. -/
structure Indexed (st : ObjectStorrage κ) : Prop where
  stored : ∀ k, (∃ g, st.getById k = some g) ↔ 0 ≤ k.toInt ∧ k.toInt < st.objects.size
  keyed : ∀ k g, st.getById k = some g → g.ID = k
  counter : st.counter = st.objects.size
  fresh : ∀ w, ∃ ID st' w', st.createGameObject w = .ok ((ID, st'), w') ∧ st.getById ID = none ∧
    (∃ g, st'.getById ID = some g ∧ g.ID = ID) ∧ ∀ k g, st.getById k = some g → st'.getById k = some g
  visits : (List.range st.objects.size).map Int32.ofNat = st.objects.keys ∧ st.objects.keys.Nodup
  findByName : ∀ name, st.findByName name = .ok ((st.objects.toList.filter fun it => it.2.name = name).map Prod.fst)
  afterSet : st.afterSet = st.objects.keys.foldlM (fun this ID => this.afterSetObject ID) st ∧ st.afterSet = .ok st

end ObjectStorrage

end Serializer
