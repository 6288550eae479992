import BackupEngine.Lemmas.Components
import BackupEngine.Lemmas.Dense

/-!
# Saving, clearing and loading the singleton

What `afterSet` leaves alone, and a whole reload of a scene: when it returns, and what it makes of the flags of the
components.
-/

namespace Serializer

open Cpp

open ByteStack (Shrinks)

variable {κ C : Type} [ComponentClasses κ C]

namespace ObjectStorrage

/-! ## What `afterSet` leaves alone -/

theorem getById_store_cases {st : ObjectStorrage κ} {k j : Int32} {g o : GameObject κ} (h : (st.store k g).getById j = some o) :
    o = g ∨ st.getById j = some o := by
  simp only [getById, store, Std.ExtTreeMap.getElem?_modify] at h
  split at h
  · obtain ⟨_, _, rfl⟩ := Option.map_eq_some_iff.mp h
    exact .inl rfl
  · exact .inr h

theorem AllComponents.store {st : ObjectStorrage κ} {P : Component κ → Prop} (h : st.AllComponents P) {k : Int32}
    {g : GameObject κ} (hg : ∀ c ∈ g.componenten, P c) : (st.store k g).AllComponents P := by
  intro j o ho
  rcases getById_store_cases ho with rfl | ho
  · exact hg
  · exact h j o ho

/-- `afterSet` of an object changes nothing in its components but what `afterSet` of the component changes. -/
theorem AllComponents.afterSetObject {st st' : ObjectStorrage κ} {P : Component κ → Prop} (h : st.AllComponents P)
    (hP : ∀ (c : Component κ) data, P c → P { c with data }) {ID : Int32} (hset : st.afterSetObject ID = .ok st') :
    st'.AllComponents P := by
  obtain ⟨_, _, hset⟩ := bind_eq_ok.mp hset
  obtain ⟨_, _, hset⟩ := bind_eq_ok.mp hset
  refine foldlM_invariant (fun st => st.AllComponents P) (fun s i t hs ht => ?_) h hset
  obtain ⟨me, hme, ht⟩ := bind_eq_ok.mp ht
  obtain ⟨c, hc, ht⟩ := bind_eq_ok.mp ht
  obtain ⟨data, _, ht⟩ := bind_eq_ok.mp ht
  obtain ⟨cs, hcs, ht⟩ := bind_eq_ok.mp ht
  cases ht
  obtain ⟨_, rfl⟩ := setAt_eq_ok.mp hcs
  have hmine := hs ID me (deref_eq_ok.mp hme)
  refine hs.store fun d hd => ?_
  rcases List.mem_or_eq_of_mem_set hd with hd | rfl
  · exact hmine d hd
  · exact hP c data (hmine c (List.mem_of_getElem? (elemAt_eq_ok.mp hc)))

theorem AllComponents.afterSet {st st' : ObjectStorrage κ} {P : Component κ → Prop} (h : st.AllComponents P)
    (hP : ∀ (c : Component κ) data, P c → P { c with data }) (hset : st.afterSet = .ok st') : st'.AllComponents P := by
  obtain ⟨_, _, hset⟩ := bind_eq_ok.mp hset
  exact foldlM_invariant (fun st => st.AllComponents P) (fun _ _ _ hs ht => hs.afterSetObject hP ht) h hset

/-! ## Loads -/

/-- The components of a loaded storage are made of what the memory held at the load. -/
theorem load_made (hpops : Pops κ) {st st' : ObjectStorrage κ} (hst : st.objects = ∅) {image rest name : List UInt8}
    (hlt : image.length < 2 ^ 31) {w w' : World} (h : st.load (image, w) = .ok ((name, st'), rest, w')) :
    st'.AllComponents (Made w.memory) := by
  have hload : Shrinks (fun w' => w'.memory = w.memory) (2 ^ 31) st.load 0 fun r => r.2.AllComponents (Made w.memory) := by
    refine Shrinks.bind (k := 0) (m := 0) readString_shrinks.keeps fun _ _ => ?_
    refine Shrinks.bind (m := 0) (Q := fun st' => st'.AllComponents (Made w.memory)) ?_ fun _ h => Shrinks.pure h
    refine Shrinks.bind (k := 0) (m := 0) (read_shrinks UInt64).keeps fun n _ => ?_
    exact (forUpTo_set_shrinks hpops n (AllComponents.of_empty hst)).mono (Nat.zero_le _) fun _ h => h
  exact (hload image w _ rest w' hlt rfl h).2.2

/-- The components of a loaded storage have the `isActiv` their storage held. -/
theorem load_isActiv (hpops : Pops κ) {st st' : ObjectStorrage κ} (hst : st.objects = ∅) {image rest name : List UInt8}
    (hlt : image.length < 2 ^ 31) {w w' : World} (h : st.load (image, w) = .ok ((name, st'), rest, w')) :
    st'.AllComponents fun c => c.isActiv = (w.memory c.addr).flag 0 :=
  fun k g hg c hc => (load_made hpops hst hlt h k g hg c hc).isActiv

/-- The bytes of a storage without names, children and components. -/
theorem length_bareBytes {st : ObjectStorrage κ} (hbare : st.Bare)
    (hchilds : ∀ k g, st.getById k = some g → g.childrenIds = []) :
    st.bareBytes.length = 40 * st.objects.size + 32 := by
  have hone : ∀ it ∈ st.objects.toList, (encodeObject (fun _ => []) it.2).length = 40 := by
    intro it hit
    have hget := mem_toList.mp hit
    have hname : (chars "class GameObject").length = 16 := by decide
    simp only [encodeObject, encodeMembers, (hbare _ _ hget).1, (hbare _ _ hget).2, hchilds _ _ hget, encodeAll,
      List.reverse_nil, List.flatMap_nil, List.length_append, List.length_nil, length_encodeString,
      StandardLayout.length_toBytes, sizeof_int32, hname]
  have hname : (chars "class ObjectStorrage").length = 20 := by decide
  have hcount : sizeof UInt64 = 8 := by decide
  rw [bareBytes, encodeStorrage, List.length_append, List.length_append, length_flatMap_const hone,
    Std.ExtTreeMap.length_toList, StandardLayout.length_toBytes, length_encodeString]
  omega

end ObjectStorrage

end Serializer
