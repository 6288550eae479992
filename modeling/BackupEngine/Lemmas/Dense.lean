import BackupEngine.Lemmas.Hierarchy

/-!
# Storages used as arrays

`findByName` and `afterSet` go through the numbers below the size of the map. They come to every object where the ids are
these numbers, which `createGameObject`, `clear` and `set` keep.
-/

namespace Serializer

open Cpp

variable {κ C : Type} [ComponentClasses κ C]

namespace ObjectStorrage

/-- Without components there is nothing to do, as long as the numbers below the size are ids. -/
theorem afterSet_of_plain {st : ObjectStorrage κ} (hplain : st.Plain) (hsize : st.objects.size < 2 ^ 31)
    (hids : ∀ i < st.objects.size, ∃ g, st.getById (Int32.ofNat i) = some g) : st.afterSet = .ok st := by
  have hobject : ∀ i < st.objects.size, st.afterSetObject (Int32.ofNat i) = .ok st := by
    intro i hi
    obtain ⟨g, hg⟩ := hids i hi
    have hnone : int ((0 : Nat) : Int) = .ok ((0 : Nat) : Int) := int_of_inInt (by decide)
    rw [afterSetObject, deref_eq_ok.mpr hg, ok_bind, hplain _ g hg, List.length_nil, hnone, ok_bind]
    rfl
  have hloop : ∀ l : List Nat, (∀ i ∈ l, i < st.objects.size) →
      l.foldlM (fun this i => this.afterSetObject (Int32.ofNat i)) st = .ok st := by
    intro l
    induction l with
    | nil => exact fun _ => rfl
    | cons i l ih =>
      intro hl
      rw [List.foldlM_cons, hobject i (hl i List.mem_cons_self), ok_bind]
      exact ih fun j hj => hl j (List.mem_cons_of_mem i hj)
  have hint : int (st.objects.size : Int) = .ok (st.objects.size : Int) := int_of_inInt ⟨by omega, by omega⟩
  rw [afterSet, hint, ok_bind]
  exact hloop _ fun i hi => List.mem_range.mp hi

/-- The ids are the numbers below the counter, each carried by the object that is stored under it. -/
structure Dense (st : ObjectStorrage κ) : Prop where
  keyed : st.Keyed
  counter : 0 ≤ st.counter
  stored : ∀ k, (∃ g, st.getById k = some g) ↔ 0 ≤ k.toInt ∧ k.toInt < st.counter

namespace Dense

variable {st st' : ObjectStorrage κ}

/-! ## What keeps the ids dense -/

theorem empty : Dense ({} : ObjectStorrage κ) where
  keyed := fun k g h => by simp [getById] at h
  counter := Int.le_refl 0
  stored := fun k => by
    refine iff_of_false ?_ fun h => ?_
    · rintro ⟨g, hg⟩
      simp [getById] at hg
    · exact absurd (lt_of_le_of_lt h.1 h.2) (Int.lt_irrefl 0)

theorem createGameObject (h : st.Dense) {w w' : World} {ID : Int32} (hcreate : st.createGameObject w = .ok ((ID, st'), w')) :
    st'.Dense := by
  obtain ⟨hID, _, hcounter, b, hget⟩ := createGameObject_fresh (fun k g hg => ((h.stored k).mp ⟨g, hg⟩).2) hcreate
  have h0 := h.counter
  refine ⟨fun k g hg => ?_, by omega, fun k => ?_⟩
  · rw [hget] at hg
    split at hg
    · rename_i hk
      cases hg
      exact hk
    · exact h.keyed k g hg
  · rw [hget]
    by_cases hk : ID = k
    · subst hk
      rw [if_pos rfl]
      exact iff_of_true ⟨_, rfl⟩ (by omega)
    · have hne : k.toInt ≠ ID.toInt := fun heq => hk (Int32.toInt_inj.mp heq).symm
      rw [if_neg hk, h.stored k]
      omega

/-- A write that leaves an object the id it carries. -/
theorem store (h : st.Dense) {k : Int32} {g o : GameObject κ} (hk : st.getById k = some o) (hID : g.ID = o.ID) :
    (st.store k g).Dense := by
  have hget := fun j => getById_store (j := j) (g := g) hk
  refine ⟨fun j u hu => ?_, h.counter, fun j => ?_⟩
  · rw [hget] at hu
    split at hu
    · rename_i hkj
      cases hu
      rw [hID, h.keyed k o hk, hkj]
    · exact h.keyed j u hu
  · rw [hget, counter_store, ← h.stored j]
    split
    · rename_i hkj
      exact iff_of_true ⟨_, rfl⟩ ⟨o, hkj ▸ hk⟩
    · exact Iff.rfl

/-- A load on top of a dense storage: the ids of both are those below the larger counter. -/
theorem merged {σ : Type} {saved : κ → σ} {base merged : ObjectStorrage κ} (hbase : base.Dense) (h : st.Dense)
    (hmerged : Merged saved base st merged) : merged.Dense := by
  have hadded : ∀ k, base.getById k = none → ∀ g, merged.getById k = some g → ∃ o, st.getById k = some o ∧ o.ID = g.ID := by
    intro k hk g hg
    have hsame := hmerged.added k hk
    rw [ObjectStorrage.saved, ObjectStorrage.saved, hg, Option.map_some] at hsame
    obtain ⟨o, ho, hog⟩ := Option.map_eq_some_iff.mp hsame.symm
    exact ⟨o, ho, congrArg SavedObject.ID hog⟩
  refine ⟨fun k g hg => ?_, hbase.counter.trans hmerged.counter, fun k => ⟨?_, ?_⟩⟩
  · cases hk : base.getById k with
    | some o =>
      obtain rfl := Option.some_inj.mp ((hmerged.kept k o hk).symm.trans hg)
      exact hbase.keyed k o hk
    | none =>
      obtain ⟨o, ho, hID⟩ := hadded k hk g hg
      exact hID.symm.trans (h.keyed k o ho)
  · rintro ⟨g, hg⟩
    cases hk : base.getById k with
    | some o =>
      have := (hbase.stored k).mp ⟨o, hk⟩
      have := hmerged.counter
      omega
    | none =>
      obtain ⟨o, ho, _⟩ := hadded k hk g hg
      exact ⟨((h.stored k).mp ⟨o, ho⟩).1, hmerged.below k o ho⟩
  · rintro ⟨h0, hlt⟩
    by_cases hk : k.toInt < base.counter
    · obtain ⟨o, ho⟩ := (hbase.stored k).mpr ⟨h0, hk⟩
      exact ⟨o, hmerged.kept k o ho⟩
    · have hnone : base.getById k = none := by
        rw [← Option.not_isSome_iff_eq_none, Option.isSome_iff_exists, hbase.stored k]
        exact fun h => hk h.2
      -- The counter was raised by a loaded id, and the ids below it were loaded too.
      obtain ⟨o, ho⟩ : ∃ o, st.getById k = some o := by
        rcases hmerged.reached with heq | ⟨j, u, hu, heq⟩
        · exact absurd (heq ▸ hlt) hk
        · have := ((h.stored j).mp ⟨u, hu⟩).2
          exact (h.stored k).mpr ⟨h0, by omega⟩
      have hsame := hmerged.added k hnone
      rw [ObjectStorrage.saved, ObjectStorrage.saved, ho, Option.map_some] at hsame
      obtain ⟨g, hg, _⟩ := Option.map_eq_some_iff.mp hsame
      exact ⟨g, hg⟩

/-! ## Loops over the numbers below the size -/

theorem counter_eq (h : st.Dense) (hsize : st.objects.size < 2 ^ 31) : st.counter = st.objects.size :=
  counter_eq_size h.counter (fun k g hg => (h.stored k).mp ⟨g, hg⟩) (fun k h0 hlt => (h.stored k).mpr ⟨h0, hlt⟩) hsize

/-- The numbers below the size are the ids, in order. -/
theorem range_eq (h : st.Dense) (hsize : st.objects.size < 2 ^ 31) :
    (List.range st.objects.size).map Int32.ofNat = st.objects.keys := by
  have hcounter := h.counter_eq hsize
  have htoInt : ∀ i < st.objects.size, (Int32.ofNat i).toInt = i := fun i hi => Int32.toInt_ofNat_of_lt (by omega)
  have hrange : ((List.range st.objects.size).map Int32.ofNat).Pairwise fun a b => a.toInt < b.toInt := by
    refine List.pairwise_map.mpr (List.Pairwise.imp_of_mem ?_ List.pairwise_lt_range)
    intro i j hi hj hij
    rw [htoInt i (List.mem_range.mp hi), htoInt j (List.mem_range.mp hj)]
    omega
  have hkeys : st.objects.keys.Pairwise fun a b => a.toInt < b.toInt :=
    Std.ExtTreeMap.ordered_keys.imp fun h => Int32.lt_iff_toInt_lt.mp (Std.compare_eq_lt.mp h)
  have hne : ∀ {a b : Int32}, a.toInt < b.toInt → a ≠ b := fun h heq => absurd (heq ▸ h) (Int.lt_irrefl _)
  refine List.Perm.eq_of_pairwise (fun a b _ _ hab hba => absurd (hab.trans hba) (Int.lt_irrefl _)) hrange hkeys ?_
  refine (List.perm_ext_iff_of_nodup (hrange.imp hne) (hkeys.imp hne)).mpr fun k => ?_
  rw [Std.ExtTreeMap.mem_keys, ← Std.ExtTreeMap.isSome_getElem?_iff_mem, Option.isSome_iff_exists]
  refine Iff.trans ?_ (h.stored k).symm
  constructor
  · intro hk
    obtain ⟨i, hi, rfl⟩ := List.mem_map.mp hk
    have := List.mem_range.mp hi
    rw [htoInt i this]
    omega
  · rintro ⟨h0, hlt⟩
    refine List.mem_map.mpr ⟨k.toInt.toNat, List.mem_range.mpr (by omega), Int32.toInt_inj.mp ?_⟩
    rw [htoInt _ (by omega)]
    omega

/-- `findByName` comes to every object once, in the order of the ids. -/
theorem findByName (h : st.Dense) (hsize : st.objects.size < 2 ^ 31) (name : List UInt8) :
    st.findByName name = .ok ((st.objects.toList.filter fun it => it.2.name = name).map Prod.fst) := by
  have hint : int (st.objects.size : Int) = .ok (st.objects.size : Int) := int_of_inInt ⟨by omega, by omega⟩
  have hloop : ∀ (l : List (Int32 × GameObject κ)) (toRet : List Int32), (∀ it ∈ l, st.getById it.1 = some it.2) →
      (l.map Prod.fst).foldlM (fun toRet ID => do
        let it ← st.deref ID
        return if it.name = name then toRet ++ [ID] else toRet) toRet =
        .ok (toRet ++ (l.filter fun it => it.2.name = name).map Prod.fst) := by
    intro l
    induction l with
    | nil => simp
    | cons it l ih =>
      intro toRet hl
      obtain ⟨hit, hl⟩ := List.forall_mem_cons.mp hl
      rw [List.map_cons, List.foldlM_cons, deref_eq_ok.mpr hit, ok_bind, pure_eq_ok, ok_bind, ih _ hl]
      by_cases hname : it.2.name = name
      · rw [if_pos hname, List.filter_cons_of_pos (by simpa using hname), List.map_cons, List.append_assoc]
        rfl
      · rw [if_neg hname, List.filter_cons_of_neg (by simpa using hname)]
  have hlist := hloop st.objects.toList [] fun it hit => mem_toList.mp hit
  rw [Std.ExtTreeMap.map_fst_toList_eq_keys, ← h.range_eq hsize, List.foldlM_map, List.nil_append] at hlist
  rw [ObjectStorrage.findByName, hint, ok_bind]
  exact hlist

/-- `afterSet` comes to every object once, in the order of the ids. -/
theorem afterSet (h : st.Dense) (hsize : st.objects.size < 2 ^ 31) :
    st.afterSet = st.objects.keys.foldlM (fun this ID => this.afterSetObject ID) st := by
  have hint : int (st.objects.size : Int) = .ok (st.objects.size : Int) := int_of_inInt ⟨by omega, by omega⟩
  rw [ObjectStorrage.afterSet, hint, ok_bind, ← h.range_eq hsize, List.foldlM_map]

end Dense

end ObjectStorrage

end Serializer
