import BackupEngine.Lemmas.BareScenes

/-!
# Parents and children

An edge of the hierarchy is kept twice, as the parent id of the child and in the list of the parent. `Hierarchy` says that
the two agree; every operation on the storage keeps it, and under it no operation searches a list in vain.
-/

namespace Serializer

open Cpp ByteStack

variable {κ C : Type} [ComponentClasses κ C]

/-- The ids an object carries. -/
def GameObject.links (g : GameObject κ) : Int32 × Int32 × List Int32 := (g.ID, g.parrentID, g.childrenIds)

namespace ObjectStorrage

/-- The ids are those the storage has given out, and every edge is there on both sides. -/
structure Hierarchy (st : ObjectStorrage κ) : Prop where
  keyed : st.Keyed
  counter : 0 ≤ st.counter
  ids : ∀ k g, st.getById k = some g → 0 ≤ k.toInt ∧ k.toInt < st.counter
  parents : ∀ k g, st.getById k = some g → g.parrentID ≠ EMPTY_ID → ∃ p, st.getById g.parrentID = some p
  childs : ∀ k g, st.getById k = some g → ∀ c ∈ g.childrenIds, ∃ o, st.getById c = some o
  edges : ∀ k g j o, st.getById k = some g → st.getById j = some o →
    g.childrenIds.count j = if o.parrentID = k then 1 else 0

/-- What `Hierarchy` says without the counter: no object is under `EMPTY_ID`, and every edge is there on both sides. -/
structure Agrees (st : ObjectStorrage κ) : Prop where
  keyed : st.Keyed
  vacant : st.getById EMPTY_ID = none
  parents : ∀ k g, st.getById k = some g → g.parrentID ≠ EMPTY_ID → ∃ p, st.getById g.parrentID = some p
  childs : ∀ k g, st.getById k = some g → ∀ c ∈ g.childrenIds, ∃ o, st.getById c = some o
  edges : ∀ k g j o, st.getById k = some g → st.getById j = some o →
    g.childrenIds.count j = if o.parrentID = k then 1 else 0

theorem Agrees.ne_empty {st : ObjectStorrage κ} (h : st.Agrees) {k : Int32} {g : GameObject κ}
    (hg : st.getById k = some g) : k ≠ EMPTY_ID := by
  rintro rfl
  rw [h.vacant] at hg
  cases hg

theorem Hierarchy.ne_empty {st : ObjectStorrage κ} (h : st.Hierarchy) {k : Int32} {g : GameObject κ}
    (hg : st.getById k = some g) : k ≠ EMPTY_ID := by
  rintro rfl
  have := (h.ids _ _ hg).1
  exact absurd this (by decide)

theorem Hierarchy.agrees {st : ObjectStorrage κ} (h : st.Hierarchy) : st.Agrees where
  keyed := h.keyed
  vacant := by
    cases hg : st.getById EMPTY_ID with
    | none => rfl
    | some g => exact absurd rfl (h.ne_empty hg)
  parents := h.parents
  childs := h.childs
  edges := h.edges

theorem Agrees.hierarchy {st : ObjectStorrage κ} (h : st.Agrees) (hcounter : 0 ≤ st.counter)
    (hids : ∀ k g, st.getById k = some g → 0 ≤ k.toInt ∧ k.toInt < st.counter) : st.Hierarchy where
  keyed := h.keyed
  counter := hcounter
  ids := hids
  parents := h.parents
  childs := h.childs
  edges := h.edges

theorem Hierarchy.empty (c : Int) (hc : 0 ≤ c) : ({ objects := ∅, counter := c } : ObjectStorrage κ).Hierarchy where
  keyed := fun k g h => by simp [getById] at h
  counter := hc
  ids := fun k g h => by simp [getById] at h
  parents := fun k g h => by simp [getById] at h
  childs := fun k g h => by simp [getById] at h
  edges := fun k g j o h => by simp [getById] at h

/-! ## Lookups after an operation -/

theorem deref_eq_ok {st : ObjectStorrage κ} {k : Int32} {g : GameObject κ} :
    st.deref k = .ok g ↔ st.getById k = some g := by
  unfold deref
  split
  · rename_i o h
    rw [h, Except.ok.injEq, Option.some_inj]
  · rename_i h
    simp [h]

theorem getById_store {st : ObjectStorrage κ} {k j : Int32} {g o : GameObject κ} (hk : st.getById k = some o) :
    (st.store k g).getById j = if k = j then some g else st.getById j := by
  simp only [getById] at hk
  simp only [getById, store, Std.ExtTreeMap.getElem?_modify, Std.LawfulEqCmp.compare_eq_iff_eq, hk, Option.map_some]

@[simp] theorem counter_store (st : ObjectStorrage κ) (k : Int32) (g : GameObject κ) :
    (st.store k g).counter = st.counter := rfl

/-! ## Reparenting -/

/-- What becomes of the object under `k` when the object `a` moves from the parent `old` to the parent `p`. -/
def reparented (a old p k : Int32) (o : GameObject κ) : GameObject κ :=
  { o with
    parrentID := if k = a then p else o.parrentID
    childrenIds := (if k = old then o.childrenIds.erase a else o.childrenIds) ++ if k = p then [a] else [] }

theorem leaveParrent_spec {st : ObjectStorrage κ} (h : st.Agrees) {a : Int32} {g : GameObject κ}
    (ha : st.getById a = some g) :
    ∃ st', st.leaveParrent g = .ok st' ∧ st'.counter = st.counter ∧ ∀ k, st'.getById k = (st.getById k).map fun o =>
      { o with childrenIds := if k = g.parrentID then o.childrenIds.erase a else o.childrenIds } := by
  have hID : g.ID = a := h.keyed a g ha
  unfold leaveParrent
  by_cases hold : g.parrentID = EMPTY_ID
  · refine ⟨st, by rw [if_neg (not_not_intro hold)]; rfl, rfl, fun k => ?_⟩
    cases hk : st.getById k with
    | none => rfl
    | some o =>
      have hne : k ≠ g.parrentID := hold ▸ h.ne_empty hk
      rw [Option.map_some, if_neg hne]
  · obtain ⟨p, hp⟩ := h.parents a g ha hold
    have hmem : a ∈ p.childrenIds := by
      rw [← List.count_pos_iff, h.edges _ p a g hp ha, if_pos rfl]
      exact Nat.one_pos
    refine ⟨st.store g.parrentID { p with childrenIds := p.childrenIds.erase a }, ?_, rfl, fun k => ?_⟩
    · rw [if_pos hold, deref_eq_ok.mpr hp, ok_bind, GameObject.remChild, hID, if_pos hmem]
      rfl
    · rw [getById_store hp]
      by_cases hk : g.parrentID = k
      · subst hk
        rw [if_pos rfl, hp, Option.map_some, if_pos rfl]
      · rw [if_neg hk]
        cases st.getById k with
        | none => rfl
        | some o => rw [Option.map_some, if_neg (Ne.symm hk)]

theorem enterParrent_spec {st : ObjectStorrage κ} {p : Int32} {g : GameObject κ} (hempty : st.getById EMPTY_ID = none)
    (hp : p = EMPTY_ID ∨ ∃ o, st.getById p = some o) :
    ∃ st', st.enterParrent p g = .ok st' ∧ st'.counter = st.counter ∧ ∀ k, st'.getById k = (st.getById k).map fun o =>
      { o with childrenIds := o.childrenIds ++ if k = p then [g.ID] else [] } := by
  unfold enterParrent
  by_cases hne : p = EMPTY_ID
  · refine ⟨st, by rw [if_neg (not_not_intro hne)]; rfl, rfl, fun k => ?_⟩
    cases hk : st.getById k with
    | none => rfl
    | some o =>
      have hkp : k ≠ p := by
        rintro rfl
        rw [hne, hempty] at hk
        cases hk
      simp only [Option.map_some, if_neg hkp, List.append_nil]
  · obtain ⟨o, ho⟩ := hp.resolve_left hne
    refine ⟨st.store p (o.addChild g.ID), by rw [if_pos hne, ho], rfl, fun k => ?_⟩
    rw [getById_store ho]
    by_cases hk : p = k
    · subst hk
      rw [if_pos rfl, ho, Option.map_some, if_pos rfl, GameObject.addChild]
    · rw [if_neg hk]
      cases st.getById k with
      | none => rfl
      | some o => simp only [Option.map_some, if_neg (Ne.symm hk), List.append_nil]

/-- `setParrentID` moves the object, and faults on no object that the storage holds. -/
theorem setParrentID_spec {st : ObjectStorrage κ} (h : st.Agrees) {a p : Int32} {g : GameObject κ}
    (ha : st.getById a = some g) (hp : p = EMPTY_ID ∨ ∃ o, st.getById p = some o) :
    ∃ st', st.setParrentID a p = .ok st' ∧ st'.counter = st.counter ∧
      ∀ k, st'.getById k = (st.getById k).map (reparented a g.parrentID p k) := by
  have hID : g.ID = a := h.keyed a g ha
  obtain ⟨st₁, hleave, hcounter, hget⟩ := leaveParrent_spec h ha
  have hempty : st₁.getById EMPTY_ID = none := by
    rw [hget, Option.map_eq_none_iff, ← Option.not_isSome_iff_eq_none, Option.isSome_iff_exists]
    rintro ⟨o, ho⟩
    exact h.ne_empty ho rfl
  have hp₁ : p = EMPTY_ID ∨ ∃ o, st₁.getById p = some o := by
    refine hp.imp_right ?_
    rintro ⟨o, ho⟩
    exact ⟨_, by rw [hget, ho, Option.map_some]⟩
  obtain ⟨st₂, henter, hcounter₂, hget₂⟩ := enterParrent_spec (g := g) hempty hp₁
  obtain ⟨me, hme, hmoved⟩ : ∃ me, st₂.getById a = some me ∧
      { me with parrentID := p } = reparented a g.parrentID p a g := by
    rw [hget₂, hget, ha, hID]
    refine ⟨_, rfl, ?_⟩
    rw [reparented, if_pos rfl]
  refine ⟨st₂.store a { me with parrentID := p }, ?_, hcounter₂.trans hcounter, fun k => ?_⟩
  · rw [setParrentID, deref_eq_ok.mpr ha, ok_bind, hleave, ok_bind, henter, ok_bind, deref_eq_ok.mpr hme]
    rfl
  · rw [getById_store hme]
    by_cases hk : a = k
    · subst hk
      rw [if_pos rfl, ha, Option.map_some, hmoved]
    · rw [if_neg hk, hget₂, hget, Option.map_map, hID]
      congr 1
      funext o
      simp only [Function.comp_apply, reparented, if_neg (Ne.symm hk)]

/-- `setParrent` with a pointer to a stored object does what `setParrentID` does with its id. -/
theorem setParrent_eq {st : ObjectStorrage κ} (h : st.Agrees) {a p : Int32} {g o : GameObject κ}
    (ha : st.getById a = some g) (hp : st.getById p = some o) : st.setParrent a p = st.setParrentID a p := by
  obtain ⟨st₁, hleave, _, hget⟩ := leaveParrent_spec h ha
  have hp₁ := hget p
  rw [hp, Option.map_some] at hp₁
  have hID : o.ID = p := h.keyed p o hp
  have henter : st₁.enterParrent p g =
      .ok (st₁.store p (GameObject.addChild { o with childrenIds := if p = g.parrentID then o.childrenIds.erase a
        else o.childrenIds } g.ID)) := by
    rw [enterParrent, if_pos (h.ne_empty hp), hp₁]
  simp only [setParrent, setParrentID, deref_eq_ok.mpr ha, ok_bind, hleave, henter, deref_eq_ok.mpr hp₁, hID]

/-- A move keeps the two sides in step: the object leaves one list and enters one. -/
theorem Agrees.reparent {st st' : ObjectStorrage κ} (h : st.Agrees) {a p : Int32} {g : GameObject κ}
    (ha : st.getById a = some g) (hp : p = EMPTY_ID ∨ ∃ o, st.getById p = some o)
    (hget : ∀ k, st'.getById k = (st.getById k).map (reparented a g.parrentID p k)) : st'.Agrees := by
  have hback : ∀ {k o'}, st'.getById k = some o' → ∃ o, st.getById k = some o ∧ reparented a g.parrentID p k o = o' := by
    intro k o' hk
    rw [hget] at hk
    exact Option.map_eq_some_iff.mp hk
  have hstored : ∀ {k}, (∃ o, st.getById k = some o) → ∃ o, st'.getById k = some o := by
    rintro k ⟨o, ho⟩
    exact ⟨_, by rw [hget, ho, Option.map_some]⟩
  constructor
  case keyed =>
    intro k o' hk
    obtain ⟨o, ho, rfl⟩ := hback hk
    exact h.keyed k o ho
  case vacant => rw [hget, h.vacant, Option.map_none]
  case parents =>
    intro k o' hk hne
    obtain ⟨o, ho, rfl⟩ := hback hk
    by_cases hka : k = a
    · simp only [reparented, if_pos hka] at hne ⊢
      exact hstored (hp.resolve_left hne)
    · simp only [reparented, if_neg hka] at hne ⊢
      exact hstored (h.parents k o ho hne)
  case childs =>
    intro k o' hk c hc
    obtain ⟨o, ho, rfl⟩ := hback hk
    refine hstored ?_
    rcases List.mem_append.mp hc with hc | hc
    · refine h.childs k o ho c ?_
      split at hc
      · exact List.mem_of_mem_erase hc
      · exact hc
    · split at hc
      · exact ⟨g, List.mem_singleton.mp hc ▸ ha⟩
      · exact absurd hc List.not_mem_nil
  case edges =>
    intro k o₁' j o₂' hk hj
    obtain ⟨o₁, ho₁, rfl⟩ := hback hk
    obtain ⟨o₂, ho₂, rfl⟩ := hback hj
    have hedge := h.edges k o₁ j o₂ ho₁ ho₂
    have hleft : (if k = g.parrentID then o₁.childrenIds.erase a else o₁.childrenIds).count j =
        if j = a then 0 else if o₂.parrentID = k then 1 else 0 := by
      by_cases hja : j = a
      · subst hja
        rw [ha, Option.some_inj] at ho₂
        subst ho₂
        by_cases hold : k = g.parrentID
        · rw [if_pos hold, List.count_erase_self, hedge, if_pos hold.symm, if_pos rfl]
        · rw [if_neg hold, hedge, if_neg (Ne.symm hold), if_pos rfl]
      · by_cases hold : k = g.parrentID
        · rw [if_pos hold, List.count_erase_of_ne hja, hedge, if_neg hja]
        · rw [if_neg hold, hedge, if_neg hja]
    have hentered : (if k = p then [a] else []).count j = if j = a ∧ p = k then 1 else 0 := by
      by_cases hkp : k = p
      · rw [if_pos hkp, List.count_singleton]
        by_cases hja : a = j
        · simp [hja, hkp]
        · simp [hja, Ne.symm hja]
      · simp [hkp, Ne.symm hkp]
    simp only [reparented, List.count_append, hleft, hentered]
    by_cases hja : j = a
    · simp [hja]
    · simp [hja]

/-- A move keeps the hierarchy. -/
theorem Hierarchy.reparent {st st' : ObjectStorrage κ} (h : st.Hierarchy) {a p : Int32} {g : GameObject κ}
    (ha : st.getById a = some g) (hp : p = EMPTY_ID ∨ ∃ o, st.getById p = some o) (hcounter : st'.counter = st.counter)
    (hget : ∀ k, st'.getById k = (st.getById k).map (reparented a g.parrentID p k)) : st'.Hierarchy := by
  refine (h.agrees.reparent ha hp hget).hierarchy (hcounter ▸ h.counter) fun k o' hk => ?_
  rw [hget] at hk
  obtain ⟨o, ho, _⟩ := Option.map_eq_some_iff.mp hk
  exact hcounter ▸ h.ids k o ho

/-! ## New objects and loads -/

/-- Where the counter is above all ids, a new object is stored under an id that was not taken. -/
theorem createGameObject_fresh {st st' : ObjectStorrage κ} (hbelow : ∀ k g, st.getById k = some g → k.toInt < st.counter)
    {w w' : World} {ID : Int32} (hcreate : st.createGameObject w = .ok ((ID, st'), w')) :
    ID.toInt = st.counter ∧ st.getById ID = none ∧ st'.counter = st.counter + 1 ∧
      ∃ b, ∀ k, st'.getById k = if ID = k then some { ID := ID, isActiv := b } else st.getById k := by
  obtain ⟨c, hc, hr⟩ := bind_eq_ok.mp hcreate
  obtain ⟨⟨hlow, hhigh⟩, rfl⟩ := int_eq_ok.mp hc
  obtain ⟨c', hc', hr⟩ := bind_eq_ok.mp hr
  obtain ⟨_, rfl⟩ := int_eq_ok.mp hc'
  cases hr
  have hID : (Int32.ofInt st.counter).toInt = st.counter := Int32.toInt_ofInt_of_le hlow hhigh
  have hfresh : st.getById (Int32.ofInt st.counter) = none := by
    rw [← Option.not_isSome_iff_eq_none, Option.isSome_iff_exists]
    rintro ⟨o, ho⟩
    have := hbelow _ o ho
    omega
  exact ⟨hID, hfresh, rfl, (w.memory w.next).flag 4, fun k => getById_addOnId st _ hfresh⟩

theorem createGameObject_spec {st st' : ObjectStorrage κ} (h : st.Hierarchy) {w w' : World} {ID : Int32}
    (hcreate : st.createGameObject w = .ok ((ID, st'), w')) :
    ID.toInt = st.counter ∧ st.getById ID = none ∧ st'.counter = st.counter + 1 ∧
      ∃ b, ∀ k, st'.getById k = if ID = k then some { ID := ID, isActiv := b } else st.getById k :=
  createGameObject_fresh (fun k g hg => (h.ids k g hg).2) hcreate

theorem Hierarchy.createGameObject {st st' : ObjectStorrage κ} (h : st.Hierarchy) {w w' : World} {ID : Int32}
    (hcreate : st.createGameObject w = .ok ((ID, st'), w')) : st'.Hierarchy := by
  obtain ⟨hID, hfresh, hcounter, b, hget⟩ := createGameObject_spec h hcreate
  have hcases : ∀ {k g}, st'.getById k = some g → (ID = k ∧ g = { ID := ID, isActiv := b }) ∨ st.getById k = some g := by
    intro k g hk
    rw [hget] at hk
    split at hk
    · rename_i hIDk
      exact .inl ⟨hIDk, (Option.some_inj.mp hk).symm⟩
    · exact .inr hk
  have hold : ∀ {k g}, st.getById k = some g → st'.getById k = some g := by
    intro k g hk
    rw [hget, if_neg, hk]
    rintro rfl
    rw [hfresh] at hk
    cases hk
  have hnonneg : 0 ≤ ID.toInt := hID ▸ h.counter
  have hne : ID ≠ EMPTY_ID := by
    rintro rfl
    exact absurd hnonneg (by decide)
  constructor
  case keyed =>
    intro k g hk
    rcases hcases hk with ⟨rfl, rfl⟩ | hk
    · rfl
    · exact h.keyed k g hk
  case counter =>
    have := h.counter
    omega
  case ids =>
    intro k g hk
    rcases hcases hk with ⟨rfl, rfl⟩ | hk
    · omega
    · have := h.ids k g hk
      omega
  case parents =>
    intro k g hk hparrent
    rcases hcases hk with ⟨rfl, rfl⟩ | hk
    · exact absurd rfl hparrent
    · obtain ⟨p, hp⟩ := h.parents k g hk hparrent
      exact ⟨p, hold hp⟩
  case childs =>
    intro k g hk c hc
    rcases hcases hk with ⟨rfl, rfl⟩ | hk
    · exact absurd hc List.not_mem_nil
    · obtain ⟨o, ho⟩ := h.childs k g hk c hc
      exact ⟨o, hold ho⟩
  case edges =>
    intro k g j o hk hj
    rcases hcases hk with ⟨rfl, rfl⟩ | hk
    · rcases hcases hj with ⟨rfl, rfl⟩ | hj
      · exact (if_neg (Ne.symm hne)).symm
      · -- The new id is the parent of no old object, for that would be stored.
        refine (if_neg fun hparrent => ?_).symm
        obtain ⟨p, hp⟩ := h.parents j o hj (hparrent ▸ hne)
        rw [hparrent, hfresh] at hp
        cases hp
    · rcases hcases hj with ⟨rfl, rfl⟩ | hj
      · have hnot : ID ∉ g.childrenIds := by
          intro hmem
          obtain ⟨u, hu⟩ := h.childs k g hk ID hmem
          rw [hfresh] at hu
          cases hu
        rw [List.count_eq_zero_of_not_mem hnot, if_neg (Ne.symm (h.ne_empty hk))]
      · exact h.edges k g j o hk hj

/-- A storage whose objects carry the same ids has the same hierarchy. -/
theorem Hierarchy.of_links {st st' : ObjectStorrage κ} (h : st.Hierarchy)
    (hlinks : ∀ k, (st'.getById k).map GameObject.links = (st.getById k).map GameObject.links) (hcounter : 0 ≤ st'.counter)
    (hbelow : ∀ k g, st'.getById k = some g → k.toInt < st'.counter) : st'.Hierarchy := by
  have hback : ∀ {k g'}, st'.getById k = some g' → ∃ g, st.getById k = some g ∧ g.links = g'.links := by
    intro k g' hk
    have := hlinks k
    rw [hk, Option.map_some] at this
    exact Option.map_eq_some_iff.mp this.symm
  have hthere : ∀ {k g}, st.getById k = some g → ∃ g', st'.getById k = some g' := by
    intro k g hk
    have := hlinks k
    rw [hk, Option.map_some] at this
    obtain ⟨g', hg', _⟩ := Option.map_eq_some_iff.mp this
    exact ⟨g', hg'⟩
  have hID : ∀ {g g' : GameObject κ}, g.links = g'.links → g.ID = g'.ID := congrArg Prod.fst
  have hparrent : ∀ {g g' : GameObject κ}, g.links = g'.links → g.parrentID = g'.parrentID := fun h =>
    congrArg (fun l => l.1) (congrArg Prod.snd h)
  have hchilds : ∀ {g g' : GameObject κ}, g.links = g'.links → g.childrenIds = g'.childrenIds := fun h =>
    congrArg (fun l => l.2) (congrArg Prod.snd h)
  constructor
  case keyed =>
    intro k g' hk
    obtain ⟨g, hg, hs⟩ := hback hk
    exact (hID hs).symm.trans (h.keyed k g hg)
  case counter => exact hcounter
  case ids =>
    intro k g' hk
    obtain ⟨g, hg, _⟩ := hback hk
    exact ⟨(h.ids k g hg).1, hbelow k g' hk⟩
  case parents =>
    intro k g' hk hne
    obtain ⟨g, hg, hs⟩ := hback hk
    rw [← hparrent hs] at hne ⊢
    obtain ⟨p, hp⟩ := h.parents k g hg hne
    exact hthere hp
  case childs =>
    intro k g' hk c hc
    obtain ⟨g, hg, hs⟩ := hback hk
    rw [← hchilds hs] at hc
    obtain ⟨o, ho⟩ := h.childs k g hg c hc
    exact hthere ho
  case edges =>
    intro k g' j o' hk hj
    obtain ⟨g, hg, hs⟩ := hback hk
    obtain ⟨o, ho, hs'⟩ := hback hj
    rw [← hchilds hs, ← hparrent hs']
    exact h.edges k g j o hg ho

/-- A storage with the same saved members has the same hierarchy. -/
theorem Hierarchy.of_saved {σ : Type} {saved : κ → σ} {st st' : ObjectStorrage κ} (h : st.Hierarchy)
    (hsaved : st'.saved saved = st.saved saved) (hcounter : 0 ≤ st'.counter)
    (hbelow : ∀ k g, st'.getById k = some g → k.toInt < st'.counter) : st'.Hierarchy := by
  refine h.of_links (fun k => ?_) hcounter hbelow
  have := congrArg (Option.map fun o : SavedObject σ => (o.ID, o.parrentID, o.childrenIds)) (congrFun hsaved k)
  rwa [ObjectStorrage.saved, ObjectStorrage.saved, Option.map_map, Option.map_map] at this

theorem Bare.of_saved {σ : Type} {saved : κ → σ} {st st' : ObjectStorrage κ} (h : st.Bare)
    (hsaved : st'.saved saved = st.saved saved) : st'.Bare := by
  intro k g' hk
  have hcongr := congrFun hsaved k
  rw [ObjectStorrage.saved, ObjectStorrage.saved, hk, Option.map_some] at hcongr
  obtain ⟨g, hg, hs⟩ := Option.map_eq_some_iff.mp hcongr.symm
  have hname : g.name = g'.name := congrArg SavedObject.name hs
  have hcomp : g.componenten.map (fun c => saved c.data) = g'.componenten.map (fun c => saved c.data) :=
    congrArg SavedObject.componenten hs
  rw [(h k g hg).2, List.map_nil] at hcomp
  exact ⟨hname.symm.trans (h k g hg).1, List.map_eq_nil_iff.mp hcomp.symm⟩

/-- There are no more ids than numbers they can be. -/
theorem size_le_of_ids {st : ObjectStorrage κ} {n : Nat}
    (h : ∀ k g, st.getById k = some g → 0 ≤ k.toInt ∧ k.toInt < n) : st.objects.size ≤ n := by
  have hkeys : ∀ k ∈ st.objects.toList.map Prod.fst, 0 ≤ k.toInt ∧ k.toInt < n := by
    intro k hk
    obtain ⟨⟨k', g⟩, hmem, rfl⟩ := List.mem_map.mp hk
    exact h k' g (mem_toList.mp hmem)
  have hnodup : ((st.objects.toList.map Prod.fst).map fun k => k.toInt.toNat).Nodup := by
    refine (nodup_keys st).map_on fun x hx y hy hxy => Int32.toInt_inj.mp ?_
    have := hkeys x hx
    have := hkeys y hy
    omega
  have hsub : ((st.objects.toList.map Prod.fst).map fun k => k.toInt.toNat) ⊆ List.range n := by
    intro i hi
    obtain ⟨k, hk, rfl⟩ := List.mem_map.mp hi
    have := hkeys k hk
    rw [List.mem_range]
    omega
  have := (hnodup.subperm hsub).length_le
  rwa [List.length_map, List.length_map, Std.ExtTreeMap.length_toList, List.length_range] at this

/-- There are no fewer ids than numbers they are. -/
theorem le_size_of_dense {st : ObjectStorrage κ} {n : Nat} (hn : n ≤ 2 ^ 31)
    (h : ∀ i < n, ∃ g, st.getById (Int32.ofNat i) = some g) : n ≤ st.objects.size := by
  have htoInt : ∀ i < n, (Int32.ofNat i).toInt = i := fun i hi => Int32.toInt_ofNat_of_lt (by omega)
  have hnodup : ((List.range n).map Int32.ofNat).Nodup := by
    refine List.nodup_range.map_on fun i hi j hj hij => ?_
    have := congrArg Int32.toInt hij
    rw [htoInt i (List.mem_range.mp hi), htoInt j (List.mem_range.mp hj)] at this
    omega
  have hsub : (List.range n).map Int32.ofNat ⊆ st.objects.toList.map Prod.fst := by
    intro k hk
    obtain ⟨i, hi, rfl⟩ := List.mem_map.mp hk
    obtain ⟨g, hg⟩ := h i (List.mem_range.mp hi)
    exact List.mem_map.mpr ⟨(Int32.ofNat i, g), mem_toList.mpr hg, rfl⟩
  have := (hnodup.subperm hsub).length_le
  rwa [List.length_map, List.length_map, Std.ExtTreeMap.length_toList, List.length_range] at this

/-- Where the ids are the numbers below the counter, the counter is the number of objects. -/
theorem counter_eq_size {st : ObjectStorrage κ} (hcounter : 0 ≤ st.counter)
    (hids : ∀ k g, st.getById k = some g → 0 ≤ k.toInt ∧ k.toInt < st.counter)
    (hdense : ∀ k : Int32, 0 ≤ k.toInt → k.toInt < st.counter → ∃ g, st.getById k = some g)
    (hsize : st.objects.size < 2 ^ 31) : st.counter = st.objects.size := by
  have hstored : ∀ i : Nat, i < 2 ^ 31 → i < st.counter → ∃ g, st.getById (Int32.ofNat i) = some g := by
    intro i hi hlt
    have htoInt : (Int32.ofNat i).toInt = i := Int32.toInt_ofNat_of_lt hi
    exact hdense _ (by omega) (by omega)
  have hle : st.counter < 2 ^ 31 := by
    by_contra hlarge
    have := le_size_of_dense (Nat.le_refl _) fun i hi => hstored i hi (by omega)
    omega
  have hlow : st.counter.toNat ≤ st.objects.size :=
    le_size_of_dense (by omega) fun i hi => hstored i (by omega) (by omega)
  have hhigh : st.objects.size ≤ st.counter.toNat := size_le_of_ids fun k g hg => by
    have := hids k g hg
    omega
  omega

/-- Where the ids are the numbers below the counter, the counter passes them all. -/
theorem countable_of_dense {st : ObjectStorrage κ} (hcounter : 0 ≤ st.counter)
    (hids : ∀ k g, st.getById k = some g → 0 ≤ k.toInt ∧ k.toInt < st.counter)
    (hdense : ∀ k : Int32, 0 ≤ k.toInt → k.toInt < st.counter → ∃ g, st.getById k = some g)
    (hsize : st.objects.size < 2 ^ 31) : st.Countable := by
  intro k g hg
  have := counter_eq_size hcounter hids hdense hsize
  have := hids k g hg
  omega

theorem Hierarchy.size_le {st : ObjectStorrage κ} (h : st.Hierarchy) : st.objects.size ≤ 2 ^ 31 :=
  size_le_of_ids fun k g hg => ⟨(h.ids k g hg).1, k.toInt_lt⟩

/-- A storage has no more objects than one that has all its ids. -/
theorem size_le_of_stored {st st' : ObjectStorrage κ}
    (h : ∀ k g, st.getById k = some g → ∃ g', st'.getById k = some g') : st.objects.size ≤ st'.objects.size := by
  have hsub : st.objects.toList.map Prod.fst ⊆ st'.objects.toList.map Prod.fst := by
    intro k hk
    obtain ⟨⟨k', g⟩, hmem, rfl⟩ := List.mem_map.mp hk
    obtain ⟨g', hg'⟩ := h k' g (mem_toList.mp hmem)
    exact List.mem_map.mpr ⟨(k', g'), mem_toList.mpr hg', rfl⟩
  have := ((nodup_keys st).subperm hsub).length_le
  rwa [List.length_map, List.length_map, Std.ExtTreeMap.length_toList, Std.ExtTreeMap.length_toList] at this

/-- No list of children is longer than the storage. -/
theorem Hierarchy.length_childs {st : ObjectStorrage κ} (h : st.Hierarchy) {k : Int32} {g : GameObject κ}
    (hg : st.getById k = some g) : g.childrenIds.length ≤ st.objects.size := by
  have hnodup : g.childrenIds.Nodup := by
    rw [List.nodup_iff_count_le_one]
    intro c
    by_cases hc : c ∈ g.childrenIds
    · obtain ⟨o, ho⟩ := h.childs k g hg c hc
      rw [h.edges k g c o hg ho]
      split <;> omega
    · rw [List.count_eq_zero_of_not_mem hc]
      exact Nat.zero_le _
  have hsub : g.childrenIds ⊆ st.objects.toList.map Prod.fst := by
    intro c hc
    obtain ⟨o, ho⟩ := h.childs k g hg c hc
    exact List.mem_map.mpr ⟨(c, o), mem_toList.mpr ho, rfl⟩
  have := (hnodup.subperm hsub).length_le
  rwa [List.length_map, Std.ExtTreeMap.length_toList] at this

/-- A load that returns has loaded the scene that was saved: a scene too large for that makes the load fault. -/
theorem Hierarchy.load (hpops : Pops κ) {st₀ st st' : ObjectStorrage κ} (h : st₀.Hierarchy) (hbare : st₀.Bare)
    (hempty : st.objects = ∅) (hcounter : 0 ≤ st.counter) {image rest name : List UInt8} {w w₁ w₂ w₃ : World}
    (hsave : st₀.serialize ([], w) = .ok ((), image, w₁)) (hload : st.load (image, w₂) = .ok ((name, st'), rest, w₃)) :
    st'.Hierarchy ∧ st'.Bare := by
  obtain ⟨hlt, hsize⟩ := size_of_load hpops h.size_le hempty hsave hload
  have himage : image = st₀.bareBytes := by
    refine serialize_bare hbare (fun k g hg => ?_) hsave
    have := h.length_childs hg
    omega
  obtain ⟨objects, counter⟩ := st
  simp only at hempty hcounter
  subst hempty himage
  have hcount := countable_of_load saves_nothing (hbare.all _) h.keyed (B := []) hlt hload
  obtain ⟨r, w₄, hread, _, hsaved, hle, hbelow⟩ :=
    load_reads saves_nothing (hbare.all _) h.keyed hcount counter [] w₂ hlt
  rw [List.nil_append] at hread
  rw [bareBytes, hread] at hload
  cases hload
  exact ⟨h.of_saved hsaved (hcounter.trans hle) hbelow, hbare.of_saved hsaved⟩

end ObjectStorrage

end Serializer
