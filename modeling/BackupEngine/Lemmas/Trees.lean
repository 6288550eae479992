import BackupEngine.Lemmas.Descent
import BackupEngine.Lib.Trees

/-!
# The trees of a storage

Where the parent ids and the child lists of a storage agree and are those of a forest, the objects under a list of ids are a
list of trees: `Shows` unfolds the child lists. The trees hold the objects from which parent ids lead to one of the ids, and
each of them once.
-/

namespace Serializer

open Cpp

open Forest (Reaches Grounded ancestor)

variable {κ C : Type} [ComponentClasses κ C]

namespace ObjectStorrage

/-- The trees under a list of ids, as the child lists say. -/
inductive Shows (st : ObjectStorrage κ) : List Int32 → Trees Int32 → Prop
  | nil : Shows st [] .nil
  | node {k : Int32} {g : GameObject κ} {ks : List Int32} {below beside : Trees Int32} (stored : st.getById k = some g)
    (down : Shows st g.childrenIds below) (right : Shows st ks beside) : Shows st (k :: ks) (.node k below beside)

/-- A leaf: a stored object that has no children. -/
def isLeaf (st : ObjectStorrage κ) (k : Int32) : Bool :=
  match st.getById k with
  | some g => g.childrenIds.isEmpty
  | none => false

/-- None of the ids leads up to another one. -/
def Apart (st : ObjectStorrage κ) (ks : List Int32) : Prop :=
  ks.Pairwise fun a b => ¬Reaches st.parrentOf a b ∧ ¬Reaches st.parrentOf b a

variable {st : ObjectStorrage κ} {ks : List Int32} {ts : Trees Int32}

/-! ## Agreement -/

/-- Agreement of a storage that is given by its entries. -/
theorem Agrees.of_entries
    (h : ∀ e ∈ st.objects.toList, e.2.ID = e.1 ∧ e.1 ≠ EMPTY_ID ∧
      (e.2.parrentID ≠ EMPTY_ID → (st.getById e.2.parrentID).isSome) ∧
      e.2.childrenIds.all (fun c => (st.getById c).isSome) ∧
      ∀ f ∈ st.objects.toList, e.2.childrenIds.count f.1 = if f.2.parrentID = e.1 then 1 else 0) : st.Agrees := by
  constructor
  case keyed => exact fun k g hk => (h (k, g) (mem_toList.mpr hk)).1
  case vacant =>
    cases hk : st.getById EMPTY_ID with
    | none => rfl
    | some g => exact absurd rfl (h (EMPTY_ID, g) (mem_toList.mpr hk)).2.1
  case parents => exact fun k g hk hne => Option.isSome_iff_exists.mp ((h (k, g) (mem_toList.mpr hk)).2.2.1 hne)
  case childs =>
    intro k g hk c hc
    have hall := (h (k, g) (mem_toList.mpr hk)).2.2.2.1
    exact Option.isSome_iff_exists.mp (List.all_eq_true.mp hall c hc)
  case edges =>
    exact fun k g j o hk hj => (h (k, g) (mem_toList.mpr hk)).2.2.2.2 (j, o) (mem_toList.mpr hj)

/-- The links of a storage that is given by its entries are those of a forest. -/
theorem grounded_of_entries (n : Nat) (h : ∀ e ∈ st.objects.toList, ancestor st.parrentOf n e.1 = none) :
    Grounded st.parrentOf := by
  intro k
  cases hk : st.getById k with
  | none => exact .of_none (by rw [parrentOf, hk, Option.map_none])
  | some g => exact ⟨n, h (k, g) (mem_toList.mpr hk)⟩

theorem Agrees.parrentOf_empty (h : st.Agrees) : st.parrentOf EMPTY_ID = none := by
  rw [parrentOf, h.vacant, Option.map_none]

/-- The children of an object are the objects that link to it. -/
theorem Agrees.mem_childs_iff (h : st.Agrees) {k c : Int32} {g : GameObject κ} (hk : st.getById k = some g) :
    c ∈ g.childrenIds ↔ st.parrentOf c = some k := by
  constructor
  · intro hc
    obtain ⟨o, ho⟩ := h.childs k g hk c hc
    exact h.parrentOf_child hk hc ho
  · intro hup
    obtain ⟨o, ho, hp⟩ := Option.map_eq_some_iff.mp hup
    rw [← List.count_pos_iff, h.edges k g c o hk ho, if_pos hp]
    exact Nat.one_pos

theorem Agrees.nodup_childs (h : st.Agrees) {k : Int32} {g : GameObject κ} (hk : st.getById k = some g) :
    g.childrenIds.Nodup := by
  rw [List.nodup_iff_count_le_one]
  intro c
  by_cases hc : c ∈ g.childrenIds
  · obtain ⟨o, ho⟩ := h.childs k g hk c hc
    rw [h.edges k g c o hk ho]
    split <;> omega
  · rw [List.count_eq_zero_of_not_mem hc]
    exact Nat.zero_le _

/-- No child of an object leads up to another one. -/
theorem Agrees.apart_childs (h : st.Agrees) (hforest : Grounded st.parrentOf) {k : Int32} {g : GameObject κ}
    (hk : st.getById k = some g) : st.Apart g.childrenIds := by
  have hnot : ∀ a ∈ g.childrenIds, ∀ b ∈ g.childrenIds, a ≠ b → ¬Reaches st.parrentOf a b := by
    intro a ha b hb hne hreach
    have hup := (h.mem_childs_iff hk).mp ha
    obtain ⟨p, hp, hpb⟩ := hreach.tail hne
    rw [hup, Option.some_inj] at hp
    -- From `k` to its child `b`, and back.
    have hbk := Reaches.head ((h.mem_childs_iff hk).mp hb) (.refl k)
    have heq : b = k := hforest.antisymm hbk (hp ▸ hpb)
    exact hforest.irrefl k (heq ▸ (h.mem_childs_iff hk).mp hb)
  exact (h.nodup_childs hk).imp_of_mem fun {a b} ha hb hne => ⟨hnot a ha b hb hne, hnot b hb a ha (Ne.symm hne)⟩

/-! ## The trees -/

theorem Shows.stored (h : st.Shows ks ts) : ∀ k ∈ ks, ∃ g, st.getById k = some g := by
  induction h with
  | nil => exact nofun
  | node stored _ _ _ ihright =>
    intro k hk
    rcases List.mem_cons.mp hk with rfl | hk
    · exact ⟨_, stored⟩
    · exact ihright k hk

/-- In a forest the child lists unfold to trees. -/
theorem Agrees.shows (h : st.Agrees) (hforest : Grounded st.parrentOf) (hks : ∀ k ∈ ks, ∃ g, st.getById k = some g) :
    ∃ ts, st.Shows ks ts := by
  obtain ⟨rank, hrank⟩ := h.rank hforest
  have hbelow : ∀ n, ∀ ks, (∀ k ∈ ks, (∃ g, st.getById k = some g) ∧ rank k < n) → ∃ ts, st.Shows ks ts := by
    intro n
    induction n with
    | zero =>
      intro ks hks
      cases ks with
      | nil => exact ⟨_, .nil⟩
      | cons k _ => exact absurd (hks k List.mem_cons_self).2 (Nat.not_lt_zero _)
    | succ n ih =>
      intro ks
      induction ks with
      | nil => exact fun _ => ⟨_, .nil⟩
      | cons k ks ihks =>
        intro hks
        obtain ⟨⟨g, hk⟩, hlt⟩ := hks k List.mem_cons_self
        obtain ⟨beside, hbeside⟩ := ihks fun j hj => hks j (List.mem_cons_of_mem _ hj)
        obtain ⟨below, hdown⟩ := ih g.childrenIds fun c hc => by
          obtain ⟨o, ho⟩ := h.childs k g hk c hc
          exact ⟨⟨o, ho⟩, Nat.lt_of_lt_of_le (hrank k g c o hk hc ho) (Nat.le_of_lt_succ hlt)⟩
        exact ⟨_, .node hk hdown hbeside⟩
  refine hbelow ((ks.map rank).sum + 1) ks fun k hk => ⟨hks k hk, ?_⟩
  exact Nat.lt_succ_of_le (List.le_sum_of_mem (List.mem_map_of_mem hk))

/-- The trees hold the objects that lead up to one of the ids. -/
theorem Shows.mem_nodes_iff (h : st.Agrees) (hshows : st.Shows ks ts) {j : Int32} :
    j ∈ ts.nodes ↔ ∃ k ∈ ks, Reaches st.parrentOf j k := by
  induction hshows with
  | nil => simp [Trees.nodes]
  | @node k g ks below beside stored _ _ ihdown ihright =>
    rw [Trees.nodes, List.mem_cons, List.mem_append, ihdown, ihright, List.exists_mem_cons_iff, ← or_assoc]
    refine or_congr ⟨?_, fun hreach => ?_⟩ .rfl
    · rintro (rfl | ⟨c, hc, hreach⟩)
      · exact .refl j
      · exact hreach.trans (.head ((h.mem_childs_iff stored).mp hc) (.refl k))
    · by_cases hjk : j = k
      · exact .inl hjk
      · obtain ⟨c, hjc, hup⟩ := hreach.last hjk
        exact .inr ⟨c, (h.mem_childs_iff stored).mpr hup, hjc⟩

/-- The trees hold each object once. -/
theorem Shows.nodup_nodes (h : st.Agrees) (hforest : Grounded st.parrentOf) (hshows : st.Shows ks ts) (hks : st.Apart ks) :
    ts.nodes.Nodup := by
  induction hshows with
  | nil => exact List.nodup_nil
  | @node k g ks below beside stored down right ihdown ihright =>
    obtain ⟨hk, hks⟩ := List.pairwise_cons.mp hks
    have hup : ∀ {j}, j ∈ below.nodes → ∃ c ∈ g.childrenIds, Reaches st.parrentOf j c ∧ Reaches st.parrentOf c k := by
      intro j hj
      obtain ⟨c, hc, hjc⟩ := (down.mem_nodes_iff h).mp hj
      exact ⟨c, hc, hjc, .head ((h.mem_childs_iff stored).mp hc) (.refl k)⟩
    rw [Trees.nodes, List.nodup_cons]
    refine ⟨fun hmem => ?_, (ihdown (h.apart_childs hforest stored)).append (ihright hks) fun j hbelow hbeside => ?_⟩
    · rcases List.mem_append.mp hmem with hmem | hmem
      · obtain ⟨c, hc, hkc, hck⟩ := hup hmem
        exact hforest.irrefl k (hforest.antisymm hck hkc ▸ (h.mem_childs_iff stored).mp hc)
      · obtain ⟨k', hk', hreach⟩ := (right.mem_nodes_iff h).mp hmem
        exact (hk k' hk').1 hreach
    · obtain ⟨c, _, hjc, hck⟩ := hup hbelow
      obtain ⟨k', hk', hjk'⟩ := (right.mem_nodes_iff h).mp hbeside
      exact ((hjc.trans hck).total hjk').elim (hk k' hk').1 (hk k' hk').2

theorem Shows.width_pos (hshows : st.Shows ks ts) : 0 < ts.width ↔ ks ≠ [] := by
  cases hshows with
  | nil => simp [Trees.width]
  | node => simp only [Trees.width, ne_eq, reduceCtorEq, not_false_eq_true, iff_true]; omega

/-- The trees take as many rows as they have leaves. -/
theorem Shows.width (hshows : st.Shows ks ts) : ts.width = ts.nodes.countP st.isLeaf := by
  induction hshows with
  | nil => rfl
  | @node k g ks below beside stored down right ihdown ihright =>
    rw [Trees.width, Trees.nodes, List.countP_cons, List.countP_append, ← ihdown, ← ihright, isLeaf, stored]
    have hpos := down.width_pos
    cases hchilds : g.childrenIds with
    | nil =>
      have hzero : below.width = 0 := Nat.eq_zero_of_not_pos fun h => hpos.mp h hchilds
      simp only [hchilds, List.isEmpty_nil, if_true]
      omega
    | cons c cs =>
      have := hpos.mpr (hchilds ▸ List.cons_ne_nil c cs)
      simp only [hchilds, List.isEmpty_cons, Bool.false_eq_true, if_false]
      omega

/-- The column of a cell counts the links that lead up to one of the ids. -/
theorem Shows.depth (hshows : st.Shows ks ts) (h : st.Agrees) {row col : Int} {c : Int32 × Int × Int}
    (hc : c ∈ ts.layout row col) : ∃ n : Nat, c.2.2 = col + n ∧ ∃ k ∈ ks, ancestor st.parrentOf n c.1 = some k := by
  induction hshows generalizing row col with
  | nil => cases hc
  | @node k g ks below beside stored _ _ ihdown ihright =>
    rcases List.mem_cons.mp hc with rfl | hc
    · exact ⟨0, (Int.add_zero _).symm, k, List.mem_cons_self, rfl⟩
    · rcases List.mem_append.mp hc with hc | hc
      · obtain ⟨n, hcol, c', hc', hanc⟩ := ihdown hc
        refine ⟨n + 1, by rw [hcol, Nat.cast_add, Nat.cast_one]; omega, k, List.mem_cons_self, ?_⟩
        rw [Forest.ancestor_succ, hanc, Option.bind_some, (h.mem_childs_iff stored).mp hc']
      · obtain ⟨n, hcol, k', hk', hanc⟩ := ihright hc
        exact ⟨n, hcol, k', List.mem_cons_of_mem _ hk', hanc⟩

end ObjectStorrage

end Serializer
