import BackupEngine.Lemmas.Cells
import BackupEngine.Lemmas.Trees

/-!
# The cells of the display

`addGameobjectDisplayer` hands rows on by what its calls return, and `wWinMain` does the same from root to root. For an
inspected storage that is a forest the display is a loop over the cells of a layout of its trees: every object has one cell,
in the column of its depth, and the rows of an object are those of the leaves below it. It returns exactly when the numbers it
computes are of type `int`.
-/

namespace SceenViewer

open Cpp Serializer

open Forest (Reaches Grounded ancestor)

open ObjectStorrage (Shows)

namespace Displayer

/-- The step of the loop over the children. -/
def childStep (call : Displayed → Comp (Option (Int × Scene))) (counter sidecount : Int) (r : Int × Scene) (ID : Int32) :
    Comp (Option (Int × Scene)) := do
  let counter ← int (counter + r.1)
  let sidecount ← int (sidecount + 1)
  match ← call { counter, sidecount, it := ID, scene := r.2 } with
  | none => return none
  | some (n, scene) =>
    let childDepth ← int (r.1 + n)
    let childDepth ← int (childDepth + 1)
    return some (childDepth, scene)

theorem addChildren_eq (call : Displayed → Comp (Option (Int × Scene))) (counter sidecount : Int) (children : List Int32)
    (s : Scene) : addChildren call counter sidecount children s = Forest.each (childStep call counter sidecount) (0, s) children :=
  rfl

variable {d : Displayer} {st : ObjectStorrage Data}

/-- A cell is drawn at a height that is an `int`. -/
theorem addCell_inInt {counter sidecount : Int} {it : Int32} {s s' : Scene} (h : d.addCell counter sidecount it s = .ok s') :
    InInt (80 * counter) := by
  obtain ⟨_, _, h⟩ := Cpp.bind_eq_ok.mp h
  obtain ⟨_, _, h⟩ := Cpp.bind_eq_ok.mp h
  obtain ⟨_, _, h⟩ := Cpp.bind_eq_ok.mp h
  obtain ⟨_, _, h⟩ := Cpp.bind_eq_ok.mp h
  obtain ⟨_, _, h⟩ := Cpp.bind_eq_ok.mp h
  obtain ⟨_, _, h⟩ := Cpp.bind_eq_ok.mp h
  obtain ⟨_, _, h⟩ := Cpp.bind_eq_ok.mp h
  obtain ⟨_, _, h⟩ := Cpp.bind_eq_ok.mp h
  obtain ⟨down, hdown, _⟩ := Cpp.bind_eq_ok.mp h
  exact (int_eq_ok.mp hdown).1

theorem drawCell_inInt {cell : Int32 × Int × Int} {s s' : Scene} (h : d.drawCell s cell = .ok s') :
    InInt (80 * cell.2.1) := by
  obtain ⟨counter, hcounter, h⟩ := Cpp.bind_eq_ok.mp h
  obtain ⟨sidecount, _, h⟩ := Cpp.bind_eq_ok.mp h
  obtain ⟨_, rfl⟩ := int_eq_ok.mp hcounter
  exact addCell_inInt h

/-- So is every row of a layout that is drawn. -/
theorem rows_inInt {ts : Trees Int32} {row col r : Int} {s s' : Scene}
    (h : (ts.layout row col).foldlM d.drawCell s = .ok s') (hle : row ≤ r) (hlt : r < row + ts.width) : InInt (80 * r) := by
  have hall : ∀ c ∈ ts.layout row col, InInt (80 * c.2.1) := by
    refine foldlM_prefix_invariant (fun p _ => ∀ c ∈ p, InInt (80 * c.2.1)) _ (fun p a s t _ hp hstep c hc => ?_) nofun h
    rcases List.mem_append.mp hc with hc | hc
    · exact hp c hc
    · exact List.mem_singleton.mp hc ▸ drawCell_inInt hstep
  obtain ⟨c, hc, rfl⟩ := Trees.exists_mem_row col hle hlt
  exact hall c hc

/-- A call draws its cell and then what the calls for the children draw, and returns one less than the rows it took. -/
theorem body_eq (call : Displayed → Comp (Option (Int × Scene))) (hd : d.inspectedSceenStorrage = some st) {k : Int32}
    {g : GameObject Data} (hk : st.getById k = some g) {below : Trees Int32} {counter sidecount : Int}
    (hchildren : ∀ s, InInt (80 * counter) → addChildren call counter sidecount g.childrenIds s =
      (below.layout counter (sidecount + 1)).foldlM d.drawCell s >>= fun s => .ok (some ((below.width : Int), s))) (s : Scene) :
    d.body call { counter, sidecount, it := k, scene := s } =
      (d.addCell counter sidecount k s >>= fun s => (below.layout counter (sidecount + 1)).foldlM d.drawCell s) >>=
        fun s => .ok (some (max 1 (below.width : Int) - 1, s)) := by
  rw [body]
  cases hcell : d.addCell counter sidecount k s with
  | error e => rfl
  | ok s₁ =>
    have hderef : (d.inspected s₁).deref k = .ok g := by
      rw [inspected, hd]
      exact ObjectStorrage.deref_eq_ok.mpr hk
    simp only [ok_bind, hderef, hchildren s₁ (addCell_inInt hcell)]
    cases (below.layout counter (sidecount + 1)).foldlM d.drawCell s₁ with
    | error e => rfl
    | ok s₂ =>
      have hmax : max ((below.width : Int) - 1) 0 = max 1 (below.width : Int) - 1 := by omega
      simp only [ok_bind, hmax]
      rfl

/-- The rows between two rows that are drawn can be counted. -/
theorem inInt_rows {counter r n : Int} (hfrom : InInt (80 * counter)) (hto : InInt (80 * r)) (h0 : 0 ≤ n)
    (hn : n ≤ r - counter + 1) : InInt n := by
  unfold InInt at *
  omega

/-- A call of the loop over the children draws the trees at the child and goes on in the row behind them. -/
theorem childStep_eq (hd : d.inspectedSceenStorrage = some st) {k : Int32} {g : GameObject Data} (hk : st.getById k = some g)
    {below : Trees Int32} {depth : Nat} {counter childDepth : Int} (sidecount : Int)
    (hchildren : ∀ counter sidecount s, InInt (80 * counter) →
      addChildren (d.addGameobjectDisplayer depth) counter sidecount g.childrenIds s =
        (below.layout counter (sidecount + 1)).foldlM d.drawCell s >>= fun s => .ok (some ((below.width : Int), s)))
    (hcounter : InInt (80 * counter)) (h0 : 0 ≤ childDepth) (s : Scene) :
    childStep (d.addGameobjectDisplayer (depth + 1)) counter sidecount (childDepth, s) k =
      ((below.node k .nil).layout (counter + childDepth) (sidecount + 1)).foldlM d.drawCell s >>=
        fun s => .ok (some (childDepth + max 1 (below.width : Int), s)) := by
  rw [childStep, Trees.layout, Trees.layout, List.append_nil, List.foldlM_cons, drawCell]
  simp only
  cases hrow : int (counter + childDepth) with
  | error e => rfl
  | ok row =>
    obtain ⟨_, rfl⟩ := int_eq_ok.mp hrow
    cases hcol : int (sidecount + 1) with
    | error e => rfl
    | ok col =>
      obtain ⟨_, rfl⟩ := int_eq_ok.mp hcol
      rw [ok_bind, ok_bind, ok_bind, ok_bind]
      have hcall := body_eq (d.addGameobjectDisplayer depth) hd hk
        (hchildren (counter + childDepth) (sidecount + 1)) s
      rw [addGameobjectDisplayer, Forest.within, ← addGameobjectDisplayer, hcall]
      cases hcell : d.addCell (counter + childDepth) (sidecount + 1) k s with
      | error e => rfl
      | ok s₁ =>
        simp only [ok_bind]
        cases hbelow : (below.layout (counter + childDepth) (sidecount + 1 + 1)).foldlM d.drawCell s₁ with
        | error e => rfl
        | ok s₂ =>
          -- The last row of the trees at the child.
          have hlast : InInt (80 * (counter + childDepth + max 1 (below.width : Int) - 1)) := by
            by_cases hw : below.width = 0
            · rw [hw]
              simpa using addCell_inInt hcell
            · exact rows_inInt hbelow (by omega) (by omega)
          have hn : InInt (childDepth + (max 1 (below.width : Int) - 1)) := inInt_rows hcounter hlast (by omega) (by omega)
          have hn1 : InInt (childDepth + (max 1 (below.width : Int) - 1) + 1) :=
            inInt_rows hcounter hlast (by omega) (by omega)
          have hsum : childDepth + (max 1 (below.width : Int) - 1) + 1 = childDepth + max 1 (below.width : Int) := by omega
          simp only [ok_bind, int_of_inInt hn]
          rw [int_of_inInt hn1, ok_bind, hsum]
          rfl

/-- The loop over the children draws the layout of the trees at them. -/
theorem addChildren_layout (hd : d.inspectedSceenStorrage = some st) {ks : List Int32} {ts : Trees Int32}
    (hshows : st.Shows ks ts) : ∃ N, ∀ depth, N ≤ depth → ∀ counter sidecount childDepth s, InInt (80 * counter) →
      0 ≤ childDepth → Forest.each (childStep (d.addGameobjectDisplayer depth) counter sidecount) (childDepth, s) ks =
        (ts.layout (counter + childDepth) (sidecount + 1)).foldlM d.drawCell s >>=
          fun s => .ok (some (childDepth + ts.width, s)) := by
  induction hshows with
  | nil =>
    refine ⟨0, fun depth _ counter sidecount childDepth s _ _ => ?_⟩
    rw [Forest.each_nil, Trees.layout, Trees.width, Nat.cast_zero, Int.add_zero]
    rfl
  | @node k g ks below beside stored down right ihdown ihright =>
    obtain ⟨N, hdown⟩ := ihdown
    obtain ⟨M, hright⟩ := ihright
    refine ⟨max (N + 1) M, fun depth hdepth counter sidecount childDepth s hcounter h0 => ?_⟩
    obtain ⟨depth, rfl⟩ : ∃ n, depth = n + 1 := ⟨depth - 1, by omega⟩
    have hchildren : ∀ counter sidecount s, InInt (80 * counter) →
        addChildren (d.addGameobjectDisplayer depth) counter sidecount g.childrenIds s =
          (below.layout counter (sidecount + 1)).foldlM d.drawCell s >>= fun s => .ok (some ((below.width : Int), s)) := by
      intro counter sidecount s hcounter
      rw [addChildren_eq, hdown depth (by omega) counter sidecount 0 s hcounter (Int.le_refl 0), Int.add_zero, Int.zero_add]
    have hstep := childStep_eq hd stored sidecount hchildren hcounter h0 s
    have hlayout : (below.node k beside).layout (counter + childDepth) (sidecount + 1) =
        (below.node k .nil).layout (counter + childDepth) (sidecount + 1) ++
          beside.layout (counter + (childDepth + max 1 (below.width : Int))) (sidecount + 1) := by
      simp [Trees.layout, Int.add_assoc]
    rw [hlayout, List.foldlM_append]
    cases hfirst : ((below.node k .nil).layout (counter + childDepth) (sidecount + 1)).foldlM d.drawCell s with
    | error e =>
      rw [hfirst, error_bind] at hstep
      rw [Forest.each_cons_error hstep]
      rfl
    | ok s₁ =>
      rw [hfirst, ok_bind] at hstep
      rw [Forest.each_cons_some hstep, hright (depth + 1) (by omega) counter sidecount _ s₁ hcounter (by omega), ok_bind]
      have hwidth : childDepth + max 1 (below.width : Int) + beside.width = childDepth + ((below.node k beside).width : Int) := by
        rw [Trees.width]
        omega
      rw [hwidth]

/-- A call draws the layout of the tree of its object. -/
theorem addGameobjectDisplayer_layout (hd : d.inspectedSceenStorrage = some st) {k : Int32} {g : GameObject Data}
    (hk : st.getById k = some g) {below : Trees Int32} (hdown : st.Shows g.childrenIds below) :
    ∃ N, ∀ depth, N ≤ depth → ∀ counter sidecount s, InInt counter → InInt sidecount →
      d.addGameobjectDisplayer depth { counter, sidecount, it := k, scene := s } =
        ((below.node k .nil).layout counter sidecount).foldlM d.drawCell s >>=
          fun s => .ok (some (((below.node k .nil).width : Int) - 1, s)) := by
  obtain ⟨N, hloop⟩ := addChildren_layout hd hdown
  refine ⟨N + 1, fun depth hdepth counter sidecount s hcounter hsidecount => ?_⟩
  obtain ⟨depth, rfl⟩ : ∃ n, depth = n + 1 := ⟨depth - 1, by omega⟩
  rw [addGameobjectDisplayer, Forest.within, ← addGameobjectDisplayer]
  rw [body_eq _ hd hk fun s hdown => by
    rw [addChildren_eq, hloop depth (by omega) counter sidecount 0 s hdown (Int.le_refl 0), Int.add_zero, Int.zero_add]]
  have hwidth : max 1 (below.width : Int) - 1 = ((below.node k .nil).width : Int) - 1 := by
    rw [Trees.width, Trees.width]
    omega
  have hcell : d.drawCell s (k, counter, sidecount) = d.addCell counter sidecount k s := by
    rw [drawCell, int_of_inInt hcounter, ok_bind, int_of_inInt hsidecount, ok_bind]
  rw [Trees.layout, Trees.layout, List.append_nil, List.foldlM_cons, hcell, hwidth]

/-- The step of the loop over the objects of the inspected storage. -/
def rootStep (d : Displayer) (depth : Nat) (r : Int × Scene) (it : Int32 × GameObject Data) : Comp (Option (Int × Scene)) :=
  if it.2.parrentID = EMPTY_ID then do
    match ← d.addGameobjectDisplayer depth { counter := r.1, sidecount := 0, it := it.1, scene := r.2 } with
    | none => return none
    | some (n, scene) =>
      let counter ← int (r.1 + n)
      let counter ← int (counter + 1)
      return some (counter, scene)
  else return some (r.1, r.2)

/-- The ids of the entries that have no parent. -/
def roots (l : List (Int32 × GameObject Data)) : List Int32 := (l.filter fun it => it.2.parrentID = EMPTY_ID).map Prod.fst

theorem addAllObject_eq (hd : d.inspectedSceenStorrage = some st) (depth : Nat) (s : Scene) :
    d.addAllObject st depth s = Forest.each (d.rootStep depth) (0, s) st.objects.toList := by
  have heq : { d with inspectedSceenStorrage := some st } = d := by rw [← hd]
  rw [addAllObject, heq]
  rfl

/-- The loop over the objects draws the layout of the trees at the roots. -/
theorem roots_layout (hd : d.inspectedSceenStorrage = some st) {l : List (Int32 × GameObject Data)}
    (hl : ∀ it ∈ l, st.getById it.1 = some it.2) {ts : Trees Int32} (hshows : st.Shows (roots l) ts) :
    ∃ N, ∀ depth, N ≤ depth → ∀ counter s, InInt counter → 0 ≤ counter →
      Forest.each (d.rootStep depth) (counter, s) l =
        (ts.layout counter 0).foldlM d.drawCell s >>= fun s => .ok (some (counter + ts.width, s)) := by
  induction l generalizing ts with
  | nil =>
    cases hshows
    refine ⟨0, fun depth _ counter s _ _ => ?_⟩
    rw [Forest.each_nil, Trees.layout, Trees.width, Nat.cast_zero, Int.add_zero]
    rfl
  | cons it l ih =>
    by_cases hroot : it.2.parrentID = EMPTY_ID
    · rw [roots, List.filter_cons_of_pos (by simpa using hroot), List.map_cons, ← roots] at hshows
      cases hshows with
      | @node _ g _ below beside stored down right =>
        obtain ⟨N, hcall⟩ := addGameobjectDisplayer_layout hd stored down
        obtain ⟨M, hright⟩ := ih (fun it hit => hl it (List.mem_cons_of_mem _ hit)) right
        refine ⟨max N M, fun depth hdepth counter s hcounter h0 => ?_⟩
        have hlayout : (below.node it.1 beside).layout counter 0 =
            (below.node it.1 .nil).layout counter 0 ++ beside.layout (counter + (below.node it.1 .nil).width) 0 := by
          simp [Trees.layout, Trees.width]
        have hstep := hcall depth (by omega) counter 0 s hcounter (by decide)
        rw [hlayout, List.foldlM_append]
        cases hfirst : ((below.node it.1 .nil).layout counter 0).foldlM d.drawCell s with
        | error e =>
          rw [hfirst, error_bind] at hstep
          have hroot : d.rootStep depth (counter, s) it = .error e := by
            rw [rootStep, if_pos hroot]
            simp only
            rw [hstep]
            rfl
          rw [Forest.each_cons_error hroot]
          rfl
        | ok s₁ =>
          rw [hfirst, ok_bind] at hstep
          have hpos : 0 < (below.node it.1 .nil).width := by rw [Trees.width]; omega
          have hlast : InInt (80 * (counter + (below.node it.1 .nil).width - 1)) := rows_inInt hfirst (by omega) (by omega)
          have hn : InInt (counter + (((below.node it.1 .nil).width : Int) - 1)) := by
            unfold InInt at *
            omega
          have hn1 : InInt (counter + (((below.node it.1 .nil).width : Int) - 1) + 1) := by
            unfold InInt at *
            omega
          have hsum : counter + (((below.node it.1 .nil).width : Int) - 1) + 1 = counter + (below.node it.1 .nil).width := by
            omega
          have hroot : d.rootStep depth (counter, s) it = .ok (some (counter + (below.node it.1 .nil).width, s₁)) := by
            rw [rootStep, if_pos hroot]
            simp only
            rw [hstep, ok_bind]
            simp only [int_of_inInt hn, ok_bind]
            rw [int_of_inInt hn1, ok_bind, hsum]
            rfl
          rw [Forest.each_cons_some hroot, hright depth (by omega) _ s₁ (hsum ▸ hn1) (by omega), ok_bind]
          have hwidth : counter + ((below.node it.1 .nil).width : Int) + beside.width =
              counter + ((below.node it.1 beside).width : Int) := by
            simp only [Trees.width]
            omega
          rw [hwidth]
    · rw [roots, List.filter_cons_of_neg (by simpa using hroot), ← roots] at hshows
      obtain ⟨N, hrest⟩ := ih (fun it hit => hl it (List.mem_cons_of_mem _ hit)) hshows
      refine ⟨N, fun depth hdepth counter s hcounter h0 => ?_⟩
      have hskip : d.rootStep depth (counter, s) it = .ok (some (counter, s)) := by
        rw [rootStep, if_neg hroot]
        rfl
      rw [Forest.each_cons_some hskip, hrest depth hdepth counter s hcounter h0]

theorem mem_roots {k : Int32} : k ∈ roots st.objects.toList ↔ st.parrentOf k = some EMPTY_ID := by
  rw [roots, List.mem_map]
  constructor
  · rintro ⟨⟨k', g⟩, hmem, rfl⟩
    obtain ⟨hmem, hroot⟩ := List.mem_filter.mp hmem
    rw [ObjectStorrage.parrentOf_of_get (ObjectStorrage.mem_toList.mp hmem), of_decide_eq_true hroot]
  · intro hup
    obtain ⟨g, hk, hroot⟩ := Option.map_eq_some_iff.mp hup
    exact ⟨(k, g), List.mem_filter.mpr ⟨ObjectStorrage.mem_toList.mpr hk, decide_eq_true hroot⟩, rfl⟩

/-- No root leads up to another one. -/
theorem apart_roots (h : st.Agrees) : st.Apart (roots st.objects.toList) := by
  have hnot : ∀ a ∈ roots st.objects.toList, ∀ b ∈ roots st.objects.toList, a ≠ b → ¬Reaches st.parrentOf a b := by
    intro a ha b hb hne hreach
    obtain ⟨p, hp, hpb⟩ := hreach.tail hne
    rw [mem_roots.mp ha, Option.some_inj] at hp
    subst hp
    by_cases hempty : EMPTY_ID = b
    · have := mem_roots.mp hb
      rw [← hempty, h.parrentOf_empty] at this
      cases this
    · obtain ⟨_, hup, _⟩ := hpb.tail hempty
      rw [h.parrentOf_empty] at hup
      cases hup
  have hnodup : (roots st.objects.toList).Nodup := (ObjectStorrage.nodup_keys st).sublist (List.filter_sublist.map _)
  exact hnodup.imp_of_mem fun {a b} ha hb hne => ⟨hnot a ha b hb hne, hnot b hb a ha (Ne.symm hne)⟩

/-- What leads up to a stored object is stored. -/
theorem stored_of_reaches {j k : Int32} {g : GameObject Data} (hk : st.getById k = some g) (h : Reaches st.parrentOf j k) :
    ∃ o, st.getById j = some o := by
  by_cases hjk : j = k
  · exact ⟨g, hjk ▸ hk⟩
  · obtain ⟨p, hp, _⟩ := h.tail hjk
    obtain ⟨o, ho, _⟩ := Option.map_eq_some_iff.mp hp
    exact ⟨o, ho⟩

/-- In a forest every stored object, and nothing else, leads up to a root. -/
theorem reaches_root_iff (hforest : Grounded st.parrentOf) (h : st.Agrees) (j : Int32) :
    (∃ k ∈ roots st.objects.toList, Reaches st.parrentOf j k) ↔ ∃ g, st.getById j = some g := by
  constructor
  · rintro ⟨k, hk, hreach⟩
    obtain ⟨g, hg, _⟩ := Option.map_eq_some_iff.mp (mem_roots.mp hk)
    exact stored_of_reaches hg hreach
  · rintro ⟨g, hg⟩
    refine (hforest j).rec_up (P := fun j => ∀ g, st.getById j = some g →
      ∃ k ∈ roots st.objects.toList, Reaches st.parrentOf j k) (fun j ih g hg => ?_) g hg
    have hup := ObjectStorrage.parrentOf_of_get hg
    by_cases hroot : g.parrentID = EMPTY_ID
    · exact ⟨j, mem_roots.mpr (hroot ▸ hup), .refl j⟩
    · obtain ⟨p, hp⟩ := h.parents j g hg hroot
      obtain ⟨k, hk, hreach⟩ := ih _ hup p hp
      exact ⟨k, hk, .head hup hreach⟩

/-! ## The cells of a storage -/

/-- A cell for each object: the column is its depth, and no two objects have the same. -/
structure Layout (st : ObjectStorrage Data) (cells : List (Int32 × Int × Int)) : Prop where
  nodup : (cells.map Prod.fst).Nodup
  mem : ∀ k, k ∈ cells.map Prod.fst ↔ ∃ g, st.getById k = some g
  apart : (cells.map Prod.snd).Nodup
  depth : ∀ c ∈ cells, ∃ n : Nat, c.2.2 = n ∧ ancestor st.parrentOf (n + 1) c.1 = some EMPTY_ID

/-- The cells of a call for the object of the cell `c`: its own is the first, the others are those of the objects below it,
and they use as many rows as there are leaves among them, from the row of `c` on. -/
structure Below (st : ObjectStorrage Data) (c : Int32 × Int × Int) (below : List (Int32 × Int × Int)) : Prop where
  head : below.head? = some c
  nodup : (below.map Prod.fst).Nodup
  mem : ∀ j, j ∈ below.map Prod.fst ↔ Reaches st.parrentOf j c.1
  rows : ∀ r, (∃ b ∈ below, b.2.1 = r) ↔ c.2.1 ≤ r ∧ r < c.2.1 + (below.map Prod.fst).countP st.isLeaf

/-- How a storage is displayed: the loop over the objects returns and has drawn the cells of a layout. A call for an object
draws the cells below it, which in the display are some of these, and returns one less than the rows it took. -/
structure LaysOut (d : Displayer) (st : ObjectStorrage Data) (s : Scene) (cells : List (Int32 × Int × Int)) : Prop where
  layout : Layout st cells
  placeable : ∀ c ∈ cells, Placeable c
  returns : ∃ N s', d.Draws s s' cells ∧ ∀ depth, N ≤ depth →
    d.addAllObject st depth s = .ok (some (((cells.map Prod.fst).countP st.isLeaf : Int), s'))
  calls : ∀ c g, st.getById c.1 = some g → ∃ below, Below st c below ∧ (c ∈ cells → below <:+: cells) ∧
    ∃ N, ∀ depth, N ≤ depth → ∀ s₁, d.Ready s₁ → s₁.storrageInstance.counter + 3 * below.length < 2 ^ 31 →
      (∀ b ∈ below, Placeable b) → ∃ s₂, d.Draws s₁ s₂ below ∧
        d.addGameobjectDisplayer depth { counter := c.2.1, sidecount := c.2.2, it := c.1, scene := s₁ } =
          .ok (some (((below.map Prod.fst).countP st.isLeaf : Int) - 1, s₂))

/-- The numbers the display computes for a storage are of type `int`: the character of each id, the height of the last row,
the place of each column, and the ids of the objects it makes. -/
structure Fits (st : ObjectStorrage Data) (s : Scene) : Prop where
  text : ∀ k g, st.getById k = some g → InInt (k.toInt + 48)
  rows : InInt (80 * (((st.objects.toList.map Prod.fst).countP st.isLeaf : Int) - 1))
  cols : ∀ (k : Int32) (n : Nat), ancestor st.parrentOf (n + 1) k = some EMPTY_ID → InInt (n * 80)
  room : s.storrageInstance.counter + 3 * st.objects.size < 2 ^ 31

/-- The cells of a call are a part of those of the display. -/
theorem layout_at {ks : List Int32} {ts : Trees Int32} (hshows : st.Shows ks ts) {row col : Int} {c : Int32 × Int × Int}
    (hc : c ∈ ts.layout row col) : ∃ g below, st.getById c.1 = some g ∧ st.Shows g.childrenIds below ∧
      (below.node c.1 .nil).layout c.2.1 c.2.2 <:+: ts.layout row col := by
  induction hshows generalizing row col with
  | nil => cases hc
  | @node k g ks below beside stored down right ihdown ihright =>
    rw [Trees.layout] at hc ⊢
    rcases List.mem_cons.mp hc with rfl | hc
    · refine ⟨g, below, stored, down, [], beside.layout (row + max 1 below.width) col, ?_⟩
      simp [Trees.layout]
    · rcases List.mem_append.mp hc with hc | hc
      · obtain ⟨o, deeper, ho, hdeeper, hpart⟩ := ihdown hc
        exact ⟨o, deeper, ho, hdeeper, List.IsInfix.trans hpart (List.infix_cons (List.prefix_append _ _).isInfix)⟩
      · obtain ⟨o, deeper, ho, hdeeper, hpart⟩ := ihright hc
        exact ⟨o, deeper, ho, hdeeper, List.IsInfix.trans hpart (List.infix_cons (List.suffix_append _ _).isInfix)⟩

/-- The cells of a call for an object whose trees are known. -/
theorem below_layout (h : st.Agrees) (hforest : Grounded st.parrentOf) {c : Int32 × Int × Int} {g : GameObject Data}
    (hk : st.getById c.1 = some g) {below : Trees Int32} (hdown : st.Shows g.childrenIds below) :
    Below st c ((below.node c.1 .nil).layout c.2.1 c.2.2) := by
  have hshows : st.Shows [c.1] (below.node c.1 .nil) := .node hk hdown .nil
  have hwidth : ((below.node c.1 .nil).width : Int) = (below.node c.1 .nil).nodes.countP st.isLeaf := by rw [hshows.width]
  constructor
  case head => rfl
  case nodup =>
    rw [Trees.map_fst_layout]
    exact hshows.nodup_nodes h hforest (List.pairwise_singleton _ _)
  case mem =>
    intro j
    rw [Trees.map_fst_layout, hshows.mem_nodes_iff h]
    simp
  case rows =>
    intro r
    rw [Trees.map_fst_layout, ← hwidth]
    constructor
    · rintro ⟨b, hb, rfl⟩
      exact Trees.row_of_mem hb
    · exact fun hr => Trees.exists_mem_row c.2.2 hr.1 hr.2

/-- The trees at the roots are laid out with a cell for each object. -/
theorem layout_roots (h : st.Agrees) (hforest : Grounded st.parrentOf) {ts : Trees Int32}
    (hshows : st.Shows (roots st.objects.toList) ts) : Layout st (ts.layout 0 0) where
  nodup := by
    rw [Trees.map_fst_layout]
    exact hshows.nodup_nodes h hforest (apart_roots h)
  mem := by
    intro k
    rw [Trees.map_fst_layout, hshows.mem_nodes_iff h, reaches_root_iff hforest h]
  apart := ts.nodup_cells 0 0
  depth := by
    intro c hc
    obtain ⟨n, hcol, k, hk, hanc⟩ := hshows.depth h hc
    refine ⟨n, by rw [hcol, Int.zero_add], ?_⟩
    rw [Forest.ancestor_succ, hanc, Option.bind_some, mem_roots.mp hk]

/-- The ids of a layout are those of the storage. -/
theorem Layout.perm {cells : List (Int32 × Int × Int)} (h : Layout st cells) :
    (cells.map Prod.fst).Perm (st.objects.toList.map Prod.fst) := by
  refine (List.perm_ext_iff_of_nodup h.nodup (ObjectStorrage.nodup_keys st)).mpr fun k => ?_
  rw [h.mem, List.mem_map]
  constructor
  · rintro ⟨g, hk⟩
    exact ⟨(k, g), ObjectStorrage.mem_toList.mpr hk, rfl⟩
  · rintro ⟨⟨_, g⟩, hmem, rfl⟩
    exact ⟨g, ObjectStorrage.mem_toList.mp hmem⟩

theorem Layout.cell {cells : List (Int32 × Int × Int)} (h : Layout st cells) {k : Int32} {g : GameObject Data}
    (hk : st.getById k = some g) : ∃ c ∈ cells, c.1 = k := List.mem_map.mp ((h.mem k).mpr ⟨g, hk⟩)

theorem Layout.stored {cells : List (Int32 × Int × Int)} (h : Layout st cells) {c : Int32 × Int × Int} (hc : c ∈ cells) :
    ∃ g, st.getById c.1 = some g := (h.mem c.1).mp (List.mem_map_of_mem hc)

/-- There are as many cells as objects. -/
theorem Layout.length {cells : List (Int32 × Int × Int)} (h : Layout st cells) : cells.length = st.objects.size := by
  have := h.perm.length_eq
  rwa [List.length_map, List.length_map, Std.ExtTreeMap.length_toList] at this

/-- The cells of a forest fit exactly when the numbers of the display do. -/
theorem fitting_iff (h : st.Agrees) {ts : Trees Int32} (hshows : st.Shows (roots st.objects.toList) ts)
    (hlayout : Layout st (ts.layout 0 0)) (s : Scene) : Fitting s (ts.layout 0 0) ↔ Fits st s := by
  have hleaves : ts.width = (st.objects.toList.map Prod.fst).countP st.isLeaf := by
    rw [hshows.width, ← Trees.map_fst_layout ts 0 0]
    exact hlayout.perm.countP_eq _
  constructor
  · intro hfit
    constructor
    case text =>
      intro k g hk
      obtain ⟨c, hc, rfl⟩ := hlayout.cell hk
      exact hfit.text c hc
    case rows =>
      rw [← hleaves]
      by_cases hzero : ts.width = 0
      · rw [hzero]
        decide
      · have hle : (0 : Int) ≤ ts.width - 1 := by omega
        have hlt : (ts.width : Int) - 1 < 0 + ts.width := by omega
        obtain ⟨c, hc, hrow⟩ := Trees.exists_mem_row 0 hle hlt
        exact hrow ▸ (hfit.placeable c hc).row
    case cols =>
      intro k n hanc
      obtain ⟨p, hp, _⟩ := Option.bind_eq_some_iff.mp hanc
      obtain ⟨g, hk, _⟩ := Option.map_eq_some_iff.mp hp
      obtain ⟨c, hc, rfl⟩ := hlayout.cell hk
      obtain ⟨m, hcol, hm⟩ := hlayout.depth c hc
      have hmn := Forest.ancestor_unique h.parrentOf_empty hanc hm
      obtain rfl : n = m := Nat.succ_inj.mp hmn
      exact hcol ▸ (hfit.placeable c hc).col
    case room => exact hlayout.length ▸ hfit.room
  · intro hfits
    have hrows := hfits.rows
    rw [← hleaves] at hrows
    constructor
    case placeable =>
      intro c hc
      obtain ⟨hle, hlt⟩ := Trees.row_of_mem hc
      obtain ⟨n, hcol, hn⟩ := hlayout.depth c hc
      refine ⟨hle, ?_, hcol ▸ hfits.cols c.1 n hn⟩
      unfold InInt at *
      omega
    case text =>
      intro c hc
      obtain ⟨g, hk⟩ := hlayout.stored hc
      exact hfits.text c.1 g hk
    case room => exact hlayout.length ▸ hfits.room

/-- The loop over the objects of a forest draws the layout of its trees. -/
theorem addAllObject_layout (h : st.Agrees) (hforest : Grounded st.parrentOf) (hd : d.inspectedSceenStorrage = some st) :
    ∃ ts, st.Shows (roots st.objects.toList) ts ∧ ∃ N, ∀ depth, N ≤ depth → ∀ s,
      d.addAllObject st depth s = (ts.layout 0 0).foldlM d.drawCell s >>= fun s =>
        .ok (some ((((ts.layout 0 0).map Prod.fst).countP st.isLeaf : Int), s)) := by
  have hstored : ∀ k ∈ roots st.objects.toList, ∃ g, st.getById k = some g := by
    intro k hk
    obtain ⟨g, hg, _⟩ := Option.map_eq_some_iff.mp (mem_roots.mp hk)
    exact ⟨g, hg⟩
  obtain ⟨ts, hshows⟩ := h.shows hforest hstored
  obtain ⟨N, hloop⟩ := roots_layout hd (fun it hit => ObjectStorrage.mem_toList.mp hit) hshows
  refine ⟨ts, hshows, N, fun depth hdepth s => ?_⟩
  rw [addAllObject_eq hd, hloop depth hdepth 0 s (by decide) (Int.le_refl 0), hshows.width, Trees.map_fst_layout, Int.zero_add]

/-- A display that returns has computed with numbers of type `int`. -/
theorem fits_of_laysOut (h : st.Agrees) (hforest : Grounded st.parrentOf) (hd : d.inspectedSceenStorrage = some st) {s : Scene}
    (hs : d.Ready s) {cells : List (Int32 × Int × Int)} (hlays : d.LaysOut st s cells) : Fits st s := by
  obtain ⟨ts, hshows, N, hall⟩ := addAllObject_layout h hforest hd
  have hlayout := layout_roots h hforest hshows
  obtain ⟨M, s', _, hreturns⟩ := hlays.returns
  have hok := hreturns (max N M) (Nat.le_max_right N M)
  rw [hall _ (Nat.le_max_left N M)] at hok
  obtain ⟨_, hdrawn, _⟩ := Cpp.bind_eq_ok.mp hok
  exact (fitting_iff h hshows hlayout s).mp (fitting_of_drawCells hd h.keyed (fun c hc => hlayout.stored hc)
    (fun c hc => (Trees.row_of_mem hc).1) hs hdrawn)

/-- A call draws the cells below its object, wherever these can be placed. -/
theorem call_draws (h : st.Agrees) (hforest : Grounded st.parrentOf) (hd : d.inspectedSceenStorrage = some st)
    (htext : ∀ k g, st.getById k = some g → InInt (k.toInt + 48)) {c : Int32 × Int × Int} {g : GameObject Data}
    (hk : st.getById c.1 = some g) {below : Trees Int32} (hdown : st.Shows g.childrenIds below)
    {cells : List (Int32 × Int × Int)} (hcells : cells = (below.node c.1 .nil).layout c.2.1 c.2.2) :
    ∃ N, ∀ depth, N ≤ depth → ∀ s₁, d.Ready s₁ → s₁.storrageInstance.counter + 3 * cells.length < 2 ^ 31 →
      (∀ b ∈ cells, Placeable b) → ∃ s₂, d.Draws s₁ s₂ cells ∧
        d.addGameobjectDisplayer depth { counter := c.2.1, sidecount := c.2.2, it := c.1, scene := s₁ } =
          .ok (some (((cells.map Prod.fst).countP st.isLeaf : Int) - 1, s₂)) := by
  subst hcells
  obtain ⟨N, hcall⟩ := addGameobjectDisplayer_layout hd hk hdown
  refine ⟨N, fun depth hdepth s₁ hs₁ hroom hplaceable => ?_⟩
  have hbelow := below_layout h hforest hk hdown
  have hstored : ∀ b ∈ (below.node c.1 .nil).layout c.2.1 c.2.2, ∃ o, st.getById b.1 = some o := fun b hb =>
    stored_of_reaches hk ((hbelow.mem b.1).mp (List.mem_map_of_mem hb))
  have hfit : Fitting s₁ ((below.node c.1 .nil).layout c.2.1 c.2.2) := by
    refine ⟨hplaceable, fun b hb => ?_, hroom⟩
    obtain ⟨o, ho⟩ := hstored b hb
    exact htext b.1 o ho
  obtain ⟨s₂, hdrawn, hdraws⟩ := drawCells_draws hd h.keyed hstored hs₁ hfit
  obtain ⟨hrow, hcol⟩ := (hplaceable c List.mem_cons_self).inInt
  have hshows : st.Shows [c.1] (below.node c.1 .nil) := .node hk hdown .nil
  refine ⟨s₂, hdraws, ?_⟩
  rw [hcall depth hdepth c.2.1 c.2.2 s₁ hrow hcol, hdrawn, ok_bind, hshows.width, Trees.map_fst_layout]

/-- The display of a forest of any shape and size, on a singleton that can be drawn to: it lays the storage out exactly when
the numbers it computes are of type `int`. -/
theorem laysOut_iff (h : st.Agrees) (hforest : Grounded st.parrentOf) (hd : d.inspectedSceenStorrage = some st) {s : Scene}
    (hs : d.Ready s) : (∃ cells, d.LaysOut st s cells) ↔ Fits st s := by
  refine ⟨fun ⟨_, hlays⟩ => fits_of_laysOut h hforest hd hs hlays, fun hfits => ?_⟩
  obtain ⟨ts, hshows, N, hall⟩ := addAllObject_layout h hforest hd
  have hlayout := layout_roots h hforest hshows
  have hfit := (fitting_iff h hshows hlayout s).mpr hfits
  refine ⟨ts.layout 0 0, hlayout, hfit.placeable, ?_, fun c g hk => ?_⟩
  · obtain ⟨s', hdrawn, hdraws⟩ := drawCells_draws hd h.keyed (fun c hc => hlayout.stored hc) hs hfit
    refine ⟨N, s', hdraws, fun depth hdepth => ?_⟩
    rw [hall depth hdepth, hdrawn, ok_bind]
  · -- The trees below an object are those the display comes to there.
    obtain ⟨below, hdown, hpart⟩ : ∃ below, st.Shows g.childrenIds below ∧
        (c ∈ ts.layout 0 0 → (below.node c.1 .nil).layout c.2.1 c.2.2 <:+: ts.layout 0 0) := by
      by_cases hc : c ∈ ts.layout 0 0
      · obtain ⟨o, below, ho, hdown, hpart⟩ := layout_at hshows hc
        cases hk.symm.trans ho
        exact ⟨below, hdown, fun _ => hpart⟩
      · obtain ⟨below, hdown⟩ := h.shows hforest (h.childs c.1 g hk)
        exact ⟨below, hdown, fun hmem => absurd hmem hc⟩
    exact ⟨_, below_layout h hforest hk hdown, hpart, call_draws h hforest hd hfits.text hk hdown rfl⟩

/-- An object with two children. -/
def siblings : ObjectStorrage Data :=
  let parrent : GameObject Data := { ID := 0, childrenIds := [1, 2], isActiv := true }
  let child : GameObject Data := { ID := 1, parrentID := 0, isActiv := true }
  { objects := .ofList [((0 : Int32), parrent), (1, child), (2, { child with ID := 2 })], counter := 3 }

/-- A singleton with the two renderers. -/
def renderers : Scene :=
  let cells : GameObject Data :=
    { ID := 0, componenten := [⟨0, true, .engine (.instancedTeilSprite {})⟩], isActiv := true }
  let buttons : GameObject Data :=
    { ID := 1, componenten := [⟨1, true, .engine (.drawableRenderer (.new (World.blank.memory 1)))⟩], isActiv := true }
  { storrageInstance := { objects := .ofList [((0 : Int32), cells), (1, buttons)], counter := 2 }
    world := { World.blank with next := 2 } }

/-- The display of a storage to `renderers`. -/
def displayerOf (st : ObjectStorrage Data) : Displayer where
  screenHeight := 600
  rects1 := List.replicate 4 (0, 0, Engine.oneF, Engine.oneF)
  inspectedSceenStorrage := some st
  instanceRenderer := { gameobject := 0, addr := 0 }
  buttonChecker := { gameobject := 1, addr := 1 }

theorem ready_renderers (st : ObjectStorrage Data) : (displayerOf st).Ready renderers where
  rects := Nat.le_refl 4
  screenHeight := show (0 : Int) ≤ 600 ∧ (600 : Int) < 2 ^ 31 by decide
  hierarchy := by
    have hagrees : renderers.storrageInstance.Agrees := .of_entries (by decide +kernel)
    have hids : ∀ e ∈ renderers.storrageInstance.objects.toList, 0 ≤ e.1.toInt ∧ e.1.toInt < 2 := by decide +kernel
    exact { hagrees with
      counter := by decide
      ids := fun k g hk => hids (k, g) (ObjectStorrage.mem_toList.mpr hk) }
  counter := by decide
  renderer := ⟨{}, show renderers.component ⟨0, 0⟩ = _ by decide +kernel⟩
  checker := ⟨.new (World.blank.memory 1), show renderers.component ⟨1, 1⟩ = _ by decide +kernel, by decide⟩

theorem laysOut_siblings : ∃ cells, (displayerOf siblings).LaysOut siblings renderers cells := by
  have hends : ∀ e ∈ siblings.objects.toList, ancestor siblings.parrentOf 3 e.1 = none := by decide +kernel
  have htext : ∀ e ∈ siblings.objects.toList, InInt (e.1.toInt + 48) := by decide +kernel
  refine (laysOut_iff (.of_entries ?_) (ObjectStorrage.grounded_of_entries 3 hends) rfl (ready_renderers siblings)).mpr ?_
  · decide +kernel
  · refine ⟨fun k g hk => htext (k, g) (ObjectStorrage.mem_toList.mpr hk), by decide +kernel, fun k n hanc => ?_,
      by decide +kernel⟩
    obtain ⟨p, hp, _⟩ := Option.bind_eq_some_iff.mp hanc
    obtain ⟨g, hk, _⟩ := Option.map_eq_some_iff.mp hp
    have hend := hends (k, g) (ObjectStorrage.mem_toList.mpr hk)
    have hlt : n < 2 := by
      by_contra hge
      rw [show n + 1 = 3 + (n - 2) by omega, Forest.ancestor_add, hend] at hanc
      cases hanc
    unfold InInt
    omega

/-- A single object, under an id that has no character. -/
def farID : ObjectStorrage Data :=
  let root : GameObject Data := { ID := 2147483600, isActiv := true }
  { objects := .ofList [((2147483600 : Int32), root)], counter := 2147483601 }

theorem not_laysOut_farID : farID.Agrees ∧ Grounded farID.parrentOf ∧ (displayerOf farID).Ready renderers ∧
    ¬∃ cells, (displayerOf farID).LaysOut farID renderers cells := by
  have hagrees : farID.Agrees := .of_entries (by decide +kernel)
  have hforest : Grounded farID.parrentOf := ObjectStorrage.grounded_of_entries 2 (by decide +kernel)
  refine ⟨hagrees, hforest, ready_renderers farID, fun ⟨_, hlays⟩ => ?_⟩
  have hfits := fits_of_laysOut hagrees hforest rfl (ready_renderers farID) hlays
  exact absurd (hfits.text 2147483600 { ID := 2147483600, isActiv := true } (by decide +kernel)) (by decide)

end Displayer

end SceenViewer
