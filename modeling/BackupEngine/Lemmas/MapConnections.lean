import BackupEngine.Lemmas.MapTables

/-!
# What the villages are connected to

The tiles in the slots of the villages, and those a scan of the places would put there. A call appends the tile it places to
the slots of its corners and writes one place; what that place held before stays in the slots.
-/

namespace SiedlerServer

open Cpp

/-- The tiles in a slot of the villages. -/
def Map.slotTiles (m : Map) (i : Nat) : List TilePtr := (m.villages[i]?.map Village.connectingTiles).getD []

/-- A place that holds a tile which is not empty. -/
def Place.Full (p : Place) : Prop := ∃ gen idx, p.tile = some (.entry gen idx)

/-- The tile a place has for a slot: its tile, if that is not empty and a corner of the place has the slot. -/
def Place.tileAt (maxSizeX : Int) (i : Nat) (p : Place) : List TilePtr :=
  match p.tile with
  | some (.entry gen idx) =>
    if (corners p.x p.y).any fun c => (villageSlot maxSizeX c).toNat == i then [.entry gen idx] else []
  | _ => []

/-- The tiles the places have for a slot. -/
def Map.placeTiles (m : Map) (i : Nat) : List TilePtr := m.allTilePlaces.flatMap (Place.tileAt m.maxSizeX i)

/-! ## Places -/

theorem Place.tileAt_of_not_full {p : Place} (h : ¬p.Full) (maxSizeX : Int) (i : Nat) : p.tileAt maxSizeX i = [] := by
  unfold Place.tileAt
  split
  · rename_i gen idx hp
    exact absurd ⟨gen, idx, hp⟩ h
  · rfl

/-- A full place has its tile for the slot of its first corner. -/
theorem Place.tileAt_of_full {p : Place} (h : p.Full) (maxSizeX : Int) :
    (p.tileAt maxSizeX (villageSlot maxSizeX (p.x * 2 + 0, p.y + 0)).toNat).length = 1 := by
  obtain ⟨gen, idx, hp⟩ := h
  have hcorner : (corners p.x p.y).any (fun c => (villageSlot maxSizeX c).toNat ==
      (villageSlot maxSizeX (p.x * 2 + 0, p.y + 0)).toNat) = true :=
    List.any_eq_true.mpr ⟨(p.x * 2 + 0, p.y + 0), by simp [corners], beq_self_eq_true _⟩
  simp only [Place.tileAt, hp, if_pos hcorner, List.length_singleton]

/-- Overwriting one element exchanges what it contributes for what the new one does. -/
theorem flatMap_set_perm {α β : Type} (f : α → List β) {xs : List α} {k : Nat} {old : α} (new : α) (h : xs[k]? = some old) :
    ((xs.set k new).flatMap f ++ f old).Perm (xs.flatMap f ++ f new) := by
  induction xs generalizing k with
  | nil => simp at h
  | cons x xs ih =>
    cases k with
    | zero =>
      rw [List.getElem?_cons_zero, Option.some_inj] at h
      subst h
      rw [List.set_cons_zero, List.flatMap_cons, List.flatMap_cons, List.append_assoc, List.append_assoc]
      calc f new ++ (xs.flatMap f ++ f x)
        _ |>.Perm (xs.flatMap f ++ (f new ++ f x)) := List.perm_append_comm_assoc _ _ _
        _ |>.Perm (xs.flatMap f ++ (f x ++ f new)) := List.perm_append_comm.append_left _
        _ |>.Perm (f x ++ (xs.flatMap f ++ f new)) := List.perm_append_comm_assoc _ _ _
    | succ k =>
      rw [List.getElem?_cons_succ] at h
      rw [List.set_cons_succ, List.flatMap_cons, List.flatMap_cons, List.append_assoc, List.append_assoc]
      exact (ih h).append_left _

/-- Growing the places adds nothing. -/
theorem flatMap_resized {α β : Type} {f : α → List β} {fresh : α} (h : f fresh = []) (xs : List α) {n : Nat}
    (hn : xs.length ≤ n) : (resized xs n fresh).flatMap f = xs.flatMap f := by
  have hnil : (List.replicate (n - xs.length) fresh).flatMap f = [] := by
    rw [List.flatMap_eq_nil_iff]
    intro a ha
    rw [List.eq_of_mem_replicate ha, h]
  rw [resized, List.take_of_length_le hn, List.flatMap_append, hnil, List.append_nil]

/-! ## Villages -/

/-- An `addVillage` appends the tile to the slot of its corner. -/
theorem addVillage_slotTiles {m m' : Map} {x y : Int} {tile : TilePtr} (hx : 1 ≤ m.maxSizeX) (hm : VillagesHold m)
    (h1 : 0 ≤ x) (h2 : 0 ≤ y) (h : m.addVillage x y tile = .ok m') (i : Nat) :
    m'.slotTiles i = m.slotTiles i ++ if (villageSlot m.maxSizeX (x, y)).toNat = i then [tile] else [] := by
  obtain ⟨_, k, grown, v, rfl, rfl, hv, rfl⟩ := addVillage_cases hx hm h1 h2 h
  have hgrown : ∀ j, ((resized m.villages (max m.villages.length ((villageSlot m.maxSizeX (x, y)).toNat + 1))
      Village.village)[j]?.map Village.connectingTiles).getD [] = m.slotTiles j := by
    intro j
    rw [getElem?_resized, Map.slotTiles, List.getD]
    by_cases hj : j < m.villages.length
    · rw [if_pos (by omega), List.getElem?_eq_getElem hj]
      rfl
    · rw [List.getElem?_eq_none (by omega)]
      split <;> rfl
  have hlt := (List.getElem?_eq_some_iff.mp hv).1
  rw [Map.slotTiles]
  simp only
  by_cases hi : (villageSlot m.maxSizeX (x, y)).toNat = i
  · subst hi
    rw [if_pos rfl, List.getElem?_set_self hlt, ← hgrown, hv]
    rfl
  · rw [if_neg hi, List.getElem?_set_ne hi, hgrown, List.append_nil]

/-- The calls for a list of corners append the tile once for every corner that has the slot. -/
theorem addVillages_slotTiles {tile : TilePtr} {cs : List (Int × Int)} : ∀ {m m' : Map}, 1 ≤ m.maxSizeX →
    VillagesHold m → (∀ c ∈ cs, 0 ≤ c.1 ∧ 0 ≤ c.2) → m.addVillages tile cs = .ok m' → ∀ i, m'.slotTiles i =
      m.slotTiles i ++ (cs.filter fun c => (villageSlot m.maxSizeX c).toNat == i).map fun _ => tile := by
  induction cs with
  | nil =>
    intro m m' _ _ _ h i
    simp only [Map.addVillages, List.foldlM_nil, pure_eq_ok, Except.ok.injEq] at h
    rw [h]
    simp
  | cons c cs ih =>
    intro m m' hx hm hcs h i
    simp only [Map.addVillages, List.foldlM_cons, bind_eq_ok, int_eq_ok] at h
    obtain ⟨m₁, ⟨_, ⟨_, rfl⟩, _, ⟨_, rfl⟩, h₁⟩, h⟩ := h
    obtain ⟨hc1, hc2⟩ := hcs c List.mem_cons_self
    have hfirst := addVillage_slotTiles hx hm hc1 hc2 h₁ i
    obtain ⟨v₁, rfl, hm₁, _, _⟩ := addVillage_spec hx hm hc1 hc2 h₁
    have hrest := ih (m := { m with villages := v₁ }) hx hm₁ (fun c hc => hcs c (List.mem_cons_of_mem _ hc)) h i
    rw [hrest, hfirst, List.append_assoc, List.filter_cons]
    by_cases hi : (villageSlot m.maxSizeX c).toNat = i
    · simp [hi]
    · simp [hi]

/-- The corners of a place on the map have different slots. -/
theorem corners_slots_nodup {maxSizeX x y : Int} (hx0 : 0 ≤ x) (hx : x < maxSizeX) (hy : 0 ≤ y) :
    ((corners x y).map fun c => (villageSlot maxSizeX c).toNat).Nodup := by
  have hinj : ∀ c ∈ corners x y, ∀ c' ∈ corners x y,
      (villageSlot maxSizeX c).toNat = (villageSlot maxSizeX c').toNat → c = c' := by
    intro c hc c' hc' heq
    have hb := corners_bounds hc
    have hb' := corners_bounds hc'
    have h0 : 0 ≤ villageSlot maxSizeX c := villageSlot_nonneg (by omega) (by omega) (by omega)
    have h0' : 0 ≤ villageSlot maxSizeX c' := villageSlot_nonneg (by omega) (by omega) (by omega)
    have hslot : villageSlot maxSizeX c = villageSlot maxSizeX c' := by omega
    obtain ⟨hrow, hcol⟩ := SlotTable.flat_inj (w := maxSizeX * 2 + 2) (x := c.2) (y := c.1) (u := c'.2) (v := c'.1)
      (by omega) (by omega) (by omega) (by omega) hslot
    exact Prod.ext hcol hrow
  refine List.Nodup.map_on hinj ?_
  simp only [corners, List.nodup_cons, List.mem_cons, Prod.mk.injEq, List.not_mem_nil, or_false, not_false_eq_true,
    List.nodup_nil, and_true]
  omega

/-- No two elements with different images have the same one: at most one is left for each. -/
theorem filter_map_const {α β : Type} {f : α → Nat} {l : List α} (h : (l.map f).Nodup) (i : Nat) (b : β) :
    ((l.filter fun a => f a == i).map fun _ => b) = if l.any fun a => f a == i then [b] else [] := by
  have hcount : (l.filter fun a => f a == i).length ≤ 1 := by
    rw [← List.countP_eq_length_filter]
    have := List.nodup_iff_count_le_one.mp h i
    rwa [List.count, List.countP_map] at this
  rw [List.map_const', List.any_eq]
  split
  · rename_i hany
    obtain ⟨a, ha, hi⟩ := of_decide_eq_true hany
    have hmem : a ∈ l.filter fun a => f a == i := List.mem_filter.mpr ⟨ha, hi⟩
    have hpos := List.length_pos_of_mem hmem
    have hone : (l.filter fun a => f a == i).length = 1 := by omega
    rw [hone, List.replicate_one]
  · rename_i hany
    have hnil : (l.filter fun a => f a == i) = [] := by
      rw [List.filter_eq_nil_iff]
      intro a ha hi
      exact hany (decide_eq_true ⟨a, ha, hi⟩)
    rw [hnil, List.length_nil, List.replicate_zero]

/-! ## One call -/

theorem currentTile_ptr (growth : Nat → Nat) (m : Map) (result : List Int) (isEmpty : Bool) :
    (∃ gen idx, (m.currentTile growth result isEmpty).2 = .entry gen idx) ↔ isEmpty = false := by
  unfold Map.currentTile
  cases isEmpty with
  | true => simp
  | false =>
    rw [if_neg Bool.false_ne_true]
    split <;> simp

/-- What a call that returns does to tiles, places and villages: it looks its tile up, writes one place at its coordinates,
and the slots of the corners of that place get the tile. -/
theorem setTile_connections {growth : Nat → Nat} {maxSizeX maxSizeY : Int} {K : Set (Int × Int)} {m m' : Map} {c : TileCall}
    (hsx : 1 ≤ maxSizeX) (hsy : 1 ≤ maxSizeY) (hm : MapHolds maxSizeX maxSizeY K m) (hc : c.InRange maxSizeX maxSizeY)
    (h : m.setTile growth c.x c.y c.result c.number c.isEmpty = .ok m') :
    ∃ ptr, m.currentTile growth c.result c.isEmpty = ({ m with allTiles := m'.allTiles }, ptr) ∧
      ((c.place maxSizeY ptr).Full ↔ c.isEmpty = false) ∧ m'.allTilePlaces = placed maxSizeY m.allTilePlaces c ptr ∧
      ∀ i, m'.slotTiles i = m.slotTiles i ++ (c.place maxSizeY ptr).tileAt maxSizeX i := by
  obtain ⟨_, tiles, ptr, t, hcur, htempty, hm₁, hderef, h⟩ := setTile_cases hsy hm hc h
  obtain ⟨hx0, hx1, hy0, hy1⟩ := hc
  have hfull : (c.place maxSizeY ptr).Full ↔ c.isEmpty = false := by
    rw [← currentTile_ptr growth m c.result c.isEmpty, hcur]
    exact exists_congr fun gen => exists_congr fun idx => Option.some_inj
  refine ⟨ptr, ?_⟩
  rw [hcur]
  cases hempty : c.isEmpty with
  | true =>
    unfold Map.afterSet at h
    rw [TileCall.place, hderef, ok_bind, if_pos (by rw [htempty, hempty])] at h
    simp only [pure_eq_ok, Except.ok.injEq] at h
    subst h
    refine ⟨rfl, hempty ▸ hfull, rfl, fun i => ?_⟩
    have hnot : ¬(c.place maxSizeY ptr).Full := by
      rw [hfull, hempty]
      exact Bool.noConfusion
    rw [Place.tileAt_of_not_full hnot, List.append_nil]
    rfl
  | false =>
    obtain ⟨_, _, _, _, _, _, m₁, streets, hvillages, rfl⟩ :=
      afterSet_spec hsx hsy hm₁ rfl hderef (htempty.trans hempty) ⟨hx0, hx1⟩ ⟨hy0, hy1⟩ h
    have hcorners : ∀ d ∈ corners c.x c.y, 0 ≤ d.1 ∧ 0 ≤ d.2 := by
      intro d hd
      have := corners_bounds hd
      omega
    have hslots := addVillages_slotTiles (hm₁.sizeX ▸ hsx) hm₁.villages hcorners hvillages
    obtain ⟨villages, rfl, _⟩ := addVillages_spec (hm₁.sizeX ▸ hsx) hm₁.villages hcorners hvillages
    refine ⟨rfl, hempty ▸ hfull, rfl, fun i => (hslots i).trans ?_⟩
    obtain ⟨gen, idx, hptr⟩ := hfull.mpr hempty
    obtain rfl : ptr = .entry gen idx := Option.some_inj.mp hptr
    obtain rfl : m.maxSizeX = maxSizeX := hm.sizeX
    rw [filter_map_const (corners_slots_nodup hx0 hx1 hy0) i]
    rfl

/-! ## A sequence of calls -/

/-- The index of the place of a call. -/
def TileCall.placeIndex (maxSizeY : Int) (c : TileCall) : Nat := (c.x * maxSizeY + c.y).toNat

/-- A call on the map is told by the index of its place. -/
theorem placeIndex_inj {maxSizeX maxSizeY : Int} {c d : TileCall} (hc : c.InRange maxSizeX maxSizeY)
    (hd : d.InRange maxSizeX maxSizeY) (h : c.placeIndex maxSizeY = d.placeIndex maxSizeY) : c.x = d.x ∧ c.y = d.y := by
  obtain ⟨hx0, _, hy0, hy1⟩ := hc
  obtain ⟨hx0', _, hy0', hy1'⟩ := hd
  have hrow : 0 ≤ c.x * maxSizeY := Int.mul_nonneg hx0 (by omega)
  have hrow' : 0 ≤ d.x * maxSizeY := Int.mul_nonneg hx0' (by omega)
  unfold TileCall.placeIndex at h
  exact SlotTable.flat_inj hy0 hy1 hy0' hy1' (by omega)

/-- The later call does not go to where the earlier one put a tile. -/
def Undisturbed (c d : TileCall) : Prop := c.isEmpty = false → ¬(d.x = c.x ∧ d.y = c.y)

/-- What holds of slots and places after a sequence of calls. While no tile was disturbed the slots hold what the places
have; after that some slot holds a tile too much for good. -/
structure Connections (maxSizeX maxSizeY : Int) (calls : List TileCall) (m : Map) : Prop where
  holds : MapHolds maxSizeX maxSizeY (placedEdges calls) m
  le : ∀ i, (m.placeTiles i).length ≤ (m.slotTiles i).length
  exact : calls.Pairwise Undisturbed → ∀ i, (m.slotTiles i).Perm (m.placeTiles i)
  stale : ¬calls.Pairwise Undisturbed → ∃ i, (m.placeTiles i).length < (m.slotTiles i).length
  placed : ∀ k p, m.allTilePlaces[k]? = some p → p.Full →
    ∃ c ∈ calls, c.isEmpty = false ∧ c.x = p.x ∧ c.y = p.y ∧ c.placeIndex maxSizeY = k
  kept : calls.Pairwise Undisturbed → ∀ c ∈ calls, c.isEmpty = false →
    ∃ p, m.allTilePlaces[c.placeIndex maxSizeY]? = some p ∧ p.Full ∧ p.x = c.x ∧ p.y = c.y

theorem pairwise_concat {calls : List TileCall} {d : TileCall} :
    (calls ++ [d]).Pairwise Undisturbed ↔ calls.Pairwise Undisturbed ∧ ∀ c ∈ calls, Undisturbed c d := by
  rw [List.pairwise_append]
  simp

/-- Writing a place: what was there before, and what all places contribute to a slot. Growing the places adds none that
holds a tile. -/
theorem placed_spec (maxSizeY : Int) (places : List Place) (c : TileCall) (ptr : TilePtr) :
    ∃ old : Place, (old.Full → places[c.placeIndex maxSizeY]? = some old) ∧
      (∀ p, places[c.placeIndex maxSizeY]? = some p → old = p) ∧
      (placed maxSizeY places c ptr)[c.placeIndex maxSizeY]? = some (c.place maxSizeY ptr) ∧
      (∀ (k : Nat) (p : Place), k ≠ c.placeIndex maxSizeY → p.Full →
        ((placed maxSizeY places c ptr)[k]? = some p ↔ places[k]? = some p)) ∧
      ∀ (maxSizeX : Int) (i : Nat), ((placed maxSizeY places c ptr).flatMap (Place.tileAt maxSizeX i) ++
        old.tileAt maxSizeX i).Perm (places.flatMap (Place.tileAt maxSizeX i) ++
          (c.place maxSizeY ptr).tileAt maxSizeX i) := by
  have hfresh : ¬({} : Place).Full := by
    rintro ⟨_, _, hp⟩
    cases hp
  have hgrown : ∀ (n k : Nat) (p : Place), places.length ≤ n → p.Full →
      ((resized places n {})[k]? = some p ↔ places[k]? = some p) := by
    intro n k p hn hp
    rw [getElem?_resized, List.getD]
    cases hk : places[k]? with
    | none =>
      refine ⟨fun h => ?_, fun h => by cases h⟩
      split at h
      · cases h
        exact absurd hp hfresh
      · cases h
    | some q =>
      have := (List.getElem?_eq_some_iff.mp hk).1
      rw [if_pos (by omega), Option.getD_some]
  have hle : places.length ≤ max places.length (c.placeIndex maxSizeY + 1) := Nat.le_max_left _ _
  obtain ⟨old, hold⟩ : ∃ old, (resized places (max places.length (c.placeIndex maxSizeY + 1)) {})[
      c.placeIndex maxSizeY]? = some old := by
    refine ⟨_, List.getElem?_eq_getElem ?_⟩
    rw [length_resized]
    omega
  refine ⟨old, fun hfull => (hgrown _ _ old hle hfull).mp hold, fun p hp => ?_, ?_, fun k p hk hp => ?_, fun maxSizeX i => ?_⟩
  · rw [getElem?_resized, if_pos (by omega), List.getD, hp] at hold
    exact (Option.some_inj.mp hold).symm
  · exact List.getElem?_set_self (List.getElem?_eq_some_iff.mp hold).1
  · rw [← hgrown _ k p hle hp]
    exact iff_of_eq (congrArg (· = some p) (List.getElem?_set_ne (Ne.symm hk)))
  · have hset := flatMap_set_perm (Place.tileAt maxSizeX i) (c.place maxSizeY ptr) hold
    rwa [flatMap_resized (Place.tileAt_of_not_full hfresh maxSizeX i) places hle] at hset

/-- What one call does: where the place it writes held a tile, that tile stays in the slots. -/
theorem Connections.step {growth : Nat → Nat} {maxSizeX maxSizeY : Int} {calls : List TileCall} {m m' : Map} {d : TileCall}
    (hsx : 1 ≤ maxSizeX) (hsy : 1 ≤ maxSizeY) (hrange : ∀ c ∈ calls, c.InRange maxSizeX maxSizeY)
    (hd : d.InRange maxSizeX maxSizeY) (hm : Connections maxSizeX maxSizeY calls m)
    (h : m.setTile growth d.x d.y d.result d.number d.isEmpty = .ok m') :
    Connections maxSizeX maxSizeY (calls ++ [d]) m' := by
  obtain ⟨hholds, _⟩ := setTile_spec hsx hsy hm.holds hd h
  obtain ⟨ptr, _, hfull, hplaces, hslots⟩ := setTile_connections hsx hsy hm.holds hd h
  obtain ⟨old, hold, holdeq, hself, hother, hperm⟩ := placed_spec maxSizeY m.allTilePlaces d ptr
  rw [← hplaces] at hself hother hperm
  have hperm : ∀ i, (m'.placeTiles i ++ old.tileAt maxSizeX i).Perm
      (m.placeTiles i ++ (d.place maxSizeY ptr).tileAt maxSizeX i) := by
    intro i
    rw [Map.placeTiles, Map.placeTiles, hholds.sizeX, hm.holds.sizeX]
    exact hperm maxSizeX i
  have hlen : ∀ i, (m'.placeTiles i).length + (old.tileAt maxSizeX i).length =
      (m.placeTiles i).length + ((d.place maxSizeY ptr).tileAt maxSizeX i).length := by
    intro i
    have := (hperm i).length_eq
    rwa [List.length_append, List.length_append] at this
  have hlen' : ∀ i, (m'.slotTiles i).length =
      (m.slotTiles i).length + ((d.place maxSizeY ptr).tileAt maxSizeX i).length := by
    intro i
    rw [hslots, List.length_append]
  constructor
  case holds => exact placedEdges_concat calls d ▸ hholds
  case le =>
    intro i
    have := hm.le i
    have := hlen i
    have := hlen' i
    omega
  case exact =>
    intro hpw i
    obtain ⟨hcalls, hlast⟩ := pairwise_concat.mp hpw
    have hnot : ¬old.Full := by
      intro hfull'
      obtain ⟨c, hc, hempty, _, _, hindex⟩ := hm.placed _ old (hold hfull') hfull'
      obtain ⟨hx, hy⟩ := placeIndex_inj (hrange c hc) hd hindex
      exact hlast c hc hempty ⟨hx.symm, hy.symm⟩
    have hnew := hperm i
    rw [Place.tileAt_of_not_full hnot, List.append_nil] at hnew
    rw [hslots]
    exact ((hm.exact hcalls i).append_right _).trans hnew.symm
  case stale =>
    intro hnpw
    by_cases hcalls : calls.Pairwise Undisturbed
    · -- The call goes to where the place still holds a tile.
      obtain ⟨c, hc, hcd⟩ : ∃ c ∈ calls, ¬Undisturbed c d := by
        by_contra hall
        refine hnpw (pairwise_concat.mpr ⟨hcalls, fun c hc => ?_⟩)
        by_contra hcd
        exact hall ⟨c, hc, hcd⟩
      obtain ⟨hempty, hxy⟩ := Classical.not_imp.mp hcd
      obtain ⟨hx, hy⟩ := not_not.mp hxy
      obtain ⟨p, hp, hpfull, _⟩ := hm.kept hcalls c hc hempty
      have hindex : c.placeIndex maxSizeY = d.placeIndex maxSizeY := by
        rw [TileCall.placeIndex, TileCall.placeIndex, hx, hy]
      obtain rfl := holdeq p (hindex ▸ hp)
      have hone := Place.tileAt_of_full hpfull maxSizeX
      have := hm.le (villageSlot maxSizeX (old.x * 2 + 0, old.y + 0)).toNat
      have := hlen (villageSlot maxSizeX (old.x * 2 + 0, old.y + 0)).toNat
      have := hlen' (villageSlot maxSizeX (old.x * 2 + 0, old.y + 0)).toNat
      exact ⟨(villageSlot maxSizeX (old.x * 2 + 0, old.y + 0)).toNat, by omega⟩
    · obtain ⟨i, hi⟩ := hm.stale hcalls
      have := hlen i
      have := hlen' i
      exact ⟨i, by omega⟩
  case placed =>
    intro k p hk hp
    by_cases hkd : k = d.placeIndex maxSizeY
    · rw [hkd, hself] at hk
      cases hk
      exact ⟨d, by simp, hfull.mp hp, rfl, rfl, hkd.symm⟩
    · obtain ⟨c, hc, hrest⟩ := hm.placed k p ((hother k p hkd hp).mp hk) hp
      exact ⟨c, List.mem_append_left _ hc, hrest⟩
  case kept =>
    intro hpw c hc hempty
    obtain ⟨hcalls, hlast⟩ := pairwise_concat.mp hpw
    rcases List.mem_append.mp hc with hc | hc
    · obtain ⟨p, hp, hrest⟩ := hm.kept hcalls c hc hempty
      refine ⟨p, (hother _ p (fun hindex => ?_) hrest.1).mpr hp, hrest⟩
      obtain ⟨hx, hy⟩ := placeIndex_inj (hrange c hc) hd hindex
      exact hlast c hc hempty ⟨hx.symm, hy.symm⟩
    · obtain rfl := List.mem_singleton.mp hc
      exact ⟨c.place maxSizeY ptr, hself, hfull.mpr hempty, rfl, rfl⟩

end SiedlerServer
