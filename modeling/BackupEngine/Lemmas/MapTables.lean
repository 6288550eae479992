import BackupEngine.SiedlerServer.Map
import BackupEngine.Lib.SlotTable

/-!
# What one call does to the tables of the map

Spec lemmas for `addStreet`, `addVillage` and `setTile`. The street table is a `SlotTable`: `StreetsHold m K` says its used
slots are exactly the edges of `K`, each with its coordinates and its index. An edge is on the board when its flat index is
not negative; the one edge of a tile on the board that is not, is the edge (0, -1) of a tile at (0, 0).
-/

namespace SiedlerServer

open Cpp SlotTable

/-! ## Growing a table -/

/-- A resize to the size a vector has leaves it as it is. -/
theorem resized_length {α : Type} (xs : List α) (fresh : α) : resized xs xs.length fresh = xs := by
  simp [resized]

/-- Growing to an index that is an `int` and not negative: the table gets the index, if the size it needs is an `int`. -/
theorem growTo_eq_ok {α : Type} {xs ys : List α} {index : Int} {fresh : α} (h0 : 0 ≤ index) (hi : index < 2 ^ 31)
    (hlen : xs.length < 2 ^ 31) :
    growTo xs index fresh = .ok ys ↔
      index + 1 < 2 ^ 31 ∧ ys = resized xs (max xs.length (index.toNat + 1)) fresh := by
  unfold growTo
  rw [sizeT_of_nonneg h0 hi]
  split
  · rename_i hle
    rw [Nat.max_eq_right (by omega)]
    constructor
    · intro h
      obtain ⟨n, hn, hr⟩ := bind_eq_ok.mp h
      obtain ⟨⟨_, hlt⟩, rfl⟩ := int_eq_ok.mp hn
      rw [sizeT_of_nonneg (by omega) hlt] at hr
      refine ⟨hlt, ?_⟩
      rw [← (resize_eq_ok.mp hr).2]
      congr 1
      omega
    · rintro ⟨hlt, rfl⟩
      rw [int_of_inInt ⟨by omega, hlt⟩, ok_bind, sizeT_of_nonneg (by omega) hlt]
      refine resize_eq_ok.mpr ⟨by unfold maxSize; omega, ?_⟩
      congr 1
      omega
  · rename_i hle
    rw [Nat.max_eq_left (by omega), resized_length]
    constructor
    · intro h
      simp only [pure_eq_ok, Except.ok.injEq] at h
      exact ⟨by omega, h.symm⟩
    · rintro ⟨_, rfl⟩
      rfl

/-- Growing to the index -1, the size of the table being compared with 2^64 - 1, empties the table. -/
theorem growTo_neg_one {α : Type} {xs : List α} (hlen : xs.length < 2 ^ 31) (fresh : α) :
    growTo xs (-1) fresh = .ok [] := by
  have h1 : sizeT (-1) = 2 ^ 64 - 1 := by decide
  have h0 : sizeT (-1 + 1) = 0 := by decide
  unfold growTo
  rw [h1, if_pos (by omega), int_of_inInt (by decide), ok_bind, h0]
  exact resize_eq_ok.mpr ⟨Nat.zero_le _, by simp [resized]⟩

/-! ## Streets -/

/-- The flat index of an edge, over `Int`. -/
def streetSlot (maxSizeY : Int) (e : Int × Int) : Int := e.1 * (maxSizeY * 2 + 2) + e.2

/-- The street of an edge: its coordinates and its index. -/
def streetAt (maxSizeY : Int) (e : Int × Int) : Street :=
  { isInitialized := true, x := e.1, y := e.2, index := streetSlot maxSizeY e }

/-- The edges of tiles on the board whose flat index is not negative. -/
def OnBoard (maxSizeY : Int) (e : Int × Int) : Prop :=
  0 ≤ e.1 ∧ -1 ≤ e.2 ∧ e.2 < 2 * maxSizeY ∧ e ≠ (0, -1)

theorem streetSlot_nonneg {maxSizeY : Int} (hy : 1 ≤ maxSizeY) {e : Int × Int} (he : OnBoard maxSizeY e) :
    0 ≤ streetSlot maxSizeY e := by
  obtain ⟨x, y⟩ := e
  obtain ⟨h0, h1, _, hne⟩ := he
  simp only [ne_eq, Prod.mk.injEq, not_and] at h0 h1 hne
  unfold streetSlot
  by_cases hx : x = 0
  · have := hne hx
    simp only [hx, Int.zero_mul, Int.zero_add]
    omega
  · have : 1 * (maxSizeY * 2 + 2) ≤ x * (maxSizeY * 2 + 2) := by
      apply Int.mul_le_mul_of_nonneg_right <;> omega
    simp only
    omega

/-- Distinct edges on the board have distinct slots: a row holds the edges from -1 to `2 * maxSizeY - 1`. -/
theorem streetSlot_inj {maxSizeY : Int} (hy : 1 ≤ maxSizeY) {e e' : Int × Int} (he : OnBoard maxSizeY e)
    (he' : OnBoard maxSizeY e') (h : (streetSlot maxSizeY e).toNat = (streetSlot maxSizeY e').toNat) : e = e' := by
  have h0 := streetSlot_nonneg hy he
  have h0' := streetSlot_nonneg hy he'
  have hslot : streetSlot maxSizeY e = streetSlot maxSizeY e' := by omega
  obtain ⟨x, y⟩ := e
  obtain ⟨x', y'⟩ := e'
  obtain ⟨_, h1, h2, _⟩ := he
  obtain ⟨_, h1', h2', _⟩ := he'
  unfold streetSlot at hslot
  simp only at h1 h2 h1' h2' hslot
  obtain ⟨rfl, hcol⟩ := flat_inj (w := maxSizeY * 2 + 2) (x := x) (y := y + 1) (u := x') (v := y' + 1)
    (by omega) (by omega) (by omega) (by omega) (by omega)
  simp only [Prod.mk.injEq, true_and]
  omega

/-- The index of an edge, when every product and sum on the way is an `int`. -/
theorem streetIndex_eq_ok {m : Map} {x y i : Int} :
    m.streetIndex x y = .ok i ↔ InInt (m.maxSizeY * 2) ∧ InInt (m.maxSizeY * 2 + 2) ∧
      InInt (x * (m.maxSizeY * 2 + 2)) ∧ InInt (streetSlot m.maxSizeY (x, y)) ∧ i = streetSlot m.maxSizeY (x, y) := by
  unfold Map.streetIndex streetSlot
  simp only [bind_eq_ok, int_eq_ok]
  constructor
  · rintro ⟨_, ⟨h1, rfl⟩, _, ⟨h2, rfl⟩, _, ⟨h3, rfl⟩, h4, rfl⟩
    exact ⟨h1, h2, h3, h4, rfl⟩
  · rintro ⟨h1, h2, h3, h4, rfl⟩
    exact ⟨_, ⟨h1, rfl⟩, _, ⟨h2, rfl⟩, _, ⟨h3, rfl⟩, h4, rfl⟩

/-- What the map holds of streets: the used slots are the edges of `K`, all on the board. -/
structure StreetsHold (m : Map) (K : Set (Int × Int)) : Prop where
  holds : Holds (·.isInitialized) (fun e => (streetSlot m.maxSizeY e).toNat) (streetAt m.maxSizeY) m.streets K
  onBoard : ∀ e ∈ K, OnBoard m.maxSizeY e
  length_lt : m.streets.length < 2 ^ 31

/-- An `addStreet` for an edge on the board that returns adds the edge, changes nothing else and keeps every street; its
index was below `2 ^ 31 - 1`. -/
theorem addStreet_spec {m m' : Map} {K : Set (Int × Int)} {x y : Int} (hy : 1 ≤ m.maxSizeY) (hm : StreetsHold m K)
    (he : OnBoard m.maxSizeY (x, y)) (h : m.addStreet x y = .ok m') :
    ∃ streets, m' = { m with streets := streets } ∧ StreetsHold m' (insert (x, y) K) ∧
      Keeps (·.isInitialized) m.streets streets ∧ streetSlot m.maxSizeY (x, y) + 1 < 2 ^ 31 := by
  unfold Map.addStreet at h
  obtain ⟨i, hi, h⟩ := bind_eq_ok.mp h
  obtain ⟨grown, hg, h⟩ := bind_eq_ok.mp h
  obtain ⟨s₀, hs₀, h⟩ := bind_eq_ok.mp h
  obtain ⟨_, _, _, hin, rfl⟩ := streetIndex_eq_ok.mp hi
  have h0 := streetSlot_nonneg hy he
  obtain ⟨hlt, rfl⟩ := (growTo_eq_ok h0 hin.2 hm.length_lt).mp hg
  rw [sizeT_of_nonneg h0 hin.2] at hs₀ h
  have hs₀ := elemAt_eq_ok.mp hs₀
  have hlen := hm.length_lt
  have hmax : m.streets.length ≤ max m.streets.length ((streetSlot m.maxSizeY (x, y)).toNat + 1) := Nat.le_max_left _ _
  have hgrow := hm.holds.grow {} rfl hmax
  have hkeep : Keeps (·.isInitialized) m.streets (resized m.streets _ {}) := Keeps.grow m.streets hmax {}
  have hinj : ∀ e ∈ K, (streetSlot m.maxSizeY e).toNat = (streetSlot m.maxSizeY (x, y)).toNat → e = (x, y) :=
    fun e heK => streetSlot_inj hy (hm.onBoard e heK) he
  have hboard : ∀ e ∈ insert (x, y) K, OnBoard m.maxSizeY e := by
    rintro e (rfl | heK)
    · exact he
    · exact hm.onBoard e heK
  by_cases hu : s₀.isInitialized = true
  · rw [if_pos hu] at h
    simp only [pure_eq_ok, Except.ok.injEq] at h
    subst h
    have hmem : (x, y) ∈ K := hgrow.mem_of_used hinj hs₀ hu
    refine ⟨_, rfl, ⟨?_, hboard, by simp only [length_resized]; omega⟩, hkeep, hlt⟩
    rw [Set.insert_eq_of_mem hmem]
    exact hgrow
  · rw [if_neg hu] at h
    obtain ⟨ys, hys, h⟩ := bind_eq_ok.mp h
    obtain ⟨_, rfl⟩ := setAt_eq_ok.mp hys
    simp only [pure_eq_ok, Except.ok.injEq] at h
    subst h
    have hfree : s₀.isInitialized = false := by simpa using hu
    refine ⟨_, rfl, ⟨hgrow.insert hs₀ hfree rfl, hboard, by simp only [List.length_set, length_resized]; omega⟩,
      hkeep.trans (Keeps.set _ hs₀ hfree _), hlt⟩

/-- An `addStreet` for an edge on the board returns when the index leaves room for one more. -/
theorem addStreet_returns {m : Map} {x y : Int} (hy : 1 ≤ m.maxSizeY) (hlen : m.streets.length < 2 ^ 31)
    (he : OnBoard m.maxSizeY (x, y)) (hw : m.maxSizeY * 2 + 2 < 2 ^ 31)
    (hlt : streetSlot m.maxSizeY (x, y) + 1 < 2 ^ 31) : ∃ m', m.addStreet x y = .ok m' := by
  have h0 := streetSlot_nonneg hy he
  obtain ⟨hx, h1, h2, _⟩ := he
  have hrow : 0 ≤ x * (m.maxSizeY * 2 + 2) := Int.mul_nonneg hx (by omega)
  have hi : m.streetIndex x y = .ok (streetSlot m.maxSizeY (x, y)) := by
    refine streetIndex_eq_ok.mpr ⟨⟨by omega, by omega⟩, ⟨by omega, hw⟩, ⟨by omega, ?_⟩, ⟨by omega, by omega⟩, rfl⟩
    unfold streetSlot at hlt
    simp only at hlt h1
    omega
  have hg : growTo m.streets (streetSlot m.maxSizeY (x, y)) {} = .ok _ :=
    (growTo_eq_ok h0 (by omega) hlen).mpr ⟨hlt, rfl⟩
  unfold Map.addStreet
  rw [hi, ok_bind, hg, ok_bind, sizeT_of_nonneg h0 (by omega)]
  generalize hgrown : resized m.streets _ ({} : Street) = grown
  have hslot : (streetSlot m.maxSizeY (x, y)).toNat < grown.length := by
    rw [← hgrown, length_resized]
    omega
  rw [elemAt_eq_ok.mpr (List.getElem?_eq_getElem hslot), ok_bind]
  split
  · exact ⟨_, rfl⟩
  · rw [setAt_eq_ok.mpr ⟨hslot, rfl⟩]
    exact ⟨_, rfl⟩

/-- The edge (0, -1): the table is emptied, and the access to its slot is outside it. -/
theorem addStreet_corner {m : Map} (hlen : m.streets.length < 2 ^ 31) :
    ∀ m', m.addStreet 0 (-1) ≠ .ok m' := by
  intro m' h
  unfold Map.addStreet at h
  obtain ⟨i, hi, h⟩ := bind_eq_ok.mp h
  obtain ⟨_, _, _, _, rfl⟩ := streetIndex_eq_ok.mp hi
  have hslot : streetSlot m.maxSizeY (0, -1) = -1 := by simp [streetSlot]
  rw [hslot, growTo_neg_one hlen, ok_bind] at h
  obtain ⟨_, hs₀, _⟩ := bind_eq_ok.mp h
  cases elemAt_eq_ok.mp hs₀

/-- The streets of a list of edges on the board: what one edge does, edge by edge. -/
theorem addStreets_spec {es : List (Int × Int)} : ∀ {m m' : Map} {K : Set (Int × Int)}, 1 ≤ m.maxSizeY →
    StreetsHold m K → (∀ e ∈ es, OnBoard m.maxSizeY e) → m.addStreets es = .ok m' →
      ∃ streets, m' = { m with streets := streets } ∧ StreetsHold m' (K ∪ {e | e ∈ es}) ∧
        Keeps (·.isInitialized) m.streets streets ∧ ∀ e ∈ es, streetSlot m.maxSizeY e + 1 < 2 ^ 31 := by
  induction es with
  | nil =>
    intro m m' K _ hm _ h
    simp only [Map.addStreets, List.foldlM_nil, pure_eq_ok, Except.ok.injEq] at h
    subst h
    exact ⟨m.streets, rfl, by simpa using hm, Keeps.refl _, by simp⟩
  | cons e es ih =>
    intro m m' K hy hm hes h
    simp only [Map.addStreets, List.foldlM_cons, bind_eq_ok, int_eq_ok] at h
    obtain ⟨m₁, ⟨_, ⟨_, rfl⟩, _, ⟨_, rfl⟩, h₁⟩, h⟩ := h
    obtain ⟨s₁, rfl, hm₁, hk₁, hlt⟩ := addStreet_spec hy hm (hes e List.mem_cons_self) h₁
    obtain ⟨s₂, rfl, hm₂, hk₂, hlts⟩ := ih (m := { m with streets := s₁ }) hy hm₁ (fun e he => hes e (List.mem_cons_of_mem _ he)) h
    refine ⟨s₂, rfl, ?_, hk₁.trans hk₂, ?_⟩
    · have hset : insert (e.1, e.2) K ∪ {x | x ∈ es} = K ∪ {x | x ∈ e :: es} := by
        ext x
        simp only [Set.mem_union, Set.mem_insert_iff, Set.mem_ofPred_eq, List.mem_cons]
        tauto
      exact hset ▸ hm₂
    · intro e' he'
      rcases List.mem_cons.mp he' with rfl | he'
      · exact hlt
      · exact hlts e' he'

theorem addStreets_returns (es : List (Int × Int)) : ∀ {m : Map} {K : Set (Int × Int)}, 1 ≤ m.maxSizeY →
    StreetsHold m K → m.maxSizeY * 2 + 2 < 2 ^ 31 →
    (∀ e ∈ es, OnBoard m.maxSizeY e ∧ InInt e.1 ∧ InInt e.2 ∧ streetSlot m.maxSizeY e + 1 < 2 ^ 31) →
      ∃ m', m.addStreets es = .ok m' := by
  induction es with
  | nil =>
    intro m K _ _ _ _
    exact ⟨m, rfl⟩
  | cons e es ih =>
    intro m K hy hm hw hes
    obtain ⟨hb, hx, hy', hlt⟩ := hes e List.mem_cons_self
    obtain ⟨m₁, h₁⟩ := addStreet_returns hy hm.length_lt hb hw hlt
    obtain ⟨s₁, rfl, hm₁, _, _⟩ := addStreet_spec hy hm hb h₁
    obtain ⟨m₂, h₂⟩ := ih (m := { m with streets := s₁ }) hy hm₁ hw (fun e he => hes e (List.mem_cons_of_mem _ he))
    refine ⟨m₂, ?_⟩
    simp only [Map.addStreets, List.foldlM_cons, int_of_inInt hx, int_of_inInt hy', ok_bind, h₁]
    exact h₂

/-! ## Villages -/

/-- The flat index of a corner, over `Int`. -/
def villageSlot (maxSizeX : Int) (c : Int × Int) : Int := c.2 * (maxSizeX * 2 + 2) + c.1

theorem villageSlot_nonneg {maxSizeX : Int} (hx : 1 ≤ maxSizeX) {c : Int × Int} (h1 : 0 ≤ c.1) (h2 : 0 ≤ c.2) :
    0 ≤ villageSlot maxSizeX c := by
  have : 0 ≤ c.2 * (maxSizeX * 2 + 2) := Int.mul_nonneg h2 (by omega)
  unfold villageSlot
  omega

/-- The index of a corner, when every product and sum on the way is an `int`. -/
theorem villageIndex_eq_ok {m : Map} {x y i : Int} :
    m.villageIndex x y = .ok i ↔ InInt (m.maxSizeX * 2) ∧ InInt (m.maxSizeX * 2 + 2) ∧
      InInt (y * (m.maxSizeX * 2 + 2)) ∧ InInt (villageSlot m.maxSizeX (x, y)) ∧ i = villageSlot m.maxSizeX (x, y) := by
  unfold Map.villageIndex villageSlot
  simp only [bind_eq_ok, int_eq_ok]
  constructor
  · rintro ⟨_, ⟨h1, rfl⟩, _, ⟨h2, rfl⟩, _, ⟨h3, rfl⟩, h4, rfl⟩
    exact ⟨h1, h2, h3, h4, rfl⟩
  · rintro ⟨h1, h2, h3, h4, rfl⟩
    exact ⟨_, ⟨h1, rfl⟩, _, ⟨h2, rfl⟩, _, ⟨h3, rfl⟩, h4, rfl⟩

/-- What the map holds of villages: every slot, touched or not, is a village as the constructor leaves it, marked
initialised and without coordinates, but for the tiles connected to it. -/
structure VillagesHold (m : Map) : Prop where
  bare : ∀ v ∈ m.villages, v.isInitialized = true ∧ v.x = none ∧ v.y = -1 ∧ v.index = -1
  length_lt : m.villages.length < 2 ^ 31

/-- Every slot of a grown table is bare: the new ones are made by the constructor. -/
theorem VillagesHold.grown {m : Map} (hm : VillagesHold m) {n : Nat} {v : Village}
    (hv : v ∈ resized m.villages n Village.village) :
    v.isInitialized = true ∧ v.x = none ∧ v.y = -1 ∧ v.index = -1 := by
  rcases List.mem_append.mp hv with hv | hv
  · exact hm.bare v (List.mem_of_mem_take hv)
  · rw [List.eq_of_mem_replicate hv]
    exact ⟨rfl, rfl, rfl, rfl⟩

/-- What an `addVillage` that returns has done: the table has grown to the slot, whose village has one more tile. -/
theorem addVillage_cases {m m' : Map} {x y : Int} {tile : TilePtr} (hx : 1 ≤ m.maxSizeX) (hm : VillagesHold m)
    (h1 : 0 ≤ x) (h2 : 0 ≤ y) (h : m.addVillage x y tile = .ok m') :
    villageSlot m.maxSizeX (x, y) + 1 < 2 ^ 31 ∧ ∃ i grown v, i = (villageSlot m.maxSizeX (x, y)).toNat ∧
      grown = resized m.villages (max m.villages.length (i + 1)) Village.village ∧ grown[i]? = some v ∧
      m' = { m with villages := grown.set i { v with connectingTiles := v.connectingTiles ++ [tile] } } := by
  unfold Map.addVillage at h
  obtain ⟨i, hi, h⟩ := bind_eq_ok.mp h
  obtain ⟨grown, hg, h⟩ := bind_eq_ok.mp h
  obtain ⟨v, hv, h⟩ := bind_eq_ok.mp h
  obtain ⟨ys, hys, h⟩ := bind_eq_ok.mp h
  obtain ⟨_, _, _, hin, rfl⟩ := villageIndex_eq_ok.mp hi
  have h0 : 0 ≤ villageSlot m.maxSizeX (x, y) := villageSlot_nonneg hx h1 h2
  obtain ⟨hlt, rfl⟩ := (growTo_eq_ok h0 hin.2 hm.length_lt).mp hg
  rw [sizeT_of_nonneg h0 hin.2] at hv hys
  have hv := elemAt_eq_ok.mp hv
  rw [if_pos (hm.grown (List.mem_of_getElem? hv)).1] at hys
  obtain ⟨_, rfl⟩ := setAt_eq_ok.mp hys
  simp only [pure_eq_ok, Except.ok.injEq] at h
  exact ⟨hlt, _, _, v, rfl, rfl, hv, h.symm⟩

/-- An `addVillage` that returns changes nothing but the villages, leaves every slot bare, and leaves a slot for its
index, which was below `2 ^ 31 - 1`. -/
theorem addVillage_spec {m m' : Map} {x y : Int} {tile : TilePtr} (hx : 1 ≤ m.maxSizeX) (hm : VillagesHold m)
    (h1 : 0 ≤ x) (h2 : 0 ≤ y) (h : m.addVillage x y tile = .ok m') :
    ∃ villages, m' = { m with villages := villages } ∧ VillagesHold m' ∧ villages ≠ [] ∧
      villageSlot m.maxSizeX (x, y) + 1 < 2 ^ 31 := by
  obtain ⟨hlt, i, grown, v, rfl, rfl, hv, rfl⟩ := addVillage_cases hx hm h1 h2 h
  have hlen := hm.length_lt
  have hbare := hm.grown (List.mem_of_getElem? hv)
  refine ⟨_, rfl, ⟨?_, by simp only [List.length_set, length_resized]; omega⟩, ?_, hlt⟩
  · intro w hw
    rcases List.mem_or_eq_of_mem_set hw with hw | rfl
    · exact hm.grown hw
    · exact hbare
  · apply List.ne_nil_of_length_pos
    simp only [List.length_set, length_resized]
    omega

/-- The villages of a list of corners, none of them left of or above the map. -/
theorem addVillages_spec {tile : TilePtr} {cs : List (Int × Int)} : ∀ {m m' : Map}, 1 ≤ m.maxSizeX →
    VillagesHold m → (∀ c ∈ cs, 0 ≤ c.1 ∧ 0 ≤ c.2) → m.addVillages tile cs = .ok m' →
      ∃ villages, m' = { m with villages := villages } ∧ VillagesHold m' ∧ (cs ≠ [] → villages ≠ []) ∧
        ∀ c ∈ cs, villageSlot m.maxSizeX c + 1 < 2 ^ 31 := by
  induction cs with
  | nil =>
    intro m m' _ hm _ h
    simp only [Map.addVillages, List.foldlM_nil, pure_eq_ok, Except.ok.injEq] at h
    subst h
    exact ⟨m.villages, rfl, hm, by simp, by simp⟩
  | cons c cs ih =>
    intro m m' hx hm hcs h
    simp only [Map.addVillages, List.foldlM_cons, bind_eq_ok, int_eq_ok] at h
    obtain ⟨m₁, ⟨_, ⟨_, rfl⟩, _, ⟨_, rfl⟩, h₁⟩, h⟩ := h
    obtain ⟨hc1, hc2⟩ := hcs c List.mem_cons_self
    obtain ⟨v₁, rfl, hm₁, hne, hlt⟩ := addVillage_spec hx hm hc1 hc2 h₁
    obtain ⟨v₂, rfl, hm₂, hne₂, hlts⟩ :=
      ih (m := { m with villages := v₁ }) hx hm₁ (fun c hc => hcs c (List.mem_cons_of_mem _ hc)) h
    refine ⟨v₂, rfl, hm₂, fun _ => ?_, ?_⟩
    · cases cs with
      | nil =>
        simp only [List.foldlM_nil, pure_eq_ok, Except.ok.injEq] at h
        have : v₂ = v₁ := (congrArg Map.villages h).symm
        exact this ▸ hne
      | cons c' cs => exact hne₂ (by simp)
    · intro c' hc'
      rcases List.mem_cons.mp hc' with rfl | hc'
      · exact hlt
      · exact hlts c' hc'

/-- An `addVillage` returns when the index leaves room for one more. -/
theorem addVillage_returns {m : Map} {x y : Int} (tile : TilePtr) (hx : 1 ≤ m.maxSizeX)
    (hlen : m.villages.length < 2 ^ 31) (h1 : 0 ≤ x) (h2 : 0 ≤ y) (hw : m.maxSizeX * 2 + 2 < 2 ^ 31)
    (hlt : villageSlot m.maxSizeX (x, y) + 1 < 2 ^ 31) : ∃ m', m.addVillage x y tile = .ok m' := by
  have h0 : 0 ≤ villageSlot m.maxSizeX (x, y) := villageSlot_nonneg hx h1 h2
  have hrow : 0 ≤ y * (m.maxSizeX * 2 + 2) := Int.mul_nonneg h2 (by omega)
  have hi : m.villageIndex x y = .ok (villageSlot m.maxSizeX (x, y)) := by
    refine villageIndex_eq_ok.mpr ⟨⟨by omega, by omega⟩, ⟨by omega, hw⟩, ⟨by omega, ?_⟩, ⟨by omega, by omega⟩, rfl⟩
    unfold villageSlot at hlt
    simp only at hlt
    omega
  have hg : growTo m.villages (villageSlot m.maxSizeX (x, y)) Village.village = .ok _ :=
    (growTo_eq_ok h0 (by omega) hlen).mpr ⟨hlt, rfl⟩
  unfold Map.addVillage
  rw [hi, ok_bind, hg, ok_bind, sizeT_of_nonneg h0 (by omega)]
  generalize hgrown : resized m.villages _ Village.village = grown
  have hslot : (villageSlot m.maxSizeX (x, y)).toNat < grown.length := by
    rw [← hgrown, length_resized]
    omega
  rw [elemAt_eq_ok.mpr (List.getElem?_eq_getElem hslot), ok_bind]
  dsimp only
  rw [setAt_eq_ok.mpr ⟨hslot, rfl⟩]
  exact ⟨_, rfl⟩

theorem addVillages_returns (tile : TilePtr) (cs : List (Int × Int)) : ∀ {m : Map}, 1 ≤ m.maxSizeX →
    VillagesHold m → m.maxSizeX * 2 + 2 < 2 ^ 31 →
    (∀ c ∈ cs, 0 ≤ c.1 ∧ 0 ≤ c.2 ∧ InInt c.1 ∧ InInt c.2 ∧ villageSlot m.maxSizeX c + 1 < 2 ^ 31) →
      ∃ m', m.addVillages tile cs = .ok m' := by
  induction cs with
  | nil =>
    intro m _ _ _ _
    exact ⟨m, rfl⟩
  | cons c cs ih =>
    intro m hx hm hw hcs
    obtain ⟨hc1, hc2, hi1, hi2, hlt⟩ := hcs c List.mem_cons_self
    obtain ⟨m₁, h₁⟩ := addVillage_returns tile hx hm.length_lt hc1 hc2 hw hlt
    obtain ⟨v₁, rfl, hm₁, _, _⟩ := addVillage_spec hx hm hc1 hc2 h₁
    obtain ⟨m₂, h₂⟩ := ih (m := { m with villages := v₁ }) hx hm₁ hw (fun c hc => hcs c (List.mem_cons_of_mem _ hc))
    refine ⟨m₂, ?_⟩
    simp only [Map.addVillages, List.foldlM_cons, int_of_inInt hi1, int_of_inInt hi2, ok_bind, h₁]
    exact h₂

/-! ## One call of `setTile` -/

/-- The tiles of a map: the empty tile is marked empty, and no entry of `allTiles` is. -/
structure TilesHold (m : Map) : Prop where
  empty : m.emptyTile.emptyTile = true
  entries : ∀ t ∈ m.allTiles.elems, t.emptyTile = false

/-- The tile a call places changes nothing but `allTiles`, and is marked empty exactly when the call places nothing. -/
theorem currentTile_spec {m : Map} (hm : TilesHold m) (growth : Nat → Nat) (result : List Int) (isEmpty : Bool) :
    ∃ tiles ptr t, m.currentTile growth result isEmpty = ({ m with allTiles := tiles }, ptr) ∧
      TilesHold { m with allTiles := tiles } ∧ Map.deref { m with allTiles := tiles } (some ptr) = .ok t ∧
      t.emptyTile = isEmpty := by
  cases isEmpty with
  | true => exact ⟨m.allTiles, .emptyTile, m.emptyTile, rfl, hm, rfl, hm.empty⟩
  | false =>
    unfold Map.currentTile
    rw [if_neg (by simp)]
    cases hfind : m.findTile result with
    | some i =>
      obtain ⟨hlt, _⟩ := List.findIdx?_eq_some_iff_getElem.mp hfind
      refine ⟨m.allTiles, .entry m.allTiles.gen i, m.allTiles.elems[i], rfl, hm, ?_, hm.entries _ (List.getElem_mem hlt)⟩
      simp only [Map.deref, if_true]
      exact elemAt_eq_ok.mpr (List.getElem?_eq_getElem hlt)
    | none =>
      refine ⟨_, _, { emptyTile := false, tileId := m.allTiles.elems.length, itemIDs := result }, rfl, ⟨hm.empty, ?_⟩,
        ?_, rfl⟩
      · intro t ht
        simp only [Buffer.elems_push, List.mem_append, List.mem_singleton] at ht
        rcases ht with ht | rfl
        · exact hm.entries t ht
        · rfl
      · simp only [Map.deref, if_true]
        exact elemAt_eq_ok.mpr (by simp)

/-- The map between calls: its size, its tiles, its villages and its streets, and tables short enough to be indexed. -/
structure MapHolds (maxSizeX maxSizeY : Int) (K : Set (Int × Int)) (m : Map) : Prop where
  sizeX : m.maxSizeX = maxSizeX
  sizeY : m.maxSizeY = maxSizeY
  tiles : TilesHold m
  villages : VillagesHold m
  streets : StreetsHold m K
  places_lt : m.allTilePlaces.length < 2 ^ 31

/-- A map before its first call. -/
theorem mapHolds_setMaxSize (maxSizeX maxSizeY : Int) :
    MapHolds maxSizeX maxSizeY ∅ (Map.setMaxSize maxSizeX maxSizeY) where
  sizeX := rfl
  sizeY := rfl
  tiles := ⟨rfl, by simp [Map.setMaxSize]⟩
  villages := ⟨by simp [Map.setMaxSize], by simp [Map.setMaxSize]⟩
  streets := ⟨holds_nil, by simp, by simp [Map.setMaxSize]⟩
  places_lt := by simp [Map.setMaxSize]

/-- The edges of the tile a call places. -/
def TileCall.edges (c : TileCall) : Set (Int × Int) := {e | c.isEmpty = false ∧ e ∈ SiedlerServer.edges c.x c.y}

/-- The indices a call computes leave room for one more element: the place's, and for a tile that is not empty those of its
last corner and of its last edge, which are the largest. -/
def TileCall.Fits (maxSizeX maxSizeY : Int) (c : TileCall) : Prop :=
  c.x * maxSizeY + c.y + 1 < 2 ^ 31 ∧
    (c.isEmpty = false → villageSlot maxSizeX (c.x * 2 + 2, c.y + 1) + 1 < 2 ^ 31 ∧
      streetSlot maxSizeY (c.x + 1, c.y * 2 + 1) + 1 < 2 ^ 31)

/-- Where the corners of a place lie. -/
theorem corners_bounds {x y : Int} {c : Int × Int} (hc : c ∈ corners x y) :
    x * 2 ≤ c.1 ∧ c.1 ≤ x * 2 + 2 ∧ y ≤ c.2 ∧ c.2 ≤ y + 1 := by
  obtain ⟨a, b⟩ := c
  simp only [corners, List.mem_cons, Prod.mk.injEq, List.not_mem_nil, or_false] at hc
  simp only
  omega

/-- Where the edges of a place lie. -/
theorem edges_bounds {x y : Int} {e : Int × Int} (he : e ∈ edges x y) :
    x ≤ e.1 ∧ e.1 ≤ x + 1 ∧ y * 2 - 1 ≤ e.2 ∧ e.2 ≤ y * 2 + 1 := by
  obtain ⟨a, b⟩ := e
  simp only [edges, List.mem_cons, Prod.mk.injEq, List.not_mem_nil, or_false] at he
  simp only
  omega

/-- The last corner of a place has its largest index. -/
theorem villageSlot_le {maxSizeX x y : Int} (hsx : 1 ≤ maxSizeX) {c : Int × Int} (hc : c ∈ corners x y) :
    villageSlot maxSizeX c ≤ villageSlot maxSizeX (x * 2 + 2, y + 1) := by
  obtain ⟨_, h2, _, h4⟩ := corners_bounds hc
  have : c.2 * (maxSizeX * 2 + 2) ≤ (y + 1) * (maxSizeX * 2 + 2) := Int.mul_le_mul_of_nonneg_right h4 (by omega)
  simp only [villageSlot]
  omega

/-- The last edge of a place has its largest index. -/
theorem streetSlot_le {maxSizeY x y : Int} (hsy : 1 ≤ maxSizeY) {e : Int × Int} (he : e ∈ edges x y) :
    streetSlot maxSizeY e ≤ streetSlot maxSizeY (x + 1, y * 2 + 1) := by
  obtain ⟨_, h2, _, h4⟩ := edges_bounds he
  have : e.1 * (maxSizeY * 2 + 2) ≤ (x + 1) * (maxSizeY * 2 + 2) := Int.mul_le_mul_of_nonneg_right h2 (by omega)
  simp only [streetSlot]
  omega

/-- The edges of a tile on the map that is not at (0, 0) are on the board. -/
theorem edges_onBoard {maxSizeX maxSizeY x y : Int} (hx : 0 ≤ x ∧ x < maxSizeX) (hy : 0 ≤ y ∧ y < maxSizeY)
    (hne : ¬(x = 0 ∧ y = 0)) : ∀ e ∈ edges x y, OnBoard maxSizeY e := by
  intro e he
  obtain ⟨a, b⟩ := e
  simp only [edges, List.mem_cons, Prod.mk.injEq, List.not_mem_nil, or_false] at he
  unfold OnBoard
  simp only [ne_eq, Prod.mk.injEq]
  omega

/-- What a call that places a tile does after the place is stored: the streets are added to what the villages left. -/
theorem afterSet_spec {maxSizeX maxSizeY : Int} {K : Set (Int × Int)} {m m' : Map} {p : Place} {t : Tile} {ptr : TilePtr}
    (hsx : 1 ≤ maxSizeX) (hsy : 1 ≤ maxSizeY) (hm : MapHolds maxSizeX maxSizeY K m) (hp : p.tile = some ptr)
    (ht : m.deref p.tile = .ok t) (hfull : t.emptyTile = false) (hx : 0 ≤ p.x ∧ p.x < maxSizeX)
    (hy : 0 ≤ p.y ∧ p.y < maxSizeY) (h : m.afterSet p = .ok m') :
    MapHolds maxSizeX maxSizeY (K ∪ {e | e ∈ edges p.x p.y}) m' ∧ Keeps (·.isInitialized) m.streets m'.streets ∧
      ¬(p.x = 0 ∧ p.y = 0) ∧ m'.villages ≠ [] ∧ villageSlot maxSizeX (p.x * 2 + 2, p.y + 1) + 1 < 2 ^ 31 ∧
      streetSlot maxSizeY (p.x + 1, p.y * 2 + 1) + 1 < 2 ^ 31 ∧
      ∃ m₁ streets, m.addVillages ptr (corners p.x p.y) = .ok m₁ ∧ m' = { m₁ with streets := streets } := by
  obtain ⟨rfl, rfl⟩ := And.intro hm.sizeX hm.sizeY
  unfold Map.afterSet at h
  rw [ht, ok_bind, if_neg (by simp [hfull]), hp] at h
  simp only [ok_bind] at h
  obtain ⟨m₁, h₁, h⟩ := bind_eq_ok.mp h
  obtain ⟨_, _, h⟩ := bind_eq_ok.mp h
  have hcorners : ∀ c ∈ corners p.x p.y, 0 ≤ c.1 ∧ 0 ≤ c.2 := by
    intro c hc
    have := corners_bounds hc
    omega
  obtain ⟨villages, rfl, hv, hne, hvlt⟩ := addVillages_spec hsx hm.villages hcorners h₁
  have hs : StreetsHold { m with villages := villages } K := ⟨hm.streets.1, hm.streets.2, hm.streets.3⟩
  have hcorner : ¬(p.x = 0 ∧ p.y = 0) := by
    rintro ⟨hx0, hy0⟩
    simp only [hx0, hy0, edges, Map.addStreets, List.foldlM_cons, bind_eq_ok, int_eq_ok] at h
    obtain ⟨_, ⟨_, ⟨_, rfl⟩, _, ⟨_, rfl⟩, h₀⟩, _⟩ := h
    exact addStreet_corner hs.length_lt _ h₀
  obtain ⟨streets, rfl, hs', hk, hslt⟩ :=
    addStreets_spec (m := { m with villages := villages }) hsy hs (edges_onBoard hx hy hcorner) h
  refine ⟨⟨rfl, rfl, ⟨hm.tiles.1, hm.tiles.2⟩, ⟨hv.1, hv.2⟩, ⟨hs'.1, hs'.2, hs'.3⟩, hm.places_lt⟩, hk, hcorner,
    hne (by simp [corners]), hvlt _ (by simp [corners]), hslt _ (by simp [edges]), _, streets, h₁, rfl⟩

/-- The place a call stores. -/
def TileCall.place (maxSizeY : Int) (c : TileCall) (ptr : TilePtr) : Place :=
  { tile := some ptr, number := c.number, index := c.x * maxSizeY + c.y, x := c.x, y := c.y }

/-- The places after a call. -/
def placed (maxSizeY : Int) (places : List Place) (c : TileCall) (ptr : TilePtr) : List Place :=
  (resized places (max places.length ((c.x * maxSizeY + c.y).toNat + 1)) {}).set (c.x * maxSizeY + c.y).toNat
    (c.place maxSizeY ptr)

/-- What a call that returns has done up to the `afterSet` of its place. -/
theorem setTile_cases {growth : Nat → Nat} {maxSizeX maxSizeY : Int} {K : Set (Int × Int)} {m m' : Map} {c : TileCall}
    (hsy : 1 ≤ maxSizeY) (hm : MapHolds maxSizeX maxSizeY K m) (hc : c.InRange maxSizeX maxSizeY)
    (h : m.setTile growth c.x c.y c.result c.number c.isEmpty = .ok m') :
    c.x * maxSizeY + c.y + 1 < 2 ^ 31 ∧ ∃ tiles ptr t,
      m.currentTile growth c.result c.isEmpty = ({ m with allTiles := tiles }, ptr) ∧ t.emptyTile = c.isEmpty ∧
      MapHolds maxSizeX maxSizeY K { m with allTiles := tiles, allTilePlaces := placed maxSizeY m.allTilePlaces c ptr } ∧
      Map.deref { m with allTiles := tiles, allTilePlaces := placed maxSizeY m.allTilePlaces c ptr } (some ptr) = .ok t ∧
      Map.afterSet { m with allTiles := tiles, allTilePlaces := placed maxSizeY m.allTilePlaces c ptr }
        (c.place maxSizeY ptr) = .ok m' := by
  obtain ⟨rfl, rfl⟩ := And.intro hm.sizeX hm.sizeY
  obtain ⟨hx0, hx1, hy0, hy1⟩ := hc
  obtain ⟨tiles, ptr, t, hcur, htiles, hderef, htempty⟩ := currentTile_spec hm.tiles growth c.result c.isEmpty
  unfold Map.setTile at h
  rw [hcur] at h
  simp only [bind_eq_ok, int_eq_ok] at h
  obtain ⟨_, ⟨_, rfl⟩, _, ⟨hin, rfl⟩, grown, hg, places, hp, h⟩ := h
  have hrow : 0 ≤ c.x * m.maxSizeY := Int.mul_nonneg hx0 (by omega)
  obtain ⟨hlt, rfl⟩ := (growTo_eq_ok (by omega) hin.2 hm.places_lt).mp hg
  rw [sizeT_of_nonneg (by omega) hin.2] at hp
  obtain ⟨_, rfl⟩ := setAt_eq_ok.mp hp
  have hplaces := hm.places_lt
  have hlen : (placed m.maxSizeY m.allTilePlaces c ptr).length < 2 ^ 31 := by
    rw [placed, List.length_set, length_resized]
    omega
  exact ⟨hlt, tiles, ptr, t, hcur, htempty,
    ⟨rfl, rfl, ⟨htiles.1, htiles.2⟩, ⟨hm.villages.1, hm.villages.2⟩, ⟨hm.streets.1, hm.streets.2, hm.streets.3⟩, hlen⟩,
    hderef, h⟩

/-- What a call that returns does: it adds the edges of its tile to the streets, keeps every street, and its indices fitted.
A tile that is not empty was not at (0, 0) and left villages; an empty one left the villages as they were. -/
theorem setTile_spec {growth : Nat → Nat} {maxSizeX maxSizeY : Int} {K : Set (Int × Int)} {m m' : Map} {c : TileCall}
    (hsx : 1 ≤ maxSizeX) (hsy : 1 ≤ maxSizeY) (hm : MapHolds maxSizeX maxSizeY K m) (hc : c.InRange maxSizeX maxSizeY)
    (h : m.setTile growth c.x c.y c.result c.number c.isEmpty = .ok m') :
    MapHolds maxSizeX maxSizeY (K ∪ c.edges) m' ∧ Keeps (·.isInitialized) m.streets m'.streets ∧
      c.Fits maxSizeX maxSizeY ∧ (c.isEmpty = true → m'.villages = m.villages) ∧
      (c.isEmpty = false → ¬(c.x = 0 ∧ c.y = 0) ∧ m'.villages ≠ []) := by
  obtain ⟨hlt, tiles, ptr, t, _, htempty, hm₁, hderef, h⟩ := setTile_cases hsy hm hc h
  obtain ⟨hx0, hx1, hy0, hy1⟩ := hc
  cases hempty : c.isEmpty with
  | true =>
    have hedges : c.edges = ∅ := by simp [TileCall.edges, hempty]
    unfold Map.afterSet at h
    rw [TileCall.place, hderef, ok_bind, if_pos (by rw [htempty, hempty])] at h
    simp only [pure_eq_ok, Except.ok.injEq] at h
    subst h
    refine ⟨by simpa [hedges] using hm₁, Keeps.refl _, ⟨hlt, by simp [hempty]⟩, fun _ => rfl, by simp⟩
  | false =>
    have hedges : c.edges = {e | e ∈ edges c.x c.y} := by simp [TileCall.edges, hempty]
    obtain ⟨hm', hk, hne, hv, hvlt, hslt, _⟩ :=
      afterSet_spec hsx hsy hm₁ rfl hderef (htempty.trans hempty) ⟨hx0, hx1⟩ ⟨hy0, hy1⟩ h
    exact ⟨hedges ▸ hm', hk, ⟨hlt, fun _ => ⟨hvlt, hslt⟩⟩, by simp, fun _ => ⟨hne, hv⟩⟩

/-- What a place needs for its `afterSet` to return: a tile that is not empty is not at (0, 0), and its indices fit. -/
theorem afterSet_returns {maxSizeX maxSizeY : Int} {K : Set (Int × Int)} {m : Map} {p : Place} {t : Tile} {ptr : TilePtr}
    (hsx : 1 ≤ maxSizeX) (hsy : 1 ≤ maxSizeY) (hm : MapHolds maxSizeX maxSizeY K m) (hp : p.tile = some ptr)
    (ht : m.deref p.tile = .ok t) (hx : 0 ≤ p.x ∧ p.x < maxSizeX) (hy : 0 ≤ p.y ∧ p.y < maxSizeY)
    (hne : ¬(p.x = 0 ∧ p.y = 0)) (hvlt : villageSlot maxSizeX (p.x * 2 + 2, p.y + 1) + 1 < 2 ^ 31)
    (hslt : streetSlot maxSizeY (p.x + 1, p.y * 2 + 1) + 1 < 2 ^ 31) : ∃ m', m.afterSet p = .ok m' := by
  obtain ⟨rfl, rfl⟩ := And.intro hm.sizeX hm.sizeY
  have hrow : (p.y + 1) * 4 ≤ (p.y + 1) * (m.maxSizeX * 2 + 2) := Int.mul_le_mul_of_nonneg_left (by omega) (by omega)
  have hrow1 : 1 * (m.maxSizeX * 2 + 2) ≤ (p.y + 1) * (m.maxSizeX * 2 + 2) :=
    Int.mul_le_mul_of_nonneg_right (by omega) (by omega)
  have hcol : (p.x + 1) * 4 ≤ (p.x + 1) * (m.maxSizeY * 2 + 2) := Int.mul_le_mul_of_nonneg_left (by omega) (by omega)
  have hcol1 : 1 * (m.maxSizeY * 2 + 2) ≤ (p.x + 1) * (m.maxSizeY * 2 + 2) :=
    Int.mul_le_mul_of_nonneg_right (by omega) (by omega)
  have hvtop : (p.y + 1) * (m.maxSizeX * 2 + 2) + (p.x * 2 + 2) + 1 < 2 ^ 31 := hvlt
  have hstop : (p.x + 1) * (m.maxSizeY * 2 + 2) + (p.y * 2 + 1) + 1 < 2 ^ 31 := hslt
  have hcorners : ∀ c ∈ corners p.x p.y, 0 ≤ c.1 ∧ 0 ≤ c.2 := by
    intro c hc
    have := corners_bounds hc
    omega
  have hcfit : ∀ c ∈ corners p.x p.y, 0 ≤ c.1 ∧ 0 ≤ c.2 ∧ InInt c.1 ∧ InInt c.2 ∧ villageSlot m.maxSizeX c + 1 < 2 ^ 31 := by
    intro c hc
    have hb := corners_bounds hc
    have hle := villageSlot_le hsx hc
    unfold InInt
    omega
  have hefit : ∀ e ∈ edges p.x p.y,
      OnBoard m.maxSizeY e ∧ InInt e.1 ∧ InInt e.2 ∧ streetSlot m.maxSizeY e + 1 < 2 ^ 31 := by
    intro e he
    have hb := edges_bounds he
    have hle := streetSlot_le hsy he
    refine ⟨edges_onBoard hx hy hne e he, ?_⟩
    unfold InInt
    omega
  obtain ⟨m₁, h₁⟩ := addVillages_returns ptr (corners p.x p.y) hsx hm.villages (by omega) hcfit
  obtain ⟨villages, rfl, _, _, _⟩ := addVillages_spec hsx hm.villages hcorners h₁
  have hs : StreetsHold { m with villages := villages } K := ⟨hm.streets.1, hm.streets.2, hm.streets.3⟩
  have hwide : m.maxSizeY * 2 + 2 < 2 ^ 31 := by omega
  obtain ⟨m₂, h₂⟩ := addStreets_returns (edges p.x p.y) (m := { m with villages := villages }) hsy hs hwide hefit
  refine ⟨if t.emptyTile then m else m₂, ?_⟩
  unfold Map.afterSet
  rw [ht, ok_bind]
  split
  · rfl
  · have hy2 : InInt (p.y * 2) := ⟨by omega, by omega⟩
    rw [hp]
    simp only [ok_bind, h₁, int_of_inInt hy2]
    exact h₂

/-- What a call on the map needs to return: its indices fit, and a tile that is not empty is not at (0, 0). -/
theorem setTile_returns {growth : Nat → Nat} {maxSizeX maxSizeY : Int} {K : Set (Int × Int)} {m : Map} {c : TileCall}
    (hsx : 1 ≤ maxSizeX) (hsy : 1 ≤ maxSizeY) (hm : MapHolds maxSizeX maxSizeY K m) (hc : c.InRange maxSizeX maxSizeY)
    (hfit : c.Fits maxSizeX maxSizeY) (hne : c.isEmpty = false → ¬(c.x = 0 ∧ c.y = 0)) :
    ∃ m', m.setTile growth c.x c.y c.result c.number c.isEmpty = .ok m' := by
  obtain ⟨rfl, rfl⟩ := And.intro hm.sizeX hm.sizeY
  obtain ⟨hx0, hx1, hy0, hy1⟩ := hc
  obtain ⟨tiles, ptr, t, hcur, htiles, hderef, htempty⟩ := currentTile_spec hm.tiles growth c.result c.isEmpty
  have hrow : 0 ≤ c.x * m.maxSizeY := Int.mul_nonneg hx0 (by omega)
  have hlt := hfit.1
  have hplaces := hm.places_lt
  have hg : growTo m.allTilePlaces (c.x * m.maxSizeY + c.y) {} = .ok _ :=
    (growTo_eq_ok (by omega) (by omega) hm.places_lt).mpr ⟨hlt, rfl⟩
  have hn : sizeT (c.x * m.maxSizeY + c.y) = (c.x * m.maxSizeY + c.y).toNat := sizeT_of_nonneg (by omega) (by omega)
  have hi1 : InInt (c.x * m.maxSizeY) := ⟨by omega, by omega⟩
  have hi2 : InInt (c.x * m.maxSizeY + c.y) := ⟨by omega, by omega⟩
  unfold Map.setTile
  rw [hcur]
  simp only [int_of_inInt hi1, int_of_inInt hi2, ok_bind, hg, hn]
  rw [setAt_eq_ok.mpr ⟨by rw [length_resized]; omega, rfl⟩, ok_bind]
  generalize hset : List.set _ _ _ = places
  have hlen : places.length < 2 ^ 31 := by
    rw [← hset, List.length_set, length_resized]
    omega
  have hm₁ : MapHolds m.maxSizeX m.maxSizeY K { m with allTiles := tiles, allTilePlaces := places } :=
    ⟨rfl, rfl, ⟨htiles.1, htiles.2⟩, ⟨hm.villages.1, hm.villages.2⟩, ⟨hm.streets.1, hm.streets.2, hm.streets.3⟩, hlen⟩
  have hderef' : Map.deref { m with allTiles := tiles, allTilePlaces := places } (some ptr) = .ok t := hderef
  cases hempty : c.isEmpty with
  | true =>
    unfold Map.afterSet
    rw [hderef', ok_bind, if_pos (by rw [htempty, hempty])]
    exact ⟨_, rfl⟩
  | false =>
    obtain ⟨hvlt, hslt⟩ := hfit.2 hempty
    exact afterSet_returns hsx hsy hm₁ rfl hderef' ⟨hx0, hx1⟩ ⟨hy0, hy1⟩ (hne hempty) hvlt hslt

/-! ## A sequence of calls -/

/-- The edges of the tiles a sequence of calls placed. -/
def placedEdges (calls : List TileCall) : Set (Int × Int) := {e | ∃ c ∈ calls, e ∈ c.edges}

theorem placedEdges_nil : placedEdges [] = ∅ := by simp [placedEdges]

theorem placedEdges_concat (calls : List TileCall) (c : TileCall) :
    placedEdges (calls ++ [c]) = placedEdges calls ∪ c.edges := by
  ext e
  simp only [placedEdges, Set.mem_union, Set.mem_ofPred_eq, List.mem_append, List.mem_singleton]
  constructor
  · rintro ⟨d, hd | rfl, he⟩
    · exact Or.inl ⟨d, hd, he⟩
    · exact Or.inr he
  · rintro (⟨d, hd, he⟩ | he)
    · exact ⟨d, Or.inl hd, he⟩
    · exact ⟨c, Or.inr rfl, he⟩

section Run

variable {growth : Nat → Nat} {maxSizeX maxSizeY : Int} {calls : List TileCall} {m : Map}

/-- After any sequence of calls that returned, the map holds the edges of the tiles placed. -/
theorem run_mapHolds (hsx : 1 ≤ maxSizeX) (hsy : 1 ≤ maxSizeY) (hc : ∀ c ∈ calls, c.InRange maxSizeX maxSizeY)
    (h : (Map.setMaxSize maxSizeX maxSizeY).run growth calls = .ok m) :
    MapHolds maxSizeX maxSizeY (placedEdges calls) m := by
  refine foldlM_prefix_invariant (fun p m => MapHolds maxSizeX maxSizeY (placedEdges p) m) calls ?_ ?_ h
  · intro p c s t hp hs ht
    rw [placedEdges_concat]
    exact (setTile_spec hsx hsy hs (hc c (hp.subset (by simp))) ht).1
  · exact placedEdges_nil ▸ mapHolds_setMaxSize maxSizeX maxSizeY

/-- A sequence of calls that returned: every call fitted, and no tile that is not empty was placed at (0, 0). -/
theorem run_fits (hsx : 1 ≤ maxSizeX) (hsy : 1 ≤ maxSizeY) (hc : ∀ c ∈ calls, c.InRange maxSizeX maxSizeY)
    (h : (Map.setMaxSize maxSizeX maxSizeY).run growth calls = .ok m) :
    ∀ c ∈ calls, c.Fits maxSizeX maxSizeY ∧ (c.isEmpty = false → ¬(c.x = 0 ∧ c.y = 0)) := by
  intro c hcm
  obtain ⟨pre, post, rfl⟩ := List.append_of_mem hcm
  obtain ⟨m₁, h₁⟩ := foldlM_prefix (p := pre ++ [c]) ⟨post, by simp⟩ h
  rw [foldlM_concat] at h₁
  obtain ⟨m₀, h₀, h₁⟩ := bind_eq_ok.mp h₁
  have hm₀ := run_mapHolds hsx hsy (fun d hd => hc d (by simp [hd])) h₀
  obtain ⟨_, _, hfit, _, hfull⟩ := setTile_spec hsx hsy hm₀ (hc c hcm) h₁
  exact ⟨hfit, fun he => (hfull he).1⟩

/-- A sequence of calls returns when every call fits and no tile that is not empty is placed at (0, 0). -/
theorem run_returns (hsx : 1 ≤ maxSizeX) (hsy : 1 ≤ maxSizeY) (hc : ∀ c ∈ calls, c.InRange maxSizeX maxSizeY)
    (hfit : ∀ c ∈ calls, c.Fits maxSizeX maxSizeY ∧ (c.isEmpty = false → ¬(c.x = 0 ∧ c.y = 0))) :
    ∃ m, (Map.setMaxSize maxSizeX maxSizeY).run growth calls = .ok m := by
  obtain ⟨m, hm, _⟩ := foldlM_total (fun p m => MapHolds maxSizeX maxSizeY (placedEdges p) m) calls (by
    intro p c s hp hs
    have hcm : c ∈ calls := hp.subset (by simp)
    have hreturns : ∃ t, s.setTile growth c.x c.y c.result c.number c.isEmpty = .ok t :=
      setTile_returns hsx hsy hs (hc c hcm) (hfit c hcm).1 (hfit c hcm).2
    obtain ⟨t, ht⟩ := hreturns
    refine ⟨t, ht, ?_⟩
    rw [placedEdges_concat]
    exact (setTile_spec hsx hsy hs (hc c hcm) ht).1) (placedEdges_nil ▸ mapHolds_setMaxSize maxSizeX maxSizeY)
  exact ⟨m, hm⟩

end Run

end SiedlerServer
