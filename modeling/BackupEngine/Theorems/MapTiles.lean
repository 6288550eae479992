import BackupEngine.Lemmas.MapTiles

/-!
# The tiles of the map

A place is found by the index `x * maxSizeY + y`, which tells the coordinates of a map of any size apart, and a tile by its
items. The index is an `int`: on a map with more than 2^31 places the calls for the last of them overflow.
-/

namespace SiedlerServer

open Cpp

/-- What `getTiles` and `allTiles` should be after a sequence of calls. -/
structure TilesExact (growth : Nat → Nat) (maxSizeX maxSizeY : Int) (calls : List TileCall) (m : Map) : Prop where
  /-- One place for every coordinate that was set, and no other, in the order of their indices. -/
  once : (m.getTiles.map fun p => (p.x, p.y)).Nodup
  coordinates : ∀ x y, (∃ p ∈ m.getTiles, p.x = x ∧ p.y = y) ↔ ∃ c ∈ calls, c.x = x ∧ c.y = y
  ordered : (m.getTiles.map (·.index)).Pairwise (· < ·)
  /-- A place is what the last call for its coordinates made it. -/
  last : ∀ p ∈ m.getTiles, ∃ c, lastCall calls p.x p.y = some c ∧ p.index = p.x * maxSizeY + p.y ∧ p.number = c.number ∧
    ∃ ptr, p.tile = some ptr ∧ c.Named m.allTiles.elems ptr
  /-- The entries have different items, each is at the position its `tileId` says, and it stays as it was added. -/
  interned : Interned m.allTiles.elems
  kept : ∀ before m₀, before <+: calls → (Map.setMaxSize maxSizeX maxSizeY).storeTiles growth before = .ok m₀ →
    m₀.allTiles.elems <+: m.allTiles.elems

section Run

variable {growth : Nat → Nat} {maxSizeX maxSizeY : Int} {calls : List TileCall} {m : Map}

/-- The places that are returned are the slots with a tile. -/
theorem mem_getTiles {p : Place} :
    p ∈ m.getTiles ↔ ∃ i : Nat, m.allTilePlaces[i]? = some p ∧ p.tile.isSome := by
  rw [Map.getTiles, List.mem_filter, List.mem_iff_getElem?]
  exact ⟨fun ⟨⟨i, hi⟩, htile⟩ => ⟨i, hi, htile⟩, fun ⟨i, hi, htile⟩ => ⟨⟨i, hi⟩, htile⟩⟩

/-- The index of a call on the map is not negative. -/
theorem placeIndex_cast {c : TileCall} (hc : c.InRange maxSizeX maxSizeY) :
    (c.placeIndex maxSizeY : Int) = c.x * maxSizeY + c.y := by
  obtain ⟨hx0, _, hy0, hy1⟩ := hc
  have hrow : 0 ≤ c.x * maxSizeY := Int.mul_nonneg hx0 (by omega)
  unfold TileCall.placeIndex
  omega

/-- The places are in the order of their indices. -/
theorem Tiled.ordered (h : Tiled maxSizeX maxSizeY calls m) : (m.getTiles.map (·.index)).Pairwise (· < ·) := by
  have hindex : ∀ (i : Nat) (p : Place), m.allTilePlaces[i]? = some p → p.tile.isSome → p.index = i := by
    intro i p hp htile
    obtain ⟨c, hc, hci, _, ptr, rfl, _⟩ := h.last i p hp htile
    rw [← hci]
    exact (placeIndex_cast (h.range c hc)).symm
  rw [List.pairwise_map, Map.getTiles, List.pairwise_filter, List.pairwise_iff_getElem]
  intro i j hi hj hij hpi hpj
  rw [hindex i _ (List.getElem?_eq_getElem hi) hpi, hindex j _ (List.getElem?_eq_getElem hj) hpj]
  exact Int.ofNat_lt.mpr hij

/-- A place holds its coordinates, its index and its number from the last call for its coordinates, and the tile of it. -/
theorem Tiled.last_call (h : Tiled maxSizeX maxSizeY calls m) {p : Place} (hp : p ∈ m.getTiles) :
    ∃ c ∈ calls, lastCall calls p.x p.y = some c ∧ c.x = p.x ∧ c.y = p.y ∧ p.index = p.x * maxSizeY + p.y ∧
      p.number = c.number ∧ ∃ ptr, p.tile = some ptr ∧ c.Named m.allTiles.elems ptr := by
  obtain ⟨i, hi, htile⟩ := mem_getTiles.mp hp
  obtain ⟨c, hc, _, hlast, ptr, rfl, hnamed⟩ := h.last i p hi htile
  exact ⟨c, hc, hlast, rfl, rfl, rfl, rfl, ptr, rfl, hnamed⟩

/-- The coordinates of the places are those that were set. -/
theorem Tiled.coordinates (h : Tiled maxSizeX maxSizeY calls m) (x y : Int) :
    (∃ p ∈ m.getTiles, p.x = x ∧ p.y = y) ↔ ∃ c ∈ calls, c.x = x ∧ c.y = y := by
  constructor
  · rintro ⟨p, hp, rfl, rfl⟩
    obtain ⟨c, hc, _, hx, hy, _⟩ := h.last_call hp
    exact ⟨c, hc, hx, hy⟩
  · rintro ⟨c, hc, rfl, rfl⟩
    obtain ⟨p, hp, htile⟩ := h.stored c hc
    obtain ⟨d, hd, hindex, _, ptr, rfl, _⟩ := h.last _ p hp htile
    obtain ⟨hx, hy⟩ := placeIndex_inj (h.range d hd) (h.range c hc) hindex
    exact ⟨_, mem_getTiles.mpr ⟨_, hp, htile⟩, hx, hy⟩

/-- No two places have the same coordinates: they would have the same index. -/
theorem Tiled.once (h : Tiled maxSizeX maxSizeY calls m) : (m.getTiles.map fun p => (p.x, p.y)).Nodup := by
  have hne : (m.getTiles.map (·.index)).Nodup := h.ordered.imp fun hlt => ne_of_lt hlt
  have hindex : m.getTiles.map (·.index) = (m.getTiles.map fun p => (p.x, p.y)).map fun q => q.1 * maxSizeY + q.2 := by
    rw [List.map_map]
    refine List.map_congr_left fun p hp => ?_
    obtain ⟨_, _, _, _, _, hp, _⟩ := h.last_call hp
    exact hp
  rw [hindex] at hne
  exact hne.of_map _

/-- What tiles and places hold after the calls is what they should. -/
theorem Tiled.exact (h : Tiled maxSizeX maxSizeY calls m)
    (hkept : ∀ before m₀, before <+: calls → (Map.setMaxSize maxSizeX maxSizeY).storeTiles growth before = .ok m₀ →
      m₀.allTiles.elems <+: m.allTiles.elems) : TilesExact growth maxSizeX maxSizeY calls m where
  once := h.once
  coordinates := h.coordinates
  ordered := h.ordered
  last := fun p hp => by
    obtain ⟨c, _, hlast, _, _, hrest⟩ := h.last_call hp
    exact ⟨c, hlast, hrest⟩
  interned := h.interned
  kept := hkept

end Run

end SiedlerServer
