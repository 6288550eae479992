import BackupEngine.Lemmas.MapConnections

/-!
# The tiles and the places of the map

`setTile` looks its items up in `allTiles`, appends a tile where it does not find them, and stores a place. `Tiled` says what
`allTiles` and `allTilePlaces` hold after a sequence of calls: every list of items once, and at every index the place of the
last call for its coordinates.
-/

namespace SiedlerServer

open Cpp

/-! ## The part of a call before the `afterSet` of its place -/

/-- The part of `setTile` that works on `allTiles` and `allTilePlaces`: everything but the `afterSet` of the place. -/
def Map.storeTile (growth : Nat → Nat) (m : Map) (c : TileCall) : Comp (Map × Place) := do
  let (m, tile) := m.currentTile growth c.result c.isEmpty
  let index ← int ((← int (c.x * m.maxSizeY)) + c.y)
  let p : Place := { tile := some tile, number := c.number, index := index, x := c.x, y := c.y }
  let places ← growTo m.allTilePlaces index {}
  let places ← setAt places (sizeT index) p
  return ({ m with allTilePlaces := places }, p)

/-- A call stores its place and then calls its `afterSet`. -/
theorem setTile_eq (growth : Nat → Nat) (m : Map) (c : TileCall) :
    m.setTile growth c.x c.y c.result c.number c.isEmpty = m.storeTile growth c >>= fun r => r.1.afterSet r.2 := by
  unfold Map.setTile Map.storeTile
  simp only [bind_assoc, pure_bind]

/-- The calls of a sequence, without the `afterSet` of their places. -/
def Map.storeTiles (growth : Nat → Nat) (m : Map) (calls : List TileCall) : Comp Map :=
  calls.foldlM (fun m c => do return (← m.storeTile growth c).1) m

/-- `addVillage` changes the villages only. -/
theorem addVillage_keeps {m m' : Map} {x y : Int} {tile : TilePtr} (h : m.addVillage x y tile = .ok m') :
    ∃ villages, m' = { m with villages := villages } := by
  obtain ⟨_, _, h⟩ := bind_eq_ok.mp h
  obtain ⟨_, _, h⟩ := bind_eq_ok.mp h
  obtain ⟨_, _, h⟩ := bind_eq_ok.mp h
  obtain ⟨villages, _, h⟩ := bind_eq_ok.mp h
  cases h
  exact ⟨villages, rfl⟩

/-- `addStreet` changes the streets only. -/
theorem addStreet_keeps {m m' : Map} {x y : Int} (h : m.addStreet x y = .ok m') :
    ∃ streets, m' = { m with streets := streets } := by
  obtain ⟨_, _, h⟩ := bind_eq_ok.mp h
  obtain ⟨streets, _, h⟩ := bind_eq_ok.mp h
  obtain ⟨_, _, h⟩ := bind_eq_ok.mp h
  split at h
  · cases h
    exact ⟨streets, rfl⟩
  · obtain ⟨streets, _, h⟩ := bind_eq_ok.mp h
    cases h
    exact ⟨streets, rfl⟩

/-- Two maps that differ in their villages and streets at most. -/
def SameTiles (m m' : Map) : Prop := ∃ villages streets, m' = { m with villages := villages, streets := streets }

theorem SameTiles.refl (m : Map) : SameTiles m m := ⟨_, _, rfl⟩

/-- `afterSet` leaves the tiles and the places. -/
theorem afterSet_keeps {m m' : Map} {p : Place} (h : m.afterSet p = .ok m') : SameTiles m m' := by
  obtain ⟨t, _, h⟩ := bind_eq_ok.mp h
  split at h
  · cases h
    exact .refl m
  obtain ⟨ptr, hp⟩ : ∃ ptr, p.tile = some ptr := by
    cases hp : p.tile with
    | none =>
      rw [hp] at h
      cases h
    | some ptr => exact ⟨ptr, rfl⟩
  rw [hp] at h
  obtain ⟨_, _, h⟩ := bind_eq_ok.mp h
  obtain ⟨m₁, h₁, h⟩ := bind_eq_ok.mp h
  obtain ⟨_, _, h⟩ := bind_eq_ok.mp h
  have hvillages : SameTiles m m₁ := by
    refine foldlM_prefix_invariant (fun _ => SameTiles m) _ (fun q c s s' _ hs hstep => ?_) (.refl m) h₁
    obtain ⟨_, _, hstep⟩ := bind_eq_ok.mp hstep
    obtain ⟨_, _, hstep⟩ := bind_eq_ok.mp hstep
    obtain ⟨villages, streets, rfl⟩ := hs
    obtain ⟨villages, rfl⟩ := addVillage_keeps hstep
    exact ⟨villages, streets, rfl⟩
  refine foldlM_prefix_invariant (fun _ => SameTiles m) _ (fun q e s s' _ hs hstep => ?_) hvillages h
  obtain ⟨_, _, hstep⟩ := bind_eq_ok.mp hstep
  obtain ⟨_, _, hstep⟩ := bind_eq_ok.mp hstep
  obtain ⟨villages, streets, rfl⟩ := hs
  obtain ⟨streets, rfl⟩ := addStreet_keeps hstep
  exact ⟨villages, streets, rfl⟩

/-! ## Interning -/

/-- The tile a call places: the empty tile, an entry that has its items, or a new one where none has. -/
theorem currentTile_cases (growth : Nat → Nat) (m : Map) (result : List Int) (isEmpty : Bool) :
    (isEmpty = true ∧ m.currentTile growth result isEmpty = (m, .emptyTile)) ∨
    (isEmpty = false ∧ ∃ i t, m.allTiles.elems[i]? = some t ∧ t.itemIDs = result ∧
      m.currentTile growth result isEmpty = (m, .entry m.allTiles.gen i)) ∨
    (isEmpty = false ∧ result ∉ m.allTiles.elems.map (·.itemIDs) ∧ ∃ tiles, tiles = m.allTiles.push growth
        { emptyTile := false, tileId := m.allTiles.elems.length, itemIDs := result } ∧
      m.currentTile growth result isEmpty = ({ m with allTiles := tiles }, .entry tiles.gen m.allTiles.elems.length)) := by
  cases isEmpty with
  | true => exact .inl ⟨rfl, rfl⟩
  | false =>
    unfold Map.currentTile
    rw [if_neg Bool.false_ne_true]
    cases hfind : m.findTile result with
    | some i =>
      obtain ⟨hlt, hhit, _⟩ := List.findIdx?_eq_some_iff_getElem.mp hfind
      exact .inr (.inl ⟨rfl, i, _, List.getElem?_eq_getElem hlt, of_decide_eq_true hhit, rfl⟩)
    | none =>
      refine .inr (.inr ⟨rfl, fun hmem => ?_, _, rfl, rfl⟩)
      obtain ⟨t, ht, hitems⟩ := List.mem_map.mp hmem
      have hmiss := List.findIdx?_eq_none_iff.mp hfind t ht
      exact absurd hitems (of_decide_eq_false hmiss)

/-- What a call places depends on `allTiles` alone. -/
theorem SameTiles.currentTile {growth : Nat → Nat} {m m' : Map} (h : SameTiles m m') {result : List Int} {isEmpty : Bool}
    {tiles : Buffer Tile} {ptr : TilePtr}
    (hcur : m.currentTile growth result isEmpty = ({ m with allTiles := tiles }, ptr)) :
    m'.currentTile growth result isEmpty = ({ m' with allTiles := tiles }, ptr) := by
  obtain ⟨villages, streets, rfl⟩ := h
  have hfind : Map.findTile { m with villages := villages, streets := streets } result = m.findTile result := rfl
  unfold Map.currentTile at *
  rw [hfind]
  cases isEmpty with
  | true =>
    obtain rfl : m.allTiles = tiles := congrArg (·.1.allTiles) hcur
    obtain rfl : TilePtr.emptyTile = ptr := congrArg Prod.snd hcur
    rfl
  | false =>
    rw [if_neg Bool.false_ne_true] at *
    cases hf : m.findTile result with
    | some i =>
      rw [hf] at hcur
      obtain rfl : m.allTiles = tiles := congrArg (·.1.allTiles) hcur
      obtain rfl : TilePtr.entry m.allTiles.gen i = ptr := congrArg Prod.snd hcur
      rfl
    | none =>
      rw [hf] at hcur
      cases hcur
      rfl

/-- Every list of items has one entry, whose `tileId` is its position. -/
structure Interned (elems : List Tile) : Prop where
  distinct : (elems.map (·.itemIDs)).Nodup
  ids : ∀ (i : Nat) (t : Tile), elems[i]? = some t → t.tileId = i

/-- The pointer is to the tile a call placed: the empty tile, or the entry with its items. -/
def TileCall.Named (c : TileCall) (elems : List Tile) (ptr : TilePtr) : Prop :=
  if c.isEmpty then ptr = .emptyTile
  else ∃ gen i t, ptr = .entry gen i ∧ elems[i]? = some t ∧ t.itemIDs = c.result

/-- An appended entry leaves the others where they are. -/
theorem TileCall.Named.mono {c : TileCall} {elems elems' : List Tile} {ptr : TilePtr} (h : c.Named elems ptr)
    (hle : elems <+: elems') : c.Named elems' ptr := by
  unfold TileCall.Named at *
  split at h
  · rwa [if_pos ‹_›]
  · rw [if_neg ‹_›]
    obtain ⟨gen, i, t, hptr, ht, hitems⟩ := h
    obtain ⟨new, rfl⟩ := hle
    have hlt := (List.getElem?_eq_some_iff.mp ht).1
    exact ⟨gen, i, t, hptr, (List.getElem?_append_left hlt).trans ht, hitems⟩

theorem Interned.push {elems : List Tile} (h : Interned elems) {t : Tile} (hid : t.tileId = elems.length)
    (hnew : t.itemIDs ∉ elems.map (·.itemIDs)) : Interned (elems ++ [t]) := by
  constructor
  case distinct =>
    rw [List.map_append, List.map_singleton, List.nodup_append]
    refine ⟨h.distinct, List.nodup_singleton _, fun a ha b hb heq => ?_⟩
    rw [List.mem_singleton.mp hb] at heq
    exact hnew (heq ▸ ha)
  case ids =>
    intro i u hu
    by_cases hi : i < elems.length
    · rw [List.getElem?_append_left hi] at hu
      exact h.ids i u hu
    · obtain ⟨rfl, rfl⟩ : i = elems.length ∧ t = u := by
        have hlt := (List.getElem?_eq_some_iff.mp hu).1
        rw [List.length_append, List.length_singleton] at hlt
        obtain rfl : i = elems.length := by omega
        rw [List.getElem?_append_right (Nat.le_refl _), Nat.sub_self] at hu
        exact ⟨rfl, Option.some_inj.mp hu⟩
      exact hid

/-- Looking a tile up keeps `allTiles` interned and its entries, and yields the tile of the call. -/
theorem Interned.currentTile {m : Map} (h : Interned m.allTiles.elems) (growth : Nat → Nat) (c : TileCall) :
    ∃ tiles ptr, m.currentTile growth c.result c.isEmpty = ({ m with allTiles := tiles }, ptr) ∧ Interned tiles.elems ∧
      m.allTiles.elems <+: tiles.elems ∧ c.Named tiles.elems ptr := by
  rcases currentTile_cases growth m c.result c.isEmpty with ⟨hempty, hcur⟩ | ⟨hfull, i, t, ht, hitems, hcur⟩ |
    ⟨hfull, hnew, tiles, rfl, hcur⟩
  · exact ⟨m.allTiles, _, hcur, h, List.prefix_rfl, by simp [TileCall.Named, hempty]⟩
  · exact ⟨m.allTiles, _, hcur, h, List.prefix_rfl, by simp [TileCall.Named, hfull, ht, hitems]⟩
  · refine ⟨_, _, hcur, ?_, ?_, ?_⟩
    · rw [Buffer.elems_push]
      exact h.push rfl hnew
    · rw [Buffer.elems_push]
      exact List.prefix_append _ _
    · simp [TileCall.Named, hfull]

/-! ## A sequence of calls -/

/-- The last call for a coordinate. -/
def lastCall (calls : List TileCall) (x y : Int) : Option TileCall := calls.reverse.find? fun c => c.x == x && c.y == y

theorem lastCall_concat_self (calls : List TileCall) (c : TileCall) : lastCall (calls ++ [c]) c.x c.y = some c := by
  simp [lastCall]

theorem lastCall_concat_ne {calls : List TileCall} {c : TileCall} {x y : Int} (h : ¬(c.x = x ∧ c.y = y)) :
    lastCall (calls ++ [c]) x y = lastCall calls x y := by
  rw [lastCall, List.reverse_append, List.reverse_singleton, List.singleton_append, List.find?_cons_of_neg, lastCall]
  simpa using h

/-- What tiles and places hold after a sequence of calls. -/
structure Tiled (maxSizeX maxSizeY : Int) (calls : List TileCall) (m : Map) : Prop where
  sizeY : m.maxSizeY = maxSizeY
  length_lt : m.allTilePlaces.length < 2 ^ 31
  range : ∀ c ∈ calls, c.InRange maxSizeX maxSizeY
  interned : Interned m.allTiles.elems
  last : ∀ (i : Nat) (p : Place), m.allTilePlaces[i]? = some p → p.tile.isSome → ∃ c ∈ calls, c.placeIndex maxSizeY = i ∧
    lastCall calls c.x c.y = some c ∧ ∃ ptr, p = c.place maxSizeY ptr ∧ c.Named m.allTiles.elems ptr
  stored : ∀ c ∈ calls, ∃ p, m.allTilePlaces[c.placeIndex maxSizeY]? = some p ∧ p.tile.isSome

theorem tiled_setMaxSize (maxSizeX maxSizeY : Int) : Tiled maxSizeX maxSizeY [] (Map.setMaxSize maxSizeX maxSizeY) where
  sizeY := rfl
  length_lt := by simp [Map.setMaxSize]
  range := by simp
  interned := ⟨by simp [Map.setMaxSize], by simp [Map.setMaxSize]⟩
  last := by simp [Map.setMaxSize]
  stored := by simp

/-- The villages and the streets have no part in it. -/
theorem Tiled.same {maxSizeX maxSizeY : Int} {calls : List TileCall} {m m' : Map} (h : Tiled maxSizeX maxSizeY calls m)
    (hsame : SameTiles m m') : Tiled maxSizeX maxSizeY calls m' := by
  obtain ⟨villages, streets, rfl⟩ := hsame
  exact ⟨h.sizeY, h.length_lt, h.range, h.interned, h.last, h.stored⟩

/-- A call on the map stores its place exactly when the index leaves room for one more element, and changes tiles and places
only. -/
theorem storeTile_eq_ok {growth : Nat → Nat} {maxSizeX maxSizeY : Int} {calls : List TileCall} {m : Map} {c : TileCall}
    {r : Map × Place} (h : Tiled maxSizeX maxSizeY calls m) (hc : c.InRange maxSizeX maxSizeY) {tiles : Buffer Tile}
    {ptr : TilePtr} (hcur : m.currentTile growth c.result c.isEmpty = ({ m with allTiles := tiles }, ptr)) :
    m.storeTile growth c = .ok r ↔ c.x * maxSizeY + c.y + 1 < 2 ^ 31 ∧
      r = ({ m with allTiles := tiles, allTilePlaces := placed maxSizeY m.allTilePlaces c ptr }, c.place maxSizeY ptr) := by
  obtain rfl := h.sizeY
  obtain ⟨hx0, _, hy0, hy1⟩ := hc
  have hrow : 0 ≤ c.x * m.maxSizeY := Int.mul_nonneg hx0 (by omega)
  have h0 : 0 ≤ c.x * m.maxSizeY + c.y := by omega
  have hlen := h.length_lt
  unfold Map.storeTile
  rw [hcur]
  simp only [bind_eq_ok, int_eq_ok]
  constructor
  · rintro ⟨_, ⟨_, rfl⟩, _, ⟨hin, rfl⟩, grown, hg, places, hp, hr⟩
    obtain ⟨hlt, rfl⟩ := (growTo_eq_ok h0 hin.2 hlen).mp hg
    rw [sizeT_of_nonneg h0 hin.2] at hp
    obtain ⟨_, rfl⟩ := setAt_eq_ok.mp hp
    cases hr
    exact ⟨hlt, rfl⟩
  · rintro ⟨hlt, rfl⟩
    have hin : InInt (c.x * m.maxSizeY + c.y) := ⟨by omega, by omega⟩
    refine ⟨_, ⟨⟨by omega, by omega⟩, rfl⟩, _, ⟨hin, rfl⟩, _, (growTo_eq_ok h0 hin.2 hlen).mpr ⟨hlt, rfl⟩, _, ?_, rfl⟩
    rw [sizeT_of_nonneg h0 hin.2]
    refine setAt_eq_ok.mpr ⟨?_, rfl⟩
    rw [length_resized]
    omega

/-- What the places hold after a call: its place, and elsewhere what they held before. -/
theorem getElem?_placed (maxSizeY : Int) (places : List Place) (c : TileCall) (ptr : TilePtr) (i : Nat) (p : Place)
    (hp : p.tile.isSome) : (placed maxSizeY places c ptr)[i]? = some p ↔
      (i = c.placeIndex maxSizeY ∧ p = c.place maxSizeY ptr) ∨ (i ≠ c.placeIndex maxSizeY ∧ places[i]? = some p) := by
  rw [placed, ← TileCall.placeIndex]
  by_cases hi : i = c.placeIndex maxSizeY
  · rw [hi, List.getElem?_set_self (by rw [length_resized]; omega)]
    simp [eq_comm]
  · rw [List.getElem?_set_ne (Ne.symm hi), getElem?_resized]
    have hiff : (if i < max places.length (c.placeIndex maxSizeY + 1) then some (places.getD i {}) else none) = some p ↔
        places[i]? = some p := by
      cases hk : places[i]? with
      | none =>
        -- A place that is new holds no tile.
        refine ⟨fun h => ?_, fun h => absurd h.symm (Option.some_ne_none p)⟩
        split at h
        · rw [List.getD, hk] at h
          cases h
          cases hp
        · cases h
      | some q =>
        have := (List.getElem?_eq_some_iff.mp hk).1
        rw [if_pos (by omega), List.getD, hk, Option.getD_some]
    rw [hiff]
    simp [hi]

/-- A call keeps the tables as they should be. -/
theorem Tiled.step {growth : Nat → Nat} {maxSizeX maxSizeY : Int} {calls : List TileCall} {m m' : Map} {d : TileCall}
    {p : Place} (h : Tiled maxSizeX maxSizeY calls m) (hd : d.InRange maxSizeX maxSizeY)
    (hcall : m.storeTile growth d = .ok (m', p)) :
    Tiled maxSizeX maxSizeY (calls ++ [d]) m' ∧ m.allTiles.elems <+: m'.allTiles.elems ∧
      d.x * maxSizeY + d.y + 1 < 2 ^ 31 := by
  obtain ⟨tiles, ptr, hcur, hinterned, hkeep, hnamed⟩ := h.interned.currentTile growth d
  obtain ⟨hlt, hr⟩ := (storeTile_eq_ok h hd hcur).mp hcall
  cases hr
  refine ⟨?_, hkeep, hlt⟩
  constructor
  case sizeY => exact h.sizeY
  case length_lt =>
    have := h.length_lt
    simp only [placed, List.length_set, length_resized]
    omega
  case range => exact fun c hc => (List.mem_append.mp hc).elim (h.range c) fun hc => List.mem_singleton.mp hc ▸ hd
  case interned => exact hinterned
  case last =>
    intro i p hp htile
    rcases (getElem?_placed maxSizeY m.allTilePlaces d ptr i p htile).mp hp with ⟨rfl, rfl⟩ | ⟨hne, hp⟩
    · exact ⟨d, by simp, rfl, lastCall_concat_self calls d, ptr, rfl, hnamed⟩
    · obtain ⟨c, hc, hindex, hlast, ptr', hplace, hname⟩ := h.last i p hp htile
      refine ⟨c, List.mem_append_left _ hc, hindex, ?_, ptr', hplace, hname.mono hkeep⟩
      rw [lastCall_concat_ne, hlast]
      rintro ⟨hx, hy⟩
      exact hne (by rw [← hindex, TileCall.placeIndex, TileCall.placeIndex, hx, hy])
  case stored =>
    intro c hc
    by_cases hindex : c.placeIndex maxSizeY = d.placeIndex maxSizeY
    · exact ⟨d.place maxSizeY ptr, (getElem?_placed _ _ _ _ _ _ rfl).mpr (.inl ⟨hindex, rfl⟩), rfl⟩
    · rcases List.mem_append.mp hc with hc | hc
      · obtain ⟨p, hp, htile⟩ := h.stored c hc
        exact ⟨p, (getElem?_placed _ _ _ _ _ _ htile).mpr (.inr ⟨hindex, hp⟩), htile⟩
      · exact absurd (List.mem_singleton.mp hc ▸ rfl) hindex

end SiedlerServer
