import BackupEngine.Lemmas.MapTiles

/-!
# The pointers to the tiles

Places and villages keep pointers to elements of `allTiles`. The pointers of the first buffer are right until it is full: the
next new tile moves the elements, and the villages keep the old addresses for good.
-/

namespace SiedlerServer

open Cpp

/-- The pointer is to the entry with these items, in the buffer `allTiles` has now. -/
def Map.Designates (m : Map) (gen idx : Nat) (items : List Int) : Prop :=
  gen = m.allTiles.gen ∧ ∃ t, m.allTiles.elems[idx]? = some t ∧ t.itemIDs = items

/-- Every pointer to a tile that a place or a village holds is to the tile it was stored for: for a place the tile of the last
call for its coordinates, for a village that of a call with a corner there. -/
structure PointersValid (maxSizeX : Int) (calls : List TileCall) (m : Map) : Prop where
  places : ∀ p ∈ m.allTilePlaces, ∀ gen idx, p.tile = some (.entry gen idx) →
    ∃ c, lastCall calls p.x p.y = some c ∧ c.isEmpty = false ∧ m.Designates gen idx c.result
  villages : ∀ i gen idx, .entry gen idx ∈ m.slotTiles i → ∃ c ∈ calls, c.isEmpty = false ∧
    (∃ d ∈ corners c.x c.y, (villageSlot maxSizeX d).toNat = i) ∧ m.Designates gen idx c.result

/-- The number of different tiles of a sequence of calls. -/
def kinds (calls : List TileCall) : Nat := ((calls.filter fun c => !c.isEmpty).map (·.result)).dedup.length

/-- What holds of the pointers after a sequence of calls: they are of buffers up to the one now, and the tile that was added
first is in a village with the address it had in the first buffer. -/
structure Pointed (growth : Nat → Nat) (maxSizeX maxSizeY : Int) (calls : List TileCall) (m : Map) : Prop where
  holds : MapHolds maxSizeX maxSizeY (placedEdges calls) m
  tiled : Tiled maxSizeX maxSizeY calls m
  buffer : m.allTiles.Pushed growth
  items : ∀ items, items ∈ m.allTiles.elems.map (·.itemIDs) ↔ ∃ c ∈ calls, c.isEmpty = false ∧ c.result = items
  places : ∀ p ∈ m.allTilePlaces, ∀ gen idx, p.tile = some (.entry gen idx) → 1 ≤ gen ∧ gen ≤ m.allTiles.gen
  villages : ∀ i gen idx, .entry gen idx ∈ m.slotTiles i → (1 ≤ gen ∧ gen ≤ m.allTiles.gen) ∧ ∃ c ∈ calls,
    c.isEmpty = false ∧ (∃ d ∈ corners c.x c.y, (villageSlot maxSizeX d).toNat = i) ∧
      c.Named m.allTiles.elems (.entry gen idx)
  first : m.allTiles.elems ≠ [] → ∃ i, .entry 1 0 ∈ m.slotTiles i

theorem pointed_setMaxSize (growth : Nat → Nat) (maxSizeX maxSizeY : Int) :
    Pointed growth maxSizeX maxSizeY [] (Map.setMaxSize maxSizeX maxSizeY) where
  holds := placedEdges_nil ▸ mapHolds_setMaxSize maxSizeX maxSizeY
  tiled := tiled_setMaxSize maxSizeX maxSizeY
  buffer := .empty
  items := by simp [Map.setMaxSize]
  places := by simp [Map.setMaxSize]
  villages := by simp [Map.setMaxSize, Map.slotTiles]
  first := by simp [Map.setMaxSize]

/-- What a call does to the buffer: a tile of its own is in the buffer of after the call, and the first tile is the first
element of the first buffer. -/
theorem currentTile_buffer {growth : Nat → Nat} {m : Map} {c : TileCall} {tiles : Buffer Tile} {ptr : TilePtr}
    (hbuffer : m.allTiles.Pushed growth)
    (hcur : m.currentTile growth c.result c.isEmpty = ({ m with allTiles := tiles }, ptr)) :
    tiles.Pushed growth ∧ m.allTiles.gen ≤ tiles.gen ∧
      (∀ items, items ∈ tiles.elems.map (·.itemIDs) ↔
        items ∈ m.allTiles.elems.map (·.itemIDs) ∨ (c.isEmpty = false ∧ c.result = items)) ∧
      (∀ gen idx, ptr = .entry gen idx → 1 ≤ gen ∧ gen = tiles.gen) ∧
      (m.allTiles.elems = [] → tiles.elems ≠ [] → ptr = .entry 1 0) := by
  rcases currentTile_cases growth m c.result c.isEmpty with ⟨hempty, hcur'⟩ | ⟨hfull, i, t, ht, hitems, hcur'⟩ |
    ⟨hfull, hnew, tiles', htiles, hcur'⟩
  all_goals rw [hcur'] at hcur
  · obtain rfl : m.allTiles = tiles := congrArg (·.1.allTiles) hcur
    obtain rfl : TilePtr.emptyTile = ptr := congrArg Prod.snd hcur
    refine ⟨hbuffer, Nat.le_refl _, fun items => ?_, nofun, fun h h' => absurd h h'⟩
    simp [hempty]
  · obtain rfl : m.allTiles = tiles := congrArg (·.1.allTiles) hcur
    obtain rfl : TilePtr.entry m.allTiles.gen i = ptr := congrArg Prod.snd hcur
    have hne : m.allTiles.elems ≠ [] := List.ne_nil_of_mem (List.mem_of_getElem? ht)
    refine ⟨hbuffer, Nat.le_refl _, fun items => ?_, fun gen idx hptr => ?_, fun h => absurd h hne⟩
    · refine ⟨.inl, fun h => h.elim id ?_⟩
      rintro ⟨_, rfl⟩
      exact List.mem_map.mpr ⟨t, List.mem_of_getElem? ht, hitems⟩
    · cases hptr
      refine ⟨?_, rfl⟩
      rcases hbuffer.cases with ⟨_, _, hnil⟩ | ⟨hgen, _⟩ | ⟨hgen, _⟩
      · exact absurd hnil hne
      · omega
      · omega
  · cases hcur
    subst htiles
    have hpushed := hbuffer.push { emptyTile := false, tileId := m.allTiles.elems.length, itemIDs := c.result }
    refine ⟨hpushed, Buffer.gen_le_push .., fun items => ?_, fun gen idx hptr => ?_, fun hnil _ => ?_⟩
    · simp [hfull, eq_comm]
    · cases hptr
      refine ⟨?_, rfl⟩
      rcases hpushed.cases with ⟨_, _, hnil⟩ | ⟨hgen, _⟩ | ⟨hgen, _⟩
      · simp at hnil
      · omega
      · omega
    · rcases hbuffer.cases with ⟨hgen, hcap, _⟩ | ⟨_, _, hne, _⟩ | ⟨_, hlt⟩
      · simp [Buffer.push, hnil, hgen, hcap]
      · exact absurd hnil hne
      · rw [hnil] at hlt
        exact absurd hlt (Nat.not_lt_zero _)

/-- What a place has for a slot: its tile, in the slots of its corners. -/
theorem Place.mem_tileAt {p : Place} {maxSizeX : Int} {i : Nat} {ptr : TilePtr} : ptr ∈ p.tileAt maxSizeX i ↔
    p.tile = some ptr ∧ p.Full ∧ ∃ d ∈ corners p.x p.y, (villageSlot maxSizeX d).toNat = i := by
  by_cases hfull : p.Full
  · obtain ⟨gen, idx, hp⟩ := hfull
    have hmem : ptr ∈ p.tileAt maxSizeX i ↔
        ((corners p.x p.y).any fun d => (villageSlot maxSizeX d).toNat == i) = true ∧ ptr = .entry gen idx := by
      simp only [Place.tileAt, hp]
      by_cases hany : ((corners p.x p.y).any fun d => (villageSlot maxSizeX d).toNat == i) = true
      · rw [if_pos hany, List.mem_singleton, and_iff_right hany]
      · rw [if_neg hany]
        exact iff_of_false List.not_mem_nil fun h => hany h.1
    rw [hmem, List.any_eq_true, and_comm, hp, Option.some_inj, eq_comm]
    refine and_congr .rfl ?_
    constructor
    · rintro ⟨d, hd, h⟩
      exact ⟨⟨gen, idx, hp⟩, d, hd, eq_of_beq h⟩
    · rintro ⟨_, d, hd, h⟩
      exact ⟨d, hd, beq_iff_eq.mpr h⟩
  · rw [Place.tileAt_of_not_full hfull]
    exact iff_of_false List.not_mem_nil fun h => hfull h.2.1

/-- A call on the map keeps the pointers as they should be. -/
theorem Pointed.step {growth : Nat → Nat} {maxSizeX maxSizeY : Int} {calls : List TileCall} {m m' : Map} {d : TileCall}
    (h : Pointed growth maxSizeX maxSizeY calls m) (hd : d.InRange maxSizeX maxSizeY)
    (hcall : m.setTile growth d.x d.y d.result d.number d.isEmpty = .ok m') :
    Pointed growth maxSizeX maxSizeY (calls ++ [d]) m' := by
  have hsx : 1 ≤ maxSizeX := by
    obtain ⟨_, _, _, _⟩ := hd
    omega
  have hsy : 1 ≤ maxSizeY := by
    obtain ⟨_, _, _, _⟩ := hd
    omega
  obtain ⟨hholds, _⟩ := setTile_spec hsx hsy h.holds hd hcall
  obtain ⟨ptr, hcur, hfull, hplaces, hslots⟩ := setTile_connections hsx hsy h.holds hd hcall
  obtain ⟨hbuffer, hgen, hitems, hptr, hfirst⟩ := currentTile_buffer h.buffer hcur
  obtain ⟨htiled, hkeep⟩ : Tiled maxSizeX maxSizeY (calls ++ [d]) m' ∧ m.allTiles.elems <+: m'.allTiles.elems := by
    rw [setTile_eq] at hcall
    obtain ⟨⟨m₁, p⟩, hstore, hafter⟩ := bind_eq_ok.mp hcall
    obtain ⟨htiled, hkeep, _⟩ := h.tiled.step hd hstore
    obtain ⟨villages, streets, rfl⟩ := afterSet_keeps hafter
    exact ⟨htiled.same ⟨villages, streets, rfl⟩, hkeep⟩
  -- The tile of the call, as its place and the villages hold it.
  have hnamed : d.Named m'.allTiles.elems ptr := by
    obtain ⟨tiles, ptr', hcur', _, _, hnamed⟩ := h.tiled.interned.currentTile growth d
    rw [hcur] at hcur'
    obtain rfl : m'.allTiles = tiles := congrArg (·.1.allTiles) hcur'
    obtain rfl : ptr = ptr' := congrArg Prod.snd hcur'
    exact hnamed
  constructor
  case holds => exact placedEdges_concat calls d ▸ hholds
  case tiled => exact htiled
  case buffer => exact hbuffer
  case items =>
    intro items
    rw [hitems, h.items]
    constructor
    · rintro (⟨c, hc, hrest⟩ | hrest)
      · exact ⟨c, List.mem_append_left _ hc, hrest⟩
      · exact ⟨d, by simp, hrest⟩
    · rintro ⟨c, hc, hrest⟩
      rcases List.mem_append.mp hc with hc | hc
      · exact .inl ⟨c, hc, hrest⟩
      · exact .inr (List.mem_singleton.mp hc ▸ hrest)
  case places =>
    intro p hp gen idx htile
    obtain ⟨i, hi⟩ := List.mem_iff_getElem?.mp hp
    rw [hplaces, getElem?_placed _ _ _ _ _ _ (by rw [htile]; rfl)] at hi
    rcases hi with ⟨_, rfl⟩ | ⟨_, hi⟩
    · obtain ⟨hpos, rfl⟩ := hptr gen idx (Option.some_inj.mp htile)
      exact ⟨hpos, Nat.le_refl _⟩
    · obtain ⟨hpos, hle⟩ := h.places p (List.mem_of_getElem? hi) gen idx htile
      exact ⟨hpos, hle.trans hgen⟩
  case villages =>
    intro i gen idx hmem
    rw [hslots] at hmem
    rcases List.mem_append.mp hmem with hmem | hmem
    · obtain ⟨⟨hpos, hle⟩, c, hc, hempty, hcorner, hname⟩ := h.villages i gen idx hmem
      exact ⟨⟨hpos, hle.trans hgen⟩, c, List.mem_append_left _ hc, hempty, hcorner, hname.mono hkeep⟩
    · obtain ⟨htile, hful, hcorner⟩ := Place.mem_tileAt.mp hmem
      obtain rfl : ptr = .entry gen idx := Option.some_inj.mp htile
      obtain ⟨hpos, rfl⟩ := hptr gen idx rfl
      exact ⟨⟨hpos, Nat.le_refl _⟩, d, by simp, hfull.mp hful, hcorner, hnamed⟩
  case first =>
    intro hne
    by_cases hnil : m.allTiles.elems = []
    · obtain rfl := hfirst hnil hne
      refine ⟨(villageSlot maxSizeX (d.x * 2 + 0, d.y + 0)).toNat, ?_⟩
      rw [hslots]
      exact List.mem_append_right _ (Place.mem_tileAt.mpr ⟨rfl, ⟨1, 0, rfl⟩, _, by simp [corners, TileCall.place], rfl⟩)
    · obtain ⟨i, hi⟩ := h.first hnil
      exact ⟨i, by rw [hslots]; exact List.mem_append_left _ hi⟩

section Run

variable {growth : Nat → Nat} {maxSizeX maxSizeY : Int} {calls : List TileCall} {m : Map}

/-- After any sequence of calls that returned, the pointers are as they should be. -/
theorem run_pointed (hc : ∀ c ∈ calls, c.InRange maxSizeX maxSizeY)
    (h : (Map.setMaxSize maxSizeX maxSizeY).run growth calls = .ok m) : Pointed growth maxSizeX maxSizeY calls m := by
  refine foldlM_prefix_invariant (Pointed growth maxSizeX maxSizeY) calls ?_
    (pointed_setMaxSize growth maxSizeX maxSizeY) h
  intro q c s t hq hs ht
  exact hs.step (hc c (hq.subset (by simp))) ht

/-- `allTiles` has one entry for every kind of tile. -/
theorem Pointed.length_eq (h : Pointed growth maxSizeX maxSizeY calls m) : m.allTiles.elems.length = kinds calls := by
  have hperm : (m.allTiles.elems.map (·.itemIDs)).Perm ((calls.filter fun c => !c.isEmpty).map (·.result)).dedup := by
    refine (List.perm_ext_iff_of_nodup h.tiled.interned.distinct (List.nodup_dedup _)).mpr fun items => ?_
    rw [h.items, List.mem_dedup, List.mem_map]
    simp only [List.mem_filter, Bool.not_eq_true', and_assoc]
  rw [kinds, ← hperm.length_eq, List.length_map]

/-- The tiles have not moved exactly when the first buffer has room for every kind. -/
theorem Pointed.gen_le_one_iff (h : Pointed growth maxSizeX maxSizeY calls m) :
    m.allTiles.gen ≤ 1 ↔ kinds calls ≤ max (growth 0) 1 := by
  rw [← h.length_eq]
  rcases h.buffer.cases with ⟨hgen, _, hnil⟩ | ⟨hgen, hcap, _, hle⟩ | ⟨hgen, hlt⟩
  · simp [hgen, hnil]
  · omega
  · omega

end Run

/-- For every map size and every sequence of calls below the first row, in every state it reaches: the pointers are valid
exactly when the first buffer of `allTiles` has room for every kind of tile. -/
theorem pointersValid_iff (growth : Nat → Nat) (maxSizeX maxSizeY : Int) (calls : List TileCall) (m : Map)
    (hc : ∀ c ∈ calls, c.InRange maxSizeX maxSizeY ∧ 1 ≤ c.y)
    (h : (Map.setMaxSize maxSizeX maxSizeY).run growth calls = .ok m) :
    PointersValid maxSizeX calls m ↔ kinds calls ≤ max (growth 0) 1 := by
  have hp := run_pointed (fun c hcm => (hc c hcm).1) h
  rw [← hp.gen_le_one_iff]
  constructor
  · intro hvalid
    by_cases hnil : m.allTiles.elems = []
    · rcases hp.buffer.cases with ⟨hgen, _⟩ | ⟨_, _, hne, _⟩ | ⟨_, hlt⟩
      · omega
      · exact absurd hnil hne
      · rw [hnil] at hlt
        exact absurd hlt (Nat.not_lt_zero _)
    -- The tile that was added first is still in a village, with its first address.
    · obtain ⟨i, hi⟩ := hp.first hnil
      obtain ⟨_, _, _, _, hgen, _⟩ := hvalid.villages i 1 0 hi
      exact hgen.symm.le
  · intro hone
    have hdesignates : ∀ {c : TileCall} {gen idx : Nat}, 1 ≤ gen ∧ gen ≤ m.allTiles.gen →
        c.Named m.allTiles.elems (.entry gen idx) → c.isEmpty = false ∧ m.Designates gen idx c.result := by
      intro c gen idx hgen hname
      unfold TileCall.Named at hname
      split at hname
      · cases hname
      · obtain ⟨_, i, t, hptr, ht, hitems⟩ := hname
        cases hptr
        exact ⟨eq_false_of_ne_true ‹_›, by omega, t, ht, hitems⟩
    constructor
    case places =>
      intro p hpm gen idx htile
      obtain ⟨i, hi⟩ := List.mem_iff_getElem?.mp hpm
      obtain ⟨c, _, _, hlast, ptr, rfl, hname⟩ := hp.tiled.last i p hi (by rw [htile]; rfl)
      obtain rfl : ptr = .entry gen idx := Option.some_inj.mp htile
      exact ⟨c, hlast, hdesignates (hp.places _ hpm gen idx htile) hname⟩
    case villages =>
      intro i gen idx hmem
      obtain ⟨hgen, c, hcm, hempty, hcorner, hname⟩ := hp.villages i gen idx hmem
      exact ⟨c, hcm, hempty, hcorner, (hdesignates hgen hname).2⟩

/-- The program's own two tiles are of one kind. -/
theorem pointersValid_one_kind : ∃ m,
    (Map.setMaxSize 5 5).run (fun n => n + n / 2) [⟨2, 2, [0], 0, false⟩, ⟨2, 3, [0], 0, false⟩] = .ok m ∧
      PointersValid 5 [⟨2, 2, [0], 0, false⟩, ⟨2, 3, [0], 0, false⟩] m := by
  obtain ⟨m, hm⟩ : ∃ m, (Map.setMaxSize 5 5).run (fun n => n + n / 2)
      [⟨2, 2, [0], 0, false⟩, ⟨2, 3, [0], 0, false⟩] = .ok m := ⟨_, rfl⟩
  exact ⟨m, hm, (pointersValid_iff _ 5 5 _ m (by simp [TileCall.InRange]) hm).mpr (by decide)⟩

/-- A second kind of tile moves the first one: the place and the six villages around it keep the old address. -/
theorem pointers_moved :
    (∀ c ∈ [(⟨2, 2, [0], 0, false⟩ : TileCall), ⟨4, 4, [1], 0, false⟩], c.InRange 5 5 ∧ 1 ≤ c.y) ∧ ∃ m,
      (Map.setMaxSize 5 5).run (fun n => n + n / 2) [⟨2, 2, [0], 0, false⟩, ⟨4, 4, [1], 0, false⟩] = .ok m ∧
        m.allTiles.gen = 2 ∧ (m.allTilePlaces[12]?.map (·.tile)) = some (some (.entry 1 0)) ∧
        m.slotTiles 28 = [.entry 1 0] ∧ ¬PointersValid 5 [⟨2, 2, [0], 0, false⟩, ⟨4, 4, [1], 0, false⟩] m := by
  refine ⟨by simp [TileCall.InRange], _, rfl, rfl, rfl, by decide, fun h => ?_⟩
  obtain ⟨_, _, _, _, hgen, _⟩ := h.villages 28 1 0 (by decide)
  exact absurd hgen (by decide)

end SiedlerServer
