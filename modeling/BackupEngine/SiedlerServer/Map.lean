import BackupEngine.Cpp.Vector

/-!
# The game map

`Map` of `SiedlerServer`: the placed tiles, and the villages and streets around them, each kept in a vector indexed by a
flat index of its coordinates and grown when a new index is past its end. The map is the singleton instance, the one the
program makes and the one `place::afterSet` goes through.
-/

namespace SiedlerServer

open Cpp

/-- `Map::tile`: a kind of tile, its number and the items it yields. -/
structure Tile where
  emptyTile : Bool := true
  tileId : Int := -1
  itemIDs : List Int := []
  deriving DecidableEq, Repr

/-- A `tile*`: the address of the map's `emptyTile`, or of the entry `idx` of the buffer `gen` of `allTiles`. -/
inductive TilePtr where
  | emptyTile
  | entry (gen idx : Nat)
  deriving DecidableEq, Repr

/-- `Map::place`: what lies at a coordinate. The tile is null where no tile was ever set. -/
structure Place where
  tile : Option TilePtr := none
  number : Int := -1
  x : Int := -1
  y : Int := -1
  index : Int := -1
  deriving DecidableEq, Repr

/-- `Map::village`. The member `x` has no initialiser: it holds no value until one is assigned. -/
structure Village where
  isInitialized : Bool := false
  x : Option Int := none
  y : Int := -1
  index : Int := -1
  connectingTiles : List TilePtr := []
  deriving DecidableEq, Repr

/-- The constructor `village::village`, which marks every village it makes as initialised. -/
def Village.village : Village := { connectingTiles := [], isInitialized := true }

/-- `Map::street`. It has no constructor of its own, so a vector fills its new elements with zeros. -/
structure Street where
  isInitialized : Bool := false
  x : Int := 0
  y : Int := 0
  index : Int := 0
  deriving DecidableEq, Repr

/-- `Map`. -/
structure Map where
  maxSizeX : Int
  maxSizeY : Int
  emptyTile : Tile := {}
  allTiles : Buffer Tile := {}
  allTilePlaces : List Place := []
  villages : List Village := []
  streets : List Street := []
  deriving Repr

/-- `if (xs.size() <= index) xs.resize(index + 1);`, the way each of the three tables grows. The size is a `size_t`, so
the index is converted before it is compared. -/
def growTo {α : Type} (xs : List α) (index : Int) (fresh : α) : Comp (List α) := do
  if xs.length ≤ sizeT index then resize xs (sizeT (← int (index + 1))) fresh
  else return xs

namespace Map

/-- A new map after `setMaxSize`. -/
def setMaxSize (x y : Int) : Map := { maxSizeX := x, maxSizeY := y }

/-- The tile a pointer names. A pointer into an earlier buffer of `allTiles` names none. -/
def deref (m : Map) : Option TilePtr → Comp Tile
  | none => .error .badAccess
  | some .emptyTile => .ok m.emptyTile
  | some (.entry gen idx) => if gen = m.allTiles.gen then elemAt m.allTiles.elems idx else .error .badAccess

/-- The flat index of a village, as `addVillage` computes it. -/
def villageIndex (m : Map) (x y : Int) : Comp Int := do
  let width ← int ((← int (m.maxSizeX * 2)) + 2)
  int ((← int (y * width)) + x)

/-- `Map::addVillage`. -/
def addVillage (m : Map) (x y : Int) (tile : TilePtr) : Comp Map := do
  let index ← m.villageIndex x y
  let villages ← growTo m.villages index Village.village
  let village ← elemAt villages (sizeT index)
  let village := if village.isInitialized then village else { Village.village with x := some x, y := y, index := index }
  let villages ← setAt villages (sizeT index) { village with connectingTiles := village.connectingTiles ++ [tile] }
  return { m with villages := villages }

/-- The flat index of a street, as `addStreet` computes it. -/
def streetIndex (m : Map) (x y : Int) : Comp Int := do
  let width ← int ((← int (m.maxSizeY * 2)) + 2)
  int ((← int (x * width)) + y)

/-- `Map::addStreet`. -/
def addStreet (m : Map) (x y : Int) : Comp Map := do
  let index ← m.streetIndex x y
  let streets ← growTo m.streets index {}
  let street ← elemAt streets (sizeT index)
  if street.isInitialized then return { m with streets := streets }
  else
    let streets ← setAt streets (sizeT index) { index := index, x := x, y := y, isInitialized := true }
    return { m with streets := streets }

end Map

/-- The villages `place::afterSet` adds for a place at (x, y), in order. -/
def corners (x y : Int) : List (Int × Int) :=
  [(x * 2 + 0, y + 0), (x * 2 + 1, y + 0), (x * 2 + 2, y + 0), (x * 2 + 0, y + 1), (x * 2 + 1, y + 1), (x * 2 + 2, y + 1)]

/-- The streets `place::afterSet` adds for a place at (x, y), in order. -/
def edges (x y : Int) : List (Int × Int) :=
  [(x + 0, y * 2 - 1), (x + 0, y * 2 - 0), (x + 0, y * 2 + 1), (x + 1, y * 2 - 1), (x + 1, y * 2 - 0), (x + 1, y * 2 + 1)]

namespace Map

/-- The calls of `addVillage` in `place::afterSet`. -/
def addVillages (m : Map) (tile : TilePtr) (cs : List (Int × Int)) : Comp Map :=
  cs.foldlM (fun m c => do m.addVillage (← int c.1) (← int c.2) tile) m

/-- The calls of `addStreet` in `place::afterSet`. -/
def addStreets (m : Map) (es : List (Int × Int)) : Comp Map :=
  es.foldlM (fun m e => do m.addStreet (← int e.1) (← int e.2)) m

/-- `place::afterSet`. Every argument is an `int` expression; the products in it are checked with the sums, except `y * 2`,
which is larger than the `y * 2 - 1` it is part of. -/
def afterSet (m : Map) (p : Place) : Comp Map := do
  let tile ← m.deref p.tile
  if tile.emptyTile then return m
  else
    let ptr ← match p.tile with
      | some ptr => .ok ptr
      | none => .error .badAccess
    let m ← m.addVillages ptr (corners p.x p.y)
    let _ ← int (p.y * 2)
    m.addStreets (edges p.x p.y)

/-- The first entry of `allTiles` with these items: the loop compares the lengths, then the items one by one. -/
def findTile (m : Map) (result : List Int) : Option Nat :=
  m.allTiles.elems.findIdx? fun t => decide (t.itemIDs = result)

/-- The tile a `setTile` call places: the empty tile, the entry with the same items, or a new entry. -/
def currentTile (growth : Nat → Nat) (m : Map) (result : List Int) (isEmpty : Bool) : Map × TilePtr :=
  if isEmpty then (m, .emptyTile)
  else match m.findTile result with
    | some i => (m, .entry m.allTiles.gen i)
    | none =>
      let id := m.allTiles.elems.length
      let allTiles := m.allTiles.push growth { emptyTile := false, tileId := id, itemIDs := result }
      ({ m with allTiles := allTiles }, .entry allTiles.gen id)

/-- `Map::setTile`. -/
def setTile (growth : Nat → Nat) (m : Map) (x y : Int) (result : List Int) (number : Int) (isEmpty : Bool) :
    Comp Map := do
  let (m, tile) := m.currentTile growth result isEmpty
  let index ← int ((← int (x * m.maxSizeY)) + y)
  let p : Place := { tile := some tile, number := number, index := index, x := x, y := y }
  let places ← growTo m.allTilePlaces index {}
  let places ← setAt places (sizeT index) p
  afterSet { m with allTilePlaces := places } p

/-- `Map::getTiles`. -/
def getTiles (m : Map) : List Place := m.allTilePlaces.filter fun p => p.tile.isSome

/-- `Map::getVillages`. -/
def getVillages (m : Map) : List Village := m.villages.filter (·.isInitialized)

end Map

/-- The arguments of a `setTile` call. -/
structure TileCall where
  x : Int
  y : Int
  result : List Int
  number : Int
  isEmpty : Bool := false
  deriving DecidableEq, Repr

/-- The coordinates of a call lie on the map. -/
def TileCall.InRange (maxSizeX maxSizeY : Int) (c : TileCall) : Prop :=
  0 ≤ c.x ∧ c.x < maxSizeX ∧ 0 ≤ c.y ∧ c.y < maxSizeY

/-- A sequence of `setTile` calls. -/
def Map.run (growth : Nat → Nat) (m : Map) (calls : List TileCall) : Comp Map :=
  calls.foldlM (fun m c => m.setTile growth c.x c.y c.result c.number c.isEmpty) m

end SiedlerServer
