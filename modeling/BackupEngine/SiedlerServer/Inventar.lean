import BackupEngine.Cpp.Vector
import BackupEngine.Lib.Ledger
import BackupEngine.Lib.Transition

/-!
# The inventory

`Inventar` of `SiedlerServer`: the catalogue of items, and for every player the amount of each item it owns. The inventory is
the singleton instance, the one the constructor of a player's part of it asks for the catalogue.
-/

namespace SiedlerServer

open Cpp Transition

/-- `item`: an entry of the catalogue. -/
structure Item where
  id : Int
  name : List UInt8
  ValueMarcet : Int
  ValueHabour : Int
  deriving DecidableEq, Repr

/-- `playerInventory`. The numbers have no initialiser: they hold no value until one is assigned. -/
structure PlayerInventory where
  playerID : Option Int := none
  streetCount : Option Int := none
  cityCount : Option Int := none
  villageCount : Option Int := none
  ownedItems : List (Item × Int) := []
  hasHabour : List Bool := []
  deriving DecidableEq, Repr

/-- `Inventar`. -/
structure Inventar where
  knownItems : List Item := []
  inventorys : List PlayerInventory := []
  deriving DecidableEq, Repr

namespace Inventar

/-- `Inventar::getMaxItemCount`: the size of the catalogue as an `int`. -/
def getMaxItemCount (inv : Inventar) : Int := intOf inv.knownItems.length

/-- The constructor `playerInventory::playerInventory`: an amount of zero for each of the first `getMaxItemCount()` items. -/
def playerInventory (inv : Inventar) : PlayerInventory :=
  let itemSize := inv.getMaxItemCount.toNat
  { ownedItems := (inv.knownItems.take itemSize).map fun it => (it, 0)
    hasHabour := (inv.knownItems.take itemSize).map fun _ => false }

/-- `Inventar::addPlayer`. -/
def addPlayer (inv : Inventar) : Comp Inventar :=
  if inv.inventorys.length < maxSize then
    let player := { inv.playerInventory with playerID := some (intOf inv.inventorys.length) }
    .ok { inv with inventorys := inv.inventorys ++ [player] }
  else .error .lengthError

/-- `inventorys.size() - 1`, a `size_t`: without players it is the largest one. -/
def lastPlace (inv : Inventar) : Nat := sizeT ((inv.inventorys.length : Int) - 1)

/-- The two tests that end each of the three functions below before it does anything. -/
def refuses (inv : Inventar) (id : Int) (count : List (Int × Int)) : Bool :=
  decide (id < 0 ∨ inv.lastPlace < sizeT id) || decide (inv.lastPlace < count.length)

/-- `inventorys[id].ownedItems[item].second`, read. -/
def amountAt (inv : Inventar) (id item : Int) : Comp Int := do
  let player ← elemAt inv.inventorys (sizeT id)
  let (_, amount) ← elemAt player.ownedItems (sizeT item)
  return amount

/-- The same, written. -/
def setAmountAt (inv : Inventar) (id item amount : Int) : Comp Inventar := do
  let player ← elemAt inv.inventorys (sizeT id)
  let (it, _) ← elemAt player.ownedItems (sizeT item)
  let ownedItems ← setAt player.ownedItems (sizeT item) (it, amount)
  let inventorys ← setAt inv.inventorys (sizeT id) { player with ownedItems }
  return { inv with inventorys }

/-- The loop of `hasPlayerItems` over the rest of the list, from the place `i` on. -/
def hasItems (inv : Inventar) (id : Int) : Nat → List (Int × Int) → Comp Bool
  | _, [] => .ok true
  | i, (item, amount) :: count => do
    if (← inv.amountAt id item) < amount then return false
    else
      let _ ← int (i + 1)
      inv.hasItems id (i + 1) count

/-- `Inventar::hasPlayerItems`. -/
def hasPlayerItems (inv : Inventar) (id : Int) (count : List (Int × Int)) : Comp Bool :=
  if inv.refuses id count then .ok false else inv.hasItems id 0 count

/-- The body of the loop of `removeItemFromPlayer`. -/
def removeItem (id : Int) (inv : Inventar) (entry : Int × Int) : Comp Inventar := do
  let inv ← inv.setAmountAt id entry.1 (← int ((← inv.amountAt id entry.1) - entry.2))
  if (← inv.amountAt id entry.1) < 0 then inv.setAmountAt id entry.1 0 else return inv

/-- `Inventar::removeItemFromPlayer`. -/
def removeItemFromPlayer (inv : Inventar) (id : Int) (count : List (Int × Int)) : Comp Inventar :=
  if inv.refuses id count then .ok inv else forEach (removeItem id) 0 count inv

/-- The body of the loop of `addItemtoPlayer`. -/
def addItem (id : Int) (inv : Inventar) (entry : Int × Int) : Comp Inventar := do
  inv.setAmountAt id entry.1 (← int ((← inv.amountAt id entry.1) + entry.2))

/-- `Inventar::addItemtoPlayer`. -/
def addItemtoPlayer (inv : Inventar) (id : Int) (count : List (Int × Int)) : Comp Inventar :=
  if inv.refuses id count then .ok inv else forEach (addItem id) 0 count inv

end Inventar

/-- The values of `std::vector<std::pair<int, int>>`. -/
def IsVector (count : List (Int × Int)) : Prop := count.length ≤ maxSize ∧ ∀ e ∈ count, InInt e.1 ∧ InInt e.2

/-- A call that changes the inventory. -/
inductive InventarCall where
  | addPlayer
  | addItemtoPlayer (id : Int) (count : List (Int × Int))
  | removeItemFromPlayer (id : Int) (count : List (Int × Int))
  deriving DecidableEq, Repr

namespace InventarCall

/-- The arguments of a call are of type `int`. -/
def Typed : InventarCall → Prop
  | .addPlayer => True
  | .addItemtoPlayer id count => InInt id ∧ IsVector count
  | .removeItemFromPlayer id count => InInt id ∧ IsVector count

/-- What a call does. -/
def run (inv : Inventar) : InventarCall → Comp Inventar
  | .addPlayer => inv.addPlayer
  | .addItemtoPlayer id count => inv.addItemtoPlayer id count
  | .removeItemFromPlayer id count => inv.removeItemFromPlayer id count

end InventarCall

/-- The inventory as a machine: any call with arguments of the right types can come next. -/
def Inventar.machine : Machine Fault Inventar InventarCall where
  enabled := fun _ call => call.Typed
  next := InventarCall.run

/-- The inventory before the first call, over a catalogue. -/
def Inventar.initial (knownItems : List Item) : Inventar := { knownItems }

end SiedlerServer
