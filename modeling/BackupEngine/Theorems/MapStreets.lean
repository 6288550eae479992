import BackupEngine.Lemmas.MapTables

/-!
# The streets of the map

`getStreets` returns one street for each edge of the tiles placed, as long as no tile is placed at (0, 0). The edge
(0, -1) of that tile has the index -1, which `addStreet` compares as a `size_t`: the table is resized to no elements and
then accessed outside them.
-/

namespace SiedlerServer

open Cpp SlotTable

end SiedlerServer
