import BackupEngine.Application.Displayer
import BackupEngine.Application.Frames
import BackupEngine.Application.Listeners
import BackupEngine.Application.SceenViewer
import BackupEngine.Application.Singletons
import BackupEngine.Cpp.Bytes
import BackupEngine.Cpp.Fault
import BackupEngine.Cpp.Vector
import BackupEngine.Cpp.World
import BackupEngine.Engine.Button
import BackupEngine.Engine.Components
import BackupEngine.Engine.InstancedTeilSpriteFactory
import BackupEngine.Engine.Links
import BackupEngine.Engine.Matrices
import BackupEngine.EventSystem.Dispatch
import BackupEngine.EventSystem.EventSystem
import BackupEngine.EventSystem.Reentrant
import BackupEngine.EventSystem.Updating
import BackupEngine.Lemmas.AddComponent
import BackupEngine.Lemmas.AfterSet
import BackupEngine.Lemmas.BareScenes
import BackupEngine.Lemmas.Broadcast
import BackupEngine.Lemmas.Channel
import BackupEngine.Lemmas.ClientConnecting
import BackupEngine.Lemmas.ClientIds
import BackupEngine.Lemmas.Components
import BackupEngine.Lemmas.Dense
import BackupEngine.Lemmas.Descent
import BackupEngine.Lemmas.Disconnect
import BackupEngine.Lemmas.Dispatch
import BackupEngine.Lemmas.Displayer
import BackupEngine.Lemmas.Frames
import BackupEngine.Lemmas.Hierarchy
import BackupEngine.Lemmas.Intake
import BackupEngine.Lemmas.Inventar
import BackupEngine.Lemmas.Linking
import BackupEngine.Lemmas.LinkingCalls
import BackupEngine.Lemmas.Links
import BackupEngine.Lemmas.MapConnections
import BackupEngine.Lemmas.MapTables
import BackupEngine.Lemmas.MapTiles
import BackupEngine.Lemmas.Matrices
import BackupEngine.Lemmas.Objects
import BackupEngine.Lemmas.ReadLoop
import BackupEngine.Lemmas.Relinking
import BackupEngine.Lemmas.Reload
import BackupEngine.Lemmas.SavedAlike
import BackupEngine.Lemmas.SavedClasses
import BackupEngine.Lemmas.Sends
import BackupEngine.Lemmas.Serializer
import BackupEngine.Lemmas.ServerCallbacks
import BackupEngine.Lemmas.ServerThreads
import BackupEngine.Lemmas.Sessions
import BackupEngine.Lemmas.Trees
import BackupEngine.Lemmas.WriteLoop
import BackupEngine.Lib.ByteStack
import BackupEngine.Lib.Forest
import BackupEngine.Lib.IndexLoop
import BackupEngine.Lib.Ledger
import BackupEngine.Lib.Separated
import BackupEngine.Lib.SlotTable
import BackupEngine.Lib.Transition
import BackupEngine.Lib.Trees
import BackupEngine.Netzwerk.ClientBase
import BackupEngine.Netzwerk.Connection
import BackupEngine.Netzwerk.IoContext
import BackupEngine.Netzwerk.Message
import BackupEngine.Netzwerk.Network
import BackupEngine.Netzwerk.ServerBase
import BackupEngine.Netzwerk.ServerCallbacks
import BackupEngine.Netzwerk.ServerStart
import BackupEngine.Netzwerk.ServerThreads
import BackupEngine.Netzwerk.ServerUpdate
import BackupEngine.Netzwerk.TsQueue
import BackupEngine.Netzwerk.TsQueueThreads
import BackupEngine.Serializer.AddComponent
import BackupEngine.Serializer.Children
import BackupEngine.Serializer.FileWriter
import BackupEngine.Serializer.Objects
import BackupEngine.Serializer.Pointers
import BackupEngine.Serializer.Reparenting
import BackupEngine.Serializer.SecondStorrage
import BackupEngine.Serializer.Serializer
import BackupEngine.Serializer.Values
import BackupEngine.SiedlerServer.Inventar
import BackupEngine.SiedlerServer.Map
import BackupEngine.Theorems.Activation
import BackupEngine.Theorems.Broadcast
import BackupEngine.Theorems.Callbacks
import BackupEngine.Theorems.Channel
import BackupEngine.Theorems.CheckThenTake
import BackupEngine.Theorems.Children
import BackupEngine.Theorems.ClassTags
import BackupEngine.Theorems.ClientConnecting
import BackupEngine.Theorems.ClientDisconnect
import BackupEngine.Theorems.ClientIds
import BackupEngine.Theorems.Delivery
import BackupEngine.Theorems.DenseIds
import BackupEngine.Theorems.Descent
import BackupEngine.Theorems.Disconnect
import BackupEngine.Theorems.Dispatch
import BackupEngine.Theorems.EventRoundTrip
import BackupEngine.Theorems.Frames
import BackupEngine.Theorems.Hierarchy
import BackupEngine.Theorems.InventarRuns
import BackupEngine.Theorems.Isolation
import BackupEngine.Theorems.Klicks
import BackupEngine.Theorems.Layout
import BackupEngine.Theorems.Listeners
import BackupEngine.Theorems.LongStrings
import BackupEngine.Theorems.MapConnections
import BackupEngine.Theorems.MapStreets
import BackupEngine.Theorems.MapTiles
import BackupEngine.Theorems.MapVillages
import BackupEngine.Theorems.Merging
import BackupEngine.Theorems.MessageBody
import BackupEngine.Theorems.Network
import BackupEngine.Theorems.PendingOwners
import BackupEngine.Theorems.QueueProgress
import BackupEngine.Theorems.RectFiles
import BackupEngine.Theorems.Reentrant
import BackupEngine.Theorems.Registration
import BackupEngine.Theorems.Relinking
import BackupEngine.Theorems.Reload
import BackupEngine.Theorems.Reloads
import BackupEngine.Theorems.Reparenting
import BackupEngine.Theorems.Requirements
import BackupEngine.Theorems.Restart
import BackupEngine.Theorems.SceneRoundTrip
import BackupEngine.Theorems.TilePointers
import BackupEngine.Theorems.Updating
import BackupEngine.Theorems.ValueStack
import BackupEngine.Theorems.WakeUp
import BackupEngine.Theorems.Wire
import BackupEngine.Theorems.WorldMatrices
import BackupEngine.Theorems.WriteLoop
