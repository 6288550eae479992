import BackupEngine.Netzwerk.ServerThreads

/-!
# What a server sends

Which `Send`s the Message functions call and which messages they begin to send to all, in order. A `Send` only posts; the
handler that queues the message and writes it runs on the other thread.
-/

namespace Netzwerk

open Cpp

variable {T : Type}

/-- `MessageAllClients` begins with a message, or `Send` is called on a connection. -/
inductive Sending (T : Type) where
  | toAll (msg : Message T)
  | send (client : ConnPtr) (msg : Message T)

/-- The messages `Send` was called with on a connection. -/
def sendsTo (c : ConnPtr) (ws : List (Sending T)) : List (Message T) :=
  ws.filterMap fun w => match w with
    | .send client msg => if client = c then some msg else none
    | .toAll _ => none

/-- The messages `MessageAllClients` began with. -/
def toAlls (ws : List (Sending T)) : List (Message T) :=
  ws.filterMap fun w => match w with
    | .send _ _ => none
    | .toAll msg => some msg

namespace ServerThreads

/-- The messages that are posted for a connection. -/
def postedTo (s : ServerThreads T) (c : ConnPtr) : List (Message T) :=
  s.posted.filterMap fun p => if p.1 = c then some p.2 else none

/-- `client->Send(msg)`, as it is seen. -/
def seeSend (client : Option ConnPtr) (msg : Message T) : List (Sending T) := (client.map (.send · msg)).toList

/-- What the next step of a call sends, and what it begins to send to all. -/
def frameSends (s : ServerThreads T) (toSend : Message T) : Frame T → List (Sending T)
  | .client client msg => if s.isConnected client then seeSend client msg else [.toAll toSend]
  | .group msg _ (client :: _) _ => if s.isConnected client then seeSend client msg else []
  | .group _ _ [] _ => []
  | .all msg pIgnoreClient i size _ =>
    if i < size then
      s.deqConnections[i]?.toList.flatMap fun client =>
        if client ≠ pIgnoreClient ∧ s.isConnected client = true then seeSend client msg else []
    else []
  | .after (msg :: _) _ => [.toAll msg]
  | .after [] _ => []
  | .update _ _ => []
  | .onMessage _ _ _ => []

/-- What is seen of an event. -/
def sending (s : ServerThreads T) : ServerThreadEvent T → List (Sending T)
  | .call (.all msg _) => [.toAll msg]
  | .run toSend => (s.frames.head?.map (s.frameSends toSend)).getD []
  | _ => []

end ServerThreads

end Netzwerk
