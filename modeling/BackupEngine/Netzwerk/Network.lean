import BackupEngine.Netzwerk.Channel
import BackupEngine.Netzwerk.ServerSends

/-!
# A server and its clients

The two threads of a server, and for every connection the bytes under way to the client at its other end and that client's
reading half. The clients go on independently of each other and of the server; the sockets alone join them.
-/

namespace Netzwerk

open Cpp Transition

/-- A server, how many bytes of each connection have arrived at its client, and the clients. -/
structure Network (T : Type) where
  server : ServerThreads T
  arrived : ConnPtr → Nat := fun _ => 0
  clients : ConnPtr → Inbox T

/-- Something happens at the server, or at the client of a connection. -/
inductive NetworkEvent (T : Type) where
  | server (e : ServerThreadEvent T)
  | client (c : ConnPtr) (e : ChannelEvent T)

/-- What is seen: what the server sends, and the messages the clients hand to `OnMessage`. -/
inductive NetworkSeen (T : Type) where
  | sending (w : Sending T)
  | handed (client : ConnPtr) (msg : Message T)

variable {T : Type}

/-- The event is one of the client's end. -/
def ChannelEvent.OfClient : ChannelEvent T → Prop
  | .write _ => False
  | _ => True

/-- What the server sent. -/
def sendings (ws : List (NetworkSeen T)) : List (Sending T) :=
  ws.filterMap fun w => match w with
    | .sending w => some w
    | .handed _ _ => none

/-- The messages a client handed to `OnMessage`. -/
def handedTo (c : ConnPtr) (ws : List (NetworkSeen T)) : List (Message T) :=
  ws.filterMap fun w => match w with
    | .sending _ => none
    | .handed client msg => if client = c then some msg else none

namespace Network

variable [StandardLayout (MessageHeader T)]

omit [StandardLayout (MessageHeader T)] in
/-- A connection with both its ends. -/
def channel (s : Network T) (c : ConnPtr) : Channel T :=
  { sender := s.server.conns c, arrived := s.arrived c, receiver := s.clients c }

/-- Which events can happen. A client has a connection that was accepted. -/
def enabled (s : Network T) : NetworkEvent T → Prop
  | .server e => s.server.enabled e
  | .client c e => c < s.server.made ∧ e.OfClient ∧ (s.channel c).enabled e

/-- What an event does. -/
def next (s : Network T) : NetworkEvent T → Comp (Network T)
  | .server e => do return { s with server := ← s.server.next e }
  | .client c e => do
    let channel ← (s.channel c).next e
    return { s with
      arrived := Function.update s.arrived c channel.arrived
      clients := Function.update s.clients c channel.receiver }

/-- The server and its clients. -/
def machine : Machine Fault (Network T) (NetworkEvent T) where
  enabled := enabled
  next := next

/-- A new server; the connection of every client to come waits for its first header. -/
def start (conns peers : ConnPtr → Connection T) : Network T :=
  { server := { conns }, clients := fun c => { conn := (peers c).readHeader, unread := [] } }

omit [StandardLayout (MessageHeader T)] in
/-- What is seen of an event. -/
def see (s : Network T) : NetworkEvent T → List (NetworkSeen T)
  | .server e => (s.server.sending e).map .sending
  | .client c e => (Fifo.left (Channel.see (s.channel c) e)).map (.handed c)

omit [StandardLayout (MessageHeader T)] in
/-- The messages sent have their sizes in their headers. -/
def SendsSized (s : Network T) (e : NetworkEvent T) : Prop := ∀ c msg, .sending (.send c msg) ∈ s.see e → msg.Sized

end Network

end Netzwerk
