import BackupEngine.Netzwerk.ServerBase
import BackupEngine.Netzwerk.ServerUpdate

/-!
# The two threads of the server and the shared pointers

The handlers of a connection and its posted `Send`s capture its `this`, not a shared pointer, so that a connection is gone
when its last shared pointer is, whatever is still pending. `ServerThreads.machine` interleaves the thread of the io_context,
which runs one handler or posted `Send` at a time, with the thread that calls the Message functions and `Update`. That thread
goes through the loops element by element; what it is doing is a stack of frames, the innermost call first. No lock keeps a
connection from being pushed onto the deque while `MessageAllClients` goes through it: its loop faults then.
-/

namespace Netzwerk

open Cpp Transition

/-- A call on the thread that calls the Message functions and `Update`, with its local variables. -/
inductive Frame (T : Type) where
  /-- `MessageClient`, about to ask whether the client is connected. -/
  | client (client : Option ConnPtr) (msg : Message T)
  /-- The loop of `MessageClientGroup`: the elements of the group it has been through, and the others. -/
  | group (msg : Message T) (through left : List (Option ConnPtr)) (afterDisconectSend : List (Message T))
  /-- The loop of `MessageAllClients`, at one of the `size` elements the deque had when the loop began. -/
  | all (msg : Message T) (pIgnoreClient : Option ConnPtr) (i size : Nat) (afterDisconectSend : List (Message T))
  /-- A Message function behind its loop: the messages it still sends to all, and the pointers among its variables. -/
  | after (afterDisconectSend : List (Message T)) (pointers : List (Option ConnPtr))
  /-- `Update` at the head of its loop. -/
  | update (nMaxMessages nMessageCount : Nat)
  /-- `Update` in a call of `OnMessage`. -/
  | onMessage (msg : OwnedMessage T) (nMaxMessages nMessageCount : Nat)

/-- The shared pointers among the variables of a call. -/
def Frame.owners {T : Type} : Frame T → List (Option ConnPtr)
  | .client c _ => [c]
  | .group _ through left _ => through ++ left
  | .all _ pIgnoreClient _ _ _ => [pIgnoreClient]
  | .after _ pointers => pointers
  | .update _ _ => []
  | .onMessage msg _ _ => [msg.remote]

/-- A server with its two threads. -/
structure ServerThreads (T : Type) where
  conns : ConnPtr → Connection T
  /-- How many connections were made. -/
  made : Nat := 0
  nIDCounter : UInt32 := 1000
  deqConnections : List (Option ConnPtr) := []
  qMessagesIn : List (OwnedMessage T) := []
  /-- The posted `Send`s, each with its `this`. -/
  posted : List (ConnPtr × Message T) := []
  /-- The shared pointers the caller has in variables of its own. -/
  held : List (Option ConnPtr) := []
  frames : List (Frame T) := []

/-- What can happen. On the thread of the io_context: a connection is accepted, which `OnClientRequestConnect` lets in or not
and of which the server's class may keep a pointer; what becomes of a write or of a read; a posted `Send`. On the other
thread: a call, the next step of the innermost call, where `toSend` is what `OnClientDisconnect` returns if it is called, and
a pointer the caller copies or lets go. -/
inductive ServerThreadEvent (T : Type) where
  | accepted (msgTemporaryIn : Message T) (request keep : Bool)
  | write (c : ConnPtr) (e : Connection.WriteEvent T)
  | read (c : ConnPtr) (e : ReadEvent)
  | posted
  | call (call : MessageCall T)
  | update (nMaxMessages : Nat)
  | run (toSend : Message T)
  | hold (c : ConnPtr)
  | letGo (i : Nat)

variable {T : Type}

/-- The event comes from an outstanding write. -/
def Connection.WriteEvent.OfSocket : Connection.WriteEvent T → Prop
  | .send _ => False
  | .close => False
  | _ => True

/-- The event comes from the outstanding read. -/
def ReadEvent.OfSocket : ReadEvent → Prop
  | .connectToClient _ => False
  | _ => True

/-- The shared pointers passed in a call. -/
def MessageCall.pointers : MessageCall T → List (Option ConnPtr)
  | .client c _ => [c]
  | .group _ cs => cs
  | .all _ pIgnoreClient => [pIgnoreClient]

namespace ServerThreads

/-- All shared pointers to connections, null ones included. -/
def owners (s : ServerThreads T) : List (Option ConnPtr) :=
  s.deqConnections ++ s.qMessagesIn.map (·.remote) ++ s.held ++ s.frames.flatMap Frame.owners

/-- The connection has an owner. -/
def Owned (s : ServerThreads T) (c : ConnPtr) : Prop := some c ∈ s.owners

instance (s : ServerThreads T) (c : ConnPtr) : Decidable (s.Owned c) := inferInstanceAs (Decidable (_ ∈ _))

/-- A read or write handler or a posted `Send` that has captured the connection's `this` is pending. -/
def Pending (s : ServerThreads T) (c : ConnPtr) : Prop :=
  (s.conns c).reads ≠ none ∨ (s.conns c).writes ≠ [] ∨ c ∈ s.posted.map (·.1)

/-- Something is done with the members of a connection, on the thread of the io_context. The connection is gone when nothing
owns it. -/
def onConnection (s : ServerThreads T) (c : ConnPtr)
    (f : Connection T → Comp (Connection T × Option (OwnedMessage T))) : Comp (ServerThreads T) :=
  if s.Owned c then do
    let (conn, owned) ← f (s.conns c)
    return { s with
      conns := Function.update s.conns c conn
      qMessagesIn := owned.toList.foldl TsQueue.pushBack s.qMessagesIn }
  else .error .badAccess

/-- `client && client->IsConnected()`. -/
def isConnected (s : ServerThreads T) : Option ConnPtr → Bool
  | none => false
  | some c => (s.conns c).isOpen

/-- `client->Send(msg)`. -/
def send (s : ServerThreads T) (client : Option ConnPtr) (msg : Message T) : ServerThreads T :=
  { s with posted := s.posted ++ (client.map (·, msg)).toList }

/-- `m_deqConnections.erase(std::remove(.., nullptr), ..)`. -/
def eraseNull (s : ServerThreads T) : ServerThreads T :=
  { s with deqConnections := s.deqConnections.filter (· ≠ none) }

/-- The next step of a call, behind which the calls `rest` wait. -/
def frameStep (s : ServerThreads T) (rest : List (Frame T)) (toSend : Message T) : Frame T → Comp (ServerThreads T)
  | .client client msg =>
    if s.isConnected client then .ok { s.send client msg with frames := .after [] [client] :: rest }
    else
      let s := s.eraseNull
      .ok { s with frames := .all toSend none 0 s.deqConnections.length [] :: rest }
  | .group msg through (client :: left) afterDisconectSend =>
    if s.isConnected client then
      .ok { s.send client msg with frames := .group msg (through ++ [client]) left afterDisconectSend :: rest }
    else .ok { s with frames := .group msg (through ++ [none]) left (afterDisconectSend ++ [toSend]) :: rest }
  | .group _ through [] afterDisconectSend =>
    let bInvalidClientExists := !afterDisconectSend.isEmpty
    if bInvalidClientExists then .ok { s.eraseNull with frames := .after afterDisconectSend through :: rest }
    else .ok { s with frames := .after [] through :: rest }
  | .all msg pIgnoreClient i size afterDisconectSend =>
    -- `push_back` invalidates the iterators of the loop; within the loop nothing else changes the length of the deque.
    if s.deqConnections.length ≠ size then .error .badAccess
    else if i < size then do
      let client ← elemAt s.deqConnections i
      if client ≠ pIgnoreClient then
        if s.isConnected client then
          return { s.send client msg with frames := .all msg pIgnoreClient (i + 1) size afterDisconectSend :: rest }
        else
          return { s with
            deqConnections := s.deqConnections.set i none
            frames := .all msg pIgnoreClient (i + 1) size (afterDisconectSend ++ [toSend]) :: rest }
      else return { s with frames := .all msg pIgnoreClient (i + 1) size afterDisconectSend :: rest }
    else
      let bInvalidClientExists := !afterDisconectSend.isEmpty
      if bInvalidClientExists then .ok { s.eraseNull with frames := .after afterDisconectSend [pIgnoreClient] :: rest }
      else .ok { s with frames := .after [] [pIgnoreClient] :: rest }
  | .after (msg :: msgs) pointers =>
    .ok { s with frames := .all msg none 0 s.deqConnections.length [] :: .after msgs pointers :: rest }
  | .after [] _ => .ok { s with frames := rest }
  | .update nMaxMessages nMessageCount =>
    if nMessageCount < nMaxMessages ∧ !TsQueue.empty s.qMessagesIn then do
      let (msg, q) ← TsQueue.popFront s.qMessagesIn
      return { s with qMessagesIn := q, frames := .onMessage msg nMaxMessages nMessageCount :: rest }
    else .ok { s with frames := rest }
  | .onMessage _ nMaxMessages nMessageCount =>
    .ok { s with frames := .update nMaxMessages (nMessageCount + 1) :: rest }

/-- The caller is in none of the functions, or in `OnMessage`. -/
def CanCall (s : ServerThreads T) : Prop :=
  match s.frames with
  | [] => True
  | .onMessage _ _ _ :: _ => True
  | _ => False

variable [StandardLayout (MessageHeader T)]

/-- Which events can happen. A pointer that is passed or copied is a copy of one there is. -/
def enabled (s : ServerThreads T) : ServerThreadEvent T → Prop
  | .accepted _ _ _ => True
  | .write c e => e.OfSocket ∧ (s.conns c).writeEnabled e
  | .read c e => e.OfSocket ∧ (s.conns c).readEnabled e
  | .posted => s.posted ≠ []
  | .call call => s.CanCall ∧ ∀ c, some c ∈ call.pointers → s.Owned c
  | .update _ => s.CanCall
  | .run _ => s.frames ≠ []
  | .hold c => s.CanCall ∧ s.Owned c
  | .letGo i => s.CanCall ∧ i < s.held.length

/-- The handler of `WaitForClientConnection`, called without an error. -/
def accept (s : ServerThreads T) (msgTemporaryIn : Message T) (request keep : Bool) : ServerThreads T :=
  let newconn : Connection T := { self := s.made, nOwnerType := .server, msgTemporaryIn := msgTemporaryIn }
  let held := if keep then s.held ++ [some s.made] else s.held
  if request then
    { s with
      conns := Function.update s.conns s.made (newconn.connectToClient s.nIDCounter)
      made := s.made + 1
      nIDCounter := s.nIDCounter + 1
      deqConnections := s.deqConnections ++ [some s.made]
      held := held }
  else { s with conns := Function.update s.conns s.made newconn, made := s.made + 1, held := held }

/-- What an event does. -/
def next (s : ServerThreads T) : ServerThreadEvent T → Comp (ServerThreads T)
  | .accepted msgTemporaryIn request keep => .ok (s.accept msgTemporaryIn request keep)
  | .write c e => s.onConnection c fun conn => do return (← conn.writeNext e, none)
  | .read c e => s.onConnection c (·.readNext e)
  | .posted =>
    match s.posted with
    | [] => .ok s
    | (c, msg) :: posted => onConnection { s with posted := posted } c fun conn => do return (← conn.send msg, none)
  | .call (.client client msg) => .ok { s with frames := .client client msg :: s.frames }
  | .call (.group msg group) => .ok { s with frames := .group msg [] group [] :: s.frames }
  | .call (.all msg pIgnoreClient) =>
    .ok { s with frames := .all msg pIgnoreClient 0 s.deqConnections.length [] :: s.frames }
  | .update nMaxMessages => .ok { s with frames := .update nMaxMessages 0 :: s.frames }
  | .run toSend =>
    match s.frames with
    | [] => .ok s
    | frame :: rest => s.frameStep rest toSend frame
  | .hold c => .ok { s with held := s.held ++ [some c] }
  | .letGo i => .ok { s with held := s.held.eraseIdx i }

/-- The two threads of a server. -/
def machine : Machine Fault (ServerThreads T) (ServerThreadEvent T) where
  enabled := enabled
  next := next

end ServerThreads

end Netzwerk
