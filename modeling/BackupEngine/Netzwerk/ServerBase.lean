import BackupEngine.Netzwerk.Message

/-!
# The Message functions of the server

`MessageClient`, `MessageClientGroup` and `MessageAllClients` of `server_interface`. Each of them sends to the connections it
finds open and treats the others as gone: `OnClientDisconnect` is called, the pointer is reset, and the message it returned
is sent to everyone. What the sockets answer and what `OnClientDisconnect` returns comes from a `World`.
-/

namespace Netzwerk

variable {T : Type}

/-- What a Message function does to the outside: a `Send` on a connection, or a call of `OnClientDisconnect`. -/
inductive ServerEvent (T : Type) where
  | send (client : ConnPtr) (msg : Message T)
  | onClientDisconnect (client : Option ConnPtr)
  deriving DecidableEq, Repr

/-- What the Message functions depend on: the answer of each call of `IsConnected`, numbered from the start of the run, and
the message `OnClientDisconnect` returns, which may depend on all that happened before. It does not touch the server. -/
structure World (T : Type) where
  isConnected : Nat → ConnPtr → Bool
  onClientDisconnect : List (ServerEvent T) → Option ConnPtr → Message T

/-- `server_interface`, as far as the Message functions use it: the connections, null where a pointer was reset; how often
`IsConnected` was called; and what was done so far. -/
structure Server (T : Type) where
  deqConnections : List (Option ConnPtr)
  asked : Nat := 0
  log : List (ServerEvent T) := []
  deriving DecidableEq, Repr

namespace Server

variable (w : World T)

/-- `client && client->IsConnected()`. -/
def isConnected (s : Server T) : Option ConnPtr → Bool × Server T
  | none => (false, s)
  | some client => (w.isConnected s.asked client, { s with asked := s.asked + 1 })

/-- `client->Send(msg)`. -/
def send (s : Server T) (client : Option ConnPtr) (msg : Message T) : Server T :=
  { s with log := s.log ++ (client.map (.send · msg)).toList }

/-- A call of `OnClientDisconnect`, with the message it returns. -/
def onClientDisconnect (s : Server T) (client : Option ConnPtr) : Message T × Server T :=
  (w.onClientDisconnect s.log client, { s with log := s.log ++ [.onClientDisconnect client] })

/-- `m_deqConnections.erase(std::remove(.., client), ..)`. -/
def erase (s : Server T) (client : Option ConnPtr) : Server T :=
  { s with deqConnections := s.deqConnections.filter (· ≠ client) }

/-- The loop of `MessageClientGroup` and of `MessageAllClients`, over the elements that are not to be skipped: it leaves the
elements with those that are gone reset, and `afterDisconectSend`. `bInvalidClientExists` is set when something is added to
it. -/
def messageEach (skip : Option ConnPtr → Bool) (msg : Message T) :
    List (Option ConnPtr) → Server T → List (Option ConnPtr) × List (Message T) × Server T
  | [], s => ([], [], s)
  | client :: clients, s =>
    if skip client then
      let (clients, after, s) := messageEach skip msg clients s
      (client :: clients, after, s)
    else
      let (connected, s) := s.isConnected w client
      if connected then
        let (clients, after, s) := messageEach skip msg clients (s.send client msg)
        (client :: clients, after, s)
      else
        let (toSend, s) := s.onClientDisconnect w client
        let (clients, after, s) := messageEach skip msg clients s
        (none :: clients, toSend :: after, s)

/-- `MessageAllClients`, with a bound on the depth of its recursion; none when the bound is reached. -/
def messageAllClientsWithin : Nat → Server T → Message T → Option ConnPtr → Option (Server T)
  | 0, _, _, _ => none
  | depth + 1, s, msg, pIgnoreClient =>
    let (clients, afterDisconectSend, s) := messageEach w (· == pIgnoreClient) msg s.deqConnections s
    let s := { s with deqConnections := clients }
    let bInvalidClientExists := !afterDisconectSend.isEmpty
    if bInvalidClientExists then
      afterDisconectSend.foldlM (fun s msg => messageAllClientsWithin depth s msg none) (s.erase none)
    else some s

/-- `server_interface::MessageAllClients`. Every recursive call comes after an element was removed, so the depth is bounded
by the number of elements. -/
def messageAllClients (s : Server T) (msg : Message T) (pIgnoreClient : Option ConnPtr) : Option (Server T) :=
  messageAllClientsWithin w (s.deqConnections.length + 1) s msg pIgnoreClient

/-- `server_interface::MessageClient`. The pointer is reset before it is looked for in the list. -/
def messageClient (s : Server T) (client : Option ConnPtr) (msg : Message T) : Option (Server T) :=
  let (connected, s) := s.isConnected w client
  if connected then some (s.send client msg)
  else
    let (toSend, s) := s.onClientDisconnect w client
    let client := none
    (s.erase client).messageAllClients w toSend none

/-- `server_interface::MessageClientGroup`. The group is a copy: resetting its pointers leaves the list as it is. -/
def messageClientGroup (s : Server T) (msg : Message T) (group : List (Option ConnPtr)) : Option (Server T) :=
  let (_, afterDisconectSend, s) := messageEach w (fun _ => false) msg group s
  let bInvalidClientExists := !afterDisconectSend.isEmpty
  if bInvalidClientExists then
    afterDisconectSend.foldlM (fun s msg => s.messageAllClients w msg none) (s.erase none)
  else some s

end Server

/-- A call of one of the Message functions. -/
inductive MessageCall (T : Type) where
  | client (client : Option ConnPtr) (msg : Message T)
  | group (msg : Message T) (group : List (Option ConnPtr))
  | all (msg : Message T) (pIgnoreClient : Option ConnPtr)
  deriving DecidableEq, Repr

namespace Server

/-- One call. -/
def call (w : World T) (s : Server T) : MessageCall T → Option (Server T)
  | .client client msg => s.messageClient w client msg
  | .group msg group => s.messageClientGroup w msg group
  | .all msg pIgnoreClient => s.messageAllClients w msg pIgnoreClient

/-- A sequence of calls. -/
def calls (w : World T) (s : Server T) (cs : List (MessageCall T)) : Option (Server T) :=
  cs.foldlM (fun s c => s.call w c) s

/-- The connections `OnClientDisconnect` was called for, in order. -/
def notified (s : Server T) : List ConnPtr :=
  s.log.filterMap fun e => match e with
    | .onClientDisconnect client => client
    | .send _ _ => none

/-- The connections in the list. -/
def conns (s : Server T) : List ConnPtr := s.deqConnections.filterMap id

end Server

end Netzwerk
