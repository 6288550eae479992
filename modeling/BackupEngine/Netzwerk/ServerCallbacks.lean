import BackupEngine.Netzwerk.ServerThreads

/-!
# The callbacks of the server

Which of the virtual functions `OnClientRequestConnect`, `OnClientConnect`, `OnClientDisconnect` and `OnMessage` a server
calls, in order. The handler of `WaitForClientConnection` is taken apart into what it does one after the other: while it runs,
the thread of the io_context does nothing else, and the other thread goes on.
-/

namespace Netzwerk

open Cpp Transition

/-- A call of a virtual function, with the connection it is for. -/
inductive Callback where
  | onClientRequestConnect (client : ConnPtr) (answer : Bool)
  | onClientConnect (client : Option ConnPtr)
  | onClientDisconnect (client : Option ConnPtr)
  | onMessage (client : Option ConnPtr)
  deriving DecidableEq, Repr

/-- Where the handler of `WaitForClientConnection` is: it is not running, or it has been told to let the connection in and is
about to push it, to call `ConnectToClient` or to call `OnClientConnect`. -/
inductive Accepting where
  | waiting
  | pushing (newconn : ConnPtr)
  | connecting
  | announcing
  deriving DecidableEq, Repr

/-- A server with its two threads, and the callbacks made so far. -/
structure ServerCallbacks (T : Type) where
  threads : ServerThreads T
  accepting : Accepting := .waiting
  log : List Callback := []

/-- A connection is accepted, the handler that accepts it goes on, or anything else happens on one of the threads. -/
inductive ServerCallbackEvent (T : Type) where
  | accepted (msgTemporaryIn : Message T) (request keep : Bool)
  | accepting
  | thread (e : ServerThreadEvent T)

variable {T : Type}

namespace ServerThreads

/-- What the next step of a call calls. -/
def frameCalls (s : ServerThreads T) : Frame T → Option Callback
  | .client client _ => if s.isConnected client then none else some (.onClientDisconnect client)
  | .group _ _ (client :: _) _ => if s.isConnected client then none else some (.onClientDisconnect client)
  | .group _ _ [] _ => none
  | .all _ pIgnoreClient i size _ =>
    if i < size then
      s.deqConnections[i]?.bind fun client =>
        if client ≠ pIgnoreClient ∧ s.isConnected client = false then some (.onClientDisconnect client) else none
    else none
  | .after _ _ => none
  | .update nMaxMessages nMessageCount =>
    if nMessageCount < nMaxMessages then s.qMessagesIn.head?.map fun msg => .onMessage msg.remote else none
  | .onMessage _ _ _ => none

/-- What an event calls. -/
def callbacks (s : ServerThreads T) : ServerThreadEvent T → List Callback
  | .run _ => (s.frames.head?.bind s.frameCalls).toList
  | _ => []

/-- `m_deqConnections.back()`. -/
def back (s : ServerThreads T) : Comp (Option ConnPtr) :=
  match s.deqConnections.getLast? with
  | some client => .ok client
  | none => .error .badAccess

end ServerThreads

/-- The event happens on the thread of the io_context. -/
def ServerThreadEvent.OnContext : ServerThreadEvent T → Prop
  | .accepted _ _ _ | .write _ _ | .read _ _ | .posted => True
  | .call _ | .update _ | .run _ | .hold _ | .letGo _ => False

/-- The event is the handler that accepts a connection, taken as one. -/
def ServerThreadEvent.Accepts : ServerThreadEvent T → Prop
  | .accepted _ _ _ => True
  | _ => False

namespace ServerCallbacks

variable [StandardLayout (MessageHeader T)]

/-- The handler that accepts a connection runs to its end before the thread of the io_context runs another one. -/
def enabled (s : ServerCallbacks T) : ServerCallbackEvent T → Prop
  | .accepted _ _ _ => s.accepting = .waiting
  | .accepting => s.accepting ≠ .waiting
  | .thread e => s.threads.enabled e ∧ ¬e.Accepts ∧ (e.OnContext → s.accepting = .waiting)

/-- The new connection is made, and `OnClientRequestConnect` is called for it. -/
def accepted (s : ServerCallbacks T) (msgTemporaryIn : Message T) (request keep : Bool) : ServerCallbacks T where
  -- Up to here a connection that is let in is treated like one that is turned away.
  threads := s.threads.accept msgTemporaryIn false keep
  accepting := if request then .pushing s.threads.made else .waiting
  log := s.log ++ [.onClientRequestConnect s.threads.made request]

/-- What the handler does for a connection that is let in. -/
def accept (s : ServerCallbacks T) : Comp (ServerCallbacks T) :=
  match s.accepting with
  | .waiting => .ok s
  | .pushing newconn => .ok { s with
      threads := { s.threads with deqConnections := s.threads.deqConnections ++ [some newconn] }
      accepting := .connecting }
  | .connecting => do
    match ← s.threads.back with
    | some c => return { s with
        threads := { s.threads with
          conns := Function.update s.threads.conns c ((s.threads.conns c).connectToClient s.threads.nIDCounter)
          nIDCounter := s.threads.nIDCounter + 1 }
        accepting := .announcing }
    | none => .error .badAccess
  | .announcing => do
    let client ← s.threads.back
    return { s with accepting := .waiting, log := s.log ++ [.onClientConnect client] }

def next (s : ServerCallbacks T) : ServerCallbackEvent T → Comp (ServerCallbacks T)
  | .accepted msgTemporaryIn request keep => .ok (s.accepted msgTemporaryIn request keep)
  | .accepting => s.accept
  | .thread e => do
    let threads ← s.threads.next e
    return { s with threads, log := s.log ++ s.threads.callbacks e }

/-- The two threads of a server and the callbacks. -/
def machine : Machine Fault (ServerCallbacks T) (ServerCallbackEvent T) where
  enabled := enabled
  next := next

end ServerCallbacks

end Netzwerk
