import BackupEngine.Netzwerk.ClientBase

/-!
# Starting and stopping the server

`Start` and `Stop` of `server_interface`, with the thread of its io_context. A handler is one of a connection, or the one of
`WaitForClientConnection`, which waits for the next client whatever it was called with, behind the first read of the client it
lets in.
-/

namespace Netzwerk

open Transition

/-- An operation on the context of a server. -/
inductive ServerOperation where
  | accept
  | conn (op : Operation)
  deriving DecidableEq, Repr

/-- A handler on the context of a server. That of an accept comes with what `OnClientRequestConnect` answers. -/
inductive ServerHandler where
  | accepted (ec request : Bool)
  | conn (h : Handler)
  deriving DecidableEq, Repr

/-- The operation the handler completes. -/
def ServerHandler.operation : ServerHandler → Option ServerOperation
  | .accepted _ _ => some .accept
  | .conn h => h.operation.map .conn

/-- How a call of `Start` ends: an exception from `WaitForClientConnection`, one from the constructor of the thread, or
neither. -/
inductive StartOutcome where
  | acceptThrows
  | threadThrows
  | returns
  deriving DecidableEq, Repr

/-- Where the caller is in `Stop`. -/
inductive StopPlace where
  | outside
  | stopping
  | joining
  deriving DecidableEq, Repr

/-- `server_interface`, as far as `Start` and `Stop` and the handlers use it; `result` is what the last `Start` returned, none
after a `Stop`. -/
structure ServerContext where
  context : IoContext ServerOperation ServerHandler := {}
  /-- How many connections were made. -/
  made : Nat := 0
  messagesOut : ConnPtr → List Bool := fun _ => []
  place : StopPlace := .outside
  result : Option Bool := none

/-- A call of `Start`, a call of `Stop`, the two things `Stop` does, a handler that becomes ready, and a step of the thread. -/
inductive StartEvent where
  | start (outcome : StartOutcome)
  | stopCalled
  | stop
  | join
  | ready (h : ServerHandler)
  | thread (e : RunStep)
  deriving DecidableEq, Repr

namespace ServerContext

/-- `WaitForClientConnection`. -/
def waitForClientConnection (s : ServerContext) : ServerContext := { s with context := s.context.initiate [.accept] }

/-- `server_interface::Start`. -/
def start (s : ServerContext) : StartOutcome → Except Terminated ServerContext
  | .acceptThrows => .ok { s with result := some false }
  | .threadThrows => .ok { s.waitForClientConnection with result := some false }
  | .returns => do
    let s := s.waitForClientConnection
    return { s with context := ← s.context.start, result := some true }

/-- The operations a handler begins: that of an accept waits for the next client. -/
def begins (s : ServerContext) : ServerHandler → List ServerOperation
  | .accepted ec request => (if !ec && request then [.conn ⟨s.made, .read⟩] else []) ++ [.accept]
  | .conn h => (h.begins (s.messagesOut h.conn)).map .conn

/-- What a handler does with the connections and their queues. -/
def handled (s : ServerContext) : ServerHandler → ServerContext
  | .accepted ec _ => if ec then s else { s with made := s.made + 1 }
  | .conn h => { s with messagesOut := Function.update s.messagesOut h.conn (h.leaves (s.messagesOut h.conn)) }

/-- A step of the thread; a handler it takes is run. -/
def threadStep (s : ServerContext) (e : RunStep) : ServerContext :=
  let t := { s with context := s.context.next s.begins e }
  match e, s.context.ready with
  | .handle, h :: _ => t.handled h
  | _, _ => t

/-- A handler becomes ready: its operation completes, or it is posted. -/
def becomesReady (s : ServerContext) (h : ServerHandler) : ServerContext :=
  match h.operation with
  | some op => { s with context := s.context.complete op h }
  | none => { s with context := s.context.post h }

def enabled (s : ServerContext) : StartEvent → Prop
  | .start _ => s.place = .outside ∧ s.result = none
  | .stopCalled => s.place = .outside
  | .stop => s.place = .stopping
  | .join => s.place = .joining ∧ s.context.Joinable
  | .ready h => ∀ op, h.operation = some op → op ∈ s.context.pending
  | .thread e => s.context.enabled e

def next (s : ServerContext) : StartEvent → Except Terminated ServerContext
  | .start outcome => s.start outcome
  | .stopCalled => .ok { s with place := .stopping }
  | .stop => .ok { s with context := s.context.stop, place := .joining }
  | .join => .ok { s with context := s.context.join, place := .outside, result := none }
  | .ready h => .ok (s.becomesReady h)
  | .thread e => .ok (s.threadStep e)

/-- The server, its thread and what completes. A `Start` comes first or after a `Stop`. -/
def machine : Machine Terminated ServerContext StartEvent where
  enabled := enabled
  next := next

end ServerContext

namespace StartEvent

/-- The calls among the events, with what they return. -/
def calls (events : List StartEvent) : List Call :=
  events.filterMap fun e => match e with
    | .start outcome => some (.opens (outcome == .returns))
    | .stopCalled => some .closes
    | _ => none

end StartEvent

end Netzwerk
