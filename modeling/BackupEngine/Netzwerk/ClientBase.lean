import BackupEngine.Netzwerk.IoContext
import BackupEngine.Netzwerk.Message

/-!
# The client

`Connect` and `Disconnect` of `client_interface`, with the thread of its io_context. `Disconnect` is taken apart into what it
reads and does one after the other, so that the handlers the thread runs can come in between.

A connection is known by the number it was made as. The destructor of a connection, which would close its socket, does not
run: `m_connection.release()` gives the pointer up. Of its handlers is kept what they do with the socket and with
`m_qMessagesOut`, and which operations they begin; a read is one of a header or of a body, since the same follows from both.
-/

namespace Netzwerk

open Transition

/-- The asynchronous operations of a connection. -/
inductive OperationKind where
  | connect
  | read
  | writeHeader
  | writeBody
  deriving DecidableEq, Repr

structure Operation where
  conn : ConnPtr
  kind : OperationKind
  deriving DecidableEq, Repr

/-- What a handler is the completion of, with whether there was an error, or what was posted: a `Send` of a message with or
without a body, or the close of the socket. -/
inductive HandlerKind where
  | completed (op : OperationKind) (ec : Bool)
  | send (body : Bool)
  | close
  deriving DecidableEq, Repr

/-- A handler that has captured the `this` of a connection. -/
structure Handler where
  conn : ConnPtr
  kind : HandlerKind
  deriving DecidableEq, Repr

/-- The handler calls `m_socket.close()`: the posted one does, and those of reads and writes do on an error. -/
def HandlerKind.closes : HandlerKind → Bool
  | .completed .connect _ => false
  | .completed _ ec => ec
  | .send _ => false
  | .close => true

namespace Handler

/-- The operation the handler completes; a posted one completes none. -/
def operation (h : Handler) : Option Operation :=
  match h.kind with
  | .completed op _ => some ⟨h.conn, op⟩
  | .send _ | .close => none

/-- The operations the handler begins. Of each message in `m_qMessagesOut`, `out` says whether it has a body. -/
def begins (h : Handler) (out : List Bool) : List Operation :=
  match h.kind with
  | .completed .connect ec => if ec then [] else [⟨h.conn, .read⟩]
  | .completed .read ec => if ec then [] else [⟨h.conn, .read⟩]
  | .completed .writeHeader ec =>
    if ec then []
    else if out.head? = some true then [⟨h.conn, .writeBody⟩]
    else if out.tail ≠ [] then [⟨h.conn, .writeHeader⟩]
    else []
  | .completed .writeBody ec => if ec then [] else if out.tail ≠ [] then [⟨h.conn, .writeHeader⟩] else []
  | .send _ =>
    let bWritingMessage := !out.isEmpty
    if !bWritingMessage then [⟨h.conn, .writeHeader⟩] else []
  | .close => []

/-- What the handler leaves of `m_qMessagesOut`. -/
def leaves (h : Handler) (out : List Bool) : List Bool :=
  match h.kind with
  | .completed .writeHeader ec => if ec then out else if out.head? = some true then out else out.tail
  | .completed .writeBody ec => if ec then out else out.tail
  | .send body => out ++ [body]
  | .completed .connect _ | .completed .read _ | .close => out

end Handler

/-- How a call of `Connect` ends: an exception before the connection is made, one from the constructor of the thread, or
neither. -/
inductive Outcome where
  | resolveThrows
  | threadThrows
  | returns
  deriving DecidableEq, Repr

/-- Where the caller is in `Disconnect`. -/
inductive DisconnectPlace where
  | outside
  | asking
  | askingAgain
  | posting
  | stopping
  | joining
  | releasing
  deriving DecidableEq, Repr

/-- `client_interface`, with the sockets of all connections it has made; `result` is what the last `Connect` returned, none
after a `Disconnect`. -/
structure ClientInterface where
  context : IoContext Operation Handler := {}
  connection : Option ConnPtr := none
  made : Nat := 0
  isOpen : ConnPtr → Bool := fun _ => false
  /-- Of each message in the queues of the connections, whether it has a body. -/
  messagesOut : ConnPtr → List Bool := fun _ => []
  place : DisconnectPlace := .outside
  result : Option Bool := none

/-- A call of `Connect`, a call of `Disconnect`, what `Disconnect` does one after the other, a handler that becomes ready, and
a step of the thread. -/
inductive ClientEvent where
  | connect (outcome : Outcome)
  | disconnect
  | ask
  | askAgain
  | post
  | stop
  | join
  | release
  | ready (h : Handler)
  | thread (e : RunStep)
  deriving DecidableEq, Repr

namespace ClientInterface

/-- `client_interface::IsConnected`. -/
def isConnected (s : ClientInterface) : Bool :=
  match s.connection with
  | some c => s.isOpen c
  | none => false

/-- `m_connection = make_unique<connection<T>>(..)` and `ConnectToServer`, which opens the socket to connect it. A connect that
fails leaves it open. -/
def connectToServer (s : ClientInterface) : ClientInterface :=
  { s with
    context := s.context.initiate [⟨s.made, .connect⟩]
    connection := some s.made
    made := s.made + 1
    isOpen := Function.update s.isOpen s.made true }

/-- `client_interface::Connect`. -/
def connect (s : ClientInterface) : Outcome → Except Terminated ClientInterface
  | .resolveThrows => .ok { s with result := some false }
  | .threadThrows => .ok { s.connectToServer with result := some false }
  | .returns => do
    let s := s.connectToServer
    return { s with context := ← s.context.start, result := some true }

/-- The body of a handler: what it does with its socket and its queue. -/
def handled (s : ClientInterface) (h : Handler) : ClientInterface :=
  { s with
    isOpen := if h.kind.closes then Function.update s.isOpen h.conn false else s.isOpen
    messagesOut := Function.update s.messagesOut h.conn (h.leaves (s.messagesOut h.conn)) }

/-- The operations a handler begins. -/
def begins (s : ClientInterface) (h : Handler) : List Operation := h.begins (s.messagesOut h.conn)

/-- A step of the thread; a handler it takes is run. -/
def threadStep (s : ClientInterface) (e : RunStep) : ClientInterface :=
  let t := { s with context := s.context.next s.begins e }
  match e, s.context.ready with
  | .handle, h :: _ => t.handled h
  | _, _ => t

/-- A handler becomes ready: its operation completes, or it is posted. -/
def becomesReady (s : ClientInterface) (h : Handler) : ClientInterface :=
  match h.operation with
  | some op => { s with context := s.context.complete op h }
  | none => { s with context := s.context.post h }

def enabled (s : ClientInterface) : ClientEvent → Prop
  | .connect _ => s.place = .outside ∧ s.result = none
  | .disconnect => s.place = .outside
  | .ask => s.place = .asking
  | .askAgain => s.place = .askingAgain
  | .post => s.place = .posting
  | .stop => s.place = .stopping
  | .join => s.place = .joining ∧ s.context.Joinable
  | .release => s.place = .releasing
  | .ready h => ∀ op, h.operation = some op → op ∈ s.context.pending
  | .thread e => s.context.enabled e

def next (s : ClientInterface) : ClientEvent → Except Terminated ClientInterface
  | .connect outcome => s.connect outcome
  | .disconnect => .ok { s with place := .asking }
  | .ask => .ok { s with place := if s.isConnected then .askingAgain else .stopping }
  | .askAgain => .ok { s with place := if s.isConnected then .posting else .stopping }
  | .post => .ok { s with
      context := (s.connection.map fun c => s.context.post ⟨c, .close⟩).getD s.context
      place := .stopping }
  | .stop => .ok { s with context := s.context.stop, place := .joining }
  | .join => .ok { s with context := s.context.join, place := .releasing }
  | .release => .ok { s with connection := none, place := .outside, result := none }
  | .ready h => .ok (s.becomesReady h)
  | .thread e => .ok (s.threadStep e)

/-- The client, its thread and what completes. A `Connect` comes first or after a `Disconnect`. -/
def machine : Machine Terminated ClientInterface ClientEvent where
  enabled := enabled
  next := next

end ClientInterface

namespace ClientEvent

/-- The calls among the events, with what they return. -/
def calls (events : List ClientEvent) : List Call :=
  events.filterMap fun e => match e with
    | .connect outcome => some (.opens (outcome == .returns))
    | .disconnect => some .closes
    | _ => none

end ClientEvent

end Netzwerk
