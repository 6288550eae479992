import BackupEngine.Netzwerk.Connection

/-!
# The client from `Connect` on

`client_interface` after `Connect` has returned true: the thread of its io_context runs the handler of `async_connect` and
those `Send` has posted, while the caller goes on calling `Send`. Starting `async_connect` opens the socket, so `IsConnected`
holds from then on. A write begun on a socket that is open but not connected completes with an error.
-/

namespace Netzwerk

open Cpp Transition

/-- How far the connect is: its handler has not run, or it ran without or with an error. -/
inductive Handshake where
  | pending
  | connected
  | refused
  deriving DecidableEq, Repr

/-- A message `Send` accepted; `early` says that the handler of the connect had not run then. -/
structure Accepted (T : Type) where
  msg : Message T
  early : Bool
  deriving DecidableEq, Repr

/-- The client's connection while it connects and afterwards. -/
structure Connecting (T : Type) where
  conn : Connection T
  handshake : Handshake := .pending
  /-- The messages whose handlers wait to be run, the oldest first. -/
  posted : List (Accepted T) := []
  /-- All messages `Send` accepted. -/
  sent : List (Accepted T) := []
  /-- The writes begun on a socket that was not connected, with the message whose handler began each. -/
  unconnected : List (Accepted T × Write) := []
  /-- How many writes have completed with an error. -/
  failed : Nat := 0
  deriving DecidableEq, Repr

/-- A call of `Send`, the handler of the connect, the oldest posted handler, what becomes of an outstanding write, and a read
that completes with an error. -/
inductive ConnectingEvent (T : Type) where
  | send (msg : Message T)
  | connect (ec : Bool)
  | posted
  | transfer (i n : Nat)
  | complete (i : Nat)
  | fail (i : Nat)
  | readFails
  deriving DecidableEq, Repr

/-- The connection `Connect` makes. -/
def Connection.client {T : Type} (self : ConnPtr) (msgTemporaryIn : Message T) : Connection T :=
  { self := self, nOwnerType := .client, isOpen := false, msgTemporaryIn := msgTemporaryIn }

namespace Connecting

variable {T : Type}

/-- `connection::ConnectToServer`, as far as it returns: `async_connect` opens the socket. -/
def connectToServer (c : Connection T) : Connecting T :=
  if c.nOwnerType = .client then { conn := { c with isOpen := true } } else { conn := c }

/-- What a call of `Connect` leaves. -/
def start (self : ConnPtr) (msgTemporaryIn : Message T) : Connecting T :=
  connectToServer (Connection.client self msgTemporaryIn)

/-- `client_interface::IsConnected`. -/
def isConnected (s : Connecting T) : Bool := s.conn.isOpen

/-- `client_interface::Send`. -/
def send (s : Connecting T) (msg : Message T) : Connecting T :=
  if s.isConnected then
    let accepted := ⟨msg, s.handshake == .pending⟩
    { s with posted := s.posted ++ [accepted], sent := s.sent ++ [accepted] }
  else s

/-- The oldest posted handler is run. -/
def runPosted (s : Connecting T) : Comp (Connecting T) :=
  match s.posted with
  | [] => .ok s
  | p :: rest => do
    let c ← s.conn.send p.msg
    let begun := c.writes.drop s.conn.writes.length
    return { s with
      conn := c
      posted := rest
      unconnected := if s.handshake = .connected then s.unconnected else s.unconnected ++ begun.map (p, ·) }

/-- A write that was begun on a socket that was not connected. -/
def Unconnected (s : Connecting T) (i : Nat) : Prop := ∃ w, s.conn.writes[i]? = some w ∧ w ∈ s.unconnected.map (·.2)

section Machine

variable [StandardLayout (MessageHeader T)]

/-- The handler of `async_connect`. -/
def connected (s : Connecting T) (ec : Bool) : Connecting T :=
  if !ec then { s with conn := s.conn.readHeader, handshake := .connected } else { s with handshake := .refused }

/-- Which events can happen. A write begun on a socket that was not connected can only fail. -/
def enabled (s : Connecting T) : ConnectingEvent T → Prop
  | .send _ => True
  | .connect _ => s.handshake = .pending
  | .posted => s.posted ≠ []
  | .transfer i n => s.conn.writeEnabled (.transfer i n) ∧ ¬s.Unconnected i
  | .complete i => s.conn.writeEnabled (.complete i) ∧ ¬s.Unconnected i
  | .fail i => s.conn.writeEnabled (.fail i)
  | .readFails => s.conn.reads ≠ none

/-- What an event does. -/
def next (s : Connecting T) : ConnectingEvent T → Comp (Connecting T)
  | .send msg => .ok (s.send msg)
  | .connect ec => .ok (s.connected ec)
  | .posted => s.runPosted
  | .transfer i n => do return { s with conn := ← s.conn.writeNext (.transfer i n) }
  | .complete i => do return { s with conn := ← s.conn.writeNext (.complete i) }
  | .fail i => do return { s with conn := ← s.conn.writeNext (.fail i), failed := s.failed + 1 }
  | .readFails => .ok { s with conn := { s.conn.close with reads := none } }

/-- The client, its thread and what completes. -/
def machine : Machine Fault (Connecting T) (ConnectingEvent T) where
  enabled := enabled
  next := next

end Machine

/-- The thread makes progress on what was sent: it runs a posted handler, or a write goes on or is completed. -/
def Advances : ConnectingEvent T → Prop
  | .posted => True
  | .transfer _ n => 0 < n
  | .complete _ => True
  | _ => False

end Connecting

end Netzwerk
