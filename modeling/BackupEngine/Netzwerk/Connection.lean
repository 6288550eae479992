import BackupEngine.Lib.Transition
import BackupEngine.Netzwerk.Message
import BackupEngine.Netzwerk.TsQueue

/-!
# One connection

The handlers of `connection`, run one at a time on the thread of its io_context, and the two halves of the connection as
machines. `Connection.writer` interleaves the posted `Send` handlers with what asio does to the outstanding writes;
`Inbox.reader` completes the outstanding read whenever the bytes it waits for have arrived.
-/

namespace Netzwerk

open Cpp Transition

/-- `connection::owner`. -/
inductive Owner where
  | server
  | client
  deriving DecidableEq, Repr

/-- The part of a message a read or a write covers. -/
inductive Part where
  | header
  | body
  deriving DecidableEq, Repr

/-- An outstanding `async_write`. Its buffer lies in a message of the queue: the one that was at the front after `msg`
messages had left it. `done` bytes of the buffer have gone out. -/
structure Write where
  part : Part
  msg : Nat
  done : Nat := 0
  deriving DecidableEq, Repr

/-- `connection`, with its socket: whether it is open, the outstanding writes and the outstanding read with the number of
bytes it asks for, and the bytes written so far. -/
structure Connection (T : Type) where
  self : ConnPtr
  nOwnerType : Owner := .server
  id : UInt32 := 0
  isOpen : Bool := true
  qMessagesOut : List (Message T) := []
  /-- How many messages have left `qMessagesOut`. -/
  popped : Nat := 0
  writes : List Write := []
  /-- How many writes were started. -/
  started : Nat := 0
  written : List UInt8 := []
  msgTemporaryIn : Message T
  reads : Option (Part × Nat) := none
  deriving DecidableEq, Repr

/-- `connection::GetID`. -/
def Connection.getID {T : Type} (this : Connection T) : UInt32 := this.id

/-- The bytes of a part of a message. -/
def Part.bytes {T : Type} [StandardLayout (MessageHeader T)] : Part → Message T → List UInt8
  | .header, m => toBytes m.header
  | .body, m => m.body

namespace Connection

variable {T : Type}

/-! ## Writing -/

/-- `asio::async_write` of a part of the front message. -/
def asyncWrite (c : Connection T) (part : Part) : Connection T :=
  { c with writes := c.writes ++ [{ part := part, msg := c.popped }], started := c.started + 1 }

/-- `connection::WriteHeader`. -/
def writeHeader (c : Connection T) : Comp (Connection T) := do
  let _ ← TsQueue.front c.qMessagesOut
  return c.asyncWrite .header

/-- `connection::WriteBody`. -/
def writeBody (c : Connection T) : Comp (Connection T) := do
  let _ ← TsQueue.front c.qMessagesOut
  return c.asyncWrite .body

/-- `m_qMessagesOut.pop_front()`. -/
def popOut (c : Connection T) : Comp (Connection T) := do
  let (_, q) ← TsQueue.popFront c.qMessagesOut
  return { c with qMessagesOut := q, popped := c.popped + 1 }

/-- The handler `Send` posts. -/
def send (c : Connection T) (msg : Message T) : Comp (Connection T) :=
  let bWritingMessage := !TsQueue.empty c.qMessagesOut
  let c := { c with qMessagesOut := TsQueue.pushBack c.qMessagesOut msg }
  if !bWritingMessage then c.writeHeader else .ok c

/-- The handler of `WriteHeader`, called without an error. -/
def headerWritten (c : Connection T) : Comp (Connection T) := do
  let front ← TsQueue.front c.qMessagesOut
  if front.body.length > 0 then c.writeBody
  else
    let c ← c.popOut
    if !TsQueue.empty c.qMessagesOut then c.writeHeader else return c

/-- The handler of `WriteBody`, called without an error. -/
def bodyWritten (c : Connection T) : Comp (Connection T) := do
  let c ← c.popOut
  if !TsQueue.empty c.qMessagesOut then c.writeHeader else return c

/-- What every handler does when it is called with an error. -/
def close (c : Connection T) : Connection T := { c with isOpen := false }

/-- The handler of a write that completes without an error. -/
def wrote (c : Connection T) : Part → Comp (Connection T)
  | .header => c.headerWritten
  | .body => c.bodyWritten

/-- What can happen to the writing half: a posted `Send` runs, an outstanding write transfers some bytes, completes with or
without an error, or the socket is closed. -/
inductive WriteEvent (T : Type) where
  | send (msg : Message T)
  | transfer (i n : Nat)
  | complete (i : Nat)
  | fail (i : Nat)
  | close
  deriving DecidableEq, Repr

section Writer

variable [StandardLayout (MessageHeader T)]

/-- The bytes the buffer of a write covers. The buffer of a message that has left the queue is gone. -/
def buffer (c : Connection T) (w : Write) : Comp (List UInt8) :=
  if w.msg < c.popped then .error .badAccess
  else do
    let m ← elemAt c.qMessagesOut (w.msg - c.popped)
    return w.part.bytes m

/-- A write whose buffer can be read, with the bytes of it that have not gone out; any write whose buffer cannot. -/
def Left (c : Connection T) (w : Write) (p : Nat → Prop) : Prop :=
  match c.buffer w with
  | .ok bytes => w.done ≤ bytes.length ∧ p (bytes.length - w.done)
  | .error _ => True

/-- Which events can happen: a write transfers bytes it still has, and completes without an error when none is left. -/
def writeEnabled (c : Connection T) : WriteEvent T → Prop
  | .send _ => True
  | .transfer i n => c.isOpen = true ∧ ∃ w, c.writes[i]? = some w ∧ c.Left w (n ≤ ·)
  | .complete i => ∃ w, c.writes[i]? = some w ∧ c.Left w (· = 0)
  | .fail i => i < c.writes.length
  | .close => True

instance (c : Connection T) (w : Write) (p : Nat → Prop) [DecidablePred p] : Decidable (c.Left w p) :=
  match h : c.buffer w with
  | .ok bytes => decidable_of_iff (w.done ≤ bytes.length ∧ p (bytes.length - w.done)) (by rw [Left, h])
  | .error _ => isTrue (by rw [Left, h]; trivial)

instance (c : Connection T) (e : WriteEvent T) : Decidable (c.writeEnabled e) :=
  match e with
  | .send _ => isTrue trivial
  | .transfer i n => inferInstanceAs (Decidable (c.isOpen = true ∧ ∃ w ∈ c.writes[i]?, c.Left w (n ≤ ·)))
  | .complete i => inferInstanceAs (Decidable (∃ w ∈ c.writes[i]?, c.Left w (· = 0)))
  | .fail i => inferInstanceAs (Decidable (i < c.writes.length))
  | .close => isTrue trivial

/-- What an event does. -/
def writeNext (c : Connection T) : WriteEvent T → Comp (Connection T)
  | .send msg => c.send msg
  | .transfer i n => do
    let w ← elemAt c.writes i
    let bytes ← c.buffer w
    return { c with
      written := c.written ++ (bytes.drop w.done).take n
      writes := c.writes.set i { w with done := w.done + n } }
  | .complete i => do
    let w ← elemAt c.writes i
    { c with writes := c.writes.eraseIdx i }.wrote w.part
  | .fail i => .ok ({ c with writes := c.writes.eraseIdx i }.close)
  | .close => .ok c.close

/-- The writing half of a connection. -/
def writer : Machine Fault (Connection T) (WriteEvent T) where
  enabled := writeEnabled
  next := writeNext

end Writer

/-- The messages whose `Send` handlers ran, in order. -/
def sends (events : List (WriteEvent T)) : List (Message T) :=
  events.filterMap fun e => match e with
    | .send msg => some msg
    | _ => none

/-- The writes that completed with an error. -/
def failures (events : List (WriteEvent T)) : Nat :=
  events.countP fun e => match e with
    | .fail _ => true
    | _ => false

theorem sends_append (events more : List (WriteEvent T)) : sends (events ++ more) = sends events ++ sends more :=
  List.filterMap_append

theorem failures_append (events more : List (WriteEvent T)) :
    failures (events ++ more) = failures events + failures more := List.countP_append

/-! ## Reading -/

section Reader

variable [StandardLayout (MessageHeader T)]

/-- `connection::ReadHeader`. -/
def readHeader (c : Connection T) : Connection T :=
  { c with reads := some (.header, sizeof (MessageHeader T)) }

/-- `connection::ReadBody`. -/
def readBody (c : Connection T) : Connection T :=
  { c with reads := some (.body, c.msgTemporaryIn.body.length) }

/-- The connection an incoming message is handed on with: itself on the server's side, null on the client's. -/
def remote (c : Connection T) : Option ConnPtr := if c.nOwnerType = .server then some c.self else none

/-- `connection::AddToIncomingMessageQueue`: the message goes to the queue, and the next header is read. -/
def addToIncomingMessageQueue (c : Connection T) : Connection T × OwnedMessage T :=
  (c.readHeader, { remote := c.remote, msg := c.msgTemporaryIn })

/-- The handler of `ReadHeader`, called without an error, and what it adds to the incoming queue. -/
def headerRead (c : Connection T) (bytes : List UInt8) : Comp (Connection T × Option (OwnedMessage T)) := do
  let c := { c with msgTemporaryIn := { c.msgTemporaryIn with header := ofBytes bytes } }
  if c.msgTemporaryIn.header.size > 0 then
    let body ← resize c.msgTemporaryIn.body c.msgTemporaryIn.header.size.toNat 0
    return (readBody { c with msgTemporaryIn := { c.msgTemporaryIn with body := body } }, none)
  else
    let (c, owned) := c.addToIncomingMessageQueue
    return (c, some owned)

/-- The handler of `ReadBody`, called without an error; the bytes have filled the body. -/
def bodyRead (c : Connection T) (bytes : List UInt8) : Connection T × Option (OwnedMessage T) :=
  let (c, owned) := addToIncomingMessageQueue { c with msgTemporaryIn := { c.msgTemporaryIn with body := bytes } }
  (c, some owned)

/-- The completion of a read of a part, with the bytes read. -/
def readDone (c : Connection T) (part : Part) (bytes : List UInt8) : Comp (Connection T × Option (OwnedMessage T)) :=
  let c := { c with reads := none }
  match part with
  | .header => c.headerRead bytes
  | .body => .ok (c.bodyRead bytes)

/-- `connection::ConnectToClient`. -/
def connectToClient (c : Connection T) (uid : UInt32) : Connection T :=
  if c.nOwnerType = .server then
    if c.isOpen then readHeader { c with id := uid } else c
  else c

end Reader

end Connection

/-- The reading half of a connection: the connection, the bytes that have arrived and were not read, and the queue its
messages go to. -/
structure Inbox (T : Type) where
  conn : Connection T
  unread : List UInt8
  qMessagesIn : List (OwnedMessage T) := []
  deriving DecidableEq, Repr

namespace Inbox

variable {T : Type} [StandardLayout (MessageHeader T)]

/-- The outstanding read completes when all the bytes it asks for are there. -/
def readEnabled (s : Inbox T) : Prop :=
  match s.conn.reads with
  | some (_, n) => n ≤ s.unread.length
  | none => False

instance (s : Inbox T) : Decidable s.readEnabled :=
  match h : s.conn.reads with
  | some (_, n) => decidable_of_iff (n ≤ s.unread.length) (by rw [readEnabled, h])
  | none => isFalse (by rw [readEnabled, h]; exact id)

/-- The outstanding read takes the bytes it asks for, and its handler runs. -/
def readNext (s : Inbox T) : Comp (Inbox T) :=
  match s.conn.reads with
  | some (part, n) => do
    let (conn, owned) ← s.conn.readDone part (s.unread.take n)
    return { conn := conn, unread := s.unread.drop n, qMessagesIn := s.qMessagesIn ++ owned.toList }
  | none => .ok s

/-- The reading half of a connection, whose one event is the completion of its read. -/
def reader : Machine Fault (Inbox T) Unit where
  enabled := fun s _ => s.readEnabled
  next := fun s _ => s.readNext

end Inbox

end Netzwerk
