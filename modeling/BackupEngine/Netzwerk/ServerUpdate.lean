import BackupEngine.Netzwerk.Connection

/-!
# The server's queue of incoming messages

The connections of a server push their messages onto one queue, from the thread of the io_context; `Update` takes them off
on another thread. The machine `Intake.machine` interleaves the two: a completed read is one step, and a step of the consumer
is one operation on the queue with the local code up to the next one.
-/

namespace Netzwerk

open Cpp Transition

variable {T : Type}

/-- What can happen to the reading half of one connection: the server starts it, its outstanding read completes with the
bytes read, or with an error. -/
inductive ReadEvent where
  | connectToClient (uid : UInt32)
  | done (bytes : List UInt8)
  | fail
  deriving DecidableEq, Repr

namespace Connection

variable [StandardLayout (MessageHeader T)]

/-- A connection is started once, and only an outstanding read completes. -/
def readEnabled (c : Connection T) : ReadEvent → Prop
  | .connectToClient _ => c.reads = none
  | .done bytes => ∃ part, c.reads = some (part, bytes.length)
  | .fail => c.reads ≠ none

/-- What an event does to the connection, and what it adds to the queue of incoming messages. -/
def readNext (c : Connection T) : ReadEvent → Comp (Connection T × Option (OwnedMessage T))
  | .connectToClient uid => .ok (c.connectToClient uid, none)
  | .done bytes =>
    match c.reads with
    | some (part, _) => c.readDone part bytes
    | none => .ok (c, none)
  | .fail => .ok ({ c with reads := none }.close, none)

/-- The events of a connection taken by itself: the connection they leave, and the messages it handed on, in order. -/
def feed (c : Connection T) (events : List ReadEvent) : Comp (Connection T × List (OwnedMessage T)) :=
  events.foldlM (fun p e => do
    let (c, owned) ← p.1.readNext e
    return (c, p.2 ++ owned.toList)) (c, [])

end Connection

/-- Where the thread that calls `Update` is: outside, about to test the queue, or about to take a message off it.
`nMessageCount` is the local counter. -/
inductive Consumer where
  | outside
  | testing (nMaxMessages nMessageCount : Nat)
  | popping (nMaxMessages nMessageCount : Nat)
  deriving DecidableEq, Repr

/-- A call of `Update` and the calls of `OnMessage` it made. -/
structure UpdateCall (T : Type) where
  nMaxMessages : Nat
  made : List (OwnedMessage T) := []

/-- A server while it takes messages in: its connections, the queue and the consumer; what was pushed onto the queue so far,
the calls of `OnMessage` made so far, those of the current `Update`, and the calls of `Update` that have returned. -/
structure Intake (T : Type) where
  conns : ConnPtr → Connection T
  qMessagesIn : List (OwnedMessage T) := []
  consumer : Consumer := .outside
  pushed : List (OwnedMessage T) := []
  onMessage : List (OwnedMessage T) := []
  made : List (OwnedMessage T) := []
  finished : List (UpdateCall T) := []

/-- What can happen: something to the reading half of a connection, a call of `Update`, or a step of the consumer. -/
inductive IntakeEvent where
  | conn (c : ConnPtr) (e : ReadEvent)
  | update (nMaxMessages : Nat)
  | consume
  deriving DecidableEq, Repr

namespace Intake

/-- `Update` returns. -/
def finish (s : Intake T) (nMaxMessages : Nat) : Intake T :=
  { s with
    consumer := .outside
    made := []
    finished := s.finished ++ [{ nMaxMessages := nMaxMessages, made := s.made }] }

/-- The loop head of `Update`: the counter is compared with the limit, and the queue is tested next. -/
def loopHead (s : Intake T) (nMaxMessages nMessageCount : Nat) : Intake T :=
  if nMessageCount < nMaxMessages then { s with consumer := .testing nMaxMessages nMessageCount }
  else s.finish nMaxMessages

/-- `!m_qMessagesIn.empty()`, and what follows it. -/
def testQueue (s : Intake T) (nMaxMessages nMessageCount : Nat) : Intake T :=
  if !TsQueue.empty s.qMessagesIn then { s with consumer := .popping nMaxMessages nMessageCount }
  else s.finish nMaxMessages

/-- `m_qMessagesIn.pop_front()`, the call of `OnMessage`, and the loop head. -/
def popMessage (s : Intake T) (nMaxMessages nMessageCount : Nat) : Comp (Intake T) := do
  let (msg, q) ← TsQueue.popFront s.qMessagesIn
  return loopHead { s with qMessagesIn := q, onMessage := s.onMessage ++ [msg], made := s.made ++ [msg] }
    nMaxMessages (nMessageCount + 1)

variable [StandardLayout (MessageHeader T)]

/-- Which events can happen. -/
def enabled (s : Intake T) : IntakeEvent → Prop
  | .conn c e => (s.conns c).readEnabled e
  | .update _ => s.consumer = .outside
  | .consume => s.consumer ≠ .outside

/-- What an event does. -/
def next (s : Intake T) : IntakeEvent → Comp (Intake T)
  | .conn c e => do
    let (conn, owned) ← (s.conns c).readNext e
    return { s with
      conns := Function.update s.conns c conn
      qMessagesIn := owned.toList.foldl TsQueue.pushBack s.qMessagesIn
      pushed := s.pushed ++ owned.toList }
  | .update nMaxMessages => .ok (s.loopHead nMaxMessages 0)
  | .consume =>
    match s.consumer with
    | .outside => .ok s
    | .testing nMaxMessages nMessageCount => .ok (s.testQueue nMaxMessages nMessageCount)
    | .popping nMaxMessages nMessageCount => s.popMessage nMaxMessages nMessageCount

/-- The server taking messages in. -/
def machine : Machine Fault (Intake T) IntakeEvent where
  enabled := enabled
  next := next

end Intake

/-- The events of one connection in a run of the server. -/
def eventsOf (c : ConnPtr) (events : List IntakeEvent) : List ReadEvent :=
  events.filterMap fun e => match e with
    | .conn c' e => if c' = c then some e else none
    | .update _ => none
    | .consume => none

end Netzwerk
