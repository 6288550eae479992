import BackupEngine.Lib.Simulation
import BackupEngine.Netzwerk.Connection

/-!
# A connection from end to end

The writing half of one connection, the bytes under way, the reading half of its peer and the consumer that empties the
peer's queue of incoming messages. Each of them goes its own way: `Channel.machine` interleaves the posted `Send` handlers and
the writes of the one end, the arrival of bytes, the reads of the other end, and the messages its `Update` takes.
-/

namespace Netzwerk

open Cpp Transition

/-- The two ends of a connection and how many of the bytes written have arrived. -/
structure Channel (T : Type) where
  sender : Connection T
  arrived : Nat := 0
  receiver : Inbox T

/-- What happens to the writing half, some bytes arrive, the outstanding read completes, or a message is taken off the queue. -/
inductive ChannelEvent (T : Type) where
  | write (e : Connection.WriteEvent T)
  | arrive (n : Nat)
  | read
  | update

namespace Channel

variable {T : Type} [StandardLayout (MessageHeader T)]

/-- Which events can happen: no bytes arrive that were not written. -/
def enabled (s : Channel T) : ChannelEvent T → Prop
  | .write e => s.sender.writeEnabled e
  | .arrive n => s.arrived + n ≤ s.sender.written.length
  | .read => s.receiver.readEnabled
  | .update => s.receiver.qMessagesIn ≠ []

/-- What an event does. -/
def next (s : Channel T) : ChannelEvent T → Comp (Channel T)
  | .write e => do return { s with sender := ← s.sender.writeNext e }
  | .arrive n => .ok { s with
      arrived := s.arrived + n
      receiver := { s.receiver with unread := s.receiver.unread ++ (s.sender.written.drop s.arrived).take n } }
  | .read => do return { s with receiver := ← s.receiver.readNext }
  | .update => do
    let (_, q) ← TsQueue.popFront s.receiver.qMessagesIn
    return { s with receiver := { s.receiver with qMessagesIn := q } }

/-- Both ends of a connection. -/
def machine : Machine Fault (Channel T) (ChannelEvent T) where
  enabled := enabled
  next := next

/-- A new connection and its peer, which waits for the first header. -/
def start (sender peer : Connection T) : Channel T := { sender, receiver := { conn := peer.readHeader, unread := [] } }

omit [StandardLayout (MessageHeader T)] in
/-- The messages given to `Send`, and those handed to `OnMessage`. -/
def see (s : Channel T) : ChannelEvent T → List (Fifo.Event (Message T) (Message T))
  | .write (.send msg) => [.enter msg]
  | .update => s.receiver.qMessagesIn.head?.toList.map fun owned => .leave owned.msg
  | _ => []

/-- The messages sent have their sizes in their headers. -/
def SendsSized (_ : Channel T) (e : ChannelEvent T) : Prop := ∀ msg, e = .write (.send msg) → msg.Sized

end Channel

end Netzwerk
