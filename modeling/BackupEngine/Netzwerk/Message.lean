import BackupEngine.Cpp.Bytes

/-!
# Messages

A message is a header, which names its kind and the size of its body, and the body, a vector of bytes. `T` is the program's
type of kinds.
-/

namespace Netzwerk

open Cpp

/-- `message_header`. -/
structure MessageHeader (T : Type) where
  id : T
  size : UInt32 := 0
  deriving DecidableEq, Repr

instance {T : Type} [Inhabited T] : Inhabited (MessageHeader T) := ⟨{ id := default }⟩

/-- `message`. -/
structure Message (T : Type) where
  header : MessageHeader T
  body : List UInt8 := []
  deriving DecidableEq, Repr

/-- A default `message`: the header value-initialised, no body. -/
instance {T : Type} [Inhabited T] : Inhabited (Message T) := ⟨{ header := default }⟩

/-- A `connection*`, as a shared pointer or as `this`. -/
abbrev ConnPtr := Nat

/-- `owned_message`: a message and the connection it came in on, null on the client's side. -/
structure OwnedMessage (T : Type) where
  remote : Option ConnPtr
  msg : Message T
  deriving DecidableEq, Repr

/-- The layout of a header whose kind is an enumeration over `uint32_t`: the kind, then the size. -/
instance : StandardLayout (MessageHeader UInt32) where
  sizeof := sizeof (UInt32 × UInt32)
  toBytes := fun h => toBytes (h.id, h.size)
  ofBytes := fun bs => let p : UInt32 × UInt32 := ofBytes bs; { id := p.1, size := p.2 }
  length_toBytes := fun _ => StandardLayout.length_toBytes _
  ofBytes_toBytes := fun h => by simp
  sizeof_pos := by decide

namespace Message

variable {T : Type}

/-- `message::operator<<`: the bytes of a value go to the end of the body. The size is a `uint32_t`. -/
def push {α : Type} [StandardLayout α] (msg : Message T) (data : α) : Message T :=
  let body := msg.body ++ toBytes data
  { header := { msg.header with size := UInt32.ofNat body.length }, body := body }

/-- `message::operator>>`: a value is taken from the end of the body. The offset is a `size_t`. -/
def pop (α : Type) [StandardLayout α] (msg : Message T) : Comp (α × Message T) := do
  let i := sizeT (msg.body.length - sizeof α)
  let data ← copyFrom msg.body i (sizeof α)
  let body ← resize msg.body i 0
  return (ofBytes data, { header := { msg.header with size := UInt32.ofNat body.length }, body := body })

/-- The size in the header is the size of the body. -/
def Sized (msg : Message T) : Prop := msg.header.size.toNat = msg.body.length

instance (msg : Message T) : Decidable msg.Sized := inferInstanceAs (Decidable (_ = _))

section Encode

variable [StandardLayout (MessageHeader T)]

/-- The bytes of a message on the wire: its header, then its body. -/
def encode (msg : Message T) : List UInt8 := toBytes msg.header ++ msg.body

/-- The bytes of messages sent one after the other. -/
def encodeAll (msgs : List (Message T)) : List UInt8 := msgs.flatMap encode

@[simp] theorem encodeAll_nil : encodeAll ([] : List (Message T)) = [] := rfl

@[simp] theorem encodeAll_cons (msg : Message T) (msgs : List (Message T)) :
    encodeAll (msg :: msgs) = msg.encode ++ encodeAll msgs := rfl

@[simp] theorem encodeAll_append (msgs msgs' : List (Message T)) :
    encodeAll (msgs ++ msgs') = encodeAll msgs ++ encodeAll msgs' := List.flatMap_append

end Encode

end Message

end Netzwerk
