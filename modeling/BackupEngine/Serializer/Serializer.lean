import BackupEngine.Cpp.World
import BackupEngine.Lib.ByteStack

/-!
# The serialized object

`SerializedObject` is a vector of bytes with stream operators: `<<` puts the bytes of a value at its end, `>>` takes them
from its end. A string is followed by its length; the string operators compute with `int` where the others compute with
`size_t`.
-/

namespace Serializer

open Cpp

/-- `SerializedObject`: its body. -/
abbrev SerializedObject := List UInt8

section Operators

variable {α : Type} [StandardLayout α]

/-- `operator<<` of a standard-layout value. -/
def push (msg : SerializedObject) (data : α) : Comp SerializedObject := do
  let i := msg.length
  let body ← resize msg (i + sizeof α) 0
  copyTo body i (toBytes data)

/-- `operator>>` of a standard-layout value. -/
def pop (msg : SerializedObject) : Comp (α × SerializedObject) := do
  let i := sizeT (msg.length - sizeof α)
  let data ← copyFrom msg i (sizeof α)
  let body ← resize msg i 0
  return (ofBytes data, body)

/-- The common body of the two string operators: the characters, then their number. -/
def pushChars (msg : SerializedObject) (data : List UInt8) : Comp SerializedObject := do
  let start := Int32.ofNat msg.length
  let nameSize := Int32.ofNat data.length
  let sum ← int (start.toInt + nameSize.toInt)
  let body ← resize msg (sizeT (sum + sizeof Int32)) 0
  let name ← copyFrom data 0 (sizeT nameSize.toInt)
  let body ← copyTo body start.toInt name
  copyTo body (start.toInt + nameSize.toInt) (toBytes nameSize)

/-- `operator<<` of a `std::string`. -/
def pushString (msg : SerializedObject) (data : List UInt8) : Comp SerializedObject := pushChars msg data

/-- `operator<<` of a `const char*`: `data` is what stands before the terminating zero. -/
def pushCString (msg : SerializedObject) (data : List UInt8) : Comp SerializedObject := pushChars msg data

/-- `operator>>` of a `std::string`. -/
def popString (msg : SerializedObject) : Comp (List UInt8 × SerializedObject) := do
  let ende := Int32.ofNat msg.length
  let nameSize : Int32 := ofBytes (← copyFrom msg (ende.toInt - sizeof Int32) (sizeof Int32))
  let data ← resize ([] : List UInt8) (sizeT nameSize.toInt) 0
  let data ← copyFrom msg (ende.toInt - sizeof Int32 - nameSize.toInt) data.length
  let body ← resize msg (sizeT (ende.toInt - sizeof Int32 - nameSize.toInt)) 0
  return (data, body)

end Operators

/-! ## Streams

The members `set` and `serialize` of a class are written over the operators; they run on a body and may touch heap and
disk. -/

/-- A computation over a body. -/
abbrev Ser (α : Type) := ByteStack.Stack Fault UInt8 World α

/-- `inTo << data`. -/
def write {α : Type} [StandardLayout α] (data : α) : Ser Unit := fun (msg, w) => do return ((), ← push msg data, w)

/-- `from >> data`. -/
def read (α : Type) [StandardLayout α] : Ser α := fun (msg, w) => do
  let (data, msg) ← pop msg
  return (data, msg, w)

def writeString (data : List UInt8) : Ser Unit := fun (msg, w) => do return ((), ← pushString msg data, w)

def writeCString (data : List UInt8) : Ser Unit := fun (msg, w) => do return ((), ← pushCString msg data, w)

def readString : Ser (List UInt8) := fun (msg, w) => do
  let (data, msg) ← popString msg
  return (data, msg, w)

/-- A step outside the body. -/
def outside {α : Type} (f : World → Comp (α × World)) : Ser α := fun (msg, w) => do
  let (a, w) ← f w
  return (a, msg, w)

/-- A computation that does not depend on body or world. -/
def lift {α : Type} (c : Comp α) : Ser α := fun s => do return (← c, s)

/-- `int size = n; for (int i = size - 1; i > -1; i--) body(i);` -/
def forDown (n : Nat) (body : Nat → Ser Unit) : Ser Unit := do
  let size := Int32.ofNat n
  let _ ← lift (int (size.toInt - 1))
  (List.range size.toInt.toNat).reverse.forM body

/-- `for (int i = 0; i < size; i++)`, for a body that does not use `i`. -/
def forUp {γ : Type} (size : Int32) (body : γ → Ser γ) (c : γ) : Ser γ := ByteStack.loop size.toInt.toNat body c

/-- The same loop with a bound of type `size_t`, which `i` is compared with as a `size_t`. -/
def forUpTo {γ : Type} (size : UInt64) (body : γ → Ser γ) (c : γ) : Ser γ := do
  let c ← ByteStack.loop (min size.toNat (2 ^ 31)) body c
  let _ ← lift (int (min size.toNat (2 ^ 31)))
  return c

/-- How the classes push a vector: its elements from the last to the first, then their number. -/
def writeAll {α : Type} (out : α → Ser Unit) (xs : List α) : Ser Unit := do
  forDown xs.length fun i => do
    let x ← lift (elemAt xs i)
    out x
  write (Int32.ofNat xs.length)

/-- How they pop one, behind the elements it has. -/
def readAll {α : Type} (next : Ser α) (xs : List α) : Ser (List α) := do
  let size ← read Int32
  forUp size (fun xs => do
    let x ← next
    return xs ++ [x]) xs

end Serializer
