import BackupEngine.Serializer.Serializer

/-!
# Sequences of values

The operators as a program uses them: any sequence of values is pushed, and popped in reverse order into variables, which
hold something before. A value may itself be a `SerializedObject` that such a sequence has built.
-/

namespace Serializer

open Cpp

section Operators

variable {α : Type} [StandardLayout α]

/-- `operator>>` of a standard-layout value, into the variable `data`. -/
def popTo (data : α) (msg : SerializedObject) : Comp (α × SerializedObject) := do
  let i := sizeT (msg.length - sizeof α)
  let bytes ← copyFrom msg i (sizeof α)
  let bytes ← copyTo (toBytes data) 0 bytes
  let body ← resize msg i 0
  return (ofBytes bytes, body)

/-- `operator>>` of a `std::string`, into the variable `data`. -/
def popStringTo (data : List UInt8) (msg : SerializedObject) : Comp (List UInt8 × SerializedObject) := do
  let ende := Int32.ofNat msg.length
  let nameSize : Int32 := ofBytes (← copyFrom msg (ende.toInt - sizeof Int32) (sizeof Int32))
  let data ← resize data (sizeT nameSize.toInt) 0
  let name ← copyFrom msg (ende.toInt - sizeof Int32 - nameSize.toInt) data.length
  let data ← copyTo data 0 name
  let body ← resize msg (sizeT (ende.toInt - sizeof Int32 - nameSize.toInt)) 0
  return (data, body)

/-- `operator<<` of a `SerializedObject`: its body, then the length of it as a `size_t`. -/
def pushObject (msg data : SerializedObject) : Comp SerializedObject := do
  let start := msg.length
  let bodySize := data.length
  let body ← resize msg (sizeT (start + bodySize + sizeof UInt64)) 0
  let body ← copyTo body start data
  copyTo body (start + bodySize) (toBytes (UInt64.ofNat bodySize))

/-- `operator>>` of a `SerializedObject`, into the variable `data`. -/
def popObject (data msg : SerializedObject) : Comp (SerializedObject × SerializedObject) := do
  let ende := msg.length
  let bodySize : UInt64 := ofBytes (← copyFrom msg (ende - sizeof UInt64) (sizeof UInt64))
  let data ← resize data bodySize.toNat 0
  let bytes ← copyFrom msg (ende - sizeof UInt64 - bodySize.toNat) data.length
  let data ← copyTo data 0 bytes
  let body ← resize msg (sizeT (ende - sizeof UInt64 - bodySize.toNat)) 0
  return (data, body)

end Operators

/-! ## Values -/

/-- The types of variables that are popped into. -/
inductive Kind : Type 1 where
  | data (α : Type) [layout : StandardLayout α]
  | string
  | object

/-- A variable of the type. -/
def Kind.Var : Kind → Type
  | data α => α
  | string => List UInt8
  | object => SerializedObject

/-- `operator>>` for the type: what the variable `x` holds after it, and the body. -/
def Kind.pop : (k : Kind) → k.Var → SerializedObject → Comp (k.Var × SerializedObject)
  | data α, x, msg => popTo (α := α) x msg
  | string, x, msg => popStringTo x msg
  | object, x, msg => popObject x msg

/-- A value that is pushed: a value of standard layout, a string, a C string, which has no zero in it, or an object that was
built on a body by a sequence of values. -/
inductive Value : Type 1 where
  | data {α : Type} [layout : StandardLayout α] (a : α)
  | string (s : List UInt8)
  | cString (s : List UInt8) (hs : 0 ∉ s)
  | object (body : SerializedObject) (values : List Value)

namespace Value

/-- The type of variable that matches. -/
def kind : Value → Kind
  | data (α := α) _ => .data α
  | string _ => .string
  | cString _ _ => .string
  | object _ _ => .object

mutual

/-- `operator<<` of the value. -/
def push : Value → SerializedObject → Comp SerializedObject
  | data a, msg => Serializer.push msg a
  | string s, msg => pushString msg s
  | cString s _, msg => pushCString msg s
  | object body values, msg => do
    let data ← pushAll values body
    pushObject msg data

/-- The values pushed one after the other. -/
def pushAll : List Value → SerializedObject → Comp SerializedObject
  | [], msg => .ok msg
  | v :: vs, msg => do
    let msg ← v.push msg
    pushAll vs msg

end

mutual

/-- How many bytes the value takes. -/
def size : Value → Nat
  | data (α := α) _ => sizeof α
  | string s => s.length + sizeof Int32
  | cString s _ => s.length + sizeof Int32
  | object body values => body.length + sizes values + sizeof UInt64

def sizes : List Value → Nat
  | [] => 0
  | v :: vs => v.size + sizes vs

end

/-- The variable holds the value. -/
def Is : (v : Value) → v.kind.Var → Prop
  | data a, x => x = a
  | string s, x => x = s
  | cString s _, x => x = s
  | object body values, x => pushAll values body = .ok x

end Value

/-! ## Sequences -/

/-- A variable for each of the types. -/
def Vars : List Kind → Type
  | [] => Unit
  | k :: ks => k.Var × Vars ks

/-- The variables popped one after the other, the last of them first. -/
def popAll : (ks : List Kind) → Vars ks → SerializedObject → Comp (Vars ks × SerializedObject)
  | [], xs, msg => .ok (xs, msg)
  | k :: ks, (x, xs), msg => do
    let (xs, msg) ← popAll ks xs msg
    let (x, msg) ← k.pop x msg
    return ((x, xs), msg)

/-- Each of the variables holds its value. -/
def Same : (vs : List Value) → Vars (vs.map Value.kind) → Prop
  | [], _ => True
  | v :: vs, (x, xs) => v.Is x ∧ Same vs xs

end Serializer
