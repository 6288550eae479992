import BackupEngine.Engine.Components
import BackupEngine.Lib.Transition

/-!
# Clicks

`Button::checkKlicked`: what a button makes of a report of the mouse, a place on the screen and whether the button of the mouse
went down or up. The rectangle the button covers on the screen is computed with `float`s from matrices; it is an argument
here, and so is the comparison of `float`s.
-/

namespace Engine

open Cpp Transition

/-- What `checkKlicked` needs of `float`: the conversion of a coordinate, and `<`. -/
structure Floats where
  ofUInt16 : UInt16 → FloatBits
  less : FloatBits → FloatBits → Bool

/-- The member functions of `Button::ButtonActor`. -/
inductive ActorCall where
  | akt
  | klicked
  | down
  | up
  deriving DecidableEq, Repr

/-- The arguments of a call of `checkKlicked`. `screenPos` is the rectangle of a transform under the camera and the view port
of the call. -/
structure KlickCall where
  x : UInt16
  y : UInt16
  screenPos : Addr → XMFLOAT4
  _down : Bool
  _up : Bool

namespace Button

variable (floats : Floats)

/-- A loop over the actors that calls one member function of each. -/
def each (this : Button) (call : ActorCall) : List (ActorCall × Addr) := this.payload.map fun actor => (call, actor)

/-- The test whether a place on the screen lies in a rectangle. -/
def inside (x y : UInt16) (rect : XMFLOAT4) : Bool :=
  floats.less (floats.ofUInt16 x) rect.1 && floats.less rect.2.1 (floats.ofUInt16 y) &&
    floats.less rect.2.2.1 (floats.ofUInt16 x) && floats.less (floats.ofUInt16 y) rect.2.2.2

/-- The object `transform` points to. -/
def transformAt (this : Button) : Comp Addr :=
  match this.transform with
  | some transform => .ok transform
  | none => .error .badAccess

/-- `Button::checkKlicked`, with the calls it makes, in their order. -/
def checkKlicked (this : Button) (call : KlickCall) : Comp (Button × List (ActorCall × Addr)) := do
  let transform ← this.transformAt
  if inside floats call.x call.y (call.screenPos transform) then
    if call._down then
      let calls := this.each .akt ++ this.each .down
      if this.up then return ({ this with up := false, down := false }, calls ++ this.each .klicked)
      else return ({ this with down := true }, calls)
    else if call._up then
      let calls := this.each .akt ++ this.each .up
      if this.down then return ({ this with up := false, down := false }, calls ++ this.each .klicked)
      else return ({ this with up := true }, calls)
    else return (this, [])
  else return ({ this with up := false, down := false }, [])

end Button

/-- What a call reported to a button and which actors it called `klicked` on. -/
structure Report where
  inside : Bool
  _down : Bool
  _up : Bool
  klicked : List Addr
  deriving DecidableEq, Repr

/-- A button, and the calls of `checkKlicked` so far. -/
structure Klicking where
  button : Button
  past : List Report := []
  deriving DecidableEq

namespace Klicking

variable (floats : Floats)

/-- Whether a call has the pointer over the button. -/
def inside (s : Klicking) (call : KlickCall) : Bool :=
  match s.button.transformAt with
  | .ok transform => Button.inside floats call.x call.y (call.screenPos transform)
  | .error _ => false

/-- One call of `checkKlicked`, noted down. -/
def next (s : Klicking) (call : KlickCall) : Comp Klicking := do
  let (button, calls) ← s.button.checkKlicked floats call
  let klicked := calls.filterMap fun c => if c.1 = .klicked then some c.2 else none
  return { button, past := s.past ++ [{ inside := s.inside floats call, _down := call._down, _up := call._up, klicked }] }

/-- The button as a machine: any call can come next. -/
def machine : Machine Fault Klicking KlickCall where
  enabled := fun _ _ => True
  next := next floats

end Klicking

end Engine
