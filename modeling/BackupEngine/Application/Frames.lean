import BackupEngine.Application.SceenViewer
import BackupEngine.Engine.Button
import BackupEngine.Engine.Matrices
import BackupEngine.EventSystem.Dispatch

/-!
# Frames

The loop of the scene viewer. In every frame the event of the mouse is brought up to date and handed to the listeners, behind
the events of the wheel that came in since the last frame. `ButtonChecker` tells the buttons on the screen when the left button
of the mouse went down or up, and `DragMover` moves a transform while it is held.

What the system reports of the mouse is the input of a frame, and so is the rectangle of each transform on the screen, which is
computed from the matrices. Nothing is assumed of the operations on floats.
-/

namespace SceenViewer

open Cpp Engine Events Transition

/-- The object a pointer refers to. -/
def pointee {α : Type} (objects : Addr → Option α) (p : Option Addr) : Comp α :=
  match p.bind objects with
  | some object => .ok object
  | none => .error .badAccess

/-- `POINT`. -/
structure POINT where
  x : Int32
  y : Int32
  deriving DecidableEq, Repr

/-- `mouseButtonEvent`, without the members of `Event`. -/
structure MouseButtonEvent where
  LButton : Bool := false
  RButton : Bool := false
  MButton : Bool := false
  LButtonAlt : Bool := false
  RButtonAlt : Bool := false
  MButtonAlt : Bool := false
  mousePosX : Int32 := 0
  mousePosY : Int32 := 0
  mousePosXAlt : Int32 := 0
  mousePosYAlt : Int32 := 0
  deriving DecidableEq, Repr

/-- The events of the program, by their classes: `mouseButtonEvent` and `mouseScrollEvent`. -/
inductive MouseEvent where
  | button (e : MouseButtonEvent)
  | scroll (dir : UInt8)
  deriving DecidableEq, Repr

/-- The listeners of the program. -/
inductive Listener where
  | buttonChecker (c : ButtonChecker)
  | dragMover (c : DragMover)

/-- What the frames read and write: the members of the events and, of the components, the listeners, the renderers and their
cameras, the buttons and their actors, the rectangles of the instances, and the parents and positions of the transforms. -/
structure Stage where
  mouse : Addr → Option MouseEvent
  listeners : Addr → Option Listener
  renderers : Addr → Option DrawableRenderer
  kameras : Addr → Option Kamera
  /-- How many calls of `GetWorldMatrix` there is room for on the stack. -/
  depth : Nat
  parrents : Addr → Option (Option Addr)
  buttons : Addr → Option Button
  klickers : Addr → Option ObjectKlicker
  rects : Addr → Option XMFLOAT4
  positions : Addr → Option XMFLOAT3

/-- The operations on floats the frames need besides those on matrices. -/
structure Arithmetic (M : Type) extends Floats, Matrices M where
  ofInt : Int → FloatBits
  mul : FloatBits → FloatBits → FloatBits

/-- What the system reports in one frame: the states of the keys, the place of the pointer when the loop asks for it, its
place when the buttons are checked, and the rectangles on the screen then. -/
structure FrameInput where
  lButton : UInt16
  rButton : UInt16
  mButton : UInt16
  cursor : POINT
  checked : POINT
  screenPos : Addr → XMFLOAT4

/-- `GetKeyState(..) & 0x80`. -/
def pressed (keyState : UInt16) : Bool := keyState &&& 0x80 != 0

/-! ## The actors and the buttons -/

/-- `objectKlicker::klicked`. -/
def Stage.klicked (s : Stage) (actor : Addr) : Comp Stage := do
  let this ← pointee s.klickers (some actor)
  let klick := !this.klick
  let _ ← pointee s.rects this.inst
  return { s with
    klickers := Function.update s.klickers actor (some { this with klick })
    rects := Function.update s.rects (this.inst.getD 0) (some (if klick then this.onklick.2 else this.onklick.1)) }

/-- A call of a member function of an actor. `objectKlicker` overrides `klicked` only; the others do nothing. -/
def Stage.act (s : Stage) (call : ActorCall × Addr) : Comp Stage := do
  match call.1 with
  | .klicked => s.klicked call.2
  | .akt | .down | .up =>
    let _ ← pointee s.klickers (some call.2)
    return s

/-- `GetWorldMatrix` of a transform, which goes on to its parent. The rectangles on the screen are reported, so that no matrix
is part of a stage: what is left of the call is that every transform on the way has to be there. -/
def Stage.getWorldMatrix (s : Stage) : Nat → Option Addr → Comp Unit
  | 0, _ => .error .badAccess
  | depth + 1, this => do
    match ← pointee s.parrents this with
    | none => return ()
    | some parrent => s.getWorldMatrix depth (some parrent)

/-- `getProjectionMatrix` of a camera, likewise. -/
def Stage.getProjectionMatrix (s : Stage) (kamera : Option Addr) : Comp Unit := do
  let this ← pointee s.kameras kamera
  s.getWorldMatrix s.depth this.transform

section

variable {M : Type} (floats : Arithmetic M)

/-- `checkKlicked` of the button at an address, with the call of `screenPos` and with what its actors do. -/
def Stage.checkKlicked (s : Stage) (call : KlickCall) (b : Addr) : Comp Stage := do
  let this ← pointee s.buttons (some b)
  s.getWorldMatrix s.depth this.transform
  let (button, calls) ← this.checkKlicked floats.toFloats call
  calls.foldlM Stage.act { s with buttons := Function.update s.buttons b (some button) }

/-- `checkButtons`. -/
def Stage.checkButtons (input : FrameInput) (s : Stage) (renderer : Option Addr) (down up : Bool) : Comp Stage := do
  let this ← pointee s.renderers renderer
  if this.buttons.length = 0 then return s
  s.getProjectionMatrix this.currentCamera
  let call : KlickCall := {
    x := input.checked.x.toUInt32.toUInt16
    y := input.checked.y.toUInt32.toUInt16
    screenPos := input.screenPos
    _down := down
    _up := up }
  this.buttons.foldlM (fun s b => s.checkKlicked floats call b) s

/-! ## The listeners -/

/-- `ButtonChecker::onEvent`. -/
def ButtonChecker.onEvent (input : FrameInput) (this : ButtonChecker) (e : MouseEvent) (s : Stage) : Comp (Bool × Stage) := do
  match e with
  | .button m =>
    let s ←
      if m.LButton && !m.LButtonAlt then s.checkButtons floats input this.button true false
      else if !m.LButton && m.LButtonAlt then s.checkButtons floats input this.button false true
      else s.checkButtons floats input this.button false false
    return (false, s)
  | .scroll _ => return (false, s)

/-- `AddPosition` of the transform at an address. -/
def Stage.addPosition (s : Stage) (transform : Option Addr) (v : XMFLOAT3) : Comp Stage := do
  let position ← pointee s.positions transform
  return { s with
    positions := Function.update s.positions (transform.getD 0) (some (Transform.addTo floats.toMatrices position v)) }

/-- `DragMover::onEvent`. -/
def DragMover.onEvent (this : DragMover) (e : MouseEvent) (s : Stage) : Comp (Bool × Stage) := do
  match e with
  | .button m =>
    if m.LButton && m.LButtonAlt then
      let position ← pointee s.positions this.transform
      let x ← int (m.mousePosX.toInt - m.mousePosXAlt.toInt)
      let y ← int (m.mousePosYAlt.toInt - m.mousePosY.toInt)
      let depth := floats.add position.2.2 (floats.ofInt 1)
      let s ← s.addPosition floats this.transform
        (floats.mul (floats.mul (floats.ofInt x) depth) (floats.ofInt 2),
          floats.mul (floats.mul (floats.ofInt y) depth) (floats.ofInt 2), floats.ofInt 0)
      return (true, s)
    else return (false, s)
  | .scroll dir =>
    let s ← s.addPosition floats this.transform (floats.ofInt 0, floats.ofInt 0, floats.ofInt (dir.toNat - 1))
    let position ← pointee s.positions this.transform
    let s ←
      if floats.less position.2.2 (floats.ofInt 0) then
        s.addPosition floats this.transform (floats.ofInt 0, floats.ofInt 0, floats.neg position.2.2)
      else pure s
    return (false, s)

/-- `onEvent` of a listener of the program. The event has to exist: its class is read. -/
def onEvent (input : FrameInput) : OnEvent Stage := fun listener e events s => do
  let _ ← pointee events (some e)
  let event ← pointee s.mouse (some e)
  let (consumed, world) ← match ← pointee s.listeners (some listener) with
    | .buttonChecker this => this.onEvent floats input event s
    | .dragMover this => this.onEvent floats event s
  return { consumed, events, world }

end

/-! ## The loop -/

/-- The event system, the event of the mouse and the last place of the pointer. -/
structure Frames extends Dispatcher Stage where
  e : Addr
  mPoint : POINT

/-- The messages of the window: the wheel was turned, and a new event gets an address; or something else, which no part of the
model sees. -/
inductive WindowMessage where
  | mouseWheel (delta : Int16) (e : Addr)
  | other

/-- The window gets a message, or the loop goes round. -/
inductive FrameEvent where
  | wndProc (message : WindowMessage)
  | frame (input : FrameInput)

namespace Frames

/-- The byte a turn of the wheel gives. -/
def wheelDir (delta : Int16) : UInt8 := UInt8.ofInt (delta.toInt.tdiv 120 + 1)

/-- `WndProc`. -/
def wndProc (s : Frames) : WindowMessage → Frames
  | .mouseWheel delta e =>
    let events := Function.update s.events e (some { usable := false, destroy := true })
    let mouse := Function.update s.world.mouse e (some (.scroll (wheelDir delta)))
    let d : Dispatcher Stage := { s.toDispatcher with events, world := { s.world with mouse } }
    { s with toDispatcher := d.addUpdateTrigger e }
  | .other => s

/-- The event of the mouse after the assignments of a frame. -/
def refreshed (m : MouseButtonEvent) (mPoint : POINT) (input : FrameInput) : MouseButtonEvent where
  LButtonAlt := m.LButton
  RButtonAlt := m.RButton
  MButtonAlt := m.MButton
  LButton := pressed input.lButton
  RButton := pressed input.rButton
  MButton := pressed input.mButton
  mousePosXAlt := mPoint.x
  mousePosYAlt := mPoint.y
  mousePosX := input.cursor.x
  mousePosY := input.cursor.y

variable {M : Type} (floats : Arithmetic M)

/-- The body of the loop, without `Render`. No listener queues an event, so that `update` goes round as often as there are
events in the queue. -/
def frame (s : Frames) (input : FrameInput) : Comp Frames := do
  let _ ← s.deref s.e
  match s.world.mouse s.e with
  | some (.button m) =>
    let mouse := Function.update s.world.mouse s.e (some (.button (refreshed m s.mPoint input)))
    let d := Dispatcher.addUpdateTrigger { s.toDispatcher with world := { s.world with mouse } } s.e
    match ← d.update (onEvent floats input) (d.onNextUpdate.length + 1) with
    | some d => return { s with toDispatcher := d, mPoint := input.cursor }
    | none => .error .badAccess
  | _ => .error .badAccess

/-- What can happen: a new event gets an address that is free, the counter of `update` does not overflow, and the pointer is
at a place whose distance from another one is an `int`. -/
def enabled (s : Frames) : FrameEvent → Prop
  | .wndProc (.mouseWheel _ e) => s.events e = none ∧ s.onNextUpdate.length + 2 < 2 ^ 31
  | .wndProc .other => True
  | .frame input => ∀ z ∈ [input.cursor.x, input.cursor.y], -2 ^ 30 ≤ z.toInt ∧ z.toInt < 2 ^ 30

def next (s : Frames) : FrameEvent → Comp Frames
  | .wndProc message => .ok (s.wndProc message)
  | .frame input => s.frame floats input

/-- The viewer while it runs. -/
def machine : Machine Fault Frames FrameEvent where
  enabled := enabled
  next := next floats

end Frames

end SceenViewer
