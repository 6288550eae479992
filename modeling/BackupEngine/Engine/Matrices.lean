import BackupEngine.Engine.Links
import BackupEngine.Lib.Transition
import BackupEngine.Lib.Forest

/-!
# World and projection matrices

`Transform` and `Kamera` keep the matrix they computed last, and a flag that says whether it has to be computed again. The
matrix of a transform is its own one only: those of the parents are multiplied at every call. The operations on floats and
matrices are those of the library, and nothing is assumed of them.
-/

namespace Engine

open Cpp Serializer Transition

/-- The operations on floats and matrices. -/
structure Matrices (M : Type) where
  add : FloatBits → FloatBits → FloatBits
  neg : FloatBits → FloatBits
  half : FloatBits → FloatBits
  translation : FloatBits → FloatBits → FloatBits → M
  rotationX : FloatBits → M
  rotationY : FloatBits → M
  rotationZ : FloatBits → M
  scaling : FloatBits → FloatBits → FloatBits → M
  multiply : M → M → M
  orthographicOffCenterLH : FloatBits → FloatBits → FloatBits → FloatBits → FloatBits → FloatBits → M
  perspectiveOffCenterLH : FloatBits → FloatBits → FloatBits → FloatBits → FloatBits → FloatBits → M

/-- A `Transform` with its matrix. -/
structure MatrixTransform (M : Type) extends Transform where
  matrix : M

/-- A `Kamera` with its matrix. -/
structure MatrixKamera (M : Type) extends Kamera where
  projectionMatrix : M

namespace Transform

variable {M : Type} (ops : Matrices M)

/-- `+=`, member by member. -/
def addTo (v w : XMFLOAT3) : XMFLOAT3 := (ops.add v.1 w.1, ops.add v.2.1 w.2.1, ops.add v.2.2 w.2.2)

def setRotation (x y z : FloatBits) (this : Transform) : Transform := { this with rotation := (x, y, z), dirty := true }

def addPosition (v : XMFLOAT3) (this : Transform) : Transform :=
  { this with position := addTo ops this.position v, dirty := true }

def addRotation (v : XMFLOAT3) (this : Transform) : Transform :=
  { this with rotation := addTo ops this.rotation v, dirty := true }

def addScale (v : XMFLOAT3) (this : Transform) : Transform := { this with scale := addTo ops this.scale v, dirty := true }

/-- The matrix of the transform itself, from its fields. -/
def localMatrix (this : Transform) : M :=
  let translation := ops.translation this.position.1 this.position.2.1 this.position.2.2
  let rotationX := ops.rotationX this.rotation.1
  let rotationY := ops.rotationY this.rotation.2.1
  let rotationZ := ops.rotationZ this.rotation.2.2
  let scale := ops.scaling this.scale.1 this.scale.2.1 this.scale.2.2
  ops.multiply (ops.multiply (ops.multiply (ops.multiply rotationX rotationY) rotationZ) translation) scale

end Transform

namespace MatrixTransform

variable {M : Type} (ops : Matrices M)

/-- The part of `GetWorldMatrix` before the parent: the matrix is computed again if the flag says so. -/
def refresh (this : MatrixTransform M) : MatrixTransform M :=
  if this.dirty then { this with matrix := this.localMatrix ops, dirty := false } else this

/-- The body of `GetWorldMatrix`, over the transforms and a call for the parent. The pointer is a place in the list. -/
def worldBody (call : Addr × List (MatrixTransform M) → Comp (Option (M × List (MatrixTransform M)))) :
    Addr × List (MatrixTransform M) → Comp (Option (M × List (MatrixTransform M)))
  | (this, ts) => do
    let t ← elemAt ts this
    let t := t.refresh ops
    let ts ← setAt ts this t
    match t.parrent with
    | none => return some (t.matrix, ts)
    | some parrent =>
      match ← call (parrent, ts) with
      | none => return none
      | some (world, ts) => return some (ops.multiply t.matrix world, ts)

/-- `GetWorldMatrix`, with how deep its calls may go. -/
def getWorldMatrix (depth : Nat) (this : Addr) (ts : List (MatrixTransform M)) :
    Comp (Option (M × List (MatrixTransform M))) := Forest.within (worldBody ops) depth (this, ts)

end MatrixTransform

namespace Kamera

variable {M : Type} (ops : Matrices M)

def setProjection (screenWidth screenHeigth maxViewDist minViewDist : FloatBits) (this : Kamera) : Kamera :=
  { this with screenWidth, screenHeigth, maxViewDist, minViewDist, projectionDirty := true }

def setOrthogonal (value : Bool) (this : Kamera) : Kamera := { this with orthogonal := value, projectionDirty := true }

/-- The projection, from the fields. -/
def projection (this : Kamera) : M :=
  let screenWidthH := ops.half this.screenWidth
  let screenHeigthH := ops.half this.screenHeigth
  if this.orthogonal then ops.orthographicOffCenterLH (ops.neg screenWidthH) screenWidthH (ops.neg screenHeigthH)
    screenHeigthH this.minViewDist this.maxViewDist
  else ops.perspectiveOffCenterLH (ops.neg screenWidthH) screenWidthH (ops.neg screenHeigthH) screenHeigthH
    this.minViewDist this.maxViewDist

end Kamera

namespace MatrixKamera

variable {M : Type} (ops : Matrices M)

/-- The first part of `getProjectionMatrix`. -/
def refresh (this : MatrixKamera M) : MatrixKamera M :=
  if this.projectionDirty then { this with projectionMatrix := this.projection ops, projectionDirty := false } else this

end MatrixKamera

/-- Transforms and the cameras that are on some of them. -/
structure View (M : Type) where
  transforms : List (MatrixTransform M)
  kameras : List (MatrixKamera M)

/-- The calls. Those that take a vector exist with three floats too. A `set` is given the body it reads from, and the value of
`m_parrent` is assigned. -/
inductive ViewCall where
  | setPosition (this : Addr) (position : XMFLOAT3)
  | setRotation (this : Addr) (rotation : XMFLOAT3)
  | setScale (this : Addr) (scale : XMFLOAT3)
  | addPosition (this : Addr) (position : XMFLOAT3)
  | addRotation (this : Addr) (rotation : XMFLOAT3)
  | addScale (this : Addr) (scale : XMFLOAT3)
  | set (this : Addr) (inFrom : SerializedObject) (w : World)
  | assignParrent (this : Addr) (parrent : Option Addr)
  | getWorldMatrix (this : Addr)
  | setProjection (this : Nat) (screenWidth screenHeigth maxViewDist minViewDist : FloatBits)
  | setOrthogonal (this : Nat) (value : Bool)
  | setKamera (this : Nat) (inFrom : SerializedObject) (w : World)
  | getProjectionMatrix (this : Nat)

namespace View

variable {M : Type} (ops : Matrices M)

/-- Where the pointers to parents lead. -/
def parrentOf (s : View M) (this : Addr) : Option Addr := (s.transforms[this]?).bind (·.parrent)

/-- A member of a transform is called that leaves the matrix alone. -/
def onTransform (s : View M) (this : Addr) (f : Transform → Comp Transform) : Comp (View M) := do
  let t ← elemAt s.transforms this
  let fields ← f t.toTransform
  let transforms ← setAt s.transforms this { t with toTransform := fields }
  return { s with transforms }

/-- A member of a camera is called that leaves the matrix alone. -/
def onKamera (s : View M) (this : Nat) (f : Kamera → Comp Kamera) : Comp (View M) := do
  let k ← elemAt s.kameras this
  let fields ← f k.toKamera
  let kameras ← setAt s.kameras this { k with toKamera := fields }
  return { s with kameras }

/-- `GetWorldMatrix` of a transform. The calls go no deeper than there are transforms unless the pointers lead in a circle. -/
def getWorldMatrix (s : View M) (this : Addr) : Comp (M × View M) := do
  match ← MatrixTransform.getWorldMatrix ops s.transforms.length this s.transforms with
  | none => .error .badAccess
  | some (world, transforms) => return (world, { s with transforms })

/-- `getProjectionMatrix` of a camera. -/
def getProjectionMatrix (s : View M) (this : Nat) : Comp (M × View M) := do
  let k ← elemAt s.kameras this
  let k := k.refresh ops
  let kameras ← setAt s.kameras this k
  match k.transform with
  | none => .error .badAccess
  | some transform =>
    let (world, s) ← View.getWorldMatrix ops { s with kameras } transform
    return (ops.multiply world k.projectionMatrix, s)

/-- What a call leaves. -/
def next (s : View M) : ViewCall → Comp (View M)
  | .setPosition this v => s.onTransform this fun t => return t.setPosition v.1 v.2.1 v.2.2
  | .setRotation this v => s.onTransform this fun t => return t.setRotation v.1 v.2.1 v.2.2
  | .setScale this v => s.onTransform this fun t => return t.setScale v.1 v.2.1 v.2.2
  | .addPosition this v => s.onTransform this fun t => return t.addPosition ops v
  | .addRotation this v => s.onTransform this fun t => return t.addRotation ops v
  | .addScale this v => s.onTransform this fun t => return t.addScale ops v
  | .set this inFrom w => s.onTransform this fun t => do return (← t.set (inFrom, w)).1
  | .assignParrent this parrent => s.onTransform this fun t => return { t with parrent := parrent }
  | .getWorldMatrix this => do return (← View.getWorldMatrix ops s this).2
  | .setProjection this w h maxDist minDist => s.onKamera this fun k => return k.setProjection w h maxDist minDist
  | .setOrthogonal this value => s.onKamera this fun k => return k.setOrthogonal value
  | .setKamera this inFrom w => s.onKamera this fun k => do return (← k.set (inFrom, w)).1
  | .getProjectionMatrix this => do return (← View.getProjectionMatrix ops s this).2

/-- The pointers to parents are to transforms of the set and lead in no circle. -/
structure Acyclic (s : View M) : Prop where
  stored : ∀ this parrent, s.parrentOf this = some parrent → parrent < s.transforms.length
  noCircle : ∀ n this, Forest.ancestor s.parrentOf (n + 1) this ≠ some this

/-- The calls in any order, each of which leaves the pointers acyclic. -/
def machine : Machine Fault (View M) ViewCall where
  enabled := fun s call => ∀ t, s.next ops call = .ok t → t.Acyclic
  next := fun s call => s.next ops call

end View

end Engine
