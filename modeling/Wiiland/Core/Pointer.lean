/-
Stateful integer pointer tracking for desktop profiles.
-/
import Mathlib.Data.Vector.Defs
import Wiiland.Core.Config
import Wiiland.Lib.Wrap

namespace Wiiland

def pointerLeft : BitVec 8 := 1
def pointerRight : BitVec 8 := 2
def pointerUp : BitVec 8 := 4
def pointerDown : BitVec 8 := 8

structure IrPoint where
  valid : Bool := false
  x : Int := 0
  y : Int := 0
deriving DecidableEq, Repr

structure IrFrame where
  points : Vector IrPoint 4
deriving DecidableEq, Repr

structure PointerDelta where
  dx : Int := 0
  dy : Int := 0
deriving DecidableEq, Repr

def scaledDelta (start finish speed : Int) : Int :=
  Wrap.i32 ((Wrap.i32 (finish - start) * speed).tdiv 64)

def applyDeadzone (delta deadzone : Int) : Int :=
  if deadzone ≠ 0 ∧ Wrap.i32 delta.natAbs < deadzone then 0 else delta

/-- The cast to 32 bits binds tighter than the division by 100. -/
def smoothAxis (previous current smoothing : Int) : Int :=
  if smoothing = 0 then current
  else (Wrap.i32 (previous * smoothing +
    current * Wrap.i32 (100 - smoothing))).tdiv 100

/-- The source's truncating midpoint of two coordinates. -/
def midpoint (first second : Int) : Int := (Wrap.i32 (first + second)).tdiv 2

def squaredDistance (first second : IrPoint) : Int :=
  let dx := first.x - second.x
  let dy := first.y - second.y
  Wrap.i64 (Wrap.i64 (dx * dx) + Wrap.i64 (dy * dy))

/-- The best pair found so far: its two indices and its squared distance. -/
structure IrPair where
  a : Nat := 0
  b : Nat := 1
  best : Int := -1
deriving DecidableEq, Repr

def IrPair.consider (points : List IrPoint) (pair : IrPair) (i j : Nat) :
    IrPair :=
  let distance := squaredDistance (points.getD i {}) (points.getD j {})
  if pair.best < distance then ⟨i, j, distance⟩ else pair

/-- The two nested loops over `i < j`, keeping the first farthest pair. -/
def farthestPair (points : List IrPoint) : IrPair :=
  (List.range points.length).foldl
    (fun pair i => (List.range' (i + 1) (points.length - (i + 1))).foldl
      (fun pair j => pair.consider points i j) pair) {}

def selectIrPoint (frame : IrFrame) (tracking : IrTracking) : Option IrPoint :=
  let points := frame.points.toList.filter IrPoint.valid
  let count : Int := points.length
  if points.length = 0 then none
  else match tracking with
    | .first => some (points.getD 0 {})
    | .centroid =>
        let x := points.foldl (fun sum point => sum + point.x) 0
        let y := points.foldl (fun sum point => sum + point.y) 0
        some ⟨true, Wrap.i32 (x.tdiv count), Wrap.i32 (y.tdiv count)⟩
    | .dual =>
        if points.length = 1 then some (points.getD 0 {})
        else
          let pair := farthestPair points
          let a := points.getD pair.a {}
          let b := points.getD pair.b {}
          some ⟨true, midpoint a.x b.x, midpoint a.y b.y⟩

structure PointerState where
  pointerKeys : BitVec 8
  speed : Int
  dx : Int
  dy : Int
  irActive : Bool
  irX : Int
  irY : Int
  irSpeed : Int
  irDeadzone : Int
  irSmoothing : Int
  tracking : IrTracking
deriving DecidableEq, Repr

namespace PointerState

def new (speed irSpeed irDeadzone irSmoothing : Int) (tracking : IrTracking) :
    PointerState :=
  { pointerKeys := 0, speed, dx := 0, dy := 0, irActive := false, irX := 0,
    irY := 0, irSpeed, irDeadzone, irSmoothing, tracking }

def velocity (pointer : PointerState) : PointerDelta :=
  ⟨pointer.dx, pointer.dy⟩

def refreshVelocity (pointer : PointerState) : PointerState :=
  let has (bit : BitVec 8) : Bool := pointer.pointerKeys &&& bit != 0
  let dx := 0
  let dy := 0
  let dx := if has pointerLeft then Wrap.i32 (dx - pointer.speed) else dx
  let dx := if has pointerRight then Wrap.i32 (dx + pointer.speed) else dx
  let dy := if has pointerUp then Wrap.i32 (dy - pointer.speed) else dy
  let dy := if has pointerDown then Wrap.i32 (dy + pointer.speed) else dy
  { pointer with dx, dy }

def updateKey (pointer : PointerState) (bit : BitVec 8) (pressed : Bool) :
    PointerState × PointerDelta :=
  let pointerKeys := if pressed then pointer.pointerKeys ||| bit
    else pointer.pointerKeys &&& ~~~bit
  let pointer := { pointer with pointerKeys }.refreshVelocity
  (pointer, pointer.velocity)

/-- One fixed-rate D-pad tick. -/
def tick (pointer : PointerState) : PointerDelta := pointer.velocity

def resetIr (pointer : PointerState) : PointerState :=
  { pointer with irActive := false, irX := 0, irY := 0 }

def reset (pointer : PointerState) : PointerState :=
  { pointer with pointerKeys := 0, dx := 0, dy := 0 }.resetIr

def selectIr (pointer : PointerState) (frame : IrFrame) : Option IrPoint :=
  selectIrPoint frame pointer.tracking

/-- Updates the IR relative tracker.  Acquisition establishes a baseline and
emits no jump; loss clears it so reacquisition also establishes a baseline. -/
def updateIr (pointer : PointerState) (point : Option IrPoint) :
    PointerState × PointerDelta :=
  match point.filter IrPoint.valid with
  | none => (pointer.resetIr, {})
  | some point =>
      if pointer.irActive then
        let x := smoothAxis pointer.irX point.x pointer.irSmoothing
        let y := smoothAxis pointer.irY point.y pointer.irSmoothing
        let dx := applyDeadzone (scaledDelta pointer.irX x pointer.irSpeed)
          pointer.irDeadzone
        let dy := applyDeadzone (scaledDelta pointer.irY y pointer.irSpeed)
          pointer.irDeadzone
        ({ pointer with irX := x, irY := y, irActive := true }, ⟨dx, dy⟩)
      else
        ({ pointer with irX := point.x, irY := point.y, irActive := true }, {})

def updateIrFrame (pointer : PointerState) (frame : IrFrame) :
    PointerState × PointerDelta :=
  pointer.updateIr (pointer.selectIr frame)

end PointerState

end Wiiland
