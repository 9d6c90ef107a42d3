/-
The integer arithmetic that the engine does.  For every function the exact results of its
operations are listed, each with the machine type that has to hold it.
-/
import Wiiland.Core.AimSmoothing
import Wiiland.Core.Engine
import Wiiland.Core.PointerTracking

namespace Wiiland

open Mapping

/-- The exact result of an operation or a cast, and the type it is computed in. -/
inductive Operation where
  | i32 (exact : Int)
  | i64 (exact : Int)

def Operation.Fits : Operation → Prop
  | .i32 exact => Wrap.IsI32 exact
  | .i64 exact => Wrap.IsI64 exact

instance (operation : Operation) : Decidable operation.Fits := by
  cases operation <;> exact inferInstanceAs (Decidable (_ ∧ _))

/-- No operation of a computation leaves its type. -/
def Exact (operations : List Operation) : Prop := ∀ operation ∈ operations, operation.Fits

instance (operations : List Operation) : Decidable (Exact operations) :=
  inferInstanceAs (Decidable (∀ operation ∈ operations, operation.Fits))

@[simp] theorem exact_nil : Exact [] := fun _ hmem => absurd hmem List.not_mem_nil

@[simp] theorem exact_cons {operation : Operation} {operations : List Operation} :
    Exact (operation :: operations) ↔ operation.Fits ∧ Exact operations :=
  List.forall_mem_cons

@[simp] theorem exact_append {first second : List Operation} :
    Exact (first ++ second) ↔ Exact first ∧ Exact second :=
  List.forall_mem_append

@[simp] theorem fits_i32 {exact : Int} : (Operation.i32 exact).Fits ↔ Wrap.IsI32 exact := Iff.rfl

@[simp] theorem fits_i64 {exact : Int} : (Operation.i64 exact).Fits ↔ Wrap.IsI64 exact := Iff.rfl

section mapping

def scaleSignedAxisOps (value negativeExtent positiveExtent : Int) : List Operation :=
  if negativeExtent ≤ 0 ∨ positiveExtent ≤ 0 then []
  else .i32 (-negativeExtent) ::
    if value ≤ -negativeExtent ∨ positiveExtent ≤ value then []
    else if value < 0 then
      [.i32 (-virtualAxisMin), .i64 (value * -virtualAxisMin),
        .i32 ((value * -virtualAxisMin).tdiv negativeExtent)]
    else
      [.i64 (value * virtualAxisMax), .i32 ((value * virtualAxisMax).tdiv positiveExtent)]

def scaleUnsignedAxisOps (value sourceMax targetMax : Int) : List Operation :=
  if sourceMax ≤ 0 ∨ targetMax < 0 ∨ value ≤ 0 ∨ sourceMax ≤ value then []
  else [.i64 (value * targetMax), .i32 ((value * targetMax).tdiv sourceMax)]

def scaleDrumsPressureOps (index : Nat) (value : Int) : List Operation :=
  scaleUnsignedAxisOps value drumPressureMax
    (if index = 1 ∨ index = 2 ∨ index = 5 then virtualAxisMax else virtualTriggerMax)

def mapXyzOps (value : Abs3) (extent : Int) : List Operation :=
  scaleSignedAxisOps value.x extent extent ++ scaleSignedAxisOps value.y extent extent ++
    scaleSignedAxisOps value.z extent extent

def stickOps (value : Abs3) (negativeExtent positiveExtent : Int) : List Operation :=
  scaleSignedAxisOps value.x negativeExtent positiveExtent ++
    scaleSignedAxisOps value.y negativeExtent positiveExtent

def mapMotionOps (kind : MotionKind) (values : Vector Abs3 8) : List Operation :=
  match kind with
  | .accel => mapXyzOps (values.get 0) wiimoteAccelAxisExtent
  | .nunchuk =>
      stickOps (values.get 0) nunchukStickAxisExtent nunchukStickAxisExtent ++
        mapXyzOps (values.get 1) wiimoteAccelAxisExtent
  | .classic =>
      stickOps (values.get 0) classicStickAxisExtent classicStickAxisExtent ++
        stickOps (values.get 1) classicStickAxisExtent classicStickAxisExtent ++
        scaleUnsignedAxisOps (values.get 2).x classicTriggerMax virtualTriggerMax ++
        scaleUnsignedAxisOps (values.get 2).y classicTriggerMax virtualTriggerMax
  | .pro =>
      stickOps (values.get 0) proStickAxisExtent proStickAxisExtent ++
        stickOps (values.get 1) proStickAxisExtent proStickAxisExtent
  | .guitar =>
      stickOps (values.get 0) rhythmStickNegativeExtent rhythmStickPositiveExtent ++
        scaleSignedAxisOps (values.get 1).x guitarWhammyNegativeExtent guitarWhammyPositiveExtent ++
        scaleUnsignedAxisOps (values.get 2).x guitarFretMax virtualTriggerMax
  | .balance => []
  | .motionPlus => mapXyzOps (values.get 0) motionPlusAxisExtent
  | .drums =>
      stickOps (values.get 0) rhythmStickNegativeExtent rhythmStickPositiveExtent ++
        (values.toList.zipIdx.drop 1).flatMap fun value =>
          scaleDrumsPressureOps value.2 value.1.x

end mapping

/-- The weighted sum of `smooth_axis`, and of one component of the aim's `smooth`. -/
def smoothAxisOps (previous current smoothing : Int) : List Operation :=
  if smoothing = 0 then []
  else
    [.i64 (previous * smoothing), .i32 (100 - smoothing), .i64 (current * (100 - smoothing)),
      .i64 (weightedSum previous current smoothing), .i32 (weightedSum previous current smoothing)]

/-- The wrapping subtraction counts, since it can turn the direction of the pointer. -/
def scaledDeltaOps (start finish speed : Int) : List Operation :=
  [.i32 (finish - start), .i64 (Wrap.i32 (finish - start) * speed),
    .i32 ((Wrap.i32 (finish - start) * speed).tdiv 64)]

def applyDeadzoneOps (delta deadzone : Int) : List Operation :=
  if deadzone ≠ 0 then [.i32 delta.natAbs] else []

/-- One step of the sum of the centroid, or its quotient. -/
def centroidOps (coordinates : List Int) (count : Int) : List Operation :=
  (coordinates.inits.map fun part => .i64 (part.foldl (fun sum value => sum + value) 0)) ++
    [.i32 ((coordinates.foldl (fun sum value => sum + value) 0).tdiv count)]

def squaredDistanceOps (first second : IrPoint) : List Operation :=
  let dx := first.x - second.x
  let dy := first.y - second.y
  [.i64 dx, .i64 dy, .i64 (dx * dx), .i64 (dy * dy), .i64 (dx * dx + dy * dy)]

/-- The distances of the two nested loops. -/
def farthestPairOps (points : List IrPoint) : List Operation :=
  (List.range points.length).flatMap fun i =>
    (List.range' (i + 1) (points.length - (i + 1))).flatMap fun j =>
      squaredDistanceOps (points.getD i {}) (points.getD j {})

def selectIrPointOps (frame : IrFrame) (tracking : IrTracking) : List Operation :=
  let points := frame.points.toList.filter IrPoint.valid
  let count : Int := points.length
  if points.length = 0 then []
  else match tracking with
    | .first => []
    | .centroid =>
        centroidOps (points.map IrPoint.x) count ++ centroidOps (points.map IrPoint.y) count
    | .dual =>
        if points.length = 1 then []
        else
          let pair := farthestPair points
          let a := points.getD pair.a {}
          let b := points.getD pair.b {}
          farthestPairOps points ++ [.i32 (a.x + b.x), .i32 (a.y + b.y)]

namespace PointerState

def refreshVelocityOps (pointer : PointerState) : List Operation :=
  let has (bit : BitVec 8) : Bool := pointer.pointerKeys &&& bit != 0
  let axisOps (back forth : Bool) : List Operation :=
    (if back then [.i32 (0 - pointer.speed)] else []) ++
      if forth then [.i32 ((if back then 0 - pointer.speed else 0) + pointer.speed)] else []
  axisOps (has pointerLeft) (has pointerRight) ++ axisOps (has pointerUp) (has pointerDown)

def updateKeyOps (pointer : PointerState) (bit : BitVec 8) (pressed : Bool) : List Operation :=
  { pointer with
      pointerKeys := if pressed then pointer.pointerKeys ||| bit
        else pointer.pointerKeys &&& ~~~bit }.refreshVelocityOps

/-- One coordinate of a tracked point. -/
def moveOps (pointer : PointerState) (tracked coordinate : Int) : List Operation :=
  let position := smoothAxis tracked coordinate pointer.irSmoothing
  smoothAxisOps tracked coordinate pointer.irSmoothing ++
    scaledDeltaOps tracked position pointer.irSpeed ++
    applyDeadzoneOps (scaledDelta tracked position pointer.irSpeed) pointer.irDeadzone

def updateIrOps (pointer : PointerState) (point : Option IrPoint) : List Operation :=
  match point.filter IrPoint.valid with
  | none => []
  | some point =>
      if pointer.irActive then
        pointer.moveOps pointer.irX point.x ++ pointer.moveOps pointer.irY point.y
      else []

end PointerState

def scaleIrAbsoluteAxisOps (value min max : Int) : List Operation :=
  let center := (min + max).tdiv 2
  let halfRange := (max - min).tdiv 2
  [.i64 (min + max), .i64 (max - min)] ++
    if halfRange ≤ 0 then []
    else [.i64 (value - center), .i64 ((value - center) * 32767),
      .i32 (scaleIrAbsoluteAxis value min max)]

namespace AimState

def scaleOps (aim : AimState) (value : Int) : List Operation :=
  let magnitude : Int := value.natAbs
  .i64 magnitude ::
    if magnitude ≤ aim.config.deadzone then []
    else
      let scaled := ((magnitude - aim.config.deadzone) * aim.config.sensitivity).tdiv 16
      [.i64 (magnitude - aim.config.deadzone),
        .i64 ((magnitude - aim.config.deadzone) * aim.config.sensitivity),
        .i32 (min scaled 32767)] ++
        if value < 0 then [.i32 (-min scaled 32767)] else []

def emitOps (aim : AimState) (vector : AimVector) : List Operation :=
  if !aim.isActive then []
  else
    (if aim.config.invertX then [.i32 (-vector.x)] else []) ++
      (if aim.config.invertY then [.i32 (-vector.y)] else []) ++
      smoothAxisOps aim.lastX (aim.invert vector).x aim.config.smoothing ++
      smoothAxisOps aim.lastY (aim.invert vector).y aim.config.smoothing

def irVectorOps (aim : AimState) (point : IrPoint) : List Operation :=
  let screen := (aim.config.irScreen.filter fun s =>
    s.left < s.right && s.top < s.bottom).filter fun _ =>
      aim.config.irMapping == .absolute
  match screen with
  | some s =>
      scaleIrAbsoluteAxisOps point.x s.left s.right ++
        aim.scaleOps (scaleIrAbsoluteAxis point.x s.left s.right) ++
        scaleIrAbsoluteAxisOps point.y s.top s.bottom ++
        aim.scaleOps (scaleIrAbsoluteAxis point.y s.top s.bottom)
  | none =>
      if aim.irActive then
        .i32 (point.x - aim.irX) :: aim.scaleOps (Wrap.i32 (point.x - aim.irX)) ++
          .i32 (point.y - aim.irY) :: aim.scaleOps (Wrap.i32 (point.y - aim.irY))
      else []

def processIrOps (aim : AimState) (point : Option IrPoint) : List Operation :=
  match point.filter IrPoint.valid with
  | none => []
  | some found =>
      if !aim.accepts .ir then []
      else aim.irVectorOps found ++ aim.emitOps (aim.irVector found)

/-- Two differences and the vector that is scaled from them. -/
def differenceOps (aim : AimState) (x y biasX biasY : Int) : List Operation :=
  [.i32 (x - biasX), .i32 (y - biasY)] ++ aim.scaleOps (Wrap.i32 (x - biasX)) ++
    aim.scaleOps (Wrap.i32 (y - biasY)) ++
    aim.emitOps ⟨aim.scale (Wrap.i32 (x - biasX)), aim.scale (Wrap.i32 (y - biasY))⟩

def processMotionPlusOps (aim : AimState) (x y : Int) : List Operation :=
  if !aim.accepts .motionPlus then []
  else match aim.config.motionPlusCalibration.filter sensorCalibrationReady with
    | some c => aim.differenceOps x y c.x c.y
    | none => aim.scaleOps x ++ aim.scaleOps y ++ aim.emitOps ⟨aim.scale x, aim.scale y⟩

def processAccelerometerOps (aim : AimState) (x y : Int) : List Operation :=
  if !aim.accepts .accelerometer then []
  else match aim.config.accelCalibration.filter sensorCalibrationReady with
    | some c => aim.differenceOps x y c.x c.y
    | none =>
        if !aim.accelZeroed then []
        else aim.differenceOps x y aim.accelZeroX aim.accelZeroY

end AimState

namespace DeviceEngine

def keyOps (engine : DeviceEngine) (source : InputSource) (button : Button)
    (state : ButtonState) : List Operation :=
  let wasHeld := engine.heldButtons &&& buttonBit button != 0
  let isHeld := (engine.setHeld source button state).heldButtons &&& buttonBit button != 0
  if engine.profile.contains .desktop && pointerBit button != 0 && wasHeld != isHeld then
    engine.pointer.updateKeyOps (pointerBit button) isHeld
  else []

def releaseAllOps (held : BitVec 32) (source : InputSource) :
    List Button → DeviceEngine → List Operation
  | [], _ => []
  | button :: buttons, engine =>
      if held &&& buttonBit button != 0 then
        engine.keyOps source button .released ++
          releaseAllOps held source buttons (engine.key source button .released).1
      else releaseAllOps held source buttons engine

def motionOps (engine : DeviceEngine) (kind : MotionKind) (axes : Vector Abs3 8) :
    List Operation :=
  (if needsGamepad engine.profile engine.config.get then mapMotionOps kind axes else []) ++
    match kind with
    | .accel => engine.aim.processAccelerometerOps (primary axes).x (primary axes).y
    | .motionPlus => engine.aim.processMotionPlusOps (primary axes).x (primary axes).y
    | _ => []

def irOps (engine : DeviceEngine) (frame : IrFrame) : List Operation :=
  selectIrPointOps frame engine.pointer.tracking ++
    (if engine.profile.contains .desktop then
      selectIrPointOps frame engine.pointer.tracking ++
        engine.pointer.updateIrOps (engine.pointer.selectIr frame)
    else []) ++
    engine.aim.processIrOps (engine.pointer.selectIr frame)

/-- The arithmetic of one call of `process`. -/
def operations (engine : DeviceEngine) : EngineInput → List Operation
  | .key source button state => engine.keyOps source button state
  | .motion kind axes => engine.motionOps kind axes
  | .ir frame => engine.irOps frame
  | .sourceRemoved source => releaseAllOps (engine.held source) source Button.all engine
  | .pointerTick | .reset => []

end DeviceEngine

end Wiiland
