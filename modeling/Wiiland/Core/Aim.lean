/-
Sticky motion-aim source, activation, calibration, and smoothing state.  This
module owns only the transient runtime state and the integer output.
-/
import Wiiland.Core.Input
import Wiiland.Core.Pointer

namespace Wiiland

structure AimVector where
  x : Int := 0
  y : Int := 0
deriving DecidableEq, Repr

structure AimResult where
  output : Option AimVector := none
  reset : Bool := false
deriving DecidableEq, Repr

def AimResult.none : AimResult := ⟨Option.none, false⟩

def AimResult.ofReset : AimResult := ⟨some ⟨0, 0⟩, true⟩

structure AimConfig where
  output : AimMode
  source : AimSource
  activation : AimActivation
  sensitivity : Int
  deadzone : Int
  smoothing : Int
  invertX : Bool
  invertY : Bool
  irMapping : IrAimMapping
  irScreen : Option IrRectangle
  accelCalibration : Option SensorCalibration
  motionPlusCalibration : Option SensorCalibration
deriving DecidableEq, Repr

def AimConfig.fromConfig (config : Config) : AimConfig where
  output := config.aimMode
  source := config.aimSource
  activation := config.aimActivation
  sensitivity := config.aimSensitivity
  deadzone := config.aimDeadzone
  smoothing := config.aimSmoothing
  invertX := config.aimInvertX
  invertY := config.aimInvertY
  irMapping := config.irAimMapping
  irScreen := config.irScreen
  accelCalibration := config.aimAccelZero
  motionPlusCalibration := config.aimMotionPlusBias

def sensorCalibrationReady (calibration : SensorCalibration) : Bool :=
  calibration.axes == SensorCalibration.allAxes

def scaleIrAbsoluteAxis (value min max : Int) : Int :=
  let center := (min + max).tdiv 2
  let halfRange := (max - min).tdiv 2
  if halfRange ≤ 0 then 0
  else
    let scaled := ((value - center) * 32767).tdiv halfRange
    if scaled < -32767 then -32767 else if 32767 < scaled then 32767 else scaled

structure AimState where
  config : AimConfig
  held : Bool
  activeSource : Option AimSource
  irActive : Bool
  irX : Int
  irY : Int
  accelZeroed : Bool
  accelZeroX : Int
  accelZeroY : Int
  accelZeroZ : Int
  lastX : Int
  lastY : Int
deriving DecidableEq, Repr

namespace AimState

def new (config : AimConfig) : AimState where
  config := config
  held := false
  activeSource := none
  irActive := false
  irX := 0
  irY := 0
  accelZeroed := false
  accelZeroX := 0
  accelZeroY := 0
  accelZeroZ := 0
  lastX := 0
  lastY := 0

def enabled (aim : AimState) : Bool := aim.config.output != .off

def isActive (aim : AimState) : Bool :=
  aim.enabled && (aim.config.activation == .always || aim.held)

/-- Forget tracking baselines while retaining the current activation key. -/
def reset (aim : AimState) : AimState × AimResult :=
  ({ aim with
      activeSource := none
      irActive := false
      accelZeroed := false
      lastX := 0
      lastY := 0 }, .ofReset)

/-- Start a new input session after outputs or their input interfaces
disappear. -/
def resetSession (aim : AimState) : AimState × AimResult :=
  { aim with held := false }.reset

/-- The button code an activation waits for; `u32::MAX` for `always`. -/
def expectedKey : AimActivation → Nat
  | .b => Button.b.code
  | .z => Button.z.code
  | .c => Button.c.code
  | .always => 4294967295

/-- Update the configured activation key.  Releasing it resets source,
baselines, and smoothing; holding remains sticky until release. -/
def activationKey (aim : AimState) (key : Nat) (pressed : Bool) :
    AimState × AimResult :=
  if !aim.enabled then (aim, .none)
  else if aim.config.activation = .always then ({ aim with held := true }, .none)
  else if key ≠ expectedKey aim.config.activation then (aim, .none)
  else
    let wasHeld := aim.held
    let aim := { aim with held := pressed }
    if wasHeld && !pressed then aim.reset else (aim, .none)

def accepts (aim : AimState) (source : AimSource) : Bool :=
  if aim.config.source ≠ .auto then aim.config.source == source
  else if source = .ir then true
  else if aim.activeSource = some .ir then false
  else if source = .motionPlus then true
  else aim.activeSource != some .motionPlus || source != .accelerometer

def scale (aim : AimState) (value : Int) : Int :=
  let magnitude : Int := value.natAbs
  if magnitude ≤ aim.config.deadzone then 0
  else
    let scaled := ((magnitude - aim.config.deadzone) *
      aim.config.sensitivity).tdiv 16
    let scaled := Wrap.i32 (min scaled 32767)
    if value < 0 then Wrap.i32 (-scaled) else scaled

/-- One smoothed component.  The cast to 32 bits precedes the division. -/
def smoothComponent (last value smoothing : Int) : Int :=
  (Wrap.i32 (last * smoothing + value * Wrap.i32 (100 - smoothing))).tdiv 100

def smooth (aim : AimState) (vector : AimVector) : AimState × AimVector :=
  let vector := if aim.config.smoothing = 0 then vector
    else ⟨smoothComponent aim.lastX vector.x aim.config.smoothing,
      smoothComponent aim.lastY vector.y aim.config.smoothing⟩
  ({ aim with lastX := vector.x, lastY := vector.y }, vector)

def emit (aim : AimState) (vector : AimVector) : AimState × AimResult :=
  if !aim.isActive then aim.reset
  else
    let x := if aim.config.invertX then Wrap.i32 (-vector.x) else vector.x
    let y := if aim.config.invertY then Wrap.i32 (-vector.y) else vector.y
    let (aim, vector) := aim.smooth ⟨x, y⟩
    (aim, ⟨some vector, false⟩)

/-- The unsmoothed vector of one tracked IR point. -/
def irVector (aim : AimState) (point : IrPoint) : AimVector :=
  let screen := (aim.config.irScreen.filter fun s =>
    s.left < s.right && s.top < s.bottom).filter fun _ =>
      aim.config.irMapping == .absolute
  match screen with
  | some s =>
      ⟨aim.scale (scaleIrAbsoluteAxis point.x s.left s.right),
        aim.scale (scaleIrAbsoluteAxis point.y s.top s.bottom)⟩
  | none =>
      if aim.irActive then
        ⟨aim.scale (Wrap.i32 (point.x - aim.irX)),
          aim.scale (Wrap.i32 (point.y - aim.irY))⟩
      else {}

def processIr (aim : AimState) (point : Option IrPoint) :
    AimState × AimResult :=
  match point.filter IrPoint.valid with
  | none =>
      if aim.activeSource = some .ir then aim.reset
      else ({ aim with irActive := false }, .none)
  | some point =>
      if !aim.accepts .ir then (aim, .none)
      else
        let vector := aim.irVector point
        { aim with
            irActive := true
            irX := point.x
            irY := point.y
            activeSource := some .ir }.emit vector

def processMotionPlus (aim : AimState) (x y _z : Int) : AimState × AimResult :=
  if !aim.accepts .motionPlus then (aim, .none)
  else
    let bias := aim.config.motionPlusCalibration.filter sensorCalibrationReady
    let x := bias.elim x fun c => Wrap.i32 (x - c.x)
    let y := bias.elim y fun c => Wrap.i32 (y - c.y)
    let aim := { aim with activeSource := some .motionPlus }
    aim.emit ⟨aim.scale x, aim.scale y⟩

/-- The accelerometer's vector relative to its current zero. -/
def emitAccelerometer (aim : AimState) (x y : Int) : AimState × AimResult :=
  let aim := { aim with activeSource := some .accelerometer }
  aim.emit ⟨aim.scale (Wrap.i32 (x - aim.accelZeroX)),
    aim.scale (Wrap.i32 (y - aim.accelZeroY))⟩

def processAccelerometer (aim : AimState) (x y z : Int) :
    AimState × AimResult :=
  if !aim.accepts .accelerometer then (aim, .none)
  else match aim.config.accelCalibration.filter sensorCalibrationReady with
    | some c =>
        { aim with
            accelZeroX := c.x
            accelZeroY := c.y
            accelZeroZ := c.z
            accelZeroed := true }.emitAccelerometer x y
    | none =>
        if !aim.accelZeroed then
          ({ aim with
              accelZeroX := x
              accelZeroY := y
              accelZeroZ := z
              accelZeroed := true
              activeSource := some .accelerometer }, .none)
        else aim.emitAccelerometer x y

/-- Samples change neither the settings nor the activation. -/
def Kept (aim later : AimState) : Prop :=
  later.config = aim.config ∧ later.held = aim.held

theorem Kept.trans {first second third : AimState} (hfirst : first.Kept second)
    (hsecond : second.Kept third) : first.Kept third :=
  ⟨hsecond.1.trans hfirst.1, hsecond.2.trans hfirst.2⟩

theorem kept_reset (aim : AimState) : aim.Kept aim.reset.1 := ⟨rfl, rfl⟩

theorem kept_emit (aim : AimState) (vector : AimVector) :
    aim.Kept (aim.emit vector).1 := by
  unfold emit
  split
  · exact kept_reset aim
  · exact ⟨rfl, rfl⟩

theorem kept_processIr (aim : AimState) (point : Option IrPoint) :
    aim.Kept (aim.processIr point).1 := by
  unfold processIr
  cases point.filter IrPoint.valid with
  | none =>
      simp only
      split
      · exact kept_reset aim
      · exact ⟨rfl, rfl⟩
  | some point =>
      simp only
      split
      · exact ⟨rfl, rfl⟩
      · exact Kept.trans ⟨rfl, rfl⟩ (kept_emit _ _)

theorem kept_processMotionPlus (aim : AimState) (x y z : Int) :
    aim.Kept (aim.processMotionPlus x y z).1 := by
  unfold processMotionPlus
  split
  · exact ⟨rfl, rfl⟩
  · exact Kept.trans ⟨rfl, rfl⟩ (kept_emit _ _)

theorem kept_processAccelerometer (aim : AimState) (x y z : Int) :
    aim.Kept (aim.processAccelerometer x y z).1 := by
  unfold processAccelerometer
  split
  · exact ⟨rfl, rfl⟩
  · cases aim.config.accelCalibration.filter sensorCalibrationReady with
    | some calibration => exact Kept.trans ⟨rfl, rfl⟩ (kept_emit _ _)
    | none =>
        simp only
        split
        · exact ⟨rfl, rfl⟩
        · exact Kept.trans ⟨rfl, rfl⟩ (kept_emit _ _)

theorem activationKey_config (aim : AimState) (key : Nat) (pressed : Bool) :
    (aim.activationKey key pressed).1.config = aim.config := by
  unfold activationKey
  split
  · rfl
  · split
    · rfl
    · split
      · rfl
      · simp only
        split <;> rfl

end AimState

end Wiiland
