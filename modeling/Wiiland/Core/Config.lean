/-
The persistent configuration: its choices, its record, its validation, and the
selection of a profile by device rules.  The line parser and the canonical dump
live in `ConfigText`.
-/
import Mathlib.Data.List.Basic

namespace Wiiland

def maxDeviceRules : Nat := 32
def maxLineBytes : Nat := 512

inductive Backend where
  | uinput
deriving DecidableEq, Repr

def Backend.asStr : Backend → String
  | .uinput => "uinput"

/-- A set of output roles, as the bits of one byte. -/
structure Profile where
  bits : BitVec 8
deriving DecidableEq, Repr

namespace Profile

def gamepad : Profile := ⟨1⟩
def desktop : Profile := ⟨2⟩
def both : Profile := ⟨3⟩

def contains (profile other : Profile) : Bool :=
  profile.bits &&& other.bits == other.bits

def isValid (profile : Profile) : Bool :=
  profile.bits != 0 && profile.bits ≤ both.bits

def asStr (profile : Profile) : Option String :=
  if profile = gamepad then some "gamepad"
  else if profile = desktop then some "desktop"
  else if profile = both then some "both"
  else none

def parse : String → Option Profile
  | "gamepad" => some gamepad
  | "desktop" => some desktop
  | "both" => some both
  | _ => none

/-- A valid profile is one of the three named ones. -/
theorem isValid_iff (profile : Profile) :
    profile.isValid = true ↔
      profile = gamepad ∨ profile = desktop ∨ profile = both := by
  obtain ⟨bits⟩ := profile
  revert bits
  decide

end Profile

inductive IrTracking where
  | first
  | centroid
  | dual
deriving DecidableEq, Repr

def IrTracking.asStr : IrTracking → String
  | .first => "first"
  | .centroid => "centroid"
  | .dual => "dual"

def IrTracking.parse : String → Option IrTracking
  | "first" => some .first
  | "centroid" => some .centroid
  | "dual" => some .dual
  | _ => none

inductive IrAimMapping where
  | relative
  | absolute
deriving DecidableEq, Repr

def IrAimMapping.asStr : IrAimMapping → String
  | .relative => "relative"
  | .absolute => "absolute"

def IrAimMapping.parse : String → Option IrAimMapping
  | "relative" => some .relative
  | "absolute" => some .absolute
  | _ => none

inductive AimMode where
  | off
  | mouse
  | rightStick
deriving DecidableEq, Repr

def AimMode.asStr : AimMode → String
  | .off => "off"
  | .mouse => "mouse"
  | .rightStick => "right-stick"

def AimMode.parse : String → Option AimMode
  | "off" => some .off
  | "mouse" => some .mouse
  | "right-stick" => some .rightStick
  | _ => none

inductive AimSource where
  | auto
  | ir
  | motionPlus
  | accelerometer
deriving DecidableEq, Repr

def AimSource.asStr : AimSource → String
  | .auto => "auto"
  | .ir => "ir"
  | .motionPlus => "motion-plus"
  | .accelerometer => "accelerometer"

def AimSource.parse : String → Option AimSource
  | "auto" => some .auto
  | "ir" => some .ir
  | "motion-plus" => some .motionPlus
  | "accelerometer" => some .accelerometer
  | _ => none

inductive AimActivation where
  | always
  | b
  | z
  | c
deriving DecidableEq, Repr

def AimActivation.asStr : AimActivation → String
  | .always => "always"
  | .b => "b"
  | .z => "z"
  | .c => "c"

def AimActivation.parse : String → Option AimActivation
  | "always" => some .always
  | "b" => some .b
  | "z" => some .z
  | "c" => some .c
  | _ => none

structure IrRectangle where
  left : Int
  right : Int
  top : Int
  bottom : Int
deriving DecidableEq, Repr

structure SensorCalibration where
  x : Int
  y : Int
  z : Int
  axes : BitVec 8
deriving DecidableEq, Repr

namespace SensorCalibration

def axisX : BitVec 8 := 1
def axisY : BitVec 8 := 2
def axisZ : BitVec 8 := 4
def allAxes : BitVec 8 := 7

def complete (calibration : SensorCalibration) : Bool :=
  calibration.axes == allAxes

end SensorCalibration

inductive DesktopAction where
  | disabled
  | leftClick
  | rightClick
  | enter
  | escape
  | overview
  | pageUp
  | pageDown
deriving DecidableEq, Repr

def DesktopAction.asStr : DesktopAction → String
  | .disabled => "disabled"
  | .leftClick => "left-click"
  | .rightClick => "right-click"
  | .enter => "enter"
  | .escape => "escape"
  | .overview => "overview"
  | .pageUp => "page-up"
  | .pageDown => "page-down"

def DesktopAction.parse : String → Option DesktopAction
  | "disabled" => some .disabled
  | "left-click" => some .leftClick
  | "right-click" => some .rightClick
  | "enter" => some .enter
  | "escape" => some .escape
  | "overview" => some .overview
  | "page-up" => some .pageUp
  | "page-down" => some .pageDown
  | _ => none

structure DesktopBindings where
  a : DesktopAction := .leftClick
  b : DesktopAction := .rightClick
  plus : DesktopAction := .enter
  minus : DesktopAction := .escape
  home : DesktopAction := .overview
  one : DesktopAction := .pageDown
  two : DesktopAction := .pageUp
deriving DecidableEq, Repr

namespace DesktopBindings

/-- Assign one named binding; `none` is the source's `false` for an unknown
name, which leaves every binding as it was. -/
def set (bindings : DesktopBindings) (name : String) (value : DesktopAction) :
    Option DesktopBindings :=
  match name with
  | "a" => some { bindings with a := value }
  | "b" => some { bindings with b := value }
  | "plus" => some { bindings with plus := value }
  | "minus" => some { bindings with minus := value }
  | "home" => some { bindings with home := value }
  | "one" => some { bindings with one := value }
  | "two" => some { bindings with two := value }
  | _ => none

def iter (bindings : DesktopBindings) : List (String × DesktopAction) :=
  [("a", bindings.a), ("b", bindings.b), ("plus", bindings.plus),
    ("minus", bindings.minus), ("home", bindings.home), ("one", bindings.one),
    ("two", bindings.two)]

end DesktopBindings

inductive DeviceRuleKind where
  | syspath
  | devtype
deriving DecidableEq, Repr

def DeviceRuleKind.keyPrefix : DeviceRuleKind → String
  | .syspath => "device"
  | .devtype => "device-type"

structure DeviceRule where
  kind : DeviceRuleKind
  matchText : String
  profile : Profile
deriving DecidableEq, Repr

/-- One configuration; the field defaults are the source's `Default`. -/
structure Config where
  backend : Backend := .uinput
  profile : Profile := .gamepad
  pointerSpeed : Int := 16
  irSpeed : Int := 8
  irDeadzone : Int := 0
  irSmoothing : Int := 0
  irTracking : IrTracking := .dual
  irAimMapping : IrAimMapping := .relative
  irScreen : Option IrRectangle := none
  aimMode : AimMode := .off
  aimSource : AimSource := .auto
  aimActivation : AimActivation := .b
  aimSensitivity : Int := 16
  aimDeadzone : Int := 4
  aimSmoothing : Int := 25
  aimInvertX : Bool := false
  aimInvertY : Bool := false
  aimAccelZero : Option SensorCalibration := none
  aimMotionPlusBias : Option SensorCalibration := none
  aimCalibrationDuration : Int := 8
  desktopBindings : DesktopBindings := {}
  deviceRules : List DeviceRule := []
deriving DecidableEq, Repr

structure ConfigError where
  path : String
  line : Option Nat
  message : String
deriving DecidableEq, Repr

def ConfigError.display (error : ConfigError) : String :=
  match error.line with
  | some line => s!"wiilandd: {error.path}:{line}: {error.message}"
  | none => s!"wiilandd: cannot open {error.path}: {error.message}"

/-- Every bounded integer field lies in its range. -/
def Config.inRange (config : Config) : Bool :=
  decide (1 ≤ config.pointerSpeed ∧ config.pointerSpeed ≤ 127) &&
  decide (1 ≤ config.irSpeed ∧ config.irSpeed ≤ 127) &&
  decide (0 ≤ config.irDeadzone ∧ config.irDeadzone ≤ 127) &&
  decide (0 ≤ config.irSmoothing ∧ config.irSmoothing ≤ 95) &&
  decide (1 ≤ config.aimSensitivity ∧ config.aimSensitivity ≤ 127) &&
  decide (0 ≤ config.aimDeadzone ∧ config.aimDeadzone ≤ 32767) &&
  decide (0 ≤ config.aimSmoothing ∧ config.aimSmoothing ≤ 95) &&
  decide (1 ≤ config.aimCalibrationDuration ∧
    config.aimCalibrationDuration ≤ 30)

theorem Config.inRange_iff (config : Config) :
    config.inRange = true ↔
      (1 ≤ config.pointerSpeed ∧ config.pointerSpeed ≤ 127) ∧
      (1 ≤ config.irSpeed ∧ config.irSpeed ≤ 127) ∧
      (0 ≤ config.irDeadzone ∧ config.irDeadzone ≤ 127) ∧
      (0 ≤ config.irSmoothing ∧ config.irSmoothing ≤ 95) ∧
      (1 ≤ config.aimSensitivity ∧ config.aimSensitivity ≤ 127) ∧
      (0 ≤ config.aimDeadzone ∧ config.aimDeadzone ≤ 32767) ∧
      (0 ≤ config.aimSmoothing ∧ config.aimSmoothing ≤ 95) ∧
      (1 ≤ config.aimCalibrationDuration ∧
        config.aimCalibrationDuration ≤ 30) := by
  simp only [inRange, Bool.and_eq_true, decide_eq_true_eq, and_assoc]

/-- One check of `validate`, with the message of its `bad` error. -/
def refuse (condition : Bool) (message : String) : Except ConfigError Unit :=
  if condition then .error ⟨"config", none, message⟩ else .ok ()

/-- The check of one sensor calibration inside `validate`. -/
def validateCalibration (name : String) :
    Option SensorCalibration → Except ConfigError Unit
  | none => .ok ()
  | some c => do
      refuse (c.axes &&& ~~~SensorCalibration.allAxes != 0)
        "invalid sensor calibration axes"
      refuse (c.axes != 0 && !c.complete)
        (name ++ " calibration requires complete x, y, and z values")

def Config.validate (config : Config) : Except ConfigError Unit := do
  refuse (!config.profile.isValid) "invalid profile"
  refuse (!config.inRange) "configuration value out of range"
  refuse (config.irScreen.any fun r => r.right ≤ r.left || r.bottom ≤ r.top)
    "IR screen calibration requires right > left and bottom > top"
  validateCalibration "accelerometer" config.aimAccelZero
  validateCalibration "MotionPlus" config.aimMotionPlusBias
  refuse (maxDeviceRules < config.deviceRules.length ||
      config.deviceRules.any fun r => r.matchText.isEmpty || !r.profile.isValid)
    "invalid device rule"

/-- Two checks in a row pass when both pass. -/
theorem checks_eq_ok {first next : Except ConfigError Unit} :
    (first >>= fun _ => next) = .ok () ↔ first = .ok () ∧ next = .ok () := by
  cases first with
  | error e =>
      constructor
      · intro hok
        cases hok
      · intro h
        cases h.1
  | ok _ => exact ⟨fun hok => ⟨rfl, hok⟩, fun h => h.2⟩

theorem refuse_eq_ok {condition : Bool} {message : String} :
    refuse condition message = .ok () ↔ condition = false := by
  cases condition <;> simp [refuse]

/-- A calibration passes when its mask is empty or complete. -/
theorem validateCalibration_eq_ok_iff {name : String}
    {calibration : Option SensorCalibration} :
    validateCalibration name calibration = .ok () ↔
      ∀ c ∈ calibration, c.axes &&& ~~~SensorCalibration.allAxes = 0 ∧
        (c.axes = 0 ∨ c.complete = true) := by
  cases calibration with
  | none => simp [validateCalibration]
  | some c =>
      rw [validateCalibration, checks_eq_ok, refuse_eq_ok, refuse_eq_ok]
      simp only [Option.mem_def, Option.some.injEq, forall_eq', bne_eq_false_iff_eq,
        Bool.and_eq_false_iff, Bool.not_eq_false']

/-- What validation checks, check by check. -/
theorem Config.validate_eq_ok_iff (config : Config) :
    config.validate = .ok () ↔
      config.profile.isValid = true ∧ config.inRange = true ∧
      (∀ r ∈ config.irScreen, r.left < r.right ∧ r.top < r.bottom) ∧
      (∀ c ∈ config.aimAccelZero, c.axes &&& ~~~SensorCalibration.allAxes = 0 ∧
        (c.axes = 0 ∨ c.complete = true)) ∧
      (∀ c ∈ config.aimMotionPlusBias,
        c.axes &&& ~~~SensorCalibration.allAxes = 0 ∧
          (c.axes = 0 ∨ c.complete = true)) ∧
      config.deviceRules.length ≤ maxDeviceRules ∧
      ∀ rule ∈ config.deviceRules,
        rule.matchText ≠ "" ∧ rule.profile.isValid = true := by
  have hscreen : (config.irScreen.any fun r =>
      r.right ≤ r.left || r.bottom ≤ r.top) = false ↔
        ∀ r ∈ config.irScreen, r.left < r.right ∧ r.top < r.bottom := by
    cases config.irScreen <;> simp
  have hrules : (maxDeviceRules < config.deviceRules.length ||
      config.deviceRules.any fun r => r.matchText.isEmpty || !r.profile.isValid) =
        false ↔ config.deviceRules.length ≤ maxDeviceRules ∧
          ∀ rule ∈ config.deviceRules,
            rule.matchText ≠ "" ∧ rule.profile.isValid = true := by
    simp [List.any_eq_false]
  rw [validate, checks_eq_ok, checks_eq_ok, checks_eq_ok, checks_eq_ok,
    checks_eq_ok, refuse_eq_ok, refuse_eq_ok, refuse_eq_ok, refuse_eq_ok,
    validateCalibration_eq_ok_iff, validateCalibration_eq_ok_iff, hscreen, hrules,
    Bool.not_eq_false', Bool.not_eq_false']

/-- A validated snapshot.  Mutable drafts remain ordinary `Config` values. -/
structure ValidatedConfig where
  get : Config
  valid : get.validate = .ok ()

end Wiiland
