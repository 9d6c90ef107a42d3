/-
The text form of the configuration: the line parser with its errors and its
one slice that can stop the program, the layering of byte strings, and the
canonical dump.
-/
import Wiiland.Core.Config
import Wiiland.Lib.Decimal
import Wiiland.Lib.Text

namespace Wiiland

/-- What a parsing step leaves.  A failed step keeps the configuration it was
given to change; a panic is a slice out of order or inside a character. -/
inductive Outcome where
  | ok (config : Config)
  | err (error : ConfigError) (config : Config)
  | panic
deriving DecidableEq, Repr

/-- The `?` operator. -/
def Outcome.andThen : Outcome → (Config → Outcome) → Outcome
  | .ok config, next => next config
  | .err error config, _ => .err error config
  | .panic, _ => .panic

/-- The file and line an error names. -/
structure Place where
  path : String
  line : Nat
deriving DecidableEq, Repr

def Place.error (place : Place) (message : String) : ConfigError :=
  ⟨place.path, some place.line, message⟩

def invalid (place : Place) (key : String) : ConfigError :=
  place.error ("invalid value for '" ++ key ++ "'")

def parseInt (value : String) (min max : Int) : Option Int :=
  (Decimal.readI64 value.toList).bind fun n =>
    if n < min ∨ max < n then none else some n

/-- The `int!` arm: read a bounded integer, then store it. -/
def setInt (place : Place) (key value : String) (min max : Int)
    (store : Int → Config → Config) (config : Config) : Outcome :=
  match parseInt value min max with
  | some v => .ok (store v config)
  | none => .err (invalid place key) config

/-- The `choice!` arm: read a named choice, then store it. -/
def setChoice {A : Type} (place : Place) (key value : String)
    (parse : String → Option A) (store : A → Config → Config)
    (config : Config) : Outcome :=
  match parse value with
  | some v => .ok (store v config)
  | none => .err (invalid place key) config

def setBackend (place : Place) (key value : String) (config : Config) : Outcome :=
  if value = "uinput" then .ok { config with backend := .uinput }
  else .err (invalid place key) config

def IrRectangle.default : IrRectangle := ⟨0, 1023, 0, 767⟩

def IrRectangle.setSide (r : IrRectangle) (axis : Nat) (v : Int) : IrRectangle :=
  match axis with
  | 0 => { r with left := v }
  | 1 => { r with right := v }
  | 2 => { r with top := v }
  | _ => { r with bottom := v }

def setScreen (place : Place) (key value : String) (axis : Nat) :
    Config → Outcome :=
  setInt place key value 0 32767 fun v config =>
    { config with irScreen := some ((config.irScreen.getD .default).setSide axis v) }

def parseBool : String → Option Bool
  | "yes" | "true" | "1" => some true
  | "no" | "false" | "0" => some false
  | _ => none

def setBool (place : Place) (key value : String) (x : Bool) : Config → Outcome :=
  setChoice place key value parseBool fun v config =>
    if x then { config with aimInvertX := v } else { config with aimInvertY := v }

def SensorCalibration.empty : SensorCalibration := ⟨0, 0, 0, 0⟩

def SensorCalibration.setAxis (c : SensorCalibration) (axis : Nat) (v : Int) :
    SensorCalibration :=
  match axis with
  | 0 => { c with x := v, axes := c.axes ||| axisX }
  | 1 => { c with y := v, axes := c.axes ||| axisY }
  | _ => { c with z := v, axes := c.axes ||| axisZ }

/-- The calibration `set_cal` borrows. -/
def Config.calibration (config : Config) (accel : Bool) :
    Option SensorCalibration :=
  if accel then config.aimAccelZero else config.aimMotionPlusBias

def Config.withCalibration (config : Config) (accel : Bool)
    (calibration : Option SensorCalibration) : Config :=
  if accel then { config with aimAccelZero := calibration }
  else { config with aimMotionPlusBias := calibration }

def setCal (place : Place) (key value : String) (accel : Bool) (axis : Nat) :
    Config → Outcome :=
  setInt place key value (-32768) 32767 fun v config =>
    config.withCalibration accel
      (some (((config.calibration accel).getD .empty).setAxis axis v))

/-- The arms of `set_key` with a fixed key. -/
def fixedKey (place : Place) (key value : String) : Option (Config → Outcome) :=
  match key with
  | "backend" => some (setBackend place key value)
  | "profile" => some (setChoice place key value Profile.parse
      fun v config => { config with profile := v })
  | "pointer-speed" => some (setInt place key value 1 127
      fun v config => { config with pointerSpeed := v })
  | "ir-speed" => some (setInt place key value 1 127
      fun v config => { config with irSpeed := v })
  | "ir-deadzone" => some (setInt place key value 0 127
      fun v config => { config with irDeadzone := v })
  | "ir-smoothing" => some (setInt place key value 0 95
      fun v config => { config with irSmoothing := v })
  | "ir-tracking" => some (setChoice place key value IrTracking.parse
      fun v config => { config with irTracking := v })
  | "ir-aim-mapping" => some (setChoice place key value IrAimMapping.parse
      fun v config => { config with irAimMapping := v })
  | "ir-screen-left" => some (setScreen place key value 0)
  | "ir-screen-right" => some (setScreen place key value 1)
  | "ir-screen-top" => some (setScreen place key value 2)
  | "ir-screen-bottom" => some (setScreen place key value 3)
  | "aim-mode" => some (setChoice place key value AimMode.parse
      fun v config => { config with aimMode := v })
  | "aim-source" => some (setChoice place key value AimSource.parse
      fun v config => { config with aimSource := v })
  | "aim-activation" => some (setChoice place key value AimActivation.parse
      fun v config => { config with aimActivation := v })
  | "aim-sensitivity" => some (setInt place key value 1 127
      fun v config => { config with aimSensitivity := v })
  | "aim-deadzone" => some (setInt place key value 0 32767
      fun v config => { config with aimDeadzone := v })
  | "aim-smoothing" => some (setInt place key value 0 95
      fun v config => { config with aimSmoothing := v })
  | "aim-invert-x" => some (setBool place key value true)
  | "aim-invert-y" => some (setBool place key value false)
  | "aim-accel-zero-x" => some (setCal place key value true 0)
  | "aim-accel-zero-y" => some (setCal place key value true 1)
  | "aim-accel-zero-z" => some (setCal place key value true 2)
  | "aim-motion-plus-bias-x" => some (setCal place key value false 0)
  | "aim-motion-plus-bias-y" => some (setCal place key value false 1)
  | "aim-motion-plus-bias-z" => some (setCal place key value false 2)
  | "aim-calibration-duration" => some (setInt place key value 1 30
      fun v config => { config with aimCalibrationDuration := v })
  | _ => none

/-- The desktop arm: the name is sliced off before the value is read. -/
def setBinding (place : Place) (key value : String) (config : Config) : Outcome :=
  match Text.dropBytes key.toList 8 with
  | none => .panic
  | some name =>
      match DesktopAction.parse value with
      | none => .err (invalid place key) config
      | some action =>
          match config.desktopBindings.set (String.ofList name) action with
          | some bindings => .ok { config with desktopBindings := bindings }
          | none => .err (invalid place key) config

def DeviceRule.matches (rule : DeviceRule) (kind : DeviceRuleKind)
    (matchText : String) : Bool :=
  rule.kind = kind && rule.matchText = matchText

/-- The end of the rule arm: a rule already there moves to the end, a new one
needs room. -/
def storeRule (place : Place) (key : String) (kind : DeviceRuleKind)
    (matchText : String) (profile : Profile) (config : Config) : Outcome :=
  match config.deviceRules.find? (·.matches kind matchText) with
  | some rule =>
      .ok { config with
        deviceRules := config.deviceRules.eraseP (·.matches kind matchText) ++
          [{ rule with profile }] }
  | none =>
      if maxDeviceRules ≤ config.deviceRules.length then
        .err (invalid place key) config
      else
        .ok { config with
          deviceRules := config.deviceRules ++ [⟨kind, matchText, profile⟩] }

/-- The rule arm: the match text stands between the kind and `.profile`. -/
def setRule (place : Place) (key value : String) (kind : DeviceRuleKind)
    (config : Config) : Outcome :=
  match Profile.parse value with
  | none => .err (invalid place key) config
  | some profile =>
      match Text.slice key.toList (Text.byteLength kind.keyPrefix.toList + 1)
          (Text.byteLength key.toList - 8) with
      | none => .panic
      | some middle =>
          if middle = [] then .err (invalid place key) config
          else storeRule place key kind (String.ofList middle) profile config

def setKey (place : Place) (key value : String) (config : Config) : Outcome :=
  match fixedKey place key value with
  | some set => set config
  | none =>
      if "desktop.".toList <+: key.toList then setBinding place key value config
      else if "device.".toList <+: key.toList ∧ ".profile".toList <:+ key.toList then
        setRule place key value .syspath config
      else if "device-type.".toList <+: key.toList ∧
          ".profile".toList <:+ key.toList then
        setRule place key value .devtype config
      else .err (place.error ("unknown key '" ++ key ++ "'")) config

/-- The characters `trim_matches` removes. -/
def isBlank (c : Char) : Bool := c == ' ' || c == '\t' || c == '\r' || c == '\n'

def applyLine (place : Place) (line : List Char) (config : Config) : Outcome :=
  if maxLineBytes - 1 < Text.byteLength line then
    .err (place.error "line too long") config
  else
    let content := Text.trim isBlank (line.takeWhile (· != '#'))
    if content = [] then .ok config
    else
      match Text.find '=' content with
      | none => .err (place.error "expected key=value") config
      | some eq =>
          match Text.takeBytes content eq, Text.dropBytes content (eq + 1) with
          | some key, some value =>
              setKey place (String.ofList (Text.trim isBlank key))
                (String.ofList (Text.trim isBlank value)) config
          | _, _ => .panic

def lineFeed : UInt8 := 10

/-- One raw line of `apply_bytes`, its line feed included. -/
def applyRaw (place : Place) (raw : List UInt8) (config : Config) : Outcome :=
  if maxLineBytes - 1 < raw.length then
    .err (place.error "line too long") config
  else
    match Text.decode raw with
    | none => .err (place.error "invalid UTF-8") config
    | some text => applyLine place text config

/-- The loop of `apply_bytes` at line `no`; `raw` is `bytes[start..i]`. -/
def applyBytesFrom (path : String) (no : Nat) (raw : List UInt8) :
    List UInt8 → Config → Outcome
  | [], config => if raw = [] then .ok config else applyRaw ⟨path, no⟩ raw config
  | b :: bytes, config =>
      if b = lineFeed then
        (applyRaw ⟨path, no⟩ (raw ++ [b]) config).andThen
          (applyBytesFrom path (no + 1) [] bytes)
      else applyBytesFrom path no (raw ++ [b]) bytes config

def applyBytes (path : String) (bytes : List UInt8) (config : Config) : Outcome :=
  applyBytesFrom path 1 [] bytes config

/-- The result of `parse_bytes`: no configuration comes with an error. -/
inductive Parsed where
  | ok (config : Config)
  | err (error : ConfigError)
  | panic
deriving DecidableEq, Repr

def parseBytes (path : String) (bytes : List UInt8) : Parsed :=
  match applyBytes path bytes {} with
  | .ok config =>
      match config.validate with
      | .ok () => .ok config
      | .error error => .err error
  | .err error _ => .err error
  | .panic => .panic

def showInt (n : Int) : String := String.ofList (Decimal.write n)

def showBool (b : Bool) : String := if b then "yes" else "no"

def dumpScreen : Option IrRectangle → List (String × String)
  | none => []
  | some r =>
      [("ir-screen-left", showInt r.left), ("ir-screen-right", showInt r.right),
        ("ir-screen-top", showInt r.top), ("ir-screen-bottom", showInt r.bottom)]

def dumpCalibration (name : String) :
    Option SensorCalibration → List (String × String)
  | none => []
  | some c =>
      if c.complete then
        [(name ++ "-x", showInt c.x), (name ++ "-y", showInt c.y),
          (name ++ "-z", showInt c.z)]
      else []

def DeviceRule.entry (rule : DeviceRule) : String × String :=
  (rule.kind.keyPrefix ++ "." ++ rule.matchText ++ ".profile",
    rule.profile.asStr.getD "unknown")

/-- The lines of `dump` before the device rules, as keys and values. -/
def dumpScalars (config : Config) : List (String × String) :=
  [("backend", config.backend.asStr),
    ("profile", config.profile.asStr.getD "unknown"),
    ("pointer-speed", showInt config.pointerSpeed),
    ("ir-speed", showInt config.irSpeed),
    ("ir-deadzone", showInt config.irDeadzone),
    ("ir-smoothing", showInt config.irSmoothing),
    ("ir-tracking", config.irTracking.asStr),
    ("ir-aim-mapping", config.irAimMapping.asStr)] ++
  dumpScreen config.irScreen ++
  [("aim-mode", config.aimMode.asStr),
    ("aim-source", config.aimSource.asStr),
    ("aim-activation", config.aimActivation.asStr),
    ("aim-sensitivity", showInt config.aimSensitivity),
    ("aim-deadzone", showInt config.aimDeadzone),
    ("aim-smoothing", showInt config.aimSmoothing),
    ("aim-invert-x", showBool config.aimInvertX),
    ("aim-invert-y", showBool config.aimInvertY)] ++
  dumpCalibration "aim-accel-zero" config.aimAccelZero ++
  dumpCalibration "aim-motion-plus-bias" config.aimMotionPlusBias ++
  [("aim-calibration-duration", showInt config.aimCalibrationDuration)] ++
  (config.desktopBindings.iter.map fun binding =>
    ("desktop." ++ binding.1, binding.2.asStr))

/-- The lines of `dump` in their order. -/
def dumpEntries (config : Config) : List (String × String) :=
  dumpScalars config ++ config.deviceRules.map DeviceRule.entry

def dump (config : Config) : String :=
  (dumpEntries config).foldl
    (fun out entry => out ++ (entry.1 ++ "=" ++ entry.2) ++ "\n") ""

end Wiiland
