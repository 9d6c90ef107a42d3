/-
The command line of the daemon.  The first pass finds out where the configuration
comes from, the mode of the control server and the operation; the second reads all
options over the loaded configuration.
-/
import Wiiland.Core.ConfigText
import Wiiland.Daemon.Platform
import Wiiland.Lib.Args

namespace Wiiland

inductive TraceFilter where
  | all
  | keys
  | axes
  | ir
  | motionPlus
deriving DecidableEq, Repr

def TraceFilter.fromStr : String → Option TraceFilter
  | "all" => some .all
  | "keys" => some .keys
  | "axes" => some .axes
  | "ir" => some .ir
  | "motion-plus" => some .motionPlus
  | _ => none

structure TraceConfig where
  enabled : Bool := false
  filter : TraceFilter := .all
deriving DecidableEq, Repr

namespace Daemon

open Args

/-- Whether the daemon publishes its control server. -/
inductive IpcMode where
  | auto
  | disabled
  | path (path : PathBuf)
deriving DecidableEq

/-- The mutually exclusive operations of the daemon. -/
inductive Action where
  | run
  | help
  | version
  | list
  | axisMap
  | validationChecklist
  | doctor
  | dumpConfig
  | checkConfig
  | selfTest
  | calibrateAim
deriving DecidableEq, Repr

namespace Action

def label : Action → String
  | run => "run"
  | help => "--help"
  | version => "--version"
  | list => "--list"
  | axisMap => "--axis-map"
  | validationChecklist => "--validation-checklist"
  | doctor => "--doctor"
  | dumpConfig => "--dump-config"
  | checkConfig => "--check-config"
  | selfTest => "--self-test"
  | calibrateAim => "--calibrate-aim"

def diagnosticWithoutConfig : Action → Bool
  | help | version | list | axisMap | validationChecklist => true
  | _ => false

end Action

/-- The result of the first pass; the field defaults are what it starts from. -/
structure Pass1 where
  configPath : Option PathBuf := none
  explicitConfig : Bool := false
  noConfig : Bool := false
  ipc : IpcMode := .auto
  action : Action := .run
deriving DecidableEq

structure Cli where
  action : Action
  config : Config
  configPath : Option PathBuf
  explicitConfig : Bool
  noConfig : Bool
  ipc : IpcMode
  device : Option String
  dryRun : Bool
  verbose : Bool
  trace : TraceConfig
deriving DecidableEq

structure CliError where
  code : Int
  message : String
  usage : Bool
deriving DecidableEq, Repr

namespace CliError

def syntaxError (message : String) : CliError := ⟨einval, message, true⟩

def conflict (message : String) : CliError := ⟨einval, message, false⟩

def invalidValue (option : String) : CliError :=
  syntaxError ("wiilandd: invalid value for " ++ option)

end CliError

open CliError

/-- An argument cut at its first `=`.  The `--name=` texts the source strips have
no other `=`, so they fit an argument exactly when its name is theirs. -/
def splitEq (arg : String) : Option (String × String) :=
  match arg.toList.dropWhile (· != '=') with
  | [] => none
  | _ :: value =>
      some (String.ofList (arg.toList.takeWhile (· != '=')), String.ofList value)

def requestedAction (selected requested : Action) (option : String) :
    Except CliError Action :=
  if selected ≠ .run ∧ selected ≠ requested then
    .error (conflict ("wiilandd: conflicting actions: " ++ selected.label ++ " and " ++
      option))
  else .ok requested

def PathBuf.isAbsolute (path : PathBuf) : Bool :=
  path.bytes.head? == some UnixPath.separator

def ipcPath (value option : String) : Except CliError PathBuf :=
  if value = "" then .error (syntaxError ("wiilandd: " ++ option ++ " requires a path"))
  else if !(PathBuf.ofString value).isAbsolute then
    .error (syntaxError ("wiilandd: " ++ option ++ " requires an absolute path"))
  else .ok (.ofString value)

namespace Pass1

def request (requested : Action) (option : String) (p : Pass1) : Except CliError Pass1 :=
  (requestedAction p.action requested option).map fun action => { p with action }

def setConfig (path : String) (p : Pass1) : Except CliError Pass1 :=
  .ok { p with configPath := some (.ofString path), explicitConfig := true }

def noIpc (p : Pass1) : Except CliError Pass1 :=
  match p.ipc with
  | .path _ =>
      .error (conflict "wiilandd: --no-ipc cannot be combined with --ipc-socket")
  | _ => .ok { p with ipc := .disabled }

def ipcSocket (path : String) (p : Pass1) : Except CliError Pass1 :=
  match p.ipc with
  | .disabled =>
      .error (conflict "wiilandd: --no-ipc cannot be combined with --ipc-socket")
  | _ => (ipcPath path "--ipc-socket").map fun path => { p with ipc := .path path }

/-- The arguments the first pass knows; it steps past all others. -/
def arm (arg : String) : Arm String Pass1 CliError :=
  match arg with
  | "-c" | "--config" => .valued fun path p =>
      match path with
      | none => .error (syntaxError "wiilandd: --config requires a path")
      | some path => p.setConfig path
  | "--no-config" => .plain fun p => .ok { p with noConfig := true }
  | "--no-ipc" => .plain noIpc
  | "--ipc-socket" => .valued fun path p =>
      match path with
      | none => .error (syntaxError "wiilandd: --ipc-socket requires a path")
      | some path => p.ipcSocket path
  | "-h" | "--help" => .plain (request .help arg)
  | "--version" => .plain (request .version arg)
  | "-l" | "--list" => .plain (request .list arg)
  | "--axis-map" => .plain (request .axisMap arg)
  | "--validation-checklist" => .plain (request .validationChecklist arg)
  | "--doctor" => .plain (request .doctor arg)
  | "--dump-config" => .plain (request .dumpConfig arg)
  | "--check-config" => .plain (request .checkConfig arg)
  | "--self-test" => .plain (request .selfTest arg)
  | "--calibrate-aim" => .plain (request .calibrateAim arg)
  | _ =>
      match splitEq arg with
      | some ("--config", path) => .plain fun p =>
          if path = "" then .error (syntaxError "wiilandd: --config requires a path")
          else p.setConfig path
      | some ("--ipc-socket", path) => .plain (ipcSocket path)
      | _ => .plain .ok

end Pass1

def parsePass1 (args : List String) : Except CliError Pass1 :=
  (run Pass1.arm args {}).bind fun p =>
    if p.noConfig && p.explicitConfig then
      .error (conflict "wiilandd: --no-config cannot be combined with --config")
    else .ok p

def rangedInt (value : String) (min max : Int) : Option Int :=
  (Decimal.readI64 value.toList).filter fun n => min ≤ n && n ≤ max

def intValue (value : String) (min max : Int) (option : String) : Except CliError Int :=
  match rangedInt value min max with
  | some n => .ok n
  | none => .error (invalidValue option)

def parseChoice {A : Type} (value : String) (parser : String → Option A)
    (option : String) : Except CliError A :=
  match parser value with
  | some choice => .ok choice
  | none => .error (invalidValue option)

def boolValue (value option : String) : Except CliError Bool :=
  match value with
  | "yes" | "true" | "1" => .ok true
  | "no" | "false" | "0" => .ok false
  | _ => .error (invalidValue option)

namespace Cli

def request (requested : Action) (option : String) (out : Cli) : Except CliError Cli :=
  (requestedAction out.action requested option).map fun action => { out with action }

/-- Store a value in the configuration, once it is read. -/
def store {A : Type} (value : Except CliError A) (set : A → Config → Config) (out : Cli) :
    Except CliError Cli :=
  value.map fun v => { out with config := set v out.config }

/-- The `value!` macro: the word after the option. -/
def value (arg : String) (set : String → Cli → Except CliError Cli) :
    Option String → Cli → Except CliError Cli
  | none, _ => .error (syntaxError ("wiilandd: " ++ arg ++ " requires a value"))
  | some v, out => set v out

/-- The `set_int!` macro. -/
def setInt (arg : String) (min max : Int) (set : Int → Config → Config) :
    Option String → Cli → Except CliError Cli :=
  value arg fun v => store
    (match rangedInt v min max with
      | some n => .ok n
      | none => .error (invalidValue arg)) set

def setProfile (option v : String) : Cli → Except CliError Cli :=
  store
    (match Profile.parse v with
      | some profile => .ok profile
      | none => .error (invalidValue option)) fun profile config => { config with profile }

def setBackend (v : String) : Cli → Except CliError Cli :=
  store (if v ≠ "uinput" then .error (invalidValue "--backend") else .ok .uinput)
    fun backend config => { config with backend }

def setTrace (v : String) (out : Cli) : Except CliError Cli :=
  match TraceFilter.fromStr v with
  | some filter => .ok { out with trace := ⟨true, filter⟩ }
  | none => .error (invalidValue "--trace-events")

/-- The arms of the second pass without a value. -/
def flag (arg : String) : Option (Cli → Except CliError Cli) :=
  match arg with
  | "-h" | "--help" => some (request .help arg)
  | "--version" => some (request .version arg)
  | "-l" | "--list" => some (request .list arg)
  | "--axis-map" => some (request .axisMap arg)
  | "--validation-checklist" => some (request .validationChecklist arg)
  | "--doctor" => some (request .doctor arg)
  | "--dump-config" => some (request .dumpConfig arg)
  | "--check-config" => some (request .checkConfig arg)
  | "--self-test" => some (request .selfTest arg)
  | "--calibrate-aim" => some (request .calibrateAim arg)
  | "--no-config" | "--no-ipc" => some .ok
  | "-v" | "--verbose" => some fun out => .ok { out with verbose := true }
  | "-n" | "--dry-run" => some fun out => .ok { out with dryRun := true }
  | "--trace-events" => some fun out => .ok { out with trace := ⟨true, .all⟩ }
  | _ => none

/-- The arms that step past the next word or read it as the value. -/
def separated (arg : String) : Option (Option String → Cli → Except CliError Cli) :=
  match arg with
  | "--config" | "-c" | "--ipc-socket" => some fun _ out => .ok out
  | "-d" | "--device" => some (value arg fun v out => .ok { out with device := some v })
  | "-p" | "--profile" => some (value arg (setProfile arg))
  | "--backend" => some (value arg setBackend)
  | "--pointer-speed" => some (setInt arg 1 127
      fun n config => { config with pointerSpeed := n })
  | "--ir-speed" => some (setInt arg 1 127 fun n config => { config with irSpeed := n })
  | "--ir-deadzone" => some (setInt arg 0 127
      fun n config => { config with irDeadzone := n })
  | "--ir-smoothing" => some (setInt arg 0 95
      fun n config => { config with irSmoothing := n })
  | "--ir-tracking" => some (value arg fun v => store (parseChoice v IrTracking.parse arg)
      fun choice config => { config with irTracking := choice })
  | "--ir-aim-mapping" => some (value arg fun v =>
      store (parseChoice v IrAimMapping.parse arg)
        fun choice config => { config with irAimMapping := choice })
  | "--aim-mode" => some (value arg fun v => store (parseChoice v AimMode.parse arg)
      fun choice config => { config with aimMode := choice })
  | "--aim-source" => some (value arg fun v => store (parseChoice v AimSource.parse arg)
      fun choice config => { config with aimSource := choice })
  | "--aim-activation" => some (value arg fun v =>
      store (parseChoice v AimActivation.parse arg)
        fun choice config => { config with aimActivation := choice })
  | "--aim-sensitivity" => some (setInt arg 1 127
      fun n config => { config with aimSensitivity := n })
  | "--aim-deadzone" => some (setInt arg 0 32767
      fun n config => { config with aimDeadzone := n })
  | "--aim-smoothing" => some (setInt arg 0 95
      fun n config => { config with aimSmoothing := n })
  | "--aim-invert-x" => some (value arg fun v => store (boolValue v arg)
      fun b config => { config with aimInvertX := b })
  | "--aim-invert-y" => some (value arg fun v => store (boolValue v arg)
      fun b config => { config with aimInvertY := b })
  | "--aim-calibration-duration" => some (setInt arg 1 30
      fun n config => { config with aimCalibrationDuration := n })
  | _ => none

/-- The arms for `--name=value`.  The first four integers report their name alone,
the later options the whole argument. -/
def joined (arg name v : String) : Option (Cli → Except CliError Cli) :=
  match name with
  | "--config" | "--ipc-socket" => some .ok
  | "--device" => some fun out =>
      if v = "" then .error (syntaxError "wiilandd: --device requires a value")
      else .ok { out with device := some v }
  | "--profile" => some (setProfile arg v)
  | "--backend" => some (setBackend v)
  | "--trace-events" => some (setTrace v)
  | "--pointer-speed" => some (store (intValue v 1 127 name)
      fun n config => { config with pointerSpeed := n })
  | "--ir-speed" => some (store (intValue v 1 127 name)
      fun n config => { config with irSpeed := n })
  | "--ir-deadzone" => some (store (intValue v 0 127 name)
      fun n config => { config with irDeadzone := n })
  | "--ir-smoothing" => some (store (intValue v 0 95 name)
      fun n config => { config with irSmoothing := n })
  | "--ir-tracking" => some (store (parseChoice v IrTracking.parse arg)
      fun choice config => { config with irTracking := choice })
  | "--ir-aim-mapping" => some (store (parseChoice v IrAimMapping.parse arg)
      fun choice config => { config with irAimMapping := choice })
  | "--aim-mode" => some (store (parseChoice v AimMode.parse arg)
      fun choice config => { config with aimMode := choice })
  | "--aim-source" => some (store (parseChoice v AimSource.parse arg)
      fun choice config => { config with aimSource := choice })
  | "--aim-activation" => some (store (parseChoice v AimActivation.parse arg)
      fun choice config => { config with aimActivation := choice })
  | "--aim-sensitivity" => some (store (intValue v 1 127 arg)
      fun n config => { config with aimSensitivity := n })
  | "--aim-deadzone" => some (store (intValue v 0 32767 arg)
      fun n config => { config with aimDeadzone := n })
  | "--aim-smoothing" => some (store (intValue v 0 95 arg)
      fun n config => { config with aimSmoothing := n })
  | "--aim-invert-x" => some (store (boolValue v arg)
      fun b config => { config with aimInvertX := b })
  | "--aim-invert-y" => some (store (boolValue v arg)
      fun b config => { config with aimInvertY := b })
  | "--aim-calibration-duration" => some (store (intValue v 1 30 arg)
      fun n config => { config with aimCalibrationDuration := n })
  | _ => none

def unrecognized (arg : String) : CliError :=
  syntaxError ("wiilandd: unrecognized option '" ++ arg ++ "'")

def arm (arg : String) : Arm String Cli CliError :=
  match flag arg with
  | some set => .plain set
  | none =>
      match separated arg with
      | some set => .valued set
      | none =>
          match (splitEq arg).bind fun cut => joined arg cut.1 cut.2 with
          | some set => .plain set
          | none => .plain fun _ => .error (unrecognized arg)

/-- What the second pass starts from. -/
def start (config : Config) (pass1 : Pass1) : Cli where
  action := .run
  config := config
  configPath := pass1.configPath
  explicitConfig := pass1.explicitConfig
  noConfig := pass1.noConfig
  ipc := pass1.ipc
  device := none
  dryRun := false
  verbose := false
  trace := {}

end Cli

/-- The error of a failed validation, as the command line reports it. -/
def checkConfig (config : Config) : Except CliError Unit :=
  match config.validate with
  | .ok () => .ok ()
  | .error e => .error (syntaxError e.display)

def parsePass2 (args : List String) (config : Config) (pass1 : Pass1) :
    Except CliError Cli := do
  checkConfig config
  let out ← run Cli.arm args (Cli.start config pass1)
  checkConfig out.config
  return out

/-- The configuration files as they can be loaded. -/
structure ConfigFiles where
  loadFile : PathBuf → Except ConfigError Config
  loadDefaultLayers : Except ConfigError Config

def ConfigFiles.load (files : ConfigFiles) (pass1 : Pass1) : Except CliError Config :=
  if pass1.noConfig || pass1.action.diagnosticWithoutConfig then .ok {}
  else
    match pass1.configPath.elim files.loadDefaultLayers files.loadFile with
    | .ok config => .ok config
    | .error e => .error (syntaxError e.display)

def argString (arg : List UInt8) : Except CliError String :=
  match Text.decode arg with
  | some text => .ok (String.ofList text)
  | none => .error (syntaxError "arguments must be UTF-8")

/-- The arguments of the process, its own name first. -/
def parse (files : ConfigFiles) (args : List (List UInt8)) : Except CliError Cli := do
  let args ← args.mapM argString
  let args := args.tail
  let pass1 ← parsePass1 args
  let config ← files.load pass1
  parsePass2 args config pass1

end Daemon

end Wiiland
