/-
The per-device bridge: it opens the interfaces the profile needs, feeds their
events to the engine and owns the virtual outputs.  What the system answers
during one step is a parameter of the step.
-/
import Wiiland.Core.DeviceRules
import Wiiland.Core.Engine
import Wiiland.Hid.Interface

namespace Wiiland

namespace Daemon

open Hid Mapping

/-- What the system answers while a step runs: opening each input, creating a
virtual device, and writing the actions of the step one by one. -/
structure Answers where
  attempts : Attempts
  create : OutputDevice → Option Int
  emit : Nat → Option Int

inductive BridgeAction where
  | continue_
  | gone
deriving DecidableEq, Repr

/-- What a step of a device shows to the outside. -/
inductive Observation where
  | input (input : EngineInput)
  | action (action : OutputAction)
  | recreated (outputs : Except Int (Bool × Bool))
deriving Repr

def enodev : Int := 19

def einval : Int := 22

/-- `-raw_os_error` of an error made from an errno of either sign. -/
def ioErrno (errno : Int) : Int := -errno.natAbs

/-- The interfaces a profile and a configuration ask for. -/
def requestedInterfaces (p : Profile) (c : Config) : InterfaceMask :=
  let interfaces :=
    if p.contains .gamepad then InterfaceMask.all.diff .ir else .empty
  let interfaces :=
    if p.contains .desktop then
      interfaces.union (InterfaceMask.core.union .ir)
    else interfaces
  if c.aimMode ≠ .off then
    let interfaces := interfaces.union <|
      match c.aimSource with
      | .ir => .ir
      | .motionPlus => .motionPlus
      | .accelerometer => .accel
      | .auto => (InterfaceMask.ir.union .motionPlus).union .accel
    if c.aimActivation = .z ∨ c.aimActivation = .c then interfaces.union .nunchuk
    else interfaces
  else interfaces

def validIrPoint (abs : Axis3) : Bool := abs.x != 1023 || abs.y != 1023

/-- The slots of a motion report. -/
def axisEvents : EventKind → List Axis3
  | .accel value | .motionPlus value => [value]
  | .ir values | .balanceBoard values => values.toList
  | .nunchukMove values | .proControllerMove values => values.toList
  | .classicControllerMove values | .guitarMove values => values.toList
  | .drumsMove values => values.toList
  | _ => []

def keySource : EventKind → Option (InputSource × ButtonEvent)
  | .key key => some (.core, key)
  | .nunchukKey key => some (.nunchuk, key)
  | .classicControllerKey key => some (.classicController, key)
  | .proControllerKey key => some (.proController, key)
  | .drumsKey key => some (.drums, key)
  | .guitarKey key => some (.guitar, key)
  | _ => none

def motionKind : EventKind → Option MotionKind
  | .accel _ => some .accel
  | .motionPlus _ => some .motionPlus
  | .nunchukMove _ => some .nunchuk
  | .classicControllerMove _ => some .classic
  | .proControllerMove _ => some .pro
  | .guitarMove _ => some .guitar
  | .drumsMove _ => some .drums
  | .balanceBoard _ => some .balance
  | _ => none

/-- The eight engine slots: the report's own, the others zero. -/
def motionAxes (kind : EventKind) : Vector Abs3 8 :=
  .ofFn fun i =>
    let value := (axisEvents kind).getD i {}
    ⟨value.x, value.y, value.z⟩

def engineInput (kind : EventKind) : Option EngineInput :=
  match keySource kind with
  | some (source, key) => some (.key source key.button key.state)
  | none =>
      match kind with
      | .ir values =>
          some (.ir ⟨values.map fun value =>
            { valid := validIrPoint value, x := value.x, y := value.y }⟩)
      | kind => (motionKind kind).map fun motion => .motion motion (motionAxes kind)

def forwardsToEngine (kind : EventKind) (profile : Profile) (config : Config) : Bool :=
  kind.interface.any fun interface =>
    (requestedInterfaces profile config).contains interface

def createOutput (needed : Bool) (answer : Option Int) : Except Int Bool :=
  if needed then
    match answer with
    | some error => .error error
    | none => .ok true
  else .ok false

/-- The gamepad and the desktop output, each created where it is needed. -/
def createOutputs (profile : Profile) (config : Config) (outputsEnabled : Bool)
    (create : OutputDevice → Option Int) : Except Int (Bool × Bool) :=
  if outputsEnabled then do
    let gamepad ← createOutput (needsGamepad profile config) (create .gamepad)
    let desktop ← createOutput (needsDesktop profile config) (create .desktop)
    pure (gamepad, desktop)
  else .ok (false, false)

def actionTarget : OutputAction → OutputDevice
  | .key target _ _ => target
  | .abs target _ _ => target
  | .rel target _ _ => target
  | .sync target => target

structure BridgeDevice where
  syspath : String
  profile : Profile
  iface : Interface
  gamepad : Bool
  desktop : Bool
  engine : DeviceEngine
  openedIfaces : InterfaceMask
  pendingIfaces : InterfaceMask
  config : Config
  outputsEnabled : Bool
  capture : Bool

namespace BridgeDevice

/-- A fresh device over the interfaces that opened and the outputs made. -/
def assemble (syspath : String) (profile : Profile) (config : ValidatedConfig)
    (outputsEnabled : Bool) (iface : Interface) (opened : InterfaceMask)
    (outputs : Bool × Bool) : BridgeDevice where
  syspath := syspath
  profile := profile
  iface := iface
  gamepad := outputs.1
  desktop := outputs.2
  engine := .new config profile
  openedIfaces := opened
  pendingIfaces := (Daemon.requestedInterfaces profile config.get).diff opened
  config := config.get
  outputsEnabled := outputsEnabled
  capture := false

/-- Open the profile's interfaces on a controller and create its outputs. -/
def withBackendOutputs (syspath : String) (devtype : Option String) (config : Config)
    (outputsEnabled : Bool) (answers : Answers) : Except Int BridgeDevice :=
  if hvalid : config.validate = .ok () then
    let profile := config.profileForDevice (some syspath) devtype
    let (result, iface) := Interface.open_ ⟨.empty⟩
      (Daemon.requestedInterfaces profile config) answers.attempts
    let opened := Interface.openedOf result
    match opened.isEmpty, result with
    | true, .error error => .error (ioErrno error.error)
    | _, _ =>
        (createOutputs profile config outputsEnabled answers.create).map
          (assemble syspath profile ⟨config, hvalid⟩ outputsEnabled iface opened)
  else .error (-einval)

/-- What the profile and the configuration ask for, capture or not. -/
def requested (device : BridgeDevice) : InterfaceMask :=
  Daemon.requestedInterfaces device.profile device.config

def requestedInterfaces (device : BridgeDevice) : InterfaceMask :=
  if device.capture then .all else device.requested

/-- The error of a retry that leaves nothing needed open. -/
def retryError : Except OpenError InterfaceMask → Int
  | .ok _ => -enodev
  | .error error => ioErrno error.error

def retryOpen (device : BridgeDevice) (attempts : Attempts) :
    Except Int Unit × BridgeDevice :=
  if device.pendingIfaces.isEmpty then (.ok (), device)
  else
    let (result, iface) := device.iface.open_ device.pendingIfaces attempts
    let opened := Interface.openedOf result
    let serves := !(opened.inter device.requested).isEmpty
    (if serves then .ok () else .error (retryError result),
      { device with
          iface := iface
          openedIfaces := opened
          pendingIfaces := device.pendingIfaces.diff opened })

/-- The start of a changed `set_capture`: the interfaces that are no longer wanted
close, and the wanted ones that are closed are pending. -/
def switchCapture (device : BridgeDevice) (enabled : Bool) : BridgeDevice :=
  let device := { device with capture := enabled }
  let desired := device.requestedInterfaces
  let iface := device.iface.close (device.iface.opened.diff desired)
  { device with
      iface := iface
      openedIfaces := iface.opened
      pendingIfaces := desired.diff iface.opened }

def setCapture (device : BridgeDevice) (enabled : Bool) (attempts : Attempts) :
    Except Int Unit × BridgeDevice :=
  if enabled = device.capture then (.ok (), device)
  else (device.switchCapture enabled).retryOpen attempts

/-- A lost interface ends the session: the outputs are torn down, the engine is
reset and new outputs are made. -/
def resetSession (device : BridgeDevice) (create : OutputDevice → Option Int) :
    Except Int Unit × BridgeDevice × List Observation :=
  let engine := (device.engine.process .reset).1
  let device := { device with gamepad := false, desktop := false, engine := engine }
  match createOutputs device.profile device.config device.outputsEnabled create with
  | .error error =>
      (.error error, device, [.input .reset, .recreated (.error error)])
  | .ok (gamepad, desktop) =>
      (.ok (), { device with gamepad := gamepad, desktop := desktop },
        [.input .reset, .recreated (.ok (gamepad, desktop))])

/-- The interfaces the profile needs that have closed since the last look. -/
def lostInterfaces (device : BridgeDevice) : InterfaceMask :=
  (device.openedIfaces.diff device.iface.opened).inter device.requested

/-- The end of `handle_watch`: look at what is open and retry the rest. -/
def reopen (device : BridgeDevice) (attempts : Attempts) :
    Except Int Unit × BridgeDevice :=
  retryOpen
    { device with
        openedIfaces := device.iface.opened
        pendingIfaces := device.requestedInterfaces.diff device.iface.opened }
    attempts

def handleWatch (device : BridgeDevice) (answers : Answers) :
    Except Int Unit × BridgeDevice × List Observation :=
  if device.lostInterfaces.isEmpty then
    let (result, device) := device.reopen answers.attempts
    (result, device, [])
  else
    match device.resetSession answers.create with
    | (.error error, device, shown) => (.error error, device, shown)
    | (.ok _, device, shown) =>
        let (result, device) := device.reopen answers.attempts
        (result, device, shown)

def hasOutput (device : BridgeDevice) : OutputDevice → Bool
  | .gamepad => device.gamepad
  | .desktop => device.desktop

/-- Write the actions in order up to the first that fails. -/
def emitAll (device : BridgeDevice) (emit : Nat → Option Int) :
    Nat → List OutputAction → Except Int Unit
  | _, [] => .ok ()
  | n, action :: rest =>
      if device.hasOutput (actionTarget action) then
        match emit n with
        | some error => .error error
        | none => emitAll device emit (n + 1) rest
      else emitAll device emit (n + 1) rest

def process (device : BridgeDevice) (input : EngineInput) (emit : Nat → Option Int) :
    Except Int Unit × BridgeDevice × List Observation :=
  let (engine, actions) := device.engine.process input
  let device := { device with engine := engine }
  (if device.outputsEnabled then device.emitAll emit 0 actions else .ok (), device,
    .input input :: actions.map .action)

/-- A report of an interface that was asked for goes to the engine. -/
def feedEngine (device : BridgeDevice) (kind : EventKind) (emit : Nat → Option Int) :
    Except Int Unit × BridgeDevice × List Observation :=
  if forwardsToEngine kind device.profile device.config then
    match engineInput kind with
    | some input => device.process input emit
    | none => (.ok (), device, [])
  else (.ok (), device, [])

def handleEvent (device : BridgeDevice) (event : Event) (answers : Answers) :
    Except Int BridgeAction × BridgeDevice × List Observation :=
  match event.kind with
  | .gone => (.ok .gone, device, [])
  | .watch =>
      let (result, device, shown) := device.handleWatch answers
      (result.map fun _ => .continue_, device, shown)
  | kind =>
      let (result, device, shown) := device.feedEngine kind answers.emit
      (result.map fun _ => .continue_, device, shown)

def tickPointer (device : BridgeDevice) (answers : Answers) :
    Except Int Unit × BridgeDevice × List Observation :=
  device.process .pointerTick answers.emit

end BridgeDevice

end Daemon

end Wiiland
