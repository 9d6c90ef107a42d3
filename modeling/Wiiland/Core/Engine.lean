/-
Deterministic per-device processing.  Hardware ownership and clocks live in
adapters; the engine turns one input into the ordered actions it appends to its
caller's buffer.
-/
import Mathlib.Logic.Function.Basic
import Wiiland.Core.Aim
import Wiiland.Core.Mapping

namespace Wiiland

open Mapping

inductive OutputDevice where
  | gamepad
  | desktop
deriving DecidableEq, Repr

/-- Key actions include their synchronization boundary; motion uses explicit
`sync`. -/
inductive OutputAction where
  | key (target : OutputDevice) (code value : Nat)
  | abs (target : OutputDevice) (code : Nat) (value : Int)
  | rel (target : OutputDevice) (code : Nat) (value : Int)
  | sync (target : OutputDevice)
deriving DecidableEq, Repr

inductive EngineInput where
  | key (source : InputSource) (button : Button) (state : ButtonState)
  | motion (kind : MotionKind) (axes : Vector Abs3 8)
  | ir (frame : IrFrame)
  /-- One fixed 16ms pointer tick, supplied by the reactor or a replay. -/
  | pointerTick
  /-- Release only this interface's held buttons while retaining others. -/
  | sourceRemoved (source : InputSource)
  /-- Start a new session after the adapter destroys the previous outputs. -/
  | reset
deriving DecidableEq, Repr

def needsGamepad (profile : Profile) (config : Config) : Bool :=
  profile.contains .gamepad || config.aimMode == .rightStick

def needsDesktop (profile : Profile) (config : Config) : Bool :=
  profile.contains .desktop || config.aimMode == .mouse

def buttonBit (button : Button) : BitVec 32 := BitSet.single 32 button.code

/-- One source's mask after a button event. -/
def maskAfter (mask : BitVec 32) (button : Button) : ButtonState → BitVec 32
  | .released => mask &&& ~~~buttonBit button
  | .pressed | .repeated => mask ||| buttonBit button

/-- The desktop action bound to a button; unbindable buttons are disabled. -/
def DesktopBindings.action (bindings : DesktopBindings) : Button → DesktopAction
  | .a => bindings.a
  | .b => bindings.b
  | .plus => bindings.plus
  | .minus => bindings.minus
  | .home => bindings.home
  | .one => bindings.one
  | .two => bindings.two
  | _ => .disabled

def DesktopAction.key : DesktopAction → Option Nat
  | .leftClick => some 0x110
  | .rightClick => some 0x111
  | .enter => some 28
  | .escape => some 1
  | .overview => some 125
  | .pageUp => some 104
  | .pageDown => some 109
  | .disabled => none

def emitKeyTransition (target : OutputDevice) (code : Nat) (before after : Bool)
    (state : ButtonState) : List OutputAction :=
  match before, after with
  | false, true => [.key target code ButtonState.pressed.value]
  | true, false => [.key target code ButtonState.released.value]
  | true, true =>
      if state = .repeated then [.key target code ButtonState.repeated.value]
      else []
  | false, false => []

def emitPointer (delta : PointerDelta) : List OutputAction :=
  [.rel .desktop 0 delta.dx, .rel .desktop 1 delta.dy] ++
    if delta.dx ≠ 0 ∨ delta.dy ≠ 0 then [.sync .desktop] else []

def clampStick (value : Int) : Int := max (-32768) (min value 32767)

def emitAim (mode : AimMode) (result : AimResult) : List OutputAction :=
  match result.output with
  | none => []
  | some v =>
      match mode with
      | .mouse => emitPointer ⟨v.x, v.y⟩
      | .rightStick =>
          [.abs .gamepad absRx (clampStick v.x),
            .abs .gamepad absRy (clampStick v.y), .sync .gamepad]
      | .off => []

structure DeviceEngine where
  config : ValidatedConfig
  profile : Profile
  pointer : PointerState
  aim : AimState
  held : InputSource → BitVec 32

namespace DeviceEngine

def new (config : ValidatedConfig) (profile : Profile) : DeviceEngine where
  config := config
  profile := profile
  pointer := .new config.get.pointerSpeed config.get.irSpeed
    config.get.irDeadzone config.get.irSmoothing config.get.irTracking
  aim := .new (.fromConfig config.get)
  held := fun _ => 0

def pointerActive (engine : DeviceEngine) : Bool :=
  engine.pointer.pointerKeys != 0

def heldButtons (engine : DeviceEngine) : BitVec 32 :=
  (InputSource.all.map engine.held).foldl (fun held source => held ||| source) 0

def desktopKey (engine : DeviceEngine) (button : Button) : Option Nat :=
  (engine.config.get.desktopBindings.action button).key

def desktopKeyHeld (engine : DeviceEngine) (held : BitVec 32) (key : Nat) :
    Bool :=
  Button.all.any fun button =>
    held &&& buttonBit button != 0 && engine.desktopKey button == some key

/-- The first statement of `key`: the source's own mask follows the event. -/
def setHeld (engine : DeviceEngine) (source : InputSource) (button : Button)
    (state : ButtonState) : DeviceEngine :=
  { engine with
      held := Function.update engine.held source
        (maskAfter (engine.held source) button state) }

def pointerBit : Button → BitVec 8
  | .left => pointerLeft
  | .right => pointerRight
  | .up => pointerUp
  | .down => pointerDown
  | _ => 0

/-- The transitions of the virtual keys a button drives, gamepad first. -/
def keyTransitions (engine : DeviceEngine) (before after : BitVec 32)
    (button : Button) (state : ButtonState) : List OutputAction :=
  let wasHeld := before &&& buttonBit button != 0
  let isHeld := after &&& buttonBit button != 0
  let gamepad :=
    if needsGamepad engine.profile engine.config.get then
      emitKeyTransition .gamepad (mapButton button) wasHeld isHeld state
    else []
  let desktop :=
    if engine.profile.contains .desktop then
      match engine.desktopKey button with
      | some mapped =>
          emitKeyTransition .desktop mapped
            (engine.desktopKeyHeld before mapped)
            (engine.desktopKeyHeld after mapped) state
      | none => []
    else []
  gamepad ++ desktop

/-- A direction button whose level changed moves the desktop pointer. -/
def pointerTransition (engine : DeviceEngine) (button : Button)
    (wasHeld isHeld : Bool) : DeviceEngine × List OutputAction :=
  if engine.profile.contains .desktop && pointerBit button != 0 &&
      wasHeld != isHeld then
    let (pointer, delta) := engine.pointer.updateKey (pointerBit button) isHeld
    ({ engine with pointer }, emitPointer delta)
  else (engine, [])

/-- A button whose level changed may be the aim activation key. -/
def aimTransition (engine : DeviceEngine) (button : Button)
    (wasHeld isHeld : Bool) : DeviceEngine × List OutputAction :=
  if wasHeld != isHeld then
    let (aim, result) := engine.aim.activationKey button.code isHeld
    ({ engine with aim }, emitAim aim.config.output result)
  else (engine, [])

def key (engine : DeviceEngine) (source : InputSource) (button : Button)
    (state : ButtonState) : DeviceEngine × List OutputAction :=
  let before := engine.heldButtons
  let engine := engine.setHeld source button state
  let after := engine.heldButtons
  let wasHeld := before &&& buttonBit button != 0
  let isHeld := after &&& buttonBit button != 0
  let keys := engine.keyTransitions before after button state
  let (engine, moved) := engine.pointerTransition button wasHeld isHeld
  let (engine, aimed) := engine.aimTransition button wasHeld isHeld
  (engine, keys ++ moved ++ aimed)

/-- The loop of `SourceRemoved`; `held` is the mask read before it starts. -/
def releaseAll (held : BitVec 32) (source : InputSource) :
    List Button → DeviceEngine → DeviceEngine × List OutputAction
  | [], engine => (engine, [])
  | button :: buttons, engine =>
      if held &&& buttonBit button != 0 then
        let (engine, released) := engine.key source button .released
        let (engine, rest) := releaseAll held source buttons engine
        (engine, released ++ rest)
      else releaseAll held source buttons engine

def motion (engine : DeviceEngine) (kind : MotionKind) (axes : Vector Abs3 8) :
    DeviceEngine × List OutputAction :=
  let mapped :=
    if needsGamepad engine.profile engine.config.get then
      ((mapMotion kind axes).axes.map fun axis =>
        OutputAction.abs .gamepad axis.code axis.value) ++ [.sync .gamepad]
    else []
  let v := primary axes
  match kind with
  | .accel =>
      let (aim, result) := engine.aim.processAccelerometer v.x v.y v.z
      ({ engine with aim }, mapped ++ emitAim aim.config.output result)
  | .motionPlus =>
      let (aim, result) := engine.aim.processMotionPlus v.x v.y v.z
      ({ engine with aim }, mapped ++ emitAim aim.config.output result)
  | _ => (engine, mapped)

/-- The desktop pointer follows an infrared frame. -/
def irPointer (engine : DeviceEngine) (frame : IrFrame) :
    DeviceEngine × List OutputAction :=
  if engine.profile.contains .desktop then
    let (pointer, delta) := engine.pointer.updateIrFrame frame
    ({ engine with pointer }, emitPointer delta)
  else (engine, [])

def ir (engine : DeviceEngine) (frame : IrFrame) :
    DeviceEngine × List OutputAction :=
  let point := engine.pointer.selectIr frame
  let (engine, moved) := engine.irPointer frame
  let (aim, result) := engine.aim.processIr point
  ({ engine with aim }, moved ++ emitAim aim.config.output result)

def process (engine : DeviceEngine) (input : EngineInput) :
    DeviceEngine × List OutputAction :=
  match input with
  | .reset =>
      ({ engine with
          pointer := engine.pointer.reset
          aim := engine.aim.resetSession.1
          held := fun _ => 0 }, [])
  | .pointerTick =>
      if engine.pointerActive then (engine, emitPointer engine.pointer.tick)
      else (engine, [])
  | .key source button state => engine.key source button state
  | .sourceRemoved source =>
      releaseAll (engine.held source) source Button.all engine
  | .motion kind axes => engine.motion kind axes
  | .ir frame => engine.ir frame

/-- Process inputs in a row, with all their actions. -/
def processAll (engine : DeviceEngine) : List EngineInput → DeviceEngine × List OutputAction
  | [] => (engine, [])
  | input :: inputs =>
      let (engine, actions) := engine.process input
      let (engine, rest) := engine.processAll inputs
      (engine, actions ++ rest)

end DeviceEngine

end Wiiland
