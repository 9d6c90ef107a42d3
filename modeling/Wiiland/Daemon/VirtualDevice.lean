/-
The virtual devices: what they call on the uinput backend to come up, to emit and to
go away, and who owns them.  The answers of the system are a list; when it is used up,
every call is granted.
-/
import Wiiland.Daemon.Bridge
import Wiiland.Core.Capabilities

namespace Wiiland

namespace Daemon

namespace Uinput

open Mapping

def uiDevCreate : Nat := 0x5501
def uiDevDestroy : Nat := 0x5502
def uiSetEvbit : Nat := 0x40045564
def uiSetKeybit : Nat := 0x40045565
def uiSetRelbit : Nat := 0x40045566
def uiSetAbsbit : Nat := 0x40045567
def evSyn : Nat := 0
def evKey : Nat := 1
def evRel : Nat := 2
def evAbs : Nat := 3
def synReport : Nat := 0
def busBluetooth : Nat := 0x0005

def uinputPath : String := "/dev/uinput"

def eintr : Int := 4

def eio : Int := 5

/-- An `io::Error` by its OS error, where it has one. -/
abbrev OsError := Option Int

def errno (error : OsError) : Int := -(error.getD eio)

structure InputId where
  bustype : Nat
  vendor : Nat
  product : Nat
  version : Nat
deriving DecidableEq, Repr

structure UinputUserDev where
  name : List UInt8
  id : InputId
  ffEffectsMax : Int
  absmax : List Int
  absmin : List Int
  absfuzz : List Int
  absflat : List Int
deriving DecidableEq, Repr

structure InputEvent where
  tvSec : Int
  tvUsec : Int
  type : Nat
  code : Nat
  value : Int
deriving DecidableEq, Repr

/-- The bytes that are written: a whole structure. -/
inductive Payload where
  | setup (dev : UinputUserDev)
  | event (event : InputEvent)
deriving DecidableEq, Repr

/-- `size_of` of the structure. -/
def Payload.size : Payload → Nat
  | .setup _ => 80 + 8 + 4 + 4 * (4 * 64)
  | .event _ => 16 + 2 + 2 + 4

/-- A call of the backend with what it was answered. -/
inductive BackendEvent where
  | opened (path : String) (fd : Nat)
  | openFailed (path : String) (error : Int)
  | ioctl (fd request : Nat) (arg : Int) (error : Option Int)
  | write (fd : Nat) (data : Payload) (answer : Except OsError Nat)
  | close (fd : Nat)

/-- The answers to come, the descriptors in use, and the calls so far. -/
structure Backend where
  replies : List (Except OsError Nat)
  live : List Nat
  trace : List BackendEvent

/-- A fallible program that calls the backend. -/
abbrev Calls := ExceptT Int (StateM Backend)

namespace Backend

def reply (backend : Backend) (granted : Nat) : Except OsError Nat × Backend :=
  match backend.replies with
  | [] => (.ok granted, backend)
  | reply :: rest => (reply, { backend with replies := rest })

def record (backend : Backend) (event : BackendEvent) : Backend :=
  { backend with trace := backend.trace ++ [event] }

/-- A system never answers `open` with a descriptor that is in use. -/
def unused (live : List Nat) (fd : Nat) : Nat :=
  if fd ∈ live then live.foldr max 0 + 1 else fd

def open_ (path : String) : Calls Nat := fun backend =>
  match backend.reply 0 with
  | (.error error, backend) =>
      (.error (errno error), backend.record (.openFailed path (errno error)))
  | (.ok fd, backend) =>
      let fd := unused backend.live fd
      (.ok fd, { backend with live := fd :: backend.live }.record (.opened path fd))

def ioctl (fd request : Nat) (arg : Int) : Calls Unit := fun backend =>
  match backend.reply 0 with
  | (.error error, backend) =>
      (.error (errno error), backend.record (.ioctl fd request arg (some (errno error))))
  | (.ok _, backend) => (.ok (), backend.record (.ioctl fd request arg none))

/-- The writes of `write_exact`: one that is interrupted is tried again, and a short
one is an error. -/
def writes (fd : Nat) (data : Payload) : List (Except OsError Nat) →
    Except Int Unit × List (Except OsError Nat) × List BackendEvent
  | [] => (.ok (), [], [.write fd data (.ok data.size)])
  | .ok n :: rest =>
      (if n = data.size then .ok () else .error (-eio), rest, [.write fd data (.ok n)])
  | .error error :: rest =>
      if error = some eintr then
        let (result, left, events) := writes fd data rest
        (result, left, .write fd data (.error error) :: events)
      else (.error (errno error), rest, [.write fd data (.error error)])

def writeExact (fd : Nat) (data : Payload) : Calls Unit := fun backend =>
  let (result, left, events) := writes fd data backend.replies
  (result, { backend with replies := left, trace := backend.trace ++ events })

def close (backend : Backend) (fd : Nat) : Backend :=
  { backend with live := backend.live.erase fd }.record (.close fd)

end Backend

inductive VirtualKind where
  | controller
  | desktop
deriving DecidableEq, Repr

namespace VirtualKind

def name : VirtualKind → String
  | .controller => "WiiLand Virtual Controller"
  | .desktop => "WiiLand Virtual Desktop"

def capabilities : VirtualKind → VirtualCapabilities
  | .controller => controllerCapabilities
  | .desktop => desktopCapabilities

end VirtualKind

structure VirtualDevice where
  fd : Nat
  created : Bool
  kind : VirtualKind
deriving DecidableEq, Repr

namespace VirtualDevice

open Uinput.Backend

/-- The range of one axis in the structure the kernel reads. -/
def setAxis (dev : UinputUserDev) (code : Nat) : UinputUserDev :=
  match axisInfo code with
  | some info =>
      { dev with
          absmin := dev.absmin.set code info.minimum
          absmax := dev.absmax.set code info.maximum
          absflat := dev.absflat.set code info.flat
          absfuzz := dev.absfuzz.set code info.fuzz }
  | none => dev

def userDev (kind : VirtualKind) : UinputUserDev :=
  let bytes := kind.name.toUTF8.toList.take 79
  let zeros := List.replicate 64 0
  kind.capabilities.axes.foldl setAxis
    { name := bytes ++ List.replicate (80 - bytes.length) 0
      id := ⟨busBluetooth, 0x057e, 0x0337, 1⟩
      ffEffectsMax := 0
      absmax := zeros
      absmin := zeros
      absfuzz := zeros
      absflat := zeros }

def configure (out : VirtualDevice) : Calls Unit := do
  let caps := out.kind.capabilities
  ioctl out.fd uiSetEvbit evKey
  caps.keys.forM fun code => ioctl out.fd uiSetKeybit code
  (if !caps.axes.isEmpty then do
    ioctl out.fd uiSetEvbit evAbs
    caps.axes.forM fun code => ioctl out.fd uiSetAbsbit code
  else pure () : Calls Unit)
  (if !caps.rels.isEmpty then do
    ioctl out.fd uiSetEvbit evRel
    caps.rels.forM fun code => ioctl out.fd uiSetRelbit code
  else pure () : Calls Unit)
  writeExact out.fd (.setup (userDev out.kind))

/-- The end of a device: it is destroyed if it was created, and its descriptor closes. -/
def drop (out : VirtualDevice) (backend : Backend) : Backend :=
  let backend :=
    if out.created then (ioctl out.fd uiDevDestroy 0 backend).2 else backend
  backend.close out.fd

/-- A program that owns a device: where it fails, the device is dropped. -/
def owned {α : Type} (out : VirtualDevice) (program : Calls α) : Calls α := fun backend =>
  match program backend with
  | (.error error, backend) => (.error error, out.drop backend)
  | (.ok value, backend) => (.ok value, backend)

def withBackend (path : String) (kind : VirtualKind) : Calls VirtualDevice := do
  let fd ← open_ path
  let out : VirtualDevice := ⟨fd, false, kind⟩
  out.owned do
    out.configure
    ioctl fd uiDevCreate 0
    pure { out with created := true }

def emitEvent (out : VirtualDevice) (type code : Nat) (value : Int) : Calls Unit :=
  writeExact out.fd (.event ⟨0, 0, type, code, value⟩)

def syn (out : VirtualDevice) : Calls Unit := out.emitEvent evSyn synReport 0

def emitKey (out : VirtualDevice) (code state : Nat) : Calls Unit := do
  out.emitEvent evKey code (min state 2 : Nat)
  out.syn

def emitAbs (out : VirtualDevice) (code : Nat) (value : Int) : Calls Unit :=
  out.emitEvent evAbs code value

def emitRel (out : VirtualDevice) (code : Nat) (value : Int) : Calls Unit :=
  if value ≠ 0 then out.emitEvent evRel code value else pure ()

/-- A call of a device's owner between its construction and its end. -/
inductive Use where
  | event (type code : Nat) (value : Int)
  | key (code state : Nat)
  | abs (code : Nat) (value : Int)
  | rel (code : Nat) (value : Int)
  | syn

def use (out : VirtualDevice) : Use → Calls Unit
  | .event type code value => out.emitEvent type code value
  | .key code state => out.emitKey code state
  | .abs code value => out.emitAbs code value
  | .rel code value => out.emitRel code value
  | .syn => out.syn

/-- The whole life of a device, whatever its calls return. -/
def lifetime (path : String) (kind : VirtualKind) (uses : List Use) (backend : Backend) :
    Backend :=
  match withBackend path kind backend with
  | (.error _, backend) => backend
  | (.ok out, backend) => out.drop (uses.foldl (fun backend use => (out.use use backend).2) backend)

end VirtualDevice

/-- The outputs of a bridge. -/
structure OutputPair where
  gamepad : Option VirtualDevice
  desktop : Option VirtualDevice
deriving DecidableEq, Repr

namespace OutputPair

open VirtualDevice

def none : OutputPair := ⟨.none, .none⟩

def get (pair : OutputPair) : OutputDevice → Option VirtualDevice
  | .gamepad => pair.gamepad
  | .desktop => pair.desktop

/-- An output that is there goes away. -/
def dropOutput (output : Option VirtualDevice) (backend : Backend) : Backend :=
  match output with
  | some device => device.drop backend
  | .none => backend

/-- The first output goes away where the rest fails. -/
def owning {α : Type} (output : Option VirtualDevice) (program : Calls α) : Calls α :=
  match output with
  | some device => device.owned program
  | .none => program

def createOutput (needed : Bool) (kind : VirtualKind) : Calls (Option VirtualDevice) :=
  if needed then do
    let device ← withBackend uinputPath kind
    pure (some device)
  else pure .none

def createOutputs (profile : Profile) (config : Config) (outputsEnabled : Bool) :
    Calls OutputPair :=
  if !outputsEnabled then pure none
  else do
    let gamepad ← createOutput (needsGamepad profile config) .controller
    owning gamepad do
      let desktop ← createOutput (needsDesktop profile config) .desktop
      pure ⟨gamepad, desktop⟩

def emitAction (pair : OutputPair) (action : OutputAction) : Calls Unit :=
  match pair.get (actionTarget action) with
  | .none => pure ()
  | some device =>
      match action with
      | .key _ code value => device.emitKey code value
      | .abs _ code value => device.emitAbs code value
      | .rel _ code value => device.emitRel code value
      | .sync _ => device.syn

/-- The output side of `process`. -/
def emitActions (pair : OutputPair) (outputsEnabled : Bool) (actions : List OutputAction) :
    Calls Unit :=
  if !outputsEnabled then pure () else actions.forM pair.emitAction

/-- Both outputs go away, as at the end of a bridge. -/
def drop (pair : OutputPair) (backend : Backend) : Backend :=
  dropOutput pair.desktop (dropOutput pair.gamepad backend)

/-- A lost interface: both outputs go away before new ones are made, and where these
cannot be made the bridge is left without. -/
def recreate (pair : OutputPair) (profile : Profile) (config : Config)
    (outputsEnabled : Bool) (backend : Backend) : OutputPair × Backend :=
  match createOutputs profile config outputsEnabled (pair.drop backend) with
  | (.error _, backend) => (none, backend)
  | (.ok fresh, backend) => (fresh, backend)

/-- What a bridge does with its outputs: the actions of an input, or new outputs. -/
inductive OutputCall where
  | process (actions : List OutputAction)
  | recreate

def call (profile : Profile) (config : Config) (outputsEnabled : Bool)
    (state : OutputPair × Backend) : OutputCall → OutputPair × Backend
  | .process actions =>
      (state.1, (state.1.emitActions outputsEnabled actions state.2).2)
  | .recreate => state.1.recreate profile config outputsEnabled state.2

end OutputPair

end Uinput

end Daemon

end Wiiland
