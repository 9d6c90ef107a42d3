/-
What the reactor asks of the system: device sessions, discovery, readiness and time.
A platform or a session carries in itself what it will answer.
-/
import Wiiland.Core.Config
import Wiiland.Daemon.Bridge
import Wiiland.Ipc.Protocol
import Wiiland.Lib.LossyText
import Wiiland.Lib.UnixPath

namespace Wiiland

namespace Daemon

open Hid Ipc

/-- The size of the buffers that the system and its libraries keep paths in. -/
def pathMax : Nat := 4096

structure PathBuf where
  bytes : List UInt8
deriving DecidableEq

namespace PathBuf

/-- What a comparison of paths looks at. -/
def components (path : PathBuf) : UnixPath.Path := UnixPath.ofBytes path.bytes

def ofString (text : String) : PathBuf := ⟨Text.encode text.toList⟩

def toStringLossy (path : PathBuf) : String := .ofList (LossyText.decode path.bytes)

end PathBuf

/-- One owned input/output session. -/
class DeviceSession (D : Type) where
  path : D → PathBuf
  info : D → DeviceInfo
  /-- The result of a drain and the events it observed. -/
  drain : D → (Except Int BridgeAction × List Event) × D
  setCapture : D → Bool → Except Int Unit × D
  pointerActive : D → Bool
  tickPointer : D → Except Int Unit × D

/-- A session keeps its path and shows it in its description. -/
class LawfulSession (D : Type) [DeviceSession D] : Prop where
  path_drain : ∀ device : D, DeviceSession.path (DeviceSession.drain device).2 =
    DeviceSession.path device
  path_setCapture : ∀ (device : D) (enabled : Bool),
    DeviceSession.path (DeviceSession.setCapture device enabled).2 = DeviceSession.path device
  path_tickPointer : ∀ device : D, DeviceSession.path (DeviceSession.tickPointer device).2 =
    DeviceSession.path device
  info_syspath : ∀ device : D,
    (DeviceSession.info device).syspath = (DeviceSession.path device).toStringLossy

/-- A completed snapshot: the number of the request it answers, which the code does not
see, and the paths that were found. -/
structure Snapshot where
  request : Nat
  paths : Except Int (List PathBuf)

/-- What poll reports for one descriptor. -/
structure Revents where
  pollin : Bool := false
  pollout : Bool := false
  pollerr : Bool := false
  pollhup : Bool := false
  pollnval : Bool := false

def Revents.any (revents : Revents) : Bool :=
  revents.pollin || revents.pollout || revents.pollerr || revents.pollhup || revents.pollnval

/-- What waits behind a descriptor that is polled. -/
inductive PollOwner where
  | signal
  | monitor
  | device (slot : Nat)
  | ipc (token : UInt64)
deriving DecidableEq

/-- How a poll ends: with the number of ready descriptors and what is reported for each. -/
inductive Polled where
  | ready (count : Nat) (revents : List Revents)
  | interrupted
  | failed (errno : Int)

class RuntimePlatform (P : Type) (D : outParam Type) where
  openDevice : P → PathBuf → Config → Bool → Except Int D × P
  startMonitor : P → Except Int Unit × P
  monitorFd : P → Bool
  drainMonitor : P → Nat → Except Int Bool × P
  requestSnapshot : P → Except Int Unit × P
  takeSnapshot : P → Option Snapshot × P
  shutdownRequested : P → Bool × P
  drainSignal : P → P
  /-- Microseconds of a clock that does not run backwards. -/
  now : P → Nat × P
  /-- The descriptors with whether they are polled for input and for output. -/
  poll : P → List (PollOwner × Bool × Bool) → Nat → Polled × P
  processId : P → UInt32
  traceDropped : P → UInt64
  lifecycleDropped : P → UInt64

/-- A session has the path it was opened with. -/
class OpensPath (P : Type) {D : Type} [DeviceSession D] [RuntimePlatform P D] : Prop where
  path_openDevice : ∀ (platform later : P) (path : PathBuf) (config : Config)
    (outputs : Bool) (device : D),
    RuntimePlatform.openDevice platform path config outputs = (.ok device, later) →
      DeviceSession.path device = path

/-- The text of the session's path is shorter than a path may be. -/
def ShortPath {D : Type} [DeviceSession D] (device : D) : Prop :=
  (DeviceSession.path device).toStringLossy.length < pathMax

/-- A session has a path that libudev found below `/sys` and resolved in such a buffer. -/
class SysfsPaths (P : Type) {D : Type} [DeviceSession D] [RuntimePlatform P D] : Prop where
  path_short : ∀ (platform later : P) (path : PathBuf) (config : Config)
    (outputs : Bool) (device : D),
    RuntimePlatform.openDevice platform path config outputs = (.ok device, later) →
      ShortPath device

end Daemon

end Wiiland
