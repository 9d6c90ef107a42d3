/-
The single-thread reactor: device slots, discovery, published notifications and the
commands of the socket's clients.
-/
import Wiiland.Core.ConfigText
import Wiiland.Daemon.Server

namespace Wiiland

namespace Daemon

open Hid Ipc

def maxDevices : Nat := 32

/-- Bound on the devices that are set up in one iteration. -/
def deviceSetupBudget : Nat := 2

def monitorEventBudget : Nat := 32

def enospc : Int := 28

def nextSequence (sequence : UInt64) : UInt64 :=
  let next := sequence + 1
  if next = 0 then 1 else next

def axis (value : Hid.Axis3) : Ipc.Axis3 :=
  ⟨.ofInt value.x, .ofInt value.y, .ofInt value.z⟩

def button (value : Wiiland.ButtonEvent) : Ipc.ButtonEvent :=
  ⟨.ofNat value.button.code, .ofNat value.state.value⟩

def inputPayload : EventKind → InputPayload
  | .key value => .key (button value)
  | .accel value => .accel (axis value)
  | .ir values => .ir (values.map axis)
  | .balanceBoard values => .balanceBoard (values.map axis)
  | .motionPlus value => .motionPlus (axis value)
  | .proControllerKey value => .proControllerKey (button value)
  | .proControllerMove values => .proControllerMove (values.map axis)
  | .watch => .watch
  | .classicControllerKey value => .classicControllerKey (button value)
  | .classicControllerMove values => .classicControllerMove (values.map axis)
  | .nunchukKey value => .nunchukKey (button value)
  | .nunchukMove values => .nunchukMove (values.map axis)
  | .drumsKey value => .drumsKey (button value)
  | .drumsMove values => .drumsMove (values.map axis)
  | .guitarKey value => .guitarKey (button value)
  | .guitarMove values => .guitarMove (values.map axis)
  | .gone => .gone
  | .unknown value => .unknown (.ofNat value)

def timestamp (event : Event) : Ipc.Timestamp :=
  ⟨.ofInt event.time.seconds, .ofNat event.time.microseconds⟩

/-- The notifications of a drain, numbered from a sequence number, and the last number. -/
def observe (syspath : String) : UInt64 → List Event → UInt64 × List Notification
  | sequence, [] => (sequence, [])
  | sequence, event :: events =>
      let next := nextSequence sequence
      let (last, inputs) := observe syspath next events
      (last, .input next syspath (timestamp event) (inputPayload event.kind) :: inputs)

namespace PathBuf

/-- Two paths are the same when their components are. -/
def same (first second : PathBuf) : Bool := first.components = second.components

end PathBuf

def pushUnique (paths : List PathBuf) (path : PathBuf) : Bool × List PathBuf :=
  if paths.any fun other => other.same path then (false, paths) else (true, paths ++ [path])

def missingSlots (active : List (Nat × PathBuf)) (present : List PathBuf) : List Nat :=
  active.filterMap fun (slot, path) =>
    if present.any fun item => item.same path then none else some slot

/-- What the reactor has asked of the system and published, in order.  A published
notification is kept with the path of the device it is about. -/
inductive Deed where
  | requested
  | requestFailed
  | took (snapshot : Snapshot)
  | opened (path : PathBuf)
  | published (path : PathBuf) (notification : Notification)

/-- The reactor; `deeds` is for the statements about it, and no function looks at it. -/
structure Runtime (P D : Type) where
  config : Config
  platform : P
  slots : List (Option D) := .replicate maxDevices none
  snapshotPending : Bool := false
  monitorPending : Bool := false
  dispatchStarted : Nat := 0
  reconcileAgain : Bool := false
  pendingAdditions : List PathBuf := []
  dryRun : Bool := false
  notificationSequence : UInt64 := 0
  ipc : Option IpcServer := none
  metrics : Diagnostics := {}
  deeds : List Deed := []

def statusSnapshot {D : Type} (slots : List (Option D)) (dryRun : Bool) (pid : UInt32)
    (socketPath : PathBuf) : Status where
  daemonVersion := daemonVersion
  pid := pid
  deviceCount := .ofNat (slots.countP Option.isSome)
  dryRun := dryRun
  socketPath := socketPath.toStringLossy

def deviceSnapshot {D : Type} [DeviceSession D] (slots : List (Option D)) :
    List DeviceInfo :=
  slots.filterMap fun slot => slot.map DeviceSession.info

namespace Runtime

variable {P D : Type} [DeviceSession D] [RuntimePlatform P D]

def withPlatform (config : Config) (platform : P) : Except Int (Runtime P D) :=
  match config.validate with
  | .error _ => .error (-einval)
  | .ok _ =>
      let (now, platform) := RuntimePlatform.now platform
      .ok { config, platform, dispatchStarted := now }

def did (runtime : Runtime P D) (deed : Deed) : Runtime P D :=
  { runtime with deeds := runtime.deeds ++ [deed] }

def device (runtime : Runtime P D) (slot : Nat) : Option D := runtime.slots[slot]?.join

def publish (codec : Codec) (runtime : Runtime P D) (path : PathBuf)
    (notification : Notification) : Runtime P D :=
  did
    { runtime with ipc := runtime.ipc.map fun server => server.publish codec notification }
    (.published path notification)

def publishAdded (codec : Codec) (runtime : Runtime P D) (device : D) : Runtime P D :=
  let sequence := nextSequence runtime.notificationSequence
  publish codec { runtime with notificationSequence := sequence }
    (DeviceSession.path device) (.deviceAdded sequence (DeviceSession.info device))

def publishRemoved (codec : Codec) (runtime : Runtime P D) (path : PathBuf)
    (reason : RemovalReason) : Runtime P D :=
  let sequence := nextSequence runtime.notificationSequence
  publish codec { runtime with notificationSequence := sequence }
    path (.deviceRemoved sequence path.toStringLossy reason)

def find (runtime : Runtime P D) (path : PathBuf) : Option Nat :=
  runtime.slots.findIdx? fun slot =>
    slot.any fun device => (DeviceSession.path device).same path

/-- Put an opened device into a free slot. -/
def insert (codec : Codec) (runtime : Runtime P D) (slot : Nat) (device : D) :
    Runtime P D :=
  publishAdded codec { runtime with slots := runtime.slots.set slot (some device) } device

def addPath (codec : Codec) (runtime : Runtime P D) (path : PathBuf) :
    Except Int Bool × Runtime P D :=
  if (runtime.find path).isSome then (.ok false, runtime)
  else
    match runtime.slots.findIdx? Option.isNone with
    | none => (.error (-enospc), runtime)
    | some slot =>
        match RuntimePlatform.openDevice runtime.platform path runtime.config
            (!runtime.dryRun) with
        | (.error code, platform) =>
            (.error code, did { runtime with platform } (.opened path))
        | (.ok device, platform) =>
            (.ok true, (did { runtime with platform } (.opened path)).insert codec slot device)

/-- Take a device out of its slot and tell so. -/
def dropSlot (codec : Codec) (runtime : Runtime P D) (slot : Nat) (path : PathBuf)
    (reason : RemovalReason) : Runtime P D :=
  if (runtime.device slot).isSome then
    publishRemoved codec { runtime with slots := runtime.slots.set slot none } path reason
  else runtime

def requestReconcile (runtime : Runtime P D) : Runtime P D :=
  if runtime.snapshotPending || runtime.pendingAdditions != [] then
    { runtime with reconcileAgain := true }
  else
    match RuntimePlatform.requestSnapshot runtime.platform with
    | (.ok _, platform) => did { runtime with platform, snapshotPending := true } .requested
    | (.error _, platform) => did { runtime with platform } .requestFailed

/-- The occupied slots with the paths of their devices. -/
def active (runtime : Runtime P D) : List (Nat × PathBuf) :=
  runtime.slots.zipIdx.filterMap fun (device, slot) =>
    device.map fun device => (slot, DeviceSession.path device)

/-- Drop the device of a slot that is missing from a snapshot. -/
def dropMissing (codec : Codec) (runtime : Runtime P D) (slot : Nat) : Runtime P D :=
  match runtime.device slot with
  | none => runtime
  | some device => runtime.dropSlot codec slot (DeviceSession.path device) .removed

/-- Add a path that is not active and not there yet. -/
def pushAddition (runtime : Runtime P D) (additions : List PathBuf) (path : PathBuf) :
    List PathBuf :=
  if (runtime.find path).isNone then (pushUnique additions path).2 else additions

def additions (runtime : Runtime P D) (paths : List PathBuf) : List PathBuf :=
  paths.foldl (pushAddition runtime) []

/-- Drop what a snapshot does not show and queue what it shows anew. -/
def applySnapshot (codec : Codec) (runtime : Runtime P D) (paths : List PathBuf) :
    Runtime P D :=
  let runtime := (missingSlots runtime.active paths).foldl (dropMissing codec) runtime
  { runtime with pendingAdditions := runtime.pendingAdditions ++ runtime.additions paths }

/-- Apply a snapshot that has been completed. -/
def takeSnapshot (codec : Codec) (runtime : Runtime P D) : Runtime P D :=
  if runtime.snapshotPending then
    match RuntimePlatform.takeSnapshot runtime.platform with
    | (none, platform) => { runtime with platform }
    | (some snapshot, platform) =>
        let runtime := did { runtime with platform, snapshotPending := false } (.took snapshot)
        match snapshot.paths with
        | .ok paths => runtime.applySnapshot codec paths
        | .error _ => runtime
  else runtime

/-- Set up queued devices within a budget. -/
def setUp (codec : Codec) : Nat → Runtime P D → Runtime P D
  | 0, runtime => runtime
  | budget + 1, runtime =>
      match runtime.pendingAdditions with
      | [] => runtime
      | path :: rest =>
          setUp codec budget (addPath codec { runtime with pendingAdditions := rest } path).2

/-- A request that was put off is made when no discovery work is left. -/
def retryReconcile (runtime : Runtime P D) : Runtime P D :=
  if !runtime.snapshotPending && runtime.pendingAdditions == [] && runtime.reconcileAgain then
    requestReconcile { runtime with reconcileAgain := false }
  else runtime

/-- Apply completed discovery work between readiness batches. -/
def serviceDiscovery (codec : Codec) (runtime : Runtime P D) : Runtime P D :=
  (setUp codec deviceSetupBudget (runtime.takeSnapshot codec)).retryReconcile

/-- Number the events of a drain, then publish them. -/
def collect (codec : Codec) (runtime : Runtime P D) (path : PathBuf)
    (events : List Event) : Runtime P D :=
  let (last, inputs) := observe path.toStringLossy runtime.notificationSequence events
  inputs.foldl (fun runtime input => runtime.publish codec path input)
    { runtime with notificationSequence := last }

/-- Drain a device, and publish what it observed when somebody listens. -/
def drainSession (codec : Codec) (runtime : Runtime P D) (slot : Nat) (device : D) :
    Except Int BridgeAction × Runtime P D :=
  let ((outcome, events), drained) := DeviceSession.drain device
  let listens := runtime.ipc.any IpcServer.hasInputSubscribers
  let runtime := { runtime with slots := runtime.slots.set slot (some drained) }
  (outcome,
    if listens then runtime.collect codec (DeviceSession.path device) events else runtime)

def drainDevice (codec : Codec) (single : Bool) (runtime : Runtime P D) (slot : Nat) :
    Except Int Unit × Runtime P D :=
  match runtime.device slot with
  | none => (.ok (), runtime)
  | some device =>
      let path := DeviceSession.path device
      match runtime.drainSession codec slot device with
      | (.ok .continue_, runtime) => (.ok (), runtime)
      | (.ok .gone, runtime) => (.ok (), runtime.dropSlot codec slot path .gone)
      | (.error code, runtime) =>
          (if single then .error code else .ok (),
            runtime.dropSlot codec slot path .drainError)

def tickSlot (codec : Codec) (single : Bool) (runtime : Runtime P D) (slot : Nat) :
    Except Int Unit × Runtime P D :=
  match runtime.device slot with
  | none => (.ok (), runtime)
  | some device =>
      if DeviceSession.pointerActive device then
        let (result, ticked) := DeviceSession.tickPointer device
        let runtime := { runtime with slots := runtime.slots.set slot (some ticked) }
        match result with
        | .ok _ => (.ok (), runtime)
        | .error code =>
            (if single then .error code else .ok (),
              runtime.dropSlot codec slot (DeviceSession.path ticked) .pointerError)
      else (.ok (), runtime)

def controlCommand (runtime : Runtime P D) : Command →
    Except ProtocolError ResponseResult × Runtime P D
  | .diagnostics =>
      (.ok (.diagnostics { runtime.metrics with
        traceRecordsDropped := RuntimePlatform.traceDropped runtime.platform
        lifecycleRecordsDropped := RuntimePlatform.lifecycleDropped runtime.platform }),
        runtime)
  | .config => (.ok (.config (dump runtime.config)), runtime)
  | .startCapture syspath =>
      match (runtime.find (.ofString syspath)).bind fun slot =>
          (runtime.device slot).map fun device => (slot, device) with
      | none =>
          (.error (protocolError .invalidRequest "device is not owned by this daemon"), runtime)
      | some (slot, device) =>
          let (result, captured) := DeviceSession.setCapture device true
          let runtime := { runtime with slots := runtime.slots.set slot (some captured) }
          match result with
          | .error code =>
              (.error (protocolError .internal s!"cannot open capture interfaces: {code}"),
                runtime)
          | .ok _ => (.ok (.captureStarted (DeviceSession.info captured)), runtime)
  | .stopCapture => (.ok .captureStopped, runtime)
  | _ => (.error (protocolError .unknownCommand "unsupported control command"), runtime)

/-- Run one command that was taken and answer it. -/
def completeCommand (codec : Codec) (runtime : Runtime P D)
    (command : UInt64 × UInt64 × Command) : Runtime P D :=
  let (token, id, command) := command
  let (result, runtime) := runtime.controlCommand command
  { runtime with
    ipc := runtime.ipc.map fun server => server.completeCommand codec token id result }

/-- The commands that the connections left to the reactor. -/
def takeCommands (runtime : Runtime P D) :
    List (UInt64 × UInt64 × Command) × Runtime P D :=
  match runtime.ipc with
  | none => ([], runtime)
  | some server =>
      let (commands, server) := server.takeCommands
      (commands, { runtime with ipc := some server })

/-- Every device captures exactly when a lease names it. -/
def syncCaptures (runtime : Runtime P D) : Runtime P D :=
  let captures := runtime.ipc.elim [] IpcServer.capturePaths
  { runtime with
    slots := runtime.slots.map fun slot => slot.map fun device =>
      (DeviceSession.setCapture device (captures.any fun path =>
        (PathBuf.ofString path).same (DeviceSession.path device))).2 }

def serviceCommands (codec : Codec) (runtime : Runtime P D) : Runtime P D :=
  let (commands, runtime) := runtime.takeCommands
  (commands.foldl (completeCommand codec) runtime).syncCaptures

/-- What one poll waits for. -/
def pollOwners (runtime : Runtime P D) : List (PollOwner × Bool × Bool) :=
  (.signal, true, false) ::
    (if RuntimePlatform.monitorFd runtime.platform then [(.monitor, true, false)] else []) ++
    runtime.active.map (fun entry => (.device entry.1, true, false)) ++
    (runtime.ipc.elim [] IpcServer.pollSources).map fun source =>
      (.ipc source.token, source.pollin, source.pollout)

/-- Each owner with what is reported for it. -/
def reports (owners : List (PollOwner × Bool × Bool)) (revents : List Revents) :
    List (PollOwner × Revents) :=
  owners.zipIdx.map fun (owner, index) => (owner.1, revents.getD index {})

/-- Drain the ready devices; in single mode an error ends the run. -/
def drainReady (codec : Codec) (single : Bool) : List (PollOwner × Revents) →
    Runtime P D → Except Int Unit × Runtime P D
  | [], runtime => (.ok (), runtime)
  | (.device slot, revents) :: rest, runtime =>
      if revents.any then
        match runtime.drainDevice codec single slot with
        | (.error code, runtime) => (.error code, runtime)
        | (.ok _, runtime) => drainReady codec single rest runtime
      else drainReady codec single rest runtime
  | _ :: rest, runtime => drainReady codec single rest runtime

/-- Read monitor events, then ask for a snapshot. -/
def pollMonitor (runtime : Runtime P D) : Runtime P D :=
  let (result, platform) := RuntimePlatform.drainMonitor runtime.platform monitorEventBudget
  requestReconcile
    { runtime with
      platform
      monitorPending := match result with
        | .ok pending => pending
        | .error _ => false }

/-- One connection's turn, or the listener's. -/
def handleReady (codec : Codec) (runtime : Runtime P D) (token : UInt64)
    (revents : Revents) : Except Int Unit × Runtime P D :=
  match runtime.ipc with
  | none => (.ok (), runtime)
  | some server =>
      let (result, server) := server.handleReady codec
        (statusSnapshot runtime.slots runtime.dryRun
          (RuntimePlatform.processId runtime.platform))
        (deviceSnapshot runtime.slots) token revents
      (result, { runtime with ipc := some server })

def serveReady (codec : Codec) : List (PollOwner × Revents) → Runtime P D →
    Except Int Unit × Runtime P D
  | [], runtime => (.ok (), runtime)
  | (.ipc token, revents) :: rest, runtime =>
      if revents.any then
        match runtime.handleReady codec token revents with
        | (.error code, runtime) => (.error code, runtime)
        | (.ok _, runtime) => serveReady codec rest runtime
      else serveReady codec rest runtime
  | _ :: rest, runtime => serveReady codec rest runtime

/-- Serve what a poll reported, up to the commands of the connections. -/
def dispatch (codec : Codec) (single : Bool) (reported : List (PollOwner × Revents))
    (runtime : Runtime P D) : Except Int Unit × Runtime P D :=
  match drainReady codec single reported runtime with
  | (.error code, runtime) => (.error code, runtime)
  | (.ok _, runtime) =>
      let monitorReady := reported.any fun entry => entry.1 == .monitor && entry.2.any
      serveReady codec reported
        (if monitorReady || runtime.monitorPending then runtime.pollMonitor else runtime)

/-- One poll and what it leads to, up to the commands of the connections: whether the run
is over, or none when the commands are next. -/
def pollReady (codec : Codec) (timeout : Nat) (single : Bool) (runtime : Runtime P D) :
    Except Int (Option Bool) × Runtime P D :=
  let owners := runtime.pollOwners
  let (polled, platform) := RuntimePlatform.poll runtime.platform owners timeout
  let (now, platform) := RuntimePlatform.now platform
  let (shutdown, platform) := RuntimePlatform.shutdownRequested platform
  let runtime := { runtime with platform, dispatchStarted := now }
  let drained := { runtime with platform := RuntimePlatform.drainSignal platform }
  if shutdown then (.ok (some true), drained)
  else
    match polled with
    | .interrupted => (.ok (some false), runtime)
    | .failed errno => (.error (ioErrno errno), runtime)
    | .ready count revents =>
        let reported := reports owners revents
        if reported.any fun entry => entry.1 == .signal && entry.2.any then
          (.ok (some true), drained)
        else if count = 0 && !runtime.monitorPending then (.ok (some false), runtime)
        else
          match runtime.dispatch codec single reported with
          | (.error code, runtime) => (.error code, runtime)
          | (.ok _, runtime) => (.ok none, runtime)

/-- One iteration; true when the run is over. -/
def pollOnce (codec : Codec) (timeout : Nat) (single : Bool) (runtime : Runtime P D) :
    Except Int Bool × Runtime P D :=
  match runtime.pollReady codec timeout single with
  | (.error code, runtime) => (.error code, runtime)
  | (.ok (some ended), runtime) => (.ok ended, runtime)
  | (.ok none, runtime) => (.ok false, runtime.serviceCommands codec)

/-- A reactor before its first step, with a socket or without. -/
def start (config : Config) (dryRun : Bool) (platform : P) (ipc : Option IpcServer) :
    Runtime P D :=
  { config, dryRun, platform, ipc }

end Runtime

/-- What the reactor does, in any order, and what happens around it: time passes, and the
hash map of the connections changes its order. -/
inductive ReactorStep (P : Type) where
  | addPath (path : PathBuf)
  | requestReconcile
  | serviceDiscovery
  | drainDevice (single : Bool) (slot : Nat)
  | tickSlot (single : Bool) (slot : Nat)
  | handleReady (token : UInt64) (revents : Revents)
  | serviceCommands
  | rehash (before : UInt64 → UInt64 → Bool)
  | elapse (platform : P) (dispatchStarted : Nat) (monitorPending : Bool)
      (metrics : Diagnostics)

namespace Runtime

variable {P D : Type} [DeviceSession D] [RuntimePlatform P D]

def step (codec : Codec) (runtime : Runtime P D) : ReactorStep P → Runtime P D
  | .addPath path => (runtime.addPath codec path).2
  | .requestReconcile => runtime.requestReconcile
  | .serviceDiscovery => runtime.serviceDiscovery codec
  | .drainDevice single slot => (runtime.drainDevice codec single slot).2
  | .tickSlot single slot => (runtime.tickSlot codec single slot).2
  | .handleReady token revents => (runtime.handleReady codec token revents).2
  | .serviceCommands => runtime.serviceCommands codec
  | .rehash before => { runtime with ipc := runtime.ipc.map fun server => server.rehash before }
  | .elapse platform dispatchStarted monitorPending metrics =>
      { runtime with platform, dispatchStarted, monitorPending, metrics }

def run (codec : Codec) (runtime : Runtime P D) (steps : List (ReactorStep P)) : Runtime P D :=
  steps.foldl (step codec) runtime

end Runtime

end Daemon

end Wiiland
