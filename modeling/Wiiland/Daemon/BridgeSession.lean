/-
The bridge as a session of the reactor.  What its controller and the system will answer
comes with the session.
-/
import Wiiland.Daemon.BridgeHealth
import Wiiland.Daemon.Platform

namespace Wiiland

namespace Daemon

open Hid

def maxEventsPerDrain : Nat := 256

/-- What one dispatch of the interface gives: the interfaces that it found lost and the event
it read, with what the system answers to the handling of the event. -/
inductive Dispatch where
  | event (lost : InterfaceMask) (event : Event) (answers : Answers)
  | wouldBlock
  | failed (errno : Int)

def ipcProfile (profile : Wiiland.Profile) : Ipc.Profile :=
  if profile = .gamepad then .gamepad
  else if profile = .desktop then .desktop
  else if profile = .both then .both
  else .none_

namespace BridgeDevice

/-- Handle events within a budget, up to one that ends the session. -/
def drainWith : Nat → List Dispatch → BridgeDevice →
    (Except Int BridgeAction × List Event) × List Dispatch × BridgeDevice
  | 0, dispatches, device => ((.ok .continue_, []), dispatches, device)
  | _ + 1, [], device => ((.ok .continue_, []), [], device)
  | _ + 1, .wouldBlock :: dispatches, device => ((.ok .continue_, []), dispatches, device)
  | _ + 1, .failed errno :: dispatches, device =>
      ((.error (ioErrno errno), []), dispatches, device)
  | budget + 1, .event lost event answers :: dispatches, device =>
      match (device.losing lost).handleEvent event answers with
      | (.ok .continue_, device, _) =>
          let ((result, events), dispatches, device) := drainWith budget dispatches device
          ((result, event :: events), dispatches, device)
      | (result, device, _) => ((result, [event]), dispatches, device)

def info (device : BridgeDevice) : Ipc.DeviceInfo where
  syspath := device.syspath
  profile := ipcProfile device.profile
  openedInterfaces := .ofBitVec device.openedIfaces.bits
  pendingInterfaces := .ofBitVec device.pendingIfaces.bits
  gamepadOutput := device.gamepad
  desktopOutput := device.desktop

end BridgeDevice

/-- A bridge with the dispatches of its interface, and the answers of the system to the
interfaces that it tries to open and to its pointer ticks; what is not told succeeds. -/
structure BridgeSession where
  device : BridgeDevice
  dispatches : List Dispatch := []
  attempts : List Attempts := []
  ticks : List Answers := []

instance : DeviceSession BridgeSession where
  path session := .ofString session.device.syspath
  info session := session.device.info
  drain session :=
    let (outcome, dispatches, device) :=
      session.device.drainWith maxEventsPerDrain session.dispatches
    (outcome, { session with device, dispatches })
  setCapture session enabled :=
    let (result, device) :=
      session.device.setCapture enabled (session.attempts.headD fun _ => none)
    (result, { session with device, attempts := session.attempts.drop 1 })
  pointerActive session := session.device.engine.pointerActive
  tickPointer session :=
    let (result, device, _) := session.device.tickPointer
      (session.ticks.headD ⟨fun _ => none, fun _ => none, fun _ => none⟩)
    (result, { session with device, ticks := session.ticks.drop 1 })

/-- A session has a capture flag, and a request sets it whether or not it succeeds. -/
class Capturing (D : Type) [DeviceSession D] where
  capture : D → Bool
  capture_setCapture : ∀ (device : D) (enabled : Bool),
    capture (DeviceSession.setCapture device enabled).2 = enabled

namespace BridgeDevice

variable (device : BridgeDevice)

theorem retryOpen_kept (attempts : Attempts) :
    (device.retryOpen attempts).2.syspath = device.syspath ∧
      (device.retryOpen attempts).2.capture = device.capture := by
  rw [retryOpen]
  split <;> exact ⟨rfl, rfl⟩

/-- The flag is set before anything can fail. -/
theorem setCapture_capture (enabled : Bool) (attempts : Attempts) :
    (device.setCapture enabled attempts).2.syspath = device.syspath ∧
      (device.setCapture enabled attempts).2.capture = enabled := by
  rw [setCapture]
  split
  · next hsame => exact ⟨rfl, hsame.symm⟩
  · exact retryOpen_kept (device.switchCapture enabled) attempts

theorem handleWatch_syspath (answers : Answers) :
    (device.handleWatch answers).2.1.syspath = device.syspath := by
  rw [handleWatch]
  split
  · exact (retryOpen_kept _ answers.attempts).1
  · have hreset : (device.resetSession answers.create).2.1.syspath = device.syspath := by
      rw [resetSession]
      simp only
      split <;> rfl
    split
    · next hafter =>
      rw [hafter] at hreset
      exact hreset
    · next hafter =>
      rw [hafter] at hreset
      exact (retryOpen_kept _ answers.attempts).1.trans hreset

theorem feedEngine_syspath (kind : EventKind) (emit : Nat → Option Int) :
    (device.feedEngine kind emit).2.1.syspath = device.syspath := by
  rw [feedEngine]
  split
  · split <;> rfl
  · rfl

theorem handleEvent_syspath (event : Event) (answers : Answers) :
    (device.handleEvent event answers).2.1.syspath = device.syspath := by
  rw [handleEvent]
  split
  · rfl
  · exact handleWatch_syspath device answers
  · exact feedEngine_syspath device event.kind answers.emit

theorem drainWith_syspath (budget : Nat) (dispatches : List Dispatch) :
    (device.drainWith budget dispatches).2.2.syspath = device.syspath := by
  induction budget generalizing dispatches device with
  | zero => rfl
  | succ budget ih =>
      rcases dispatches with _ | ⟨_ | _ | _, dispatches⟩
      · rfl
      · next lost event answers =>
        have hevent := handleEvent_syspath (device.losing lost) event answers
        rw [drainWith]
        split
        · next hafter =>
          rw [hafter] at hevent
          exact (ih _ dispatches).trans hevent
        · next hafter =>
          rw [hafter] at hevent
          exact hevent
      · rfl
      · rfl

/-- A bridge whose interfaces and outputs the system grants. -/
theorem withBackendOutputs_granted {syspath : String} {devtype : Option String}
    {config : Config} {outputsEnabled : Bool} {answers : Answers} {opened : InterfaceMask}
    {outputs : Bool × Bool} (hvalid : config.validate = .ok ())
    (hopen : Interface.openAll ⟨.empty⟩ (Daemon.requestedInterfaces
      (config.profileForDevice (some syspath) devtype) config) answers.attempts = (opened, 0))
    (houtputs : createOutputs (config.profileForDevice (some syspath) devtype) config
      outputsEnabled answers.create = .ok outputs) :
    withBackendOutputs syspath devtype config outputsEnabled answers =
      .ok (assemble syspath (config.profileForDevice (some syspath) devtype) ⟨config, hvalid⟩
        outputsEnabled ⟨opened⟩ opened outputs) := by
  have hresult : Interface.open_ ⟨.empty⟩ (Daemon.requestedInterfaces
      (config.profileForDevice (some syspath) devtype) config) answers.attempts =
        (.ok opened, ⟨opened⟩) := by
    rw [Interface.open_, hopen]
    rfl
  rw [withBackendOutputs, dif_pos hvalid]
  simp only [hresult, houtputs]
  split
  · next hfailed => cases hfailed
  · rfl

/-- A capture whose interfaces the system grants. -/
theorem setCapture_granted {attempts : Attempts} {opened : InterfaceMask}
    (hoff : device.capture = false)
    (hpending : (device.switchCapture true).pendingIfaces.isEmpty = false)
    (hopen : (device.switchCapture true).iface.openAll (device.switchCapture true).pendingIfaces
      attempts = (opened, 0))
    (hserves : (opened.inter device.requested).isEmpty = false) :
    device.setCapture true attempts = (.ok (), { device.switchCapture true with
      iface := ⟨opened⟩
      openedIfaces := opened
      pendingIfaces := (device.switchCapture true).pendingIfaces.diff opened }) := by
  have hresult : (device.switchCapture true).iface.open_
      (device.switchCapture true).pendingIfaces attempts = (.ok opened, ⟨opened⟩) := by
    rw [Interface.open_, hopen]
    rfl
  have hneeded : (opened.inter (device.switchCapture true).requested).isEmpty = false := hserves
  rw [setCapture, if_neg (by rw [hoff]; decide), retryOpen, hpending, hresult]
  simp only [Interface.openedOf, hneeded]
  rfl

end BridgeDevice

instance : Capturing BridgeSession where
  capture session := session.device.capture
  capture_setCapture session enabled :=
    (session.device.setCapture_capture enabled _).2

instance : LawfulSession BridgeSession where
  path_drain session :=
    congrArg PathBuf.ofString (session.device.drainWith_syspath maxEventsPerDrain _)
  path_setCapture session enabled :=
    congrArg PathBuf.ofString (session.device.setCapture_capture enabled _).1
  path_tickPointer _ := rfl
  info_syspath session := by
    change session.device.syspath = (PathBuf.ofString session.device.syspath).toStringLossy
    rw [PathBuf.toStringLossy, PathBuf.ofString, LossyText.decode_encode, String.ofList_toList]

/-- What the system answers while everything succeeds. -/
def Answers.granted : Answers := ⟨fun _ => none, fun _ => none, fun _ => none⟩

/-- A platform that opens bridges, with what the system answers to each.  libudev finds no
device at a path that its buffers do not hold. -/
structure BridgePlatform where
  opens : List Answers := []

instance : RuntimePlatform BridgePlatform BridgeSession where
  openDevice platform path config outputs :=
    if pathMax ≤ path.bytes.length then (.error (-enodev), platform)
    else ((BridgeDevice.withBackendOutputs path.toStringLossy none config outputs
        (platform.opens.headD .granted)).map fun device => { device },
      { platform with opens := platform.opens.drop 1 })
  startMonitor platform := (.ok (), platform)
  monitorFd _ := false
  drainMonitor platform _ := (.ok false, platform)
  requestSnapshot platform := (.ok (), platform)
  takeSnapshot platform := (none, platform)
  shutdownRequested platform := (false, platform)
  drainSignal platform := platform
  now platform := (0, platform)
  poll platform _ _ := (.interrupted, platform)
  processId _ := 1
  traceDropped _ := 0
  lifecycleDropped _ := 0

/-- A bridge keeps the path it is opened with. -/
theorem BridgeDevice.syspath_opened {syspath : String} {devtype : Option String}
    {config : Config} {outputsEnabled : Bool} {answers : Answers} {device : BridgeDevice}
    (hopened : withBackendOutputs syspath devtype config outputsEnabled answers = .ok device) :
    device.syspath = syspath := by
  rw [withBackendOutputs] at hopened
  split at hopened
  · simp only at hopened
    split at hopened
    · cases hopened
    · cases hcreated : createOutputs (config.profileForDevice (some syspath) devtype) config
          outputsEnabled answers.create with
      | error _ =>
          rw [hcreated] at hopened
          cases hopened
      | ok outputs =>
          rw [hcreated] at hopened
          cases hopened
          rfl
  · cases hopened

instance : SysfsPaths BridgePlatform where
  path_short platform later path config outputs device hopen := by
    by_cases hlong : pathMax ≤ path.bytes.length
    · cases (if_pos hlong).symm.trans hopen
    · obtain ⟨hdevice, -⟩ := Prod.mk.inj ((if_neg hlong).symm.trans hopen)
      cases hbridge : BridgeDevice.withBackendOutputs path.toStringLossy none config outputs
          (platform.opens.headD .granted) with
      | error _ =>
          rw [hbridge] at hdevice
          cases hdevice
      | ok bridge =>
          rw [hbridge] at hdevice
          cases hdevice
          have hshort : (LossyText.decode path.bytes).length < pathMax :=
            (LossyText.length_decode path.bytes).trans_lt (Nat.not_le.mp hlong)
          have hpath := LawfulSession.info_syspath (BridgeSession.mk bridge [] [] [])
          rw [ShortPath, ← hpath]
          change bridge.syspath.length < pathMax
          rw [BridgeDevice.syspath_opened hbridge, PathBuf.toStringLossy]
          exact (String.length_ofList).symm ▸ hshort

def gamepadInterfaces : InterfaceMask := InterfaceMask.all.diff .ir

theorem validate_default : ({} : Config).validate = .ok () := by rfl

/-- A bridge that was opened with the default configuration. -/
def plainBridge (syspath : String) : BridgeDevice :=
  .assemble syspath .gamepad ⟨{}, validate_default⟩ true ⟨gamepadInterfaces⟩ gamepadInterfaces
    (true, false)

theorem requestedInterfaces_gamepad :
    requestedInterfaces .gamepad {} = gamepadInterfaces := by
  decide

theorem openDevice_plain {path : PathBuf} (hpath : path.bytes.length < pathMax) :
    RuntimePlatform.openDevice (BridgePlatform.mk []) path {} true =
      (.ok { device := plainBridge path.toStringLossy }, BridgePlatform.mk []) := by
  have hprofile : ({} : Config).profileForDevice (some path.toStringLossy) none = .gamepad := rfl
  have hopen : Interface.openAll ⟨.empty⟩ gamepadInterfaces (fun _ => none) =
      (gamepadInterfaces, 0) := by decide
  have hopened : BridgeDevice.withBackendOutputs path.toStringLossy none {} true .granted =
      .ok (plainBridge path.toStringLossy) := by
    refine BridgeDevice.withBackendOutputs_granted validate_default ?_ ?_
    · rw [hprofile, requestedInterfaces_gamepad]
      exact hopen
    · rw [hprofile]
      rfl
  exact (if_neg (Nat.not_le.mpr hpath)).trans (congrArg (fun opened : Except Int BridgeDevice =>
    (opened.map fun device => BridgeSession.mk device [] [] [], BridgePlatform.mk [])) hopened)

theorem switchCapture_plain (syspath : String) : (plainBridge syspath).switchCapture true =
    { plainBridge syspath with pendingIfaces := .ir, capture := true } := by
  have hkept : gamepadInterfaces.diff ((gamepadInterfaces.diff .all).inter .all) =
      gamepadInterfaces := by decide
  have hrest : InterfaceMask.all.diff gamepadInterfaces = .ir := by decide
  change ({ plainBridge syspath with
    iface := ⟨gamepadInterfaces.diff ((gamepadInterfaces.diff .all).inter .all)⟩
    openedIfaces := gamepadInterfaces.diff ((gamepadInterfaces.diff .all).inter .all)
    pendingIfaces := InterfaceMask.all.diff
      (gamepadInterfaces.diff ((gamepadInterfaces.diff .all).inter .all))
    capture := true } : BridgeDevice) = _
  rw [hkept, hrest]
  rfl

/-- Such a bridge can capture, and tells all its interfaces. -/
theorem setCapture_plain (syspath : String) :
    (DeviceSession.setCapture (BridgeSession.mk (plainBridge syspath) [] [] []) true).1 =
        .ok () ∧
      DeviceSession.info
        (DeviceSession.setCapture (BridgeSession.mk (plainBridge syspath) [] [] []) true).2 =
          ⟨syspath, .gamepad, 32519, 0, true, false⟩ := by
  have hswitch := switchCapture_plain syspath
  have hopen : Interface.openAll ⟨gamepadInterfaces⟩ .ir (fun _ => none) = (.all, 0) := by
    decide
  have hserves : (InterfaceMask.all.inter gamepadInterfaces).isEmpty = false := by
    decide
  rw [← requestedInterfaces_gamepad] at hserves
  have hpending : InterfaceMask.ir.isEmpty = false := by decide
  have hcapture := @BridgeDevice.setCapture_granted (plainBridge syspath) (fun _ => none) .all
    rfl (by rw [hswitch]; exact hpending) (by rw [hswitch]; exact hopen) hserves
  rw [hswitch] at hcapture
  change ((plainBridge syspath).setCapture true fun _ => none).1 = .ok () ∧
    ((plainBridge syspath).setCapture true fun _ => none).2.info = _
  rw [hcapture]
  have hprofile : ipcProfile .gamepad = .gamepad := by decide
  have hopened : UInt32.ofBitVec InterfaceMask.all.bits = 32519 := by decide
  have hrest : UInt32.ofBitVec (InterfaceMask.ir.diff .all).bits = 0 := by decide
  refine ⟨rfl, ?_⟩
  rw [← hprofile, ← hopened, ← hrest]
  rfl

end Daemon

end Wiiland
