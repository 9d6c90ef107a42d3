/-
What one step does to the interfaces of a device: opening never closes, the
record of what is open stays true, and a device that serves its profile keeps
serving it through capture.
-/
import Wiiland.Daemon.Bridge

namespace Wiiland

namespace Daemon

open Hid

/-- Two devices with the same session: they differ in what they hold open. -/
structure SameSession (first second : BridgeDevice) : Prop where
  profile : first.profile = second.profile
  config : first.config = second.config
  engine : first.engine = second.engine
  gamepad : first.gamepad = second.gamepad
  desktop : first.desktop = second.desktop
  outputs : first.outputsEnabled = second.outputsEnabled

namespace SameSession

theorem refl (device : BridgeDevice) : SameSession device device :=
  ⟨rfl, rfl, rfl, rfl, rfl, rfl⟩

theorem symm {first second : BridgeDevice} (hsame : SameSession first second) :
    SameSession second first :=
  ⟨hsame.profile.symm, hsame.config.symm, hsame.engine.symm, hsame.gamepad.symm,
    hsame.desktop.symm, hsame.outputs.symm⟩

theorem trans {first second third : BridgeDevice} (hfirst : SameSession first second)
    (hsecond : SameSession second third) : SameSession first third :=
  ⟨hfirst.profile.trans hsecond.profile, hfirst.config.trans hsecond.config,
    hfirst.engine.trans hsecond.engine, hfirst.gamepad.trans hsecond.gamepad,
    hfirst.desktop.trans hsecond.desktop, hfirst.outputs.trans hsecond.outputs⟩

theorem requested {first second : BridgeDevice} (hsame : SameSession first second) :
    first.requested = second.requested := by
  rw [BridgeDevice.requested, BridgeDevice.requested, hsame.profile, hsame.config]

end SameSession

/-- The needed interfaces that are open. -/
def BridgeDevice.needed (device : BridgeDevice) : InterfaceMask :=
  device.iface.opened.inter device.requested

/-- A device that can drive its outputs: its record is true, and one of the
interfaces it needs is open. -/
structure Healthy (device : BridgeDevice) : Prop where
  recorded : device.openedIfaces = device.iface.opened
  serves : device.needed.isEmpty = false

theorem all_contains_requested (p : Profile) (c : Config) :
    InterfaceMask.all.contains (requestedInterfaces p c) = true := by
  unfold requestedInterfaces
  cases c.aimSource <;> split_ifs <;> rfl

theorem requested_nonempty {p : Profile} (hvalid : p.isValid = true) (c : Config) :
    (requestedInterfaces p c).isEmpty = false := by
  unfold requestedInterfaces
  rcases (Profile.isValid_iff p).mp hvalid with rfl | rfl | rfl <;>
    cases c.aimSource <;> split_ifs <;> first | rfl | contradiction

/-- The device after some interfaces closed under it. -/
def BridgeDevice.losing (device : BridgeDevice) (lost : InterfaceMask) : BridgeDevice :=
  { device with iface := ⟨device.iface.opened.diff lost⟩ }

namespace BridgeDevice

theorem guard_eq_ok {failed : Bool} {error : Int} :
    (if failed then .error error else .ok ()) = (.ok () : Except Int Unit) ↔
      failed = false := by
  cases failed <;> simp

/-- A retry with something pending opens what it can and fails without a needed
interface. -/
theorem retryOpen_pending {device : BridgeDevice}
    (hpending : device.pendingIfaces.isEmpty = false) (attempts : Attempts) :
    ∃ error,
      device.retryOpen attempts =
        let opened := (device.iface.openAll device.pendingIfaces attempts).1
        (if (opened.inter device.requested).isEmpty then .error error else .ok (),
          { device with
              iface := ⟨opened⟩
              openedIfaces := opened
              pendingIfaces := device.pendingIfaces.diff opened }) := by
  obtain ⟨hopened, hiface⟩ :=
    Interface.openedOf_open device.iface device.pendingIfaces attempts
  unfold retryOpen
  rw [if_neg (by simp [hpending])]
  rcases hopen : device.iface.open_ device.pendingIfaces attempts with ⟨result, iface⟩
  rw [hopen] at hopened hiface
  obtain rfl : iface = ⟨(device.iface.openAll device.pendingIfaces attempts).1⟩ := by
    rw [← hiface]
  simp only at hopened
  refine ⟨retryError result, ?_⟩
  simp only [hopened]
  cases hserves : InterfaceMask.isEmpty _ <;> rfl

/-- What a retry does: it only opens, keeps the record true, and fails exactly
when something was pending and nothing needed is open afterwards. -/
theorem retryOpen_spec (device : BridgeDevice) (attempts : Attempts) :
    SameSession (device.retryOpen attempts).2 device ∧
    (∀ i, device.iface.opened.has i = true →
      (device.retryOpen attempts).2.iface.opened.has i = true) ∧
    (device.openedIfaces = device.iface.opened →
      (device.retryOpen attempts).2.openedIfaces =
        (device.retryOpen attempts).2.iface.opened) ∧
    ((device.retryOpen attempts).1 = .ok () ↔
      device.pendingIfaces.isEmpty = true ∨
        (device.retryOpen attempts).2.needed.isEmpty = false) := by
  cases hpending : device.pendingIfaces.isEmpty with
  | true =>
      rw [retryOpen, if_pos hpending]
      exact ⟨.refl device, fun i h => h, fun h => h, by simp⟩
  | false =>
      obtain ⟨error, hretry⟩ := retryOpen_pending hpending attempts
      rw [hretry]
      refine ⟨⟨rfl, rfl, rfl, rfl, rfl, rfl⟩,
        fun i => device.iface.openAll_mono device.pendingIfaces attempts,
        fun _ => rfl, ?_⟩
      simp only [Bool.false_eq_true, false_or]
      exact guard_eq_ok

/-- Opening never loses a needed interface. -/
theorem needed_mono {first second : BridgeDevice} (hsame : SameSession second first)
    (hmono : ∀ i, first.iface.opened.has i = true → second.iface.opened.has i = true)
    (hserves : first.needed.isEmpty = false) : second.needed.isEmpty = false := by
  rw [InterfaceMask.not_isEmpty_iff] at hserves ⊢
  obtain ⟨i, hhas⟩ := hserves
  rw [needed, InterfaceMask.has_inter, Bool.and_eq_true] at hhas
  refine ⟨i, ?_⟩
  rw [needed, hsame.requested, InterfaceMask.has_inter, hmono i hhas.1, hhas.2]
  rfl

theorem retryOpen_healthy {device : BridgeDevice} (hhealthy : Healthy device)
    (attempts : Attempts) :
    Healthy (device.retryOpen attempts).2 ∧ (device.retryOpen attempts).1 = .ok () := by
  obtain ⟨hsame, hmono, hrecorded, hok⟩ := device.retryOpen_spec attempts
  have hserves := needed_mono hsame hmono hhealthy.serves
  exact ⟨⟨hrecorded hhealthy.recorded, hserves⟩, hok.mpr (Or.inr hserves)⟩

/-- Switching capture closes no interface the session needs. -/
theorem switchCapture_needed (device : BridgeDevice) (enabled : Bool) {i : Nat}
    (hhas : device.needed.has i = true) :
    (device.switchCapture enabled).needed.has i = true := by
  rw [needed, InterfaceMask.has_inter, Bool.and_eq_true] at hhas
  obtain ⟨hopened, hrequested⟩ := hhas
  have hdesired : (BridgeDevice.requestedInterfaces
      { device with capture := enabled }).has i = true := by
    cases enabled with
    | true =>
        have hall := all_contains_requested device.profile device.config
        exact (InterfaceMask.contains_iff _ _).mp hall i hrequested
    | false => exact hrequested
  have hkept : (device.switchCapture enabled).iface.opened.has i = true := by
    simp only [switchCapture, Interface.close, InterfaceMask.has_diff,
      InterfaceMask.has_inter, hopened, hdesired]
    rfl
  rw [needed, InterfaceMask.has_inter, hkept]
  exact hrequested

theorem switchCapture_healthy {device : BridgeDevice} (hhealthy : Healthy device)
    (enabled : Bool) : Healthy (device.switchCapture enabled) := by
  obtain ⟨i, hhas⟩ := (InterfaceMask.not_isEmpty_iff _).mp hhealthy.serves
  exact ⟨rfl, (InterfaceMask.not_isEmpty_iff _).mpr
    ⟨i, device.switchCapture_needed enabled hhas⟩⟩

/-- Capture keeps the session and leaves the device healthy. -/
theorem setCapture_healthy {device : BridgeDevice} (hhealthy : Healthy device)
    (enabled : Bool) (attempts : Attempts) :
    SameSession (device.setCapture enabled attempts).2 device ∧
      Healthy (device.setCapture enabled attempts).2 := by
  unfold setCapture
  split
  · exact ⟨.refl device, hhealthy⟩
  · have hswitched := switchCapture_healthy hhealthy enabled
    have hframe := ((device.switchCapture enabled).retryOpen_spec attempts).1
    exact ⟨hframe.trans ⟨rfl, rfl, rfl, rfl, rfl, rfl⟩,
      (retryOpen_healthy hswitched attempts).1⟩

/-- After a look at what is open, a retry succeeds exactly when something needed
is open. -/
theorem reopen_spec {device : BridgeDevice}
    (hrequested : device.requested.isEmpty = false) (attempts : Attempts) :
    SameSession (device.reopen attempts).2 device ∧
    (device.reopen attempts).2.openedIfaces =
      (device.reopen attempts).2.iface.opened ∧
    ((device.reopen attempts).1 = .ok () ↔
      (device.reopen attempts).2.needed.isEmpty = false) := by
  unfold reopen
  obtain ⟨hsame, hmono, hrecorded, hok⟩ := retryOpen_spec
    { device with
        openedIfaces := device.iface.opened
        pendingIfaces := device.requestedInterfaces.diff device.iface.opened } attempts
  refine ⟨hsame.trans ⟨rfl, rfl, rfl, rfl, rfl, rfl⟩, hrecorded rfl, ?_⟩
  rw [hok]
  refine ⟨fun h => h.elim (fun hnone => ?_) id, Or.inr⟩
  obtain ⟨i, hhas⟩ := (InterfaceMask.not_isEmpty_iff _).mp hrequested
  have hnone := (InterfaceMask.isEmpty_iff _).mp hnone i
  have hdesired : device.requestedInterfaces.has i = true := by
    unfold BridgeDevice.requestedInterfaces
    split
    · exact (InterfaceMask.contains_iff _ _).mp (all_contains_requested _ _) i hhas
    · exact hhas
  rw [InterfaceMask.has_diff, hdesired, Bool.true_and, Bool.not_eq_false'] at hnone
  rw [InterfaceMask.not_isEmpty_iff]
  refine ⟨i, ?_⟩
  rw [needed, hsame.requested, InterfaceMask.has_inter, hmono i hnone]
  exact hhas

theorem resetSession_frame (device : BridgeDevice) (create : OutputDevice → Option Int) :
    (device.resetSession create).2.1.profile = device.profile ∧
      (device.resetSession create).2.1.config = device.config ∧
      (device.resetSession create).2.1.iface = device.iface := by
  unfold resetSession
  simp only
  split <;> exact ⟨rfl, rfl, rfl⟩

theorem resetSession_alike {first second : BridgeDevice}
    (hsame : SameSession first second) (create : OutputDevice → Option Int) :
    (first.resetSession create).1 = (second.resetSession create).1 ∧
      (first.resetSession create).2.2 = (second.resetSession create).2.2 ∧
      SameSession (first.resetSession create).2.1 (second.resetSession create).2.1 := by
  unfold resetSession
  simp only [hsame.profile, hsame.config, hsame.outputs, hsame.engine]
  cases createOutputs second.profile second.config second.outputsEnabled create with
  | error error => exact ⟨rfl, rfl, ⟨rfl, rfl, rfl, rfl, rfl, rfl⟩⟩
  | ok outputs => exact ⟨rfl, rfl, ⟨rfl, rfl, rfl, rfl, rfl, rfl⟩⟩

/-- A handled watch that keeps the session alive leaves the device healthy. -/
theorem handleWatch_healthy {device : BridgeDevice} {answers : Answers}
    (hrequested : device.requested.isEmpty = false)
    (hok : (device.handleWatch answers).1 = .ok ()) :
    Healthy (device.handleWatch answers).2.1 := by
  unfold handleWatch at hok ⊢
  split at hok
  · rename_i hlost
    rw [if_pos hlost]
    obtain ⟨_, hrecorded, hserves⟩ := reopen_spec hrequested answers.attempts
    exact ⟨hrecorded, hserves.mp hok⟩
  · rename_i hlost
    rw [if_neg hlost]
    have hframe := device.resetSession_frame answers.create
    rcases hreset : device.resetSession answers.create with ⟨_ | _, reset, shown⟩
    · rw [hreset] at hok
      cases hok
    · rw [hreset] at hok hframe
      have hreset_requested : reset.requested.isEmpty = false := by
        rw [requested, hframe.1, hframe.2.1]
        exact hrequested
      obtain ⟨_, hrecorded, hserves⟩ := reopen_spec hreset_requested answers.attempts
      exact ⟨hrecorded, hserves.mp hok⟩

/-- Two devices of one session that lost the same needed interfaces, and have the
same ones afterwards, handle a watch alike. -/
theorem handleWatch_alike {first second : BridgeDevice}
    (hsame : SameSession first second)
    (hlost : first.lostInterfaces = second.lostInterfaces)
    (hrequested : first.requested.isEmpty = false) {answers others : Answers}
    (hcreate : answers.create = others.create)
    (hneeded : (first.handleWatch answers).2.1.needed =
      (second.handleWatch others).2.1.needed) :
    (first.handleWatch answers).2.2 = (second.handleWatch others).2.2 ∧
      ((first.handleWatch answers).1 = .ok () ↔
        (second.handleWatch others).1 = .ok ()) ∧
      SameSession (first.handleWatch answers).2.1 (second.handleWatch others).2.1 := by
  have hother : second.requested.isEmpty = false := by
    rw [← hsame.requested]
    exact hrequested
  unfold handleWatch at hneeded ⊢
  rw [← hlost] at hneeded ⊢
  cases hnone : first.lostInterfaces.isEmpty with
  | true =>
      rw [if_pos hnone, if_pos hnone] at hneeded
      rw [if_pos rfl, if_pos rfl]
      obtain ⟨hfirst, _, hfirst_ok⟩ := reopen_spec hrequested answers.attempts
      obtain ⟨hsecond, _, hsecond_ok⟩ := reopen_spec hother others.attempts
      refine ⟨rfl, ?_, hfirst.trans (hsame.trans hsecond.symm)⟩
      rw [hfirst_ok, hsecond_ok, hneeded]
  | false =>
      rw [if_neg (by simp [hnone]), if_neg (by simp [hnone])] at hneeded
      rw [if_neg Bool.false_ne_true, if_neg Bool.false_ne_true]
      have hframe := first.resetSession_frame answers.create
      have hframe' := second.resetSession_frame others.create
      obtain ⟨hresult, hshown, hafter⟩ := resetSession_alike hsame answers.create
      rw [hcreate] at hresult hshown hafter hframe hneeded ⊢
      rcases hreset : first.resetSession others.create with ⟨result, reset, shown⟩
      rcases hreset' : second.resetSession others.create with ⟨result', reset', shown'⟩
      rw [hreset, hreset'] at hresult hshown hafter hneeded
      rw [hreset] at hframe
      rw [hreset'] at hframe'
      simp only at hresult hshown hafter hframe hframe'
      subst hresult hshown
      cases result with
      | error error => exact ⟨rfl, Iff.rfl, hafter⟩
      | ok _ =>
          have hreset_requested : reset.requested.isEmpty = false := by
            rw [requested, hframe.1, hframe.2.1]
            exact hrequested
          have hreset_other : reset'.requested.isEmpty = false := by
            rw [requested, hframe'.1, hframe'.2.1]
            exact hother
          simp only at hneeded ⊢
          obtain ⟨hfirst, _, hfirst_ok⟩ := reopen_spec hreset_requested answers.attempts
          obtain ⟨hsecond, _, hsecond_ok⟩ := reopen_spec hreset_other others.attempts
          refine ⟨trivial, ?_, hfirst.trans (hafter.trans hsecond.symm)⟩
          rw [hfirst_ok, hsecond_ok, hneeded]

theorem emitAll_alike {first second : BridgeDevice} (hsame : SameSession first second)
    (emit : Nat → Option Int) (n : Nat) (actions : List OutputAction) :
    first.emitAll emit n actions = second.emitAll emit n actions := by
  have houtput : ∀ target, first.hasOutput target = second.hasOutput target := by
    rintro (_ | _)
    · exact hsame.gamepad
    · exact hsame.desktop
  induction actions generalizing n with
  | nil => rfl
  | cons action rest ih =>
      rw [emitAll, emitAll, houtput, ih]

/-- Two devices of one session process an input alike. -/
theorem process_alike {first second : BridgeDevice} (hsame : SameSession first second)
    (input : EngineInput) (emit : Nat → Option Int) :
    (first.process input emit).1 = (second.process input emit).1 ∧
      (first.process input emit).2.2 = (second.process input emit).2.2 ∧
      SameSession (first.process input emit).2.1 (second.process input emit).2.1 := by
  unfold process
  rw [hsame.engine]
  have hafter : SameSession
      { first with engine := (second.engine.process input).1 }
      { second with engine := (second.engine.process input).1 } :=
    ⟨hsame.profile, hsame.config, rfl, hsame.gamepad, hsame.desktop, hsame.outputs⟩
  refine ⟨?_, rfl, hafter⟩
  simp only [emitAll_alike hafter]
  rw [hsame.outputs]

theorem process_healthy {device : BridgeDevice} (hhealthy : Healthy device)
    (input : EngineInput) (emit : Nat → Option Int) :
    Healthy (device.process input emit).2.1 :=
  ⟨hhealthy.recorded, hhealthy.serves⟩

/-- With a true record there is nothing to report. -/
theorem lostInterfaces_recorded {device : BridgeDevice}
    (hrecorded : device.openedIfaces = device.iface.opened) :
    device.lostInterfaces = .empty := by
  ext i
  rw [lostInterfaces, hrecorded, InterfaceMask.has_inter, InterfaceMask.has_diff,
    InterfaceMask.has_empty]
  cases device.iface.opened.has i <;> rfl

/-- A true record turns the closed interfaces that were needed into the lost ones. -/
theorem lostInterfaces_losing {device : BridgeDevice}
    (hrecorded : device.openedIfaces = device.iface.opened) (lost : InterfaceMask) :
    (device.losing lost).lostInterfaces =
      device.needed.inter (lost.inter device.requested) := by
  ext i
  simp only [lostInterfaces, losing, needed, requested, hrecorded,
    InterfaceMask.has_inter, InterfaceMask.has_diff]
  cases device.iface.opened.has i <;> cases lost.has i <;> simp

/-- Losing interfaces that are not needed loses nothing the session needs. -/
theorem needed_losing {device : BridgeDevice} {lost : InterfaceMask}
    (hlost : (lost.inter device.requested).isEmpty = true) :
    (device.losing lost).needed = device.needed := by
  rw [InterfaceMask.isEmpty_iff] at hlost
  ext i
  have hbit := hlost i
  simp only [losing, needed, requested, InterfaceMask.has_inter,
    InterfaceMask.has_diff] at hbit ⊢
  cases hhas : (Daemon.requestedInterfaces device.profile device.config).has i with
  | false => simp
  | true =>
      rw [hhas, Bool.and_true] at hbit
      simp [hbit]

theorem requested_of_serves {device : BridgeDevice}
    (hserves : device.needed.isEmpty = false) : device.requested.isEmpty = false := by
  rw [InterfaceMask.not_isEmpty_iff] at hserves ⊢
  obtain ⟨i, hhas⟩ := hserves
  rw [needed, InterfaceMask.has_inter, Bool.and_eq_true] at hhas
  exact ⟨i, hhas.2⟩

/-- A watch about interfaces nobody needs neither resets nor fails. -/
theorem handleWatch_private {device : BridgeDevice} (hhealthy : Healthy device)
    {lost : InterfaceMask} (hlost : (lost.inter device.requested).isEmpty = true)
    (answers : Answers) :
    ((device.losing lost).handleWatch answers).1 = .ok () ∧
      ((device.losing lost).handleWatch answers).2.2 = [] ∧
      SameSession ((device.losing lost).handleWatch answers).2.1 device := by
  have hnone : (device.losing lost).lostInterfaces.isEmpty = true := by
    rw [lostInterfaces_losing hhealthy.recorded]
    rw [InterfaceMask.isEmpty_iff] at hlost ⊢
    intro i
    rw [InterfaceMask.has_inter, hlost i, Bool.and_false]
  have hneeded := needed_losing hlost
  have hserves : (device.losing lost).needed.isEmpty = false := by
    rw [hneeded]
    exact hhealthy.serves
  have hrequested := requested_of_serves hserves
  obtain ⟨hsame, _, hok⟩ := reopen_spec hrequested answers.attempts
  unfold handleWatch
  rw [if_pos hnone]
  refine ⟨?_, rfl, hsame.trans ⟨rfl, rfl, rfl, rfl, rfl, rfl⟩⟩
  unfold reopen
  obtain ⟨hframe, hmono, _, hretry⟩ := retryOpen_spec
    { device.losing lost with
        openedIfaces := (device.losing lost).iface.opened
        pendingIfaces := (device.losing lost).requestedInterfaces.diff
          (device.losing lost).iface.opened } answers.attempts
  rw [hretry]
  exact Or.inr (needed_mono hframe hmono hserves)

/-- A first opening that is not a total failure opens something needed. -/
theorem created_serves {requested : InterfaceMask} (hrequested : requested.isEmpty = false)
    (hall : InterfaceMask.all.contains requested = true) (attempts : Attempts) :
    let result := (Interface.open_ ⟨.empty⟩ requested attempts).1
    (Interface.openedOf result).isEmpty = true ∧ (∃ error, result = .error error) ∨
      ((Interface.openedOf result).inter requested).isEmpty = false := by
  intro result
  have hopened := (Interface.openedOf_open ⟨.empty⟩ requested attempts).1
  cases hempty : (Interface.openedOf result).isEmpty with
  | false =>
      right
      obtain ⟨i, hi⟩ := (InterfaceMask.not_isEmpty_iff _).mp hempty
      have hi' := hi
      rw [hopened] at hi'
      have hwanted := (Interface.openAll_le _ _ _ hi').resolve_left (by simp)
      refine (InterfaceMask.not_isEmpty_iff _).mpr ⟨i, ?_⟩
      rw [InterfaceMask.has_inter, hi, hwanted]
      rfl
  | true =>
      left
      refine ⟨rfl, ?_⟩
      cases hresult : result with
      | error error => exact ⟨error, rfl⟩
      | ok mask =>
          have hok := (Interface.open_eq_ok_iff ⟨.empty⟩ requested attempts).mp
            ⟨mask, hresult⟩
          obtain ⟨i, hi⟩ := (InterfaceMask.not_isEmpty_iff _).mp hrequested
          have hopen := Interface.openAll_complete ⟨.empty⟩ requested attempts hok hi
            ((InterfaceMask.contains_iff _ _).mp hall i hi)
          rw [← hopened] at hopen
          have hnone := (InterfaceMask.isEmpty_iff _).mp hempty i
          rw [hopen] at hnone
          cases hnone

/-- What a created device holds: it is healthy, and everything but its interfaces
follows from the configuration. -/
theorem withBackendOutputs_spec {syspath : String} {devtype : Option String}
    {config : Config} {outputsEnabled : Bool} {answers : Answers} {device : BridgeDevice}
    (hcreated : withBackendOutputs syspath devtype config outputsEnabled answers =
      .ok device) :
    Healthy device ∧
      device.profile = config.profileForDevice (some syspath) devtype ∧
      device.config = config ∧ device.outputsEnabled = outputsEnabled ∧
      (∃ hvalid, device.engine = .new ⟨config, hvalid⟩ device.profile) ∧
      createOutputs device.profile config outputsEnabled answers.create =
        .ok (device.gamepad, device.desktop) := by
  unfold withBackendOutputs at hcreated
  split at hcreated
  · rename_i hvalid
    simp only at hcreated
    have hrequested := requested_nonempty
      (profileForDevice_isValid hvalid (some syspath) devtype) config
    generalize config.profileForDevice (some syspath) devtype = profile
      at hcreated hrequested ⊢
    have hnew := created_serves hrequested (all_contains_requested profile config)
      answers.attempts
    have hmasks := Interface.openedOf_open ⟨.empty⟩
      (Daemon.requestedInterfaces profile config) answers.attempts
    generalize Interface.open_ ⟨.empty⟩ (Daemon.requestedInterfaces profile config)
      answers.attempts = outcome at hcreated hnew hmasks
    obtain ⟨result, iface⟩ := outcome
    have hiface : iface.opened = Interface.openedOf result := hmasks.2.trans hmasks.1.symm
    rcases hnew with ⟨hempty, error, rfl⟩ | hserves
    · simp only [hempty] at hcreated
      cases hcreated
    · split at hcreated
      · cases hcreated
      · cases houtputs : createOutputs profile config outputsEnabled answers.create with
        | error error =>
            rw [houtputs] at hcreated
            cases hcreated
        | ok outputs =>
            rw [houtputs] at hcreated
            obtain rfl := Except.ok.inj hcreated
            refine ⟨⟨hiface.symm, ?_⟩, rfl, rfl, rfl, ⟨hvalid, rfl⟩, houtputs⟩
            rw [← hiface] at hserves
            exact hserves
  · cases hcreated

theorem createOutput_ok {needed made : Bool} {answer : Option Int}
    (hok : createOutput needed answer = .ok made) : made = needed := by
  unfold createOutput at hok
  cases needed with
  | false => exact (Except.ok.inj hok).symm
  | true =>
      cases answer with
      | none => exact (Except.ok.inj hok).symm
      | some error => cases hok

/-- The outputs a device ends up with do not depend on the answers. -/
theorem createOutputs_ok {profile : Profile} {config : Config} {outputsEnabled : Bool}
    {create : OutputDevice → Option Int} {outputs : Bool × Bool}
    (hok : createOutputs profile config outputsEnabled create = .ok outputs) :
    outputs = (outputsEnabled && needsGamepad profile config,
      outputsEnabled && needsDesktop profile config) := by
  unfold createOutputs at hok
  cases outputsEnabled with
  | false => exact (Except.ok.inj hok).symm
  | true =>
      rw [if_pos rfl] at hok
      cases hgamepad : createOutput (needsGamepad profile config) (create .gamepad) with
      | error error =>
          rw [hgamepad] at hok
          cases hok
      | ok gamepad =>
          cases hdesktop : createOutput (needsDesktop profile config) (create .desktop) with
          | error error =>
              rw [hgamepad, hdesktop] at hok
              cases hok
          | ok desktop =>
              rw [hgamepad, hdesktop] at hok
              rw [← Except.ok.inj hok, createOutput_ok hgamepad, createOutput_ok hdesktop]
              rfl

end BridgeDevice

end Daemon

end Wiiland
