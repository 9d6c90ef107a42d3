/-
Capture does not touch a live controller.  Two sessions of one device that differ
in capture calls and in what happens on interfaces nobody asked for show the same
engine inputs, actions, resets, outputs and failures.
-/
import Wiiland.Daemon.BridgeHealth
import Wiiland.Lib.TwoRuns

namespace Wiiland

namespace Daemon

open Hid

/-- A device while the daemon owns it; a failed drain or a lost controller ends
the session. -/
structure Session where
  device : BridgeDevice
  live : Bool

/-- What happens to a device: an event it reads, a closed interface with the
watch event that reports it, a pointer tick, or a capture request. -/
inductive Step where
  | event (event : Event) (answers : Answers)
  | lose (lost : InterfaceMask) (answers : Answers)
  | tick (answers : Answers)
  | capture (enabled : Bool) (answers : Answers)

inductive Shown where
  | saw (observation : Observation)
  | watchFailed
  | failed (error : Int)
  | gone
deriving Repr

/-- How the daemon takes the result of one handled event. -/
def ending (kind : EventKind) : Except Int BridgeAction → List Shown
  | .ok .continue_ => []
  | .ok .gone => [.gone]
  | .error error => if kind = .watch then [.watchFailed] else [.failed error]

def goesOn : Except Int BridgeAction → Bool
  | .ok .continue_ => true
  | _ => false

def watchEvent : Event := ⟨⟨0, 0⟩, .watch⟩
namespace Session

def handle (device : BridgeDevice) (event : Event) (answers : Answers) :
    List Shown × Session :=
  let outcome := device.handleEvent event answers
  (outcome.2.2.map .saw ++ ending event.kind outcome.1,
    ⟨outcome.2.1, goesOn outcome.1⟩)

def tick (device : BridgeDevice) (answers : Answers) : List Shown × Session :=
  if device.engine.pointerActive then
    let outcome := device.tickPointer answers
    let failure :=
      match outcome.1 with
      | .ok _ => []
      | .error error => [.failed error]
    (outcome.2.2.map .saw ++ failure,
      ⟨outcome.2.1, goesOn (outcome.1.map fun _ => .continue_)⟩)
  else ([], ⟨device, true⟩)

def step (session : Session) (input : Step) : List Shown × Session :=
  if session.live then
    let device := session.device
    match input with
    | .event event answers => handle device event answers
    | .lose lost answers =>
        handle (device.losing lost) watchEvent answers
    | .tick answers => tick device answers
    | .capture enabled answers =>
        ([], ⟨(device.setCapture enabled answers.attempts).2, true⟩)
  else ([], session)

end Session

open TwoRuns (Move)

/-- A step on what nobody asked for: a capture call, or an event or a loss of
interfaces outside the requested ones. -/
def Private (device : BridgeDevice) : Step → Prop
  | .event event _ => ∃ mask, event.kind.interface = some mask ∧
      device.requested.contains mask = false
  | .lose lost _ => (lost.inter device.requested).isEmpty = true
  | .tick _ => False
  | .capture _ _ => True

/-- The same step of both runs: they may differ in what is tried open and in
losses outside the requested interfaces. -/
def Common (device : BridgeDevice) : Step → Step → Prop
  | .event event answers, .event other others =>
      event = other ∧ answers.create = others.create ∧ answers.emit = others.emit
  | .lose lost answers, .lose other others =>
      lost.inter device.requested = other.inter device.requested ∧
        answers.create = others.create
  | .tick answers, .tick others => answers.emit = others.emit
  | _, _ => False

def SameNeeded (first second : Session) : Prop :=
  first.device.needed = second.device.needed

/-- Two runs differ in private steps only, and the same requested interfaces are
open before and after every common step. -/
def MayMove (first second : Session) : Move Step → Prop
  | .both a b =>
      Common first.device a b ∧ SameNeeded first second ∧
        SameNeeded (first.step a).2 (second.step b).2
  | .left a => Private first.device a
  | .right b => Private second.device b

/-- Both sessions are over, or they are the same session on healthy devices. -/
structure Related (first second : Session) : Prop where
  live : first.live = second.live
  same : first.live = true → SameSession first.device second.device
  healthy : first.live = true → Healthy first.device
  healthy' : first.live = true → Healthy second.device

namespace Session

theorem step_over {session : Session} (hover : session.live = false) (input : Step) :
    session.step input = ([], session) := by
  rw [step, if_neg (by simp [hover])]

theorem handle_watch {event : Event} (hkind : event.kind = .watch)
    (device : BridgeDevice) (answers : Answers) :
    handle device event answers =
      ((device.handleWatch answers).2.2.map .saw ++
          ending .watch ((device.handleWatch answers).1.map fun _ => .continue_),
        ⟨(device.handleWatch answers).2.1,
          goesOn ((device.handleWatch answers).1.map fun _ => .continue_)⟩) := by
  unfold handle BridgeDevice.handleEvent
  rw [hkind]

theorem handle_report {event : Event} (hgone : event.kind ≠ .gone)
    (hwatch : event.kind ≠ .watch) (device : BridgeDevice) (answers : Answers) :
    handle device event answers =
      ((device.feedEngine event.kind answers.emit).2.2.map .saw ++
          ending event.kind
            ((device.feedEngine event.kind answers.emit).1.map fun _ => .continue_),
        ⟨(device.feedEngine event.kind answers.emit).2.1,
          goesOn ((device.feedEngine event.kind answers.emit).1.map
            fun _ => .continue_)⟩) := by
  unfold handle BridgeDevice.handleEvent
  rcases event with ⟨time, kind⟩
  cases kind with
  | gone => exact absurd rfl hgone
  | watch => exact absurd rfl hwatch
  | _ => rfl

/-- A private step shows nothing and keeps the session and the device's health. -/
theorem step_private {session : Session} (hlive : session.live = true)
    (hhealthy : Healthy session.device) {input : Step}
    (hprivate : Private session.device input) :
    (session.step input).1 = [] ∧ (session.step input).2.live = true ∧
      SameSession (session.step input).2.device session.device ∧
      Healthy (session.step input).2.device := by
  rw [step, if_pos hlive]
  cases input with
  | tick answers => exact hprivate.elim
  | capture enabled answers =>
      obtain ⟨hsame, hafter⟩ :=
        BridgeDevice.setCapture_healthy hhealthy enabled answers.attempts
      exact ⟨rfl, rfl, hsame, hafter⟩
  | lose lost answers =>
      obtain ⟨hok, hshown, hsame⟩ :=
        BridgeDevice.handleWatch_private hhealthy hprivate answers
      have hserves : (session.device.losing lost).needed.isEmpty = false := by
        rw [BridgeDevice.needed_losing hprivate]
        exact hhealthy.serves
      have hafter := BridgeDevice.handleWatch_healthy
        (BridgeDevice.requested_of_serves hserves) hok
      simp only
      rw [handle_watch rfl, hok, hshown]
      exact ⟨rfl, rfl, hsame, hafter⟩
  | event event answers =>
      obtain ⟨mask, hmask, houtside⟩ := hprivate
      have hforward : forwardsToEngine event.kind session.device.profile
          session.device.config = false := by
        rw [forwardsToEngine, hmask]
        exact houtside
      have hfeed : session.device.feedEngine event.kind answers.emit =
          (.ok (), session.device, []) := by
        rw [BridgeDevice.feedEngine, if_neg (by simp [hforward])]
      have hgone : event.kind ≠ .gone := by
        intro hkind
        rw [hkind] at hmask
        cases hmask
      have hwatch : event.kind ≠ .watch := by
        intro hkind
        rw [hkind] at hmask
        cases hmask
      simp only
      rw [handle_report hgone hwatch, hfeed]
      exact ⟨rfl, rfl, .refl _, hhealthy⟩

theorem ok_or_error (result : Except Int Unit) :
    result = .ok () ∨ ∃ error, result = .error error := by
  cases result with
  | ok _ => exact Or.inl rfl
  | error error => exact Or.inr ⟨error, rfl⟩

/-- A handled watch of both runs. -/
theorem handle_watch_common {first second : BridgeDevice}
    (hsame : SameSession first second)
    (hlost : first.lostInterfaces = second.lostInterfaces)
    (hrequested : first.requested.isEmpty = false) {event : Event}
    (hkind : event.kind = .watch) {answers others : Answers}
    (hcreate : answers.create = others.create)
    (hafter : SameNeeded (handle first event answers).2 (handle second event others).2) :
    (handle first event answers).1 = (handle second event others).1 ∧
      Related (handle first event answers).2 (handle second event others).2 := by
  rw [handle_watch hkind, handle_watch hkind] at hafter ⊢
  obtain ⟨hshown, hok, hsession⟩ :=
    BridgeDevice.handleWatch_alike hsame hlost hrequested hcreate hafter
  have hother : second.requested.isEmpty = false := by
    rw [← hsame.requested]
    exact hrequested
  rcases ok_or_error (first.handleWatch answers).1 with hfirst | ⟨error, hfirst⟩
  · have hsecond := hok.mp hfirst
    have hhealthy := BridgeDevice.handleWatch_healthy hrequested hfirst
    have hhealthy' := BridgeDevice.handleWatch_healthy hother hsecond
    simp only [hfirst, hsecond, hshown]
    exact ⟨trivial, ⟨rfl, fun _ => hsession, fun _ => hhealthy, fun _ => hhealthy'⟩⟩
  · have hfails : ¬(second.handleWatch others).1 = .ok () := by
      rw [← hok, hfirst]
      simp
    obtain ⟨error', hsecond⟩ := (ok_or_error _).resolve_left hfails
    simp only [hfirst, hsecond, hshown]
    refine ⟨rfl, ⟨rfl, ?_, ?_, ?_⟩⟩ <;> exact fun hlive => absurd hlive Bool.false_ne_true

/-- What a result of the engine's outputs does to both runs. -/
theorem handle_report_common {first second : BridgeDevice}
    (hsame : SameSession first second) (hhealthy : Healthy first)
    (hhealthy' : Healthy second) {event : Event} (hgone : event.kind ≠ .gone)
    (hwatch : event.kind ≠ .watch) {answers others : Answers}
    (hemit : answers.emit = others.emit) :
    (handle first event answers).1 = (handle second event others).1 ∧
      Related (handle first event answers).2 (handle second event others).2 := by
  have hfeed : (first.feedEngine event.kind answers.emit).1 =
        (second.feedEngine event.kind others.emit).1 ∧
      (first.feedEngine event.kind answers.emit).2.2 =
        (second.feedEngine event.kind others.emit).2.2 ∧
      SameSession (first.feedEngine event.kind answers.emit).2.1
        (second.feedEngine event.kind others.emit).2.1 ∧
      Healthy (first.feedEngine event.kind answers.emit).2.1 ∧
      Healthy (second.feedEngine event.kind others.emit).2.1 := by
    unfold BridgeDevice.feedEngine
    rw [hsame.profile, hsame.config, hemit]
    split
    · cases engineInput event.kind with
      | none => exact ⟨rfl, rfl, hsame, hhealthy, hhealthy'⟩
      | some input =>
          obtain ⟨hresult, hshown, hsession⟩ :=
            BridgeDevice.process_alike hsame input others.emit
          exact ⟨hresult, hshown, hsession,
            BridgeDevice.process_healthy hhealthy input others.emit,
            BridgeDevice.process_healthy hhealthy' input others.emit⟩
    · exact ⟨rfl, rfl, hsame, hhealthy, hhealthy'⟩
  obtain ⟨hresult, hshown, hsession, hfirst, hsecond⟩ := hfeed
  rw [handle_report hgone hwatch, handle_report hgone hwatch, hresult, hshown]
  exact ⟨rfl, ⟨rfl, fun _ => hsession, fun _ => hfirst, fun _ => hsecond⟩⟩

theorem handle_gone_common {event : Event} (hgone : event.kind = .gone)
    (first second : BridgeDevice) (answers others : Answers) :
    (handle first event answers).1 = (handle second event others).1 ∧
      Related (handle first event answers).2 (handle second event others).2 := by
  unfold handle BridgeDevice.handleEvent
  rw [hgone]
  refine ⟨rfl, ⟨rfl, ?_, ?_, ?_⟩⟩ <;> exact fun hlive => absurd hlive Bool.false_ne_true

theorem tick_common {first second : BridgeDevice} (hsame : SameSession first second)
    (hhealthy : Healthy first) (hhealthy' : Healthy second) {answers others : Answers}
    (hemit : answers.emit = others.emit) :
    (tick first answers).1 = (tick second others).1 ∧
      Related (tick first answers).2 (tick second others).2 := by
  unfold tick BridgeDevice.tickPointer
  rw [hsame.engine, hemit]
  split
  · obtain ⟨hresult, hshown, hsession⟩ :=
      BridgeDevice.process_alike hsame .pointerTick others.emit
    have hfirst := BridgeDevice.process_healthy hhealthy .pointerTick others.emit
    have hsecond := BridgeDevice.process_healthy hhealthy' .pointerTick others.emit
    simp only [hresult, hshown]
    exact ⟨trivial, ⟨rfl, fun _ => hsession, fun _ => hfirst, fun _ => hsecond⟩⟩
  · exact ⟨rfl, ⟨rfl, fun _ => hsame, fun _ => hhealthy, fun _ => hhealthy'⟩⟩

/-- A common step shows the same in both runs and keeps them related. -/
theorem step_common {first second : Session} (hrelated : Related first second)
    {a b : Step} (hcommon : Common first.device a b) (hbefore : SameNeeded first second)
    (hafter : SameNeeded (first.step a).2 (second.step b).2) :
    (first.step a).1 = (second.step b).1 ∧
      Related (first.step a).2 (second.step b).2 := by
  cases hlive : first.live with
  | false =>
      have hother : second.live = false := hrelated.live ▸ hlive
      rw [step_over hlive, step_over hother]
      exact ⟨rfl, hrelated⟩
  | true =>
      have hother : second.live = true := hrelated.live ▸ hlive
      have hsame := hrelated.same hlive
      have hhealthy := hrelated.healthy hlive
      have hhealthy' := hrelated.healthy' hlive
      have hrequested := BridgeDevice.requested_of_serves hhealthy.serves
      rw [step, step, if_pos hlive, if_pos hother] at hafter ⊢
      cases a with
      | tick answers =>
          cases b with
          | tick others => exact tick_common hsame hhealthy hhealthy' hcommon
          | event | lose | capture => exact hcommon.elim
      | capture => cases b <;> exact hcommon.elim
      | lose lost answers =>
          cases b with
          | lose other others =>
              obtain ⟨hmasks, hcreate⟩ := hcommon
              have hlost : (first.device.losing lost).lostInterfaces =
                  (second.device.losing other).lostInterfaces := by
                rw [BridgeDevice.lostInterfaces_losing hhealthy.recorded,
                  BridgeDevice.lostInterfaces_losing hhealthy'.recorded, hbefore,
                  ← hsame.requested, hmasks]
              have hlosing : SameSession (first.device.losing lost)
                  (second.device.losing other) :=
                ⟨hsame.profile, hsame.config, hsame.engine, hsame.gamepad, hsame.desktop,
                  hsame.outputs⟩
              exact handle_watch_common hlosing hlost hrequested rfl hcreate hafter
          | event | tick | capture => exact hcommon.elim
      | event event answers =>
          cases b with
          | event other others =>
              obtain ⟨rfl, hcreate, hemit⟩ := hcommon
              by_cases hwatch : event.kind = .watch
              · have hlost : first.device.lostInterfaces =
                    second.device.lostInterfaces := by
                  rw [BridgeDevice.lostInterfaces_recorded hhealthy.recorded,
                    BridgeDevice.lostInterfaces_recorded hhealthy'.recorded]
                exact handle_watch_common hsame hlost hrequested hwatch hcreate hafter
              · by_cases hgone : event.kind = .gone
                · exact handle_gone_common hgone _ _ _ _
                · exact handle_report_common hsame hhealthy hhealthy' hgone hwatch hemit
          | lose | tick | capture => exact hcommon.elim

/-- Every permitted move shows the same in both runs and keeps them related. -/
theorem move_kept (first second : Session) (move : Move Step)
    (hrelated : Related first second) (hmay : MayMove first second move) :
    TwoRuns.trace step first move.lefts = TwoRuns.trace step second move.rights ∧
      Related (TwoRuns.final step first move.lefts)
        (TwoRuns.final step second move.rights) := by
  cases move with
  | both a b =>
      obtain ⟨hcommon, hbefore, hafter⟩ := hmay
      obtain ⟨hshown, hnext⟩ := step_common hrelated hcommon hbefore hafter
      refine ⟨?_, hnext⟩
      change (first.step a).1 ++ [] = (second.step b).1 ++ []
      rw [hshown]
  | left a =>
      cases hlive : first.live with
      | false =>
          change (first.step a).1 ++ [] = [] ∧ Related (first.step a).2 second
          rw [step_over hlive]
          exact ⟨rfl, hrelated⟩
      | true =>
          obtain ⟨hnone, hlive', hsame, hhealthy⟩ :=
            step_private hlive (hrelated.healthy hlive) hmay
          refine ⟨?_, ⟨?_, ?_, ?_, ?_⟩⟩
          · change (first.step a).1 ++ [] = []
            rw [hnone]
            rfl
          · exact hlive'.trans (hlive.symm.trans hrelated.live)
          · exact fun _ => hsame.trans (hrelated.same hlive)
          · exact fun _ => hhealthy
          · exact fun _ => hrelated.healthy' hlive
  | right b =>
      cases hlive : first.live with
      | false =>
          have hother : second.live = false := hrelated.live ▸ hlive
          change [] = (second.step b).1 ++ [] ∧ Related first (second.step b).2
          rw [step_over hother]
          exact ⟨rfl, hrelated⟩
      | true =>
          have hother : second.live = true := hrelated.live ▸ hlive
          obtain ⟨hnone, hlive', hsame, hhealthy⟩ :=
            step_private hother (hrelated.healthy' hlive) hmay
          refine ⟨?_, ⟨?_, ?_, ?_, ?_⟩⟩
          · change [] = (second.step b).1 ++ []
            rw [hnone]
            rfl
          · exact hlive.trans hlive'.symm
          · exact fun _ => (hrelated.same hlive).trans hsame.symm
          · exact fun _ => hrelated.healthy hlive
          · exact fun _ => hhealthy

end Session
namespace BridgeDevice

/-- Two devices created alike start the same session. -/
theorem related_created {syspath : String} {devtype : Option String} {config : Config}
    {outputsEnabled : Bool} {answers others : Answers} {first second : BridgeDevice}
    (hfirst : withBackendOutputs syspath devtype config outputsEnabled answers =
      .ok first)
    (hsecond : withBackendOutputs syspath devtype config outputsEnabled others =
      .ok second) : Related ⟨first, true⟩ ⟨second, true⟩ := by
  obtain ⟨hhealthy, hprofile, hconfig, henabled, ⟨hvalid, hengine⟩, houtputs⟩ :=
    withBackendOutputs_spec hfirst
  obtain ⟨hhealthy', hprofile', hconfig', henabled', ⟨hvalid', hengine'⟩, houtputs'⟩ :=
    withBackendOutputs_spec hsecond
  have hsame_profile : first.profile = second.profile := hprofile.trans hprofile'.symm
  rw [hsame_profile] at houtputs
  have hmade := (createOutputs_ok houtputs).trans (createOutputs_ok houtputs').symm
  obtain ⟨hgamepad, hdesktop⟩ := Prod.mk.inj hmade
  refine ⟨rfl, fun _ => ⟨hsame_profile, hconfig.trans hconfig'.symm, ?_, hgamepad,
    hdesktop, henabled.trans henabled'.symm⟩, fun _ => hhealthy, fun _ => hhealthy'⟩
  rw [hengine, hengine', hsame_profile]

end BridgeDevice

/-- Capture and foreign interfaces do not touch the controller: in every move both
sessions show the same engine inputs, actions, resets, outputs and failures, and so
they do over the whole run. -/
theorem capture_isolated {syspath : String} {devtype : Option String} {config : Config}
    {outputsEnabled : Bool} {answers others : Answers} {first second : BridgeDevice}
    (hfirst : BridgeDevice.withBackendOutputs syspath devtype config outputsEnabled
      answers = .ok first)
    (hsecond : BridgeDevice.withBackendOutputs syspath devtype config outputsEnabled
      others = .ok second)
    (moves : List (Move Step))
    (hmoves : TwoRuns.Permitted Session.step MayMove ⟨first, true⟩ ⟨second, true⟩
      moves) :
    TwoRuns.Alike Session.step ⟨first, true⟩ ⟨second, true⟩ moves ∧
      TwoRuns.trace Session.step ⟨first, true⟩ (moves.flatMap Move.lefts) =
        TwoRuns.trace Session.step ⟨second, true⟩ (moves.flatMap Move.rights) := by
  have halike := TwoRuns.alike_of_kept Session.move_kept
    (BridgeDevice.related_created hfirst hsecond) hmoves
  exact ⟨halike, halike.trace_eq⟩

def allGranted : Answers where
  attempts := fun _ => none
  create := fun _ => none
  emit := fun _ => none

/-- A press of the A button. -/
def pressA : Event := ⟨⟨1, 0⟩, .key ⟨.a, .pressed⟩⟩

def gamepadDevice : BridgeDevice :=
  .assemble "/sys/devices/wiimote0" .gamepad ⟨{}, by decide⟩ true ⟨⟨0x7f03⟩⟩ ⟨0x7f03⟩
    (true, false)

/-- One session is captured and loses the infrared camera the capture opened; both
then lose the core. -/
def observedMoves : List (Move Step) :=
  [.left (.capture true allGranted), .both (.event pressA allGranted)
      (.event pressA allGranted),
    .left (.lose .ir allGranted), .both (.lose .core allGranted) (.lose .core allGranted)]

theorem capture_isolated_observed :
    TwoRuns.Alike Session.step ⟨gamepadDevice, true⟩ ⟨gamepadDevice, true⟩ observedMoves := by
  have hcreated : BridgeDevice.withBackendOutputs "/sys/devices/wiimote0" none {} true
      allGranted = .ok gamepadDevice := rfl
  refine (capture_isolated hcreated hcreated observedMoves ?_).1
  exact ⟨trivial, ⟨⟨rfl, rfl, rfl⟩, rfl, rfl⟩, rfl, ⟨⟨rfl, rfl⟩, rfl, rfl⟩, trivial⟩

end Daemon

end Wiiland
