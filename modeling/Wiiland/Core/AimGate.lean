/-
The gate of the motion aim.  A button turns a right-stick aim on and off; while it is
up the stick should belong to the controller's own reports.
-/
import Wiiland.Core.Capabilities
import Wiiland.Core.EngineReplay

namespace Wiiland

open Mapping

/-- The button an aim waits for, if it waits for one. -/
def AimActivation.button : AimActivation → Option Button
  | .b => some .b
  | .z => some .z
  | .c => some .c
  | .always => none

theorem AimActivation.button_expected {activation : AimActivation} {button : Button}
    (hbutton : activation.button = some button) :
    activation ≠ .always ∧ AimState.expectedKey activation = button.code := by
  cases activation <;> cases hbutton <;> exact ⟨by decide, rfl⟩

/-- An action on the axes of the right stick. -/
def OutputAction.onStick : OutputAction → Bool
  | .abs _ code _ => code == absRx || code == absRy
  | _ => false

def stickOf (actions : List OutputAction) : List OutputAction :=
  actions.filter OutputAction.onStick

/-- The pair of actions that centres the right stick. -/
def recentre : List OutputAction := [.abs .gamepad absRx 0, .abs .gamepad absRy 0]

theorem stickOf_append (first second : List OutputAction) :
    stickOf (first ++ second) = stickOf first ++ stickOf second := List.filter_append ..

theorem stickOf_emitPointer (delta : PointerDelta) : stickOf (emitPointer delta) = [] := by
  unfold emitPointer
  split <;> rfl

theorem stickOf_emitKeyTransition (target : OutputDevice) (code : Nat)
    (before after : Bool) (state : ButtonState) :
    stickOf (emitKeyTransition target code before after state) = [] := by
  cases before <;> cases after <;> cases state <;> rfl

theorem stickOf_emitAim_none : stickOf (emitAim .rightStick .none) = [] := rfl

theorem stickOf_emitAim_reset : stickOf (emitAim .rightStick .ofReset) = recentre := rfl

namespace AimState

variable {aim : AimState}

/-- An aim that drives the right stick while a button is held, with its button up. -/
structure Idle (aim : AimState) : Prop where
  output : aim.config.output = .rightStick
  gated : aim.config.activation ≠ .always
  up : aim.held = false

theorem Idle.isActive (hidle : aim.Idle) : aim.isActive = false := by
  rw [AimState.isActive, hidle.up, beq_eq_false_iff_ne.mpr hidle.gated]
  exact Bool.and_false _

theorem Idle.emit (hidle : aim.Idle) (vector : AimVector) : aim.emit vector = aim.reset := by
  rw [AimState.emit, hidle.isActive]
  rfl

/-- What an aim whose button is up does with a sample: it skips it, silently or by
taking it as its new zero, or it starts over and centres the stick. -/
structure Skips (aim : AimState) (skipped : Prop) (result : AimState × AimResult) : Prop where
  silent : skipped → result.2 = .none
  centring : ¬ skipped → result.2 = .ofReset
  source : aim.activeSource ≠ some .ir → result.1.activeSource ≠ some .ir

theorem Idle.heeds (hidle : aim.Idle) {later : AimState} (hkept : aim.Kept later)
    {skipped : Prop} (hheeded : ¬ skipped) (vector : AimVector) :
    aim.Skips skipped (later.emit vector) := by
  have hlater : later.Idle :=
    ⟨hkept.1 ▸ hidle.output, hkept.1 ▸ hidle.gated, hkept.2.trans hidle.up⟩
  rw [hlater.emit]
  exact ⟨fun hskipped => absurd hskipped hheeded, fun _ => rfl,
    fun _ => (Option.some_ne_none _).symm⟩

theorem Skips.silently {skipped : Prop} (hskipped : skipped) {later : AimState}
    (hsource : aim.activeSource ≠ some .ir → later.activeSource ≠ some .ir) :
    aim.Skips skipped (later, .none) :=
  ⟨fun _ => rfl, fun hheeded => absurd hskipped hheeded, hsource⟩

/-- An infrared point is skipped when there is none or its source is not accepted. -/
theorem Idle.processIr (hidle : aim.Idle) (hsource : aim.activeSource ≠ some .ir)
    (point : Option IrPoint) :
    aim.Skips (point.filter IrPoint.valid = none ∨ aim.accepts .ir = false)
      (aim.processIr point) := by
  unfold AimState.processIr
  cases hpoint : point.filter IrPoint.valid with
  | none =>
      simp only [if_neg hsource]
      exact Skips.silently (Or.inl trivial) id
  | some found =>
      simp only
      split
      · next hrefused =>
        exact Skips.silently (Or.inr (Bool.not_eq_true' _ ▸ hrefused)) id
      · next haccepted =>
        apply hidle.heeds
        · exact ⟨rfl, rfl⟩
        · rintro (hnone | hrefused)
          · cases hnone
          · rw [hrefused] at haccepted
            exact haccepted rfl

theorem Idle.processMotionPlus (hidle : aim.Idle) (x y z : Int) :
    aim.Skips (aim.accepts .motionPlus = false) (aim.processMotionPlus x y z) := by
  unfold AimState.processMotionPlus
  split
  · next hrefused => exact Skips.silently (Bool.not_eq_true' _ ▸ hrefused) id
  · next haccepted =>
    change aim.Skips _ (AimState.emit _ _)
    apply hidle.heeds
    · exact ⟨rfl, rfl⟩
    · intro hrefused
      rw [hrefused] at haccepted
      exact haccepted rfl

/-- An accelerometer sample is also skipped when it becomes the zero. -/
theorem Idle.processAccelerometer (hidle : aim.Idle) (x y z : Int) :
    aim.Skips (aim.accepts .accelerometer = false ∨
        aim.config.accelCalibration.filter sensorCalibrationReady = none ∧
          aim.accelZeroed = false)
      (aim.processAccelerometer x y z) := by
  unfold AimState.processAccelerometer
  split
  · next hrefused =>
    exact Skips.silently (Or.inl (Bool.not_eq_true' _ ▸ hrefused)) id
  · next haccepted =>
    have hheeded : aim.accepts .accelerometer ≠ false := by
      intro hrefused
      rw [hrefused] at haccepted
      exact haccepted rfl
    cases hcalibration : aim.config.accelCalibration.filter sensorCalibrationReady with
    | some calibration =>
        change aim.Skips _ (AimState.emit _ _)
        apply hidle.heeds
        · exact ⟨rfl, rfl⟩
        · rintro (hrefused | ⟨hnone, _⟩)
          · exact hheeded hrefused
          · cases hnone
    | none =>
        simp only
        split
        · next hzero =>
          exact Skips.silently (Or.inr ⟨trivial, Bool.not_eq_true' _ ▸ hzero⟩)
            fun _ => by simp
        · next hzeroed =>
          change aim.Skips _ (AimState.emit _ _)
          apply hidle.heeds
          · exact ⟨rfl, rfl⟩
          · rintro (hrefused | ⟨_, hzero⟩)
            · exact hheeded hrefused
            · rw [hzero] at hzeroed
              exact hzeroed rfl

/-- Other buttons do not concern the aim. -/
theorem activationKey_other (henabled : aim.enabled = true)
    {button other : Button} (hbutton : aim.config.activation.button = some button)
    (hother : other ≠ button) (pressed : Bool) :
    aim.activationKey other.code pressed = (aim, .none) := by
  obtain ⟨hgated, hexpected⟩ := AimActivation.button_expected hbutton
  rw [activationKey, henabled, if_neg (by simp), if_neg hgated, hexpected,
    if_pos fun hsame => hother (Button.code_injective hsame)]

/-- Its own button turns the aim on, or off with one centring of the stick. -/
theorem activationKey_own (henabled : aim.enabled = true) {button : Button}
    (hbutton : aim.config.activation.button = some button) (pressed : Bool) :
    aim.activationKey button.code pressed =
      if aim.held && !pressed then { aim with held := pressed }.reset
      else ({ aim with held := pressed }, .none) := by
  obtain ⟨hgated, hexpected⟩ := AimActivation.button_expected hbutton
  rw [activationKey, henabled, if_neg (by simp), if_neg hgated, hexpected,
    if_neg (by simp)]

end AimState

namespace DeviceEngine

theorem stickOf_keyTransitions (engine : DeviceEngine) (before after : BitVec 32)
    (button : Button) (state : ButtonState) :
    stickOf (engine.keyTransitions before after button state) = [] := by
  rw [keyTransitions, stickOf_append, List.append_eq_nil_iff]
  constructor
  · split
    · exact stickOf_emitKeyTransition _ _ _ _ _
    · rfl
  · split
    · cases engine.desktopKey button with
      | none => rfl
      | some mapped => exact stickOf_emitKeyTransition _ _ _ _ _
    · rfl

theorem pointerTransition_frame (engine : DeviceEngine) (button : Button)
    (wasHeld isHeld : Bool) :
    ∃ pointer actions, engine.pointerTransition button wasHeld isHeld =
      ({ engine with pointer }, actions) ∧ stickOf actions = [] := by
  unfold pointerTransition
  split
  · exact ⟨_, _, rfl, stickOf_emitPointer _⟩
  · exact ⟨engine.pointer, [], rfl, rfl⟩

/-- A key event reaches the aim when it changes the level of its button. -/
theorem key_aim (engine : DeviceEngine) (source : InputSource) (button : Button)
    (state : ButtonState) :
    let isHeld := (engine.setHeld source button state).isHeld button
    let aimed := if engine.isHeld button != isHeld then
      engine.aim.activationKey button.code isHeld else (engine.aim, .none)
    (engine.key source button state).1.aim = aimed.1 ∧
      stickOf (engine.key source button state).2 =
        stickOf (emitAim aimed.1.config.output aimed.2) := by
  intro isHeld aimed
  obtain ⟨pointer, actions, hmoved, hactions⟩ :=
    (engine.setHeld source button state).pointerTransition_frame button
      (engine.isHeld button) isHeld
  unfold key
  simp only [bne_and_buttonBit]
  change (aimTransition (pointerTransition _ button (engine.isHeld button) isHeld).1 button
      (engine.isHeld button) isHeld).1.aim = aimed.1 ∧
    stickOf (_ ++ (pointerTransition _ button (engine.isHeld button) isHeld).2 ++
      (aimTransition (pointerTransition _ button (engine.isHeld button) isHeld).1 button
        (engine.isHeld button) isHeld).2) = _
  rw [hmoved, stickOf_append, stickOf_append, stickOf_keyTransitions, hactions]
  simp only [aimTransition, aimed]
  split
  · exact ⟨rfl, rfl⟩
  · refine ⟨rfl, ?_⟩
    rw [emitAim]
    rfl

/-- What holds of an engine whose right-stick aim waits for a button. -/
structure Gated (config : ValidatedConfig) (profile : Profile) (button : Button)
    (engine : DeviceEngine) : Prop where
  fits : Fits config profile engine
  stick : engine.aim.config.output = .rightStick
  activation : engine.aim.config.activation.button = some button
  held : engine.aim.held = engine.isHeld button
  source : engine.isHeld button = false → engine.aim.activeSource ≠ some .ir

variable {config : ValidatedConfig} {profile : Profile} {button : Button}
  {engine : DeviceEngine}

theorem isHeld_congr {first second : DeviceEngine} (hheld : first.held = second.held)
    (button : Button) : first.isHeld button = second.isHeld button := by
  rw [isHeld, isHeld, heldButtons, heldButtons, hheld]

theorem isHeld_of_none {engine : DeviceEngine} (hnone : engine.held = fun _ => 0)
    (button : Button) : engine.isHeld button = false := by
  rw [← Bool.not_eq_true, isHeld_iff, hnone]
  rintro ⟨_, hbit⟩
  exact absurd hbit (by simp)

theorem gated_new (hmode : config.get.aimMode = .rightStick)
    (hbutton : config.get.aimActivation.button = some button) :
    Gated config profile button (new config profile) := by
  refine ⟨fits_new config profile, hmode, hbutton, (isHeld_of_none rfl button).symm,
    fun _ => (Option.some_ne_none _).symm⟩

theorem Gated.idle (hgated : Gated config profile button engine)
    (hup : engine.isHeld button = false) : engine.aim.Idle :=
  ⟨hgated.stick, (AimActivation.button_expected hgated.activation).1,
    hgated.held.trans hup⟩

theorem Gated.enabled (hgated : Gated config profile button engine) :
    engine.aim.enabled = true := by
  rw [AimState.enabled, hgated.stick]
  rfl

theorem Gated.moved (hgated : Gated config profile button engine) {next : DeviceEngine}
    (hfits : Fits config profile next) (hconfig : next.aim.config = engine.aim.config)
    (hheld : next.aim.held = next.isHeld button)
    (hsource : next.isHeld button = false → next.aim.activeSource ≠ some .ir) :
    Gated config profile button next :=
  ⟨hfits, hconfig ▸ hgated.stick, hconfig ▸ hgated.activation, hheld, hsource⟩

/-- The stick actions of a step that may release the activation button. -/
def released (button : Button) (before after : DeviceEngine) : List OutputAction :=
  if before.isHeld button && !after.isHeld button then recentre else []

theorem Gated.key (hgated : Gated config profile button engine) (source : InputSource)
    (other : Button) (state : ButtonState) :
    Gated config profile button (engine.key source other state).1 ∧
      stickOf (engine.key source other state).2 =
        released button engine (engine.key source other state).1 := by
  obtain ⟨haim, hstick⟩ := engine.key_aim source other state
  have hfits := (hgated.fits.key source other state).1
  have hlevel := isHeld_congr (engine.key_held source other state) button
  rw [hstick, released, hlevel]
  by_cases hother : other = button
  · subst hother
    rw [AimState.activationKey_own hgated.enabled hgated.activation, hgated.held] at haim ⊢
    generalize hafter : (engine.setHeld source other state).isHeld other = after at *
    cases hbefore : engine.isHeld other <;> cases after <;> rw [hbefore] at haim
    · have hheld := hgated.held.trans hbefore
      exact ⟨hgated.moved hfits (by rw [haim]; rfl) (by rw [haim, hlevel]; exact hheld)
        fun _ => by rw [haim]; exact hgated.source hbefore, rfl⟩
    · refine ⟨hgated.moved hfits (by rw [haim]; rfl) (by rw [haim, hlevel]; rfl)
        fun hup => absurd (hlevel.symm.trans hup) (by simp), ?_⟩
      change stickOf (emitAim engine.aim.config.output .none) = []
      rw [hgated.stick, stickOf_emitAim_none]
    · refine ⟨hgated.moved hfits (by rw [haim]; rfl) (by rw [haim, hlevel]; rfl)
        fun _ => by rw [haim]; exact (Option.some_ne_none _).symm, ?_⟩
      change stickOf (emitAim engine.aim.config.output .ofReset) = recentre
      rw [hgated.stick, stickOf_emitAim_reset]
    · have hheld := hgated.held.trans hbefore
      exact ⟨hgated.moved hfits (by rw [haim]; rfl) (by rw [haim, hlevel]; exact hheld)
        fun hup => absurd (hlevel.symm.trans hup) (by simp), rfl⟩
  · rw [AimState.activationKey_other hgated.enabled hgated.activation hother, ite_self]
      at haim ⊢
    rw [setHeld_isHeld_of_ne engine source (Ne.symm hother) state] at hlevel ⊢
    refine ⟨hgated.moved hfits (by rw [haim]) (by rw [haim, hlevel]; exact hgated.held)
      fun hup => by rw [haim]; exact hgated.source (hlevel ▸ hup), ?_⟩
    rw [Bool.and_not_self, hgated.stick]
    rfl

/-- A release never turns the button on. -/
theorem isHeld_key_released {source : InputSource} {other : Button}
    (hup : engine.isHeld button = false) :
    (engine.key source other .released).1.isHeld button = false := by
  rw [isHeld_congr (engine.key_held source other .released), ← Bool.not_eq_true, isHeld_iff]
  rintro ⟨owner, hbit⟩
  rw [setHeld_held] at hbit
  split at hbit
  · cases hbit
  · rw [← Bool.not_eq_true, isHeld_iff] at hup
    exact hup ⟨owner, hbit⟩

theorem Gated.releaseAll (hgated : Gated config profile button engine) (held : BitVec 32)
    (source : InputSource) (buttons : List Button) :
    Gated config profile button (releaseAll held source buttons engine).1 ∧
      stickOf (DeviceEngine.releaseAll held source buttons engine).2 =
        released button engine (DeviceEngine.releaseAll held source buttons engine).1 ∧
      (engine.isHeld button = false →
        (DeviceEngine.releaseAll held source buttons engine).1.isHeld button = false) := by
  induction buttons generalizing engine with
  | nil =>
      refine ⟨hgated, ?_, id⟩
      rw [DeviceEngine.releaseAll, released, Bool.and_not_self]
      rfl
  | cons other buttons ih =>
      unfold DeviceEngine.releaseAll
      split
      · obtain ⟨hnext, hfirst⟩ := hgated.key source other .released
        obtain ⟨hlater, hrest, hstays⟩ := ih hnext
        have hup := @isHeld_key_released button engine source other
        simp only
        generalize engine.key source other .released = first at *
        generalize DeviceEngine.releaseAll held source buttons first.1 = last at *
        refine ⟨hlater, ?_, fun hbefore => hstays (hup hbefore)⟩
        rw [stickOf_append, hfirst, hrest]
        simp only [released]
        cases hbefore : engine.isHeld button <;> cases hmiddle : first.1.isHeld button
        · rw [hstays hmiddle]
          rfl
        · rw [hup hbefore] at hmiddle
          cases hmiddle
        · rw [hstays hmiddle]
          rfl
        · rfl
      · exact ih hgated

/-- Sensor samples an idle aim passes over: an infrared frame without a point, a sensor
the aim does not accept, or an accelerometer sample that becomes the zero. -/
def Quiet (engine : DeviceEngine) : EngineInput → Prop
  | .ir frame =>
      (engine.pointer.selectIr frame).filter IrPoint.valid = none ∨
        engine.aim.accepts .ir = false
  | .motion .motionPlus _ => engine.aim.accepts .motionPlus = false
  | .motion .accel _ =>
      engine.aim.accepts .accelerometer = false ∨
        engine.aim.config.accelCalibration.filter sensorCalibrationReady = none ∧
          engine.aim.accelZeroed = false
  | _ => True

/-- Whose the right stick is in a step: with the button up a sample of the aim's sensors
leaves it alone, a release centres it once, and a controller's report sets it. -/
def StickRule (button : Button) (engine : DeviceEngine) (input : EngineInput) : Prop :=
  match input with
  | .motion .accel _ | .motion .motionPlus _ | .ir _ =>
      engine.isHeld button = false → stickOf (engine.process input).2 = []
  | .motion kind axes => stickOf (engine.process input).2 = stickOf (engine.shown kind axes)
  | .key _ _ _ | .sourceRemoved _ =>
      stickOf (engine.process input).2 = released button engine (engine.process input).1
  | .pointerTick | .reset => stickOf (engine.process input).2 = []

theorem recentre_ne_nil : recentre ≠ [] := List.cons_ne_nil _ _

theorem stick_skips {aim : AimState} {skipped : Prop} {result : AimState × AimResult}
    (hskips : aim.Skips skipped result) (houtput : result.1.config.output = .rightStick) :
    stickOf (emitAim result.1.config.output result.2) = [] ↔ skipped := by
  rw [houtput]
  constructor
  · intro hsilent
    by_contra hheeded
    rw [hskips.centring hheeded, stickOf_emitAim_reset] at hsilent
    exact recentre_ne_nil hsilent
  · intro hskipped
    rw [hskips.silent hskipped, stickOf_emitAim_none]

/-- A sample leaves the gate as it is. -/
theorem Gated.sampled (hgated : Gated config profile button engine) {next : DeviceEngine}
    (hfits : Fits config profile next) (hmasks : next.held = engine.held)
    (hkept : engine.aim.Kept next.aim)
    (hsource : engine.isHeld button = false → next.aim.activeSource ≠ some .ir) :
    Gated config profile button next := by
  have hlevel := isHeld_congr hmasks button
  exact hgated.moved hfits hkept.1 (hkept.2.trans (hgated.held.trans hlevel.symm))
    fun hup => hsource (hlevel ▸ hup)

theorem stickOf_shown_accel (engine : DeviceEngine) (axes : Vector Abs3 8) :
    stickOf (engine.shown .accel axes) = [] := by
  rw [shown]
  split <;> rfl

theorem stickOf_shown_motionPlus (engine : DeviceEngine) (axes : Vector Abs3 8) :
    stickOf (engine.shown .motionPlus axes) = [] := by
  rw [shown]
  split <;> rfl

theorem Gated.motion (hgated : Gated config profile button engine) (kind : MotionKind)
    (axes : Vector Abs3 8) :
    Gated config profile button (engine.process (.motion kind axes)).1 ∧
      (StickRule button engine (.motion kind axes) ↔
        (engine.isHeld button = false → engine.Quiet (.motion kind axes))) := by
  have hfits := (hgated.fits.process (.motion kind axes)).1
  cases kind with
  | accel =>
      have hkept := engine.aim.kept_processAccelerometer (primary axes).x (primary axes).y
        (primary axes).z
      have hskips := fun hup => (hgated.idle hup).processAccelerometer (primary axes).x
        (primary axes).y (primary axes).z
      refine ⟨hgated.sampled hfits rfl hkept fun hup => (hskips hup).source
        (hgated.source hup), forall_congr' fun hup => ?_⟩
      change stickOf (engine.shown .accel axes ++ emitAim _ _) = [] ↔ _
      rw [stickOf_append, stickOf_shown_accel, List.nil_append]
      exact stick_skips (hskips hup)
        ((congrArg AimConfig.output hkept.1).trans hgated.stick)
  | motionPlus =>
      have hkept := engine.aim.kept_processMotionPlus (primary axes).x (primary axes).y
        (primary axes).z
      have hskips := fun hup => (hgated.idle hup).processMotionPlus (primary axes).x
        (primary axes).y (primary axes).z
      refine ⟨hgated.sampled hfits rfl hkept fun hup => (hskips hup).source
        (hgated.source hup), forall_congr' fun hup => ?_⟩
      change stickOf (engine.shown .motionPlus axes ++ emitAim _ _) = [] ↔ _
      rw [stickOf_append, stickOf_shown_motionPlus, List.nil_append]
      exact stick_skips (hskips hup)
        ((congrArg AimConfig.output hkept.1).trans hgated.stick)
  | _ => exact ⟨hgated, iff_of_true rfl fun _ => trivial⟩

theorem Gated.ir (hgated : Gated config profile button engine) (frame : IrFrame) :
    Gated config profile button (engine.process (.ir frame)).1 ∧
      (StickRule button engine (.ir frame) ↔
        (engine.isHeld button = false → engine.Quiet (.ir frame))) := by
  have hfits := (hgated.fits.process (.ir frame)).1
  have hmoved : (engine.irPointer frame).1.aim = engine.aim ∧
      stickOf (engine.irPointer frame).2 = [] := by
    unfold irPointer
    split
    · exact ⟨rfl, stickOf_emitPointer _⟩
    · exact ⟨rfl, rfl⟩
  have hkept := engine.aim.kept_processIr (engine.pointer.selectIr frame)
  have hskips := fun hup => (hgated.idle hup).processIr (hgated.source hup)
    (engine.pointer.selectIr frame)
  have haim : (engine.process (.ir frame)).1.aim =
      (engine.aim.processIr (engine.pointer.selectIr frame)).1 := by
    change ((engine.irPointer frame).1.aim.processIr _).1 = _
    rw [hmoved.1]
  refine ⟨hgated.sampled hfits (engine.ir_held frame) (haim ▸ hkept) fun hup =>
    haim ▸ (hskips hup).source (hgated.source hup), forall_congr' fun hup => ?_⟩
  change stickOf ((engine.irPointer frame).2 ++
    emitAim ((engine.irPointer frame).1.aim.processIr _).1.config.output
      ((engine.irPointer frame).1.aim.processIr _).2) = [] ↔ _
  rw [stickOf_append, hmoved.1, hmoved.2, List.nil_append]
  exact stick_skips (hskips hup) ((congrArg AimConfig.output hkept.1).trans hgated.stick)

/-- One step keeps the gate, and the rule of the stick holds in it unless an idle aim
meets a sample it does not pass over. -/
theorem Gated.process (hgated : Gated config profile button engine) (input : EngineInput) :
    Gated config profile button (engine.process input).1 ∧
      (StickRule button engine input ↔
        (engine.isHeld button = false → engine.Quiet input)) := by
  cases input with
  | motion kind axes => exact hgated.motion kind axes
  | ir frame => exact hgated.ir frame
  | key source other state =>
      obtain ⟨hnext, hstick⟩ := hgated.key source other state
      exact ⟨hnext, iff_of_true hstick fun _ => trivial⟩
  | sourceRemoved source =>
      obtain ⟨hnext, hstick, _⟩ := hgated.releaseAll (engine.held source) source Button.all
      exact ⟨hnext, iff_of_true hstick fun _ => trivial⟩
  | pointerTick =>
      rw [StickRule, process_pointerTick]
      refine ⟨hgated, iff_of_true ?_ fun _ => trivial⟩
      simp only
      split
      · exact stickOf_emitPointer _
      · rfl
  | reset =>
      have hup : (engine.process .reset).1.isHeld button = false := isHeld_of_none rfl button
      exact ⟨hgated.moved (hgated.fits.process .reset).1 rfl hup.symm
        fun _ => (Option.some_ne_none _).symm, iff_of_true rfl fun _ => trivial⟩

/-- Every step of a run meets a condition on the engine it starts from. -/
def Along (condition : DeviceEngine → EngineInput → Prop) : DeviceEngine →
    List EngineInput → Prop
  | _, [] => True
  | engine, input :: inputs =>
      condition engine input ∧ Along condition (engine.process input).1 inputs

/-- The stick actions with which a controller reports its own stick. -/
def reported (engine : DeviceEngine) : EngineInput → List OutputAction
  | .motion kind axes => stickOf (engine.shown kind axes)
  | _ => []

/-- The rule of the stick in every step of a run; hence over any stretch of it in which
the button is up, the stick gets the controller's own reports and nothing else. -/
structure StickKept (button : Button) (engine : DeviceEngine) (inputs : List EngineInput) :
    Prop where
  steps : Along (StickRule button) engine inputs
  stretches : ∀ before stretch after, inputs = before ++ stretch ++ after →
    Along (fun engine _ => engine.isHeld button = false) (engine.processAll before).1 stretch →
    stickOf ((engine.processAll before).1.processAll stretch).2 =
      stretch.flatMap engine.reported

theorem along_append {condition : DeviceEngine → EngineInput → Prop}
    {engine : DeviceEngine} {first second : List EngineInput} :
    Along condition engine (first ++ second) ↔
      Along condition engine first ∧ Along condition (engine.processAll first).1 second := by
  induction first generalizing engine with
  | nil => exact (and_iff_right trivial).symm
  | cons input first ih =>
      rw [List.cons_append, Along, Along, ih, and_assoc]
      rfl

theorem Gated.processAll (hgated : Gated config profile button engine)
    (inputs : List EngineInput) :
    Gated config profile button (engine.processAll inputs).1 ∧
      (Along (StickRule button) engine inputs ↔
        Along (fun engine input => engine.isHeld button = false → engine.Quiet input)
          engine inputs) := by
  induction inputs generalizing engine with
  | nil => exact ⟨hgated, Iff.rfl⟩
  | cons input inputs ih =>
      obtain ⟨hnext, hrule⟩ := hgated.process input
      obtain ⟨hlater, hrest⟩ := ih hnext
      exact ⟨hlater, and_congr hrule hrest⟩

theorem Gated.reported_eq (hgated : Gated config profile button engine)
    {other : DeviceEngine} (hother : Gated config profile button other)
    (input : EngineInput) : engine.reported input = other.reported input := by
  cases input <;> try rfl
  rw [reported, reported, shown, shown, hgated.fits.sameConfig, hgated.fits.sameProfile,
    hother.fits.sameConfig, hother.fits.sameProfile]

theorem StickRule.of_up {input : EngineInput} (hup : engine.isHeld button = false)
    (hrule : StickRule button engine input) :
    stickOf (engine.process input).2 = engine.reported input := by
  cases input with
  | motion kind axes =>
      cases kind with
      | accel => exact (hrule hup).trans (stickOf_shown_accel engine axes).symm
      | motionPlus => exact (hrule hup).trans (stickOf_shown_motionPlus engine axes).symm
      | _ => exact hrule
  | ir frame => exact hrule hup
  | key source other state =>
      refine Eq.trans hrule ?_
      rw [released, hup]
      rfl
  | sourceRemoved source =>
      refine Eq.trans hrule ?_
      rw [released, hup]
      rfl
  | pointerTick => exact hrule
  | reset => exact hrule

theorem Gated.stretch (hgated : Gated config profile button engine)
    {stretch : List EngineInput} (hrule : Along (StickRule button) engine stretch)
    (hup : Along (fun engine _ => engine.isHeld button = false) engine stretch) :
    stickOf (engine.processAll stretch).2 = stretch.flatMap engine.reported := by
  induction stretch generalizing engine with
  | nil => rfl
  | cons input stretch ih =>
      have hnext := (hgated.process input).1
      have hsame : engine.reported = (engine.process input).1.reported :=
        funext fun other => hgated.reported_eq hnext other
      rw [DeviceEngine.processAll, stickOf_append, StickRule.of_up hup.1 hrule.1,
        ih hnext hrule.2 hup.2, List.flatMap_cons, hsame]

/-- With a right-stick aim on a button, the stick is left alone while the button is up
exactly when every sample met then is one the aim passes over. -/
theorem stickKept_iff_quiet {config : ValidatedConfig} {button : Button}
    (hmode : config.get.aimMode = .rightStick)
    (hbutton : config.get.aimActivation.button = some button) (profile : Profile)
    (inputs : List EngineInput) :
    StickKept button (new config profile) inputs ↔
      Along (fun engine input => engine.isHeld button = false → engine.Quiet input)
        (new config profile) inputs := by
  have hgated := @gated_new config profile button hmode hbutton
  rw [← (hgated.processAll inputs).2]
  refine ⟨fun hkept => hkept.steps, fun hsteps => ⟨hsteps, ?_⟩⟩
  rintro before stretch after rfl hup
  have hbefore := (hgated.processAll before).1
  rw [along_append, along_append] at hsteps
  rw [hbefore.stretch hsteps.1.2 hup]
  exact congrArg (fun report => stretch.flatMap report)
    (funext fun input => hbefore.reported_eq hgated input)

/-- An aim on the right stick that waits for B. -/
def aimOnB : ValidatedConfig := ⟨{ aimMode := .rightStick }, by decide⟩

/-- The first accelerometer sample is taken as the zero and an infrared frame shows no point
while B is up; then B is held for a MotionPlus sample. -/
def aimWhileHeld : List EngineInput :=
  [.motion .accel (Vector.replicate 8 ⟨0, 0, 100⟩), .ir ⟨Vector.replicate 4 ⟨false, 1023, 1023⟩⟩,
    .key .core .b .pressed, .motion .motionPlus (Vector.replicate 8 ⟨400, 0, 300⟩),
    .key .core .b .released]

theorem stickKept_aimWhileHeld : StickKept .b (new aimOnB .gamepad) aimWhileHeld :=
  (stickKept_iff_quiet rfl rfl .gamepad _).mpr
    ⟨fun _ => .inr (by decide), fun _ => .inl (by decide), fun _ => trivial,
      fun hup => absurd hup (by decide), fun _ => trivial, trivial⟩

/-- A Classic Controller's right stick pushed to the right, then one MotionPlus sample. -/
def classicThenMotionPlus : List EngineInput :=
  [.motion .classic #v[⟨0, 0, 0⟩, ⟨30, 0, 0⟩, ⟨0, 0, 0⟩, ⟨0, 0, 0⟩, ⟨0, 0, 0⟩,
    ⟨0, 0, 0⟩, ⟨0, 0, 0⟩, ⟨0, 0, 0⟩],
   .motion .motionPlus (Vector.replicate 8 ⟨0, 0, 0⟩)]

/-- B is never touched, and still the sample centres the stick the controller reported. -/
theorem classicThenMotionPlus_not_kept :
    (new aimOnB .gamepad).isHeld .b = false ∧
      stickOf ((new aimOnB .gamepad).processAll classicThenMotionPlus).2 =
        [.abs .gamepad absRx 32767, .abs .gamepad absRy 0] ++ recentre ∧
      ¬ StickKept .b (new aimOnB .gamepad) classicThenMotionPlus := by
  have hreported : classicThenMotionPlus.flatMap (new aimOnB .gamepad).reported =
      [.abs .gamepad absRx 32767, .abs .gamepad absRy 0] := by
    decide
  have hstick : stickOf ((new aimOnB .gamepad).processAll classicThenMotionPlus).2 =
      [.abs .gamepad absRx 32767, .abs .gamepad absRy 0] ++ recentre := by
    decide
  refine ⟨by decide, hstick, fun hkept => ?_⟩
  have hsame := hkept.stretches [] classicThenMotionPlus [] (List.append_nil _).symm
    ⟨by decide, by decide, trivial⟩
  rw [hreported] at hsame
  exact absurd (hstick.symm.trans hsame) (by decide)

end DeviceEngine

end Wiiland
