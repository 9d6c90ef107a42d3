/-
The pointer and the aim as followers of the held buttons.  Both keep their own copy of
what is held and change it at transitions only; after every run the copies agree with
what the sources hold.
-/
import Wiiland.Core.AimGate

namespace Wiiland

/-- The buttons that move the desktop pointer. -/
def directionButtons : List Button := [.left, .right, .up, .down]

/-- The pointer keys of the held direction buttons. -/
def directions (held : Button → Bool) : BitVec 8 :=
  (if held .left then pointerLeft else 0) ||| (if held .right then pointerRight else 0) |||
    (if held .up then pointerUp else 0) ||| (if held .down then pointerDown else 0)

open DeviceEngine (pointerBit)
open Mapping (MotionKind Abs3)

theorem directions_bit (held : Button → Bool) {button : Button}
    (hbutton : button ∈ directionButtons) :
    (directions held &&& pointerBit button != 0) = held button := by
  unfold directions
  simp only [directionButtons, List.mem_cons, List.not_mem_nil, or_false] at hbutton
  rcases hbutton with rfl | rfl | rfl | rfl
  all_goals
    generalize held .left = left
    generalize held .right = right
    generalize held .up = up
    generalize held .down = down
    revert left right up down
    decide

theorem directions_ne_zero (held : Button → Bool) :
    directions held ≠ 0 ↔ ∃ button ∈ directionButtons, held button = true := by
  simp only [directionButtons, List.exists_mem_cons_iff, List.not_mem_nil, false_and,
    exists_false, or_false]
  unfold directions
  generalize held .left = left
  generalize held .right = right
  generalize held .up = up
  generalize held .down = down
  revert left right up down
  decide

/-- A button that moves no pointer is no direction. -/
theorem mem_directionButtons {button : Button} (hbit : pointerBit button ≠ 0) :
    button ∈ directionButtons := by
  revert hbit
  cases button <;> decide

theorem directions_update_other {held : Button → Bool} {button : Button}
    (hbutton : button ∉ directionButtons) (level : Bool) :
    directions (Function.update held button level) = directions held := by
  have hother : ∀ other ∈ directionButtons, Function.update held button level other =
      held other := by
    rintro other hother
    have hne : other ≠ button := fun heq => hbutton (heq ▸ hother)
    exact Function.update_of_ne hne level held
  rw [directions, hother .left (by decide), hother .right (by decide),
    hother .up (by decide), hother .down (by decide), directions]

/-- One level that changes is one bit that changes. -/
theorem directions_update {held : Button → Bool} {button : Button}
    (hbutton : button ∈ directionButtons) (level : Bool) :
    directions (Function.update held button level) =
      if level then directions held ||| pointerBit button
      else directions held &&& ~~~pointerBit button := by
  unfold directions
  simp only [Function.update_apply]
  generalize held .left = left
  generalize held .right = right
  generalize held .up = up
  generalize held .down = down
  simp only [directionButtons, List.mem_cons, List.not_mem_nil, or_false] at hbutton
  rcases hbutton with rfl | rfl | rfl | rfl
  all_goals
    revert level left right up down
    decide

/-- The pointer keys are those of the held directions, and the velocity is fresh. -/
structure PointerFollows (desktop : Bool) (speed : Int) (held : Button → Bool)
    (pointer : PointerState) : Prop where
  keys : pointer.pointerKeys = if desktop then directions held else 0
  sameSpeed : pointer.speed = speed
  fresh : pointer.velocity = pointer.refreshVelocity.velocity

/-- An enabled aim that waits for a button holds when that button is held. -/
structure AimFollows (config : AimConfig) (held : Button → Bool) (aim : AimState) : Prop where
  settings : aim.config = config
  held : aim.enabled = true → ∀ button, config.activation.button = some button →
    aim.held = held button

section Steps

variable {desktop level : Bool} {speed : Int} {held : Button → Bool} {button : Button}
  {pointer : PointerState} {config : AimConfig} {aim : AimState}

theorem PointerFollows.updateKey (hfollows : PointerFollows true speed held pointer)
    (hbutton : button ∈ directionButtons) (level : Bool) :
    PointerFollows true speed (Function.update held button level)
      (pointer.updateKey (pointerBit button) level).1 := by
  refine ⟨?_, hfollows.sameSpeed, rfl⟩
  rw [if_pos rfl, directions_update hbutton]
  have hkeys : pointer.pointerKeys = directions held := hfollows.keys
  rw [← hkeys]
  rfl

theorem PointerFollows.other (hfollows : PointerFollows desktop speed held pointer)
    (hbutton : button ∉ directionButtons) (level : Bool) :
    PointerFollows desktop speed (Function.update held button level) pointer := by
  refine ⟨?_, hfollows.sameSpeed, hfollows.fresh⟩
  rw [directions_update_other hbutton]
  exact hfollows.keys

theorem PointerFollows.reset (hspeed : pointer.speed = speed)
    (hnone : ∀ button, held button = false) :
    PointerFollows desktop speed held pointer.reset := by
  refine ⟨?_, hspeed, by simp [PointerState.reset, PointerState.resetIr,
    PointerState.refreshVelocity, PointerState.velocity]⟩
  have hzero : directions held = 0 := by
    by_contra hne
    obtain ⟨button, _, hheld⟩ := (directions_ne_zero held).mp hne
    rw [hnone button] at hheld
    cases hheld
  rw [hzero, ite_self]
  rfl

theorem PointerFollows.updateIr (hfollows : PointerFollows desktop speed held pointer)
    (point : Option IrPoint) :
    PointerFollows desktop speed held (pointer.updateIr point).1 := by
  unfold PointerState.updateIr
  cases point.filter IrPoint.valid with
  | none => exact ⟨hfollows.keys, hfollows.sameSpeed, hfollows.fresh⟩
  | some point =>
      simp only
      split
      · exact ⟨hfollows.keys, hfollows.sameSpeed, hfollows.fresh⟩
      · exact ⟨hfollows.keys, hfollows.sameSpeed, hfollows.fresh⟩

theorem AimFollows.kept (hfollows : AimFollows config held aim) {later : AimState}
    (hkept : aim.Kept later) : AimFollows config held later := by
  refine ⟨hkept.1.trans hfollows.settings, fun henabled button hbutton => ?_⟩
  rw [hkept.2]
  refine hfollows.held ?_ button hbutton
  rw [AimState.enabled, ← hkept.1]
  exact henabled

/-- A level that changes reaches the aim as its activation key. -/
theorem AimFollows.activationKey (hfollows : AimFollows config held aim) (button : Button)
    (level : Bool) :
    AimFollows config (Function.update held button level)
      (aim.activationKey button.code level).1 := by
  have hconfig := (aim.activationKey_config button.code level).trans hfollows.settings
  refine ⟨hconfig, fun henabled waited hwaited => ?_⟩
  have hon : aim.enabled = true := by
    rw [AimState.enabled, hfollows.settings, ← hconfig]
    exact henabled
  rw [← hfollows.settings] at hwaited
  by_cases hsame : button = waited
  · subst hsame
    rw [Function.update_self, AimState.activationKey_own hon hwaited]
    split <;> rfl
  · rw [Function.update_of_ne (Ne.symm hsame), AimState.activationKey_other hon hwaited hsame]
    exact hfollows.held hon waited (hfollows.settings ▸ hwaited)

end Steps

namespace DeviceEngine

/-- Both copies follow the held buttons. -/
structure Follows (config : ValidatedConfig) (profile : Profile) (engine : DeviceEngine) :
    Prop where
  sameProfile : engine.profile = profile
  pointer : PointerFollows (profile.contains .desktop) config.get.pointerSpeed engine.isHeld
    engine.pointer
  aim : AimFollows (.fromConfig config.get) engine.isHeld engine.aim

variable {config : ValidatedConfig} {profile : Profile} {engine : DeviceEngine}

theorem follows_new (config : ValidatedConfig) (profile : Profile) :
    Follows config profile (new config profile) := by
  have hnone : ∀ button, (new config profile).isHeld button = false := isHeld_of_none rfl
  refine ⟨rfl, ⟨?_, rfl, ?_⟩, rfl, fun _ button _ => (hnone button).symm⟩
  · have hzero : directions (new config profile).isHeld = 0 := by
      simp [directions, hnone]
    rw [hzero, ite_self]
    rfl
  · simp [new, PointerState.new, PointerState.refreshVelocity, PointerState.velocity]

/-- A key event writes the level of its button. -/
theorem setHeld_isHeld (engine : DeviceEngine) (source : InputSource) (button : Button)
    (state : ButtonState) :
    (engine.setHeld source button state).isHeld =
      Function.update engine.isHeld button
        ((engine.setHeld source button state).isHeld button) := by
  funext other
  by_cases hother : other = button
  · rw [hother, Function.update_self]
  · rw [Function.update_of_ne hother, setHeld_isHeld_of_ne engine source hother]

theorem pointerTransition_pointer (engine : DeviceEngine) (button : Button)
    (wasHeld isHeld : Bool) :
    (engine.pointerTransition button wasHeld isHeld).1.pointer =
      if engine.profile.contains .desktop && pointerBit button != 0 && wasHeld != isHeld then
        (engine.pointer.updateKey (pointerBit button) isHeld).1
      else engine.pointer := by
  unfold pointerTransition
  split <;> rfl

theorem aimTransition_pointer (engine : DeviceEngine) (button : Button)
    (wasHeld isHeld : Bool) :
    (engine.aimTransition button wasHeld isHeld).1.pointer = engine.pointer := by
  unfold aimTransition
  split <;> rfl

/-- A key event reaches the pointer when it changes the level of a direction. -/
theorem key_pointer (engine : DeviceEngine) (source : InputSource) (button : Button)
    (state : ButtonState) :
    let isHeld := (engine.setHeld source button state).isHeld button
    (engine.key source button state).1.pointer =
      if engine.profile.contains .desktop && pointerBit button != 0 &&
          engine.isHeld button != isHeld then
        (engine.pointer.updateKey (pointerBit button) isHeld).1
      else engine.pointer := by
  intro isHeld
  unfold key
  simp only [bne_and_buttonBit]
  rw [aimTransition_pointer]
  exact pointerTransition_pointer (engine.setHeld source button state) button
    (engine.isHeld button) isHeld

theorem Follows.key (hfollows : Follows config profile engine) (source : InputSource)
    (button : Button) (state : ButtonState) :
    Follows config profile (engine.key source button state).1 := by
  have hheld : (engine.key source button state).1.isHeld =
      Function.update engine.isHeld button
        ((engine.setHeld source button state).isHeld button) := by
    rw [← setHeld_isHeld]
    funext other
    exact isHeld_congr (engine.key_held source button state) other
  have hpointer := engine.key_pointer source button state
  have haim := (engine.key_aim source button state).1
  refine ⟨(key_tracks engine source button state).profile.trans hfollows.sameProfile, ?_, ?_⟩
  · rw [hheld, hpointer]
    generalize (engine.setHeld source button state).isHeld button = level
    rw [hfollows.sameProfile]
    have hold := hfollows.pointer
    by_cases hbutton : button ∈ directionButtons
    · by_cases hlevel : engine.isHeld button = level
      · rw [← hlevel, Function.update_eq_self]
        simpa using hold
      · have hbit : (pointerBit button != 0) = true := by
          revert hbutton
          cases button <;> decide
        cases hdesktop : profile.contains .desktop with
        | true =>
            rw [hdesktop] at hold
            rw [hbit, if_pos (by simpa using hlevel)]
            exact hold.updateKey hbutton level
        | false =>
            rw [hdesktop] at hold
            rw [if_neg (by simp)]
            exact ⟨hold.keys, hold.sameSpeed, hold.fresh⟩
    · have hbit : pointerBit button = 0 := by
        by_contra hne
        exact hbutton (mem_directionButtons hne)
      rw [if_neg (by simp [hbit])]
      exact hold.other hbutton level
  · rw [hheld, haim]
    generalize (engine.setHeld source button state).isHeld button = level
    by_cases hlevel : engine.isHeld button = level
    · rw [← hlevel, Function.update_eq_self, if_neg (by simp)]
      exact hfollows.aim
    · rw [if_pos (by simpa using hlevel)]
      exact hfollows.aim.activationKey button level

theorem Follows.releaseAll (hfollows : Follows config profile engine) (held : BitVec 32)
    (source : InputSource) (buttons : List Button) :
    Follows config profile (releaseAll held source buttons engine).1 := by
  induction buttons generalizing engine with
  | nil => exact hfollows
  | cons button buttons ih =>
      unfold DeviceEngine.releaseAll
      split
      · exact ih (hfollows.key source button .released)
      · exact ih hfollows

/-- Samples change the aim within what it keeps, and the pointer's tracker. -/
theorem Follows.sampled (hfollows : Follows config profile engine) {next : DeviceEngine}
    (hprofile : next.profile = engine.profile) (hheld : next.held = engine.held)
    (hpointer : next.pointer = engine.pointer ∨
      ∃ point, next.pointer = (engine.pointer.updateIr point).1)
    (hkept : engine.aim.Kept next.aim) : Follows config profile next := by
  have hsame : next.isHeld = engine.isHeld := funext (isHeld_congr hheld)
  refine ⟨hprofile.trans hfollows.sameProfile, ?_, ?_⟩
  · rw [hsame]
    rcases hpointer with hpointer | ⟨point, hpointer⟩
    · rw [hpointer]
      exact hfollows.pointer
    · rw [hpointer]
      exact hfollows.pointer.updateIr point
  · rw [hsame]
    exact hfollows.aim.kept hkept

theorem Follows.motion (hfollows : Follows config profile engine) (kind : MotionKind)
    (axes : Vector Abs3 8) : Follows config profile (engine.motion kind axes).1 := by
  cases kind with
  | accel => exact hfollows.sampled rfl rfl (.inl rfl) (engine.aim.kept_processAccelerometer _ _ _)
  | motionPlus =>
      exact hfollows.sampled rfl rfl (.inl rfl)
        (engine.aim.kept_processMotionPlus _ _ (Mapping.primary axes).z)
  | _ => exact hfollows

theorem Follows.ir (hfollows : Follows config profile engine) (frame : IrFrame) :
    Follows config profile (engine.ir frame).1 := by
  have hmoved : (engine.irPointer frame).1.aim = engine.aim ∧
      (engine.irPointer frame).1.profile = engine.profile ∧
      ((engine.irPointer frame).1.pointer = engine.pointer ∨
        ∃ point, (engine.irPointer frame).1.pointer = (engine.pointer.updateIr point).1) := by
    unfold irPointer
    split
    · exact ⟨rfl, rfl, .inr ⟨_, rfl⟩⟩
    · exact ⟨rfl, rfl, .inl rfl⟩
  refine hfollows.sampled hmoved.2.1 (engine.ir_held frame) hmoved.2.2 ?_
  have hkept := (engine.irPointer frame).1.aim.kept_processIr (engine.pointer.selectIr frame)
  rw [hmoved.1] at hkept
  change engine.aim.Kept ((engine.irPointer frame).1.aim.processIr _).1
  rw [hmoved.1]
  exact hkept

/-- Every input keeps both copies in step with what is held. -/
theorem Follows.process (hfollows : Follows config profile engine) (input : EngineInput) :
    Follows config profile (engine.process input).1 := by
  cases input with
  | key source button state => exact hfollows.key source button state
  | motion kind axes => exact hfollows.motion kind axes
  | ir frame => exact hfollows.ir frame
  | sourceRemoved source => exact hfollows.releaseAll (engine.held source) source Button.all
  | pointerTick =>
      rw [process_pointerTick]
      exact hfollows
  | reset =>
      have hnone : ∀ button, (engine.process .reset).1.isHeld button = false :=
        isHeld_of_none rfl
      exact ⟨hfollows.sameProfile, .reset hfollows.pointer.sameSpeed hnone,
        hfollows.aim.settings, fun _ button _ => (hnone button).symm⟩

theorem Follows.processAll (hfollows : Follows config profile engine)
    (inputs : List EngineInput) : Follows config profile (engine.processAll inputs).1 := by
  induction inputs generalizing engine with
  | nil => exact hfollows
  | cons input inputs ih => exact ih (hfollows.process input)

/-- The masks after a run are what the inputs say last, else what they were before. -/
theorem processAll_held (engine : DeviceEngine) (inputs : List EngineInput)
    (source : InputSource) (button : Button) :
    ((engine.processAll inputs).1.held source).getLsbD button.code =
      (inputs.reverse.findSome? (EngineInput.decides source button)).getD
        ((engine.held source).getLsbD button.code) := by
  induction inputs generalizing engine with
  | nil => rfl
  | cons input inputs ih =>
      change (((engine.process input).1.processAll inputs).1.held source).getLsbD _ = _
      rw [ih, process_held, List.reverse_cons, List.findSome?_append, List.findSome?_singleton]
      cases inputs.reverse.findSome? (EngineInput.decides source button) with
      | some level => rfl
      | none => rfl

end DeviceEngine

/-- The engine after a run. -/
def reached (config : ValidatedConfig) (profile : Profile) (inputs : List EngineInput) :
    DeviceEngine :=
  ((DeviceEngine.new config profile).processAll inputs).1

/-- Some source holds the button after the inputs. -/
def heldAfter (inputs : List EngineInput) (button : Button) : Prop :=
  ∃ source, holds inputs source button = true

theorem isHeld_reached (config : ValidatedConfig) (profile : Profile)
    (inputs : List EngineInput) (button : Button) :
    (reached config profile inputs).isHeld button = true ↔ heldAfter inputs button := by
  rw [DeviceEngine.isHeld_iff]
  refine exists_congr fun source => ?_
  have hnew : (((DeviceEngine.new config profile).held source).getLsbD button.code) = false := by
    simp [DeviceEngine.new]
  rw [reached, DeviceEngine.processAll_held, holds, hnew]

/-- The value of one pointer bit. -/
def PointerState.bit (pointer : PointerState) (button : Button) : Int :=
  if pointer.pointerKeys &&& pointerBit button != 0 then 1 else 0

/-- A fresh velocity is the speed times the difference of the opposite bits. -/
theorem velocity_of_fresh {pointer : PointerState} (hmin : 1 ≤ pointer.speed)
    (hmax : pointer.speed ≤ 127) :
    pointer.refreshVelocity.velocity =
      ⟨pointer.speed * (pointer.bit .right - pointer.bit .left),
        pointer.speed * (pointer.bit .down - pointer.bit .up)⟩ := by
  have haxis : ∀ minus plus : Bool,
      (let v := if minus then Wrap.i32 (0 - pointer.speed) else 0
       if plus then Wrap.i32 (v + pointer.speed) else v) =
        pointer.speed * ((if plus then 1 else 0) - if minus then 1 else 0) := by
    have hback : Wrap.i32 (-pointer.speed) = -pointer.speed :=
      Wrap.i32_eq (by omega) (by omega)
    have hforth : Wrap.i32 pointer.speed = pointer.speed :=
      Wrap.i32_eq (by omega) (by omega)
    have hzero : Wrap.i32 0 = 0 := rfl
    intro minus plus
    cases minus <;> cases plus <;> simp [hback, hforth, hzero]
  exact congrArg₂ PointerDelta.mk (haxis _ _) (haxis _ _)

/-- The pointer and the aim of an engine agree with what is held. -/
structure HeldAgrees (config : ValidatedConfig) (profile : Profile) (held : Button → Prop)
    (engine : DeviceEngine) : Prop where
  bits : ∀ button ∈ directionButtons,
    engine.pointer.bit button = 1 ↔ profile.contains .desktop = true ∧ held button
  velocity : engine.pointer.velocity =
    ⟨config.get.pointerSpeed * (engine.pointer.bit .right - engine.pointer.bit .left),
      config.get.pointerSpeed * (engine.pointer.bit .down - engine.pointer.bit .up)⟩
  active : engine.pointerActive = true ↔
    ∃ button ∈ directionButtons, engine.pointer.bit button = 1
  aim : config.get.aimMode ≠ .off → ∀ button,
    config.get.aimActivation.button = some button → (engine.aim.held = true ↔ held button)
  still : (∀ button ∈ directionButtons, ¬held button) →
    (engine.process .pointerTick).2 = []
  idle : config.get.aimActivation ≠ .always →
    (∀ button, config.get.aimActivation.button = some button → ¬held button) →
      engine.aim.isActive = false

theorem PointerFollows.bit {desktop : Bool} {speed : Int} {held : Button → Bool}
    {pointer : PointerState} (hfollows : PointerFollows desktop speed held pointer)
    {button : Button} (hbutton : button ∈ directionButtons) :
    pointer.bit button = 1 ↔ desktop = true ∧ held button = true := by
  rw [PointerState.bit, hfollows.keys]
  cases desktop with
  | true =>
      rw [if_pos rfl, directions_bit held hbutton]
      simp
  | false => simp

theorem AimFollows.isActive {config : AimConfig} {held : Button → Bool} {aim : AimState}
    (hfollows : AimFollows config held aim) (hactivation : config.activation ≠ .always)
    (hup : ∀ button, config.activation.button = some button → held button = false) :
    aim.isActive = false := by
  rw [AimState.isActive, hfollows.settings]
  cases henabled : aim.enabled with
  | false => rfl
  | true =>
      have hbutton : ∃ button, config.activation.button = some button := by
        revert hactivation
        cases config.activation <;> simp [AimActivation.button]
      obtain ⟨button, hbutton⟩ := hbutton
      rw [hfollows.held henabled button hbutton, hup button hbutton]
      simpa using hactivation

theorem heldAgrees_of_follows {config : ValidatedConfig} {profile : Profile}
    {engine : DeviceEngine} (hfollows : engine.Follows config profile) :
    HeldAgrees config profile (fun button => engine.isHeld button = true) engine := by
  have hrange := (config.get.inRange_iff.mp (config.get.validate_eq_ok_iff.mp config.valid).2.1).1
  have hspeed := hfollows.pointer.sameSpeed
  have hactive : engine.pointerActive = true ↔
      ∃ button ∈ directionButtons, engine.pointer.bit button = 1 := by
    have hbits : (∃ button ∈ directionButtons, engine.pointer.bit button = 1) ↔
        profile.contains .desktop = true ∧
          ∃ button ∈ directionButtons, engine.isHeld button = true := by
      constructor
      · rintro ⟨button, hbutton, hbit⟩
        obtain ⟨hdesktop, hheld⟩ := (hfollows.pointer.bit hbutton).mp hbit
        exact ⟨hdesktop, button, hbutton, hheld⟩
      · rintro ⟨hdesktop, button, hbutton, hheld⟩
        exact ⟨button, hbutton, (hfollows.pointer.bit hbutton).mpr ⟨hdesktop, hheld⟩⟩
    rw [hbits, ← directions_ne_zero, DeviceEngine.pointerActive, bne_iff_ne,
      hfollows.pointer.keys]
    cases profile.contains .desktop with
    | true => simp
    | false => simp
  refine ⟨fun button hbutton => hfollows.pointer.bit hbutton, ?_, hactive, ?_, ?_, ?_⟩
  · rw [hfollows.pointer.fresh, velocity_of_fresh (by omega) (by omega), hspeed]
  · intro hmode button hbutton
    rw [hfollows.aim.held ?_ button hbutton]
    rw [AimState.enabled, hfollows.aim.settings]
    simpa [AimConfig.fromConfig] using hmode
  · intro hup
    rw [DeviceEngine.process_pointerTick]
    refine if_neg fun hmoving => ?_
    obtain ⟨button, hbutton, hbit⟩ := hactive.mp hmoving
    exact hup button hbutton ((hfollows.pointer.bit hbutton).mp hbit).2
  · intro hactivation hup
    exact hfollows.aim.isActive hactivation fun button hbutton =>
      Bool.eq_false_iff.mpr (hup button hbutton)

theorem heldAgrees_reached (config : ValidatedConfig) (profile : Profile)
    (inputs : List EngineInput) :
    HeldAgrees config profile (heldAfter inputs) (reached config profile inputs) := by
  have hagrees := heldAgrees_of_follows
    ((DeviceEngine.follows_new config profile).processAll inputs)
  have hheld : (fun button => (reached config profile inputs).isHeld button = true) =
      heldAfter inputs := funext fun button => propext (isHeld_reached config profile inputs button)
  rw [← hheld]
  exact hagrees

/-- A source that is removed holds nothing any more. -/
theorem heldAfter_removed {inputs : List EngineInput} {source : InputSource} {button : Button}
    (hlast : ∀ other, holds inputs other button = true → other = source) :
    ¬heldAfter (inputs ++ [.sourceRemoved source]) button := by
  rintro ⟨other, hholds⟩
  rw [holds_concat] at hholds
  by_cases hother : source = other
  · simp [EngineInput.decides, hother] at hholds
  · simp only [EngineInput.decides, hother, if_false, Option.getD_none] at hholds
    exact hother (hlast other hholds).symm

theorem heldAfter_reset {inputs : List EngineInput} {button : Button} :
    ¬heldAfter (inputs ++ [.reset]) button := by
  rintro ⟨other, hholds⟩
  rw [holds_concat] at hholds
  simp [EngineInput.decides] at hholds

/-- Pointer and aim state follow the held buttons: after every run of every engine both
agree with what the sources hold, so they stop with the removal of the last holder and
with a reset. -/
theorem pointer_aim_follow (config : ValidatedConfig) (profile : Profile)
    (inputs : List EngineInput) :
    HeldAgrees config profile (heldAfter inputs) (reached config profile inputs) ∧
    (∀ source, (∀ button ∈ directionButtons, ∀ other, holds inputs other button = true →
        other = source) →
      ((reached config profile (inputs ++ [.sourceRemoved source])).process
        .pointerTick).2 = []) ∧
    (∀ source, config.get.aimActivation ≠ .always →
      (∀ button, config.get.aimActivation.button = some button → ∀ other,
        holds inputs other button = true → other = source) →
      (reached config profile (inputs ++ [.sourceRemoved source])).aim.isActive = false) ∧
    ((reached config profile (inputs ++ [.reset])).process .pointerTick).2 = [] ∧
    (config.get.aimActivation ≠ .always →
      (reached config profile (inputs ++ [.reset])).aim.isActive = false) := by
  refine ⟨heldAgrees_reached config profile inputs, fun source hlast => ?_,
    fun source hactivation hlast => ?_, ?_, fun hactivation => ?_⟩
  · exact (heldAgrees_reached config profile _).still fun button hbutton =>
      heldAfter_removed (hlast button hbutton)
  · exact (heldAgrees_reached config profile _).idle hactivation fun button hbutton =>
      heldAfter_removed (hlast button hbutton)
  · exact (heldAgrees_reached config profile _).still fun _ _ => heldAfter_reset
  · exact (heldAgrees_reached config profile _).idle hactivation fun _ _ => heldAfter_reset

/-- Two sources hold the right button; the pointer moves until both let it go. -/
example :
    let moves := fun inputs =>
      ((reached ⟨{}, by decide⟩ .desktop inputs).process .pointerTick).2 ≠ []
    let pressed := [EngineInput.key .core .right .pressed, .key .nunchuk .right .pressed]
    moves pressed ∧ moves (pressed ++ [.sourceRemoved .core]) ∧
      ¬moves (pressed ++ [.sourceRemoved .core, .key .nunchuk .right .released]) := by
  decide

end Wiiland
