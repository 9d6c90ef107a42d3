/-
The keys a session leaves pressed.  Replaying the key actions of any input
sequence on an abstract key set presses only keys that are up, releases only
keys that are down, and ends with exactly the keys the held buttons ask for.
-/
import Wiiland.Core.EngineKeys

namespace Wiiland

open Latch Mapping

theorem keyValueKnown_of_mem_emitPointer {delta : PointerDelta}
    {action : OutputAction} (haction : action ∈ emitPointer delta) :
    action.keyValueKnown = true := by
  unfold emitPointer at haction
  split at haction
  · simp only [List.cons_append, List.nil_append, List.mem_cons,
      List.not_mem_nil, or_false] at haction
    rcases haction with rfl | rfl | rfl <;> rfl
  · simp only [List.append_nil, List.mem_cons, List.not_mem_nil,
      or_false] at haction
    rcases haction with rfl | rfl <;> rfl

theorem keyValueKnown_of_mem_emitAim {mode : AimMode} {result : AimResult}
    {action : OutputAction} (haction : action ∈ emitAim mode result) :
    action.keyValueKnown = true := by
  unfold emitAim at haction
  cases hresult : result.output with
  | none =>
      rw [hresult] at haction
      exact absurd haction List.not_mem_nil
  | some v =>
      rw [hresult] at haction
      cases mode with
      | mouse => exact keyValueKnown_of_mem_emitPointer haction
      | rightStick =>
          simp only [List.mem_cons, List.not_mem_nil, or_false] at haction
          rcases haction with rfl | rfl | rfl <;> rfl
      | off => exact absurd haction List.not_mem_nil

theorem keyValueKnown_of_mem_emitKeyTransition {target : OutputDevice}
    {code : Nat} {before after : Bool} {state : ButtonState}
    {action : OutputAction}
    (haction : action ∈ emitKeyTransition target code before after state) :
    action.keyValueKnown = true := by
  unfold emitKeyTransition at haction
  split at haction
  · rw [List.mem_singleton.mp haction]
    rfl
  · rw [List.mem_singleton.mp haction]
    rfl
  · split at haction
    · rw [List.mem_singleton.mp haction]
      rfl
    · exact absurd haction List.not_mem_nil
  · exact absurd haction List.not_mem_nil

namespace DeviceEngine

/-- The contract of one engine step: lawful strokes carry the old levels to the
new ones, every key action has a known value, and the session constants stay. -/
structure Tracks (engine : DeviceEngine)
    (result : DeviceEngine × List OutputAction) : Prop where
  config : result.1.config = engine.config
  profile : result.1.profile = engine.profile
  known : ∀ action ∈ result.2, action.keyValueKnown = true
  lawful : Lawful engine.levels (strokesOf result.2)
  reaches : strikes engine.levels (strokesOf result.2) = result.1.levels

/-- Two steps in a row, with their actions appended. -/
theorem Tracks.trans {first second third : DeviceEngine}
    {firstActions secondActions : List OutputAction}
    (hfirst : first.Tracks (second, firstActions))
    (hsecond : second.Tracks (third, secondActions)) :
    first.Tracks (third, firstActions ++ secondActions) where
  config := hsecond.config.trans hfirst.config
  profile := hsecond.profile.trans hfirst.profile
  known := by
    intro action haction
    rcases List.mem_append.mp haction with hmem | hmem
    · exact hfirst.known action hmem
    · exact hsecond.known action hmem
  lawful := by
    rw [strokesOf_append, lawful_append, hfirst.reaches]
    exact ⟨hfirst.lawful, hsecond.lawful⟩
  reaches := by
    rw [strokesOf_append, strikes_append, hfirst.reaches]
    exact hsecond.reaches

/-- A step that strokes no key and leaves the masks alone. -/
theorem Tracks.of_quiet {engine after : DeviceEngine}
    {actions : List OutputAction} (hconfig : after.config = engine.config)
    (hprofile : after.profile = engine.profile)
    (hheld : after.held = engine.held)
    (hknown : ∀ action ∈ actions, action.keyValueKnown = true)
    (hquiet : strokesOf actions = []) : engine.Tracks (after, actions) where
  config := hconfig
  profile := hprofile
  known := hknown
  lawful := by
    rw [hquiet]
    trivial
  reaches := by
    rw [hquiet]
    exact (levels_congr hconfig hprofile hheld).symm

theorem Tracks.refl (engine : DeviceEngine) : engine.Tracks (engine, []) :=
  .of_quiet rfl rfl rfl (by simp) rfl

theorem keyTransitions_known {engine : DeviceEngine} {before after : BitVec 32}
    {button : Button} {state : ButtonState} {action : OutputAction}
    (haction : action ∈ engine.keyTransitions before after button state) :
    action.keyValueKnown = true := by
  rcases List.mem_append.mp haction with hmem | hmem
  · split at hmem
    · exact keyValueKnown_of_mem_emitKeyTransition hmem
    · exact absurd hmem List.not_mem_nil
  · split at hmem
    · cases hkey : engine.desktopKey button with
      | none =>
          rw [hkey] at hmem
          exact absurd hmem List.not_mem_nil
      | some mapped =>
          rw [hkey] at hmem
          exact keyValueKnown_of_mem_emitKeyTransition hmem
    · exact absurd hmem List.not_mem_nil

/-- The virtual keys of a key event, gamepad first and desktop second. -/
theorem setHeld_tracks (engine : DeviceEngine) (source : InputSource)
    (button : Button) (state : ButtonState) :
    let after := engine.setHeld source button state
    engine.Tracks (after, after.keyTransitions engine.heldButtons
      after.heldButtons button state) := by
  intro after
  have hgamepad := gamepadEdge_spec engine source button state
  have hdesktop := desktopEdge_spec engine source button state
  refine ⟨rfl, rfl, fun action => keyTransitions_known, ?_, ?_⟩
  · rw [strokesOf_keyTransitions, lawful_append, hgamepad.2]
    exact ⟨hgamepad.1, hdesktop.1⟩
  · rw [strokesOf_keyTransitions, strikes_append, hgamepad.2]
    exact hdesktop.2

theorem pointerTransition_held (engine : DeviceEngine) (button : Button)
    (wasHeld isHeld : Bool) :
    (engine.pointerTransition button wasHeld isHeld).1.held = engine.held := by
  unfold pointerTransition
  split <;> rfl

theorem pointerTransition_tracks (engine : DeviceEngine) (button : Button)
    (wasHeld isHeld : Bool) :
    engine.Tracks (engine.pointerTransition button wasHeld isHeld) := by
  unfold pointerTransition
  split
  · exact .of_quiet rfl rfl rfl (fun _ => keyValueKnown_of_mem_emitPointer)
      (strokesOf_emitPointer _)
  · exact .refl engine

theorem aimTransition_held (engine : DeviceEngine) (button : Button)
    (wasHeld isHeld : Bool) :
    (engine.aimTransition button wasHeld isHeld).1.held = engine.held := by
  unfold aimTransition
  split <;> rfl

theorem aimTransition_tracks (engine : DeviceEngine) (button : Button)
    (wasHeld isHeld : Bool) :
    engine.Tracks (engine.aimTransition button wasHeld isHeld) := by
  unfold aimTransition
  split
  · exact .of_quiet rfl rfl rfl (fun _ => keyValueKnown_of_mem_emitAim)
      (strokesOf_emitAim _ _)
  · exact .refl engine

theorem key_tracks (engine : DeviceEngine) (source : InputSource)
    (button : Button) (state : ButtonState) :
    engine.Tracks (engine.key source button state) :=
  ((setHeld_tracks engine source button state).trans
    (pointerTransition_tracks _ _ _ _)).trans (aimTransition_tracks _ _ _ _)

theorem key_held (engine : DeviceEngine) (source : InputSource)
    (button : Button) (state : ButtonState) :
    (engine.key source button state).1.held =
      (engine.setHeld source button state).held :=
  (aimTransition_held _ _ _ _).trans (pointerTransition_held _ _ _ _)

theorem releaseAll_tracks (held : BitVec 32) (source : InputSource)
    (buttons : List Button) (engine : DeviceEngine) :
    engine.Tracks (releaseAll held source buttons engine) := by
  induction buttons generalizing engine with
  | nil => exact .refl engine
  | cons button buttons ih =>
      unfold releaseAll
      split
      · exact (key_tracks engine source button .released).trans (ih _)
      · exact ih engine

/-- The loop clears the listed buttons of its own source, and nothing else. -/
theorem releaseAll_held (held : BitVec 32) (source owner : InputSource)
    (buttons : List Button) (engine : DeviceEngine) (other : Button) :
    ((releaseAll held source buttons engine).1.held owner).getLsbD other.code =
      if owner = source ∧ other ∈ buttons ∧ held.getLsbD other.code = true
      then false else (engine.held owner).getLsbD other.code := by
  induction buttons generalizing engine with
  | nil => simp [releaseAll]
  | cons button buttons ih =>
      unfold releaseAll
      rw [bne_and_buttonBit]
      by_cases hbit : held.getLsbD button.code = true
      · rw [if_pos hbit]
        dsimp only
        rw [ih, key_held, setHeld_held]
        by_cases hother : other = button
        · subst hother
          by_cases howner : owner = source <;> simp [howner, hbit, stateHolds]
        · simp [hother]
      · rw [if_neg hbit, ih]
        by_cases hother : other = button
        · subst hother
          simp [hbit]
        · simp [hother]

theorem motion_tracks (engine : DeviceEngine) (kind : MotionKind)
    (axes : Vector Abs3 8) : engine.Tracks (engine.motion kind axes) := by
  let mapped : List OutputAction :=
    if needsGamepad engine.profile engine.config.get then
      ((mapMotion kind axes).axes.map fun axis =>
        OutputAction.abs .gamepad axis.code axis.value) ++ [.sync .gamepad]
    else []
  have hmapped : engine.Tracks (engine, mapped) := by
    refine .of_quiet rfl rfl rfl ?_ ?_
    · intro action haction
      simp only [mapped] at haction
      split at haction
      · rcases List.mem_append.mp haction with hmem | hmem
        · obtain ⟨axis, _, rfl⟩ := List.mem_map.mp hmem
          rfl
        · rw [List.mem_singleton.mp hmem]
          rfl
      · exact absurd haction List.not_mem_nil
    · simp only [mapped]
      split
      · simp [strokesOf, List.filterMap_map, OutputAction.stroke?,
          Function.comp_def]
      · rfl
  have haim : ∀ (aim : AimState) (result : AimResult),
      engine.Tracks ({ engine with aim },
        mapped ++ emitAim aim.config.output result) := fun aim result =>
    hmapped.trans (.of_quiet rfl rfl rfl
      (fun _ => keyValueKnown_of_mem_emitAim) (strokesOf_emitAim _ _))
  cases kind with
  | accel => exact haim _ _
  | motionPlus => exact haim _ _
  | nunchuk => exact hmapped
  | classic => exact hmapped
  | pro => exact hmapped
  | guitar => exact hmapped
  | balance => exact hmapped
  | drums => exact hmapped

theorem motion_held (engine : DeviceEngine) (kind : MotionKind)
    (axes : Vector Abs3 8) : (engine.motion kind axes).1.held = engine.held := by
  cases kind <;> rfl

theorem irPointer_tracks (engine : DeviceEngine) (frame : IrFrame) :
    engine.Tracks (engine.irPointer frame) := by
  unfold irPointer
  split
  · exact .of_quiet rfl rfl rfl (fun _ => keyValueKnown_of_mem_emitPointer)
      (strokesOf_emitPointer _)
  · exact .refl engine

theorem irPointer_held (engine : DeviceEngine) (frame : IrFrame) :
    (engine.irPointer frame).1.held = engine.held := by
  unfold irPointer
  split <;> rfl

theorem ir_tracks (engine : DeviceEngine) (frame : IrFrame) :
    engine.Tracks (engine.ir frame) :=
  (irPointer_tracks engine frame).trans (.of_quiet rfl rfl rfl
    (fun _ => keyValueKnown_of_mem_emitAim) (strokesOf_emitAim _ _))

theorem ir_held (engine : DeviceEngine) (frame : IrFrame) :
    (engine.ir frame).1.held = engine.held :=
  irPointer_held engine frame

theorem process_pointerTick (engine : DeviceEngine) :
    engine.process .pointerTick =
      (engine, if engine.pointerActive then emitPointer engine.pointer.tick
        else []) := by
  change (if engine.pointerActive then _ else _) = _
  split <;> rfl

/-- Every input but a reset continues the session lawfully. -/
theorem process_tracks (engine : DeviceEngine) {input : EngineInput}
    (hinput : input ≠ .reset) : engine.Tracks (engine.process input) := by
  cases input with
  | key source button state => exact key_tracks engine source button state
  | motion kind axes => exact motion_tracks engine kind axes
  | ir frame => exact ir_tracks engine frame
  | pointerTick =>
      rw [process_pointerTick]
      split
      · exact .of_quiet rfl rfl rfl
          (fun _ => keyValueKnown_of_mem_emitPointer) (strokesOf_emitPointer _)
      · exact .refl engine
  | sourceRemoved source => exact releaseAll_tracks _ source _ engine
  | reset => exact absurd rfl hinput

end DeviceEngine

/-- What an input says about one button of one source. -/
def EngineInput.decides (source : InputSource) (button : Button) :
    EngineInput → Option Bool
  | .reset => some false
  | .sourceRemoved other => if other = source then some false else none
  | .key other pressed state =>
      if other = source ∧ pressed = button then
        some (DeviceEngine.stateHolds state)
      else none
  | .motion _ _ | .ir _ | .pointerTick => none

/-- A source holds a button when its last key event for it, since the last
reset or removal of that source, was a press or a repeat. -/
def holds (inputs : List EngineInput) (source : InputSource) (button : Button) :
    Bool :=
  (inputs.reverse.findSome? (EngineInput.decides source button)).getD false

theorem holds_concat (inputs : List EngineInput) (input : EngineInput)
    (source : InputSource) (button : Button) :
    holds (inputs ++ [input]) source button =
      (input.decides source button).getD (holds inputs source button) := by
  rw [holds, List.reverse_append, List.reverse_singleton,
    List.singleton_append, List.findSome?_cons]
  cases input.decides source button with
  | none => rfl
  | some value => rfl

theorem DeviceEngine.process_held (engine : DeviceEngine) (input : EngineInput)
    (source : InputSource) (button : Button) :
    ((engine.process input).1.held source).getLsbD button.code =
      (input.decides source button).getD
        ((engine.held source).getLsbD button.code) := by
  cases input with
  | key other pressed state =>
      have heq : (source = other ∧ button = pressed) ↔
          (other = source ∧ pressed = button) := by
        rw [eq_comm, eq_comm (a := button)]
      rw [process, key_held, setHeld_held, EngineInput.decides]
      simp only [heq]
      split <;> rfl
  | motion kind axes => rw [process, motion_held, EngineInput.decides, Option.getD]
  | ir frame => rw [process, ir_held, EngineInput.decides, Option.getD]
  | pointerTick => rw [process_pointerTick, EngineInput.decides, Option.getD]
  | sourceRemoved other =>
      rw [process, releaseAll_held, EngineInput.decides]
      by_cases howner : source = other
      · subst howner
        simp [button.mem_all]
      · have hother : other ≠ source := Ne.symm howner
        simp [howner, hother]
  | reset => simp [process, EngineInput.decides]

/-- The engine beside the abstract key set its actions are replayed on. -/
structure Replay where
  engine : DeviceEngine
  down : Keys VirtualKey

namespace Replay

/-- The adapter destroys the outputs at a reset. -/
def cleared (down : Keys VirtualKey) : EngineInput → Keys VirtualKey
  | .reset => noKeys
  | _ => down

def step (state : Replay) (input : EngineInput) : Replay where
  engine := (state.engine.process input).1
  down := strikes (cleared state.down input)
    (strokesOf (state.engine.process input).2)

def run (config : ValidatedConfig) (profile : Profile)
    (inputs : List EngineInput) : Replay :=
  inputs.foldl step ⟨.new config profile, noKeys⟩

theorem run_concat (config : ValidatedConfig) (profile : Profile)
    (inputs : List EngineInput) (input : EngineInput) :
    run config profile (inputs ++ [input]) =
      (run config profile inputs).step input := by
  simp [run]

/-- What holds of a session after the inputs received so far. -/
structure Agrees (config : ValidatedConfig) (profile : Profile)
    (inputs : List EngineInput) (state : Replay) : Prop where
  config : state.engine.config = config
  profile : state.engine.profile = profile
  down : state.down = state.engine.levels
  held : ∀ source button,
    (state.engine.held source).getLsbD button.code = holds inputs source button

theorem levels_of_no_held {engine : DeviceEngine}
    (hheld : engine.held = fun _ => 0) : engine.levels = noKeys := by
  have hbuttons : engine.isHeld = fun _ => false := by
    funext button
    rw [DeviceEngine.isHeld, DeviceEngine.heldButtons_getLsbD, hheld]
    simp
  funext key
  obtain ⟨target, code⟩ := key
  cases target with
  | gamepad => simp [DeviceEngine.levels, hbuttons, noKeys]
  | desktop =>
      have hany : engine.desktopKeyHeld engine.heldButtons code = false := by
        rw [Bool.eq_false_iff, ne_eq, DeviceEngine.desktopKeyHeld_iff, hbuttons]
        rintro ⟨_, hfalse, _⟩
        exact absurd hfalse Bool.false_ne_true
      simp [DeviceEngine.levels, hany, noKeys]

theorem agrees_initial (config : ValidatedConfig) (profile : Profile) :
    Agrees config profile [] ⟨.new config profile, noKeys⟩ where
  config := rfl
  profile := rfl
  down := (levels_of_no_held rfl).symm
  held := by
    intro source button
    simp [DeviceEngine.new, holds]

/-- Each step emits lawful strokes, starting from the keys the adapter kept. -/
theorem Agrees.lawful {config : ValidatedConfig} {profile : Profile}
    {inputs : List EngineInput} {state : Replay}
    (hagrees : Agrees config profile inputs state) (input : EngineInput) :
    Lawful (cleared state.down input)
        (strokesOf (state.engine.process input).2) ∧
      ∀ action ∈ (state.engine.process input).2, action.keyValueKnown = true := by
  by_cases hreset : input = .reset
  · subst hreset
    exact ⟨trivial, by simp [DeviceEngine.process]⟩
  · have htracks := state.engine.process_tracks hreset
    have hcleared : cleared state.down input = state.engine.levels := by
      rw [← hagrees.down]
      cases input <;> first | rfl | exact absurd rfl hreset
    rw [hcleared]
    exact ⟨htracks.lawful, htracks.known⟩

theorem Agrees.step {config : ValidatedConfig} {profile : Profile}
    {inputs : List EngineInput} {state : Replay}
    (hagrees : Agrees config profile inputs state) (input : EngineInput) :
    Agrees config profile (inputs ++ [input]) (state.step input) := by
  have hheld : ∀ source button,
      ((state.engine.process input).1.held source).getLsbD button.code =
        holds (inputs ++ [input]) source button := by
    intro source button
    rw [DeviceEngine.process_held, holds_concat, hagrees.held]
  by_cases hreset : input = .reset
  · subst hreset
    exact ⟨hagrees.config, hagrees.profile, (levels_of_no_held rfl).symm, hheld⟩
  · have htracks := state.engine.process_tracks hreset
    have hcleared : cleared state.down input = state.engine.levels := by
      rw [← hagrees.down]
      cases input <;> first | rfl | exact absurd rfl hreset
    refine ⟨htracks.config.trans hagrees.config,
      htracks.profile.trans hagrees.profile, ?_, hheld⟩
    rw [Replay.step, hcleared]
    exact htracks.reaches

theorem agrees_run (config : ValidatedConfig) (profile : Profile)
    (inputs : List EngineInput) :
    Agrees config profile inputs (run config profile inputs) := by
  induction inputs using List.reverseRecOn with
  | nil => exact agrees_initial config profile
  | append_singleton inputs input ih =>
      rw [run_concat]
      exact ih.step input

/-- After every prefix of every session the virtual keys that are down are
those the held buttons ask for, and every further key action is lawful. -/
theorem run_virtualKeys (config : ValidatedConfig) (profile : Profile)
    (inputs : List EngineInput) :
    let state := run config profile inputs
    (∀ button, state.down (.gamepad, mapButton button) = true ↔
      needsGamepad profile config.get = true ∧
        ∃ source, holds inputs source button = true) ∧
    (∀ key, state.down (.desktop, key) = true ↔
      profile.contains .desktop = true ∧
        ∃ button, (∃ source, holds inputs source button = true) ∧
          (config.get.desktopBindings.action button).key = some key) ∧
    (∀ input,
      let actions := (state.engine.process input).2
      Lawful (cleared state.down input) (strokesOf actions) ∧
        ∀ action ∈ actions, action.keyValueKnown = true) := by
  intro state
  have hagrees : Agrees config profile inputs state :=
    agrees_run config profile inputs
  have hisHeld : ∀ button, state.engine.isHeld button = true ↔
      ∃ source, holds inputs source button = true := by
    intro button
    rw [DeviceEngine.isHeld_iff]
    simp only [hagrees.held]
  refine ⟨fun button => ?_, fun key => ?_, hagrees.lawful⟩
  · rw [hagrees.down, DeviceEngine.levels_gamepad, hagrees.profile,
      hagrees.config, Bool.and_eq_true, hisHeld]
  · rw [hagrees.down, DeviceEngine.levels, Bool.and_eq_true,
      DeviceEngine.desktopKeyHeld_iff, hagrees.profile]
    simp only [hisHeld, DeviceEngine.desktopKey, hagrees.config]

end Replay

end Wiiland
