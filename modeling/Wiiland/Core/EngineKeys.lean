/-
Virtual keys follow the held buttons.  The per-source masks of the engine
determine the level of every virtual key, and each input emits exactly the
lawful strokes that carry the old levels to the new ones.
-/
import Wiiland.Core.Engine
import Wiiland.Lib.Latch

namespace Wiiland

open Latch Mapping

/-- A virtual key: the device it lives on and its code. -/
abbrev VirtualKey := OutputDevice × Nat

/-- The meaning of the value of a key action. -/
def strokeOfValue : Nat → Option Stroke
  | 0 => some .release
  | 1 => some .press
  | 2 => some .again
  | _ => none

def OutputAction.stroke? : OutputAction → Option (VirtualKey × Stroke)
  | .key target code value =>
      (strokeOfValue value).map fun stroke => ((target, code), stroke)
  | _ => none

/-- A key action carries one of the three key values. -/
def OutputAction.keyValueKnown : OutputAction → Bool
  | .key _ _ value => (strokeOfValue value).isSome
  | _ => true

/-- The key strokes of an action list, in order. -/
def strokesOf (actions : List OutputAction) : List (VirtualKey × Stroke) :=
  actions.filterMap OutputAction.stroke?

@[simp] theorem strokesOf_append (first second : List OutputAction) :
    strokesOf (first ++ second) = strokesOf first ++ strokesOf second := by
  simp [strokesOf]

@[simp] theorem strokesOf_emitPointer (delta : PointerDelta) :
    strokesOf (emitPointer delta) = [] := by
  unfold emitPointer
  split <;> rfl

@[simp] theorem strokesOf_emitAim (mode : AimMode) (result : AimResult) :
    strokesOf (emitAim mode result) = [] := by
  unfold emitAim
  cases result.output with
  | none => rfl
  | some v =>
      cases mode with
      | mouse => exact strokesOf_emitPointer ⟨v.x, v.y⟩
      | rightStick => rfl
      | off => rfl

theorem strokesOf_emitKeyTransition (target : OutputDevice) (code : Nat)
    (before after : Bool) (state : ButtonState) :
    strokesOf (emitKeyTransition target code before after state) =
      edgeOn (target, code) before after (decide (state = .repeated)) := by
  cases before <;> cases after <;> cases state <;> rfl

namespace DeviceEngine

/-- Some source holds the button. -/
def isHeld (engine : DeviceEngine) (button : Button) : Bool :=
  engine.heldButtons.getLsbD button.code

/-- The level of every virtual key, as the held buttons determine it. -/
def levels (engine : DeviceEngine) : Keys VirtualKey
  | (.gamepad, code) =>
      needsGamepad engine.profile engine.config.get &&
        (buttonOfKey code).any engine.isHeld
  | (.desktop, key) =>
      engine.profile.contains .desktop &&
        engine.desktopKeyHeld engine.heldButtons key

theorem bne_and_buttonBit (held : BitVec 32) (button : Button) :
    (held &&& buttonBit button != 0) = held.getLsbD button.code :=
  BitSet.bne_and_single held button.code_lt

theorem heldButtons_getLsbD (engine : DeviceEngine) (j : Nat) :
    engine.heldButtons.getLsbD j =
      InputSource.all.any fun source => (engine.held source).getLsbD j := by
  rw [heldButtons, BitSet.getLsbD_foldl_or, List.any_map]
  simp
  rfl

theorem isHeld_iff (engine : DeviceEngine) (button : Button) :
    engine.isHeld button = true ↔
      ∃ source, (engine.held source).getLsbD button.code = true := by
  rw [isHeld, heldButtons_getLsbD, List.any_eq_true]
  constructor
  · rintro ⟨source, _, hbit⟩
    exact ⟨source, hbit⟩
  · rintro ⟨source, hbit⟩
    exact ⟨source, source.mem_all, hbit⟩

/-- The level a button event gives its source's bit. -/
def stateHolds : ButtonState → Bool
  | .released => false
  | .pressed | .repeated => true

theorem getLsbD_maskAfter (mask : BitVec 32) (button other : Button)
    (state : ButtonState) :
    (maskAfter mask button state).getLsbD other.code =
      if other = button then stateHolds state else mask.getLsbD other.code := by
  have hcode : decide (button.code = other.code) = decide (other = button) := by
    rw [decide_eq_decide]
    exact ⟨fun h => (Button.code_injective h).symm, fun h => by rw [h]⟩
  have hinsert : (mask ||| buttonBit button).getLsbD other.code =
      if other = button then true else mask.getLsbD other.code := by
    rw [buttonBit, BitSet.getLsbD_insert, hcode]
    by_cases hother : other = button
    · simp [hother, button.code_lt]
    · simp [hother]
  cases state with
  | released =>
      rw [maskAfter, buttonBit, BitSet.getLsbD_erase, hcode]
      by_cases hother : other = button
      · simp [hother, stateHolds]
      · simp [hother]
  | pressed => exact hinsert
  | repeated => exact hinsert

/-- A key event writes one bit of one mask. -/
theorem setHeld_held (engine : DeviceEngine) (source owner : InputSource)
    (button other : Button) (state : ButtonState) :
    ((engine.setHeld source button state).held owner).getLsbD other.code =
      if owner = source ∧ other = button then stateHolds state
      else (engine.held owner).getLsbD other.code := by
  by_cases howner : owner = source
  · subst howner
    simp only [setHeld, Function.update_self, getLsbD_maskAfter, true_and]
  · simp only [setHeld, Function.update_of_ne howner, howner, false_and, if_false]

/-- A key event changes the union of the masks at its own button only. -/
theorem setHeld_isHeld_of_ne (engine : DeviceEngine) (source : InputSource)
    {button other : Button} (hother : other ≠ button) (state : ButtonState) :
    (engine.setHeld source button state).isHeld other = engine.isHeld other := by
  simp only [isHeld, heldButtons_getLsbD, setHeld_held, hother, and_false,
    if_false]

theorem desktopKeyHeld_eq_any (engine : DeviceEngine) (held : BitVec 32)
    (key : Nat) :
    engine.desktopKeyHeld held key = Button.all.any fun button =>
      held.getLsbD button.code && engine.desktopKey button == some key := by
  simp only [desktopKeyHeld, bne_and_buttonBit]

theorem desktopKeyHeld_iff (engine : DeviceEngine) (key : Nat) :
    engine.desktopKeyHeld engine.heldButtons key = true ↔
      ∃ button, engine.isHeld button = true ∧
        engine.desktopKey button = some key := by
  rw [desktopKeyHeld_eq_any, List.any_eq_true]
  constructor
  · rintro ⟨button, _, hbutton⟩
    simp only [Bool.and_eq_true, beq_iff_eq] at hbutton
    exact ⟨button, hbutton⟩
  · rintro ⟨button, hheld, hkey⟩
    refine ⟨button, button.mem_all, ?_⟩
    simp only [Bool.and_eq_true, beq_iff_eq]
    exact ⟨hheld, hkey⟩

/-- A desktop key not bound to the button keeps its level. -/
theorem setHeld_desktopKeyHeld_of_ne (engine : DeviceEngine)
    (source : InputSource) (button : Button) (state : ButtonState) {key : Nat}
    (hkey : engine.desktopKey button ≠ some key) :
    engine.desktopKeyHeld (engine.setHeld source button state).heldButtons key =
      engine.desktopKeyHeld engine.heldButtons key := by
  rw [desktopKeyHeld_eq_any, desktopKeyHeld_eq_any]
  congr 1
  funext other
  by_cases hother : other = button
  · rw [hother, beq_eq_false_iff_ne.mpr hkey, Bool.and_false, Bool.and_false]
  · have hsame := setHeld_isHeld_of_ne engine source hother state
    rw [isHeld, isHeld] at hsame
    rw [hsame]

/-- Only the masks, the profile and the configuration determine the levels. -/
theorem levels_congr {first second : DeviceEngine}
    (hconfig : first.config = second.config)
    (hprofile : first.profile = second.profile)
    (hheld : first.held = second.held) : first.levels = second.levels := by
  have hbuttons : first.heldButtons = second.heldButtons := by
    rw [heldButtons, heldButtons, hheld]
  have hisHeld : first.isHeld = second.isHeld := by
    funext button
    rw [isHeld, isHeld, hbuttons]
  funext key
  obtain ⟨target, code⟩ := key
  cases target with
  | gamepad => simp only [levels, hconfig, hprofile, hisHeld]
  | desktop =>
      simp only [levels, desktopKeyHeld, desktopKey, hconfig, hprofile, hbuttons]

@[simp] theorem levels_gamepad (engine : DeviceEngine) (button : Button) :
    engine.levels (.gamepad, mapButton button) =
      (needsGamepad engine.profile engine.config.get &&
        engine.isHeld button) := by
  simp [levels, buttonOfKey_mapButton]

/-- The gamepad keys of one level map beside the desktop keys of another. -/
def beside (gamepad desktop : Keys VirtualKey) : Keys VirtualKey
  | (.gamepad, code) => gamepad (.gamepad, code)
  | (.desktop, key) => desktop (.desktop, key)

/-- The strokes a button event sends to the gamepad. -/
def gamepadEdge (before after : DeviceEngine) (button : Button)
    (state : ButtonState) : List (VirtualKey × Stroke) :=
  if needsGamepad before.profile before.config.get then
    edgeOn (.gamepad, mapButton button) (before.isHeld button)
      (after.isHeld button) (decide (state = .repeated))
  else []

/-- The strokes a button event sends to the desktop. -/
def desktopEdge (before after : DeviceEngine) (button : Button)
    (state : ButtonState) : List (VirtualKey × Stroke) :=
  if before.profile.contains .desktop then
    match before.desktopKey button with
    | some mapped =>
        edgeOn (.desktop, mapped)
          (before.desktopKeyHeld before.heldButtons mapped)
          (before.desktopKeyHeld after.heldButtons mapped)
          (decide (state = .repeated))
    | none => []
  else []

theorem strokesOf_keyTransitions (engine : DeviceEngine) (source : InputSource)
    (button : Button) (state : ButtonState) :
    strokesOf ((engine.setHeld source button state).keyTransitions
        engine.heldButtons (engine.setHeld source button state).heldButtons
        button state) =
      gamepadEdge engine (engine.setHeld source button state) button state ++
        desktopEdge engine (engine.setHeld source button state) button state := by
  rw [keyTransitions, strokesOf_append, bne_and_buttonBit, bne_and_buttonBit]
  congr 1
  · by_cases hneeds : needsGamepad engine.profile engine.config.get
    · simp only [setHeld, gamepadEdge, hneeds, if_true,
        strokesOf_emitKeyTransition, isHeld]
    · simp only [setHeld, gamepadEdge, hneeds]
      rfl
  · by_cases hdesktop : engine.profile.contains .desktop
    · simp only [setHeld, desktopEdge, hdesktop, if_true, desktopKey]
      cases (engine.config.get.desktopBindings.action button).key with
      | none => rfl
      | some mapped => exact strokesOf_emitKeyTransition _ _ _ _ _
    · simp only [setHeld, desktopEdge, hdesktop]
      rfl

/-- The gamepad strokes bring the gamepad keys, and only them, to the levels
after the event. -/
theorem gamepadEdge_spec (engine : DeviceEngine) (source : InputSource)
    (button : Button) (state : ButtonState) :
    let after := engine.setHeld source button state
    Lawful engine.levels (gamepadEdge engine after button state) ∧
      strikes engine.levels (gamepadEdge engine after button state) =
        beside after.levels engine.levels := by
  intro after
  by_cases hneeds : needsGamepad engine.profile engine.config.get
  · have hbefore : engine.levels (.gamepad, mapButton button) =
        engine.isHeld button := by
      rw [levels_gamepad, hneeds, Bool.true_and]
    simp only [gamepadEdge, hneeds, if_true]
    refine ⟨lawful_edgeOn hbefore _ _, ?_⟩
    rw [strikes_edgeOn hbefore]
    funext key
    obtain ⟨target, code⟩ := key
    cases target with
    | desktop => rfl
    | gamepad =>
        by_cases hcode : code = mapButton button
        · subst hcode
          have hafter : needsGamepad after.profile after.config.get = true :=
            hneeds
          rw [Function.update_self, beside, levels_gamepad, hafter,
            Bool.true_and]
        · rw [Function.update_of_ne (by simp [hcode])]
          simp only [beside, levels]
          cases howner : buttonOfKey code with
          | none => rfl
          | some owner =>
              have hne : owner ≠ button := by
                rintro rfl
                exact hcode (mapButton_of_buttonOfKey howner).symm
              simp only [Option.any_some, after,
                setHeld_isHeld_of_ne engine source hne state]
              rfl
  · have hempty : gamepadEdge engine after button state = [] := if_neg hneeds
    rw [hempty]
    refine ⟨trivial, ?_⟩
    have hnone : needsGamepad engine.profile engine.config.get = false :=
      Bool.eq_false_iff.mpr hneeds
    have hafter : needsGamepad after.profile after.config.get = false := hnone
    funext key
    obtain ⟨target, code⟩ := key
    cases target with
    | desktop => rfl
    | gamepad =>
        simp only [strikes_nil, beside, levels, hafter, hnone, Bool.false_and]

/-- The desktop strokes then complete the levels after the event. -/
theorem desktopEdge_spec (engine : DeviceEngine) (source : InputSource)
    (button : Button) (state : ButtonState) :
    let after := engine.setHeld source button state
    Lawful (beside after.levels engine.levels)
        (desktopEdge engine after button state) ∧
      strikes (beside after.levels engine.levels)
          (desktopEdge engine after button state) = after.levels := by
  intro after
  have hsplit : ∀ desktop : Keys VirtualKey,
      (∀ key, desktop (.desktop, key) = after.levels (.desktop, key)) →
        beside after.levels desktop = after.levels := by
    intro desktop hdesktop
    funext key
    obtain ⟨target, code⟩ := key
    cases target with
    | gamepad => rfl
    | desktop => exact hdesktop code
  by_cases hdesktop : engine.profile.contains .desktop
  · have hunbound : ∀ key, engine.desktopKey button ≠ some key →
        engine.levels (.desktop, key) = after.levels (.desktop, key) := by
      intro key hkey
      have hsame := setHeld_desktopKeyHeld_of_ne engine source button state hkey
      simp only [levels, ← hsame]
      rfl
    cases hmapped : engine.desktopKey button with
    | none =>
        simp only [desktopEdge, hdesktop, hmapped, if_true]
        refine ⟨trivial, hsplit engine.levels fun key => hunbound key ?_⟩
        rw [hmapped]
        exact (Option.some_ne_none key).symm
    | some mapped =>
        have hbefore : beside after.levels engine.levels (.desktop, mapped) =
            engine.desktopKeyHeld engine.heldButtons mapped := by
          simp only [beside, levels, hdesktop, Bool.true_and]
        simp only [desktopEdge, hdesktop, hmapped, if_true]
        refine ⟨lawful_edgeOn hbefore _ _, ?_⟩
        rw [strikes_edgeOn hbefore]
        funext key
        obtain ⟨target, code⟩ := key
        cases target with
        | gamepad => rfl
        | desktop =>
            by_cases hcode : code = mapped
            · subst hcode
              have hafter : after.profile.contains .desktop = true := hdesktop
              rw [Function.update_self, levels, hafter, Bool.true_and]
              rfl
            · rw [Function.update_of_ne (by simp [hcode])]
              apply hunbound
              rw [hmapped]
              exact fun h => hcode (Option.some.inj h).symm
  · have hempty : desktopEdge engine after button state = [] := if_neg hdesktop
    rw [hempty]
    refine ⟨trivial, hsplit engine.levels fun key => ?_⟩
    have hnone : engine.profile.contains .desktop = false :=
      Bool.eq_false_iff.mpr hdesktop
    have hafter : after.profile.contains .desktop = false := hnone
    simp only [levels, hafter, hnone, Bool.false_and]

end DeviceEngine

end Wiiland
