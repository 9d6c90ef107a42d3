/-
What the virtual devices are created to accept: their keys, axes and relative codes,
and the range of each axis.  Every action of an engine is one of these, except that
balance board samples are passed on as they are.
-/
import Wiiland.Core.Engine

namespace Wiiland

open Mapping

namespace Mapping

def coreKeys : List Nat :=
  [btnDpadLeft, btnDpadRight, btnDpadUp, btnDpadDown, btnSouth, btnEast, btnNorth, btnWest,
    btnStart, btnSelect, btnMode, btn1, btn2, btnTl, btnTr, btnTl2, btnTr2, btnThumbl,
    btnThumbr, btnC, btnZ, btnStrumBarUp, btnStrumBarDown, btnFretFarUp, btnFretUp,
    btnFretMid, btnFretLow, btnFretFarLow]

def coreAxes : List Nat :=
  [absX, absY, absRx, absRy, absZ, absRz, absHat3x, absHat3y, absMisc, absPressure,
    absDistance, absTiltX, absTiltY, absThrottle, absRudder, absWheel, absGas, absBrake,
    absHat0x, absHat1x, absHat1y, absHat2x]

def desktopKeys : List Nat := [0x110, 0x111, 28, 1, 125, 104, 109]

def desktopRels : List Nat := [0, 1]

structure AxisInfo where
  minimum : Int
  maximum : Int
  flat : Int
  fuzz : Int
deriving DecidableEq, Repr

structure VirtualCapabilities where
  keys : List Nat
  axes : List Nat
  rels : List Nat

def controllerCapabilities : VirtualCapabilities := ⟨coreKeys, coreAxes, []⟩

def desktopCapabilities : VirtualCapabilities := ⟨desktopKeys, [], desktopRels⟩

/-- Axis metadata used when constructing the virtual controller. -/
def axisInfo (code : Nat) : Option AxisInfo :=
  if code ∉ coreAxes then none
  else if code ∈ [absZ, absRz, absHat3y, absMisc] then some ⟨0, virtualTriggerMax, 0, 4⟩
  else if code ∈ [absPressure, absDistance, absTiltX, absTiltY] then some ⟨0, 65535, 0, 4⟩
  else some ⟨virtualAxisMin, virtualAxisMax, 256, 16⟩

/-- The axis is one of the controller's and its value lies in the declared range. -/
def MappedAxis.InRange (axis : MappedAxis) : Prop :=
  axis.code ∈ coreAxes ∧ ∃ info, axisInfo axis.code = some info ∧
    info.minimum ≤ axis.value ∧ axis.value ≤ info.maximum

theorem scaleSignedAxis_range (value negativeExtent positiveExtent : Int) :
    virtualAxisMin ≤ scaleSignedAxis value negativeExtent positiveExtent ∧
      scaleSignedAxis value negativeExtent positiveExtent ≤ virtualAxisMax := by
  have hmin : virtualAxisMin = -32768 := rfl
  have hmax : virtualAxisMax = 32767 := rfl
  unfold scaleSignedAxis
  rw [hmin, hmax]
  split
  · decide
  · next hextent =>
    split
    · decide
    · next hnegative =>
      split
      · decide
      · next hpositive =>
        split
        · next hbelow =>
          obtain ⟨hlow, hhigh⟩ := @Wrap.tdiv_range (value * - -32768) negativeExtent 32768
            (by decide) (by omega) (by omega)
          have hsign : (value * - -32768).tdiv negativeExtent ≤ 0 := by
            rw [← Int.neg_nonneg, ← Int.neg_tdiv]
            exact Int.tdiv_nonneg (by omega) (by omega)
          rw [Wrap.i32_eq (by omega) (by omega)]
          omega
        · next habove =>
          obtain ⟨hlow, hhigh⟩ := @Wrap.tdiv_range (value * 32767) positiveExtent 32767
            (by decide) (by omega) (by omega)
          rw [Wrap.i32_eq (by omega) (by omega)]
          omega

theorem scaleUnsignedAxis_range (value sourceMax : Int) {targetMax : Int}
    (htarget : 0 ≤ targetMax) (hsmall : targetMax < 2147483648) :
    0 ≤ scaleUnsignedAxis value sourceMax targetMax ∧
      scaleUnsignedAxis value sourceMax targetMax ≤ targetMax := by
  unfold scaleUnsignedAxis
  split
  · exact ⟨Int.le_refl _, htarget⟩
  · next hextent =>
    split
    · exact ⟨htarget, Int.le_refl _⟩
    · next hbelow =>
      rw [not_or, not_or, not_le, not_lt, not_le] at hextent
      rw [not_le] at hbelow
      have hproduct : value * targetMax ≤ targetMax * sourceMax := by
        rw [Int.mul_comm]
        exact Int.mul_le_mul_of_nonneg_left (Int.le_of_lt hbelow) htarget
      have hnonneg : 0 ≤ value * targetMax :=
        Int.mul_nonneg (Int.le_of_lt hextent.2.2) htarget
      obtain ⟨_, hhigh⟩ := @Wrap.tdiv_range (value * targetMax) sourceMax targetMax htarget
        (by omega) hproduct
      have hlow := @Int.tdiv_nonneg (value * targetMax) sourceMax hnonneg
        (Int.le_of_lt hextent.1)
      rw [Wrap.i32_eq (by omega) (by omega)]
      exact ⟨hlow, hhigh⟩

/-- An axis of the full signed range. -/
theorem inRange_signed {code : Nat} (value negativeExtent positiveExtent : Int)
    (hcode : axisInfo code = some ⟨virtualAxisMin, virtualAxisMax, 256, 16⟩) :
    MappedAxis.InRange ⟨code, scaleSignedAxis value negativeExtent positiveExtent⟩ := by
  refine ⟨?_, _, hcode, scaleSignedAxis_range value negativeExtent positiveExtent⟩
  by_contra hunknown
  rw [axisInfo, if_pos hunknown] at hcode
  cases hcode

/-- An axis whose range begins at zero or below and reaches the target. -/
theorem inRange_unsigned {code : Nat} {info : AxisInfo} (value sourceMax : Int)
    {targetMax : Int} (hcode : axisInfo code = some info) (hlow : info.minimum ≤ 0)
    (hhigh : targetMax ≤ info.maximum) (htarget : 0 ≤ targetMax)
    (hsmall : targetMax < 2147483648) :
    MappedAxis.InRange ⟨code, scaleUnsignedAxis value sourceMax targetMax⟩ := by
  obtain ⟨hnonneg, hbound⟩ := scaleUnsignedAxis_range value sourceMax htarget hsmall
  refine ⟨?_, _, hcode, Int.le_trans hlow hnonneg, Int.le_trans hbound hhigh⟩
  by_contra hunknown
  rw [axisInfo, if_pos hunknown] at hcode
  cases hcode

/-- Every axis of a motion is in its range. -/
def MappedMotion.Good (out : MappedMotion) : Prop := ∀ axis ∈ out.axes, axis.InRange

namespace MappedMotion

theorem good_empty : Good {} := fun _ haxis => absurd haxis List.not_mem_nil

theorem Good.push {out : MappedMotion} (hgood : out.Good) {code : Nat} {value : Int}
    (haxis : MappedAxis.InRange ⟨code, value⟩) : (out.push code value).Good := by
  unfold MappedMotion.push
  split
  · intro axis hmem
    rcases List.mem_append.mp hmem with hold | hnew
    · exact hgood axis hold
    · rw [List.mem_singleton.mp hnew]
      exact haxis
  · exact hgood

theorem Good.foldl {A : Type} {code : A → Nat} {value : A → Int} {entries : List A}
    {out : MappedMotion} (hgood : out.Good)
    (hentries : ∀ entry ∈ entries, MappedAxis.InRange ⟨code entry, value entry⟩) :
    (entries.foldl (fun out entry => out.push (code entry) (value entry)) out).Good := by
  induction entries generalizing out with
  | nil => exact hgood
  | cons entry entries ih =>
      rw [List.forall_mem_cons] at hentries
      exact ih (hgood.push hentries.1) hentries.2

theorem Good.pushXyz {out : MappedMotion} (hgood : out.Good) (value : Abs3)
    {codes : Nat × Nat × Nat} {extent : Int}
    (hcodes : ∀ code ∈ [codes.1, codes.2.1, codes.2.2],
      axisInfo code = some ⟨virtualAxisMin, virtualAxisMax, 256, 16⟩) :
    (out.pushAll (mapXyz value codes extent)).Good := by
  refine hgood.foldl fun axis haxis => ?_
  simp only [List.forall_mem_cons] at hcodes
  simp only [mapXyz, List.mem_cons, List.not_mem_nil, or_false] at haxis
  rcases haxis with rfl | rfl | rfl
  · exact inRange_signed _ _ _ hcodes.1
  · exact inRange_signed _ _ _ hcodes.2.1
  · exact inRange_signed _ _ _ hcodes.2.2.1

end MappedMotion

/-- The drum pads: every index past the stick has an axis that takes its pressure. -/
theorem inRange_drums {index : Nat} (hlow : 1 ≤ index) (hhigh : index < 8) (value : Int) :
    MappedAxis.InRange ⟨(drumsAbsCode index).getD 0, scaleDrumsPressure index value⟩ := by
  have hindex : index ∈ [1, 2, 3, 4, 5, 6, 7] := by
    simp only [List.mem_cons, List.not_mem_nil, or_false]
    omega
  simp only [List.mem_cons, List.not_mem_nil, or_false] at hindex
  rcases hindex with rfl | rfl | rfl | rfl | rfl | rfl | rfl <;>
    exact inRange_unsigned _ _ rfl (by decide) (by decide) (by decide) (by decide)

/-- Every layout but the balance board's stays in the declared ranges, whatever the
samples are. -/
theorem mapMotion_good {kind : MotionKind} (hkind : kind ≠ .balance) (values : Vector Abs3 8) :
    (mapMotion kind values).Good := by
  have hempty := MappedMotion.good_empty
  cases kind with
  | accel => exact hempty.pushXyz _ (by decide)
  | nunchuk =>
      exact ((hempty.push (inRange_signed _ _ _ rfl)).push
        (inRange_signed _ _ _ rfl)).pushXyz _ (by decide)
  | classic =>
      exact (((((hempty.push (inRange_signed _ _ _ rfl)).push
        (inRange_signed _ _ _ rfl)).push (inRange_signed _ _ _ rfl)).push
        (inRange_signed _ _ _ rfl)).push
        (inRange_unsigned _ _ rfl (by decide) (by decide) (by decide) (by decide))).push
        (inRange_unsigned _ _ rfl (by decide) (by decide) (by decide) (by decide))
  | pro =>
      exact (((hempty.push (inRange_signed _ _ _ rfl)).push
        (inRange_signed _ _ _ rfl)).push (inRange_signed _ _ _ rfl)).push
        (inRange_signed _ _ _ rfl)
  | guitar =>
      exact (((hempty.push (inRange_signed _ _ _ rfl)).push
        (inRange_signed _ _ _ rfl)).push (inRange_signed _ _ _ rfl)).push
        (inRange_unsigned _ _ rfl (by decide) (by decide) (by decide) (by decide))
  | balance => exact absurd rfl hkind
  | motionPlus => exact hempty.pushXyz _ (by decide)
  | drums =>
      refine ((hempty.push (inRange_signed _ _ _ rfl)).push
        (inRange_signed _ _ _ rfl)).foldl fun entry hentry => ?_
      rw [List.drop_one, List.tail_zipIdx] at hentry
      have hhigh := List.snd_lt_of_mem_zipIdx hentry
      rw [List.length_tail, Vector.length_toList] at hhigh
      exact inRange_drums (List.le_snd_of_mem_zipIdx hentry) hhigh _

/-- The balance board's samples are passed on unscaled. -/
theorem mapMotion_balance {values : Vector Abs3 8} {a b c d : Abs3} {rest : List Abs3}
    (hvalues : values.toList = a :: b :: c :: d :: rest) :
    (mapMotion .balance values).axes =
      [⟨absPressure, a.x⟩, ⟨absDistance, b.x⟩, ⟨absTiltX, c.x⟩, ⟨absTiltY, d.x⟩] := by
  have hget : ∀ i : Nat, values[i]? = (a :: b :: c :: d :: rest)[i]? := fun i => by
    rw [← hvalues, Vector.getElem?_toList]
  simp only [mapMotion, List.zipIdx_cons, List.zipIdx_nil, List.foldl_cons, List.foldl_nil,
    hget]
  rfl

end Mapping

def OutputDevice.capabilities : OutputDevice → VirtualCapabilities
  | .gamepad => controllerCapabilities
  | .desktop => desktopCapabilities

/-- The outputs of a device are created by need. -/
def OutputDevice.created (profile : Profile) (config : Config) : OutputDevice → Bool
  | .gamepad => needsGamepad profile config
  | .desktop => needsDesktop profile config

/-- The target has been created, and it was created to accept the action. -/
def OutputAction.Accepted (profile : Profile) (config : Config) : OutputAction → Prop
  | .key target code _ =>
      target.created profile config = true ∧ code ∈ target.capabilities.keys
  | .abs target code value =>
      target.created profile config = true ∧ code ∈ target.capabilities.axes ∧
        MappedAxis.InRange ⟨code, value⟩
  | .rel target code _ =>
      target.created profile config = true ∧ code ∈ target.capabilities.rels
  | .sync target => target.created profile config = true

/-- A sample of the balance board lies in the range its axes declare, if it is shown. -/
def EngineInput.Within (profile : Profile) (config : Config) : EngineInput → Prop
  | .motion .balance axes =>
      needsGamepad profile config = true →
        ∀ value ∈ axes.toList.take 4, 0 ≤ value.x ∧ value.x ≤ 65535
  | _ => True

section Accepted

variable {profile : Profile} {config : Config}

theorem accepted_emitKeyTransition {target : OutputDevice} {code : Nat}
    (hcreated : target.created profile config = true)
    (hcode : code ∈ target.capabilities.keys) (before after : Bool) (state : ButtonState) :
    ∀ action ∈ emitKeyTransition target code before after state,
      action.Accepted profile config := by
  intro action haction
  cases before <;> cases after <;> simp only [emitKeyTransition] at haction
  · exact absurd haction List.not_mem_nil
  · rw [List.mem_singleton.mp haction]
    exact ⟨hcreated, hcode⟩
  · rw [List.mem_singleton.mp haction]
    exact ⟨hcreated, hcode⟩
  · split at haction
    · rw [List.mem_singleton.mp haction]
      exact ⟨hcreated, hcode⟩
    · exact absurd haction List.not_mem_nil

theorem accepted_emitPointer (hdesktop : needsDesktop profile config = true)
    (delta : PointerDelta) :
    ∀ action ∈ emitPointer delta, action.Accepted profile config := by
  rw [emitPointer, List.forall_mem_append, List.forall_mem_cons, List.forall_mem_singleton]
  refine ⟨⟨⟨hdesktop, by decide⟩, hdesktop, by decide⟩, fun action haction => ?_⟩
  split at haction
  · rw [List.mem_singleton.mp haction]
    exact hdesktop
  · exact absurd haction List.not_mem_nil

theorem inRange_clampStick {code : Nat} (hcode : code ∈ [absRx, absRy]) (value : Int) :
    MappedAxis.InRange ⟨code, clampStick value⟩ := by
  have hinfo : code ∈ coreAxes ∧
      axisInfo code = some ⟨virtualAxisMin, virtualAxisMax, 256, 16⟩ := by
    simp only [List.mem_cons, List.not_mem_nil, or_false] at hcode
    rcases hcode with rfl | rfl <;> exact ⟨by decide, rfl⟩
  refine ⟨hinfo.1, _, hinfo.2, ?_⟩
  simp only [clampStick, virtualAxisMin, virtualAxisMax]
  omega

theorem accepted_emitAim (result : AimResult) :
    ∀ action ∈ emitAim config.aimMode result, action.Accepted profile config := by
  intro action haction
  rw [emitAim] at haction
  cases houtput : result.output with
  | none =>
      rw [houtput] at haction
      exact absurd haction List.not_mem_nil
  | some v =>
      rw [houtput] at haction
      cases hmode : config.aimMode with
      | off =>
          rw [hmode] at haction
          exact absurd haction List.not_mem_nil
      | mouse =>
          rw [hmode] at haction
          refine accepted_emitPointer ?_ _ action haction
          rw [needsDesktop, hmode]
          exact Bool.or_true _
      | rightStick =>
          have hgamepad : needsGamepad profile config = true := by
            rw [needsGamepad, hmode]
            exact Bool.or_true _
          rw [hmode] at haction
          simp only [List.mem_cons, List.not_mem_nil, or_false] at haction
          rcases haction with rfl | rfl | rfl
          · exact ⟨hgamepad, by decide, inRange_clampStick (by decide) _⟩
          · exact ⟨hgamepad, by decide, inRange_clampStick (by decide) _⟩
          · exact hgamepad

theorem mapButton_mem (button : Button) : mapButton button ∈ coreKeys := by
  cases button <;> decide

theorem key_mem_desktopKeys {action : DesktopAction} {code : Nat}
    (hkey : action.key = some code) : code ∈ desktopKeys := by
  cases action <;> cases hkey <;> decide

end Accepted

namespace DeviceEngine

/-- What stays true of an engine made for a configuration and a profile. -/
structure Fits (config : ValidatedConfig) (profile : Profile) (engine : DeviceEngine) :
    Prop where
  sameConfig : engine.config = config
  sameProfile : engine.profile = profile
  output : engine.aim.config.output = config.get.aimMode
  pointer : engine.pointerActive = true → profile.contains .desktop = true

theorem fits_new (config : ValidatedConfig) (profile : Profile) :
    Fits config profile (new config profile) := by
  have hidle : (new config profile).pointerActive = false := rfl
  exact ⟨rfl, rfl, rfl, fun hactive => absurd (hidle.symm.trans hactive) Bool.false_ne_true⟩

variable {config : ValidatedConfig} {profile : Profile} {engine : DeviceEngine}

theorem needsDesktop_of_contains (hdesktop : profile.contains .desktop = true) :
    needsDesktop profile config.get = true := by
  rw [needsDesktop, hdesktop]
  exact Bool.true_or _

/-- A step that keeps the engine fit and whose actions are all accepted. -/
def Emits (config : ValidatedConfig) (profile : Profile)
    (result : DeviceEngine × List OutputAction) : Prop :=
  Fits config profile result.1 ∧ ∀ action ∈ result.2, action.Accepted profile config.get

theorem Fits.aimed (hfits : Fits config profile engine) {aim : AimState}
    (haim : aim.config = engine.aim.config) (result : AimResult) :
    Emits config profile ({ engine with aim }, emitAim aim.config.output result) := by
  refine ⟨⟨hfits.sameConfig, hfits.sameProfile, ?_, hfits.pointer⟩, ?_⟩
  · rw [← hfits.output, ← haim]
  · rw [haim, hfits.output]
    exact accepted_emitAim result

theorem Fits.keyTransitions (hfits : Fits config profile engine) (before after : BitVec 32)
    (button : Button) (state : ButtonState) :
    ∀ action ∈ engine.keyTransitions before after button state,
      action.Accepted profile config.get := by
  rw [DeviceEngine.keyTransitions, List.forall_mem_append, hfits.sameConfig, hfits.sameProfile]
  refine ⟨fun action haction => ?_, fun action haction => ?_⟩
  · split at haction
    · next hgamepad =>
      have hcreated : OutputDevice.gamepad.created profile config.get = true := hgamepad
      exact accepted_emitKeyTransition hcreated (mapButton_mem button) _ _ _ action haction
    · exact absurd haction List.not_mem_nil
  · split at haction
    · next hdesktop =>
      cases hkey : engine.desktopKey button with
      | none =>
          rw [hkey] at haction
          exact absurd haction List.not_mem_nil
      | some mapped =>
          rw [hkey] at haction
          have hcreated : OutputDevice.desktop.created profile config.get = true :=
            needsDesktop_of_contains hdesktop
          exact accepted_emitKeyTransition hcreated (key_mem_desktopKeys hkey) _ _ _ action
            haction
    · exact absurd haction List.not_mem_nil

theorem Fits.pointerTransition (hfits : Fits config profile engine) (button : Button)
    (wasHeld isHeld : Bool) :
    Emits config profile (engine.pointerTransition button wasHeld isHeld) := by
  unfold DeviceEngine.pointerTransition
  split
  · next hmoves =>
    rw [Bool.and_eq_true, Bool.and_eq_true, hfits.sameProfile] at hmoves
    exact ⟨⟨hfits.sameConfig, hfits.sameProfile, hfits.output, fun _ => hmoves.1.1⟩,
      accepted_emitPointer (needsDesktop_of_contains hmoves.1.1) _⟩
  · exact ⟨hfits, fun _ haction => absurd haction List.not_mem_nil⟩

theorem Fits.aimTransition (hfits : Fits config profile engine) (button : Button)
    (wasHeld isHeld : Bool) :
    Emits config profile (engine.aimTransition button wasHeld isHeld) := by
  unfold DeviceEngine.aimTransition
  split
  · exact hfits.aimed (AimState.activationKey_config _ _ _) _
  · exact ⟨hfits, fun _ haction => absurd haction List.not_mem_nil⟩

theorem Fits.key (hfits : Fits config profile engine) (source : InputSource)
    (button : Button) (state : ButtonState) :
    Emits config profile (engine.key source button state) := by
  have hheld : Fits config profile (engine.setHeld source button state) :=
    ⟨hfits.sameConfig, hfits.sameProfile, hfits.output, hfits.pointer⟩
  have hkeys := hheld.keyTransitions engine.heldButtons
    (engine.setHeld source button state).heldButtons button state
  unfold DeviceEngine.key
  simp only
  obtain ⟨hmoved, hpointer⟩ := hheld.pointerTransition button
    (engine.heldButtons &&& buttonBit button != 0)
    ((engine.setHeld source button state).heldButtons &&& buttonBit button != 0)
  obtain ⟨haimed, haim⟩ := hmoved.aimTransition button
    (engine.heldButtons &&& buttonBit button != 0)
    ((engine.setHeld source button state).heldButtons &&& buttonBit button != 0)
  refine ⟨haimed, ?_⟩
  rw [List.forall_mem_append, List.forall_mem_append]
  exact ⟨⟨hkeys, hpointer⟩, haim⟩

theorem Fits.releaseAll (hfits : Fits config profile engine) (held : BitVec 32)
    (source : InputSource) (buttons : List Button) :
    Emits config profile (releaseAll held source buttons engine) := by
  induction buttons generalizing engine with
  | nil => exact ⟨hfits, fun _ haction => absurd haction List.not_mem_nil⟩
  | cons button buttons ih =>
      unfold DeviceEngine.releaseAll
      split
      · obtain ⟨hreleased, hactions⟩ := hfits.key source button .released
        obtain ⟨hrest, hothers⟩ := ih hreleased
        refine ⟨hrest, ?_⟩
        rw [List.forall_mem_append]
        exact ⟨hactions, hothers⟩
      · exact ih hfits

theorem Fits.ir (hfits : Fits config profile engine) (frame : IrFrame) :
    Emits config profile (engine.ir frame) := by
  have hmoved : Emits config profile (engine.irPointer frame) := by
    unfold irPointer
    split
    · next hdesktop =>
      rw [hfits.sameProfile] at hdesktop
      exact ⟨⟨hfits.sameConfig, hfits.sameProfile, hfits.output, fun _ => hdesktop⟩,
        accepted_emitPointer (needsDesktop_of_contains hdesktop) _⟩
    · exact ⟨hfits, fun _ haction => absurd haction List.not_mem_nil⟩
  unfold DeviceEngine.ir
  simp only
  obtain ⟨haimed, haim⟩ := hmoved.1.aimed
    (AimState.kept_processIr (engine.irPointer frame).1.aim
      (engine.pointer.selectIr frame)).1
    ((engine.irPointer frame).1.aim.processIr (engine.pointer.selectIr frame)).2
  refine ⟨haimed, ?_⟩
  rw [List.forall_mem_append]
  exact ⟨hmoved.2, haim⟩

/-- The actions that show a motion on the gamepad. -/
def shown (engine : DeviceEngine) (kind : MotionKind) (axes : Vector Abs3 8) :
    List OutputAction :=
  if needsGamepad engine.profile engine.config.get then
    ((mapMotion kind axes).axes.map fun axis =>
      OutputAction.abs .gamepad axis.code axis.value) ++ [.sync .gamepad]
  else []

theorem Fits.accepted_shown (hfits : Fits config profile engine) (kind : MotionKind)
    (axes : Vector Abs3 8) :
    (∀ action ∈ engine.shown kind axes, action.Accepted profile config.get) ↔
      (needsGamepad profile config.get = true → (mapMotion kind axes).Good) := by
  rw [shown, hfits.sameConfig, hfits.sameProfile]
  split
  · next hgamepad =>
    rw [List.forall_mem_append, List.forall_mem_map, List.forall_mem_singleton]
    constructor
    · exact fun haccepted _ axis haxis => (haccepted.1 axis haxis).2.2
    · exact fun hgood => ⟨fun axis haxis =>
        ⟨hgamepad, (hgood hgamepad axis haxis).1, hgood hgamepad axis haxis⟩, hgamepad⟩
  · next hgamepad =>
    exact ⟨fun _ hneeds => absurd hneeds hgamepad,
      fun _ _ haction => absurd haction List.not_mem_nil⟩

theorem inRange_balance {code : Nat}
    (hcode : code ∈ [absPressure, absDistance, absTiltX, absTiltY]) (value : Int) :
    MappedAxis.InRange ⟨code, value⟩ ↔ 0 ≤ value ∧ value ≤ 65535 := by
  have hinfo : code ∈ coreAxes ∧ axisInfo code = some ⟨0, 65535, 0, 4⟩ := by
    simp only [List.mem_cons, List.not_mem_nil, or_false] at hcode
    rcases hcode with rfl | rfl | rfl | rfl <;> exact ⟨by decide, rfl⟩
  constructor
  · rintro ⟨_, info, hsome, hrange⟩
    rw [hinfo.2] at hsome
    obtain rfl := Option.some.inj hsome
    exact hrange
  · exact fun hrange => ⟨hinfo.1, _, hinfo.2, hrange⟩

theorem good_balance (axes : Vector Abs3 8) :
    (mapMotion .balance axes).Good ↔
      ∀ value ∈ axes.toList.take 4, 0 ≤ value.x ∧ value.x ≤ 65535 := by
  obtain ⟨a, b, c, d, rest, hvalues⟩ : ∃ a b c d rest,
      axes.toList = a :: b :: c :: d :: rest := by
    have hlength : axes.toList.length = 8 := Vector.length_toList
    match axes.toList, hlength with
    | a :: b :: c :: d :: rest, _ => exact ⟨a, b, c, d, rest, rfl⟩
  rw [MappedMotion.Good, mapMotion_balance hvalues, hvalues]
  simp only [List.take_succ_cons, List.take_zero, List.forall_mem_cons]
  rw [inRange_balance (by decide), inRange_balance (by decide), inRange_balance (by decide),
    inRange_balance (by decide)]
  simp only [List.not_mem_nil, false_implies, implies_true]

theorem good_iff (kind : MotionKind) (axes : Vector Abs3 8) :
    (needsGamepad profile config.get = true → (mapMotion kind axes).Good) ↔
      EngineInput.Within profile config.get (.motion kind axes) := by
  by_cases hkind : kind = .balance
  · subst hkind
    rw [good_balance]
    rfl
  · refine ⟨fun _ => ?_, fun _ _ => mapMotion_good hkind axes⟩
    cases kind <;> first | exact trivial | exact absurd rfl hkind

theorem Fits.motion (hfits : Fits config profile engine) (kind : MotionKind)
    (axes : Vector Abs3 8) :
    Fits config profile (engine.motion kind axes).1 ∧
      ((∀ action ∈ (engine.motion kind axes).2, action.Accepted profile config.get) ↔
        EngineInput.Within profile config.get (.motion kind axes)) := by
  rw [← good_iff, ← hfits.accepted_shown]
  have haim : ∀ (aim : AimState) (result : AimResult), aim.config = engine.aim.config →
      Fits config profile { engine with aim } ∧
        ((∀ action ∈ engine.shown kind axes ++ emitAim aim.config.output result,
            action.Accepted profile config.get) ↔
          ∀ action ∈ engine.shown kind axes, action.Accepted profile config.get) := by
    intro aim result hsame
    obtain ⟨haimed, haccepted⟩ := hfits.aimed hsame result
    refine ⟨haimed, ?_⟩
    rw [List.forall_mem_append]
    exact and_iff_left haccepted
  cases kind with
  | accel => exact haim _ _ (AimState.kept_processAccelerometer _ _ _ _).1
  | motionPlus => exact haim _ _ (AimState.kept_processMotionPlus _ _ _ (primary axes).z).1
  | _ => exact ⟨hfits, Iff.rfl⟩

/-- One step keeps the engine fit, and its actions are accepted unless it shows a
balance board sample out of range. -/
theorem Fits.process (hfits : Fits config profile engine) (input : EngineInput) :
    Fits config profile (engine.process input).1 ∧
      ((∀ action ∈ (engine.process input).2, action.Accepted profile config.get) ↔
        input.Within profile config.get) := by
  have hother : ∀ result, Emits config profile result →
      Fits config profile result.1 ∧
        ((∀ action ∈ result.2, action.Accepted profile config.get) ↔ True) :=
    fun result hemits => ⟨hemits.1, iff_true_intro hemits.2⟩
  cases input with
  | key source button state => exact hother _ (hfits.key source button state)
  | motion kind axes => exact hfits.motion kind axes
  | ir frame => exact hother _ (hfits.ir frame)
  | sourceRemoved source => exact hother _ (hfits.releaseAll _ source _)
  | pointerTick =>
      refine hother _ ?_
      change Emits config profile (if engine.pointerActive then
        (engine, emitPointer engine.pointer.tick) else (engine, []))
      split
      · next hactive =>
        exact ⟨hfits, accepted_emitPointer (needsDesktop_of_contains (hfits.pointer hactive)) _⟩
      · exact ⟨hfits, fun _ haction => absurd haction List.not_mem_nil⟩
  | reset =>
      have hidle : (engine.process .reset).1.pointerActive = false := rfl
      exact hother _ ⟨⟨hfits.sameConfig, hfits.sameProfile, hfits.output,
        fun hactive => absurd (hidle.symm.trans hactive) Bool.false_ne_true⟩,
        fun _ haction => absurd haction List.not_mem_nil⟩

theorem Fits.processAll (hfits : Fits config profile engine) (inputs : List EngineInput) :
    (∀ action ∈ (engine.processAll inputs).2, action.Accepted profile config.get) ↔
      ∀ input ∈ inputs, input.Within profile config.get := by
  induction inputs generalizing engine with
  | nil => exact ⟨fun _ _ hinput => absurd hinput List.not_mem_nil,
      fun _ _ haction => absurd haction List.not_mem_nil⟩
  | cons input inputs ih =>
      obtain ⟨hlater, hstep⟩ := hfits.process input
      rw [DeviceEngine.processAll, List.forall_mem_append, List.forall_mem_cons, hstep,
        ih hlater]

/-- Whatever an engine is fed, its virtual devices were created to accept every action
it emits exactly when no balance board sample that is shown is out of range. -/
theorem processAll_accepted (config : ValidatedConfig) (profile : Profile)
    (inputs : List EngineInput) :
    (∀ action ∈ ((new config profile).processAll inputs).2,
        action.Accepted profile config.get) ↔
      ∀ input ∈ inputs, input.Within profile config.get :=
  (fits_new config profile).processAll inputs

/-- A balance board sample just past the declared range. -/
def heavyBoard : EngineInput := .motion .balance (Vector.replicate 8 ⟨65536, 0, 0⟩)

theorem heavyBoard_refused :
    (.abs .gamepad absPressure 65536 : OutputAction) ∈
        ((new ⟨{}, by decide⟩ .gamepad).processAll [heavyBoard]).2 ∧
      ¬ (∀ action ∈ ((new ⟨{}, by decide⟩ .gamepad).processAll [heavyBoard]).2,
        action.Accepted .gamepad {}) := by
  have hmem : (.abs .gamepad absPressure 65536 : OutputAction) ∈
      ((new ⟨{}, by decide⟩ .gamepad).processAll [heavyBoard]).2 := by
    decide
  refine ⟨hmem, fun haccepted => ?_⟩
  have hrange := (haccepted _ hmem).2.2
  rw [inRange_balance (by decide)] at hrange
  omega

end DeviceEngine

end Wiiland
