/-
The range of the aim's output and how it nears its target.  Scaling bounds every target,
and a smoothed component stays between the last one and the target.
-/
import Wiiland.Core.AimRuns
import Wiiland.Lib.Mean

namespace Wiiland

namespace AimState

/-- What a checked configuration gives the arithmetic of the aim. -/
structure Tuned (config : AimConfig) : Prop where
  sensitivity : 0 ≤ config.sensitivity
  deadzone : 0 ≤ config.deadzone
  smoothing : 0 ≤ config.smoothing ∧ config.smoothing ≤ 95

theorem tuned_fromConfig (config : ValidatedConfig) : Tuned (.fromConfig config.get) := by
  obtain ⟨_, hrange, _⟩ := (Config.validate_eq_ok_iff config.get).mp config.valid
  obtain ⟨_, _, _, _, hsensitivity, hdeadzone, hsmoothing, _⟩ :=
    (Config.inRange_iff config.get).mp hrange
  exact ⟨le_trans (by decide) hsensitivity.1, hdeadzone.1, hsmoothing⟩

/-- A vector within the range of an axis. -/
structure InRange (vector : AimVector) : Prop where
  x : |vector.x| ≤ 32767
  y : |vector.y| ≤ 32767

section range

variable {aim : AimState} {call : AimCall}

theorem inRange_zero : InRange ⟨0, 0⟩ := ⟨by decide, by decide⟩

theorem scale_range (htuned : Tuned aim.config) (value : Int) : |aim.scale value| ≤ 32767 := by
  unfold scale
  simp only
  split
  · decide
  · rename_i houtside
    have hquotient : 0 ≤ (((value.natAbs : Int) - aim.config.deadzone) *
        aim.config.sensitivity).tdiv 16 :=
      Int.tdiv_nonneg (mul_nonneg (by omega) htuned.sensitivity) (by decide)
    generalize (((value.natAbs : Int) - aim.config.deadzone) *
      aim.config.sensitivity).tdiv 16 = scaled at hquotient
    have hscaled : Wrap.i32 (min scaled 32767) = min scaled 32767 :=
      Wrap.i32_eq (by omega) (by omega)
    rw [hscaled, abs_le]
    split
    · rw [Wrap.i32_eq (by omega) (by omega)]
      omega
    · omega

theorem invert_range {vector : AimVector} (hvector : InRange vector) :
    InRange (aim.invert vector) := by
  have hnegated : ∀ component : Int, |component| ≤ 32767 → |Wrap.i32 (-component)| ≤ 32767 := by
    intro component hcomponent
    rw [abs_le] at hcomponent
    rw [Wrap.i32_eq (by omega) (by omega), abs_neg, abs_le]
    exact hcomponent
  constructor
  · change |if aim.config.invertX then Wrap.i32 (-vector.x) else vector.x| ≤ 32767
    split
    · exact hnegated _ hvector.x
    · exact hvector.x
  · change |if aim.config.invertY then Wrap.i32 (-vector.y) else vector.y| ≤ 32767
    split
    · exact hnegated _ hvector.y
    · exact hvector.y

theorem sampled_range (htuned : Tuned aim.config) (call : AimCall) :
    InRange (aim.sampled call) := by
  cases call with
  | ir point =>
      cases point with
      | none => exact inRange_zero
      | some found =>
          change InRange (aim.irVector found)
          unfold irVector
          simp only
          split
          · exact ⟨scale_range htuned _, scale_range htuned _⟩
          · split
            · exact ⟨scale_range htuned _, scale_range htuned _⟩
            · exact inRange_zero
  | motionPlus | accelerometer => exact ⟨scale_range htuned _, scale_range htuned _⟩
  | activationKey | reset | resetSession => exact inRange_zero

theorem target_range (htuned : Tuned aim.config) (call : AimCall) :
    InRange (aim.target call) :=
  invert_range (sampled_range htuned call)

end range

/-- What `smooth` casts to 32 bits. -/
def weighted (smoothing last value : Int) : Int :=
  last * smoothing + value * Wrap.i32 (100 - smoothing)

section smoothing

variable {smoothing last value : Int}

theorem weighted_fits (hsmoothing : 0 ≤ smoothing ∧ smoothing ≤ 95) (hlast : |last| ≤ 32767)
    (hvalue : |value| ≤ 32767) :
    Wrap.i32 (weighted smoothing last value) = weighted smoothing last value ∧
      weighted smoothing last value = last * smoothing + value * (100 - smoothing) := by
  rw [weighted, Wrap.i32_eq (by omega : -2147483648 ≤ 100 - smoothing) (by omega)]
  rw [abs_le] at hlast hvalue
  have hmem := @Mean.weighted_mem 100 last value smoothing hsmoothing.1 (by omega)
  rw [Set.mem_uIcc] at hmem
  exact ⟨Wrap.i32_eq (by omega) (by omega), rfl⟩

/-- A smoothed component is between the last one and its target. -/
theorem smoothed_mem (hsmoothing : 0 ≤ smoothing ∧ smoothing ≤ 95) (hlast : |last| ≤ 32767)
    (hvalue : |value| ≤ 32767) : smoothed smoothing last value ∈ Set.uIcc last value := by
  unfold smoothed
  split
  · exact Set.right_mem_uIcc
  · obtain ⟨hfits, hexact⟩ := weighted_fits hsmoothing hlast hvalue
    change (Wrap.i32 (weighted smoothing last value)).tdiv 100 ∈ Set.uIcc last value
    rw [hfits, hexact]
    exact Mean.weighted_tdiv_mem (by decide) hsmoothing.1 (by omega)

theorem abs_le_of_mem_uIcc {first second bound : Int} (hfirst : |first| ≤ bound)
    (hsecond : |second| ≤ bound) (hmem : value ∈ Set.uIcc first second) : |value| ≤ bound := by
  rw [abs_le] at *
  rw [Set.mem_uIcc] at hmem
  omega

end smoothing

/-- The vector that a run has put out last, or the one before it. -/
def lastOutput : AimVector → List AimResult → AimVector
  | shown, [] => shown
  | shown, result :: results => lastOutput (result.output.getD shown) results

/-- The output of an aim within the range of an axis, nearing what it aims at. -/
structure Smooths (config : AimConfig) : Prop where
  held : ∀ calls, InRange ⟨(reached config calls).lastX, (reached config calls).lastY⟩
  emitted : ∀ calls call vector,
    ((reached config calls).call call).2.output = some vector → InRange vector
  casts : ∀ calls call,
    Wrap.i32 (weighted config.smoothing (reached config calls).lastX
      ((reached config calls).target call).x) =
        weighted config.smoothing (reached config calls).lastX
          ((reached config calls).target call).x ∧
    Wrap.i32 (weighted config.smoothing (reached config calls).lastY
      ((reached config calls).target call).y) =
        weighted config.smoothing (reached config calls).lastY
          ((reached config calls).target call).y
  between : ∀ calls call vector,
    ((reached config calls).call call).2 = ⟨some vector, false⟩ →
    vector.x ∈ Set.uIcc (lastOutput {} ((new config).results calls)).x
      ((reached config calls).target call).x ∧
    vector.y ∈ Set.uIcc (lastOutput {} ((new config).results calls)).y
      ((reached config calls).target call).y
  nearing : ∀ calls middle target,
    (∀ before call after vector reset, middle = before ++ call :: after →
      ((reached config (calls ++ before)).call call).2 = ⟨some vector, reset⟩ →
      reset = false ∧ (reached config (calls ++ before)).target call = target) →
    |(lastOutput {} ((new config).results (calls ++ middle))).x - target.x| ≤
        |(lastOutput {} ((new config).results calls)).x - target.x| ∧
      |(lastOutput {} ((new config).results (calls ++ middle))).y - target.y| ≤
        |(lastOutput {} ((new config).results calls)).y - target.y|

section run

variable {aim later : AimState} {call : AimCall} {result : AimResult}

/-- What is smoothed from next is the vector put out last. -/
theorem Outcome.lastOutput (houtcome : Outcome aim call later result) :
    (⟨later.lastX, later.lastY⟩ : AimVector) =
      result.output.getD ⟨aim.lastX, aim.lastY⟩ := by
  cases houtcome with
  | quiet _ hlast => rw [hlast.1, hlast.2]; rfl
  | restart _ hlast => rw [hlast.1, hlast.2]; rfl
  | emit _ _ _ _ _ _ hlast => rw [hlast.1, hlast.2]; rfl

theorem lastOutput_callAll (aim : AimState) (calls : List AimCall) :
    AimState.lastOutput ⟨aim.lastX, aim.lastY⟩ (aim.results calls) =
      ⟨(aim.callAll calls).lastX, (aim.callAll calls).lastY⟩ := by
  induction calls generalizing aim with
  | nil => rfl
  | cons call calls ih =>
      have hcall := (call_outcome aim call).lastOutput
      change AimState.lastOutput ((aim.call call).2.output.getD _) _ = _
      rw [← hcall, ih]
      rfl

theorem lastOutput_reached (config : AimConfig) (calls : List AimCall) :
    AimState.lastOutput {} ((new config).results calls) =
      ⟨(reached config calls).lastX, (reached config calls).lastY⟩ :=
  lastOutput_callAll (new config) calls

/-- The last output and the target bound the next output. -/
theorem Outcome.inRange (htuned : Tuned aim.config) (hlast : InRange ⟨aim.lastX, aim.lastY⟩)
    (houtcome : Outcome aim call later result) {vector : AimVector}
    (houtput : result.output = some vector) : InRange vector ∧ (result.reset = false →
      vector.x ∈ Set.uIcc aim.lastX (aim.target call).x ∧
      vector.y ∈ Set.uIcc aim.lastY (aim.target call).y) := by
  cases houtcome with
  | quiet => cases houtput
  | restart =>
      cases houtput
      exact ⟨inRange_zero, fun hreset => by cases hreset⟩
  | emit _ _ _ _ _ hvector =>
      cases houtput
      have htarget := target_range htuned call
      have hx := smoothed_mem htuned.smoothing hlast.x htarget.x
      have hy := smoothed_mem htuned.smoothing hlast.y htarget.y
      rw [hvector]
      exact ⟨⟨abs_le_of_mem_uIcc hlast.x htarget.x hx, abs_le_of_mem_uIcc hlast.y htarget.y hy⟩,
        fun _ => ⟨hx, hy⟩⟩

theorem Outcome.held (htuned : Tuned aim.config) (hlast : InRange ⟨aim.lastX, aim.lastY⟩)
    (houtcome : Outcome aim call later result) : InRange ⟨later.lastX, later.lastY⟩ := by
  rw [houtcome.lastOutput]
  cases houtput : result.output with
  | none => exact hlast
  | some vector => exact (houtcome.inRange htuned hlast houtput).1

/-- A call that nears a target, if it puts anything out. -/
theorem Outcome.nearer (htuned : Tuned aim.config) (hlast : InRange ⟨aim.lastX, aim.lastY⟩)
    (houtcome : Outcome aim call later result) {target : AimVector}
    (hconstant : ∀ vector reset, result = ⟨some vector, reset⟩ →
      reset = false ∧ aim.target call = target) :
    |later.lastX - target.x| ≤ |aim.lastX - target.x| ∧
      |later.lastY - target.y| ≤ |aim.lastY - target.y| := by
  have hsame := houtcome.lastOutput
  rcases hresult : result with ⟨_ | vector, reset⟩
  · rw [hresult, Option.getD_none, AimVector.mk.injEq] at hsame
    rw [hsame.1, hsame.2]
    exact ⟨le_refl _, le_refl _⟩
  · obtain ⟨rfl, rfl⟩ := hconstant vector reset hresult
    obtain ⟨hx, hy⟩ := (houtcome.inRange htuned hlast (by rw [hresult])).2 (by rw [hresult])
    rw [hresult, Option.getD_some] at hsame
    rw [← hsame] at hx hy
    constructor
    · rw [abs_sub_comm, abs_sub_comm aim.lastX]
      exact Set.abs_sub_right_of_mem_uIcc hx
    · rw [abs_sub_comm, abs_sub_comm aim.lastY]
      exact Set.abs_sub_right_of_mem_uIcc hy

theorem held_callAll (htuned : Tuned aim.config) (hlast : InRange ⟨aim.lastX, aim.lastY⟩)
    (calls : List AimCall) :
    InRange ⟨(aim.callAll calls).lastX, (aim.callAll calls).lastY⟩ := by
  induction calls generalizing aim with
  | nil => exact hlast
  | cons call calls ih =>
      have houtcome := call_outcome aim call
      exact ih (houtcome.config_eq ▸ htuned) (houtcome.held htuned hlast)

/-- A run in which every output nears one target ends no farther from it. -/
theorem nearing_callAll (htuned : Tuned aim.config) (hlast : InRange ⟨aim.lastX, aim.lastY⟩)
    {calls : List AimCall} {target : AimVector}
    (hconstant : ∀ before call after vector reset, calls = before ++ call :: after →
      ((aim.callAll before).call call).2 = ⟨some vector, reset⟩ →
      reset = false ∧ (aim.callAll before).target call = target) :
    |(aim.callAll calls).lastX - target.x| ≤ |aim.lastX - target.x| ∧
      |(aim.callAll calls).lastY - target.y| ≤ |aim.lastY - target.y| := by
  induction calls generalizing aim with
  | nil => exact ⟨le_refl _, le_refl _⟩
  | cons call calls ih =>
      have houtcome := call_outcome aim call
      have hrest := ih (houtcome.config_eq ▸ htuned) (houtcome.held htuned hlast)
        fun before other after vector reset hsplit =>
          hconstant (call :: before) other after vector reset (congrArg _ hsplit)
      have hstep := houtcome.nearer htuned hlast
        fun vector reset hresult => hconstant [] call calls vector reset rfl hresult
      exact ⟨hrest.1.trans hstep.1, hrest.2.trans hstep.2⟩

end run

/-- The output of an aim is bounded and smooth. -/
theorem reached_smooths (config : ValidatedConfig) :
    Smooths (.fromConfig config.get) := by
  have htuned := tuned_fromConfig config
  have hheld : ∀ calls, InRange ⟨(reached (.fromConfig config.get) calls).lastX,
      (reached (.fromConfig config.get) calls).lastY⟩ :=
    fun calls => @held_callAll (new _) htuned inRange_zero calls
  have htunedAt : ∀ calls, Tuned (reached (.fromConfig config.get) calls).config := by
    intro calls
    rw [reached_config]
    exact htuned
  refine ⟨hheld, fun calls call vector houtput => ?_, fun calls call => ?_,
    fun calls call vector houtput => ?_, fun calls middle target hconstant => ?_⟩
  · exact ((call_outcome _ call).inRange (htunedAt calls) (hheld calls) houtput).1
  · have htarget := target_range (htunedAt calls) call
    exact ⟨(weighted_fits htuned.smoothing (hheld calls).x htarget.x).1,
      (weighted_fits htuned.smoothing (hheld calls).y htarget.y).1⟩
  · rw [lastOutput_reached]
    exact ((call_outcome _ call).inRange (htunedAt calls) (hheld calls)
      (by rw [houtput])).2 (by rw [houtput])
  · rw [lastOutput_reached, lastOutput_reached, reached_append]
    refine nearing_callAll (htunedAt calls) (hheld calls)
      fun before call after vector reset hsplit hresult => ?_
    rw [← reached_append] at hresult ⊢
    exact hconstant before call after vector reset hsplit hresult

end AimState

end Wiiland
