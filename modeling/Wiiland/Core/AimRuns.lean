/-
Runs of the motion aim.  Every call keeps quiet, starts over or emits the smoothed vector
of one source; which source may emit, and from which baselines, follows from that.
-/
import Wiiland.Core.Aim

namespace Wiiland

/-- A call on an aim. -/
inductive AimCall where
  | ir (point : Option IrPoint)
  | motionPlus (x y z : Int)
  | accelerometer (x y z : Int)
  | activationKey (key : Nat) (pressed : Bool)
  | reset
  | resetSession

/-- The source whose sample a call brings. -/
def AimCall.source : AimCall → Option AimSource
  | .ir _ => some .ir
  | .motionPlus _ _ _ => some .motionPlus
  | .accelerometer _ _ _ => some .accelerometer
  | _ => none

namespace AimState

def call (aim : AimState) : AimCall → AimState × AimResult
  | .ir point => aim.processIr point
  | .motionPlus x y z => aim.processMotionPlus x y z
  | .accelerometer x y z => aim.processAccelerometer x y z
  | .activationKey key pressed => aim.activationKey key pressed
  | .reset => aim.reset
  | .resetSession => aim.resetSession

def callAll (aim : AimState) : List AimCall → AimState
  | [] => aim
  | call :: calls => (aim.call call).1.callAll calls

theorem callAll_append (aim : AimState) (first second : List AimCall) :
    aim.callAll (first ++ second) = (aim.callAll first).callAll second := by
  induction first generalizing aim with
  | nil => rfl
  | cons call first ih => exact ih (aim.call call).1

/-- The vector of a sample before it is inverted and smoothed. -/
def sampled (aim : AimState) : AimCall → AimVector
  | .ir point => (point.map aim.irVector).getD {}
  | .motionPlus x y _ =>
      let bias := aim.config.motionPlusCalibration.filter sensorCalibrationReady
      ⟨aim.scale (bias.elim x fun c => Wrap.i32 (x - c.x)),
        aim.scale (bias.elim y fun c => Wrap.i32 (y - c.y))⟩
  | .accelerometer x y _ =>
      let zero := (aim.config.accelCalibration.filter sensorCalibrationReady).elim
        (aim.accelZeroX, aim.accelZeroY) fun c => (c.x, c.y)
      ⟨aim.scale (Wrap.i32 (x - zero.1)), aim.scale (Wrap.i32 (y - zero.2))⟩
  | _ => {}

def invert (aim : AimState) (vector : AimVector) : AimVector :=
  ⟨if aim.config.invertX then Wrap.i32 (-vector.x) else vector.x,
    if aim.config.invertY then Wrap.i32 (-vector.y) else vector.y⟩

/-- What a sample smooths towards. -/
def target (aim : AimState) (call : AimCall) : AimVector := aim.invert (aim.sampled call)

/-- One component between the last output and the target. -/
def smoothed (smoothing last value : Int) : Int :=
  if smoothing = 0 then value else smoothComponent last value smoothing

/-- A call brings a sample of a source that the aim accepts. -/
structure Takes (aim : AimState) (call : AimCall) (source : AimSource) : Prop where
  sample : call.source = some source
  accepts : aim.accepts source = true
  point : ∀ point, call = .ir point → point.filter IrPoint.valid ≠ none

/-- What a call does: it stays quiet, starts over, or emits the vector of its sample. -/
inductive Outcome (aim : AimState) (call : AimCall) : AimState → AimResult → Prop
  | quiet {later : AimState} (hconfig : later.config = aim.config)
      (hlast : later.lastX = aim.lastX ∧ later.lastY = aim.lastY)
      (hactive : later.isActive = false → aim.isActive = false)
      (htracked : later.irActive = true → aim.irActive = true)
      (hsource : later.activeSource = aim.activeSource ∧ (∀ source, ¬aim.Takes call source) ∨
        later.activeSource = some .accelerometer ∧ aim.Takes call .accelerometer) :
      Outcome aim call later .none
  | restart {later : AimState} (hconfig : later.config = aim.config)
      (hlast : later.lastX = 0 ∧ later.lastY = 0) (htracked : later.irActive = false)
      (hsource : later.activeSource = none) :
      Outcome aim call later .ofReset
  | emit {later : AimState} {source : AimSource} {vector : AimVector}
      (hconfig : later.config = aim.config)
      (hactive : aim.isActive = true ∧ later.isActive = true)
      (htakes : aim.Takes call source) (hsource : later.activeSource = some source)
      (htracked : later.irActive = true → source = .ir ∨ aim.irActive = true)
      (hvector : vector = ⟨smoothed aim.config.smoothing aim.lastX (aim.target call).x,
        smoothed aim.config.smoothing aim.lastY (aim.target call).y⟩)
      (hlast : later.lastX = vector.x ∧ later.lastY = vector.y) :
      Outcome aim call later ⟨some vector, false⟩

section outcome

variable {aim : AimState} {call : AimCall}

theorem isActive_congr {later : AimState} (hkept : aim.Kept later) :
    later.isActive = aim.isActive := by
  rw [isActive, isActive, enabled, enabled, hkept.1, hkept.2]

theorem outcome_reset {later : AimState} (hconfig : later.config = aim.config) :
    Outcome aim call later.reset.1 later.reset.2 :=
  .restart hconfig ⟨rfl, rfl⟩ rfl rfl

/-- An aim prepared for the vector of a sample that it accepts. -/
theorem outcome_emit {prepared : AimState} {source : AimSource}
    (hkept : aim.Kept prepared)
    (hlast : prepared.lastX = aim.lastX ∧ prepared.lastY = aim.lastY)
    (htakes : aim.Takes call source) (hsource : prepared.activeSource = some source)
    (htracked : prepared.irActive = true → source = .ir ∨ aim.irActive = true) :
    Outcome aim call (prepared.emit (aim.sampled call)).1
      (prepared.emit (aim.sampled call)).2 := by
  unfold emit
  cases hactive : prepared.isActive with
  | false => exact outcome_reset hkept.1
  | true =>
      have hbefore := (isActive_congr hkept).symm.trans hactive
      refine .emit hkept.1 ⟨hbefore, hactive⟩ htakes hsource htracked ?_ ⟨rfl, rfl⟩
      simp only [target, invert, smoothed, hkept.1, hlast.1, hlast.2]
      split <;> rfl

theorem scale_congr {later : AimState} (hconfig : later.config = aim.config) (value : Int) :
    later.scale value = aim.scale value := by
  rw [scale, scale, hconfig]

theorem Takes.unique {source other : AimSource} (hcall : call.source = some source)
    (htakes : aim.Takes call other) : source = other :=
  Option.some.inj (hcall.symm.trans htakes.sample)

/-- A call without an effect, because it brings no sample that the aim accepts. -/
theorem outcome_quiet {later : AimState} (hconfig : later.config = aim.config)
    (hlast : later.lastX = aim.lastX ∧ later.lastY = aim.lastY)
    (hactive : later.isActive = false → aim.isActive = false)
    (htracked : later.irActive = true → aim.irActive = true)
    (hsource : later.activeSource = aim.activeSource)
    (hrefused : ∀ source, ¬aim.Takes call source) : Outcome aim call later .none :=
  .quiet hconfig hlast hactive htracked (.inl ⟨hsource, hrefused⟩)

theorem outcome_refused {source : AimSource} (hcall : call.source = some source)
    (hrefused : aim.accepts source = false) : Outcome aim call aim .none :=
  outcome_quiet rfl ⟨rfl, rfl⟩ id id rfl fun _ htakes => by
    rw [htakes.unique hcall, htakes.accepts] at hrefused
    cases hrefused

theorem outcome_processIr (point : Option IrPoint) :
    Outcome aim (.ir point) (aim.processIr point).1 (aim.processIr point).2 := by
  unfold processIr
  cases hpoint : point.filter IrPoint.valid with
  | none =>
      simp only
      split
      · exact outcome_reset rfl
      · exact outcome_quiet rfl ⟨rfl, rfl⟩ id (fun htracked => by cases htracked) rfl
          fun _ htakes => htakes.point point rfl hpoint
  | some found =>
      have hvector : aim.sampled (.ir point) = aim.irVector found := by
        rw [sampled, Option.eq_some_of_filter_eq_some hpoint]
        rfl
      simp only
      split
      · rename_i hrefused
        exact outcome_refused rfl (by simpa using hrefused)
      · rename_i haccepts
        have hpresent : ∀ other, AimCall.ir point = .ir other →
            other.filter IrPoint.valid ≠ none := by
          intro other heq
          cases heq
          rw [hpoint]
          exact Option.some_ne_none _
        rw [← hvector]
        exact outcome_emit ⟨rfl, rfl⟩ ⟨rfl, rfl⟩ ⟨rfl, by simpa using haccepts, hpresent⟩ rfl
          fun _ => .inl rfl

theorem outcome_processMotionPlus (x y z : Int) :
    Outcome aim (.motionPlus x y z) (aim.processMotionPlus x y z).1
      (aim.processMotionPlus x y z).2 := by
  unfold processMotionPlus
  split
  · rename_i hrefused
    exact outcome_refused rfl (by simpa using hrefused)
  · rename_i haccepts
    exact outcome_emit ⟨rfl, rfl⟩ ⟨rfl, rfl⟩
      ⟨rfl, by simpa using haccepts, fun _ heq => by cases heq⟩ rfl .inr

theorem outcome_processAccelerometer (x y z : Int) :
    Outcome aim (.accelerometer x y z) (aim.processAccelerometer x y z).1
      (aim.processAccelerometer x y z).2 := by
  unfold processAccelerometer
  split
  · rename_i hrefused
    exact outcome_refused rfl (by simpa using hrefused)
  · rename_i haccepts
    have htakes : aim.Takes (.accelerometer x y z) .accelerometer :=
      ⟨rfl, by simpa using haccepts, fun _ heq => by cases heq⟩
    have hemit : ∀ prepared : AimState, aim.Kept prepared →
        (prepared.lastX = aim.lastX ∧ prepared.lastY = aim.lastY) →
        prepared.irActive = aim.irActive → aim.sampled (.accelerometer x y z) =
          ⟨aim.scale (Wrap.i32 (x - prepared.accelZeroX)),
            aim.scale (Wrap.i32 (y - prepared.accelZeroY))⟩ →
        Outcome aim (.accelerometer x y z) (prepared.emitAccelerometer x y).1
          (prepared.emitAccelerometer x y).2 := by
      intro prepared hkept hlast htracked hvector
      have hscale : aim.scale = prepared.scale :=
        funext fun value => (scale_congr hkept.1 value).symm
      have hemitted := @outcome_emit aim (.accelerometer x y z)
        { prepared with activeSource := some .accelerometer } .accelerometer hkept hlast htakes
        rfl fun hactive => .inr (htracked ▸ hactive)
      rw [hvector, hscale] at hemitted
      exact hemitted
    cases hcalibration : aim.config.accelCalibration.filter sensorCalibrationReady with
    | some c => exact hemit _ ⟨rfl, rfl⟩ ⟨rfl, rfl⟩ rfl (by rw [sampled, hcalibration]; rfl)
    | none =>
        simp only
        split
        · exact .quiet rfl ⟨rfl, rfl⟩ id id (.inr ⟨rfl, htakes⟩)
        · exact hemit aim ⟨rfl, rfl⟩ ⟨rfl, rfl⟩ rfl (by rw [sampled, hcalibration]; rfl)

theorem outcome_activationKey (key : Nat) (pressed : Bool) :
    Outcome aim (.activationKey key pressed) (aim.activationKey key pressed).1
      (aim.activationKey key pressed).2 := by
  have hquiet : ∀ held : Bool,
      ({ aim with held := held }.isActive = false → aim.isActive = false) →
      Outcome aim (.activationKey key pressed) { aim with held := held } .none :=
    fun held hactive => outcome_quiet rfl ⟨rfl, rfl⟩ hactive id rfl fun _ htakes => by
      cases htakes.sample
  unfold activationKey
  split
  · exact hquiet aim.held id
  · split
    · rename_i halways
      refine hquiet true fun hactive => ?_
      simp only [isActive, enabled, halways] at hactive ⊢
      simpa using hactive
    · split
      · exact hquiet aim.held id
      · simp only
        split
        · exact outcome_reset rfl
        · rename_i hrelease
          refine hquiet pressed fun hactive => ?_
          simp only [isActive, enabled] at hactive ⊢
          cases hpressed : pressed with
          | false =>
              have hheld : aim.held = false := by simpa [hpressed] using hrelease
              rw [hheld]
              rwa [hpressed] at hactive
          | true =>
              rw [hpressed, Bool.or_true, Bool.and_true] at hactive
              rw [hactive, Bool.false_and]

/-- Every call has one of the three outcomes. -/
theorem call_outcome (aim : AimState) (call : AimCall) :
    Outcome aim call (aim.call call).1 (aim.call call).2 := by
  cases call with
  | ir point => exact outcome_processIr point
  | motionPlus x y z => exact outcome_processMotionPlus x y z
  | accelerometer x y z => exact outcome_processAccelerometer x y z
  | activationKey key pressed => exact outcome_activationKey key pressed
  | reset => exact outcome_reset rfl
  | resetSession => exact outcome_reset rfl

end outcome

/-- What the aim that arbitrates between its sources keeps over every call. -/
structure Coherent (aim : AimState) : Prop where
  admitted : ∀ source, aim.activeSource = some source →
    aim.config.source = .auto ∨ aim.config.source = source
  tracked : aim.irActive = true → aim.activeSource = some .ir
  resting : aim.isActive = false → aim.irActive = false ∧ aim.lastX = 0 ∧ aim.lastY = 0 ∧
    (aim.activeSource = none ∨ aim.activeSource = some .accelerometer)

section arbitration

variable {aim : AimState} {call : AimCall} {config : AimConfig}

theorem coherent_new (config : AimConfig) : (new config).Coherent :=
  ⟨fun _ hsource => (by cases hsource), fun hactive => (by cases hactive),
    fun _ => ⟨rfl, rfl, rfl, .inl rfl⟩⟩

theorem accepts_source {source : AimSource} (haccepts : aim.accepts source = true) :
    aim.config.source = .auto ∨ aim.config.source = source := by
  unfold accepts at haccepts
  split at haccepts
  · exact .inr (eq_of_beq haccepts)
  · rename_i hauto
    exact .inl (not_not.mp hauto)

/-- Beside a source that has a point, only that one is accepted. -/
theorem Coherent.accepts_tracked (hcoherent : aim.Coherent) (htracked : aim.irActive = true)
    {source : AimSource} (haccepts : aim.accepts source = true) : source = .ir := by
  have hactive := hcoherent.tracked htracked
  unfold accepts at haccepts
  split at haccepts
  · rename_i hfixed
    rw [← eq_of_beq haccepts, (hcoherent.admitted _ hactive).resolve_left hfixed]
  · split at haccepts
    · assumption
    · cases haccepts

theorem Coherent.outcome (hcoherent : aim.Coherent) {later : AimState} {result : AimResult}
    (houtcome : Outcome aim call later result) : later.Coherent := by
  cases houtcome with
  | quiet hconfig hlast hactive htracked hsource =>
      refine ⟨fun source hlater => ?_, fun hlater => ?_, fun hlater => ?_⟩
      · rw [hconfig]
        rcases hsource with ⟨hsame, _⟩ | ⟨haccelerometer, htakes⟩
        · exact hcoherent.admitted source (hsame ▸ hlater)
        · rw [haccelerometer] at hlater
          cases hlater
          exact accepts_source htakes.accepts
      · rcases hsource with ⟨hsame, _⟩ | ⟨_, htakes⟩
        · rw [hsame, hcoherent.tracked (htracked hlater)]
        · cases hcoherent.accepts_tracked (htracked hlater) htakes.accepts
      · obtain ⟨hir, hx, hy, hrest⟩ := hcoherent.resting (hactive hlater)
        refine ⟨?_, hlast.1.trans hx, hlast.2.trans hy, ?_⟩
        · exact Bool.eq_false_iff.mpr fun hlater => by
            rw [htracked hlater] at hir
            cases hir
        · rcases hsource with ⟨hsame, _⟩ | ⟨haccelerometer, _⟩
          · rwa [hsame]
          · exact .inr haccelerometer
  | restart hconfig hlast htracked hsource =>
      refine ⟨fun source hlater => ?_, fun hlater => ?_, fun _ => ?_⟩
      · rw [hsource] at hlater
        cases hlater
      · rw [htracked] at hlater
        cases hlater
      · exact ⟨htracked, hlast.1, hlast.2, .inl hsource⟩
  | emit hconfig hactive htakes hsource htracked =>
      refine ⟨fun source hlater => ?_, fun hlater => ?_, fun hlater => ?_⟩
      · rw [hsource] at hlater
        cases hlater
        rw [hconfig]
        exact accepts_source htakes.accepts
      · rcases htracked hlater with rfl | hbefore
        · exact hsource
        · rw [hsource, hcoherent.accepts_tracked hbefore htakes.accepts]
      · rw [hactive.2] at hlater
        cases hlater

theorem Coherent.callAll (hcoherent : aim.Coherent) (calls : List AimCall) :
    (aim.callAll calls).Coherent := by
  induction calls generalizing aim with
  | nil => exact hcoherent
  | cons call calls ih => exact ih (hcoherent.outcome (call_outcome aim call))

theorem Outcome.config_eq {later : AimState} {result : AimResult}
    (houtcome : Outcome aim call later result) : later.config = aim.config := by
  cases houtcome with
  | quiet hconfig | restart hconfig | emit hconfig => exact hconfig

theorem callAll_config (aim : AimState) (calls : List AimCall) :
    (aim.callAll calls).config = aim.config := by
  induction calls generalizing aim with
  | nil => rfl
  | cons call calls ih => exact (ih _).trans (call_outcome aim call).config_eq

/-- The results of a run, call by call. -/
def results (aim : AimState) : List AimCall → List AimResult
  | [] => []
  | call :: calls => (aim.call call).2 :: (aim.call call).1.results calls

/-- An automatic choice prefers infrared points to MotionPlus to the accelerometer. -/
def priority : AimSource → Nat
  | .ir => 3
  | .motionPlus => 2
  | .accelerometer => 1
  | .auto => 0

theorem Takes.priority_le {source active : AimSource} (hauto : aim.config.source = .auto)
    (htakes : aim.Takes call source) (hactive : aim.activeSource = some active) :
    priority active ≤ priority source := by
  have haccepts := htakes.accepts
  have hsample := htakes.sample
  unfold AimState.accepts at haccepts
  rw [hauto, hactive] at haccepts
  cases call <;> cases hsample <;> cases active <;> first | decide | cases haccepts

/-- A call that does not start over keeps the priority of the chosen source, and one that
brings an accepted sample chooses its source. -/
theorem Outcome.chosen {later : AimState} {result : AimResult}
    (houtcome : Outcome aim call later result) (hauto : aim.config.source = .auto)
    (hsteady : result.reset = false) :
    (∀ active, aim.activeSource = some active →
      ∃ next, later.activeSource = some next ∧ priority active ≤ priority next) ∧
    ∀ source, aim.Takes call source → later.activeSource = some source := by
  cases houtcome with
  | quiet _ _ _ _ hsource =>
      rcases hsource with ⟨hsame, hrefused⟩ | ⟨hlater, htakes⟩
      · exact ⟨fun active hactive => ⟨active, hsame.trans hactive, le_refl _⟩,
          fun source htakes => absurd htakes (hrefused source)⟩
      · refine ⟨fun active hactive => ⟨_, hlater, htakes.priority_le hauto hactive⟩,
          fun source hother => ?_⟩
        rw [hlater, htakes.unique hother.sample]
  | restart => cases hsteady
  | emit _ _ htakes hsource =>
      refine ⟨fun active hactive => ⟨_, hsource, htakes.priority_le hauto hactive⟩,
        fun source hother => ?_⟩
      rw [hsource, htakes.unique hother.sample]

/-- A source that has been chosen is not given up for a lower one before the next reset. -/
theorem chosen_callAll {calls : List AimCall} {active : AimSource}
    (hauto : aim.config.source = .auto) (hactive : aim.activeSource = some active)
    (hsteady : ∀ result ∈ aim.results calls, result.reset = false) :
    ∃ next, (aim.callAll calls).activeSource = some next ∧ priority active ≤ priority next := by
  induction calls generalizing aim active with
  | nil => exact ⟨active, hactive, le_refl _⟩
  | cons call calls ih =>
      rw [results, List.forall_mem_cons] at hsteady
      have houtcome := call_outcome aim call
      obtain ⟨next, hnext, hle⟩ := (houtcome.chosen hauto hsteady.1).1 active hactive
      obtain ⟨last, hlast, hlater⟩ := ih (houtcome.config_eq ▸ hauto) hnext hsteady.2
      exact ⟨last, hlast, hle.trans hlater⟩

/-- The sample of a refused source other than an infrared one has no effect. -/
theorem call_refused {source : AimSource} (hsample : call.source = some source)
    (hir : source ≠ .ir) (hrefused : aim.accepts source = false) :
    aim.call call = (aim, .none) := by
  cases call with
  | ir point =>
      cases hsample
      exact absurd rfl hir
  | motionPlus x y z =>
      cases hsample
      rw [AimState.call, processMotionPlus, hrefused]
      rfl
  | accelerometer x y z =>
      cases hsample
      rw [AimState.call, processAccelerometer, hrefused]
      rfl
  | activationKey | reset | resetSession => cases hsample

/-- No baseline and nothing to smooth from. -/
structure Fresh (aim : AimState) : Prop where
  untracked : aim.irActive = false
  lastX : aim.lastX = 0
  lastY : aim.lastY = 0

theorem Coherent.fresh (hcoherent : aim.Coherent) (hidle : aim.isActive = false) : aim.Fresh :=
  have hresting := hcoherent.resting hidle
  ⟨hresting.1, hresting.2.1, hresting.2.2.1⟩

/-- Without an output the aim stays fresh. -/
theorem Fresh.outcome (hfresh : aim.Fresh) {later : AimState} {result : AimResult}
    (houtcome : Outcome aim call later result) (hsilent : result.output = none) :
    later.Fresh := by
  cases houtcome with
  | quiet _ hlast _ htracked =>
      refine ⟨Bool.eq_false_iff.mpr fun hlater => ?_, hlast.1.trans hfresh.lastX,
        hlast.2.trans hfresh.lastY⟩
      rw [hfresh.untracked] at htracked
      cases htracked hlater
  | restart | emit => cases hsilent

theorem Fresh.callAll (hfresh : aim.Fresh) {calls : List AimCall}
    (hsilent : ∀ result ∈ aim.results calls, result.output = none) :
    (aim.callAll calls).Fresh := by
  induction calls generalizing aim with
  | nil => exact hfresh
  | cons call calls ih =>
      rw [results, List.forall_mem_cons] at hsilent
      exact ih (hfresh.outcome (call_outcome aim call) hsilent.1) hsilent.2

theorem smoothed_zero (smoothing : Int) : smoothed smoothing 0 0 = 0 := by
  unfold smoothed
  split
  · rfl
  · rw [smoothComponent, Int.zero_mul, Int.zero_mul]
    rfl

theorem invert_zero (aim : AimState) : aim.invert ⟨0, 0⟩ = ⟨0, 0⟩ := by
  simp only [invert, Int.neg_zero]
  exact congrArg₂ AimVector.mk (ite_self 0) (ite_self 0)

/-- A fresh aim that maps infrared points relatively begins where it is. -/
theorem Fresh.acquires (hfresh : aim.Fresh) (hrelative : aim.config.irMapping = .relative)
    {point : Option IrPoint} {vector : AimVector}
    (houtput : (aim.processIr point).2.output = some vector) : vector = ⟨0, 0⟩ := by
  have hsampled : aim.sampled (.ir point) = ⟨0, 0⟩ := by
    rw [sampled]
    cases point with
    | none => rfl
    | some found =>
        rw [Option.map_some, Option.getD_some, irVector, hrelative, hfresh.untracked]
        have hscreen : (aim.config.irScreen.filter fun s =>
            decide (s.left < s.right) && decide (s.top < s.bottom)).filter
              (fun _ => IrAimMapping.relative == .absolute) = none :=
          Option.filter_eq_none_iff.mpr fun _ _ => by decide
        rw [hscreen]
        rfl
  have houtcome := call_outcome aim (.ir point)
  change Outcome aim _ (aim.processIr point).1 (aim.processIr point).2 at houtcome
  generalize (aim.processIr point).1 = later, (aim.processIr point).2 = result at *
  cases houtcome with
  | quiet => cases houtput
  | restart =>
      cases houtput
      rfl
  | emit _ _ _ _ _ hvector =>
      cases houtput
      rw [hvector, target, hsampled, invert_zero, hfresh.lastX, hfresh.lastY, smoothed_zero]

/-- The aim after a run of calls. -/
def reached (config : AimConfig) (calls : List AimCall) : AimState := (new config).callAll calls

/-- A run ends where the aim begins anew: at its start, where it becomes active, or where it
loses the infrared point that it tracks. -/
inductive Begins (config : AimConfig) : List AimCall → Prop
  | start : Begins config []
  | activated {calls : List AimCall} {call : AimCall}
      (hbefore : (reached config calls).isActive = false)
      (hafter : (reached config (calls ++ [call])).isActive = true) :
      Begins config (calls ++ [call])
  | lost {calls : List AimCall} {point : Option IrPoint}
      (htracked : (reached config calls).irActive = true)
      (hpoint : point.filter IrPoint.valid = none) :
      Begins config (calls ++ [.ir point])

/-- The arbitration between the sources in all runs of an aim. -/
structure Arbitrates (config : AimConfig) : Prop where
  tracked : ∀ calls, (reached config calls).irActive = true →
    (reached config calls).activeSource = some .ir
  resting : ∀ calls, (reached config calls).isActive = false →
    (reached config calls).irActive = false ∧ (reached config calls).lastX = 0 ∧
      (reached config calls).lastY = 0 ∧ ((reached config calls).activeSource = none ∨
        (reached config calls).activeSource = some .accelerometer)
  centred : ∀ calls call vector, (reached config calls).isActive = false ∨
      ((reached config calls).call call).1.isActive = false →
    ((reached config calls).call call).2.output = some vector → vector = ⟨0, 0⟩
  preferred : config.source = .auto → ∀ calls first middle last higher lower,
    (reached config calls).Takes first higher →
    (∀ result ∈ (reached config calls).results (first :: middle), result.reset = false) →
    last.source = some lower → priority lower < priority higher →
    ((reached config (calls ++ first :: middle)).call last).2.output = none
  steady : config.irMapping = .relative → ∀ calls middle point vector, Begins config calls →
    (∀ result ∈ (reached config calls).results middle, result.output = none) →
    ((reached config (calls ++ middle)).call (.ir point)).2.output = some vector →
    vector = ⟨0, 0⟩

theorem reached_append (config : AimConfig) (first second : List AimCall) :
    reached config (first ++ second) = (reached config first).callAll second :=
  callAll_append _ first second

theorem coherent_reached (config : AimConfig) (calls : List AimCall) :
    (reached config calls).Coherent :=
  (coherent_new config).callAll calls

theorem reached_config (config : AimConfig) (calls : List AimCall) :
    (reached config calls).config = config :=
  callAll_config _ calls

/-- Where the aim begins anew it has no baseline. -/
theorem Begins.fresh {calls : List AimCall} (hbegins : Begins config calls) :
    (reached config calls).Fresh := by
  cases hbegins with
  | start => exact ⟨rfl, rfl, rfl⟩
  | @activated calls call hbefore hafter =>
      rw [reached_append] at hafter ⊢
      have hcoherent := coherent_reached config calls
      have houtcome := call_outcome (reached config calls) call
      generalize hcall : (reached config calls).call call = called at houtcome
      change (((reached config calls).call call).1).Fresh
      rw [hcall]
      rcases called with ⟨later, result⟩
      cases houtcome with
      | quiet _ hlast _ htracked =>
          exact (hcoherent.fresh hbefore).outcome (hcall ▸ call_outcome _ call) rfl
      | restart _ hlast htracked => exact ⟨htracked, hlast.1, hlast.2⟩
      | emit _ hactive =>
          rw [hbefore] at hactive
          cases hactive.1
  | @lost calls point htracked hpoint =>
      rw [reached_append]
      change ((reached config calls).processIr point).1.Fresh
      have hsource := (coherent_reached config calls).tracked htracked
      rw [processIr, hpoint]
      simp only [hsource, if_pos]
      exact ⟨rfl, rfl, rfl⟩

/-- What an aim that is not active, before or after a call, emits in it. -/
theorem Outcome.centred {later : AimState} {result : AimResult} {vector : AimVector}
    (houtcome : Outcome aim call later result)
    (hidle : aim.isActive = false ∨ later.isActive = false)
    (houtput : result.output = some vector) : vector = ⟨0, 0⟩ := by
  cases houtcome with
  | quiet => cases houtput
  | restart =>
      cases houtput
      rfl
  | emit _ hactive =>
      rw [hactive.1, hactive.2] at hidle
      rcases hidle with hidle | hidle <;> cases hidle

/-- Every aim arbitrates between its sources and never jumps to an infrared point. -/
theorem reached_arbitrates (config : AimConfig) : Arbitrates config where
  tracked calls := (coherent_reached config calls).tracked
  resting calls := (coherent_reached config calls).resting
  centred calls call vector hidle houtput := (call_outcome _ call).centred hidle houtput
  preferred hauto calls first middle last higher lower htakes hsteady hsample hlower := by
    rw [results, List.forall_mem_cons] at hsteady
    rw [← reached_config config calls] at hauto
    have houtcome := call_outcome (reached config calls) first
    have hchosen := (houtcome.chosen hauto hsteady.1).2 higher htakes
    obtain ⟨active, hactive, hle⟩ :=
      chosen_callAll (houtcome.config_eq ▸ hauto) hchosen hsteady.2
    have hlast : (reached config (calls ++ first :: middle)).activeSource = some active := by
      rw [reached_append]
      exact hactive
    have hconfig : (reached config (calls ++ first :: middle)).config.source = .auto := by
      rw [reached_config, ← reached_config config calls, hauto]
    have hir : lower ≠ .ir := by
      rintro rfl
      cases higher <;> exact absurd hlower (by decide)
    have hrefused : (reached config (calls ++ first :: middle)).accepts lower = false := by
      refine Bool.eq_false_iff.mpr fun haccepts => ?_
      have hlower' := Takes.priority_le hconfig
        ⟨hsample, haccepts, fun point heq => by
          rw [heq] at hsample
          exact absurd (Option.some.inj hsample).symm hir⟩ hlast
      omega
    rw [call_refused hsample hir hrefused]
    rfl
  steady hrelative calls middle point vector hbegins hsilent houtput := by
    rw [reached_append] at houtput
    refine (hbegins.fresh.callAll hsilent).acquires ?_ houtput
    rw [callAll_config, reached_config, hrelative]

end arbitration

end AimState

end Wiiland
