/-
Calibration windows for motion sensors.  Sums and extremes are gathered sample by sample,
and a window that was still gives the mean of its samples.
-/
import Wiiland.Core.Config
import Wiiland.Core.Mapping
import Wiiland.Lib.Mean
import Wiiland.Lib.Wrap

namespace Wiiland

open Mapping

def aimCalibrationMinSamples : Nat := 16
def aimCalibrationMaxJitter : Int := 512

structure CalibrationStats where
  samples : Nat
  sumX : Int
  sumY : Int
  sumZ : Int
  minX : Int
  minY : Int
  minZ : Int
  maxX : Int
  maxY : Int
  maxZ : Int
deriving DecidableEq

namespace CalibrationStats

def new : CalibrationStats where
  samples := 0
  sumX := 0
  sumY := 0
  sumZ := 0
  minX := 2147483647
  minY := 2147483647
  minZ := 2147483647
  maxX := -2147483648
  maxY := -2147483648
  maxZ := -2147483648

def add (stats : CalibrationStats) (sample : Abs3) : CalibrationStats where
  samples := min (stats.samples + 1) 4294967295
  sumX := Wrap.i64 (stats.sumX + sample.x)
  sumY := Wrap.i64 (stats.sumY + sample.y)
  sumZ := Wrap.i64 (stats.sumZ + sample.z)
  minX := min stats.minX sample.x
  minY := min stats.minY sample.y
  minZ := min stats.minZ sample.z
  maxX := max stats.maxX sample.x
  maxY := max stats.maxY sample.y
  maxZ := max stats.maxZ sample.z

/-- The widest of the three axes. -/
def spread (stats : CalibrationStats) : Int :=
  max (max (Wrap.i64 (stats.maxX - stats.minX)) (Wrap.i64 (stats.maxY - stats.minY)))
    (Wrap.i64 (stats.maxZ - stats.minZ))

def jitter (stats : CalibrationStats) : Int :=
  if stats.samples = 0 then 0 else Wrap.i32 (min stats.spread 2147483647)

def finish (stats : CalibrationStats) : Option SensorCalibration :=
  if stats.samples < aimCalibrationMinSamples ∨ aimCalibrationMaxJitter < stats.jitter then none
  else some
    { axes := SensorCalibration.allAxes
      x := Wrap.i32 (stats.sumX.tdiv stats.samples)
      y := Wrap.i32 (stats.sumY.tdiv stats.samples)
      z := Wrap.i32 (stats.sumZ.tdiv stats.samples) }

/-- The statistics of a stream of samples. -/
def gather (samples : List Abs3) : CalibrationStats := samples.foldl add new

def sum (stats : CalibrationStats) : Axis → Int
  | .x => stats.sumX
  | .y => stats.sumY
  | .z => stats.sumZ

def low (stats : CalibrationStats) : Axis → Int
  | .x => stats.minX
  | .y => stats.minY
  | .z => stats.minZ

def high (stats : CalibrationStats) : Axis → Int
  | .x => stats.maxX
  | .y => stats.maxY
  | .z => stats.maxZ

end CalibrationStats

namespace Mapping

def Abs3.at (sample : Abs3) : Axis → Int
  | .x => sample.x
  | .y => sample.y
  | .z => sample.z

end Mapping

def SensorCalibration.at (calibration : SensorCalibration) : Axis → Int
  | .x => calibration.x
  | .y => calibration.y
  | .z => calibration.z

/-- The values of an axis. -/
def axisValues (axis : Axis) (samples : List Abs3) : Set Int :=
  { value | ∃ sample ∈ samples, sample.at axis = value }

def axisTotal (axis : Axis) : List Abs3 → Int
  | [] => 0
  | sample :: samples => sample.at axis + axisTotal axis samples

namespace CalibrationStats

/-- The samples are of 32 bits, and there are no more than can be counted. -/
structure Admissible (samples : List Abs3) : Prop where
  values : ∀ sample ∈ samples, ∀ axis, Wrap.IsI32 (sample.at axis)
  length : samples.length ≤ 4294967295

/-- What the statistics of some samples say about them. -/
structure Gathers (samples : List Abs3) (stats : CalibrationStats) : Prop where
  count : stats.samples = samples.length
  sum : ∀ axis, stats.sum axis = axisTotal axis samples
  low : ∀ axis, (∀ sample ∈ samples, stats.low axis ≤ sample.at axis) ∧
    (stats.low axis ∈ axisValues axis samples ∨ samples = [] ∧ stats.low axis = 2147483647)
  high : ∀ axis, (∀ sample ∈ samples, sample.at axis ≤ stats.high axis) ∧
    (stats.high axis ∈ axisValues axis samples ∨ samples = [] ∧ stats.high axis = -2147483648)

section gather

variable {samples : List Abs3} {stats : CalibrationStats} {sample : Abs3}

theorem axisTotal_append (axis : Axis) (first second : List Abs3) :
    axisTotal axis (first ++ second) = axisTotal axis first + axisTotal axis second := by
  induction first with
  | nil => exact (Int.zero_add _).symm
  | cons sample first ih =>
      rw [List.cons_append, axisTotal, axisTotal, ih, Int.add_assoc]

/-- The total is within the extremes as often as there are samples. -/
theorem axisTotal_range {axis : Axis} {low high : Int}
    (hrange : ∀ sample ∈ samples, low ≤ sample.at axis ∧ sample.at axis ≤ high) :
    low * samples.length ≤ axisTotal axis samples ∧
      axisTotal axis samples ≤ high * samples.length := by
  induction samples with
  | nil => simp [axisTotal]
  | cons sample samples ih =>
      obtain ⟨hsample, hrest⟩ := List.forall_mem_cons.mp hrange
      have hsamples := ih hrest
      rw [axisTotal, List.length_cons]
      push_cast
      rw [mul_add, mul_add, mul_one, mul_one]
      omega

theorem Admissible.total (hadmissible : Admissible samples) (axis : Axis) :
    Wrap.IsI64 (axisTotal axis samples) := by
  have hrange := axisTotal_range fun sample hsample => hadmissible.values sample hsample axis
  have hlength := hadmissible.length
  rw [Wrap.IsI64]
  omega

theorem Admissible.append {first second : List Abs3} (hadmissible : Admissible (first ++ second)) :
    Admissible first where
  values sample hsample := hadmissible.values sample (List.mem_append_left _ hsample)
  length := by
    have hlength := hadmissible.length
    rw [List.length_append] at hlength
    omega

theorem add_sum (stats : CalibrationStats) (sample : Abs3) (axis : Axis) :
    (stats.add sample).sum axis = Wrap.i64 (stats.sum axis + sample.at axis) := by
  cases axis <;> rfl

theorem add_low (stats : CalibrationStats) (sample : Abs3) (axis : Axis) :
    (stats.add sample).low axis = min (stats.low axis) (sample.at axis) := by
  cases axis <;> rfl

theorem add_high (stats : CalibrationStats) (sample : Abs3) (axis : Axis) :
    (stats.add sample).high axis = max (stats.high axis) (sample.at axis) := by
  cases axis <;> rfl

theorem axisValues_append {axis : Axis} {value : Int} :
    value ∈ axisValues axis (samples ++ [sample]) ↔
      value ∈ axisValues axis samples ∨ sample.at axis = value := by
  simp only [axisValues, Set.mem_ofPred_eq, List.mem_append, List.mem_singleton, or_and_right,
    exists_or, exists_eq_left]

theorem Gathers.add (hgathers : Gathers samples stats)
    (hadmissible : Admissible (samples ++ [sample])) :
    Gathers (samples ++ [sample]) (stats.add sample) where
  count := by
    have hlength := hadmissible.length
    rw [List.length_append, List.length_singleton] at *
    rw [← hgathers.count] at *
    exact min_eq_left hlength
  sum axis := by
    have htotal := hadmissible.total axis
    rw [axisTotal_append, axisTotal, axisTotal, Int.add_zero] at *
    rw [add_sum, hgathers.sum]
    exact Wrap.i64_eq htotal
  low axis := by
    have hsample := hadmissible.values sample (by simp) axis
    obtain ⟨hbound, hleast⟩ := hgathers.low axis
    rw [add_low]
    refine ⟨fun other hother => ?_, .inl (axisValues_append.mpr ?_)⟩
    · rcases List.mem_append.mp hother with hother | hother
      · exact (min_le_left _ _).trans (hbound other hother)
      · rw [List.mem_singleton.mp hother]
        exact min_le_right _ _
    · rcases min_choice (stats.low axis) (sample.at axis) with hmin | hmin
      · rcases hleast with hleast | ⟨_, hnone⟩
        · exact .inl (hmin.symm ▸ hleast)
        · rw [Wrap.IsI32] at hsample
          exact .inr (by omega)
      · exact .inr hmin.symm
  high axis := by
    have hsample := hadmissible.values sample (by simp) axis
    obtain ⟨hbound, hgreatest⟩ := hgathers.high axis
    rw [add_high]
    refine ⟨fun other hother => ?_, .inl (axisValues_append.mpr ?_)⟩
    · rcases List.mem_append.mp hother with hother | hother
      · exact (hbound other hother).trans (le_max_left _ _)
      · rw [List.mem_singleton.mp hother]
        exact le_max_right _ _
    · rcases max_choice (stats.high axis) (sample.at axis) with hmax | hmax
      · rcases hgreatest with hgreatest | ⟨_, hnone⟩
        · exact .inl (hmax.symm ▸ hgreatest)
        · rw [Wrap.IsI32] at hsample
          exact .inr (by omega)
      · exact .inr hmax.symm

theorem gathers_gather (hadmissible : Admissible samples) : Gathers samples (gather samples) := by
  induction samples using List.reverseRecOn with
  | nil =>
      exact ⟨rfl, fun axis => by cases axis <;> rfl,
        fun axis => ⟨by simp, .inr ⟨rfl, by cases axis <;> rfl⟩⟩,
        fun axis => ⟨by simp, .inr ⟨rfl, by cases axis <;> rfl⟩⟩⟩
  | append_singleton samples sample ih =>
      rw [gather, List.foldl_append]
      exact (ih hadmissible.append).add hadmissible

/-- The extremes of an axis that has samples. -/
theorem Gathers.extremes (hgathers : Gathers samples stats) (hsamples : samples ≠ [])
    (axis : Axis) : IsLeast (axisValues axis samples) (stats.low axis) ∧
      IsGreatest (axisValues axis samples) (stats.high axis) := by
  obtain ⟨hbelow, hleast⟩ := hgathers.low axis
  obtain ⟨habove, hgreatest⟩ := hgathers.high axis
  constructor
  · refine ⟨hleast.resolve_right fun hnone => hsamples hnone.1, ?_⟩
    rintro _ ⟨sample, hsample, rfl⟩
    exact hbelow sample hsample
  · refine ⟨hgreatest.resolve_right fun hnone => hsamples hnone.1, ?_⟩
    rintro _ ⟨sample, hsample, rfl⟩
    exact habove sample hsample

/-- The differences of the extremes are exact, and the widest one is the spread. -/
theorem Gathers.spread (hgathers : Gathers samples stats) (hadmissible : Admissible samples)
    (hsamples : samples ≠ []) : (∀ axis, Wrap.IsI64 (stats.high axis - stats.low axis) ∧
      0 ≤ stats.high axis - stats.low axis) ∧
    ∀ bound, stats.spread ≤ bound ↔ ∀ axis, stats.high axis - stats.low axis ≤ bound := by
  have hexact : ∀ axis, Wrap.IsI64 (stats.high axis - stats.low axis) ∧
      0 ≤ stats.high axis - stats.low axis := by
    intro axis
    obtain ⟨⟨⟨least, hleast, hlow⟩, hbelow⟩, ⟨greatest, hgreatest, hhigh⟩, _⟩ :=
      hgathers.extremes hsamples axis
    have hfirst := hadmissible.values least hleast axis
    have hlast := hadmissible.values greatest hgreatest axis
    have hle := hbelow ⟨greatest, hgreatest, hhigh⟩
    rw [hlow, Wrap.IsI32] at hfirst
    rw [hhigh, Wrap.IsI32] at hlast
    rw [Wrap.IsI64]
    omega
  refine ⟨hexact, fun bound => ?_⟩
  have hx := Wrap.i64_eq (hexact .x).1
  have hy := Wrap.i64_eq (hexact .y).1
  have hz := Wrap.i64_eq (hexact .z).1
  change Wrap.i64 (stats.maxX - stats.minX) = stats.maxX - stats.minX at hx
  change Wrap.i64 (stats.maxY - stats.minY) = stats.maxY - stats.minY at hy
  change Wrap.i64 (stats.maxZ - stats.minZ) = stats.maxZ - stats.minZ at hz
  rw [CalibrationStats.spread, hx, hy, hz, max_le_iff, max_le_iff]
  constructor
  · rintro ⟨⟨hx, hy⟩, hz⟩ axis
    cases axis <;> assumption
  · exact fun hall => ⟨⟨hall .x, hall .y⟩, hall .z⟩

/-- The mean of an axis is between its extremes. -/
theorem Gathers.mean (hgathers : Gathers samples stats) (hsamples : samples ≠ []) (axis : Axis) :
    stats.low axis ≤ (stats.sum axis).tdiv stats.samples ∧
      (stats.sum axis).tdiv stats.samples ≤ stats.high axis := by
  have hrange := axisTotal_range fun sample hsample =>
    ⟨(hgathers.low axis).1 sample hsample, (hgathers.high axis).1 sample hsample⟩
  have hlength := List.length_pos_of_ne_nil hsamples
  rw [hgathers.sum, hgathers.count]
  exact Mean.tdiv_mem_Icc (by omega) hrange.1 hrange.2

instance : RightCommutative add where
  right_comm stats first second := by
    simp only [add, Wrap.i64, Int.bmod_add_bmod, Int.add_right_comm, min_right_comm,
      max_right_comm]

/-- The jitter is the spread, kept in 32 bits. -/
theorem Gathers.jitter (hgathers : Gathers samples stats) (hadmissible : Admissible samples)
    (hsamples : samples ≠ []) : Wrap.IsI32 (min stats.spread 2147483647) ∧
      stats.jitter = min stats.spread 2147483647 := by
  obtain ⟨hexact, hspread⟩ := hgathers.spread hadmissible hsamples
  have hwide : 0 ≤ stats.spread :=
    (hexact .x).2.trans ((hspread stats.spread).mp (le_refl _) .x)
  have hfits : Wrap.IsI32 (min stats.spread 2147483647) := by
    rw [Wrap.IsI32]
    omega
  have hcount : stats.samples ≠ 0 := by
    rw [hgathers.count]
    exact fun hzero => hsamples (List.length_eq_zero_iff.mp hzero)
  rw [CalibrationStats.jitter, if_neg hcount]
  exact ⟨hfits, Wrap.i32_eq hfits.1 (Int.lt_add_one_iff.mpr hfits.2)⟩

theorem Gathers.mean_fits (hgathers : Gathers samples stats) (hadmissible : Admissible samples)
    (hsamples : samples ≠ []) (axis : Axis) :
    Wrap.IsI32 ((stats.sum axis).tdiv stats.samples) := by
  obtain ⟨⟨⟨least, hleast, hlow⟩, _⟩, ⟨greatest, hgreatest, hhigh⟩, _⟩ :=
    hgathers.extremes hsamples axis
  have hfirst := hadmissible.values least hleast axis
  have hlast := hadmissible.values greatest hgreatest axis
  have hmean := hgathers.mean hsamples axis
  rw [hlow, Wrap.IsI32] at hfirst
  rw [hhigh, Wrap.IsI32] at hlast
  rw [Wrap.IsI32]
  omega

/-- A window gives a calibration exactly when it is long enough and was still. -/
theorem Gathers.finish_isSome (hgathers : Gathers samples stats)
    (hadmissible : Admissible samples) : stats.finish.isSome = true ↔ 16 ≤ samples.length ∧
      ∀ axis, stats.high axis - stats.low axis ≤ 512 := by
  have hcount := hgathers.count
  unfold finish
  rw [aimCalibrationMinSamples, aimCalibrationMaxJitter]
  by_cases hlong : 16 ≤ samples.length
  · have hsamples : samples ≠ [] := fun hnil => by
      rw [hnil] at hlong
      cases hlong
    rw [(hgathers.jitter hadmissible hsamples).2,
      ← (hgathers.spread hadmissible hsamples).2 512]
    split
    · refine iff_of_false (by simp) ?_
      omega
    · refine iff_of_true rfl ?_
      omega
  · rw [if_pos (.inl (by omega))]
    exact iff_of_false (by simp) fun haccepted => hlong haccepted.1

theorem finish_at {calibration : SensorCalibration} (hfinish : stats.finish = some calibration)
    (axis : Axis) : calibration.axes = SensorCalibration.allAxes ∧
      calibration.at axis = Wrap.i32 ((stats.sum axis).tdiv stats.samples) := by
  unfold finish at hfinish
  split at hfinish
  · cases hfinish
  · cases hfinish
    exact ⟨rfl, by cases axis <;> rfl⟩

end gather

/-- The calibration of a stream of samples. -/
structure Calibrates (samples : List Abs3) : Prop where
  accepts : (gather samples).finish.isSome = true ↔ 16 ≤ samples.length ∧ ∀ axis, ∃ low high,
    IsLeast (axisValues axis samples) low ∧ IsGreatest (axisValues axis samples) high ∧
      high - low ≤ 512
  mean : ∀ calibration, (gather samples).finish = some calibration →
    calibration.axes = SensorCalibration.allAxes ∧ ∀ axis,
      calibration.at axis = (axisTotal axis samples).tdiv samples.length ∧
      ∀ low high, IsLeast (axisValues axis samples) low →
        IsGreatest (axisValues axis samples) high →
        low ≤ calibration.at axis ∧ calibration.at axis ≤ high
  unordered : ∀ others, samples.Perm others → (gather others).finish = (gather samples).finish
  sums : ∀ before sample after, samples = before ++ sample :: after →
    (gather before).samples < 4294967295 ∧
      ∀ axis, Wrap.IsI64 ((gather before).sum axis + sample.at axis)
  spans : samples ≠ [] → Wrap.IsI32 (min (gather samples).spread 2147483647) ∧
    ∀ axis, Wrap.IsI64 ((gather samples).high axis - (gather samples).low axis)
  quotients : samples ≠ [] → ∀ axis,
    Wrap.IsI32 (((gather samples).sum axis).tdiv (gather samples).samples)

/-- The statistics of every stream of samples are right, and none of their steps overflows. -/
theorem gather_calibrates {samples : List Abs3} (hadmissible : Admissible samples) :
    Calibrates samples := by
  have hgathers := gathers_gather hadmissible
  have hsome := hgathers.finish_isSome hadmissible
  have hnonempty : (gather samples).finish.isSome = true → samples ≠ [] := by
    rintro hfinish rfl
    exact absurd (hsome.mp hfinish).1 (by decide)
  refine ⟨?_, fun calibration hfinish => ?_, fun others hperm => ?_,
    fun before sample after hsplit => ?_, fun hsamples => ?_, fun hsamples axis => ?_⟩
  · rw [hsome]
    refine and_congr_right fun hlong => forall_congr' fun axis => ?_
    have hsamples : samples ≠ [] := fun hnil => by
      rw [hnil] at hlong
      cases hlong
    obtain ⟨hleast, hgreatest⟩ := hgathers.extremes hsamples axis
    constructor
    · exact fun hstill => ⟨_, _, hleast, hgreatest, hstill⟩
    · rintro ⟨low, high, hlow, hhigh, hstill⟩
      rwa [hlow.unique hleast, hhigh.unique hgreatest] at hstill
  · have hsamples := hnonempty (by rw [hfinish]; rfl)
    refine ⟨(finish_at hfinish .x).1, fun axis => ?_⟩
    have hfits := hgathers.mean_fits hadmissible hsamples axis
    have hvalue := (finish_at hfinish axis).2.trans
      (Wrap.i32_eq hfits.1 (Int.lt_add_one_iff.mpr hfits.2))
    obtain ⟨hleast, hgreatest⟩ := hgathers.extremes hsamples axis
    have hmean := hgathers.mean hsamples axis
    refine ⟨?_, fun low high hlow hhigh => ?_⟩
    · rw [hvalue, hgathers.sum, hgathers.count]
    · rw [hlow.unique hleast, hhigh.unique hgreatest, hvalue]
      exact hmean
  · rw [gather, gather, hperm.foldl_eq]
  · have hbefore : Admissible (before ++ [sample]) := by
      rw [hsplit, List.append_cons] at hadmissible
      exact hadmissible.append
    have hsums := gathers_gather hbefore.append
    have hlength := hbefore.length
    rw [List.length_append, List.length_singleton] at hlength
    refine ⟨by rw [hsums.count]; omega, fun axis => ?_⟩
    have htotal := hbefore.total axis
    rwa [axisTotal_append, axisTotal, axisTotal, Int.add_zero, ← hsums.sum] at htotal
  · exact ⟨(hgathers.jitter hadmissible hsamples).1,
      fun axis => ((hgathers.spread hadmissible hsamples).1 axis).1⟩
  · exact hgathers.mean_fits hadmissible hsamples axis

/-- Sixteen samples of a sensor at rest. -/
theorem gather_calibrates_rest : Calibrates (List.replicate 16 ⟨-3, 4, 512⟩) :=
  gather_calibrates ⟨fun sample hsample axis => by
    rw [List.eq_of_mem_replicate hsample]
    cases axis <;> decide, by decide⟩

end CalibrationStats

end Wiiland
