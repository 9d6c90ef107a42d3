/-
Where the engine's arithmetic stays exact.  Most operations do for every input; the others
are differences and sums of samples and coordinates that nothing bounds.
-/
import Wiiland.Core.AimGate
import Wiiland.Core.Arithmetic

namespace Wiiland

open Mapping Wrap

section mapping

theorem abs_le_of_isI32 {value : Int} (hvalue : IsI32 value) : |value| ≤ 4294967296 := by
  rw [IsI32] at hvalue
  rw [abs_le]
  omega

/-- Scaling to a fixed range stays within 32 bits for every value. -/
theorem exact_scaleSignedAxis {value negativeExtent positiveExtent : Int} (hvalue : IsI32 value)
    (hextent : IsI32 negativeExtent) :
    Exact (scaleSignedAxisOps value negativeExtent positiveExtent) := by
  have hmin : virtualAxisMin = -32768 := rfl
  have hmax : virtualAxisMax = 32767 := rfl
  have hbound := abs_le_of_isI32 hvalue
  rw [IsI32] at hextent
  unfold scaleSignedAxisOps
  rw [hmin, hmax]
  split
  · exact exact_nil
  · next hpositive =>
    refine exact_cons.mpr ⟨fits_i32.mpr (by rw [IsI32]; omega), ?_⟩
    split
    · exact exact_nil
    · next hinside =>
      split
      · next hbelow =>
        have hrange := @Wrap.tdiv_range (value * - -32768) negativeExtent 32768
          (by decide) (by omega) (by omega)
        simp only [exact_cons, exact_nil, fits_i32, fits_i64, and_true]
        exact ⟨by decide, isI64_mul hbound (by decide), by rw [IsI32]; omega⟩
      · next habove =>
        have hrange := @Wrap.tdiv_range (value * 32767) positiveExtent 32767
          (by decide) (by omega) (by omega)
        simp only [exact_cons, exact_nil, fits_i32, fits_i64, and_true]
        exact ⟨isI64_mul hbound (by decide), by rw [IsI32]; omega⟩

theorem exact_scaleUnsignedAxis {value sourceMax targetMax : Int} (hvalue : IsI32 value)
    (htarget : 0 ≤ targetMax ∧ targetMax ≤ 32767) :
    Exact (scaleUnsignedAxisOps value sourceMax targetMax) := by
  unfold scaleUnsignedAxisOps
  split
  · exact exact_nil
  · next hinside =>
    have hproduct : value * targetMax ≤ targetMax * sourceMax := by
      rw [Int.mul_comm]
      exact Int.mul_le_mul_of_nonneg_left (by omega) htarget.1
    have hnonneg : 0 ≤ value * targetMax := Int.mul_nonneg (by omega) htarget.1
    have hrange := @Wrap.tdiv_range (value * targetMax) sourceMax targetMax htarget.1
      (by omega) hproduct
    have htarget' : |targetMax| ≤ 2147483647 := by
      rw [abs_le]
      omega
    simp only [exact_cons, exact_nil, fits_i32, fits_i64, and_true]
    exact ⟨isI64_mul (abs_le_of_isI32 hvalue) htarget', by rw [IsI32]; omega⟩

/-- The three coordinates of a sample are of 32 bits. -/
def Mapping.Abs3.IsI32 (value : Abs3) : Prop :=
  Wrap.IsI32 value.x ∧ Wrap.IsI32 value.y ∧ Wrap.IsI32 value.z

theorem exact_mapXyz {value : Abs3} (hvalue : value.IsI32) {extent : Int}
    (hextent : Wrap.IsI32 extent) : Exact (mapXyzOps value extent) := by
  rw [mapXyzOps, exact_append, exact_append]
  exact ⟨⟨exact_scaleSignedAxis hvalue.1 hextent, exact_scaleSignedAxis hvalue.2.1 hextent⟩,
    exact_scaleSignedAxis hvalue.2.2 hextent⟩

theorem exact_stick {value : Abs3} (hvalue : value.IsI32) {negativeExtent positiveExtent : Int}
    (hextent : Wrap.IsI32 negativeExtent) :
    Exact (stickOps value negativeExtent positiveExtent) := by
  rw [stickOps, exact_append]
  exact ⟨exact_scaleSignedAxis hvalue.1 hextent, exact_scaleSignedAxis hvalue.2.1 hextent⟩

/-- Mapping a motion to the virtual axes is exact. -/
theorem exact_mapMotion (kind : MotionKind) {values : Vector Abs3 8}
    (hvalues : ∀ value ∈ values, value.IsI32) : Exact (mapMotionOps kind values) := by
  have htrigger : 0 ≤ virtualTriggerMax ∧ virtualTriggerMax ≤ 32767 := by decide
  have hslot : ∀ i, (values.get i).IsI32 := fun i => hvalues _ (Vector.getElem_mem i.isLt)
  unfold mapMotionOps
  cases kind with
  | accel | motionPlus => exact exact_mapXyz (hslot _) (by decide)
  | nunchuk =>
      exact exact_append.mpr ⟨exact_stick (hslot _) (by decide),
        exact_mapXyz (hslot _) (by decide)⟩
  | classic =>
      simp only [exact_append]
      exact ⟨⟨⟨exact_stick (hslot _) (by decide),
        exact_stick (hslot _) (by decide)⟩,
        exact_scaleUnsignedAxis (hslot _).1 htrigger⟩,
        exact_scaleUnsignedAxis (hslot _).2.1 htrigger⟩
  | pro =>
      exact exact_append.mpr ⟨exact_stick (hslot _) (by decide),
        exact_stick (hslot _) (by decide)⟩
  | guitar =>
      simp only [exact_append]
      exact ⟨⟨exact_stick (hslot _) (by decide),
        exact_scaleSignedAxis (hslot _).1 (by decide)⟩,
        exact_scaleUnsignedAxis (hslot _).1 htrigger⟩
  | balance => exact exact_nil
  | drums =>
      refine exact_append.mpr ⟨exact_stick (hslot _) (by decide), ?_⟩
      intro operation hoperation
      obtain ⟨value, hvalue, hoperation⟩ := List.mem_flatMap.mp hoperation
      have hmem : value.1 ∈ values :=
        Vector.mem_toList_iff.mp (List.mem_of_mem_drop hvalue |> List.fst_mem_of_mem_zipIdx)
      refine exact_scaleUnsignedAxis (hvalues _ hmem).1 ?_ operation hoperation
      split
      · decide
      · exact htrigger

end mapping

section smoothing

variable {previous current smoothing : Int}

theorem exact_smoothAxis_iff (hprevious : IsI32 previous) (hcurrent : IsI32 current)
    (hsmoothing : 0 ≤ smoothing ∧ smoothing ≤ 95) :
    Exact (smoothAxisOps previous current smoothing) ↔
      smoothing = 0 ∨ IsI32 (weightedSum previous current smoothing) := by
  unfold smoothAxisOps
  split
  · next hzero => exact iff_of_true exact_nil (.inl hzero)
  · next hweighted =>
    have hweight : |smoothing| ≤ 2147483647 := by
      rw [abs_le]
      omega
    have hrest : |100 - smoothing| ≤ 2147483647 := by
      rw [abs_le]
      omega
    have htotal := @Mean.weighted_mem 100 previous current smoothing hsmoothing.1 (by omega)
    have hsum : IsI64 (weightedSum previous current smoothing) := by
      change weightedSum previous current smoothing ∈ _ at htotal
      rw [IsI32] at hprevious hcurrent
      rw [Set.mem_uIcc] at htotal
      rw [IsI64]
      omega
    simp only [exact_cons, exact_nil, fits_i32, fits_i64, and_true, hweighted, false_or]
    exact ⟨fun hexact => hexact.2.2.2.2, fun hfits =>
      ⟨isI64_mul (abs_le_of_isI32 hprevious) hweight, by rw [IsI32]; omega,
        isI64_mul (abs_le_of_isI32 hcurrent) hrest, hsum, hfits⟩⟩

/-- Within the range of an axis smoothing is exact. -/
theorem exact_smoothAxis_inRange (hprevious : |previous| ≤ 32767) (hcurrent : |current| ≤ 32767)
    (hsmoothing : 0 ≤ smoothing ∧ smoothing ≤ 95) :
    Exact (smoothAxisOps previous current smoothing) := by
  have htotal := @Mean.weighted_mem 100 previous current smoothing hsmoothing.1 (by omega)
  change weightedSum previous current smoothing ∈ _ at htotal
  rw [abs_le] at hprevious hcurrent
  rw [Set.mem_uIcc] at htotal
  refine (exact_smoothAxis_iff ?_ ?_ hsmoothing).mpr (.inr ?_)
  all_goals
    rw [IsI32]
    omega

theorem isI32_smoothAxis (hcurrent : IsI32 current) :
    IsI32 (smoothAxis previous current smoothing) := by
  unfold smoothAxis
  split
  · exact hcurrent
  · exact isI32_tdiv (isI32_i32 _) (by decide)

end smoothing

section pointer

variable {start finish speed : Int}

theorem exact_scaledDelta_iff (hspeed : 1 ≤ speed ∧ speed ≤ 127) :
    Exact (scaledDeltaOps start finish speed) ↔
      IsI32 (finish - start) ∧ IsI32 (((finish - start) * speed).tdiv 64) := by
  have hspeed' : |speed| ≤ 2147483647 := by
    rw [abs_le]
    omega
  have hproduct := isI64_mul (abs_le_of_isI32 (isI32_i32 (finish - start))) hspeed'
  simp only [scaledDeltaOps, exact_cons, exact_nil, fits_i32, fits_i64, and_true, hproduct,
    true_and]
  refine and_congr_right fun hfits => ?_
  rw [Wrap.i32_eq hfits.1 (Int.lt_add_one_iff.mpr hfits.2)]

theorem exact_applyDeadzone_iff {delta deadzone : Int} (hdelta : IsI32 delta) :
    Exact (applyDeadzoneOps delta deadzone) ↔ deadzone = 0 ∨ delta ≠ -2147483648 := by
  rw [IsI32] at hdelta
  unfold applyDeadzoneOps
  split
  · next hzone =>
    simp only [exact_cons, exact_nil, fits_i32, and_true, hzone, false_or, IsI32]
    omega
  · next hzone => exact iff_of_true exact_nil (.inl (not_not.mp hzone))

namespace PointerState

/-- The settings and the tracked position of a pointer. -/
structure Ranged (pointer : PointerState) : Prop where
  speed : 1 ≤ pointer.speed ∧ pointer.speed ≤ 127
  irSpeed : 1 ≤ pointer.irSpeed ∧ pointer.irSpeed ≤ 127
  irSmoothing : 0 ≤ pointer.irSmoothing ∧ pointer.irSmoothing ≤ 95
  irX : IsI32 pointer.irX
  irY : IsI32 pointer.irY

/-- A coordinate whose weighted sum is of 32 bits, whose distance from the tracked one is, at
any speed, and does not meet a dead zone at the least integer. -/
structure Clear (pointer : PointerState) (tracked coordinate : Int) : Prop where
  weighted : pointer.irSmoothing = 0 ∨ IsI32 (weightedSum tracked coordinate pointer.irSmoothing)
  distance : IsI32 (smoothAxis tracked coordinate pointer.irSmoothing - tracked)
  scaled : IsI32 (((smoothAxis tracked coordinate pointer.irSmoothing - tracked) *
    pointer.irSpeed).tdiv 64)
  deadzone : pointer.irDeadzone = 0 ∨ ((smoothAxis tracked coordinate pointer.irSmoothing -
    tracked) * pointer.irSpeed).tdiv 64 ≠ -2147483648

variable {pointer : PointerState}

theorem Ranged.exact_move_iff (hranged : pointer.Ranged) {tracked coordinate : Int}
    (htracked : IsI32 tracked) (hcoordinate : IsI32 coordinate) :
    Exact (pointer.moveOps tracked coordinate) ↔ pointer.Clear tracked coordinate := by
  have hdelta : ∀ {distance : Int}, IsI32 distance → IsI32 ((distance * pointer.irSpeed).tdiv 64) →
      Wrap.i32 ((Wrap.i32 distance * pointer.irSpeed).tdiv 64) =
        (distance * pointer.irSpeed).tdiv 64 := by
    intro distance hdistance hscaled
    rw [Wrap.i32_eq hdistance.1 (Int.lt_add_one_iff.mpr hdistance.2),
      Wrap.i32_eq hscaled.1 (Int.lt_add_one_iff.mpr hscaled.2)]
  simp only [moveOps, exact_append]
  rw [exact_smoothAxis_iff htracked hcoordinate hranged.irSmoothing,
    exact_scaledDelta_iff hranged.irSpeed, scaledDelta, exact_applyDeadzone_iff (isI32_i32 _)]
  constructor
  · rintro ⟨⟨hweighted, hdistance, hscaled⟩, hdeadzone⟩
    rw [hdelta hdistance hscaled] at hdeadzone
    exact ⟨hweighted, hdistance, hscaled, hdeadzone⟩
  · rintro ⟨hweighted, hdistance, hscaled, hdeadzone⟩
    rw [hdelta hdistance hscaled]
    exact ⟨⟨hweighted, hdistance, hscaled⟩, hdeadzone⟩

theorem Ranged.exact_refreshVelocity (hranged : pointer.Ranged) :
    Exact pointer.refreshVelocityOps := by
  have hspeed := hranged.speed
  have haxis : ∀ back forth : Bool, Exact ((if back then [.i32 (0 - pointer.speed)] else []) ++
      if forth then [.i32 ((if back then 0 - pointer.speed else 0) + pointer.speed)] else []) := by
    intro back forth
    cases back <;> cases forth <;>
      simp only [exact_append, exact_cons, exact_nil, fits_i32, IsI32, Bool.false_eq_true,
        if_true, if_false, and_true, true_and] <;> omega
  exact exact_append.mpr ⟨haxis _ _, haxis _ _⟩

/-- What a point has to be for its tracking to be exact. -/
def Follows (pointer : PointerState) (point : Option IrPoint) : Prop :=
  pointer.irActive = true → ∀ found, point.filter IrPoint.valid = some found →
    pointer.Clear pointer.irX found.x ∧ pointer.Clear pointer.irY found.y

theorem Ranged.exact_updateIr_iff (hranged : pointer.Ranged) {point : Option IrPoint}
    (hpoint : ∀ found, point = some found → IsI32 found.x ∧ IsI32 found.y) :
    Exact (pointer.updateIrOps point) ↔ pointer.Follows point := by
  unfold updateIrOps Follows
  cases hfound : point.filter IrPoint.valid with
  | none => exact iff_of_true exact_nil fun _ found hnone => by cases hnone
  | some found =>
      obtain ⟨hx, hy⟩ := hpoint found (Option.eq_some_of_filter_eq_some hfound)
      simp only
      split
      · next hactive =>
        rw [exact_append, hranged.exact_move_iff hranged.irX hx,
          hranged.exact_move_iff hranged.irY hy]
        constructor
        · rintro hclear _ _ ⟨⟩
          exact hclear
        · exact fun hclear => hclear hactive found rfl
      · next hidle => exact iff_of_true exact_nil fun hactive => absurd hactive hidle

end PointerState

end pointer

section selection

def IrPoint.IsI32 (point : IrPoint) : Prop := Wrap.IsI32 point.x ∧ Wrap.IsI32 point.y

/-- The exact square of the distance of two points. -/
def exactDistance (first second : IrPoint) : Int :=
  (first.x - second.x) * (first.x - second.x) + (first.y - second.y) * (first.y - second.y)

/-- What a frame has to be for the selection of its point to be exact: with two points, the
squares of the distances are of 64 bits, and the sums of the farthest ones of 32. -/
def IrFrame.Selects (frame : IrFrame) (tracking : IrTracking) : Prop :=
  let points := frame.points.toList.filter IrPoint.valid
  let a := points.getD (farthestPair points).a {}
  let b := points.getD (farthestPair points).b {}
  tracking = .dual → 2 ≤ points.length →
    (∀ i j, i < j → j < points.length →
      IsI64 (exactDistance (points.getD i {}) (points.getD j {}))) ∧
    IsI32 (a.x + b.x) ∧ IsI32 (a.y + b.y)

theorem exact_squaredDistance_iff {first second : IrPoint} (hfirst : first.IsI32)
    (hsecond : second.IsI32) :
    Exact (squaredDistanceOps first second) ↔ IsI64 (exactDistance first second) := by
  obtain ⟨hfirstX, hfirstY⟩ := hfirst
  obtain ⟨hsecondX, hsecondY⟩ := hsecond
  have hx := mul_self_nonneg (first.x - second.x)
  have hy := mul_self_nonneg (first.y - second.y)
  rw [Wrap.IsI32] at *
  simp only [squaredDistanceOps, exactDistance, exact_cons, exact_nil, fits_i64, and_true, IsI64]
  generalize (first.x - second.x) * (first.x - second.x) = squareX at *
  generalize (first.y - second.y) * (first.y - second.y) = squareY at *
  omega

theorem exact_farthestPair_iff {points : List IrPoint} (hpoints : ∀ i, (points.getD i {}).IsI32) :
    Exact (farthestPairOps points) ↔ ∀ i j, i < j → j < points.length →
      IsI64 (exactDistance (points.getD i {}) (points.getD j {})) := by
  constructor
  · intro hexact i j hij hj
    refine (exact_squaredDistance_iff (hpoints i) (hpoints j)).mp fun operation hoperation => ?_
    refine hexact operation (List.mem_flatMap.mpr ⟨i, List.mem_range.mpr (hij.trans hj),
      List.mem_flatMap.mpr ⟨j, List.mem_range'_1.mpr ?_, hoperation⟩⟩)
    omega
  · intro hpairs operation hoperation
    obtain ⟨i, hi, hoperation⟩ := List.mem_flatMap.mp hoperation
    obtain ⟨j, hj, hoperation⟩ := List.mem_flatMap.mp hoperation
    rw [List.mem_range] at hi
    rw [List.mem_range'_1] at hj
    exact (exact_squaredDistance_iff (hpoints i) (hpoints j)).mpr
      (hpairs i j (by omega) (by omega)) operation hoperation

theorem foldl_range {values : List Int} {low high : Int}
    (hvalues : ∀ value ∈ values, low ≤ value ∧ value ≤ high) :
    low * values.length ≤ values.foldl (fun sum value => sum + value) 0 ∧
      values.foldl (fun sum value => sum + value) 0 ≤ high * values.length := by
  induction values using List.reverseRecOn with
  | nil => simp
  | append_singleton values value ih =>
      have hlast := hvalues value (by simp)
      have hrest := ih fun other hother => hvalues other (List.mem_append_left _ hother)
      rw [List.foldl_append, List.length_append, List.length_singleton]
      push_cast
      rw [mul_add, mul_add, mul_one, mul_one]
      simp only [List.foldl_cons, List.foldl_nil]
      omega

/-- The centroid of at most four coordinates is exact. -/
theorem exact_centroid {coordinates : List Int} (hvalues : ∀ value ∈ coordinates, IsI32 value)
    (hlength : 0 < coordinates.length ∧ coordinates.length ≤ 4) :
    Exact (centroidOps coordinates coordinates.length) := by
  refine exact_append.mpr ⟨fun operation hoperation => ?_, ?_⟩
  · obtain ⟨part, hpart, rfl⟩ := List.mem_map.mp hoperation
    have hpart_le := (List.mem_inits _ _).mp hpart
    have hrange := foldl_range fun value hvalue => hvalues value (hpart_le.subset hvalue)
    have hle := hpart_le.length_le
    rw [fits_i64, IsI64]
    omega
  · have hrange := foldl_range hvalues
    have hmean := Mean.tdiv_mem_Icc (by omega) hrange.1 hrange.2
    simp only [exact_cons, exact_nil, and_true]
    exact hmean

variable {frame : IrFrame} {tracking : IrTracking}

theorem isI32_valid (hframe : ∀ point ∈ frame.points.toList, point.IsI32) :
    (∀ point ∈ frame.points.toList.filter IrPoint.valid, point.IsI32) ∧
      (∀ i, ((frame.points.toList.filter IrPoint.valid).getD i {}).IsI32) ∧
      (frame.points.toList.filter IrPoint.valid).length ≤ 4 := by
  have hpoints : ∀ point ∈ frame.points.toList.filter IrPoint.valid, point.IsI32 :=
    fun point hpoint => hframe point (List.mem_of_mem_filter hpoint)
  refine ⟨hpoints, fun i => ?_, ?_⟩
  · rw [List.getD_eq_getElem?_getD]
    cases hget : (frame.points.toList.filter IrPoint.valid)[i]? with
    | none => exact ⟨by decide, by decide⟩
    | some point => exact hpoints point (List.mem_of_getElem? hget)
  · refine (List.length_filter_le _ _).trans ?_
    rw [Vector.length_toList]

theorem exact_selectIrPoint_iff (hframe : ∀ point ∈ frame.points.toList, point.IsI32) :
    Exact (selectIrPointOps frame tracking) ↔ frame.Selects tracking := by
  obtain ⟨hpoints, hget, hfour⟩ := isI32_valid hframe
  unfold selectIrPointOps IrFrame.Selects
  generalize frame.points.toList.filter IrPoint.valid = points at *
  simp only
  split
  · next hnone => exact iff_of_true exact_nil fun _ htwo => by omega
  · next hsome =>
    cases tracking with
    | first => exact iff_of_true exact_nil fun hdual => by cases hdual
    | centroid =>
        refine iff_of_true (exact_append.mpr ⟨?_, ?_⟩) fun hdual => by cases hdual
        · have hcentroid := @exact_centroid (points.map IrPoint.x)
            (by simpa using fun point hpoint => (hpoints point hpoint).1)
            (by rw [List.length_map]; omega)
          rwa [List.length_map] at hcentroid
        · have hcentroid := @exact_centroid (points.map IrPoint.y)
            (by simpa using fun point hpoint => (hpoints point hpoint).2)
            (by rw [List.length_map]; omega)
          rwa [List.length_map] at hcentroid
    | dual =>
        simp only
        split
        · next hone => exact iff_of_true exact_nil fun _ htwo => by omega
        · next htwo =>
          simp only [exact_append, exact_cons, exact_nil, fits_i32, and_true,
            exact_farthestPair_iff hget]
          exact ⟨fun hexact _ _ => hexact, fun hselects => hselects trivial (by omega)⟩

theorem isI32_selectIrPoint (hframe : ∀ point ∈ frame.points.toList, point.IsI32)
    {point : IrPoint} (hpoint : selectIrPoint frame tracking = some point) : point.IsI32 := by
  obtain ⟨_, hget, _⟩ := isI32_valid hframe
  unfold selectIrPoint at hpoint
  generalize frame.points.toList.filter IrPoint.valid = points at *
  simp only at hpoint
  split at hpoint
  · cases hpoint
  · cases tracking with
    | first =>
        cases hpoint
        exact hget 0
    | centroid =>
        cases hpoint
        exact ⟨isI32_i32 _, isI32_i32 _⟩
    | dual =>
        simp only at hpoint
        split at hpoint
        · cases hpoint
          exact hget 0
        · cases hpoint
          exact ⟨isI32_tdiv (isI32_i32 _) (by decide), isI32_tdiv (isI32_i32 _) (by decide)⟩

end selection

namespace AimState

/-- The settings, the last output and the baselines of an aim. -/
structure Ranged (aim : AimState) : Prop where
  sensitivity : 1 ≤ aim.config.sensitivity ∧ aim.config.sensitivity ≤ 127
  deadzone : 0 ≤ aim.config.deadzone ∧ aim.config.deadzone ≤ 32767
  smoothing : 0 ≤ aim.config.smoothing ∧ aim.config.smoothing ≤ 95
  screen : ∀ s, aim.config.irScreen = some s →
    (IsI32 s.left ∧ IsI32 s.right) ∧ IsI32 s.top ∧ IsI32 s.bottom
  last : InRange ⟨aim.lastX, aim.lastY⟩

/-- Both differences are of 32 bits. -/
def Differ (x y biasX biasY : Int) : Prop := IsI32 (x - biasX) ∧ IsI32 (y - biasY)

section aim

variable {aim : AimState} {vector : AimVector}

theorem Ranged.tuned (hranged : aim.Ranged) : Tuned aim.config :=
  ⟨le_trans (by decide) hranged.sensitivity.1, hranged.deadzone.1, hranged.smoothing⟩

/-- Scaling is exact. -/
theorem Ranged.exact_scale (hranged : aim.Ranged) {value : Int} (hvalue : IsI32 value) :
    Exact (aim.scaleOps value) := by
  have hsensitivity := hranged.sensitivity
  have hdeadzone := hranged.deadzone
  rw [IsI32] at hvalue
  refine exact_cons.mpr ⟨fits_i64.mpr (by rw [IsI64]; omega), ?_⟩
  simp only
  split
  · exact exact_nil
  · next houtside =>
    have hquotient : 0 ≤ (((value.natAbs : Int) - aim.config.deadzone) *
        aim.config.sensitivity).tdiv 16 :=
      Int.tdiv_nonneg (mul_nonneg (by omega) (by omega)) (by decide)
    have hproduct : IsI64 (((value.natAbs : Int) - aim.config.deadzone) *
        aim.config.sensitivity) :=
      isI64_mul (by rw [abs_le]; omega) (by rw [abs_le]; omega)
    generalize (((value.natAbs : Int) - aim.config.deadzone) *
      aim.config.sensitivity).tdiv 16 = scaled at hquotient
    simp only [exact_append, exact_cons, exact_nil, fits_i32, fits_i64, and_true]
    refine ⟨⟨by rw [IsI64]; omega, hproduct, by rw [IsI32]; omega⟩, ?_⟩
    split
    · simp only [exact_cons, exact_nil, fits_i32, and_true]
      rw [IsI32]
      omega
    · exact exact_nil

/-- Emitting a vector in range is exact. -/
theorem Ranged.exact_emit (hranged : aim.Ranged) (hvector : InRange vector) :
    Exact (aim.emitOps vector) := by
  have hinverted := @invert_range aim vector hvector
  obtain ⟨hx, hy⟩ := hvector
  rw [abs_le] at hx hy
  unfold emitOps
  split
  · exact exact_nil
  · simp only [exact_append]
    refine ⟨⟨⟨?_, ?_⟩, exact_smoothAxis_inRange hranged.last.x hinverted.x hranged.smoothing⟩,
      exact_smoothAxis_inRange hranged.last.y hinverted.y hranged.smoothing⟩
    · split
      · simp only [exact_cons, exact_nil, fits_i32, and_true]
        rw [IsI32]
        omega
      · exact exact_nil
    · split
      · simp only [exact_cons, exact_nil, fits_i32, and_true]
        rw [IsI32]
        omega
      · exact exact_nil

theorem scaleIrAbsoluteAxis_range (value min max : Int) :
    |scaleIrAbsoluteAxis value min max| ≤ 32767 := by
  unfold scaleIrAbsoluteAxis
  simp only
  split
  · decide
  · rw [abs_le]
    split
    · decide
    · split
      · decide
      · omega

theorem exact_scaleIrAbsoluteAxis {value min max : Int} (hvalue : IsI32 value) (hmin : IsI32 min)
    (hmax : IsI32 max) : Exact (scaleIrAbsoluteAxisOps value min max) := by
  have hbounds := Mean.tdiv_bounds (by decide : (0 : Int) < 2) (min + max)
  have hscaled := scaleIrAbsoluteAxis_range value min max
  rw [IsI32] at *
  rw [abs_le] at hscaled
  have hproduct : IsI64 ((value - (min + max).tdiv 2) * 32767) :=
    isI64_mul (by rw [abs_le]; omega) (by decide)
  unfold scaleIrAbsoluteAxisOps
  simp only [exact_append, exact_cons, exact_nil, fits_i64, and_true]
  refine ⟨⟨by rw [IsI64]; omega, by rw [IsI64]; omega⟩, ?_⟩
  split
  · exact exact_nil
  · simp only [exact_cons, exact_nil, fits_i32, fits_i64, and_true]
    exact ⟨by rw [IsI64]; omega, hproduct, by rw [IsI32]; omega⟩

/-- The screen against which points are taken absolutely. -/
def absoluteScreen (aim : AimState) : Option IrRectangle :=
  (aim.config.irScreen.filter fun s => s.left < s.right && s.top < s.bottom).filter fun _ =>
    aim.config.irMapping == .absolute

theorem Ranged.exact_irVector_iff (hranged : aim.Ranged) {point : IrPoint}
    (hpoint : point.IsI32) : Exact (aim.irVectorOps point) ↔
      (aim.absoluteScreen = none → aim.irActive = true →
        Differ point.x point.y aim.irX aim.irY) := by
  rw [irVectorOps, ← absoluteScreen]
  cases hscreen : aim.absoluteScreen with
  | some s =>
      have hs := Option.eq_some_of_filter_eq_some (Option.eq_some_of_filter_eq_some hscreen)
      obtain ⟨⟨hleft, hright⟩, htop, hbottom⟩ := hranged.screen s hs
      have hx := scaleIrAbsoluteAxis_range point.x s.left s.right
      have hy := scaleIrAbsoluteAxis_range point.y s.top s.bottom
      rw [abs_le] at hx hy
      simp only [exact_append]
      refine iff_of_true ⟨⟨⟨exact_scaleIrAbsoluteAxis hpoint.1 hleft hright,
        hranged.exact_scale ?_⟩, exact_scaleIrAbsoluteAxis hpoint.2 htop hbottom⟩,
        hranged.exact_scale ?_⟩ fun hnone => by cases hnone
      · rw [IsI32]
        omega
      · rw [IsI32]
        omega
  | none =>
      simp only
      split
      · next hactive =>
        simp only [List.cons_append, exact_append, exact_cons, fits_i32,
          hranged.exact_scale (isI32_i32 _), hactive, true_and, and_true]
        exact ⟨fun hexact _ _ => hexact, fun hdiffer => hdiffer trivial trivial⟩
      · next hidle => exact iff_of_true exact_nil fun _ hactive => absurd hactive hidle

/-- What a point has to be for the aim to take it exactly. -/
def TakesPoint (aim : AimState) (point : Option IrPoint) : Prop :=
  aim.accepts .ir = true → aim.absoluteScreen = none → aim.irActive = true →
    ∀ found, point.filter IrPoint.valid = some found →
      Differ found.x found.y aim.irX aim.irY

theorem Ranged.exact_processIr_iff (hranged : aim.Ranged) {point : Option IrPoint}
    (hpoint : ∀ found, point = some found → found.IsI32) :
    Exact (aim.processIrOps point) ↔ aim.TakesPoint point := by
  unfold processIrOps TakesPoint
  cases hfound : point.filter IrPoint.valid with
  | none => exact iff_of_true exact_nil fun _ _ _ found hnone => by cases hnone
  | some found =>
      have hvalid := Option.eq_some_of_filter_eq_some hfound
      simp only
      split
      · next hrefused =>
        refine iff_of_true exact_nil fun haccepts => ?_
        rw [haccepts] at hrefused
        cases hrefused
      · next haccepts =>
        have hvector : InRange (aim.irVector found) :=
          sampled_range hranged.tuned (.ir (some found))
        rw [exact_append, hranged.exact_irVector_iff (hpoint found hvalid),
          and_iff_left (hranged.exact_emit hvector)]
        constructor
        · rintro hdiffer _ hscreen hactive _ ⟨⟩
          exact hdiffer hscreen hactive
        · exact fun htakes hscreen hactive =>
            htakes (by simpa using haccepts) hscreen hactive found rfl

theorem Ranged.exact_difference_iff (hranged : aim.Ranged) {x y biasX biasY : Int} :
    Exact (aim.differenceOps x y biasX biasY) ↔ Differ x y biasX biasY := by
  have hemit : Exact (aim.emitOps ⟨aim.scale (Wrap.i32 (x - biasX)),
      aim.scale (Wrap.i32 (y - biasY))⟩) :=
    hranged.exact_emit ⟨scale_range hranged.tuned _, scale_range hranged.tuned _⟩
  simp only [differenceOps, exact_append, exact_cons, exact_nil, fits_i32,
    hranged.exact_scale (isI32_i32 _), hemit, and_true]
  rfl

/-- What a MotionPlus sample has to be: within 32 bits of the bias it is read against. -/
def TakesMotionPlus (aim : AimState) (x y : Int) : Prop :=
  aim.accepts .motionPlus = true →
    ∀ c, aim.config.motionPlusCalibration.filter sensorCalibrationReady = some c →
      Differ x y c.x c.y

theorem Ranged.exact_processMotionPlus_iff (hranged : aim.Ranged) {x y : Int}
    (hx : IsI32 x) (hy : IsI32 y) :
    Exact (aim.processMotionPlusOps x y) ↔ aim.TakesMotionPlus x y := by
  unfold processMotionPlusOps TakesMotionPlus
  split
  · next hrefused =>
    refine iff_of_true exact_nil fun haccepts => ?_
    rw [haccepts] at hrefused
    cases hrefused
  · next haccepts =>
    have haccepts : aim.accepts .motionPlus = true := by simpa using haccepts
    cases aim.config.motionPlusCalibration.filter sensorCalibrationReady with
    | some c =>
        simp only
        rw [hranged.exact_difference_iff]
        constructor
        · rintro hdiffer _ _ ⟨⟩
          exact hdiffer
        · exact fun htakes => htakes haccepts c rfl
    | none =>
        simp only [exact_append]
        refine iff_of_true ⟨⟨hranged.exact_scale hx, hranged.exact_scale hy⟩,
          hranged.exact_emit ⟨scale_range hranged.tuned _, scale_range hranged.tuned _⟩⟩
          fun _ c hnone => by cases hnone

/-- What an accelerometer sample has to be: within 32 bits of the zero it is read against. -/
def TakesAccelerometer (aim : AimState) (x y : Int) : Prop :=
  aim.accepts .accelerometer = true →
    (∀ c, aim.config.accelCalibration.filter sensorCalibrationReady = some c →
      Differ x y c.x c.y) ∧
    (aim.config.accelCalibration.filter sensorCalibrationReady = none →
      aim.accelZeroed = true → Differ x y aim.accelZeroX aim.accelZeroY)

theorem Ranged.exact_processAccelerometer_iff (hranged : aim.Ranged) {x y : Int} :
    Exact (aim.processAccelerometerOps x y) ↔ aim.TakesAccelerometer x y := by
  unfold processAccelerometerOps TakesAccelerometer
  split
  · next hrefused =>
    refine iff_of_true exact_nil fun haccepts => ?_
    rw [haccepts] at hrefused
    cases hrefused
  · next haccepts =>
    have haccepts : aim.accepts .accelerometer = true := by simpa using haccepts
    cases aim.config.accelCalibration.filter sensorCalibrationReady with
    | some c =>
        simp only
        rw [hranged.exact_difference_iff]
        constructor
        · exact fun hdiffer _ => ⟨fun _ heq => by cases heq; exact hdiffer,
            fun hnone => by cases hnone⟩
        · exact fun htakes => (htakes haccepts).1 c rfl
    | none =>
        simp only
        split
        · next hfresh =>
          refine iff_of_true exact_nil fun _ => ⟨fun c hnone => (by cases hnone),
            fun _ hzeroed => ?_⟩
          rw [hzeroed] at hfresh
          cases hfresh
        · next hzeroed =>
          have hzeroed : aim.accelZeroed = true := by simpa using hzeroed
          rw [hranged.exact_difference_iff]
          exact ⟨fun hdiffer _ => ⟨fun c hnone => (by cases hnone), fun _ _ => hdiffer⟩,
            fun htakes => (htakes haccepts).2 trivial hzeroed⟩

end aim

end AimState

/-- The edges of the screen are of 32 bits. -/
def Config.ScreenIsI32 (config : Config) : Prop :=
  ∀ s, config.irScreen = some s → (IsI32 s.left ∧ IsI32 s.right) ∧ IsI32 s.top ∧ IsI32 s.bottom

/-- The samples and coordinates of an input are of 32 bits. -/
def EngineInput.IsI32 : EngineInput → Prop
  | .motion _ axes => ∀ value ∈ axes, value.IsI32
  | .ir frame => ∀ point ∈ frame.points.toList, point.IsI32
  | _ => True

namespace DeviceEngine

/-- What an input has to be for the engine to process it without leaving a machine type: a
sample near its bias or zero, and a frame whose points can be selected and tracked. -/
def Clear (engine : DeviceEngine) : EngineInput → Prop
  | .motion .accel axes => engine.aim.TakesAccelerometer (primary axes).x (primary axes).y
  | .motion .motionPlus axes => engine.aim.TakesMotionPlus (primary axes).x (primary axes).y
  | .ir frame => frame.Selects engine.pointer.tracking ∧
      (engine.profile.contains .desktop = true →
        engine.pointer.Follows (engine.pointer.selectIr frame)) ∧
      engine.aim.TakesPoint (engine.pointer.selectIr frame)
  | _ => True

structure Ranged (engine : DeviceEngine) : Prop where
  pointer : engine.pointer.Ranged
  aim : engine.aim.Ranged

section engine

variable {engine : DeviceEngine}

theorem ranged_new (config : ValidatedConfig) (profile : Profile)
    (hscreen : config.get.ScreenIsI32) : (new config profile).Ranged := by
  obtain ⟨_, hrange, _⟩ := (Config.validate_eq_ok_iff config.get).mp config.valid
  obtain ⟨hspeed, hirSpeed, _, hirSmoothing, hsensitivity, hdeadzone, hsmoothing, _⟩ :=
    (Config.inRange_iff config.get).mp hrange
  exact ⟨⟨hspeed, hirSpeed, hirSmoothing, by change IsI32 0; decide, by change IsI32 0; decide⟩,
    ⟨hsensitivity, hdeadzone, hsmoothing, hscreen, AimState.inRange_zero⟩⟩

theorem ranged_call {aim : AimState} (hranged : aim.Ranged) (call : AimCall) :
    (aim.call call).1.Ranged := by
  have houtcome := AimState.call_outcome aim call
  have hlast := houtcome.held hranged.tuned hranged.last
  have hconfig := houtcome.config_eq
  exact ⟨hconfig ▸ hranged.sensitivity, hconfig ▸ hranged.deadzone, hconfig ▸ hranged.smoothing,
    hconfig ▸ hranged.screen, hlast⟩

theorem ranged_updateIr {pointer : PointerState} (hranged : pointer.Ranged)
    {point : Option IrPoint} (hpoint : ∀ found, point = some found → found.IsI32) :
    (pointer.updateIr point).1.Ranged := by
  obtain ⟨hspeed, hirSpeed, hsmoothing, hx, hy⟩ := hranged
  unfold PointerState.updateIr
  cases hfound : point.filter IrPoint.valid with
  | none =>
      exact ⟨hspeed, hirSpeed, hsmoothing, by change IsI32 0; decide, by change IsI32 0; decide⟩
  | some found =>
      have hfits := hpoint found (Option.eq_some_of_filter_eq_some hfound)
      simp only
      split
      · exact ⟨hspeed, hirSpeed, hsmoothing, isI32_smoothAxis hfits.1, isI32_smoothAxis hfits.2⟩
      · exact ⟨hspeed, hirSpeed, hsmoothing, hfits.1, hfits.2⟩

theorem Ranged.pointerTransition (hranged : engine.Ranged) (button : Button)
    (wasHeld isHeld : Bool) : (engine.pointerTransition button wasHeld isHeld).1.Ranged := by
  obtain ⟨⟨hspeed, hirSpeed, hsmoothing, hx, hy⟩, haim⟩ := hranged
  unfold DeviceEngine.pointerTransition
  split
  · exact ⟨⟨hspeed, hirSpeed, hsmoothing, hx, hy⟩, haim⟩
  · exact ⟨⟨hspeed, hirSpeed, hsmoothing, hx, hy⟩, haim⟩

theorem Ranged.aimTransition (hranged : engine.Ranged) (button : Button)
    (wasHeld isHeld : Bool) : (engine.aimTransition button wasHeld isHeld).1.Ranged := by
  unfold DeviceEngine.aimTransition
  split
  · exact ⟨hranged.pointer, ranged_call hranged.aim (.activationKey button.code isHeld)⟩
  · exact hranged

/-- A button is always exact. -/
theorem Ranged.key (hranged : engine.Ranged) (source : InputSource) (button : Button)
    (state : ButtonState) : (engine.key source button state).1.Ranged ∧
      Exact (engine.keyOps source button state) := by
  have hheld : (engine.setHeld source button state).Ranged := ⟨hranged.pointer, hranged.aim⟩
  refine ⟨(hheld.pointerTransition button _ _).aimTransition button _ _, ?_⟩
  unfold keyOps
  simp only
  split
  · exact PointerState.Ranged.exact_refreshVelocity ⟨hranged.pointer.speed,
      hranged.pointer.irSpeed, hranged.pointer.irSmoothing, hranged.pointer.irX,
      hranged.pointer.irY⟩
  · exact exact_nil

theorem Ranged.releaseAll (hranged : engine.Ranged) (held : BitVec 32) (source : InputSource)
    (buttons : List Button) : (releaseAll held source buttons engine).1.Ranged ∧
      Exact (releaseAllOps held source buttons engine) := by
  induction buttons generalizing engine with
  | nil => exact ⟨hranged, exact_nil⟩
  | cons button buttons ih =>
      unfold DeviceEngine.releaseAll releaseAllOps
      split
      · obtain ⟨hnext, hexact⟩ := hranged.key source button .released
        obtain ⟨hlast, hrest⟩ := ih hnext
        exact ⟨hlast, exact_append.mpr ⟨hexact, hrest⟩⟩
      · exact ih hranged

theorem Ranged.ir (hranged : engine.Ranged) {frame : IrFrame}
    (hframe : ∀ point ∈ frame.points.toList, point.IsI32) :
    (engine.ir frame).1.Ranged ∧
      (Exact (engine.irOps frame) ↔ engine.Clear (.ir frame)) := by
  have hpoint : ∀ found, engine.pointer.selectIr frame = some found → found.IsI32 :=
    fun found hfound => isI32_selectIrPoint hframe hfound
  have hmoved : (engine.irPointer frame).1.Ranged := by
    unfold irPointer
    split
    · exact ⟨ranged_updateIr hranged.pointer hpoint, hranged.aim⟩
    · exact hranged
  refine ⟨⟨hmoved.pointer, ranged_call hmoved.aim (.ir (engine.pointer.selectIr frame))⟩, ?_⟩
  rw [irOps, exact_append, exact_append, exact_selectIrPoint_iff hframe,
    hranged.aim.exact_processIr_iff hpoint, Clear, and_assoc]
  refine and_congr_right fun hselects => and_congr_left fun _ => ?_
  split
  · next hdesktop =>
    rw [exact_append, exact_selectIrPoint_iff hframe,
      hranged.pointer.exact_updateIr_iff hpoint]
    exact ⟨fun hexact _ => hexact.2, fun hfollows => ⟨hselects, hfollows hdesktop⟩⟩
  · next hgamepad =>
    exact iff_of_true exact_nil fun hdesktop => absurd hdesktop hgamepad

theorem Ranged.motion (hranged : engine.Ranged) (kind : MotionKind) {axes : Vector Abs3 8}
    (haxes : ∀ value ∈ axes, value.IsI32) : (engine.motion kind axes).1.Ranged ∧
      (Exact (engine.motionOps kind axes) ↔ engine.Clear (.motion kind axes)) := by
  obtain ⟨hx, hy, _⟩ : (primary axes).IsI32 := haxes _ (Vector.getElem_mem _)
  have hmapped : ∀ kind, Exact (if needsGamepad engine.profile engine.config.get then
      mapMotionOps kind axes else []) := by
    intro kind
    split
    · exact exact_mapMotion kind haxes
    · exact exact_nil
  cases kind with
  | accel =>
      exact ⟨⟨hranged.pointer, ranged_call hranged.aim (.accelerometer _ _ _)⟩,
        (exact_append.trans (and_iff_right (hmapped .accel))).trans
          hranged.aim.exact_processAccelerometer_iff⟩
  | motionPlus =>
      exact ⟨⟨hranged.pointer, ranged_call hranged.aim (.motionPlus _ _ (primary axes).z)⟩,
        (exact_append.trans (and_iff_right (hmapped .motionPlus))).trans
          (hranged.aim.exact_processMotionPlus_iff hx hy)⟩
  | _ => exact ⟨hranged, iff_of_true (exact_append.mpr ⟨hmapped _, exact_nil⟩) trivial⟩

/-- One step is exact exactly when its input is clear. -/
theorem Ranged.process (hranged : engine.Ranged) {input : EngineInput} (hinput : input.IsI32) :
    (engine.process input).1.Ranged ∧
      (Exact (engine.operations input) ↔ engine.Clear input) := by
  cases input with
  | key source button state =>
      obtain ⟨hnext, hexact⟩ := hranged.key source button state
      exact ⟨hnext, iff_of_true hexact trivial⟩
  | motion kind axes => exact hranged.motion kind hinput
  | ir frame => exact hranged.ir hinput
  | sourceRemoved source =>
      obtain ⟨hnext, hexact⟩ := hranged.releaseAll (engine.held source) source Button.all
      exact ⟨hnext, iff_of_true hexact trivial⟩
  | pointerTick =>
      refine ⟨?_, iff_of_true exact_nil trivial⟩
      rw [process_pointerTick]
      exact hranged
  | reset =>
      obtain ⟨⟨hspeed, hirSpeed, hsmoothing, _, _⟩, haim⟩ := hranged
      exact ⟨⟨⟨hspeed, hirSpeed, hsmoothing, by change IsI32 0; decide,
        by change IsI32 0; decide⟩, ranged_call haim .resetSession⟩, iff_of_true exact_nil trivial⟩

theorem Ranged.along_iff (hranged : engine.Ranged) {inputs : List EngineInput}
    (hinputs : ∀ input ∈ inputs, input.IsI32) :
    Along (fun engine input => Exact (engine.operations input)) engine inputs ↔
      Along Clear engine inputs := by
  induction inputs generalizing engine with
  | nil => exact Iff.rfl
  | cons input inputs ih =>
      obtain ⟨hinput, hrest⟩ := List.forall_mem_cons.mp hinputs
      obtain ⟨hnext, hstep⟩ := hranged.process hinput
      exact and_congr hstep (ih hnext hrest)

end engine

/-- A run of the engine leaves no machine type exactly when every input of it is clear. -/
theorem process_exact_iff {config : ValidatedConfig} {inputs : List EngineInput}
    (hscreen : config.get.ScreenIsI32) (hinputs : ∀ input ∈ inputs, input.IsI32)
    (profile : Profile) :
    Along (fun engine input => Exact (engine.operations input)) (new config profile) inputs ↔
      Along Clear (new config profile) inputs :=
  (ranged_new config profile hscreen).along_iff hinputs

/-- The least sample of a MotionPlus axis. -/
def leastMotionPlus : List EngineInput :=
  [.motion .motionPlus (Vector.replicate 8 ⟨-2147483648, 0, 0⟩)]

theorem leastMotionPlus_isI32 : ∀ input ∈ leastMotionPlus, input.IsI32 := by
  intro input hinput
  rw [List.mem_singleton.mp hinput]
  intro value hvalue
  rw [(Vector.mem_replicate.mp hvalue).2]
  exact ⟨by decide, by decide, by decide⟩

/-- A sensor without a bias takes it. -/
theorem process_exact_unbiased :
    Along (fun engine input => Exact (engine.operations input)) (new aimOnB .gamepad)
      leastMotionPlus := by
  refine (process_exact_iff (fun s hs => by cases hs) leastMotionPlus_isI32 .gamepad).mpr
    ⟨?_, trivial⟩
  intro _ c hc
  cases hc

/-- An aim with a bias of one. -/
def biased : ValidatedConfig :=
  ⟨{ aimMode := .mouse, aimSource := .motionPlus, aimMotionPlusBias := some ⟨1, 0, 0, 7⟩ },
    by decide⟩

/-- The least sample less the bias has no place in 32 bits. -/
theorem process_exact_biased :
    ¬∀ (config : ValidatedConfig) (profile : Profile) (inputs : List EngineInput),
      config.get.ScreenIsI32 → (∀ input ∈ inputs, input.IsI32) →
      Along (fun engine input => Exact (engine.operations input)) (new config profile) inputs := by
  intro hexact
  obtain ⟨hstep, _⟩ := hexact biased .desktop leastMotionPlus (fun s hs => by cases hs)
    leastMotionPlus_isI32
  exact absurd hstep (by decide)

end DeviceEngine

end Wiiland
