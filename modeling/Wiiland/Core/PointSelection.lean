/-
What an infrared frame selects.  The compacted array and its two loops come down to the
valid points, their mean and their first farthest pair.
-/
import Mathlib.Algebra.BigOperators.Group.List.Basic
import Wiiland.Core.Pointer
import Wiiland.Lib.FirstMax
import Wiiland.Lib.Mean

namespace Wiiland

/-- The coordinates fit in 16 bits, signed or unsigned. -/
structure IrPoint.Fits16 (point : IrPoint) : Prop where
  x : -32768 ≤ point.x ∧ point.x ≤ 65535
  y : -32768 ≤ point.y ∧ point.y ≤ 65535

namespace IrFrame

def validPoints (frame : IrFrame) : List IrPoint := frame.points.toList.filter IrPoint.valid

/-- The frames have the same valid points, at the same places. -/
def SameValid (first second : IrFrame) : Prop :=
  ∀ index, (first.points.get index).valid = (second.points.get index).valid ∧
    ((first.points.get index).valid = true → first.points.get index = second.points.get index)

theorem sameValid_toList {first second : IrFrame} (hsame : first.SameValid second) :
    List.Forall₂ (fun one two : IrPoint => one.valid = two.valid ∧ (one.valid = true → one = two))
      first.points.toList second.points.toList := by
  rw [List.forall₂_iff_get]
  refine ⟨by rw [Vector.length_toList, Vector.length_toList], fun index hfirst hsecond => ?_⟩
  rw [Vector.length_toList] at hfirst
  simpa [Vector.get] using hsame ⟨index, hfirst⟩

/-- Nothing of an invalid point is kept but its place. -/
theorem validPoints_congr {first second : IrFrame} (hsame : first.SameValid second) :
    first.validPoints = second.validPoints := by
  have hpoints := sameValid_toList hsame
  rw [validPoints, validPoints]
  generalize first.points.toList = one at hpoints
  generalize second.points.toList = two at hpoints
  induction hpoints with
  | nil => rfl
  | @cons left right ones twos hhead _ ih =>
      obtain ⟨hvalid, hequal⟩ := hhead
      rw [List.filter_cons, List.filter_cons, ih, ← hvalid]
      split
      · next hleft => rw [hequal hleft]
      · rfl

end IrFrame

/-- Two indices of valid points, in the order in which the loops compare them. -/
def comparedPairs (count : Nat) : List (Nat × Nat) :=
  (List.range count).flatMap fun i => (List.range' (i + 1) (count - (i + 1))).map fun j => (i, j)

/-- The exact squared distance of two points. -/
def distance (points : List IrPoint) (pair : Nat × Nat) : Int :=
  ((points.getD pair.1 {}).x - (points.getD pair.2 {}).x) ^ 2 +
    ((points.getD pair.1 {}).y - (points.getD pair.2 {}).y) ^ 2

theorem mem_comparedPairs {count : Nat} {pair : Nat × Nat} :
    pair ∈ comparedPairs count ↔ pair.1 < pair.2 ∧ pair.2 < count := by
  obtain ⟨i, j⟩ := pair
  simp only [comparedPairs, List.mem_flatMap, List.mem_range, List.mem_map, List.mem_range'_1,
    Prod.mk.injEq]
  constructor
  · rintro ⟨_, hi, _, hj, rfl, rfl⟩
    omega
  · intro hpair
    exact ⟨i, by omega, j, by omega, rfl, rfl⟩

/-- The loops go through the pairs in lexicographic order. -/
theorem comparedPairs_sorted (count : Nat) :
    (comparedPairs count).Pairwise fun first second =>
      first.1 < second.1 ∨ first.1 = second.1 ∧ first.2 < second.2 := by
  rw [comparedPairs, List.pairwise_flatMap]
  refine ⟨fun i _ => ?_, ?_⟩
  · rw [List.pairwise_map]
    have hafter := @List.pairwise_lt_range' (i + 1) (count - (i + 1)) 1 Nat.one_pos
    exact hafter.imp fun hlt => Or.inr ⟨rfl, hlt⟩
  · refine List.pairwise_lt_range.imp fun hlt one hone two htwo => Or.inl ?_
    obtain ⟨_, _, rfl⟩ := List.mem_map.mp hone
    obtain ⟨_, _, rfl⟩ := List.mem_map.mp htwo
    exact hlt

variable {points : List IrPoint}

theorem fits16_getD (hfits : ∀ point ∈ points, point.Fits16) (index : Nat) :
    (points.getD index {}).Fits16 := by
  rw [List.getD_eq_getElem?_getD]
  rcases hpoint : points[index]? with _ | point
  · exact ⟨by decide, by decide⟩
  · exact hfits point (List.mem_of_getElem? hpoint)

/-- The distances of points with 16-bit coordinates are computed exactly. -/
theorem squaredDistance_eq {first second : IrPoint} (hfirst : first.Fits16)
    (hsecond : second.Fits16) : squaredDistance first second =
      (first.x - second.x) ^ 2 + (first.y - second.y) ^ 2 := by
  have hsquare : ∀ one two : Int, -32768 ≤ one ∧ one ≤ 65535 → -32768 ≤ two ∧ two ≤ 65535 →
      0 ≤ (one - two) * (one - two) ∧ (one - two) * (one - two) ≤ 98303 * 98303 := by
    intro one two hone htwo
    have habs : |one - two| ≤ |(98303 : Int)| := by
      rw [abs_le]
      have hself : |(98303 : Int)| = 98303 := rfl
      omega
    exact ⟨mul_self_nonneg _, abs_le_iff_mul_self_le.mp habs⟩
  have hx := hsquare _ _ hfirst.x hsecond.x
  have hy := hsquare _ _ hfirst.y hsecond.y
  rw [squaredDistance, pow_two, pow_two]
  generalize (first.x - second.x) * (first.x - second.x) = dx at hx ⊢
  generalize (first.y - second.y) * (first.y - second.y) = dy at hy ⊢
  rw [@Wrap.i64_eq dx, @Wrap.i64_eq dy, Wrap.i64_eq] <;> rw [Wrap.IsI64] <;> omega

/-- The best pair so far, as its indices with its distance. -/
def IrPair.kept (pair : IrPair) : (Nat × Nat) × Int := ((pair.a, pair.b), pair.best)

theorem kept_consider (hfits : ∀ point ∈ points, point.Fits16) (pair : IrPair) (i j : Nat) :
    (pair.consider points i j).kept = FirstMax.keepMax (distance points) pair.kept (i, j) := by
  have hexact : squaredDistance (points.getD i {}) (points.getD j {}) = distance points (i, j) :=
    squaredDistance_eq (fits16_getD hfits i) (fits16_getD hfits j)
  by_cases hbetter : pair.best < distance points (i, j)
  · simp only [IrPair.consider, IrPair.kept, hexact, if_pos hbetter]
    exact (if_pos hbetter).symm
  · simp only [IrPair.consider, IrPair.kept, hexact, if_neg hbetter]
    exact (if_neg hbetter).symm

/-- The two loops are one loop over the pairs. -/
theorem kept_farthestPair (hfits : ∀ point ∈ points, point.Fits16) :
    (farthestPair points).kept =
      (comparedPairs points.length).foldl (FirstMax.keepMax (distance points)) ((0, 1), -1) := by
  have hone : ∀ (pair : IrPair) (items : List (Nat × Nat)),
      (items.foldl (fun pair item => pair.consider points item.1 item.2) pair).kept =
        items.foldl (FirstMax.keepMax (distance points)) pair.kept := by
    intro pair items
    induction items generalizing pair with
    | nil => rfl
    | cons item items ih => rw [List.foldl_cons, ih, kept_consider hfits, List.foldl_cons]
  rw [farthestPair, comparedPairs]
  have hmerge := hone {} (comparedPairs points.length)
  rw [comparedPairs, List.foldl_flatMap] at hmerge
  simp only [List.foldl_map] at hmerge
  exact hmerge

/-- Two or more points have a first farthest pair, and the loops find it. -/
theorem farthestPair_first (hfits : ∀ point ∈ points, point.Fits16) (hmany : 2 ≤ points.length) :
    ∃ pair, (farthestPair points).a = pair.1 ∧ (farthestPair points).b = pair.2 ∧
      FirstMax.IsFirstMax (distance points) (comparedPairs points.length) pair := by
  have hsome : comparedPairs points.length ≠ [] :=
    List.ne_nil_of_mem ((@mem_comparedPairs points.length (0, 1)).mpr ⟨Nat.one_pos, hmany⟩)
  have hbelow : ∀ pair ∈ comparedPairs points.length, -1 < distance points pair :=
    fun pair _ => (by decide : (-1 : Int) < 0).trans_le (add_nonneg (sq_nonneg _) (sq_nonneg _))
  obtain ⟨pair, hkept, hfirst⟩ := FirstMax.foldl_keepMax_below hsome hbelow (0, 1)
  rw [← kept_farthestPair hfits] at hkept
  exact ⟨pair, congrArg (fun kept => kept.1.1) hkept, congrArg (fun kept => kept.1.2) hkept, hfirst⟩

theorem midpoint_eq {first second : Int} (hfirst : -32768 ≤ first ∧ first ≤ 65535)
    (hsecond : -32768 ≤ second ∧ second ≤ 65535) :
    midpoint first second = (first + second).tdiv 2 := by
  rw [midpoint, Wrap.i32_eq (by omega) (by omega)]

/-- The sum of a loop over the points. -/
theorem foldl_coordinate (coordinate : IrPoint → Int) (points : List IrPoint) :
    points.foldl (fun sum point => sum + coordinate point) 0 = (points.map coordinate).sum := by
  rw [List.sum_eq_foldl, List.foldl_map]

/-- The mean of some coordinates stays between their bounds. -/
theorem mean_mem {coordinates : List Int} {low high : Int} (hsome : coordinates ≠ [])
    (hwithin : ∀ value ∈ coordinates, low ≤ value ∧ value ≤ high) :
    low ≤ coordinates.sum.tdiv coordinates.length ∧
      coordinates.sum.tdiv coordinates.length ≤ high := by
  have hsum : low * coordinates.length ≤ coordinates.sum ∧
      coordinates.sum ≤ high * coordinates.length := by
    clear hsome
    induction coordinates with
    | nil => simp
    | cons value rest ih =>
        obtain ⟨hlow, hhigh⟩ := ih fun other hother => hwithin other (List.mem_cons_of_mem _ hother)
        obtain ⟨hleast, hgreatest⟩ := hwithin value List.mem_cons_self
        rw [List.sum_cons, List.length_cons, Nat.cast_succ, mul_add, mul_add, mul_one, mul_one]
        omega
  exact Mean.tdiv_mem_Icc (Nat.cast_pos.mpr (List.length_pos_iff.mpr hsome)) hsum.1 hsum.2

/-- A value is between any bounds of the coordinates of some points. -/
def Between (coordinate : IrPoint → Int) (points : List IrPoint) (value : Int) : Prop :=
  ∀ low high, (∀ point ∈ points, low ≤ coordinate point ∧ coordinate point ≤ high) →
    low ≤ value ∧ value ≤ high

theorem between_of_mem (coordinate : IrPoint → Int) {point : IrPoint} (hmem : point ∈ points) :
    Between coordinate points (coordinate point) := fun _ _ hwithin => hwithin point hmem

theorem between_mean (coordinate : IrPoint → Int) (hsome : points ≠ []) :
    Between coordinate points ((points.map coordinate).sum.tdiv points.length) := by
  intro low high hwithin
  have hmean := @mean_mem (points.map coordinate) low high (List.map_eq_nil_iff.not.mpr hsome)
    (List.forall_mem_map.mpr hwithin)
  rwa [List.length_map] at hmean

theorem between_midpoint (coordinate : IrPoint → Int) {first second : IrPoint}
    (hfirst : first ∈ points) (hsecond : second ∈ points) :
    Between coordinate points ((coordinate first + coordinate second).tdiv 2) := by
  intro low high hwithin
  have hleft := hwithin first hfirst
  have hright := hwithin second hsecond
  exact Mean.tdiv_mem_Icc (by decide) (by omega) (by omega)

/-- The pair of valid points that the dual mode takes the midpoint of. -/
structure FarthestFirst (points : List IrPoint) (pair : Nat × Nat) : Prop where
  ordered : pair.1 < pair.2
  within : pair.2 < points.length
  farthest : ∀ other : Nat × Nat, other.1 < other.2 → other.2 < points.length →
    distance points other ≤ distance points pair
  first : ∀ other : Nat × Nat, other.1 < other.2 → other.2 < points.length →
    distance points other = distance points pair →
      other = pair ∨ pair.1 < other.1 ∨ pair.1 = other.1 ∧ pair.2 < other.2

theorem farthestFirst_of_firstMax {pair : Nat × Nat}
    (hfirst : FirstMax.IsFirstMax (distance points) (comparedPairs points.length) pair) :
    FarthestFirst points pair := by
  obtain ⟨hordered, hwithin⟩ := mem_comparedPairs.mp hfirst.mem
  exact ⟨hordered, hwithin, fun other hother hlength =>
      hfirst.le (mem_comparedPairs.mpr ⟨hother, hlength⟩),
    fun other hother hlength htie =>
      hfirst.first (comparedPairs_sorted _) (mem_comparedPairs.mpr ⟨hother, hlength⟩) htie⟩

theorem mem_getD {index : Nat} (hindex : index < points.length) :
    points.getD index {} ∈ points := by
  rw [List.getD_eq_getElem?_getD, List.getElem?_eq_getElem hindex]
  exact List.getElem_mem hindex

section selection

variable {frame : IrFrame}

theorem selectIrPoint_eq_none (tracking : IrTracking) :
    selectIrPoint frame tracking = none ↔ frame.validPoints = [] := by
  unfold selectIrPoint
  rw [← IrFrame.validPoints]
  simp only [List.length_eq_zero_iff]
  by_cases hnone : frame.validPoints = []
  · rw [if_pos hnone]
    exact iff_of_true rfl hnone
  · rw [if_neg hnone]
    refine iff_of_false (fun hselected => ?_) hnone
    cases tracking with
    | first | centroid => cases hselected
    | dual =>
        simp only at hselected
        split at hselected <;> cases hselected

theorem selectIrPoint_first :
    selectIrPoint frame .first = frame.points.toList.find? IrPoint.valid := by
  rw [selectIrPoint, ← List.head?_filter, ← IrFrame.validPoints]
  cases frame.validPoints with
  | nil => rfl
  | cons point rest => rfl

theorem selectIrPoint_centroid (hsome : frame.validPoints ≠ [])
    (hfits : ∀ point ∈ frame.validPoints, point.Fits16) :
    selectIrPoint frame .centroid = some ⟨true,
      (frame.validPoints.map IrPoint.x).sum.tdiv frame.validPoints.length,
      (frame.validPoints.map IrPoint.y).sum.tdiv frame.validPoints.length⟩ := by
  have hx := between_mean IrPoint.x hsome (-32768) 65535 fun point hmem => (hfits point hmem).x
  have hy := between_mean IrPoint.y hsome (-32768) 65535 fun point hmem => (hfits point hmem).y
  rw [selectIrPoint, ← IrFrame.validPoints]
  simp only [List.length_eq_zero_iff]
  rw [if_neg hsome, foldl_coordinate, foldl_coordinate,
    Wrap.i32_eq (hx.1.trans' (by decide)) (hx.2.trans_lt (by decide)),
    Wrap.i32_eq (hy.1.trans' (by decide)) (hy.2.trans_lt (by decide))]

theorem selectIrPoint_dual (hmany : 2 ≤ frame.validPoints.length)
    (hfits : ∀ point ∈ frame.validPoints, point.Fits16) :
    ∃ pair, FarthestFirst frame.validPoints pair ∧
      selectIrPoint frame .dual = some ⟨true,
        ((frame.validPoints.getD pair.1 {}).x + (frame.validPoints.getD pair.2 {}).x).tdiv 2,
        ((frame.validPoints.getD pair.1 {}).y + (frame.validPoints.getD pair.2 {}).y).tdiv 2⟩ := by
  obtain ⟨pair, ha, hb, hfirst⟩ := farthestPair_first hfits hmany
  have hone := fits16_getD hfits pair.1
  have htwo := fits16_getD hfits pair.2
  refine ⟨pair, farthestFirst_of_firstMax hfirst, ?_⟩
  rw [selectIrPoint, ← IrFrame.validPoints]
  simp only
  rw [if_neg (by omega), if_neg (by omega), ha, hb, midpoint_eq hone.x htwo.x,
    midpoint_eq hone.y htwo.y]

theorem selectIrPoint_single {point : IrPoint} (hsingle : frame.validPoints = [point]) :
    selectIrPoint frame .dual = some point := by
  rw [selectIrPoint, ← IrFrame.validPoints, hsingle]
  rfl

/-- What is selected is in the bounding box of the valid points. -/
theorem selectIrPoint_between (hfits : ∀ point ∈ frame.validPoints, point.Fits16)
    {tracking : IrTracking} {point : IrPoint}
    (hselected : selectIrPoint frame tracking = some point) :
    Between IrPoint.x frame.validPoints point.x ∧
      Between IrPoint.y frame.validPoints point.y := by
  have hsome : frame.validPoints ≠ [] := fun hnone => by
    rw [(selectIrPoint_eq_none tracking).mpr hnone] at hselected
    cases hselected
  cases tracking with
  | first =>
      rw [selectIrPoint_first, ← List.head?_filter] at hselected
      have hmem : point ∈ frame.validPoints := List.mem_of_mem_head? hselected
      exact ⟨between_of_mem IrPoint.x hmem, between_of_mem IrPoint.y hmem⟩
  | centroid =>
      rw [selectIrPoint_centroid hsome hfits] at hselected
      cases hselected
      exact ⟨between_mean IrPoint.x hsome, between_mean IrPoint.y hsome⟩
  | dual =>
      by_cases hmany : 2 ≤ frame.validPoints.length
      · obtain ⟨pair, hpair, hdual⟩ := selectIrPoint_dual hmany hfits
        rw [hdual] at hselected
        cases hselected
        have hone := mem_getD (hpair.ordered.trans hpair.within)
        have htwo := mem_getD hpair.within
        exact ⟨between_midpoint IrPoint.x hone htwo, between_midpoint IrPoint.y hone htwo⟩
      · obtain ⟨only, honly⟩ : ∃ only, frame.validPoints = [only] := by
          have hlength := List.length_pos_iff.mpr hsome
          exact List.length_eq_one_iff.mp (by omega)
        rw [selectIrPoint_single honly] at hselected
        cases hselected
        have hmem : point ∈ frame.validPoints := honly ▸ List.mem_singleton_self point
        exact ⟨between_of_mem IrPoint.x hmem, between_of_mem IrPoint.y hmem⟩

/-- Every mode selects what it says, from the valid points alone and within their
bounding box. -/
theorem selectIrPoint_spec (hfits : ∀ point ∈ frame.points.toList, point.Fits16)
    (tracking : IrTracking) :
    (selectIrPoint frame tracking = none ↔
      ∀ point ∈ frame.points.toList, point.valid = false) ∧
    (∀ other : IrFrame, frame.SameValid other →
      selectIrPoint other tracking = selectIrPoint frame tracking) ∧
    selectIrPoint frame .first = frame.points.toList.find? IrPoint.valid ∧
    (frame.validPoints ≠ [] → selectIrPoint frame .centroid = some ⟨true,
      (frame.validPoints.map IrPoint.x).sum.tdiv frame.validPoints.length,
      (frame.validPoints.map IrPoint.y).sum.tdiv frame.validPoints.length⟩) ∧
    (2 ≤ frame.validPoints.length → ∃ pair, FarthestFirst frame.validPoints pair ∧
      selectIrPoint frame .dual = some ⟨true,
        ((frame.validPoints.getD pair.1 {}).x + (frame.validPoints.getD pair.2 {}).x).tdiv 2,
        ((frame.validPoints.getD pair.1 {}).y +
          (frame.validPoints.getD pair.2 {}).y).tdiv 2⟩) ∧
    ∀ point, selectIrPoint frame tracking = some point →
      Between IrPoint.x frame.validPoints point.x ∧
        Between IrPoint.y frame.validPoints point.y := by
  have hvalid : ∀ point ∈ frame.validPoints, point.Fits16 :=
    fun point hmem => hfits point (List.mem_filter.mp hmem).1
  refine ⟨?_, fun other hsame => ?_, selectIrPoint_first,
    fun hsome => selectIrPoint_centroid hsome hvalid,
    fun hmany => selectIrPoint_dual hmany hvalid,
    fun point hselected => selectIrPoint_between hvalid hselected⟩
  · rw [selectIrPoint_eq_none, IrFrame.validPoints, List.filter_eq_nil_iff]
    simp only [Bool.not_eq_true]
  · have hpoints := IrFrame.validPoints_congr hsame
    rw [IrFrame.validPoints, IrFrame.validPoints] at hpoints
    unfold selectIrPoint
    rw [hpoints]

end selection

/-- The frame of the source's own test of the dual mode. -/
def dualFrame : IrFrame := ⟨#v[⟨true, 100, 300⟩, ⟨true, 500, 300⟩, ⟨true, 260, 340⟩, {}]⟩

theorem selectIrPoint_spec_dual :
    ∃ pair, FarthestFirst dualFrame.validPoints pair ∧
      selectIrPoint dualFrame .dual = some ⟨true,
        ((dualFrame.validPoints.getD pair.1 {}).x +
          (dualFrame.validPoints.getD pair.2 {}).x).tdiv 2,
        ((dualFrame.validPoints.getD pair.1 {}).y +
          (dualFrame.validPoints.getD pair.2 {}).y).tdiv 2⟩ := by
  have hfits : ∀ point ∈ dualFrame.points.toList, point.Fits16 := by
    have hall : ∀ point ∈ dualFrame.points.toList,
        (-32768 ≤ point.x ∧ point.x ≤ 65535) ∧ -32768 ≤ point.y ∧ point.y ≤ 65535 := by decide
    exact fun point hmem => ⟨(hall point hmem).1, (hall point hmem).2⟩
  exact (selectIrPoint_spec hfits .dual).2.2.2.2.1 (by decide)

end Wiiland
