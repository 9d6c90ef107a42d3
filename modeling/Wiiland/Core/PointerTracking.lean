/-
The range of the infrared pointer.  Smoothing moves the tracked position towards the
point as long as the weighted sum survives its narrowing to 32 bits.
-/
import Wiiland.Core.Pointer
import Wiiland.Lib.Mean

namespace Wiiland

/-- What `smooth_axis` narrows and divides. -/
def weightedSum (previous current smoothing : Int) : Int :=
  previous * smoothing + current * (100 - smoothing)

/-- The weighted sum is in the range of 32 bits, or the multiple of the range that the
narrowing takes off does not carry it past the farther coordinate. -/
def Narrows (previous current smoothing : Int) : Prop :=
  let total := weightedSum previous current smoothing
  smoothing = 0 ∨ Wrap.IsI32 total ∨
    2147483647 < total ∧ (min previous current - 1) * 100 < Wrap.i32 total ∧
      (0 < min previous current → min previous current * 100 ≤ Wrap.i32 total) ∨
    total < -2147483648 ∧ Wrap.i32 total < (max previous current + 1) * 100 ∧
      (max previous current < 0 → Wrap.i32 total ≤ max previous current * 100)

section axis

variable {previous current smoothing : Int}

theorem smoothAxis_eq (hsmoothing : 0 ≤ smoothing ∧ smoothing ≤ 95) (hweighted : smoothing ≠ 0) :
    smoothAxis previous current smoothing =
      (Wrap.i32 (weightedSum previous current smoothing)).tdiv 100 := by
  rw [smoothAxis, if_neg hweighted,
    Wrap.i32_eq (by omega : -2147483648 ≤ 100 - smoothing) (by omega), weightedSum]

/-- A smoothed coordinate is between the last one and the point exactly when the weighted
sum survives its narrowing. -/
theorem smoothAxis_mem_iff (hsmoothing : 0 ≤ smoothing ∧ smoothing ≤ 95) :
    smoothAxis previous current smoothing ∈ Set.uIcc previous current ↔
      Narrows previous current smoothing := by
  rcases eq_or_ne smoothing 0 with rfl | hweighted
  · rw [smoothAxis, if_pos rfl]
    exact iff_of_true Set.right_mem_uIcc (.inl rfl)
  rw [smoothAxis_eq hsmoothing hweighted]
  have hmem := @Mean.weighted_mem 100 previous current smoothing hsmoothing.1 (by omega)
  change weightedSum previous current smoothing ∈ _ at hmem
  rw [Set.mem_uIcc] at hmem
  simp only [Narrows, hweighted, false_or]
  generalize weightedSum previous current smoothing = total at *
  have hexact : Wrap.IsI32 total → Wrap.i32 total = total :=
    fun hfits => Wrap.i32_eq hfits.1 (Int.lt_add_one_iff.mpr hfits.2)
  have hrange := Wrap.isI32_i32 total
  rw [Wrap.IsI32] at *
  rw [Set.uIcc, Set.mem_Icc, Mean.le_tdiv_iff (by decide), Mean.tdiv_le_iff (by decide)]
  change ((min previous current - 1) * 100 < _ ∧ (0 < min previous current → _)) ∧
    _ < (max previous current + 1) * 100 ∧ (max previous current < 0 → _) ↔ _
  generalize Wrap.i32 total = narrowed at *
  rcases le_total previous current with hle | hle
  · rw [min_eq_left hle, max_eq_right hle]
    omega
  · rw [min_eq_right hle, max_eq_left hle]
    omega

end axis

namespace PointerState

/-- The pointer after the points of a run. -/
def follow (pointer : PointerState) : List (Option IrPoint) → PointerState
  | [] => pointer
  | point :: points => (pointer.updateIr point).1.follow points

/-- The smoothing of one point narrows well. -/
def StepNarrows (pointer : PointerState) (point : Option IrPoint) : Prop :=
  pointer.irActive = true → ∀ found, point.filter IrPoint.valid = some found →
    Narrows pointer.irX found.x pointer.irSmoothing ∧
      Narrows pointer.irY found.y pointer.irSmoothing

def RunNarrows (pointer : PointerState) : List (Option IrPoint) → Prop
  | [] => True
  | point :: points =>
      pointer.StepNarrows point ∧ (pointer.updateIr point).1.RunNarrows points

/-- Points to be tracked, all within a box. -/
def Inside (left right top bottom : Int) (points : List (Option IrPoint)) : Prop :=
  ∀ point ∈ points, ∃ found, point = some found ∧ found.valid = true ∧
    (left ≤ found.x ∧ found.x ≤ right) ∧ top ≤ found.y ∧ found.y ≤ bottom

/-- The pointer tracks a position within a box. -/
structure Tracks (left right top bottom : Int) (pointer : PointerState) : Prop where
  active : pointer.irActive = true
  x : left ≤ pointer.irX ∧ pointer.irX ≤ right
  y : top ≤ pointer.irY ∧ pointer.irY ≤ bottom

/-- The tracked position stays within every box around the points since it was acquired, and
does not move for the point that it is at. -/
structure Contains (pointer : PointerState) (points : List (Option IrPoint)) : Prop where
  box : ∀ before segment after, points = before ++ segment ++ after → segment ≠ [] →
    (pointer.follow before).irActive = false → ∀ left right top bottom,
    Inside left right top bottom segment →
    Tracks left right top bottom (pointer.follow (before ++ segment))
  still : ∀ before found after, points = before ++ some found :: after → found.valid = true →
    (pointer.follow before).irActive = true → (pointer.follow before).irX = found.x →
    (pointer.follow before).irY = found.y →
    (pointer.follow before).updateIr (some found) = (pointer.follow before, ⟨0, 0⟩)

section run

variable {pointer : PointerState} {left right top bottom : Int}

theorem updateIr_irSmoothing (pointer : PointerState) (point : Option IrPoint) :
    (pointer.updateIr point).1.irSmoothing = pointer.irSmoothing := by
  unfold updateIr
  cases point.filter IrPoint.valid with
  | none => rfl
  | some found =>
      simp only
      split <;> rfl

theorem follow_append (pointer : PointerState) (first second : List (Option IrPoint)) :
    pointer.follow (first ++ second) = (pointer.follow first).follow second := by
  induction first generalizing pointer with
  | nil => rfl
  | cons point first ih => exact ih _

theorem runNarrows_append {first second : List (Option IrPoint)} :
    pointer.RunNarrows (first ++ second) ↔
      pointer.RunNarrows first ∧ (pointer.follow first).RunNarrows second := by
  induction first generalizing pointer with
  | nil => exact (and_iff_right trivial).symm
  | cons point first ih =>
      rw [List.cons_append, RunNarrows, RunNarrows, ih, and_assoc]
      rfl

theorem follow_irSmoothing (pointer : PointerState) (points : List (Option IrPoint)) :
    (pointer.follow points).irSmoothing = pointer.irSmoothing := by
  induction points generalizing pointer with
  | nil => rfl
  | cons point points ih => exact (ih _).trans (updateIr_irSmoothing pointer point)

theorem mem_of_uIcc {low high first second value : Int} (hfirst : low ≤ first ∧ first ≤ high)
    (hsecond : low ≤ second ∧ second ≤ high) (hmem : value ∈ Set.uIcc first second) :
    low ≤ value ∧ value ≤ high := by
  rw [Set.mem_uIcc] at hmem
  omega

/-- A point acquires the pointer where it is. -/
theorem updateIr_acquires {found : IrPoint} (hidle : pointer.irActive = false)
    (hvalid : found.valid = true) : (pointer.updateIr (some found)).1 =
      { pointer with irX := found.x, irY := found.y, irActive := true } := by
  rw [updateIr, Option.filter_some_pos hvalid]
  simp only [hidle]
  rfl

/-- The point moves an active pointer towards it. -/
theorem updateIr_moves {found : IrPoint} (hactive : pointer.irActive = true)
    (hvalid : found.valid = true) : pointer.updateIr (some found) =
      let x := smoothAxis pointer.irX found.x pointer.irSmoothing
      let y := smoothAxis pointer.irY found.y pointer.irSmoothing
      ({ pointer with irX := x, irY := y, irActive := true },
        ⟨applyDeadzone (scaledDelta pointer.irX x pointer.irSpeed) pointer.irDeadzone,
          applyDeadzone (scaledDelta pointer.irY y pointer.irSpeed) pointer.irDeadzone⟩) := by
  rw [updateIr, Option.filter_some_pos hvalid]
  simp only [hactive]
  rfl

/-- One point inside a box keeps the tracked position inside. -/
theorem Tracks.updateIr (hsmoothing : 0 ≤ pointer.irSmoothing ∧ pointer.irSmoothing ≤ 95)
    (htracks : Tracks left right top bottom pointer) {found : IrPoint}
    (hvalid : found.valid = true) (hx : left ≤ found.x ∧ found.x ≤ right)
    (hy : top ≤ found.y ∧ found.y ≤ bottom) (hnarrows : pointer.StepNarrows (some found)) :
    Tracks left right top bottom (pointer.updateIr (some found)).1 := by
  obtain ⟨hnarrowsX, hnarrowsY⟩ :=
    hnarrows htracks.active found (Option.filter_some_pos hvalid)
  rw [updateIr_moves htracks.active hvalid]
  exact ⟨rfl, mem_of_uIcc htracks.x hx ((smoothAxis_mem_iff hsmoothing).mpr hnarrowsX),
    mem_of_uIcc htracks.y hy ((smoothAxis_mem_iff hsmoothing).mpr hnarrowsY)⟩

theorem Tracks.follow (hsmoothing : 0 ≤ pointer.irSmoothing ∧ pointer.irSmoothing ≤ 95)
    (htracks : Tracks left right top bottom pointer) {points : List (Option IrPoint)}
    (hinside : Inside left right top bottom points) (hnarrows : pointer.RunNarrows points) :
    Tracks left right top bottom (pointer.follow points) := by
  induction points generalizing pointer with
  | nil => exact htracks
  | cons point points ih =>
      obtain ⟨⟨found, rfl, hvalid, hx, hy⟩, hrest⟩ := List.forall_mem_cons.mp hinside
      refine ih ?_ (htracks.updateIr hsmoothing hvalid hx hy hnarrows.1) hrest hnarrows.2
      rw [updateIr_irSmoothing]
      exact hsmoothing

theorem scaledDelta_self (start speed : Int) : scaledDelta start start speed = 0 := by
  rw [scaledDelta, Int.sub_self, show Wrap.i32 0 = 0 from rfl, Int.zero_mul]
  rfl

theorem applyDeadzone_zero (deadzone : Int) : applyDeadzone 0 deadzone = 0 := by
  unfold applyDeadzone
  split <;> rfl

theorem smoothAxis_self {position smoothing : Int} (hsmoothing : 0 ≤ smoothing ∧ smoothing ≤ 95)
    (hnarrows : Narrows position position smoothing) :
    smoothAxis position position smoothing = position := by
  have hmem := (smoothAxis_mem_iff hsmoothing).mpr hnarrows
  rwa [Set.uIcc_self, Set.mem_singleton_iff] at hmem

/-- In a run whose smoothing narrows well the pointer stays within the points. -/
theorem contains_of_narrows (hsmoothing : 0 ≤ pointer.irSmoothing ∧ pointer.irSmoothing ≤ 95)
    {points : List (Option IrPoint)} (hnarrows : pointer.RunNarrows points) :
    Contains pointer points where
  box before segment after hsplit hsegment hidle left right top bottom hinside := by
    rw [hsplit, runNarrows_append, runNarrows_append] at hnarrows
    cases segment with
    | nil => exact absurd rfl hsegment
    | cons point segment =>
        obtain ⟨⟨found, rfl, hvalid, hx, hy⟩, hrest⟩ := List.forall_mem_cons.mp hinside
        have hacquired : Tracks left right top bottom
            ((pointer.follow before).updateIr (some found)).1 := by
          rw [updateIr_acquires hidle hvalid]
          exact ⟨rfl, hx, hy⟩
        rw [follow_append]
        refine hacquired.follow ?_ hrest hnarrows.1.2.2
        rw [updateIr_irSmoothing, follow_irSmoothing]
        exact hsmoothing
  still before found after hsplit hvalid hactive hx hy := by
    rw [hsplit, runNarrows_append] at hnarrows
    obtain ⟨hnarrowsX, hnarrowsY⟩ :=
      hnarrows.2.1 hactive found (Option.filter_some_pos hvalid)
    have hrange : 0 ≤ (pointer.follow before).irSmoothing ∧
        (pointer.follow before).irSmoothing ≤ 95 := by
      rw [follow_irSmoothing]
      exact hsmoothing
    rw [updateIr_moves hactive hvalid]
    rw [← hx] at hnarrowsX ⊢
    rw [← hy] at hnarrowsY ⊢
    simp only [smoothAxis_self hrange hnarrowsX, smoothAxis_self hrange hnarrowsY,
      scaledDelta_self, applyDeadzone_zero]
    rw [← hactive]

end run

end PointerState

/-- Smoothing stays in the range of its input exactly where the weighted sum narrows well,
and a run that narrows well stays within its points. -/
theorem pointer_smoothing (speed irSpeed irDeadzone irSmoothing : Int) (tracking : IrTracking)
    (hsmoothing : 0 ≤ irSmoothing ∧ irSmoothing ≤ 95) :
    (∀ previous current, smoothAxis previous current irSmoothing ∈ Set.uIcc previous current ↔
      Narrows previous current irSmoothing) ∧
    ∀ points, (PointerState.new speed irSpeed irDeadzone irSmoothing tracking).RunNarrows points →
      (PointerState.new speed irSpeed irDeadzone irSmoothing tracking).Contains points :=
  ⟨fun _ _ => smoothAxis_mem_iff hsmoothing,
    fun _ hnarrows => PointerState.contains_of_narrows hsmoothing hnarrows⟩

/-- Two points of a camera. -/
theorem pointer_smoothing_near :
    (PointerState.new 16 8 0 25 .first).Contains
      [some ⟨true, 512, 384⟩, some ⟨true, 600, 300⟩] := by
  refine (pointer_smoothing 16 8 0 25 .first (by decide)).2 _ ⟨?_, ?_, trivial⟩
  · intro hactive
    cases hactive
  · intro _ found hfound
    cases hfound
    exact ⟨.inr (.inl (by decide)), .inr (.inl (by decide))⟩

/-- A point far out that is tracked twice throws the pointer to the other side. -/
theorem pointer_smoothing_far :
    ¬(∀ previous current smoothing, Wrap.IsI32 previous → Wrap.IsI32 current →
      0 ≤ smoothing → smoothing ≤ 95 →
      smoothAxis previous current smoothing ∈ Set.uIcc previous current) ∧
    ¬(PointerState.new 16 8 0 25 .first).Contains
      [some ⟨true, 30000000, 0⟩, some ⟨true, 30000000, 0⟩] := by
  constructor
  · intro hmem
    have hfar := hmem 30000000 30000000 25 (by decide) (by decide) (by decide) (by decide)
    rw [Set.uIcc_self, Set.mem_singleton_iff] at hfar
    exact absurd hfar (by decide)
  · intro hcontains
    have hstill := hcontains.still [some ⟨true, 30000000, 0⟩] ⟨true, 30000000, 0⟩ [] rfl rfl rfl
      rfl rfl
    exact absurd (congrArg Prod.snd hstill) (by decide)

end Wiiland
