/-
The axis scalers as monotone maps onto their targets.  A saturated scaler is the truncated
quotient of the value kept between the ends of its source.
-/
import Wiiland.Core.Aim
import Wiiland.Core.Mapping
import Wiiland.Lib.Mean
import Mathlib.Data.Int.ConditionallyCompleteOrder

namespace Wiiland

open Mapping

section signed

variable {value negativeExtent positiveExtent : Int}

/-- The two halves of a signed axis, each scaled on its own side of zero. -/
theorem scaleSignedAxis_eq (hnegative : 0 < negativeExtent) (hpositive : 0 < positiveExtent)
    (value : Int) :
    scaleSignedAxis value negativeExtent positiveExtent =
      if value < 0 then (max value (-negativeExtent) * 32768).tdiv negativeExtent
      else (min value positiveExtent * 32767).tdiv positiveExtent := by
  rw [scaleSignedAxis, if_neg (by omega)]
  by_cases hleast : value ≤ -negativeExtent
  · rw [if_pos hleast, if_pos (by omega), max_eq_right hleast, neg_mul, Int.neg_tdiv,
      Int.mul_tdiv_cancel_left _ hnegative.ne']
    rfl
  rw [if_neg hleast]
  by_cases hgreatest : positiveExtent ≤ value
  · rw [if_pos hgreatest, if_neg (by omega), min_eq_right hgreatest,
      Int.mul_tdiv_cancel_left _ hpositive.ne']
    rfl
  rw [if_neg hgreatest, max_eq_left (not_le.mp hleast).le, min_eq_left (not_le.mp hgreatest).le]
  by_cases hsign : value < 0
  · obtain ⟨hlow, hhigh⟩ := @Mean.tdiv_mem_Icc (-32768) 0 (value * 32768) negativeExtent
      hnegative (by omega) (by omega)
    rw [if_pos hsign, if_pos hsign]
    exact Wrap.i32_eq (hlow.trans' (by decide)) (hhigh.trans_lt (by decide))
  · obtain ⟨hlow, hhigh⟩ := @Mean.tdiv_mem_Icc 0 32767 (value * 32767) positiveExtent
      hpositive (by omega) (by omega)
    rw [if_neg hsign, if_neg hsign]
    exact Wrap.i32_eq (hlow.trans' (by decide)) (hhigh.trans_lt (by decide))

/-- A scaled value has the sign of the value, or is zero. -/
theorem scaleSignedAxis_sign (hnegative : 0 < negativeExtent) (hpositive : 0 < positiveExtent)
    (value : Int) :
    (value ≤ 0 → scaleSignedAxis value negativeExtent positiveExtent ≤ 0) ∧
      (0 ≤ value → 0 ≤ scaleSignedAxis value negativeExtent positiveExtent) := by
  rw [scaleSignedAxis_eq hnegative hpositive]
  split
  · next hsign =>
    refine ⟨fun _ => ?_, fun hnot => absurd hsign (not_lt.mpr hnot)⟩
    exact (Int.tdiv_le_tdiv hnegative (by omega)).trans_eq (Int.zero_tdiv _)
  · next hsign =>
    have hnonneg := Int.tdiv_nonneg (by omega : 0 ≤ min value positiveExtent * 32767) hpositive.le
    refine ⟨fun hzero => ?_, fun _ => hnonneg⟩
    rw [le_antisymm hzero (not_lt.mp hsign), min_eq_left hpositive.le, zero_mul, Int.zero_tdiv]

theorem scaleSignedAxis_monotone (hnegative : 0 < negativeExtent)
    (hpositive : 0 < positiveExtent) :
    Monotone fun value => scaleSignedAxis value negativeExtent positiveExtent := by
  intro first second hle
  rcases lt_or_ge first 0 with hfirst | hfirst
  · rcases lt_or_ge second 0 with hsecond | hsecond
    · simp only [scaleSignedAxis_eq hnegative hpositive, if_pos hfirst, if_pos hsecond]
      exact Int.tdiv_le_tdiv hnegative (by omega)
    · exact ((scaleSignedAxis_sign hnegative hpositive first).1 hfirst.le).trans
        ((scaleSignedAxis_sign hnegative hpositive second).2 hsecond)
  · simp only [scaleSignedAxis_eq hnegative hpositive, if_neg (not_lt.mpr hfirst),
      if_neg (not_lt.mpr (hfirst.trans hle))]
    exact Int.tdiv_le_tdiv hpositive (by omega)

end signed

section unsigned

variable {sourceMax targetMax : Int}

/-- An unsigned axis, kept between zero and its greatest source value. -/
theorem scaleUnsignedAxis_eq (hsource : 0 < sourceMax) (htarget : 0 ≤ targetMax)
    (hsmall : Wrap.IsI32 targetMax) (value : Int) :
    scaleUnsignedAxis value sourceMax targetMax =
      (max 0 (min value sourceMax) * targetMax).tdiv sourceMax := by
  rw [scaleUnsignedAxis]
  by_cases hleast : value ≤ 0
  · rw [if_pos (by omega), max_eq_left ((min_le_left _ _).trans hleast), zero_mul,
      Int.zero_tdiv]
  rw [if_neg (by omega)]
  have hvalue : 0 ≤ value := (not_le.mp hleast).le
  by_cases hgreatest : sourceMax ≤ value
  · rw [if_pos hgreatest, min_eq_right hgreatest, max_eq_right hsource.le,
      Int.mul_tdiv_cancel_left _ hsource.ne']
  · rw [if_neg hgreatest, min_eq_left (not_le.mp hgreatest).le, max_eq_right hvalue]
    obtain ⟨hlow, hhigh⟩ := @Mean.tdiv_mem_Icc 0 targetMax (value * targetMax) sourceMax hsource
      (by rw [zero_mul]; exact mul_nonneg hvalue htarget)
      (by rw [mul_comm]; exact mul_le_mul_of_nonneg_left (not_le.mp hgreatest).le htarget)
    exact Wrap.i32_eq (hlow.trans' (by decide)) (hhigh.trans_lt (Int.lt_add_one_iff.mpr hsmall.2))

theorem scaleUnsignedAxis_monotone (hsource : 0 < sourceMax) (htarget : 0 ≤ targetMax)
    (hsmall : Wrap.IsI32 targetMax) :
    Monotone fun value => scaleUnsignedAxis value sourceMax targetMax := by
  intro first second hle
  have hkept : max 0 (min first sourceMax) ≤ max 0 (min second sourceMax) :=
    max_le_max_left 0 (min_le_min_right sourceMax hle)
  simp only [scaleUnsignedAxis_eq hsource htarget hsmall]
  exact Int.tdiv_le_tdiv hsource (mul_le_mul_of_nonneg_right hkept htarget)

end unsigned

section absolute

variable {min max : Int}

/-- The source's middle of a screen edge pair is strictly between the edges. -/
theorem center_mem (hwide : 2 ≤ max - min) :
    min < (min + max).tdiv 2 ∧ (min + max).tdiv 2 < max := by
  have hbounds := Mean.tdiv_bounds (by decide : (0 : Int) < 2) (min + max)
  omega

/-- A screen position, scaled from the middle and kept within the full deflection. -/
theorem scaleIrAbsoluteAxis_eq (hwide : 2 ≤ max - min) (value : Int) :
    0 < (max - min).tdiv 2 ∧ scaleIrAbsoluteAxis value min max =
      Max.max (-32767) (Min.min 32767
        (((value - (min + max).tdiv 2) * 32767).tdiv ((max - min).tdiv 2))) := by
  have hhalf : 0 < (max - min).tdiv 2 := by
    rw [Int.tdiv_eq_ediv_of_nonneg (by omega)]
    omega
  refine ⟨hhalf, ?_⟩
  rw [scaleIrAbsoluteAxis]
  simp only [if_neg (not_le.mpr hhalf)]
  generalize ((value - (min + max).tdiv 2) * 32767).tdiv ((max - min).tdiv 2) = scaled
  split
  · omega
  · split <;> omega

theorem scaleIrAbsoluteAxis_monotone (hwide : 2 ≤ max - min) :
    Monotone fun value => scaleIrAbsoluteAxis value min max := by
  intro first second hle
  obtain ⟨hhalf, hfirst⟩ := scaleIrAbsoluteAxis_eq hwide first
  have hscaled := Int.tdiv_le_tdiv hhalf
    (by omega : (first - (min + max).tdiv 2) * 32767 ≤ (second - (min + max).tdiv 2) * 32767)
  simp only [hfirst, (scaleIrAbsoluteAxis_eq hwide second).2]
  exact max_le_max_left _ (min_le_min_left _ hscaled)

/-- The scaled position is on the side of the middle that the position is on. -/
theorem scaleIrAbsoluteAxis_ends (hwide : 2 ≤ max - min) :
    scaleIrAbsoluteAxis min min max ≤ 0 ∧ 0 ≤ scaleIrAbsoluteAxis max min max := by
  obtain ⟨hleft, hright⟩ := center_mem hwide
  obtain ⟨hhalf, hmin⟩ := scaleIrAbsoluteAxis_eq hwide min
  rw [hmin, (scaleIrAbsoluteAxis_eq hwide max).2]
  have hbelow := (Int.tdiv_le_tdiv hhalf
    (by omega : (min - (min + max).tdiv 2) * 32767 ≤ 0)).trans_eq (Int.zero_tdiv _)
  have habove := Int.tdiv_nonneg
    (by omega : 0 ≤ (max - (min + max).tdiv 2) * 32767) hhalf.le
  omega

/-- The middle of a screen of even width is exact, and its ends are scaled in full. -/
theorem scaleIrAbsoluteAxis_full (hwide : 2 ≤ max - min) (heven : (max - min) % 2 = 0) :
    scaleIrAbsoluteAxis min min max = -32767 ∧ scaleIrAbsoluteAxis max min max = 32767 := by
  obtain ⟨half, hhalf⟩ : ∃ half, max = min + 2 * half := ⟨(max - min) / 2, by omega⟩
  subst hhalf
  obtain ⟨hpositive, hmin⟩ := scaleIrAbsoluteAxis_eq hwide min
  rw [hmin, (scaleIrAbsoluteAxis_eq hwide _).2]
  have hcenter : (min + (min + 2 * half)).tdiv 2 = min + half := by
    rw [show min + (min + 2 * half) = (min + half) * 2 by ring]
    exact Int.mul_tdiv_cancel _ (by decide)
  have hwidth : (min + 2 * half - min).tdiv 2 = half := by
    rw [show min + 2 * half - min = half * 2 by ring]
    exact Int.mul_tdiv_cancel _ (by decide)
  rw [hwidth] at hpositive
  rw [hcenter, hwidth, show (min - (min + half)) * 32767 = -32767 * half by ring,
    show (min + 2 * half - (min + half)) * 32767 = 32767 * half by ring,
    Int.mul_tdiv_cancel _ hpositive.ne', Int.mul_tdiv_cancel _ hpositive.ne']
  decide

end absolute

/-- A scaler is monotone and stays within its target. -/
structure Scales (scale : Int → Int) (low high : Int) : Prop where
  monotone : Monotone scale
  within : ∀ value, low ≤ scale value ∧ scale value ≤ high

/-- A monotone scaler that reaches both ends of its target stays within it. -/
theorem scales_saturated {scale : Int → Int} {low high least greatest : Int}
    (hmonotone : Monotone scale) (hleast : ∀ value ≤ least, scale value = low)
    (hgreatest : ∀ value, greatest ≤ value → scale value = high) : Scales scale low high where
  monotone := hmonotone
  within value :=
    ⟨(hleast _ (min_le_right value least)).symm.trans_le (hmonotone (min_le_left value least)),
      (hmonotone (le_max_left value greatest)).trans_eq
        (hgreatest _ (le_max_right value greatest))⟩

/-- Every axis scaler is monotone, stays within its target and is exact at its ends, and the
scalers with a middle keep the side of it. -/
theorem axis_scaling :
    (∀ negativeExtent positiveExtent, 0 < negativeExtent → 0 < positiveExtent →
      Scales (fun value => scaleSignedAxis value negativeExtent positiveExtent)
        virtualAxisMin virtualAxisMax ∧
      (∀ value ≤ -negativeExtent,
        scaleSignedAxis value negativeExtent positiveExtent = virtualAxisMin) ∧
      (∀ value, positiveExtent ≤ value →
        scaleSignedAxis value negativeExtent positiveExtent = virtualAxisMax) ∧
      scaleSignedAxis 0 negativeExtent positiveExtent = 0 ∧
      ∀ value, (value ≤ 0 → scaleSignedAxis value negativeExtent positiveExtent ≤ 0) ∧
        (0 ≤ value → 0 ≤ scaleSignedAxis value negativeExtent positiveExtent)) ∧
    (∀ sourceMax targetMax, 0 < sourceMax → 0 ≤ targetMax → Wrap.IsI32 targetMax →
      Scales (fun value => scaleUnsignedAxis value sourceMax targetMax) 0 targetMax ∧
      (∀ value ≤ 0, scaleUnsignedAxis value sourceMax targetMax = 0) ∧
      ∀ value, sourceMax ≤ value →
        scaleUnsignedAxis value sourceMax targetMax = targetMax) ∧
    ∀ min max, 2 ≤ max - min →
      Scales (fun value => scaleIrAbsoluteAxis value min max) (-32767) 32767 ∧
      scaleIrAbsoluteAxis min min max ≤ 0 ∧ 0 ≤ scaleIrAbsoluteAxis max min max ∧
      ((max - min) % 2 = 0 →
        (∀ value ≤ min, scaleIrAbsoluteAxis value min max = -32767) ∧
        ∀ value, max ≤ value → scaleIrAbsoluteAxis value min max = 32767) := by
  refine ⟨fun negativeExtent positiveExtent hnegative hpositive => ?_,
    fun sourceMax targetMax hsource htarget hsmall => ?_, fun min max hwide => ?_⟩
  · have hleast : ∀ value ≤ -negativeExtent,
        scaleSignedAxis value negativeExtent positiveExtent = virtualAxisMin := by
      intro value hvalue
      rw [scaleSignedAxis, if_neg (by omega), if_pos hvalue]
    have hgreatest : ∀ value, positiveExtent ≤ value →
        scaleSignedAxis value negativeExtent positiveExtent = virtualAxisMax := by
      intro value hvalue
      rw [scaleSignedAxis, if_neg (by omega), if_neg (by omega), if_pos hvalue]
    have hsign := scaleSignedAxis_sign hnegative hpositive
    exact ⟨scales_saturated (scaleSignedAxis_monotone hnegative hpositive) hleast hgreatest,
      hleast, hgreatest, le_antisymm ((hsign 0).1 le_rfl) ((hsign 0).2 le_rfl), hsign⟩
  · have hleast : ∀ value ≤ 0, scaleUnsignedAxis value sourceMax targetMax = 0 := by
      intro value hvalue
      rw [scaleUnsignedAxis, if_pos (by omega)]
    have hgreatest : ∀ value, sourceMax ≤ value →
        scaleUnsignedAxis value sourceMax targetMax = targetMax := by
      intro value hvalue
      rw [scaleUnsignedAxis, if_neg (by omega), if_pos hvalue]
    exact ⟨scales_saturated (scaleUnsignedAxis_monotone hsource htarget hsmall) hleast hgreatest,
      hleast, hgreatest⟩
  · have hmonotone := scaleIrAbsoluteAxis_monotone hwide
    have hwithin : ∀ value, -32767 ≤ scaleIrAbsoluteAxis value min max ∧
        scaleIrAbsoluteAxis value min max ≤ 32767 := by
      intro value
      rw [(scaleIrAbsoluteAxis_eq hwide value).2]
      omega
    obtain ⟨hmin, hmax⟩ := scaleIrAbsoluteAxis_ends hwide
    refine ⟨⟨hmonotone, hwithin⟩, hmin, hmax, fun heven => ?_⟩
    obtain ⟨hleast, hgreatest⟩ := scaleIrAbsoluteAxis_full hwide heven
    exact ⟨fun value hvalue =>
        le_antisymm ((hmonotone hvalue).trans_eq hleast) (hwithin value).1,
      fun value hvalue =>
        le_antisymm (hwithin value).2 (hgreatest.symm.trans_le (hmonotone hvalue))⟩

/-- The scalers at the extents of a classic controller and of a screen. -/
theorem axis_scaling_classic :
    (Scales (fun value => scaleSignedAxis value classicStickAxisExtent classicStickAxisExtent)
      virtualAxisMin virtualAxisMax) ∧
    (Scales (fun value => scaleUnsignedAxis value classicTriggerMax virtualTriggerMax)
      0 virtualTriggerMax) ∧
    Scales (fun value => scaleIrAbsoluteAxis value 100 900) (-32767) 32767 :=
  ⟨(axis_scaling.1 classicStickAxisExtent classicStickAxisExtent (by decide) (by decide)).1,
    (axis_scaling.2.1 classicTriggerMax virtualTriggerMax (by decide) (by decide) (by decide)).1,
    (axis_scaling.2.2 100 900 (by decide)).1⟩

end Wiiland
