/-
Means of integers, with the quotient truncated.  A truncated mean stays where the exact
one is, between the bounds of what it is the mean of.
-/
import Mathlib.Algebra.Order.Group.Pointwise.Interval
import Mathlib.Tactic.Linarith
import Mathlib.Tactic.Ring

namespace Mean

variable {low high total count : Int}

/-- A truncated quotient stays between integers that the exact quotient is between. -/
theorem tdiv_mem_Icc (hcount : 0 < count) (hlow : low * count ≤ total)
    (hhigh : total ≤ high * count) : low ≤ total.tdiv count ∧ total.tdiv count ≤ high := by
  have hbelow := Int.tdiv_le_tdiv hcount hlow
  have habove := Int.tdiv_le_tdiv hcount hhigh
  rw [Int.mul_tdiv_cancel _ hcount.ne'] at hbelow habove
  exact ⟨hbelow, habove⟩

theorem le_tdiv_iff (hcount : 0 < count) : low ≤ total.tdiv count ↔
    (low - 1) * count < total ∧ (0 < low → low * count ≤ total) := by
  rcases le_or_gt 0 total with htotal | htotal
  · rw [Int.tdiv_eq_ediv_of_nonneg htotal, Int.le_ediv_iff_mul_le hcount]
    refine ⟨fun hle => ⟨?_, fun _ => hle⟩, fun ⟨_, hle⟩ => ?_⟩
    · rw [sub_mul]
      omega
    · rcases lt_or_ge 0 low with hlow | hlow
      · exact hle hlow
      · exact (mul_nonpos_of_nonpos_of_nonneg hlow hcount.le).trans htotal
  · have hnegated : total.tdiv count = -(-total / count) := by
      rw [← Int.tdiv_eq_ediv_of_nonneg (by omega), Int.neg_tdiv, neg_neg]
    have hshift : -(low - 1) * count = (-low + 1) * count := by ring
    rw [hnegated, le_neg, ← Int.lt_add_one_iff, Int.ediv_lt_iff_lt_mul hcount, ← hshift, neg_mul]
    refine ⟨fun hlt => ⟨by omega, fun hlow => ?_⟩, fun ⟨hlt, _⟩ => by omega⟩
    have hnonneg := mul_nonneg (by omega : 0 ≤ low - 1) hcount.le
    omega

theorem tdiv_le_iff (hcount : 0 < count) : total.tdiv count ≤ high ↔
    total < (high + 1) * count ∧ (high < 0 → total ≤ high * count) := by
  have hmirror := @le_tdiv_iff (-high) (-total) count hcount
  have hnext : (-high - 1) * count = -((high + 1) * count) := by ring
  rw [Int.neg_tdiv, neg_le_neg_iff, hnext, neg_lt_neg_iff, neg_mul, neg_le_neg_iff, neg_pos]
    at hmirror
  exact hmirror

/-- Where a truncated quotient is, in the linear facts that determine it. -/
theorem tdiv_bounds (hcount : 0 < count) (total : Int) :
    ((total.tdiv count - 1) * count < total ∧ total < (total.tdiv count + 1) * count) ∧
      (0 < total.tdiv count → total.tdiv count * count ≤ total) ∧
      (total.tdiv count < 0 → total ≤ total.tdiv count * count) :=
  have hlow := (le_tdiv_iff hcount).mp (le_refl (total.tdiv count))
  have hhigh := (tdiv_le_iff hcount).mp (le_refl (total.tdiv count))
  ⟨⟨hlow.1, hhigh.1⟩, hlow.2, hhigh.2⟩

variable {first second weight : Int}

/-- A weighted sum lies between the multiples of its two values. -/
theorem weighted_mem (hweight : 0 ≤ weight) (hcount : weight ≤ count) :
    first * weight + second * (count - weight) ∈ Set.uIcc (first * count) (second * count) := by
  rw [Set.mem_uIcc]
  rcases le_total first second with hle | hle
  · left
    have hright := mul_le_mul_of_nonneg_right hle (sub_nonneg.mpr hcount)
    have hleft := mul_le_mul_of_nonneg_right hle hweight
    constructor <;> linarith
  · right
    have hright := mul_le_mul_of_nonneg_right hle (sub_nonneg.mpr hcount)
    have hleft := mul_le_mul_of_nonneg_right hle hweight
    constructor <;> linarith

/-- The truncated weighted mean of two values is between them. -/
theorem weighted_tdiv_mem (hcount : 0 < count) (hweight : 0 ≤ weight) (hle : weight ≤ count) :
    (first * weight + second * (count - weight)).tdiv count ∈ Set.uIcc first second := by
  rcases Set.mem_uIcc.mp (@weighted_mem count first second weight hweight hle) with
    ⟨hlow, hhigh⟩ | ⟨hlow, hhigh⟩
  · exact Set.mem_uIcc.mpr (.inl (tdiv_mem_Icc hcount hlow hhigh))
  · exact Set.mem_uIcc.mpr (.inr (tdiv_mem_Icc hcount hlow hhigh))

end Mean
