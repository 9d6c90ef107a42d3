/-
Two's complement integers as mathematical integers.  Every operation that can
leave the range of its machine type names the type it wraps to.
-/
import Mathlib.Algebra.Order.Ring.Abs
import Mathlib.Data.Int.Basic

namespace Wrap

/-- The representative of `x` in the range of a 32-bit signed integer. -/
def i32 (x : Int) : Int := x.bmod 0x100000000

/-- The representative of `x` in the range of a 64-bit signed integer. -/
def i64 (x : Int) : Int := x.bmod 0x10000000000000000

def IsI32 (x : Int) : Prop := -2147483648 ≤ x ∧ x ≤ 2147483647

def IsI64 (x : Int) : Prop := -9223372036854775808 ≤ x ∧ x ≤ 9223372036854775807

instance (x : Int) : Decidable (IsI32 x) := inferInstanceAs (Decidable (_ ∧ _))

instance (x : Int) : Decidable (IsI64 x) := inferInstanceAs (Decidable (_ ∧ _))

theorem isI32_i32 (x : Int) : IsI32 (i32 x) := by
  have hlow := @Int.le_bmod x 0x100000000 (by decide)
  have hhigh := @Int.bmod_lt x 0x100000000 (by decide)
  unfold IsI32 i32
  omega

theorem i32_eq {x : Int} (hlow : -2147483648 ≤ x) (hhigh : x < 2147483648) : i32 x = x :=
  Int.bmod_eq_of_le (by omega) (by omega)

theorem i64_eq {x : Int} (hfits : IsI64 x) : i64 x = x :=
  Int.bmod_eq_of_le (by have := hfits.1; omega) (by have := hfits.2; omega)

/-- A truncated quotient is no larger than the bound its dividend is a multiple of. -/
theorem tdiv_range {x divisor bound : Int} (hbound : 0 ≤ bound)
    (hlow : -(bound * divisor) ≤ x) (hhigh : x ≤ bound * divisor) :
    -bound ≤ x.tdiv divisor ∧ x.tdiv divisor ≤ bound := by
  have hx : x.natAbs ≤ bound.natAbs * divisor.natAbs := by
    rw [← Int.natAbs_mul]
    omega
  have hquotient : (x.tdiv divisor).natAbs ≤ bound.natAbs := by
    rw [Int.natAbs_tdiv]
    exact Nat.div_le_of_le_mul (by rwa [Nat.mul_comm])
  omega

/-- The product of a sum of two 32-bit values and a 32-bit value. -/
theorem isI64_mul {x y : Int} (hx : |x| ≤ 4294967296) (hy : |y| ≤ 2147483647) :
    IsI64 (x * y) := by
  have hproduct : |x * y| ≤ 4294967296 * 2147483647 := by
    rw [abs_mul]
    exact mul_le_mul hx hy (abs_nonneg _) (by decide)
  rw [abs_le] at hproduct
  rw [IsI64]
  omega

theorem isI32_tdiv {x divisor : Int} (hx : IsI32 x) (hdivisor : 0 < divisor) :
    IsI32 (x.tdiv divisor) := by
  have hlow := Int.tdiv_le_tdiv hdivisor hx.1
  have hhigh := Int.tdiv_le_tdiv hdivisor hx.2
  have hleast : -2147483648 ≤ (-2147483648 : Int).tdiv divisor := by
    rw [Int.neg_tdiv, neg_le_neg_iff, Int.tdiv_eq_ediv_of_nonneg (by decide)]
    exact Int.ediv_le_self _ (by decide)
  have hgreatest : (2147483647 : Int).tdiv divisor ≤ 2147483647 := by
    rw [Int.tdiv_eq_ediv_of_nonneg (by decide)]
    exact Int.ediv_le_self _ (by decide)
  exact ⟨hleast.trans hlow, hhigh.trans hgreatest⟩

end Wrap
