/-
Motion at rest.  With a constant reading the learned offset of an axis nears the reading,
so that the normalized reading becomes zero and stays there.
-/
import Wiiland.Hid.Decode
import Wiiland.Lib.Mean

namespace Wiiland

namespace Hid

def Axis3.at (value : Axis3) : Axis → Int
  | .x => value.x
  | .y => value.y
  | .z => value.z

section axis

variable {value offset factor : Int}

theorem clampI32_eq (hlow : -2147483648 ≤ value) (hhigh : value ≤ 2147483647) :
    clampI32 value = value := by
  unfold clampI32
  omega

/-- One reading at rest, with the next reading in view: zero stays, and any other result
moves the offset towards the reading but never past it. -/
theorem normalizeAxis_step (hfactor : 1 ≤ factor ∧ factor ≤ 100)
    (hoffset : -2147483648 ≤ offset ∧ offset ≤ 2147483647)
    (hvalue : |value| ≤ 21474836) :
    let result := (normalizeAxis value offset factor).1
    let next := (normalizeAxis value offset factor).2
    let later := (normalizeAxis value next factor).1
    (-2147483648 ≤ next ∧ next ≤ 2147483647) ∧ (result = 0 → next = offset) ∧
      (0 < result → offset < next ∧ 0 ≤ later ∧ later ≤ result) ∧
      (result < 0 → next < offset ∧ result ≤ later ∧ later ≤ 0) := by
  rw [abs_le] at hvalue
  have hresult : ∀ other, -2147483648 ≤ other ∧ other ≤ 2147483647 →
      (normalizeAxis value other factor).1 = value - other.tdiv 100 := by
    intro other hother
    have hbounds := Mean.tdiv_bounds (by decide : (0 : Int) < 100) other
    exact clampI32_eq (by omega) (by omega)
  have hnext : (normalizeAxis value offset factor).2 = if value - offset.tdiv 100 ≠ 0 then
      clampI32 (offset + if 0 < value - offset.tdiv 100 then factor else -factor)
      else offset := by
    rw [← hresult offset hoffset]
    rfl
  have hrange : -2147483648 ≤ (normalizeAxis value offset factor).2 ∧
      (normalizeAxis value offset factor).2 ≤ 2147483647 := by
    rw [hnext]
    unfold clampI32
    split <;> omega
  simp only [hresult offset hoffset, hresult _ hrange]
  refine ⟨hrange, ?_⟩
  have hbefore := Mean.tdiv_bounds (by decide : (0 : Int) < 100) offset
  have hafter := Mean.tdiv_bounds (by decide : (0 : Int) < 100)
    (normalizeAxis value offset factor).2
  unfold clampI32 at hnext
  generalize (normalizeAxis value offset factor).2 = next at *
  rcases lt_trichotomy (value - offset.tdiv 100) 0 with hneg | hzero | hpos
  · rw [if_pos hneg.ne, if_neg hneg.not_gt] at hnext
    omega
  · rw [hzero, if_neg (not_not.mpr rfl)] at hnext
    omega
  · rw [if_pos hpos.ne', if_pos hpos] at hnext
    omega

/-- The offset of an axis after some readings. -/
def offsetAt (readings : Nat → Int) (factor offset : Int) : Nat → Int
  | 0 => offset
  | n + 1 => (normalizeAxis (readings n) (offsetAt readings factor offset n) factor).2

/-- The results of normalizing an axis, reading by reading. -/
def axisResults (readings : Nat → Int) (factor offset : Int) (n : Nat) : Int :=
  (normalizeAxis (readings n) (offsetAt readings factor offset n) factor).1

/-- Results that shrink to zero from one side and stay there. -/
structure Settles (results : Nat → Int) : Prop where
  shrinks : ∀ n, |results (n + 1)| ≤ |results n|
  oneSided : ∀ n m, 0 ≤ results n * results m
  rests : ∃ n, results n = 0
  stays : ∀ n, results n = 0 → ∀ m, n ≤ m → results m = 0

end axis

/-- Results whose sign moves an offset within a range, and never past zero. -/
structure Moves (low high : Int) (results offsets : Nat → Int) : Prop where
  range : ∀ n, low ≤ offsets n ∧ offsets n ≤ high
  zero : ∀ n, results n = 0 → results (n + 1) = 0
  up : ∀ n, 0 < results n →
    offsets n < offsets (n + 1) ∧ 0 ≤ results (n + 1) ∧ results (n + 1) ≤ results n
  down : ∀ n, results n < 0 →
    offsets (n + 1) < offsets n ∧ results n ≤ results (n + 1) ∧ results (n + 1) ≤ 0

section moves

variable {low high : Int} {results offsets : Nat → Int}

theorem Moves.neg (hmoves : Moves low high results offsets) :
    Moves (-high) (-low) (fun n => -results n) (fun n => -offsets n) where
  range n := by
    have hrange := hmoves.range n
    omega
  zero n hzero := by
    rw [hmoves.zero n (neg_eq_zero.mp hzero), neg_zero]
  up n hup := by
    have hdown := hmoves.down n (by omega)
    omega
  down n hdown := by
    have hup := hmoves.up n (by omega)
    omega

theorem Moves.nonneg (hmoves : Moves low high results offsets) (hstart : 0 ≤ results 0) (n : Nat) :
    0 ≤ results n := by
  induction n with
  | zero => exact hstart
  | succ n ih =>
      rcases ih.eq_or_lt with hzero | hpos
      · exact (hmoves.zero n hzero.symm).ge
      · exact (hmoves.up n hpos).2.1

/-- An offset that moves up at every reading would leave its range. -/
theorem Moves.rests (hmoves : Moves low high results offsets) (hstart : 0 ≤ results 0) :
    ∃ n, results n = 0 := by
  by_contra hnever
  have hup : ∀ n, offsets n < offsets (n + 1) := fun n =>
    (hmoves.up n ((hmoves.nonneg hstart n).lt_of_ne fun hzero => hnever ⟨n, hzero.symm⟩)).1
  have hfar : ∀ n : Nat, offsets 0 + n ≤ offsets n := by
    intro n
    induction n with
    | zero => exact (Int.add_zero _).le
    | succ n ih =>
        have hnext := hup n
        push_cast
        omega
  have hlast := hfar (high - offsets 0 + 1).toNat
  have hrange := hmoves.range (high - offsets 0 + 1).toNat
  have hfirst := hmoves.range 0
  omega

theorem Moves.settles (hmoves : Moves low high results offsets) : Settles results where
  shrinks n := by
    rcases lt_trichotomy (results n) 0 with hneg | hzero | hpos
    · have hdown := hmoves.down n hneg
      rw [abs_of_neg hneg, abs_of_nonpos hdown.2.2]
      omega
    · rw [hzero, hmoves.zero n hzero]
    · have hup := hmoves.up n hpos
      rw [abs_of_pos hpos, abs_of_nonneg hup.2.1]
      exact hup.2.2
  oneSided n m := by
    rcases le_total 0 (results 0) with hstart | hstart
    · exact mul_nonneg (hmoves.nonneg hstart n) (hmoves.nonneg hstart m)
    · have hflipped := hmoves.neg.nonneg (neg_nonneg.mpr hstart)
      exact mul_nonneg_of_nonpos_of_nonpos (neg_nonneg.mp (hflipped n))
        (neg_nonneg.mp (hflipped m))
  rests := by
    rcases le_total 0 (results 0) with hstart | hstart
    · exact hmoves.rests hstart
    · obtain ⟨n, hzero⟩ := hmoves.neg.rests (neg_nonneg.mpr hstart)
      exact ⟨n, neg_eq_zero.mp hzero⟩
  stays n hzero m hle := by
    induction m, hle using Nat.le_induction with
    | base => exact hzero
    | succ m _ ih => exact hmoves.zero m ih

end moves

section rest

variable {value offset factor : Int}

theorem offsetAt_range (hfactor : 1 ≤ factor ∧ factor ≤ 100)
    (hoffset : -2147483648 ≤ offset ∧ offset ≤ 2147483647) (hvalue : |value| ≤ 21474836)
    (n : Nat) : -2147483648 ≤ offsetAt (fun _ => value) factor offset n ∧
      offsetAt (fun _ => value) factor offset n ≤ 2147483647 := by
  induction n with
  | zero => exact hoffset
  | succ n ih => exact (normalizeAxis_step hfactor ih hvalue).1

theorem axisResults_settle (hfactor : 1 ≤ factor ∧ factor ≤ 100)
    (hoffset : -2147483648 ≤ offset ∧ offset ≤ 2147483647) (hvalue : |value| ≤ 21474836) :
    Settles (axisResults (fun _ => value) factor offset) := by
  have hstep := fun n => normalizeAxis_step hfactor
    (offsetAt_range hfactor hoffset hvalue n) hvalue
  have hmoves : Moves (-2147483648) 2147483647 (axisResults (fun _ => value) factor offset)
      (offsetAt (fun _ => value) factor offset) :=
    ⟨offsetAt_range hfactor hoffset hvalue, fun n hzero => by
      have hsame : offsetAt (fun _ => value) factor offset (n + 1) =
          offsetAt (fun _ => value) factor offset n := (hstep n).2.1 hzero
      rw [axisResults, hsame]
      exact hzero, fun n => (hstep n).2.2.1, fun n => (hstep n).2.2.2⟩
  exact hmoves.settles

end rest

namespace MotionPlusNormalizer

/-- The normalizer after some readings. -/
def after (normalizer : MotionPlusNormalizer) (readings : Nat → Axis3) :
    Nat → MotionPlusNormalizer
  | 0 => normalizer
  | n + 1 => ((normalizer.after readings n).normalize (readings n)).2

def results (normalizer : MotionPlusNormalizer) (readings : Nat → Axis3) (n : Nat) : Axis3 :=
  ((normalizer.after readings n).normalize (readings n)).1

theorem after_offsets (normalizer : MotionPlusNormalizer) (readings : Nat → Axis3) (axis : Axis)
    (n : Nat) : (normalizer.after readings n).factor = normalizer.factor ∧
      (normalizer.after readings n).offsets.at axis =
        offsetAt (fun n => (readings n).at axis) normalizer.factor
          (normalizer.offsets.at axis) n := by
  induction n with
  | zero => exact ⟨rfl, rfl⟩
  | succ n ih =>
      refine ⟨ih.1, ?_⟩
      rw [offsetAt, ← ih.2, ← ih.1]
      cases axis <;> rfl

/-- An axis is normalized by itself. -/
theorem results_at (normalizer : MotionPlusNormalizer) (readings : Nat → Axis3) (axis : Axis)
    (n : Nat) : (normalizer.results readings n).at axis =
      axisResults (fun n => (readings n).at axis) normalizer.factor
        (normalizer.offsets.at axis) n := by
  obtain ⟨hfactor, hoffset⟩ := after_offsets normalizer readings axis n
  rw [axisResults, ← hoffset, ← hfactor]
  cases axis <;> rfl

theorem scaleOffset_tdiv {value : Int} (hvalue : |value| ≤ 21474836) :
    (scaleOffset value).tdiv 100 = value := by
  rw [abs_le] at hvalue
  rw [scaleOffset, clampI32_eq (by omega) (by omega), Int.mul_tdiv_cancel _ (by decide)]

/-- At rest every axis settles by itself, and what is set can be read back. -/
theorem normalize_settles :
    (∀ (normalizer : MotionPlusNormalizer) (axis : Axis) (value : Int) (readings : Nat → Axis3),
      1 ≤ normalizer.factor ∧ normalizer.factor ≤ 100 →
      -2147483648 ≤ normalizer.offsets.at axis ∧ normalizer.offsets.at axis ≤ 2147483647 →
      |value| ≤ 21474836 → (∀ n, (readings n).at axis = value) →
      Settles fun n => (normalizer.results readings n).at axis) ∧
    (∀ (normalizer other : MotionPlusNormalizer) (axis : Axis) (readings others : Nat → Axis3),
      other.factor = normalizer.factor → other.offsets.at axis = normalizer.offsets.at axis →
      (∀ n, (others n).at axis = (readings n).at axis) →
      ∀ n, (other.results others n).at axis = (normalizer.results readings n).at axis) ∧
    ∀ (normalizer : MotionPlusNormalizer) (x y z factor : Int),
      |x| ≤ 21474836 → |y| ≤ 21474836 → |z| ≤ 21474836 →
      (normalizer.set x y z factor).values = (x, y, z, factor) := by
  refine ⟨fun normalizer axis value readings hfactor hoffset hvalue hconstant => ?_,
    fun normalizer other axis readings others hsame hoffset hreadings n => ?_,
    fun normalizer x y z factor hx hy hz => ?_⟩
  · simp only [results_at, hconstant]
    exact axisResults_settle hfactor hoffset hvalue
  · rw [results_at, results_at, hsame, hoffset]
    simp only [hreadings]
  · rw [values, set]
    simp only [scaleOffset_tdiv hx, scaleOffset_tdiv hy, scaleOffset_tdiv hz]

/-- An unset offset that learns in whole units. -/
theorem normalize_settles_unset :
    Settles fun n => ((⟨{}, 100⟩ : MotionPlusNormalizer).results (fun _ => ⟨-3, 7, 0⟩) n).at .x :=
  normalize_settles.1 ⟨{}, 100⟩ .x (-3) _ (by decide) (by decide) (by decide) fun _ => rfl

end MotionPlusNormalizer

end Hid

end Wiiland
