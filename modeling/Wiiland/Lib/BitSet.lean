/-
Machine words read as finite sets of bit positions.  A mask operation on a word
is the set operation on its positions, so a proof about masks never unfolds a
shift.
-/
import Mathlib.Data.BitVec
import Mathlib.Data.List.Basic

namespace BitSet

variable {w : Nat}

/-- The word whose only member is position `i`. -/
def single (w i : Nat) : BitVec w := 1#w <<< i

theorem getLsbD_single (w i j : Nat) :
    (single w i).getLsbD j = (decide (j < w) && decide (i = j)) := by
  by_cases hj : j < w
  · by_cases hij : i = j
    · subst hij
      simp [single, hj]
    · by_cases hlt : j < i
      · simp [single, hij, hlt]
      · have hpos : j - i ≠ 0 := by omega
        simp [single, hij, hj, hpos]
  · simp [single, hj]

@[simp] theorem getLsbD_single_self {i : Nat} (hi : i < w) :
    (single w i).getLsbD i = true := by
  simp [getLsbD_single, hi]

/-- A masked word is nonzero exactly when the masked position is a member. -/
theorem and_single_ne_zero_iff (x : BitVec w) {i : Nat} (hi : i < w) :
    x &&& single w i ≠ 0#w ↔ x.getLsbD i = true := by
  constructor
  · intro hne
    by_contra hbit
    apply hne
    apply BitVec.eq_of_getLsbD_eq
    intro j hj
    rw [BitVec.getLsbD_and, getLsbD_single]
    by_cases hij : i = j
    · subst hij
      simp [Bool.eq_false_iff.mpr hbit]
    · simp [hij]
  · intro hbit hzero
    have hget := congrArg (fun y : BitVec w => y.getLsbD i) hzero
    rw [BitVec.getLsbD_and, hbit, getLsbD_single_self hi] at hget
    simp at hget

theorem bne_and_single (x : BitVec w) {i : Nat} (hi : i < w) :
    (x &&& single w i != 0#w) = x.getLsbD i := by
  rw [Bool.eq_iff_iff, bne_iff_ne]
  exact and_single_ne_zero_iff x hi

theorem getLsbD_insert (x : BitVec w) (i j : Nat) :
    (x ||| single w i).getLsbD j =
      (x.getLsbD j || (decide (j < w) && decide (i = j))) := by
  rw [BitVec.getLsbD_or, getLsbD_single]

theorem getLsbD_erase (x : BitVec w) (i j : Nat) :
    (x &&& ~~~ single w i).getLsbD j =
      (x.getLsbD j && !decide (i = j)) := by
  rw [BitVec.getLsbD_and, BitVec.getLsbD_not, getLsbD_single]
  by_cases hj : j < w
  · simp [hj]
  · simp [BitVec.getLsbD_of_ge x j (Nat.le_of_not_lt hj)]

/-- The union of a list of words, from the left as a fold computes it. -/
theorem getLsbD_foldl_or (words : List (BitVec w)) (start : BitVec w)
    (j : Nat) :
    (words.foldl (fun acc word => acc ||| word) start).getLsbD j =
      (start.getLsbD j || words.any fun word => word.getLsbD j) := by
  induction words generalizing start with
  | nil => simp
  | cons word words ih =>
      rw [List.foldl_cons, ih, BitVec.getLsbD_or, List.any_cons, Bool.or_assoc]

end BitSet
