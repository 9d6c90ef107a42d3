/-
Comings and goings.  They alternate, beginning with a coming, when each coming finds
nobody here and each going finds somebody.
-/
import Mathlib.Data.List.Chain

namespace Turns

/-- A coming is `true`, a going is `false`. -/
def Alternates (turns : List Bool) : Prop :=
  turns.IsChain (· ≠ ·) ∧ turns.head? ≠ some false

/-- The last turn was a coming. -/
def Here (turns : List Bool) : Prop := turns.getLast? = some true

theorem not_here_nil : ¬Here [] := by simp [Here]

theorem here_append_singleton (turns : List Bool) (turn : Bool) :
    Here (turns ++ [turn]) ↔ turn = true := by
  rw [Here, List.getLast?_concat, Option.some.injEq]

theorem alternates_nil : Alternates [] := ⟨List.isChain_nil, by simp⟩

theorem Alternates.append {turns : List Bool} (halternates : Alternates turns) {turn : Bool}
    (hturn : turn = true ↔ ¬Here turns) : Alternates (turns ++ [turn]) := by
  rcases List.eq_nil_or_concat turns with rfl | ⟨before, last, rfl⟩
  · rw [hturn.mpr not_here_nil]
    exact ⟨List.isChain_singleton true, by simp⟩
  · rw [List.concat_eq_append] at *
    rw [here_append_singleton] at hturn
    constructor
    · rw [List.isChain_append]
      refine ⟨halternates.1, List.isChain_singleton turn, fun x hx y hy => ?_⟩
      rw [List.getLast?_concat, Option.mem_some] at hx
      rw [List.head?_cons, Option.mem_some] at hy
      subst hx hy
      cases last <;> cases turn <;> simp at hturn ⊢
    · have hhead := halternates.2
      rw [List.head?_append] at hhead ⊢
      cases hstart : before.head? with
      | none => simpa [hstart] using hhead
      | some first => simpa [hstart] using hhead

/-- A going that follows other turns shows that somebody was here before it. -/
theorem here_of_coming {before after : List Bool} (hhere : Here (before ++ after))
    (hnone : true ∉ after) : Here before ∧ after = [] := by
  rcases List.eq_nil_or_concat after with rfl | ⟨first, last, rfl⟩
  · rw [List.append_nil] at hhere
    exact ⟨hhere, rfl⟩
  · rw [List.concat_eq_append] at hhere hnone
    rw [← List.append_assoc, here_append_singleton] at hhere
    subst hhere
    exact absurd (List.mem_append_right first List.mem_cons_self) hnone

end Turns
