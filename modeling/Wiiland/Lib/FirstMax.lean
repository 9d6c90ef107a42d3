/-
The first maximum of a list, as a loop finds it that keeps the best item so far and takes
a later one only when it is strictly better.
-/
import Mathlib.Data.List.Basic
import Mathlib.Order.Lattice

namespace FirstMax

variable {A B : Type} [LinearOrder B]

/-- The best item so far with its measure, after one more item. -/
def keepMax (measure : A → B) (best : A × B) (item : A) : A × B :=
  if best.2 < measure item then (item, measure item) else best

/-- An item of a list that is better than all before it and no worse than all after it. -/
structure IsFirstMax (measure : A → B) (items : List A) (item : A) : Prop where
  splits : ∃ before after, items = before ++ item :: after ∧
    (∀ other ∈ before, measure other < measure item) ∧
    ∀ other ∈ after, measure other ≤ measure item

variable {measure : A → B} {items : List A} {best item other : A} {least : B}

theorem IsFirstMax.mem (hfirst : IsFirstMax measure items item) : item ∈ items := by
  obtain ⟨before, after, rfl, _⟩ := hfirst.splits
  exact List.mem_append_right before List.mem_cons_self

theorem IsFirstMax.le (hfirst : IsFirstMax measure items item) (hother : other ∈ items) :
    measure other ≤ measure item := by
  obtain ⟨before, after, rfl, hbefore, hafter⟩ := hfirst.splits
  rcases List.mem_append.mp hother with hmem | hmem
  · exact (hbefore other hmem).le
  · rcases List.mem_cons.mp hmem with rfl | hmem
    · exact le_rfl
    · exact hafter other hmem

/-- In a sorted list no other maximum comes before the first one. -/
theorem IsFirstMax.first {precedes : A → A → Prop} (hfirst : IsFirstMax measure items item)
    (hsorted : items.Pairwise precedes) (hother : other ∈ items)
    (htie : measure other = measure item) : other = item ∨ precedes item other := by
  obtain ⟨before, after, rfl, hbefore, _⟩ := hfirst.splits
  rcases List.mem_append.mp hother with hmem | hmem
  · exact absurd htie (hbefore other hmem).ne
  · rcases List.mem_cons.mp hmem with rfl | hmem
    · exact .inl rfl
    · have htail := (List.pairwise_append.mp hsorted).2.1
      exact .inr ((List.pairwise_cons.mp htail).1 other hmem)

/-- The loop keeps what it starts with, or ends with the first maximum. -/
theorem foldl_keepMax (items : List A) (best : A) (least : B) :
    ((items.foldl (keepMax measure) (best, least)) = (best, least) ∧
        ∀ other ∈ items, measure other ≤ least) ∨
      ∃ item, items.foldl (keepMax measure) (best, least) = (item, measure item) ∧
        least < measure item ∧ IsFirstMax measure items item := by
  induction items generalizing best least with
  | nil => exact .inl ⟨rfl, fun other hother => absurd hother List.not_mem_nil⟩
  | cons head tail ih =>
      rw [List.foldl_cons, keepMax]
      by_cases hbetter : least < measure head
      · rw [if_pos hbetter]
        rcases ih head (measure head) with ⟨hkept, hnone⟩ | ⟨item, hkept, hmore, hfirst⟩
        · exact .inr ⟨head, hkept, hbetter, ⟨[], tail, rfl,
            fun other hother => absurd hother List.not_mem_nil, hnone⟩⟩
        · obtain ⟨before, after, htail, hbefore, hafter⟩ := hfirst.splits
          refine .inr ⟨item, hkept, hbetter.trans hmore, ⟨head :: before, after, ?_, ?_, hafter⟩⟩
          · rw [htail, List.cons_append]
          · exact List.forall_mem_cons.mpr ⟨hmore, hbefore⟩
      · rw [if_neg hbetter]
        rcases ih best least with ⟨hkept, hnone⟩ | ⟨item, hkept, hmore, hfirst⟩
        · exact .inl ⟨hkept, List.forall_mem_cons.mpr ⟨not_lt.mp hbetter, hnone⟩⟩
        · obtain ⟨before, after, htail, hbefore, hafter⟩ := hfirst.splits
          refine .inr ⟨item, hkept, hmore, ⟨head :: before, after, ?_, ?_, hafter⟩⟩
          · rw [htail, List.cons_append]
          · exact List.forall_mem_cons.mpr ⟨(not_lt.mp hbetter).trans_lt hmore, hbefore⟩

/-- A loop that starts below everything finds the first maximum. -/
theorem foldl_keepMax_below (hsome : items ≠ []) (hbelow : ∀ other ∈ items, least < measure other)
    (best : A) : ∃ item, items.foldl (keepMax measure) (best, least) = (item, measure item) ∧
      IsFirstMax measure items item := by
  rcases foldl_keepMax items best least with ⟨_, hnone⟩ | ⟨item, hkept, _, hfirst⟩
  · obtain ⟨other, hother⟩ := List.exists_mem_of_ne_nil items hsome
    exact absurd (hbelow other hother) (not_lt.mpr (hnone other hother))
  · exact ⟨item, hkept, hfirst⟩

end FirstMax
