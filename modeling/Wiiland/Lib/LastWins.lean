/-
Lists in which the last entry wins.  Putting an entry removes the one it replaces
from its place and appends the new one; what a reader of the list selects is what
the plain sequence of entries selects.
-/
import Mathlib.Data.List.Basic

namespace LastWins

universe u v

variable {E : Type u} {A : Type v} (same : E → E → Bool)

/-- Put an entry last, in place of the first entry it replaces. -/
def put (entries : List E) (entry : E) : List E :=
  entries.eraseP (same entry) ++ [entry]

/-- The result of the last entry that is wanted, or the base. -/
def choose (wanted : E → Bool) (result : E → A) (base : A) (entries : List E) : A :=
  entries.foldl (fun chosen entry => if wanted entry then result entry else chosen) base

variable {same} {wanted : E → Bool} {result : E → A}

theorem choose_append (base : A) (first second : List E) :
    choose wanted result base (first ++ second) =
      choose wanted result (choose wanted result base first) second :=
  List.foldl_append

theorem choose_concat (base : A) (entries : List E) (entry : E) :
    choose wanted result base (entries ++ [entry]) =
      if wanted entry then result entry else choose wanted result base entries := by
  rw [choose_append]
  rfl

/-- An entry that is not wanted may go. -/
theorem choose_eraseP {test : E → Bool} (htest : ∀ entry, test entry = true →
    wanted entry = false) (base : A) (entries : List E) :
    choose wanted result base (entries.eraseP test) = choose wanted result base entries := by
  induction entries generalizing base with
  | nil => rfl
  | cons head tail ih =>
      cases hhead : test head with
      | true =>
          rw [List.eraseP_cons_of_pos hhead]
          simp only [choose, List.foldl_cons, htest head hhead, Bool.false_eq_true, if_false]
      | false =>
          rw [List.eraseP_cons_of_neg (by simp [hhead])]
          exact ih _

/-- Putting an entry selects like writing it after the others. -/
theorem choose_put (hsame : ∀ entry other, same entry other = true →
    wanted other = wanted entry) (base : A) (entries : List E) (entry : E) :
    choose wanted result base (put same entries entry) =
      choose wanted result base (entries ++ [entry]) := by
  rw [put, choose_concat, choose_concat]
  cases hwanted : wanted entry with
  | true => rfl
  | false =>
      simp only [Bool.false_eq_true, if_false]
      exact choose_eraseP (fun other hother => (hsame entry other hother).trans hwanted) base
        entries

/-- The list built by putting one entry after the other selects like the entries. -/
theorem choose_puts (hsame : ∀ entry other, same entry other = true →
    wanted other = wanted entry) (base : A) (start entries : List E) :
    choose wanted result base (entries.foldl (put same) start) =
      choose wanted result base (start ++ entries) := by
  induction entries generalizing start with
  | nil => rw [List.append_nil, List.foldl_nil]
  | cons entry entries ih =>
      rw [List.foldl_cons, ih, choose_append, choose_put hsame, ← choose_append,
        List.append_assoc, List.singleton_append]

/-- What is chosen is the result of the last wanted entry. -/
theorem choose_cases (base : A) (entries : List E) :
    (∃ before entry after, entries = before ++ entry :: after ∧ wanted entry = true ∧
      (∀ other ∈ after, wanted other = false) ∧
        choose wanted result base entries = result entry) ∨
    ((∀ entry ∈ entries, wanted entry = false) ∧
      choose wanted result base entries = base) := by
  induction entries generalizing base with
  | nil => exact .inr ⟨fun _ hentry => absurd hentry List.not_mem_nil, rfl⟩
  | cons head tail ih =>
      rcases ih (if wanted head then result head else base) with
        ⟨before, entry, after, rfl, hwanted, hafter, hchosen⟩ | ⟨hnone, hchosen⟩
      · exact .inl ⟨head :: before, entry, after, rfl, hwanted, hafter, hchosen⟩
      · cases hhead : wanted head with
        | true =>
            rw [hhead, if_pos rfl] at hchosen
            exact .inl ⟨[], head, tail, rfl, hhead, hnone, by
              rw [← hchosen, choose, List.foldl_cons, hhead, if_pos rfl, choose]⟩
        | false =>
            rw [hhead, if_neg Bool.false_ne_true] at hchosen
            refine .inr ⟨List.forall_mem_cons.mpr ⟨hhead, hnone⟩, ?_⟩
            rw [choose, List.foldl_cons, hhead, if_neg Bool.false_ne_true]
            exact hchosen

variable {Q : E → Prop}

/-- What was put is there, up to the entries that replace each other. -/
theorem exists_put (hsame : ∀ entry other, same entry other = true → (Q other ↔ Q entry))
    (entries : List E) (entry : E) :
    (∃ other ∈ put same entries entry, Q other) ↔ ∃ other ∈ entries ++ [entry], Q other := by
  constructor
  · rintro ⟨other, hother, hq⟩
    rcases List.mem_append.mp hother with hkept | hlast
    · exact ⟨other, List.mem_append_left _ (List.eraseP_sublist.subset hkept), hq⟩
    · exact ⟨other, List.mem_append_right _ hlast, hq⟩
  · rintro ⟨other, hother, hq⟩
    rcases List.mem_append.mp hother with hold | hlast
    · cases hreplaced : same entry other with
      | true =>
          exact ⟨entry, List.mem_append_right _ List.mem_cons_self,
            (hsame entry other hreplaced).mp hq⟩
      | false =>
          exact ⟨other, List.mem_append_left _
            ((List.mem_eraseP_of_neg (by simp [hreplaced])).mpr hold), hq⟩
    · exact ⟨other, List.mem_append_right _ hlast, hq⟩

theorem exists_puts (hsame : ∀ entry other, same entry other = true → (Q other ↔ Q entry))
    (start entries : List E) :
    (∃ other ∈ entries.foldl (put same) start, Q other) ↔
      ∃ other ∈ start ++ entries, Q other := by
  induction entries generalizing start with
  | nil => rw [List.append_nil, List.foldl_nil]
  | cons entry entries ih =>
      have hput := exists_put hsame start entry
      simp only [List.mem_append, or_and_right, exists_or] at hput
      rw [List.foldl_cons, ih, List.append_cons]
      simp only [List.mem_append, or_and_right, exists_or, hput]

end LastWins
