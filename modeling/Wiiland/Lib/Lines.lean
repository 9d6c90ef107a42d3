/-
Streams cut into lines at a delimiter.  Cutting yields the completed lines,
without their delimiters, and the unfinished rest; it inverts the obvious
gluing, and it may be done piece by piece.
-/
import Mathlib.Data.List.Basic

namespace Lines

universe u

variable {A : Type u} [DecidableEq A]

/-- The completed lines of a stream and its unfinished rest. -/
def cut (delimiter : A) : List A → List (List A) × List A
  | [] => ([], [])
  | a :: stream =>
      if a = delimiter then
        ([] :: (cut delimiter stream).1, (cut delimiter stream).2)
      else
        match (cut delimiter stream).1 with
        | [] => ([], a :: (cut delimiter stream).2)
        | line :: lines => ((a :: line) :: lines, (cut delimiter stream).2)

/-- The stream of some lines and a rest. -/
def glue (delimiter : A) (lines : List (List A)) (rest : List A) : List A :=
  lines.flatMap (· ++ [delimiter]) ++ rest

variable {delimiter : A}

theorem cut_of_not_mem {rest : List A} (hrest : delimiter ∉ rest) :
    cut delimiter rest = ([], rest) := by
  induction rest with
  | nil => rfl
  | cons a rest ih =>
      rw [List.mem_cons, not_or] at hrest
      simp [cut, Ne.symm hrest.1, ih hrest.2]

theorem cut_line {line : List A} (hline : delimiter ∉ line) (stream : List A) :
    cut delimiter (line ++ delimiter :: stream) =
      (line :: (cut delimiter stream).1, (cut delimiter stream).2) := by
  induction line with
  | nil => simp [cut]
  | cons a line ih =>
      rw [List.mem_cons, not_or] at hline
      rw [List.cons_append, cut, if_neg (Ne.symm hline.1), ih hline.2]

/-- Cutting inverts gluing. -/
theorem cut_glue {lines : List (List A)} {rest : List A}
    (hlines : ∀ line ∈ lines, delimiter ∉ line) (hrest : delimiter ∉ rest) :
    cut delimiter (glue delimiter lines rest) = (lines, rest) := by
  induction lines with
  | nil => exact cut_of_not_mem hrest
  | cons line lines ih =>
      have htail := ih fun other hother => hlines other (List.mem_cons_of_mem _ hother)
      have hglue : glue delimiter (line :: lines) rest =
          line ++ delimiter :: glue delimiter lines rest := by
        simp [glue]
      rw [hglue, cut_line (hlines line List.mem_cons_self), htail]

theorem glue_cut (delimiter : A) (stream : List A) :
    glue delimiter (cut delimiter stream).1 (cut delimiter stream).2 = stream := by
  induction stream with
  | nil => rfl
  | cons a stream ih =>
      by_cases ha : a = delimiter
      · simp only [cut, if_pos ha]
        rw [ha]
        exact congrArg (List.cons delimiter) ih
      · simp only [cut, if_neg ha]
        cases hcut : (cut delimiter stream).1 with
        | nil =>
            rw [hcut] at ih
            exact congrArg (List.cons a) ih
        | cons line lines =>
            rw [hcut] at ih
            exact congrArg (List.cons a) ih

theorem not_mem_cut (delimiter : A) (stream : List A) :
    (∀ line ∈ (cut delimiter stream).1, delimiter ∉ line) ∧
      delimiter ∉ (cut delimiter stream).2 := by
  induction stream with
  | nil => simp [cut]
  | cons a stream ih =>
      by_cases ha : a = delimiter
      · simp only [cut, if_pos ha, List.forall_mem_cons]
        exact ⟨⟨List.not_mem_nil, ih.1⟩, ih.2⟩
      · simp only [cut, if_neg ha]
        cases hcut : (cut delimiter stream).1 with
        | nil =>
            refine ⟨by simp, ?_⟩
            rw [List.mem_cons, not_or]
            exact ⟨Ne.symm ha, ih.2⟩
        | cons line lines =>
            rw [hcut, List.forall_mem_cons] at ih
            refine ⟨?_, ih.2⟩
            rw [List.forall_mem_cons, List.mem_cons, not_or]
            exact ⟨⟨Ne.symm ha, ih.1.1⟩, ih.1.2⟩

/-- A stream may be cut in two pieces: the rest of the first piece is carried
in front of the second. -/
theorem cut_append (first second : List A) :
    cut delimiter (first ++ second) =
      ((cut delimiter first).1 ++
          (cut delimiter ((cut delimiter first).2 ++ second)).1,
        (cut delimiter ((cut delimiter first).2 ++ second)).2) := by
  have hfirst := not_mem_cut delimiter first
  have hcarried :=
    not_mem_cut delimiter ((cut delimiter first).2 ++ second)
  have hglue : glue delimiter
      ((cut delimiter first).1 ++
        (cut delimiter ((cut delimiter first).2 ++ second)).1)
      (cut delimiter ((cut delimiter first).2 ++ second)).2 =
        first ++ second := by
    have hsecond := glue_cut delimiter
      ((cut delimiter first).2 ++ second)
    rw [glue] at hsecond
    rw [glue, List.flatMap_append, List.append_assoc, hsecond,
      ← List.append_assoc]
    exact congrArg (· ++ second) (glue_cut delimiter first)
  rw [← hglue, cut_glue _ hcarried.2]
  intro line hline
  rcases List.mem_append.mp hline with hmem | hmem
  · exact hfirst.1 line hmem
  · exact hcarried.1 line hmem

/-- The front of a stream has the first of its lines. -/
theorem cut_front {first second : List A} (hfront : first <+: second) :
    (cut delimiter first).1 <+: (cut delimiter second).1 := by
  obtain ⟨rest, rfl⟩ := hfront
  rw [cut_append]
  exact List.prefix_append _ _

/-- The stream cut after each delimiter: the delimiters stay. -/
def splitInclusive (delimiter : A) (stream : List A) : List (List A) :=
  (cut delimiter stream).1.map (· ++ [delimiter]) ++
    if (cut delimiter stream).2 = [] then [] else [(cut delimiter stream).2]

/-- An unfinished line goes before the first delimiter of what follows. -/
theorem cut_carry {carried : List A} (hcarried : delimiter ∉ carried) (stream : List A) :
    cut delimiter (carried ++ stream) =
      match (cut delimiter stream).1 with
      | [] => ([], carried ++ (cut delimiter stream).2)
      | line :: lines => ((carried ++ line) :: lines, (cut delimiter stream).2) := by
  induction carried with
  | nil =>
      rw [List.nil_append]
      rcases hcut : cut delimiter stream with ⟨lines, rest⟩
      cases lines <;> rfl
  | cons a carried ih =>
      rw [List.mem_cons, not_or] at hcarried
      rw [List.cons_append, cut, if_neg (Ne.symm hcarried.1), ih hcarried.2]
      cases (cut delimiter stream).1 <;> rfl

end Lines
