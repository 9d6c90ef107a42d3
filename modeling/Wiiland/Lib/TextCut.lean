/-
Cutting a text at line ends and at character boundaries.  A byte offset is a
boundary when it does not fall inside a character of the UTF-8 form.
-/
import Wiiland.Lib.Lines
import Wiiland.Lib.Text

namespace Text

/-- Whether a byte offset of a text falls between two characters. -/
def isCharBoundary : List Char → Nat → Bool
  | _, 0 => true
  | [], _ + 1 => false
  | c :: text, offset =>
      if offset < c.utf8Size then false
      else isCharBoundary text (offset - c.utf8Size)

/-- Step an offset back until it is a boundary. -/
def floorBoundary (text : List Char) : Nat → Nat
  | 0 => 0
  | offset + 1 =>
      if isCharBoundary text (offset + 1) then offset + 1
      else floorBoundary text offset

theorem isCharBoundary_zero (text : List Char) : isCharBoundary text 0 = true := by
  cases text <;> rfl

theorem isCharBoundary_cons (c : Char) (text : List Char) (offset : Nat) :
    isCharBoundary (c :: text) offset = true ↔
      offset = 0 ∨ c.utf8Size ≤ offset ∧
        isCharBoundary text (offset - c.utf8Size) = true := by
  cases offset with
  | zero => simp [isCharBoundary]
  | succ offset =>
      have hcons : isCharBoundary (c :: text) (offset + 1) =
          if offset + 1 < c.utf8Size then false
          else isCharBoundary text (offset + 1 - c.utf8Size) := rfl
      rw [hcons]
      by_cases hinside : offset + 1 < c.utf8Size
      · rw [if_pos hinside]
        simp
        omega
      · rw [if_neg hinside]
        simp
        omega

/-- A boundary cuts the text in two. -/
theorem isCharBoundary_iff (text : List Char) (offset : Nat) :
    isCharBoundary text offset = true ↔
      ∃ before after, text = before ++ after ∧ byteLength before = offset := by
  induction text generalizing offset with
  | nil =>
      constructor
      · intro hboundary
        cases offset with
        | zero => exact ⟨[], [], rfl, rfl⟩
        | succ offset => exact absurd hboundary (by simp [isCharBoundary])
      · rintro ⟨before, after, hsplit, rfl⟩
        obtain ⟨rfl, _⟩ := List.append_eq_nil_iff.mp hsplit.symm
        exact isCharBoundary_zero []
  | cons c text ih =>
      rw [isCharBoundary_cons]
      constructor
      · rintro (rfl | ⟨hle, hboundary⟩)
        · exact ⟨[], c :: text, rfl, rfl⟩
        · obtain ⟨before, after, hsplit, hlength⟩ := (ih _).mp hboundary
          refine ⟨c :: before, after, by rw [hsplit, List.cons_append], ?_⟩
          rw [byteLength_cons, hlength]
          omega
      · rintro ⟨before, after, hsplit, rfl⟩
        cases before with
        | nil => exact Or.inl rfl
        | cons d before =>
            obtain ⟨rfl, hrest⟩ := List.cons.inj hsplit
            rw [byteLength_cons]
            refine Or.inr ⟨Nat.le_add_right _ _, ?_⟩
            rw [Nat.add_sub_cancel_left]
            exact (ih _).mpr ⟨before, after, hrest, rfl⟩

theorem floorBoundary_le (text : List Char) (offset : Nat) :
    floorBoundary text offset ≤ offset := by
  induction offset with
  | zero => exact Nat.le_refl 0
  | succ offset ih =>
      rw [floorBoundary]
      split
      · exact Nat.le_refl _
      · exact Nat.le_succ_of_le ih

theorem floorBoundary_boundary (text : List Char) (offset : Nat) :
    isCharBoundary text (floorBoundary text offset) = true := by
  induction offset with
  | zero => exact isCharBoundary_zero text
  | succ offset ih =>
      rw [floorBoundary]
      split
      · assumption
      · exact ih

theorem le_floorBoundary {text : List Char} {boundary offset : Nat}
    (hboundary : isCharBoundary text boundary = true) (hle : boundary ≤ offset) :
    boundary ≤ floorBoundary text offset := by
  induction offset with
  | zero => exact hle
  | succ offset ih =>
      rw [floorBoundary]
      split
      · exact hle
      · rename_i hinside
        rcases Nat.lt_or_eq_of_le hle with hlt | rfl
        · exact ih (Nat.le_of_lt_succ hlt)
        · exact absurd hboundary hinside

/-- Stepping back makes progress when the first character fits. -/
theorem exists_floorBoundary {c : Char} {text : List Char} {offset : Nat}
    (hfits : c.utf8Size ≤ offset) :
    ∃ before after, c :: text = (c :: before) ++ after ∧
      byteLength (c :: before) = floorBoundary (c :: text) offset := by
  have hfirst : isCharBoundary (c :: text) c.utf8Size = true :=
    (isCharBoundary_iff _ _).mpr ⟨[c], text, rfl, by simp⟩
  have hprogress := le_floorBoundary hfirst hfits
  obtain ⟨before, after, hsplit, hlength⟩ :=
    (isCharBoundary_iff _ _).mp (floorBoundary_boundary (c :: text) offset)
  cases before with
  | nil =>
      have hpos := c.utf8Size_pos
      rw [byteLength_nil] at hlength
      omega
  | cons d before =>
      obtain ⟨rfl, _⟩ := List.cons.inj hsplit
      exact ⟨before, after, hsplit, hlength⟩

/-- The lines of a text with their ends are all of it. -/
theorem splitInclusive_flatten (delimiter : Char) (text : List Char) :
    (Lines.splitInclusive delimiter text).flatten = text := by
  have hglue := Lines.glue_cut delimiter text
  rw [Lines.glue, List.flatMap_def] at hglue
  rw [Lines.splitInclusive, List.flatten_append]
  split
  · rename_i hrest
    rw [hrest] at hglue
    rw [List.flatten_nil]
    exact hglue
  · rw [List.flatten_singleton]
    exact hglue

end Text
