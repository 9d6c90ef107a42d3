/-
Latching keys.  A set of keys is driven by strokes: a press of a key that is
up, a release or a repeat of a key that is down.  An edge detector turns two
level readings of one key into at most one lawful stroke.
-/
import Mathlib.Data.List.Basic
import Mathlib.Logic.Function.Basic

namespace Latch

universe u

variable {K : Type u} [DecidableEq K]

/-- What is done to one key. -/
inductive Stroke where
  | release
  | press
  | again
deriving DecidableEq, Repr

/-- The level of a key after the stroke. -/
def Stroke.level : Stroke → Bool
  | .release => false
  | .press => true
  | .again => true

/-- The level a stroke requires: only a press starts from a key that is up. -/
def Stroke.requires : Stroke → Bool
  | .release => true
  | .press => false
  | .again => true

/-- The keys that are down. -/
abbrev Keys (K : Type u) := K → Bool

def noKeys : Keys K := fun _ => false

def strike (down : Keys K) (event : K × Stroke) : Keys K :=
  Function.update down event.1 event.2.level

def strikes (down : Keys K) (events : List (K × Stroke)) : Keys K :=
  events.foldl strike down

/-- Every stroke of the list meets the level it requires when its turn comes. -/
def Lawful : Keys K → List (K × Stroke) → Prop
  | _, [] => True
  | down, event :: events =>
      down event.1 = event.2.requires ∧ Lawful (strike down event) events

@[simp] theorem strikes_nil (down : Keys K) : strikes down [] = down := rfl

@[simp] theorem lawful_nil (down : Keys K) : Lawful down [] := trivial

theorem strikes_append (down : Keys K) (first second : List (K × Stroke)) :
    strikes down (first ++ second) = strikes (strikes down first) second := by
  simp [strikes]

theorem lawful_append {down : Keys K} {first second : List (K × Stroke)} :
    Lawful down (first ++ second) ↔
      Lawful down first ∧ Lawful (strikes down first) second := by
  induction first generalizing down with
  | nil => simp
  | cons event first ih =>
      simp only [List.cons_append, Lawful, ih, and_assoc]
      rfl

/-- The stroke that carries a key from one level to another.  `held` says
whether a key that stays down reports a repeat. -/
def edge (before after held : Bool) : Option Stroke :=
  match before, after with
  | false, true => some .press
  | true, false => some .release
  | true, true => if held then some .again else none
  | false, false => none

/-- The strokes of one key whose level was read before and after. -/
def edgeOn (key : K) (before after held : Bool) : List (K × Stroke) :=
  (edge before after held).toList.map fun stroke => (key, stroke)

/-- An edge brings exactly its own key to the new level. -/
theorem strikes_edgeOn {down : Keys K} {key : K} {before : Bool}
    (hbefore : down key = before) (after held : Bool) :
    strikes down (edgeOn key before after held) =
      Function.update down key after := by
  have hsame : down = Function.update down key before := by
    rw [← hbefore, Function.update_eq_self]
  cases before <;> cases after
  · exact hsame
  · rfl
  · rfl
  · cases held
    · exact hsame
    · rfl

theorem lawful_edgeOn {down : Keys K} {key : K} {before : Bool}
    (hbefore : down key = before) (after held : Bool) :
    Lawful down (edgeOn key before after held) := by
  cases before <;> cases after <;> cases held <;>
    simp [edgeOn, edge, Lawful, Stroke.requires, hbefore]

end Latch
