/-
Two runs of one machine, compared move by move.  In a common move both runs take
a step; in a private move one of them does and the other stands still.  A
relation that every permitted move keeps makes the runs show the same.
-/
import Mathlib.Data.List.Basic

namespace TwoRuns

universe u v w

variable {S : Type u} {I : Type v} {O : Type w}

inductive Move (I : Type v) where
  | both (first second : I)
  | left (input : I)
  | right (input : I)

namespace Move

/-- The inputs of the two runs in one move. -/
def lefts : Move I → List I
  | both first _ => [first]
  | left input => [input]
  | right _ => []

def rights : Move I → List I
  | both _ second => [second]
  | left _ => []
  | right input => [input]

end Move

/-- What one run shows, input after input. -/
def trace (step : S → I → List O × S) : S → List I → List O
  | _, [] => []
  | state, input :: rest => (step state input).1 ++ trace step (step state input).2 rest

def final (step : S → I → List O × S) (state : S) (inputs : List I) : S :=
  inputs.foldl (fun state input => (step state input).2) state

variable {step : S → I → List O × S}

theorem trace_append (state : S) (first second : List I) :
    trace step state (first ++ second) =
      trace step state first ++ trace step (final step state first) second := by
  induction first generalizing state with
  | nil => rfl
  | cons input rest ih =>
      rw [List.cons_append, trace, trace, ih, List.append_assoc]
      rfl

/-- Every move is permitted in the states it is made in. -/
def Permitted (step : S → I → List O × S) (may : S → S → Move I → Prop) :
    S → S → List (Move I) → Prop
  | _, _, [] => True
  | first, second, move :: rest =>
      may first second move ∧
        Permitted step may (final step first move.lefts) (final step second move.rights)
          rest

/-- The two runs show the same in every move. -/
def Alike (step : S → I → List O × S) : S → S → List (Move I) → Prop
  | _, _, [] => True
  | first, second, move :: rest =>
      trace step first move.lefts = trace step second move.rights ∧
        Alike step (final step first move.lefts) (final step second move.rights) rest

/-- The unwinding rule. -/
theorem alike_of_kept {may : S → S → Move I → Prop} {related : S → S → Prop}
    (hkept : ∀ first second move, related first second → may first second move →
      trace step first move.lefts = trace step second move.rights ∧
        related (final step first move.lefts) (final step second move.rights))
    {first second : S} (hrelated : related first second) {moves : List (Move I)}
    (hmoves : Permitted step may first second moves) :
    Alike step first second moves := by
  induction moves generalizing first second with
  | nil => trivial
  | cons move rest ih =>
      obtain ⟨hsame, hnext⟩ := hkept first second move hrelated hmoves.1
      exact ⟨hsame, ih hnext hmoves.2⟩

/-- Runs that show the same in every move show the same as a whole. -/
theorem Alike.trace_eq {first second : S} {moves : List (Move I)}
    (halike : Alike step first second moves) :
    trace step first (moves.flatMap Move.lefts) =
      trace step second (moves.flatMap Move.rights) := by
  induction moves generalizing first second with
  | nil => rfl
  | cons move rest ih =>
      rw [List.flatMap_cons, List.flatMap_cons, trace_append, trace_append, halike.1,
        ih halike.2]

end TwoRuns
