/-
Filters with a memory over a stream of events.  A filter that holds back only
events that leave the state as it is delivers a stream that replays the same.
-/
import Mathlib.Data.List.Basic

namespace StreamFilter

variable {Memory Event State Other : Type*}

/-- The memory of a filter after a stream. -/
def after (filter : Memory → Event → Bool × Memory) (memory : Memory)
    (events : List Event) : Memory :=
  events.foldl (fun memory event => (filter memory event).2) memory

/-- The events of a stream that the filter does not hold back. -/
def delivered (filter : Memory → Event → Bool × Memory) :
    Memory → List Event → List Event
  | _, [] => []
  | memory, event :: rest =>
      if (filter memory event).1 then delivered filter (filter memory event).2 rest
      else event :: delivered filter (filter memory event).2 rest

variable {filter : Memory → Event → Bool × Memory}

@[simp] theorem after_nil (memory : Memory) : after filter memory [] = memory := rfl

@[simp] theorem after_cons (memory : Memory) (event : Event) (rest : List Event) :
    after filter memory (event :: rest) = after filter (filter memory event).2 rest := rfl

theorem delivered_append (memory : Memory) (first second : List Event) :
    delivered filter memory (first ++ second) =
      delivered filter memory first ++
        delivered filter (after filter memory first) second := by
  induction first generalizing memory with
  | nil => rfl
  | cons event rest ih =>
      rw [List.cons_append, delivered, delivered, ih, after_cons]
      cases (filter memory event).1 <;> rfl

/-- A stream cut at an event that is held back, or that is delivered. -/
theorem delivered_at (memory : Memory) (first second : List Event) (event : Event) :
    delivered filter memory (first ++ event :: second) =
      delivered filter memory first ++
        (if (filter (after filter memory first) event).1 then [] else [event]) ++
        delivered filter (after filter memory (first ++ [event])) second := by
  rw [delivered_append, delivered, List.append_assoc]
  have hafter : after filter memory (first ++ [event]) =
      (filter (after filter memory first) event).2 := List.foldl_concat _ _ _ _
  rw [hafter]
  cases (filter (after filter memory first) event).1 <;> rfl

/-- What is delivered replays like the whole stream when the memory tells which
events leave the state as it is. -/
theorem foldl_delivered {step : State → Event → State} {Agrees : State → Memory → Prop}
    (hidle : ∀ state memory event, Agrees state memory →
      (filter memory event).1 = true → step state event = state)
    (hstep : ∀ state memory event, Agrees state memory →
      Agrees (step state event) (filter memory event).2)
    {state : State} {memory : Memory} (hagrees : Agrees state memory)
    (events : List Event) :
    (delivered filter memory events).foldl step state = events.foldl step state := by
  induction events generalizing state memory with
  | nil => rfl
  | cons event rest ih =>
      have hnext := hstep state memory event hagrees
      rw [delivered]
      cases hheld : (filter memory event).1 with
      | true =>
          have hsame := hidle state memory event hagrees hheld
          rw [if_pos rfl, List.foldl_cons, ← ih hnext, hsame]
      | false => exact ih hnext

/-- A filter that reads each event through a partial view delivers, in that view,
what the filter of the views does. -/
theorem filterMap_delivered {viewed : Memory → Other → Bool × Memory}
    {view : Event → Option Other}
    (hview : ∀ memory event, filter memory event =
      ((view event).map (viewed memory)).getD (false, memory))
    (memory : Memory) (events : List Event) :
    (delivered filter memory events).filterMap view =
      delivered viewed memory (events.filterMap view) := by
  induction events generalizing memory with
  | nil => rfl
  | cons event rest ih =>
      rw [delivered, hview memory event]
      cases hevent : view event with
      | none =>
          rw [List.filterMap_cons_none hevent]
          simpa [List.filterMap_cons_none hevent] using ih memory
      | some other =>
          rw [List.filterMap_cons_some hevent, delivered]
          simp only [Option.map_some, Option.getD_some]
          cases (viewed memory other).1 with
          | true => simpa using ih _
          | false => simpa [List.filterMap_cons_some hevent] using ih _

end StreamFilter
