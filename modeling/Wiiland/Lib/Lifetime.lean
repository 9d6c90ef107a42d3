/-
Traces of calls on handles.  A handle goes through a life cycle, given as a transition
of its status; what a part of a program does to one handle is told by the status it
finds and the one it leaves.
-/
import Mathlib.Data.List.Basic

namespace Lifetime

variable {Event Handle Status : Type}

/-- The status after the events of one handle, or nothing where one is out of place. -/
def follow (next : Status → Event → Option Status) : Status → List Event → Option Status
  | status, [] => some status
  | status, event :: rest => (next status event).bind fun status => follow next status rest

variable {next : Status → Event → Option Status} {status middle last : Status}

theorem follow_append (first second : List Event) :
    follow next status (first ++ second) =
      (follow next status first).bind fun status => follow next status second := by
  induction first generalizing status with
  | nil => rfl
  | cons event rest ih =>
      rw [List.cons_append, follow, follow]
      cases next status event with
      | none => rfl
      | some status => exact ih

theorem follow_singleton (event : Event) :
    follow next status [event] = next status event := by
  rw [follow]
  cases next status event <;> rfl

section handles

variable {key : Event → Option Handle} {handle other : Handle}
  {first second third : List Event}

/-- The events of one handle. -/
def on [DecidableEq Handle] (key : Event → Option Handle) (handle : Handle)
    (trace : List Event) : List Event :=
  trace.filter fun event => key event = some handle

theorem key_of_mem_on [DecidableEq Handle] {trace : List Event} {event : Event}
    (hmem : event ∈ on key handle trace) : key event = some handle := by
  simpa using (List.mem_filter.mp hmem).2

/-- A part of a run that touches one handle alone and moves its status. -/
def Acts (key : Event → Option Handle) (next : Status → Event → Option Status)
    (handle : Handle) (status last : Status) (before after : List Event) : Prop :=
  ∃ events, after = before ++ events ∧ (∀ event ∈ events, key event = some handle) ∧
    follow next status events = some last

namespace Acts

theorem refl (trace : List Event) : Acts key next handle status status trace trace :=
  ⟨[], (List.append_nil _).symm, fun _ hmem => absurd hmem List.not_mem_nil, rfl⟩

theorem single {event : Event} (hkey : key event = some handle)
    (hnext : next status event = some last) (trace : List Event) :
    Acts key next handle status last trace (trace ++ [event]) := by
  refine ⟨[event], rfl, fun found hmem => ?_, (follow_singleton event).trans hnext⟩
  rw [List.mem_singleton.mp hmem]
  exact hkey

theorem trans (hfirst : Acts key next handle status middle first second)
    (hsecond : Acts key next handle middle last second third) :
    Acts key next handle status last first third := by
  obtain ⟨events, rfl, hkeys, hfollow⟩ := hfirst
  obtain ⟨later, rfl, hkeys', hfollow'⟩ := hsecond
  refine ⟨events ++ later, List.append_assoc _ _ _, fun event hmem => ?_, ?_⟩
  · exact (List.mem_append.mp hmem).elim (hkeys event) (hkeys' event)
  · rw [follow_append, hfollow]
    exact hfollow'

/-- What it does to its own handle. -/
theorem follow_on [DecidableEq Handle] {start : Status}
    (hacts : Acts key next handle status last first second)
    (hbefore : follow next start (on key handle first) = some status) :
    follow next start (on key handle second) = some last := by
  obtain ⟨events, rfl, hkeys, hfollow⟩ := hacts
  have hown : on key handle events = events :=
    List.filter_eq_self.mpr fun event hmem => by simpa using hkeys event hmem
  rw [on, List.filter_append]
  change follow next start (on key handle first ++ on key handle events) = some last
  rw [follow_append, hbefore, hown]
  exact hfollow

/-- It leaves the other handles alone. -/
theorem on_other [DecidableEq Handle]
    (hacts : Acts key next handle status last first second)
    (hother : other ≠ handle) : on key other second = on key other first := by
  obtain ⟨events, rfl, hkeys, _⟩ := hacts
  have hnone : on key other events = [] := by
    refine List.filter_eq_nil_iff.mpr fun event hmem => ?_
    rw [hkeys event hmem, decide_eq_true_eq, Option.some.injEq]
    exact fun hsame => hother hsame.symm
  rw [on, List.filter_append]
  change on key other first ++ on key other events = _
  rw [hnone, List.append_nil]

end Acts

end handles

end Lifetime
