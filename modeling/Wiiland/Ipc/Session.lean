/-
A background session: its worker sends events, closes the queue and hands over its
result, while the consumer receives events and asks whether the session has finished.
-/
import Wiiland.Ipc.EventQueue

namespace Wiiland

namespace Ipc

open Thinning

abbrev SessionResult := Except ClientError Unit

/-- The one-place channel that carries the worker's result. -/
structure Finished where
  slot : Option SessionResult := none
  connected : Bool := true

structure Session where
  events : EventQueue
  finished : Finished := {}
  pendingEvent : Option SessionEvent := none
  pendingResult : Option SessionResult := none

namespace Session

def tryRecv (session : Session) : Except TryRecvError SessionEvent × Session :=
  match session.pendingEvent with
  | some event => (.ok event, { session with pendingEvent := none })
  | none =>
      (session.events.tryRecv.1, { session with events := session.events.tryRecv.2 })

/-- The first half of `tryFinish`: the stashed result, or else what the channel gives. -/
def takeResult (session : Session) : Except TryRecvError SessionResult × Session :=
  match session.pendingResult with
  | some result => (.ok result, { session with pendingResult := none })
  | none =>
      match session.finished.slot with
      | some result =>
          (.ok result, { session with finished := { session.finished with slot := none } })
      | none => (.error (if session.finished.connected then .empty else .disconnected), session)

/-- The second half of `tryFinish`: the result is kept back while an event is left. -/
def settle (session : Session) (result : SessionResult) :
    Except TryRecvError SessionResult × Session :=
  match session.pendingEvent with
  | some _ => (.error .empty, { session with pendingResult := some result })
  | none =>
      match session.events.tryRecv with
      | (.ok event, events) =>
          (.error .empty,
            { session with
              events := events
              pendingEvent := some event
              pendingResult := some result })
      | (.error _, events) => (.ok result, { session with events := events })

/-- Completion becomes available only after all queued events are delivered. -/
def tryFinish (session : Session) : Except TryRecvError SessionResult × Session :=
  match session.takeResult with
  | (.error error, session) => (.error error, session)
  | (.ok result, session) => session.settle result

/-- The events the session has taken in and not yet returned. -/
def held (session : Session) : List SessionEvent :=
  session.pendingEvent.toList ++ session.events.events

/-- The first half finds nothing and changes nothing, or moves a result out of the
stash or the channel. -/
theorem takeResult_cases (session : Session) :
    (∃ error, session.takeResult = (.error error, session)) ∨
      ∃ result later, session.takeResult = (.ok result, later) ∧
        later.events = session.events ∧ later.pendingEvent = session.pendingEvent ∧
        result :: (later.pendingResult.toList ++ later.finished.slot.toList) =
          session.pendingResult.toList ++ session.finished.slot.toList := by
  cases hstashed : session.pendingResult with
  | some result =>
      exact Or.inr ⟨result, { session with pendingResult := none }, by
        rw [takeResult, hstashed], rfl, rfl, rfl⟩
  | none =>
      cases hslot : session.finished.slot with
      | some result =>
          refine Or.inr ⟨result, { session with
            finished := { session.finished with slot := none } }, ?_, rfl, rfl, ?_⟩
          · rw [takeResult, hstashed]
            simp only [hslot]
          · simp only [hstashed, Option.toList_none, Option.toList_some, List.append_nil,
              List.nil_append]
      | none =>
          refine Or.inl ⟨if session.finished.connected then .empty else .disconnected, ?_⟩
          rw [takeResult, hstashed]
          simp only [hslot]

/-- What the second half does: it returns the result with nothing left to receive, or
stashes it and keeps every event. -/
theorem settle_cases (session : Session) (result : SessionResult) :
    (session.held = [] ∧ session.settle result = (.ok result, session)) ∨
      ∃ later, session.settle result = (.error .empty, later) ∧
        later.pendingResult = some result ∧ later.held = session.held ∧
        session.held ≠ [] ∧ later.finished = session.finished ∧
        later.events.policy = session.events.policy ∧
        later.events.closed = session.events.closed ∧
        ∀ accepted taken, EventQueue.Account session.events accepted
            (taken ++ session.pendingEvent.toList) →
          EventQueue.Account later.events accepted (taken ++ later.pendingEvent.toList) := by
  cases hpending : session.pendingEvent with
  | some event =>
      refine Or.inr ⟨{ session with pendingResult := some result }, ?_, rfl, rfl, ?_, rfl, rfl,
        rfl, fun accepted taken haccount => ?_⟩
      · rw [settle, hpending]
      · rw [held, hpending]
        exact List.cons_ne_nil _ _
      · rw [hpending]
        exact haccount
  | none =>
      rcases EventQueue.tryRecv_cases session.events with
        ⟨event, events, hevents, hrecv⟩ | ⟨hevents, hrecv⟩
      · refine Or.inr ⟨{ session with
          events := { session.events with events := events }
          pendingEvent := some event
          pendingResult := some result }, ?_, rfl, ?_, ?_, rfl, rfl, rfl,
          fun accepted taken haccount => ?_⟩
        · rw [settle, hpending]
          simp only [hrecv]
        · rw [held, held, hpending, hevents]
          rfl
        · rw [held, hpending, hevents]
          exact List.cons_ne_nil _ _
        · rw [Option.toList_none, List.append_nil] at haccount
          exact haccount.taken hevents
      · refine Or.inl ⟨?_, ?_⟩
        · rw [held, hpending, hevents]
          rfl
        · rw [settle, hpending]
          simp only [hrecv]
          rw [← hpending]

theorem tryRecv_cases (session : Session) :
    (∃ event later, session.tryRecv = (.ok event, later) ∧
        later.pendingResult = session.pendingResult ∧ later.finished = session.finished ∧
        later.events.policy = session.events.policy ∧
        later.events.closed = session.events.closed ∧ session.held ≠ [] ∧
        ∀ accepted taken, EventQueue.Account session.events accepted
            (taken ++ session.pendingEvent.toList) →
          EventQueue.Account later.events accepted
            (taken ++ [event] ++ later.pendingEvent.toList)) ∨
      session.held = [] ∧ session.tryRecv =
        (.error (if session.events.closed then .disconnected else .empty), session) := by
  cases hpending : session.pendingEvent with
  | some event =>
      refine Or.inl ⟨event, { session with pendingEvent := none }, ?_, rfl, rfl, rfl, rfl, ?_,
        fun accepted taken haccount => ?_⟩
      · rw [tryRecv, hpending]
      · rw [held, hpending]
        exact List.cons_ne_nil _ _
      · rw [Option.toList_none, List.append_nil]
        exact haccount
  | none =>
      rcases EventQueue.tryRecv_cases session.events with
        ⟨event, events, hevents, hrecv⟩ | ⟨hevents, hrecv⟩
      · refine Or.inl ⟨event, { session with
          events := { session.events with events := events } }, ?_, rfl, rfl, rfl, rfl, ?_,
          fun accepted taken haccount => ?_⟩
        · rw [tryRecv, hpending]
          simp only [hrecv]
        · rw [held, hpending, hevents]
          exact List.cons_ne_nil _ _
        · rw [Option.toList_none, List.append_nil] at haccount
          rw [hpending, Option.toList_none, List.append_nil]
          exact haccount.taken hevents
      · refine Or.inr ⟨?_, ?_⟩
        · rw [held, hpending, hevents]
          rfl
        · rw [tryRecv, hpending]
          simp only [hrecv]
          rw [← hpending]

end Session

/-- How far the worker is: it sends, closes the queue, sends its result and leaves. -/
inductive Worker where
  | sending
  | closed (result : SessionResult)
  | sent (result : SessionResult)
  | gone (result : SessionResult)

namespace Worker

def result : Worker → Option SessionResult
  | .sending => none
  | .closed result | .sent result | .gone result => some result

/-- The result that is still to be sent. -/
def unsent : Worker → Option SessionResult
  | .closed result => some result
  | _ => none

end Worker

/-- A worker and a consumer over one session, with what has been accepted and
returned.  `holding` is the result of a `tryFinish` between its two halves. -/
structure System where
  session : Session
  worker : Worker := .sending
  holding : Option SessionResult := none
  accepted : List SessionEvent := []
  returned : List SessionEvent := []
  finishes : List SessionResult := []

inductive Step where
  | send (event : SessionEvent)
  | close (result : SessionResult)
  | sendResult
  | leave
  | tryRecv
  | beginFinish
  | endFinish

namespace System

/-- One step of either thread; a step that is not the thread's next one does nothing. -/
def step (system : System) : Step → System
  | .send event =>
      match system.worker with
      | .sending =>
          { system with
            session := { system.session with
              events := (system.session.events.send event).2 }
            accepted := EventQueue.accept system.accepted event
              (system.session.events.send event).1 }
      | _ => system
  | .close result =>
      match system.worker with
      | .sending =>
          { system with
            session := { system.session with
              events := { system.session.events with closed := true } }
            worker := .closed result }
      | _ => system
  | .sendResult =>
      match system.worker with
      | .closed result =>
          { system with
            session := { system.session with
              finished := { system.session.finished with slot := some result } }
            worker := .sent result }
      | _ => system
  | .leave =>
      match system.worker with
      | .sent result =>
          { system with
            session := { system.session with
              finished := { system.session.finished with connected := false } }
            worker := .gone result }
      | _ => system
  | .tryRecv =>
      match system.holding with
      | none =>
          { system with
            session := system.session.tryRecv.2
            returned := system.returned ++ system.session.tryRecv.1.toOption.toList }
      | some _ => system
  | .beginFinish =>
      match system.holding with
      | none =>
          { system with
            session := system.session.takeResult.2
            holding := system.session.takeResult.1.toOption }
      | some _ => system
  | .endFinish =>
      match system.holding with
      | none => system
      | some result =>
          { system with
            session := (system.session.settle result).2
            holding := none
            finishes := system.finishes ++
              (system.session.settle result).1.toOption.toList }

def run (policy : DeliveryPolicy) (steps : List Step) : System :=
  steps.foldl step { session := { events := { policy := policy } } }

/-- The two halves of `tryFinish` with nothing between them are `tryFinish`. -/
theorem step_tryFinish {system : System} (hidle : system.holding = none) :
    (system.step .beginFinish).step .endFinish =
      { system with
        session := system.session.tryFinish.2
        finishes := system.finishes ++ system.session.tryFinish.1.toOption.toList } := by
  rcases htake : system.session.takeResult with ⟨taken, session⟩
  cases taken with
  | error error =>
      simp only [step, hidle, htake, Session.tryFinish, Except.toOption, Option.toList_none,
        List.append_nil]
  | ok result =>
      simp only [step, hidle, htake, Session.tryFinish, Except.toOption]

/-- The results that are on their way: kept by a call, stashed, in the channel, or not
yet sent. -/
def results (system : System) : List SessionResult :=
  system.holding.toList ++ system.session.pendingResult.toList ++
    system.session.finished.slot.toList ++ system.worker.unsent.toList

/-- Every accepted event is returned or held, the worker's result is in one place, and
it has been returned only with nothing left to receive. -/
structure Ordered (policy : DeliveryPolicy) (system : System) : Prop where
  policy : system.session.events.policy = policy
  account : EventQueue.Account system.session.events system.accepted
    (system.returned ++ system.session.pendingEvent.toList)
  closed : system.session.events.closed = system.worker.result.isSome
  result : system.finishes ++ system.results = system.worker.result.toList
  drained : system.finishes ≠ [] → system.session.held = []

theorem ordered_start (policy : DeliveryPolicy) :
    Ordered policy { session := { events := { policy := policy } } } :=
  ⟨rfl, EventQueue.account_new policy, rfl, rfl, fun hfinished => absurd rfl hfinished⟩

namespace Ordered

variable {policy : DeliveryPolicy} {system : System}

theorem sending (hordered : Ordered policy system) (hworker : system.worker = .sending) :
    system.finishes = [] := by
  have hresult := hordered.result
  rw [hworker] at hresult
  exact (List.append_eq_nil_iff.mp hresult).1

theorem send (hordered : Ordered policy system) (event : SessionEvent) :
    Ordered policy (system.step (.send event)) := by
  rw [step]
  split
  · next hworker =>
    have hclosed : (system.session.events.send event).2.closed =
        system.session.events.closed := by
      have hsent := EventQueue.sent_send system.session.events event
      rcases hsend : system.session.events.send event with ⟨returned, later⟩
      rw [hsend] at hsent
      cases hsent <;> rfl
    exact ⟨(EventQueue.send_policy _ _).trans hordered.policy, hordered.account.send event,
      hclosed.trans hordered.closed, hordered.result,
      fun hfinished => absurd (hordered.sending hworker) hfinished⟩
  · exact hordered

theorem close (hordered : Ordered policy system) (result : SessionResult) :
    Ordered policy (system.step (.close result)) := by
  rw [step]
  split
  · next hworker =>
    have hresult := hordered.result
    rw [hworker] at hresult
    refine ⟨hordered.policy, ⟨hordered.account.bounded, hordered.account.kept⟩, rfl, ?_,
      fun hfinished => absurd (hordered.sending hworker) hfinished⟩
    simp only [results, hworker, Worker.unsent, Worker.result, Option.toList_none,
      Option.toList_some, List.append_eq_nil_iff] at hresult ⊢
    obtain ⟨hfinishes, ⟨⟨hholding, hstashed⟩, hslot⟩, _⟩ := hresult
    rw [hfinishes, hholding, hstashed, hslot]
    rfl
  · exact hordered

theorem sendResult (hordered : Ordered policy system) :
    Ordered policy (system.step .sendResult) := by
  rw [step]
  split
  · next result hworker =>
    have hresult := hordered.result
    refine ⟨hordered.policy, hordered.account, ?_, ?_, hordered.drained⟩
    · rw [hordered.closed, hworker]
      rfl
    · simp only [results, hworker, Worker.unsent, Worker.result, Option.toList_some,
        Option.toList_none, List.append_nil, ← List.append_assoc] at hresult ⊢
      have hfront : system.finishes ++ system.holding.toList ++
          system.session.pendingResult.toList ++ system.session.finished.slot.toList = [] :=
        (List.append_eq_singleton_iff.mp hresult).elim And.left fun hother =>
          absurd hother.2 (List.cons_ne_nil _ _)
      rw [List.append_eq_nil_iff] at hfront
      rw [hfront.1]
      rfl
  · exact hordered

theorem leave (hordered : Ordered policy system) : Ordered policy (system.step .leave) := by
  rw [step]
  split
  · next result hworker =>
    have hresult := hordered.result
    refine ⟨hordered.policy, hordered.account, ?_, ?_, hordered.drained⟩
    · rw [hordered.closed, hworker]
      rfl
    · simp only [results, hworker, Worker.unsent, Worker.result] at hresult ⊢
      exact hresult
  · exact hordered

theorem tryRecv (hordered : Ordered policy system) :
    Ordered policy (system.step .tryRecv) := by
  rw [step]
  split
  · next hidle =>
    rcases system.session.tryRecv_cases with
      ⟨event, later, hrecv, hstashed, hfinished, hpolicy, hclosed, hheld, haccount⟩ |
      ⟨_, hrecv⟩
    · rw [hrecv]
      refine ⟨hpolicy.trans hordered.policy, haccount _ _ hordered.account,
        hclosed.trans hordered.closed, ?_, fun hdone => absurd (hordered.drained hdone) hheld⟩
      have hresult := hordered.result
      simp only [results, hstashed, hfinished] at hresult ⊢
      exact hresult
    · rw [hrecv]
      simp only [Except.toOption, Option.toList_none, List.append_nil]
      exact hordered
  · exact hordered

theorem beginFinish (hordered : Ordered policy system) :
    Ordered policy (system.step .beginFinish) := by
  rw [step]
  split
  · next hidle =>
    have hresult := hordered.result
    rw [results, hidle] at hresult
    rcases system.session.takeResult_cases with
      ⟨error, htake⟩ | ⟨result, later, htake, hevents, hpending, hmoved⟩
    · rw [htake]
      exact ⟨hordered.policy, hordered.account, hordered.closed, hresult, hordered.drained⟩
    · rw [htake]
      refine ⟨?_, ?_, ?_, ?_, ?_⟩
      · exact hevents ▸ hordered.policy
      · simp only [hevents, hpending]
        exact hordered.account
      · exact hevents ▸ hordered.closed
      · rw [Option.toList_none, List.nil_append, ← hmoved] at hresult
        exact hresult
      · simp only [Session.held, hevents, hpending]
        exact hordered.drained
  · exact hordered

theorem endFinish (hordered : Ordered policy system) :
    Ordered policy (system.step .endFinish) := by
  rw [step]
  split
  · exact hordered
  · next result hholding =>
    have hresult := hordered.result
    rw [results, hholding] at hresult
    have hstash : system.session.pendingResult = none := by
      have hlength := congrArg List.length hresult
      have hone : system.worker.result.toList.length ≤ 1 := by
        cases system.worker.result <;> simp
      simp only [List.length_append, Option.toList_some, List.length_singleton] at hlength
      cases hstashed : system.session.pendingResult with
      | none => rfl
      | some other =>
          rw [hstashed, Option.toList_some, List.length_singleton] at hlength
          omega
    rcases system.session.settle_cases result with
      ⟨hheld, hsettle⟩ | ⟨later, hsettle, hstashed, hsame, hsome, hfinished, hpolicy, hclosed,
        haccount⟩
    · rw [hsettle]
      refine ⟨hordered.policy, hordered.account, hordered.closed, ?_, fun _ => hheld⟩
      simp only [results, Except.toOption, Option.toList_some, Option.toList_none,
        List.append_assoc, List.nil_append] at hresult ⊢
      exact hresult
    · rw [hsettle]
      refine ⟨hpolicy.trans hordered.policy, haccount _ _ hordered.account,
        hclosed.trans hordered.closed, ?_, fun hdone => ?_⟩
      · simp only [results, hstash, hstashed, hfinished, Except.toOption, Option.toList_some,
          Option.toList_none, List.append_nil, List.nil_append] at hresult ⊢
        exact hresult
      · simp only [Except.toOption, Option.toList_none, List.append_nil] at hdone
        exact absurd (hordered.drained hdone) hsome

end Ordered

theorem run_ordered (policy : DeliveryPolicy) (steps : List Step) :
    Ordered policy (run policy steps) := by
  induction steps using List.reverseRecOn with
  | nil => exact ordered_start policy
  | append_singleton steps next ih =>
      rw [run, List.foldl_concat, ← run]
      cases next with
      | send event => exact ih.send event
      | close result => exact ih.close result
      | sendResult => exact ih.sendResult
      | leave => exact ih.leave
      | tryRecv => exact ih.tryRecv
      | beginFinish => exact ih.beginFinish
      | endFinish => exact ih.endFinish

/-- With nothing left to receive, the accepted events have been returned, but for the
samples that were coalesced. -/
def AllReturned (policy : DeliveryPolicy) (system : System) : Prop :=
  ∃ lost, Thinned isSensor system.accepted system.returned lost ∧
    system.session.events.coalesced = UInt64.ofNat lost.length ∧
    (policy = .strict → system.returned = system.accepted)

theorem Ordered.allReturned {policy : DeliveryPolicy} {system : System}
    (hordered : Ordered policy system) (hheld : system.session.held = []) :
    AllReturned policy system := by
  obtain ⟨hpending, hevents⟩ := List.append_eq_nil_iff.mp hheld
  obtain ⟨lost, hkept, hcoalesced, hstrict⟩ := hordered.account.kept
  rw [hpending, hevents, List.append_nil, List.append_nil] at hkept
  refine ⟨lost, hkept, hcoalesced, fun hpolicy => ?_⟩
  rw [hstrict (hordered.policy.trans hpolicy)] at hkept
  exact hkept.eq_of_lost_nil

/-- However the worker and the consumer interleave: every accepted event is returned
once and in order or still held, but for coalesced samples; the worker's result is
returned at most once, and only when nothing is left to return; a call of `tryFinish`
without a result loses neither the result nor an event; and `tryRecv` reports a
disconnection only at the end. -/
theorem completion_last (policy : DeliveryPolicy) (steps : List Step) :
    (∃ lost, Thinned isSensor (run policy steps).accepted
        ((run policy steps).returned ++ (run policy steps).session.held) lost ∧
      (run policy steps).session.events.coalesced = UInt64.ofNat lost.length ∧
      (policy = .strict → lost = [])) ∧
      ((run policy steps).finishes ++ (run policy steps).results =
        (run policy steps).worker.result.toList) ∧
      (run policy steps).finishes.length ≤ 1 ∧
      ((run policy steps).finishes ≠ [] → AllReturned policy (run policy steps)) ∧
      (∀ error, (run policy steps).session.takeResult.1 = .error error →
        (run policy steps).session.takeResult.2 = (run policy steps).session) ∧
      (∀ result error, ((run policy steps).session.settle result).1 = .error error →
        error = .empty ∧
          ((run policy steps).session.settle result).2.pendingResult = some result ∧
          ((run policy steps).session.settle result).2.held =
            (run policy steps).session.held) ∧
      ((run policy steps).session.tryRecv.1 = .error .disconnected →
        (run policy steps).session.events.closed = true ∧
          AllReturned policy (run policy steps)) := by
  have hordered := run_ordered policy steps
  generalize run policy steps = system at hordered ⊢
  refine ⟨?_, hordered.result, ?_, fun hdone => hordered.allReturned (hordered.drained hdone),
    ?_, ?_, ?_⟩
  · obtain ⟨lost, hkept, hcoalesced, hstrict⟩ := hordered.account.kept
    rw [List.append_assoc] at hkept
    exact ⟨lost, hkept, hcoalesced, fun hpolicy => hstrict (hordered.policy.trans hpolicy)⟩
  · have hlength := congrArg List.length hordered.result
    have hone : system.worker.result.toList.length ≤ 1 := by
      cases system.worker.result <;> simp
    rw [List.length_append] at hlength
    omega
  · intro error herror
    rcases system.session.takeResult_cases with ⟨_, htake⟩ | ⟨result, later, htake, _⟩
    · rw [htake]
    · rw [htake] at herror
      cases herror
  · intro result error herror
    rcases system.session.settle_cases result with
      ⟨_, hsettle⟩ | ⟨later, hsettle, hstashed, hsame, _⟩
    · rw [hsettle] at herror
      cases herror
    · rw [hsettle] at herror ⊢
      exact ⟨(Except.error.inj herror).symm, hstashed, hsame⟩
  · intro hdisconnected
    rcases system.session.tryRecv_cases with ⟨event, later, hrecv, _⟩ | ⟨hheld, hrecv⟩
    · rw [hrecv] at hdisconnected
      cases hdisconnected
    · refine ⟨?_, hordered.allReturned hheld⟩
      rw [hrecv] at hdisconnected
      cases hclosed : system.session.events.closed with
      | true => rfl
      | false => rw [hclosed] at hdisconnected; cases hdisconnected

/-- An accelerometer sample. -/
def accelSample (sequence : UInt64) : SessionEvent :=
  .notification (.input sequence "" ⟨0, 0⟩ (.accel ⟨0, 0, 0⟩))

/-- A visualization that receives nothing until its worker has finished. -/
def stalled : List Step :=
  .send (accelSample 0) :: List.replicate 64 (.send (accelSample 1)) ++
    [.close (.ok ()), .sendResult] ++ List.replicate 64 .tryRecv ++ [.beginFinish, .endFinish]

/-- A stalled visualization accepts a sample that it never returns. -/
theorem sample_never_returned :
    accelSample 0 ∈ (run .latestSensors stalled).accepted ∧
      accelSample 0 ∉ (run .latestSensors stalled).returned ∧
      (run .latestSensors stalled).session.tryRecv.1 = .error .disconnected ∧
      (run .latestSensors stalled).finishes = [.ok ()] := by
  decide +kernel

end System

end Ipc

end Wiiland
