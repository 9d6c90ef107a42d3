/-
The bounded queue between a session's worker and its consumer.  A visualization
that falls behind loses sensor samples that newer ones supersede, and nothing else.
-/
import Wiiland.Ipc.Client
import Wiiland.Lib.Thinning
import Mathlib.Data.List.Induction

namespace Wiiland

namespace Ipc

open Thinning

/-- The most events a queue holds. -/
def eventQueueLimit : Nat := 64

inductive SessionEvent where
  | connected (status : Status) (devices : List DeviceInfo)
  | notification (notification : Notification)
deriving DecidableEq

inductive DeliveryPolicy where
  | strict
  | latestSensors
deriving DecidableEq

/-- Why nothing is received: not yet, or not any more. -/
inductive TryRecvError where
  | empty
  | disconnected
deriving DecidableEq

structure EventQueue where
  events : List SessionEvent := []
  policy : DeliveryPolicy
  coalesced : UInt64 := 0
  closed : Bool := false

/-- Payloads of which only the latest value matters. -/
def InputPayload.isSample : InputPayload → Bool
  | .accel _ | .ir _ | .balanceBoard _ | .motionPlus _ | .proControllerMove _
  | .classicControllerMove _ | .nunchukMove _ | .drumsMove _ | .guitarMove _ => true
  | _ => false

/-- The sensor an event is a sample of. -/
def sensorIdentity : SessionEvent → Option (String × UInt32)
  | .notification (.input _ syspath _ payload) =>
      if payload.isSample then some (syspath, payload.eventCode) else none
  | _ => none

def isSensor (event : SessionEvent) : Bool := (sensorIdentity event).isSome

namespace EventQueue

/-- The queued sample a new event replaces: the oldest of its own sensor, or else the
oldest of any. -/
def victim (events : List SessionEvent) (event : SessionEvent) : Option Nat :=
  let same := (sensorIdentity event).bind fun identity =>
    events.findIdx? fun old => sensorIdentity old == some identity
  same <|> events.findIdx? isSensor

def pushBack (queue : EventQueue) (event : SessionEvent) :
    Except ClientError Unit × EventQueue :=
  if queue.events.length = eventQueueLimit then
    (.error (.sessionBacklogExceeded eventQueueLimit), queue)
  else (.ok (), { queue with events := queue.events ++ [event] })

def send (queue : EventQueue) (event : SessionEvent) : Except ClientError Unit × EventQueue :=
  if queue.events.length = eventQueueLimit then
    match queue.policy with
    | .strict => queue.pushBack event
    | .latestSensors =>
        match victim queue.events event with
        | some index =>
            pushBack { queue with
              events := queue.events.eraseIdx index
              coalesced := queue.coalesced + 1 } event
        | none =>
            if isSensor event then
              (.ok (), { queue with coalesced := queue.coalesced + 1 })
            else queue.pushBack event
  else queue.pushBack event

def tryRecv (queue : EventQueue) : Except TryRecvError SessionEvent × EventQueue :=
  match queue.events with
  | event :: events => (.ok event, { queue with events := events })
  | [] => (.error (if queue.closed then .disconnected else .empty), queue)

/-- What a send does to the queue. -/
inductive Sent (queue : EventQueue) (event : SessionEvent) :
    Except ClientError Unit × EventQueue → Prop
  | queued (hroom : queue.events.length ≠ eventQueueLimit) :
      Sent queue event (.ok (), { queue with events := queue.events ++ [event] })
  | replaced (older newer : List SessionEvent) (victim : SessionEvent)
      (hpolicy : queue.policy = .latestSensors)
      (hfull : queue.events.length = eventQueueLimit)
      (hevents : queue.events = older ++ victim :: newer)
      (hsensor : isSensor victim = true)
      (holdest : ∀ old ∈ older, sensorIdentity old ≠ sensorIdentity victim) :
      Sent queue event
        (.ok (), { queue with
          events := older ++ newer ++ [event]
          coalesced := queue.coalesced + 1 })
  | givenUp (hpolicy : queue.policy = .latestSensors)
      (hfull : queue.events.length = eventQueueLimit)
      (hcontrols : ∀ old ∈ queue.events, isSensor old = false)
      (hsensor : isSensor event = true) :
      Sent queue event (.ok (), { queue with coalesced := queue.coalesced + 1 })
  | refused (hfull : queue.events.length = eventQueueLimit)
      (hcontrols : queue.policy = .latestSensors →
        isSensor event = false ∧ ∀ old ∈ queue.events, isSensor old = false) :
      Sent queue event (.error (.sessionBacklogExceeded eventQueueLimit), queue)

theorem pushBack_room {queue : EventQueue} (hroom : queue.events.length ≠ eventQueueLimit)
    (event : SessionEvent) :
    queue.pushBack event = (.ok (), { queue with events := queue.events ++ [event] }) :=
  if_neg hroom

theorem pushBack_full {queue : EventQueue} (hfull : queue.events.length = eventQueueLimit)
    (event : SessionEvent) :
    queue.pushBack event = (.error (.sessionBacklogExceeded eventQueueLimit), queue) :=
  if_pos hfull

theorem isSensor_eq_false {event : SessionEvent} :
    isSensor event = false ↔ sensorIdentity event = none := by
  rw [isSensor, Option.isSome_eq_false_iff, Option.isNone_iff_eq_none]

/-- The victim is a sample, and no older one is of its sensor. -/
theorem victim_some {events : List SessionEvent} {event : SessionEvent} {index : Nat}
    (hvictim : victim events event = some index) :
    ∃ older oldest newer, events = older ++ oldest :: newer ∧
      events.eraseIdx index = older ++ newer ∧ isSensor oldest = true ∧
      ∀ old ∈ older, sensorIdentity old ≠ sensorIdentity oldest := by
  rw [victim, Option.orElse_eq_orElse, Option.orElse_eq_or, Option.or_eq_some_iff] at hvictim
  rcases hvictim with hsame | ⟨_, hany⟩
  · obtain ⟨identity, hidentity, hfound⟩ := Option.bind_eq_some_iff.mp hsame
    obtain ⟨older, oldest, newer, hsplit, herase, holdest, holder⟩ :=
      eraseIdx_of_findIdx? hfound
    have hsensor : sensorIdentity oldest = some identity := eq_of_beq holdest
    refine ⟨older, oldest, newer, hsplit, herase, ?_, fun old hold => ?_⟩
    · rw [isSensor, hsensor]
      rfl
    · rw [hsensor]
      exact ne_of_beq_false (holder old hold)
  · obtain ⟨older, oldest, newer, hsplit, herase, holdest, holder⟩ :=
      eraseIdx_of_findIdx? hany
    refine ⟨older, oldest, newer, hsplit, herase, holdest, fun old hold hsame => ?_⟩
    rw [isSensor, ← hsame, isSensor_eq_false.mp (holder old hold)] at holdest
    cases holdest

/-- Without a victim every queued event is a control event. -/
theorem victim_none {events : List SessionEvent} {event : SessionEvent}
    (hvictim : victim events event = none) : ∀ old ∈ events, isSensor old = false := by
  rw [victim, Option.orElse_eq_orElse, Option.orElse_eq_or, Option.or_eq_none_iff] at hvictim
  exact List.findIdx?_eq_none_iff.mp hvictim.2

theorem sent_send (queue : EventQueue) (event : SessionEvent) :
    Sent queue event (queue.send event) := by
  by_cases hfull : queue.events.length = eventQueueLimit
  · rw [send, if_pos hfull]
    cases hpolicy : queue.policy with
    | strict =>
        rw [pushBack_full hfull]
        exact .refused hfull fun hlatest => by rw [hpolicy] at hlatest; cases hlatest
    | latestSensors =>
        cases hvictim : victim queue.events event with
        | none =>
            have hcontrols := victim_none hvictim
            simp only
            split
            · next hsensor =>
              rw [← hpolicy]
              exact .givenUp hpolicy hfull hcontrols hsensor
            · next hcontrol =>
              rw [pushBack_full hfull]
              exact .refused hfull fun _ => ⟨Bool.not_eq_true _ ▸ hcontrol, hcontrols⟩
        | some index =>
            obtain ⟨older, oldest, newer, hevents, herase, hsensor, holdest⟩ :=
              victim_some hvictim
            simp only [herase]
            rw [pushBack_room]
            · rw [← hpolicy]
              exact .replaced older newer oldest hpolicy hfull hevents hsensor holdest
            · rw [hevents, List.length_append, List.length_cons] at hfull
              simp only [List.length_append]
              omega
  · rw [send, if_neg hfull, pushBack_room hfull]
    exact .queued hfull

theorem Sent.of_error {queue : EventQueue} {event : SessionEvent}
    {outcome : Except ClientError Unit × EventQueue} (hsent : Sent queue event outcome)
    (hpolicy : queue.policy = .latestSensors) {error : ClientError}
    (herror : outcome.1 = .error error) :
    isSensor event = false ∧ queue.events.length = eventQueueLimit ∧
      (∀ old ∈ queue.events, isSensor old = false) ∧ outcome.2 = queue := by
  cases hsent with
  | refused hfull hcontrols =>
      obtain ⟨hevent, hqueued⟩ := hcontrols hpolicy
      exact ⟨hevent, hfull, hqueued, rfl⟩
  | _ => cases herror

theorem tryRecv_cases (queue : EventQueue) :
    (∃ event events, queue.events = event :: events ∧
        queue.tryRecv = (.ok event, { queue with events := events })) ∨
      queue.events = [] ∧
        queue.tryRecv = (.error (if queue.closed then .disconnected else .empty), queue) := by
  cases hevents : queue.events with
  | nil => exact Or.inr ⟨rfl, by rw [tryRecv, hevents]⟩
  | cons event events => exact Or.inl ⟨event, events, rfl, by rw [tryRecv, hevents]⟩

/-- The events accepted so far are those taken and those queued, but for the samples
that were coalesced. -/
structure Account (queue : EventQueue) (accepted taken : List SessionEvent) : Prop where
  bounded : queue.events.length ≤ eventQueueLimit
  kept : ∃ lost, Thinned isSensor accepted (taken ++ queue.events) lost ∧
    queue.coalesced = UInt64.ofNat lost.length ∧ (queue.policy = .strict → lost = [])

theorem account_new (policy : DeliveryPolicy) : Account { policy := policy } [] [] :=
  ⟨Nat.zero_le _, [], thinned_nil, rfl, fun _ => rfl⟩

/-- The events accepted once a send has returned. -/
def accept (accepted : List SessionEvent) (event : SessionEvent) :
    Except ClientError Unit → List SessionEvent
  | .ok () => accepted ++ [event]
  | .error _ => accepted

theorem ofNat_length_concat (lost : List SessionEvent) (event : SessionEvent) :
    UInt64.ofNat lost.length + 1 = UInt64.ofNat (lost ++ [event]).length := by
  rw [List.length_append, List.length_singleton, UInt64.ofNat_add]
  rfl

theorem Account.send {queue : EventQueue} {accepted taken : List SessionEvent}
    (haccount : Account queue accepted taken) (event : SessionEvent) :
    Account (queue.send event).2 (accept accepted event (queue.send event).1) taken := by
  obtain ⟨lost, hkept, hcoalesced, hstrict⟩ := haccount.kept
  have hbounded := haccount.bounded
  rcases hsend : queue.send event with ⟨returned, later⟩
  have hsent := sent_send queue event
  rw [hsend] at hsent
  cases hsent with
  | queued hroom =>
      refine ⟨?_, lost, ?_, hcoalesced, hstrict⟩
      · rw [List.length_append, List.length_singleton]
        omega
      · rw [← List.append_assoc]
        exact hkept.concat event
  | replaced older newer victim hpolicy hfull hevents hsensor holdest =>
      refine ⟨?_, lost ++ [victim], ?_, ?_, ?_⟩
      · rw [hevents, List.length_append, List.length_cons] at hfull
        simp only [List.length_append, List.length_singleton]
        omega
      · rw [hevents, ← List.append_assoc] at hkept
        rw [← List.append_assoc, ← List.append_assoc]
        exact (hkept.remove hsensor).concat event
      · rw [hcoalesced, ofNat_length_concat]
      · rw [hpolicy]
        exact fun hlatest => DeliveryPolicy.noConfusion hlatest
  | givenUp hpolicy hfull hcontrols hsensor =>
      refine ⟨hbounded, lost ++ [event], hkept.skip hsensor, ?_, ?_⟩
      · rw [hcoalesced, ofNat_length_concat]
      · rw [hpolicy]
        exact fun hlatest => DeliveryPolicy.noConfusion hlatest
  | refused hfull hcontrols => exact haccount

theorem Account.taken {queue : EventQueue} {accepted taken events : List SessionEvent}
    {event : SessionEvent} (haccount : Account queue accepted taken)
    (hevents : queue.events = event :: events) :
    Account { queue with events := events } accepted (taken ++ [event]) := by
  obtain ⟨lost, hkept, hcoalesced, hstrict⟩ := haccount.kept
  have hbounded := haccount.bounded
  rw [hevents] at hkept hbounded
  refine ⟨Nat.le_of_succ_le hbounded, lost, ?_, hcoalesced, hstrict⟩
  rw [List.append_assoc]
  exact hkept

/-- One call on the queue. -/
inductive Call where
  | send (event : SessionEvent)
  | tryRecv

/-- A queue with the events its calls have accepted and delivered. -/
structure Served where
  queue : EventQueue
  accepted : List SessionEvent := []
  delivered : List SessionEvent := []

def Served.call (served : Served) : Call → Served
  | .send event =>
      { served with
        queue := (served.queue.send event).2
        accepted := accept served.accepted event (served.queue.send event).1 }
  | .tryRecv =>
      { served with
        queue := served.queue.tryRecv.2
        delivered := served.delivered ++ served.queue.tryRecv.1.toOption.toList }

/-- A queue on which a sequence of calls has been made. -/
def serve (policy : DeliveryPolicy) (calls : List Call) : Served :=
  calls.foldl Served.call { queue := { policy := policy } }

/-- The events given to send. -/
def sentBy (calls : List Call) : List SessionEvent :=
  calls.filterMap fun call =>
    match call with
    | .send event => some event
    | .tryRecv => none

theorem serve_concat (policy : DeliveryPolicy) (calls : List Call) (call : Call) :
    serve policy (calls ++ [call]) = (serve policy calls).call call := by
  rw [serve, List.foldl_concat, serve]

theorem send_policy (queue : EventQueue) (event : SessionEvent) :
    (queue.send event).2.policy = queue.policy := by
  have hsent := sent_send queue event
  rcases hsend : queue.send event with ⟨returned, later⟩
  rw [hsend] at hsent
  cases hsent <;> rfl

theorem tryRecv_policy (queue : EventQueue) : queue.tryRecv.2.policy = queue.policy := by
  rcases tryRecv_cases queue with ⟨event, events, _, hrecv⟩ | ⟨_, hrecv⟩ <;> rw [hrecv]

theorem serve_policy (policy : DeliveryPolicy) (calls : List Call) :
    (serve policy calls).queue.policy = policy := by
  induction calls using List.reverseRecOn with
  | nil => rfl
  | append_singleton calls call ih =>
      rw [serve_concat]
      cases call with
      | send event => exact (send_policy _ _).trans ih
      | tryRecv => exact (tryRecv_policy _).trans ih

theorem serve_account (policy : DeliveryPolicy) (calls : List Call) :
    Account (serve policy calls).queue (serve policy calls).accepted
      (serve policy calls).delivered := by
  induction calls using List.reverseRecOn with
  | nil => exact account_new policy
  | append_singleton calls call ih =>
      rw [serve_concat]
      cases call with
      | send event => exact ih.send event
      | tryRecv =>
          rw [Served.call]
          rcases tryRecv_cases (serve policy calls).queue with
            ⟨event, events, hevents, hrecv⟩ | ⟨_, hrecv⟩
          · rw [hrecv]
            exact ih.taken hevents
          · rw [hrecv]
            exact (List.append_nil (serve policy calls).delivered).symm ▸ ih

/-- A sample is always accepted, and only events given to send are. -/
theorem serve_accepted (calls : List Call) :
    (serve .latestSensors calls).accepted.Sublist (sentBy calls) ∧
      (serve .latestSensors calls).accepted.countP isSensor =
        (sentBy calls).countP isSensor := by
  induction calls using List.reverseRecOn with
  | nil => exact ⟨List.Sublist.refl _, rfl⟩
  | append_singleton calls call ih =>
      rw [serve_concat, sentBy, List.filterMap_append]
      cases call with
      | tryRecv => exact (List.append_nil (sentBy calls)).symm ▸ ih
      | send event =>
          change (accept _ event _).Sublist (sentBy calls ++ [event]) ∧
            (accept _ event _).countP isSensor = (sentBy calls ++ [event]).countP isSensor
          have hsent := sent_send (serve .latestSensors calls).queue event
          rcases hsend : (serve .latestSensors calls).queue.send event with ⟨returned, later⟩
          rw [hsend] at hsent
          have hcounts := ih.2
          cases hsent with
          | refused hfull hcontrols =>
              have hcontrol := (hcontrols (serve_policy _ _)).1
              refine ⟨ih.1.trans (List.sublist_append_left _ _), ?_⟩
              rw [accept, List.countP_append, hcounts, List.countP_singleton, hcontrol]
              rfl
          | _ =>
              refine ⟨ih.1.append_right [event], ?_⟩
              rw [accept, List.countP_append, List.countP_append, hcounts]

/-- Whatever is sent and received, a visualization queue stays within its limit, keeps
the order of sending, delivers every control event it accepted, and accounts for every
sample.  It refuses only a control event while it holds nothing else, and what it gives
up is the oldest queued sample of its sensor. -/
theorem serve_loses_only_samples (calls : List Call) :
    (serve .latestSensors calls).queue.events.length ≤ eventQueueLimit ∧
      (serve .latestSensors calls).delivered.Sublist (sentBy calls) ∧
      ((serve .latestSensors calls).delivered ++
          (serve .latestSensors calls).queue.events).filter (fun event => !isSensor event) =
        (serve .latestSensors calls).accepted.filter (fun event => !isSensor event) ∧
      (∃ lost, (sentBy calls).countP isSensor =
          (serve .latestSensors calls).delivered.countP isSensor +
            (serve .latestSensors calls).queue.events.countP isSensor + lost ∧
        (serve .latestSensors calls).queue.coalesced = UInt64.ofNat lost) ∧
      ∀ event, Sent (serve .latestSensors calls).queue event
          ((serve .latestSensors calls).queue.send event) ∧
        ∀ error, ((serve .latestSensors calls).queue.send event).1 = .error error →
          isSensor event = false ∧
            (serve .latestSensors calls).queue.events.length = eventQueueLimit ∧
            (∀ old ∈ (serve .latestSensors calls).queue.events, isSensor old = false) ∧
            ((serve .latestSensors calls).queue.send event).2 =
              (serve .latestSensors calls).queue := by
  obtain ⟨hbounded, lost, hkept, hcoalesced, _⟩ := serve_account .latestSensors calls
  obtain ⟨hsublist, hcount⟩ := serve_accepted calls
  refine ⟨hbounded, ?_, hkept.filter_eq, ⟨lost.length, ?_, hcoalesced⟩, fun event =>
    ⟨sent_send _ event, fun error herror => ?_⟩⟩
  · exact ((List.sublist_append_left _ _).trans hkept.inOrder).trans hsublist
  · rw [← hcount, hkept.countP_eq, List.countP_append]
  · exact (sent_send _ event).of_error (serve_policy _ _) herror

end EventQueue

end Ipc

end Wiiland
