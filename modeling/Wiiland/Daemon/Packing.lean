/-
What a connection makes of a stream of requests, apart from how the stream reaches it:
the frames before the first overlong line, handled one after the other.
-/
import Wiiland.Daemon.Acts
import Wiiland.Ipc.Framing

namespace Wiiland

namespace Daemon

open Ipc

/-- The frames before the first line that is too long. -/
def fittingFrames (stream : List UInt8) : List (List UInt8) :=
  ((Lines.cut newline stream).1.takeWhile fun line => decide (Ipc.Fits line)).map stripCr

/-- The control commands, which a connection leaves to the reactor. -/
def isDeferred : Command → Bool
  | .diagnostics | .config | .startCapture _ | .stopCapture => true
  | _ => false

/-- The ids of the control commands of some frames. -/
def deferredIds (codec : Codec) (frames : List (List UInt8)) : List UInt64 :=
  frames.filterMap fun frame =>
    match decodeFrame codec.requests frame with
    | .ok request => if isDeferred request.command then some request.id else none
    | .error _ => none

/-- A first request that completes the negotiation. -/
def completesHello : Command → Bool
  | .hello minMajor maxMajor =>
      decide (minMajor ≤ protocolMajor) && decide (protocolMajor ≤ maxMajor)
  | _ => false

/-- The frames that are handled: all of them, or those up to a failed negotiation. -/
def heard (codec : Codec) : List (List UInt8) → List (List UInt8)
  | [] => []
  | frame :: rest =>
      match decodeFrame codec.requests frame with
      | .error _ => frame :: heard codec rest
      | .ok request => if completesHello request.command then frame :: rest else [frame]

/-- Whether the negotiation fails. -/
def turnedAway (codec : Codec) : List (List UInt8) → Bool
  | [] => false
  | frame :: rest =>
      match decodeFrame codec.requests frame with
      | .error _ => turnedAway codec rest
      | .ok request => !completesHello request.command

namespace Client

/-- A reply, except to a request of one of the given ids. -/
def counts (ids : List UInt64) (message : ServerMessage) : Bool :=
  match replyTo message with
  | none => false
  | some none => true
  | some (some id) => !ids.contains id

/-- The replies so far, except to the given ids. -/
def repliesExcept (ids : List UInt64) (client : Client) : List (ServerMessage × List UInt8) :=
  client.history.filter fun entry => counts ids entry.1

def handledIds (client : Client) : List (Option UInt64) := client.handled.map Handled.id

/-- Two connections that have handled and answered the same. -/
structure Alike (ids : List UInt64) (first second : Client) : Prop where
  negotiated : first.negotiated = second.negotiated
  closing : first.closing = second.closing
  handled : first.handledIds = second.handledIds
  replies : first.repliesExcept ids = second.repliesExcept ids

variable {codec : Codec} {status : Status} {devices : List DeviceInfo} {ids : List UInt64}
  {client first second third : Client}

namespace Alike

theorem symm (halike : Alike ids first second) : Alike ids second first :=
  ⟨halike.negotiated.symm, halike.closing.symm, halike.handled.symm, halike.replies.symm⟩

theorem trans (hfirst : Alike ids first second) (hsecond : Alike ids second third) :
    Alike ids first third :=
  ⟨hfirst.negotiated.trans hsecond.negotiated, hfirst.closing.trans hsecond.closing,
    hfirst.handled.trans hsecond.handled, hfirst.replies.trans hsecond.replies⟩

end Alike

/-- A message that is queued only adds to the history. -/
theorem send_frame (message : ServerMessage) (bytes : List UInt8) :
    (client.send message bytes).negotiated = client.negotiated ∧
      (client.send message bytes).closing = client.closing ∧
      (client.send message bytes).handled = client.handled ∧
      (client.send message bytes).history = client.history ++ [(message, bytes)] := by
  unfold send queueEncoded
  split <;> exact ⟨rfl, rfl, rfl, rfl⟩

theorem repliesExcept_send (message : ServerMessage) (bytes : List UInt8) :
    (client.send message bytes).repliesExcept ids =
      client.repliesExcept ids ++ if counts ids message then [(message, bytes)] else [] := by
  have hone : [(message, bytes)].filter (fun entry => counts ids entry.1) =
      if counts ids message then [(message, bytes)] else [] := List.filter_cons
  rw [repliesExcept, (send_frame message bytes).2.2.2, List.filter_append, hone]
  rfl

theorem Alike.send (halike : Alike ids first second) (message : ServerMessage)
    (bytes : List UInt8) : Alike ids (first.send message bytes) (second.send message bytes) := by
  obtain ⟨hnegotiated, hclosing, hhandled, _⟩ := @send_frame first message bytes
  obtain ⟨hnegotiated', hclosing', hhandled', _⟩ := @send_frame second message bytes
  refine ⟨?_, ?_, ?_, ?_⟩
  · rw [hnegotiated, hnegotiated', halike.negotiated]
  · rw [hclosing, hclosing', halike.closing]
  · rw [handledIds, handledIds, hhandled, hhandled']
    exact halike.handled
  · rw [repliesExcept_send, repliesExcept_send, halike.replies]

/-- A message that does not count leaves a connection as it was. -/
theorem alike_send {message : ServerMessage} (hcounts : counts ids message = false)
    (bytes : List UInt8) : Alike ids (client.send message bytes) client := by
  obtain ⟨hnegotiated, hclosing, hhandled, _⟩ := @send_frame client message bytes
  refine ⟨hnegotiated, hclosing, congrArg (List.map Handled.id) hhandled, ?_⟩
  rw [repliesExcept_send, hcounts]
  exact List.append_nil _

theorem alike_queue {message : ServerMessage} (hcounts : counts ids message = false) :
    Alike ids (client.queue codec message) client := by
  unfold queue
  split
  · exact ⟨rfl, rfl, rfl, rfl⟩
  · exact alike_send hcounts _

theorem Alike.queue (halike : Alike ids first second) (message : ServerMessage) :
    Alike ids (first.queue codec message) (second.queue codec message) := by
  unfold Client.queue
  split
  · exact ⟨halike.negotiated, halike.closing, halike.handled, halike.replies⟩
  · exact halike.send message _

theorem Alike.queueResponse (halike : Alike ids first second) (id : UInt64)
    (result : ResponseResult) :
    Alike ids (first.queueResponse codec id result) (second.queueResponse codec id result) := by
  unfold Client.queueResponse
  split
  · exact halike.send _ _
  · exact halike.queue _

/-- A control command leaves its connection as it was: it is put off, or refused with
a reply of its own id. -/
theorem alike_defer {id : UInt64} (hid : id ∈ ids) (command : Command) :
    Alike ids (client.defer codec id command) client := by
  unfold defer
  split
  · exact alike_queue (by simpa [counts, replyTo] using hid)
  · split <;> exact ⟨rfl, rfl, rfl, rfl⟩

theorem alike_applySubscriptions (subscriptions : List Subscription) (enabled : Bool) :
    Alike ids (client.applySubscriptions subscriptions enabled) client := by
  obtain ⟨input, devices, hsame⟩ := @applySubscriptions_eq client subscriptions enabled
  rw [hsame]
  exact ⟨rfl, rfl, rfl, rfl⟩

theorem Alike.handling (halike : Alike ids first second) (id : Option UInt64) :
    Alike ids (first.handling id) (second.handling id) := by
  refine ⟨halike.negotiated, halike.closing, ?_, halike.replies⟩
  rw [handledIds, handledIds, Client.handling, Client.handling, List.map_append,
    List.map_append]
  exact congrArg (· ++ [id]) halike.handled

theorem Alike.handleCommand (halike : Alike ids first second) {id : UInt64} {command : Command}
    (hid : isDeferred command = true → id ∈ ids) :
    Alike ids (first.handleCommand codec status devices id command)
      (second.handleCommand codec status devices id command) := by
  cases command with
  | hello | unknown => exact halike.queue _
  | ping | status | devices => exact halike.queueResponse id _
  | subscribe subscriptions | unsubscribe subscriptions =>
      exact ((alike_applySubscriptions subscriptions _).trans
        (halike.trans (alike_applySubscriptions subscriptions _).symm)).queueResponse id _
  | diagnostics | config | startCapture | stopCapture =>
      exact (alike_defer (hid rfl) _).trans (halike.trans (alike_defer (hid rfl) _).symm)

theorem Alike.negotiate (halike : Alike ids first second) (id : UInt64) (command : Command) :
    Alike ids (first.negotiate codec id command) (second.negotiate codec id command) := by
  have hrefused : ∀ message, Alike ids { first.queue codec message with closing := true }
      { second.queue codec message with closing := true } := by
    intro message
    have hqueued : Alike ids (first.queue codec message) (second.queue codec message) :=
      halike.queue message
    exact ⟨hqueued.negotiated, rfl, hqueued.handled, hqueued.replies⟩
  cases command with
  | hello minMajor maxMajor =>
      by_cases hversion : minMajor ≤ protocolMajor ∧ protocolMajor ≤ maxMajor
      · simp only [Client.negotiate, if_pos hversion]
        have haccepted : Alike ids { first with negotiated := true }
            { second with negotiated := true } :=
          ⟨rfl, halike.closing, halike.handled, halike.replies⟩
        exact haccepted.queueResponse id _
      · simp only [Client.negotiate, if_neg hversion]
        exact hrefused _
  | _ => exact hrefused _

/-- Connections that look alike handle a frame alike. -/
theorem Alike.handleFrame (halike : Alike ids first second) {frame : List UInt8}
    (hdeferred : ∀ id ∈ deferredIds codec [frame], id ∈ ids) :
    Alike ids (first.handleFrame codec status devices frame)
      (second.handleFrame codec status devices frame) := by
  unfold Client.handleFrame
  cases hdecode : decodeFrame codec.requests frame with
  | error error => exact (halike.handling none).queue _
  | ok request =>
      have hhandling := halike.handling (some request.id)
      simp only
      rw [hhandling.negotiated]
      split
      · refine hhandling.handleCommand fun hcontrol => hdeferred request.id ?_
        simp [deferredIds, hdecode, hcontrol]
      · exact hhandling.negotiate request.id request.command

/-- A reply changes neither what is handled nor how far the negotiation is. -/
theorem replies_frame {id : Option UInt64} (hreply : Replies codec id first second) :
    second.negotiated = first.negotiated ∧ second.closing = first.closing ∧
      second.handledIds = first.handledIds := by
  cases hreply with
  | sent message bytes _ _ =>
      obtain ⟨hnegotiated, hclosing, hhandled, _⟩ := @send_frame first message bytes
      exact ⟨hnegotiated, hclosing, congrArg (List.map Handled.id) hhandled⟩
  | lost => exact ⟨rfl, rfl, rfl⟩

theorem handledIds_handling (id : Option UInt64) :
    (client.handling id).handledIds = client.handledIds ++ [id] := by
  rw [handledIds, handling, List.map_append]
  rfl

/-- A frame is handled once, and after the negotiation none closes the connection. -/
theorem handleFrame_frame (frame : List UInt8) :
    (client.handleFrame codec status devices frame).handledIds =
        client.handledIds ++ [frameId codec frame] ∧
      (client.negotiated = true →
        (client.handleFrame codec status devices frame).negotiated = true ∧
        (client.handleFrame codec status devices frame).closing = client.closing) := by
  have hhandles := @handles_handleFrame codec status devices client frame
  generalize client.handleFrame codec status devices frame = later at hhandles
  generalize frameId codec frame = id at hhandles
  cases hhandles with
  | undecoded hreply =>
      obtain ⟨hnegotiated, hclosing, hhandled⟩ := replies_frame hreply
      exact ⟨hhandled.trans (handledIds_handling none),
        fun hon => ⟨hnegotiated.trans hon, hclosing⟩⟩
  | accepted id hfirst hreply =>
      obtain ⟨_, _, hhandled⟩ := replies_frame hreply
      refine ⟨hhandled.trans (handledIds_handling (some id)), fun hon => ?_⟩
      rw [hfirst] at hon
      cases hon
  | refused id hfirst hreply =>
      obtain ⟨_, _, hhandled⟩ := replies_frame hreply
      refine ⟨hhandled.trans (handledIds_handling (some id)), fun hon => ?_⟩
      rw [hfirst] at hon
      cases hon
  | answered id input devices _ hreply =>
      obtain ⟨hnegotiated, hclosing, hhandled⟩ := replies_frame hreply
      exact ⟨hhandled.trans (handledIds_handling (some id)),
        fun hon => ⟨hnegotiated.trans hon, hclosing⟩⟩
  | overrun id _ => exact ⟨handledIds_handling (some id), fun hon => ⟨hon, rfl⟩⟩
  | deferred id command _ => exact ⟨handledIds_handling (some id), fun hon => ⟨hon, rfl⟩⟩

/-- The first request that decodes completes the negotiation or closes the connection. -/
theorem handleFrame_first (hfirst : client.negotiated = false) (hopen : client.closing = false)
    (frame : List UInt8) :
    match decodeFrame codec.requests frame with
    | .error _ =>
        (client.handleFrame codec status devices frame).negotiated = false ∧
          (client.handleFrame codec status devices frame).closing = false
    | .ok request =>
        (client.handleFrame codec status devices frame).negotiated =
            completesHello request.command ∧
          (client.handleFrame codec status devices frame).closing =
            !completesHello request.command := by
  unfold handleFrame
  cases hdecode : decodeFrame codec.requests frame with
  | error error =>
      obtain ⟨hnegotiated, hclosing, _⟩ := replies_frame
        (@replies_queue codec (client.handling none) none (.error none error) rfl)
      exact ⟨hnegotiated.trans hfirst, hclosing.trans hopen⟩
  | ok request =>
      have hrefused : ∀ error, replyTo (.error (some request.id) error) = some (some request.id) →
          ((client.handling (some request.id)).queue codec
            (.error (some request.id) error)).negotiated = false := fun error hid =>
        (replies_frame (replies_queue hid)).1.trans hfirst
      simp only
      rw [if_neg (show ¬(client.handling (some request.id)).negotiated = true by
        rw [show (client.handling (some request.id)).negotiated = client.negotiated from rfl,
          hfirst]
        exact Bool.false_ne_true)]
      cases request.command with
      | hello minMajor maxMajor =>
          by_cases hversion : minMajor ≤ protocolMajor ∧ protocolMajor ≤ maxMajor
          · simp only [negotiate, completesHello, hversion.1, hversion.2]
            obtain ⟨hnegotiated, hclosing, _⟩ := replies_frame (@replies_queueResponse codec
              { client.handling (some request.id) with negotiated := true } request.id
              (.hello protocolMajor protocolMinor daemonVersion))
            exact ⟨hnegotiated, hclosing.trans hopen⟩
          · have hcompletes : completesHello (.hello minMajor maxMajor) = false := by
              rw [completesHello, Bool.and_eq_false_iff, decide_eq_false_iff_not,
                decide_eq_false_iff_not]
              exact not_and_or.mp hversion
            simp only [negotiate, if_neg hversion, hcompletes]
            exact ⟨hrefused _ rfl, rfl⟩
      | _ => exact ⟨hrefused _ rfl, rfl⟩

/-- Some frames handled one after the other, until the connection is closing. -/
def handleAll (codec : Codec) (status : Status) (devices : List DeviceInfo) (client : Client)
    (frames : List (List UInt8)) : Client :=
  frames.foldl (fun client frame =>
    if client.closing then client else client.handleFrame codec status devices frame) client

theorem handleAll_append (frames more : List (List UInt8)) :
    handleAll codec status devices client (frames ++ more) =
      handleAll codec status devices (handleAll codec status devices client frames) more :=
  List.foldl_append

theorem handleAll_closing (hclosing : client.closing = true) (frames : List (List UInt8)) :
    handleAll codec status devices client frames = client := by
  induction frames with
  | nil => rfl
  | cons frame rest ih =>
      rw [handleAll, List.foldl_cons, if_pos hclosing]
      exact ih

theorem handleAll_cons (hopen : client.closing = false) (frame : List UInt8)
    (rest : List (List UInt8)) :
    handleAll codec status devices client (frame :: rest) =
      handleAll codec status devices (client.handleFrame codec status devices frame) rest := by
  rw [handleAll, List.foldl_cons, if_neg (by simp [hopen])]
  rfl

theorem handleAll_negotiated (hnegotiated : client.negotiated = true)
    (hopen : client.closing = false) (frames : List (List UInt8)) :
    (handleAll codec status devices client frames).handledIds =
        client.handledIds ++ frames.map (frameId codec) ∧
      (handleAll codec status devices client frames).closing = false := by
  induction frames generalizing client with
  | nil => exact ⟨(List.append_nil _).symm, hopen⟩
  | cons frame rest ih =>
      obtain ⟨hhandled, hstays⟩ := @handleFrame_frame codec status devices client frame
      obtain ⟨hnegotiated, hclosing⟩ := hstays hnegotiated
      obtain ⟨hids, hend⟩ := ih hnegotiated (hclosing.trans hopen)
      rw [handleAll_cons hopen, hids, hhandled, List.append_assoc]
      exact ⟨rfl, hend⟩

/-- All frames are handled, or those up to a failed negotiation. -/
theorem handleAll_first (hfirst : client.negotiated = false) (hopen : client.closing = false)
    (frames : List (List UInt8)) :
    (handleAll codec status devices client frames).handledIds =
        client.handledIds ++ (heard codec frames).map (frameId codec) ∧
      (handleAll codec status devices client frames).closing = turnedAway codec frames := by
  induction frames generalizing client with
  | nil => exact ⟨(List.append_nil _).symm, hopen⟩
  | cons frame rest ih =>
      obtain ⟨hhandled, _⟩ := @handleFrame_frame codec status devices client frame
      have hafter := @handleFrame_first codec status devices client hfirst hopen frame
      rw [handleAll_cons hopen, heard, turnedAway]
      cases hdecode : decodeFrame codec.requests frame with
      | error error =>
          rw [hdecode] at hafter
          obtain ⟨hids, hend⟩ := ih hafter.1 hafter.2
          rw [hids, hhandled, List.append_assoc]
          exact ⟨rfl, hend⟩
      | ok request =>
          rw [hdecode] at hafter
          obtain ⟨hnegotiated, hclosing⟩ := hafter
          simp only
          cases hcompletes : completesHello request.command with
          | true =>
              rw [hcompletes] at hnegotiated hclosing
              obtain ⟨hids, hend⟩ := handleAll_negotiated hnegotiated hclosing rest
              rw [hids, hhandled, List.append_assoc]
              exact ⟨rfl, hend⟩
          | false =>
              rw [hcompletes] at hclosing
              rw [handleAll_closing hclosing, hhandled]
              exact ⟨rfl, hclosing⟩

end Client

end Daemon

end Wiiland
