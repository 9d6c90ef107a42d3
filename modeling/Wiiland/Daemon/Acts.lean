/-
What can happen to one connection, apart from what is published to it.  A turn of the
server is a sequence of these acts, so what every act keeps holds of every connection.
-/
import Mathlib.Logic.Relation
import Wiiland.Daemon.Server

namespace Wiiland

namespace Daemon

open Ipc

/-- Which completions a connection may get. -/
abbrev Completions : Type := Client → UInt64 → Except ProtocolError ResponseResult → Prop

namespace Client

/-- One act; the completions that may come are a parameter. -/
inductive Act (codec : Codec) (allowed : Completions) : Client → Client → Prop
  /-- Bytes come in, or a write is put off. -/
  | receive {client : Client} (stream : UnixStream) (frames : FrameBuffer)
      (pendingFrames : List (List UInt8)) (hwritten : stream.written = client.stream.written) :
      Act codec allowed client { client with stream, frames, pendingFrames }
  | handle {client : Client} (status : Status) (devices : List DeviceInfo)
      (frame : List UInt8) (hopen : client.isOpen = true) :
      Act codec allowed client (client.handleFrame codec status devices frame)
  | refuse {client : Client} (error : ProtocolError) (hopen : client.isOpen = true) :
      Act codec allowed client (client.refuse codec error)
  | write {client : Client} (front : Pending) (rest : List Pending) (count : Nat)
      (stream : UnixStream) (houtput : client.output = front :: rest)
      (hcount : 0 < count) (hfits : count ≤ front.bytes.length - front.offset)
      (hwritten : stream.written =
        client.stream.written ++ (front.bytes.drop front.offset).take count)
      (hkept : client.immediateClose = false) :
      Act codec allowed client
        { client with
          stream
          output := advance front rest count
          queuedBytes := client.queuedBytes - count
          saturated := client.saturated || decide (client.queuedBytes < count) }
  | lose {client : Client} (stream : UnixStream)
      (hwritten : stream.written = client.stream.written) :
      Act codec allowed client { client with stream, closing := true }
  | take {client : Client} : Act codec allowed client client.takeCommands.2
  | complete {client : Client} (id : UInt64) (result : Except ProtocolError ResponseResult)
      (hallowed : allowed client id result) :
      Act codec allowed client (client.complete codec id result)

abbrev Acts (codec : Codec) (allowed : Completions) : Client → Client → Prop :=
  Relation.ReflTransGen (Act codec allowed)

theorem isOpen_iff {client : Client} :
    client.isOpen = true ↔ client.closing = false ∧ client.immediateClose = false := by
  rw [isOpen, Bool.and_eq_true, Bool.not_eq_true', Bool.not_eq_true']

variable {codec : Codec} {allowed : Completions} {status : Status}
variable {devices : List DeviceInfo} {client : Client}

theorem acts_processPending (hopen : client.isOpen = true) (budget : Nat) :
    Acts codec allowed client (client.processPending codec status devices budget).2 := by
  induction budget generalizing client with
  | zero => exact .refl
  | succ budget ih =>
      rw [processPending]
      split
      · exact .refl
      · next frame rest _ =>
        have hpop : Act codec allowed client { client with pendingFrames := rest } :=
          .receive client.stream client.frames rest rfl
        have hhandle : Act codec allowed { client with pendingFrames := rest }
            (handleFrame codec status devices { client with pendingFrames := rest } frame) :=
          .handle status devices frame hopen
        simp only
        split
        · next hstill => exact .head hpop (.head hhandle (ih hstill))
        · exact .head hpop (.single hhandle)

theorem read_written (stream : UnixStream) : stream.read.2.written = stream.written := by
  rw [UnixStream.read]
  split <;> rfl

theorem acts_readLoop (hopen : client.isOpen = true) (reads budget : Nat) :
    Acts codec allowed client (readLoop codec status devices reads budget client).2 := by
  induction reads generalizing client budget with
  | zero => exact .refl
  | succ reads ih =>
      have hwritten := read_written client.stream
      have hreceive : ∀ (stream : UnixStream) frames pendingFrames,
          client.stream.read.2 = stream →
            Act codec allowed client { client with stream, frames, pendingFrames } :=
        fun stream frames pendingFrames hstream =>
          .receive stream frames pendingFrames (hstream ▸ hwritten)
      rw [readLoop]
      split
      · next stream hread => exact .single (hreceive stream _ _ (congrArg Prod.snd hread))
      · next stream hread => exact .single (hreceive stream _ _ (congrArg Prod.snd hread))
      · next bytes stream hread =>
        have hstream := congrArg Prod.snd hread
        split
        · exact .single (hreceive stream _ _ hstream)
        · split
          · next error frames _ =>
            refine .head (hreceive stream frames client.pendingFrames hstream) (.single ?_)
            exact .refuse error hopen
          · next whole frames _ =>
            have hreceived := hreceive stream frames (client.pendingFrames ++ whole) hstream
            have hhandled := @acts_processPending codec allowed status devices
              { client with stream, frames, pendingFrames := client.pendingFrames ++ whole }
              hopen budget
            simp only
            split
            · exact .head hreceived hhandled
            · next hgo =>
              simp only [Bool.or_eq_true, not_or, Bool.not_eq_true', Bool.not_eq_false] at hgo
              exact .head hreceived (hhandled.trans (ih hgo.1.1.1 _))

theorem acts_readClient (hopen : client.isOpen = true) :
    Acts codec allowed client (client.readClient codec status devices).2 := by
  have hpending := @acts_processPending codec allowed status devices client hopen frameBudget
  rw [readClient]
  simp only
  split
  · exact hpending
  · next hgo =>
    simp only [Bool.or_eq_true, not_or, Bool.not_eq_true', Bool.not_eq_false] at hgo
    exact hpending.trans (acts_readLoop hgo.2 _ _)

/-- What a write does to what is written. -/
theorem write_spec (stream : UnixStream) (offered : List UInt8) :
    match stream.write offered with
    | (.wrote count, later) => count ≤ offered.length ∧
        later.written = stream.written ++ offered.take count
    | (_, later) => later.written = stream.written := by
  rw [UnixStream.write]
  cases stream.writes with
  | nil => rfl
  | cons answer writes =>
      cases answer with
      | wrote count =>
          refine ⟨Nat.min_le_right _ _, ?_⟩
          rw [List.take_eq_take_min]
      | wouldBlock => rfl
      | failed => rfl

theorem write_reads (stream : UnixStream) (offered : List UInt8) :
    (stream.write offered).2.reads = stream.reads := by
  rw [UnixStream.write]
  split <;> rfl

theorem acts_writeLoop (hkept : client.immediateClose = false) (budget : Nat) :
    Acts codec allowed client (client.writeLoop budget).2 := by
  induction budget using Nat.strongRecOn generalizing client with
  | ind budget ih =>
      rw [writeLoop]
      split
      · exact .refl
      · next hbudget =>
        split
        · exact .refl
        · next front rest houtput =>
          have hspec := write_spec client.stream
            ((front.bytes.drop front.offset).take budget)
          split
          · next count stream hwrite =>
            rw [hwrite] at hspec
            obtain ⟨hcount, hwritten⟩ := hspec
            rw [List.length_take, List.length_drop] at hcount
            rw [List.take_take, Nat.min_eq_left (hcount.trans (Nat.min_le_left _ _))] at hwritten
            split
            · next hzero =>
              rw [hzero, List.take_zero, List.append_nil] at hwritten
              exact .single (.lose stream hwritten)
            · next hpos =>
              refine .head (.write front rest count stream houtput (Nat.pos_of_ne_zero hpos)
                (hcount.trans (Nat.min_le_right _ _)) hwritten hkept) (ih _ ?_ hkept)
              omega
          · next stream hwrite =>
            rw [hwrite] at hspec
            exact .single (.receive stream client.frames client.pendingFrames hspec)
          · next stream hwrite =>
            rw [hwrite] at hspec
            exact .single (.lose stream hspec)

theorem acts_readTurn (revents : Revents) :
    Acts codec allowed client (client.readTurn codec status devices revents).2 := by
  rw [readTurn]
  split
  · next hguard => exact acts_readClient (Bool.and_eq_true_iff.mp hguard).1
  · exact .refl

theorem acts_writeTurn {kept : Bool} (hkept : kept = true → client.immediateClose = false)
    (revents : Revents) : Acts codec allowed client (writeTurn kept client revents).2 := by
  rw [writeTurn]
  split
  · next hguard => exact acts_writeLoop (hkept (Bool.and_eq_true_iff.mp hguard).1) _
  · exact .refl

/-- The turn of a connection that is kept is a sequence of acts. -/
theorem acts_serve {revents : Revents} {later : Client}
    (hserve : client.serve codec status devices revents = some later) :
    Acts codec allowed client later := by
  have hread := @acts_readTurn codec allowed status devices client revents
  rw [serve] at hserve
  generalize client.readTurn codec status devices revents = read at hread hserve
  have hwrite := @acts_writeTurn codec allowed read.2 (read.1 && !read.2.immediateClose)
    (fun hkept => Bool.not_eq_true' _ ▸ (Bool.and_eq_true_iff.mp hkept).2) revents
  simp only at hserve
  split at hserve
  · obtain rfl := Option.some.inj hserve
    exact hread.trans hwrite
  · cases hserve

/-- The id a message replies to; a notification replies to nothing. -/
def replyTo : ServerMessage → Option (Option UInt64)
  | .response id _ => some (some id)
  | .error id _ => some id
  | .notification _ => none

/-- A reply is queued, or the connection is given up. -/
inductive Replies (codec : Codec) (id : Option UInt64) (client : Client) : Client → Prop
  | sent (message : ServerMessage) (bytes : List UInt8) (hid : replyTo message = some id)
      (hframe : encodeFrame codec.messages message = .ok bytes) :
      Replies codec id client (client.send message bytes)
  | lost : Replies codec id client { client with immediateClose := true }

theorem replies_queue {id : Option UInt64} {message : ServerMessage}
    (hid : replyTo message = some id) : Replies codec id client (client.queue codec message) := by
  rw [queue]
  split
  · exact .lost
  · next bytes hframe => exact .sent message bytes hid hframe

theorem replies_queueResponse (id : UInt64) (result : ResponseResult) :
    Replies codec (some id) client (client.queueResponse codec id result) := by
  rw [queueResponse]
  split
  · next bytes hframe => exact .sent _ bytes rfl hframe
  · exact replies_queue rfl

theorem replies_refuse (error : ProtocolError) :
    Replies codec none { client.handling none with closing := true }
      (client.refuse codec error) := replies_queue rfl

/-- What becomes of a frame: it is answered, deferred, or ends the connection. -/
inductive Handles (codec : Codec) (client : Client) : Option UInt64 → Client → Prop
  | undecoded {later : Client} (hreply : Replies codec none (client.handling none) later) :
      Handles codec client none later
  | accepted (id : UInt64) {later : Client} (hfirst : client.negotiated = false)
      (hreply : Replies codec (some id)
        { client.handling (some id) with negotiated := true } later) :
      Handles codec client (some id) later
  | refused (id : UInt64) {later : Client} (hfirst : client.negotiated = false)
      (hreply : Replies codec (some id) (client.handling (some id)) later) :
      Handles codec client (some id) { later with closing := true }
  | answered (id : UInt64) (input devices : Bool) {later : Client}
      (hlater : client.negotiated = true)
      (hreply : Replies codec (some id)
        { client.handling (some id) with input, devices } later) :
      Handles codec client (some id) later
  | overrun (id : UInt64) (hlater : client.negotiated = true) :
      Handles codec client (some id) { client.handling (some id) with immediateClose := true }
  | deferred (id : UInt64) (command : Command) (hlater : client.negotiated = true) :
      Handles codec client (some id)
        { client.handling (some id) with commands := client.commands ++ [(id, command)] }

theorem applySubscriptions_eq (subscriptions : List Subscription) (enabled : Bool) :
    ∃ input devices, client.applySubscriptions subscriptions enabled =
      { client with input, devices } := by
  induction subscriptions generalizing client with
  | nil => exact ⟨client.input, client.devices, rfl⟩
  | cons wanted subscriptions ih =>
      obtain ⟨input, devices, hrest⟩ := @ih (client.applySubscription enabled wanted)
      refine ⟨input, devices, hrest.trans ?_⟩
      cases wanted <;> rfl

theorem handles_defer {id : UInt64} (hlater : client.negotiated = true) (command : Command) :
    Handles codec client (some id) ((client.handling (some id)).defer codec id command) := by
  rw [defer]
  split
  · exact .answered id client.input client.devices hlater (replies_queue rfl)
  · split
    · exact .overrun id hlater
    · exact .deferred id command hlater

theorem handles_handleCommand {id : UInt64} (hlater : client.negotiated = true)
    (command : Command) :
    Handles codec client (some id)
      ((client.handling (some id)).handleCommand codec status devices id command) := by
  have hresponse : ∀ result, Handles codec client (some id)
      ((client.handling (some id)).queueResponse codec id result) := fun result =>
    .answered id client.input client.devices hlater (replies_queueResponse id result)
  have herror : ∀ error, Handles codec client (some id)
      ((client.handling (some id)).queue codec (.error (some id) error)) := fun error =>
    .answered id client.input client.devices hlater (replies_queue rfl)
  have hsubscribe : ∀ subscriptions enabled result, Handles codec client (some id)
      (((client.handling (some id)).applySubscriptions subscriptions enabled).queueResponse
        codec id result) := by
    intro subscriptions enabled result
    obtain ⟨input, devices, hflags⟩ :=
      @applySubscriptions_eq (client.handling (some id)) subscriptions enabled
    rw [hflags]
    exact .answered id input devices hlater (replies_queueResponse id result)
  cases command with
  | hello minMajor maxMajor => exact herror _
  | ping => exact hresponse _
  | status => exact hresponse _
  | devices => exact hresponse _
  | subscribe subscriptions => exact hsubscribe ..
  | unsubscribe subscriptions => exact hsubscribe ..
  | diagnostics => exact handles_defer hlater _
  | config => exact handles_defer hlater _
  | startCapture syspath => exact handles_defer hlater _
  | stopCapture => exact handles_defer hlater _
  | unknown => exact herror _

theorem handles_negotiate {id : UInt64} (hfirst : client.negotiated = false)
    (command : Command) :
    Handles codec client (some id)
      ((client.handling (some id)).negotiate codec id command) := by
  cases command with
  | hello minMajor maxMajor =>
      rw [negotiate]
      split
      · exact .accepted id hfirst (replies_queueResponse id _)
      · exact .refused id hfirst (replies_queue rfl)
  | _ => exact .refused id hfirst (replies_queue rfl)

/-- The id of a frame, none when it does not decode. -/
def frameId (codec : Codec) (frame : List UInt8) : Option UInt64 :=
  (decodeFrame codec.requests frame).toOption.map Request.id

theorem handles_handleFrame (frame : List UInt8) :
    Handles codec client (frameId codec frame)
      (client.handleFrame codec status devices frame) := by
  rw [handleFrame, frameId]
  split
  · next error hdecode =>
    rw [hdecode]
    exact .undecoded (replies_queue rfl)
  · next request hdecode =>
    rw [hdecode]
    by_cases hnegotiated : client.negotiated = true
    · rw [if_pos (show (client.handling (some request.id)).negotiated = true from hnegotiated)]
      exact handles_handleCommand hnegotiated request.command
    · rw [if_neg (show ¬(client.handling (some request.id)).negotiated = true from hnegotiated)]
      exact handles_negotiate (Bool.eq_false_iff.mpr hnegotiated) request.command

/-- A completion is a reply, with the leases as they are afterwards. -/
theorem replies_complete (id : UInt64) (result : Except ProtocolError ResponseResult) :
    ∃ capture, Replies codec (some id)
      { client with taken := client.taken.erase id, capture }
      (client.complete codec id result) := by
  cases result with
  | error error => exact ⟨client.capture, replies_queue rfl⟩
  | ok result =>
      rw [complete]
      split
      · exact ⟨client.capture, replies_queue rfl⟩
      · have hlease : ∃ capture, lease { client with taken := client.taken.erase id } result =
            { client with taken := client.taken.erase id, capture } := by
          cases result with
          | captureStarted info =>
              rw [lease]
              split
              · exact ⟨client.capture, rfl⟩
              · exact ⟨_, rfl⟩
          | captureStopped => exact ⟨[], rfl⟩
          | _ => exact ⟨client.capture, rfl⟩
        obtain ⟨capture, hlease⟩ := hlease
        refine ⟨capture, ?_⟩
        rw [hlease]
        exact replies_queueResponse id result

end Client

end Daemon

end Wiiland
