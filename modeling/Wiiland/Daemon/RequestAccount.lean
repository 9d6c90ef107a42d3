/-
The account of the requests of a connection.  Every frame that was handled has its one
reply, or its command waits for the reactor.
-/
import Wiiland.Daemon.Connections
import Wiiland.Daemon.QueueAccount

namespace Wiiland

namespace Daemon

open Ipc

namespace Client

/-- The ids of the replies to a connection. -/
def replies (client : Client) : List (Option UInt64) :=
  client.history.filterMap fun entry => replyTo entry.1

/-- The ids of the commands that wait and of those that are taken and not completed. -/
def outstanding (client : Client) : List UInt64 := client.commands.map Prod.fst ++ client.taken

/-- The frames, their replies and the outstanding commands of a connection. -/
structure Answered (client : Client) : Prop where
  exact : client.immediateClose = false →
    (client.handled.map Handled.id).Perm (client.replies ++ client.outstanding.map some)
  whileOpen : ∀ frame ∈ client.handled, frame.whileOpen = true
  commands : client.negotiated = false → client.outstanding = []
  flags : client.negotiated = false →
    client.input = false ∧ client.devices = false ∧ client.capture = []

/-- The completions of commands that are taken and not completed. -/
def answersTaken : Completions := fun client id _ => id ∈ client.taken

variable {codec : Codec} {client later : Client}

theorem answered_new (reads : List ReadAnswer) (writes : List WriteAnswer) :
    Answered (.new { reads, writes }) where
  exact _ := .refl _
  whileOpen _ hframe := (List.not_mem_nil hframe).elim
  commands _ := rfl
  flags _ := ⟨rfl, rfl, rfl⟩

/-- A reply is one more, unless the connection is given up; nothing else changes but the
output queue. -/
theorem replies_spec {id : Option UInt64} (hreply : Replies codec id client later) :
    ∃ immediateClose queuedBytes output history,
      later = { client with immediateClose, queuedBytes, output, history } ∧
        (immediateClose = false →
          client.immediateClose = false ∧ later.replies = client.replies ++ [id]) := by
  cases hreply with
  | lost => exact ⟨true, _, _, _, rfl, fun hkept => Bool.noConfusion hkept⟩
  | sent message bytes hid _ =>
      have hreplies : (client.history ++ [(message, bytes)]).filterMap
          (fun entry => replyTo entry.1) = client.replies ++ [id] := by
        rw [List.filterMap_append, replies]
        congr 1
        simp only [List.filterMap_cons, hid, List.filterMap_nil]
      rw [send, queueEncoded]
      split
      · exact ⟨true, _, _, _, rfl, fun hkept => Bool.noConfusion hkept⟩
      · exact ⟨client.immediateClose, _, _, _, rfl, fun hkept => ⟨hkept, hreplies⟩⟩

theorem perm_reply {handled replies outstanding : List (Option UInt64)}
    (hperm : handled.Perm (replies ++ outstanding)) (id : Option UInt64) :
    (handled ++ [id]).Perm (replies ++ [id] ++ outstanding) := by
  rw [List.append_assoc]
  refine (hperm.append_right [id]).trans ?_
  rw [List.append_assoc]
  exact (List.perm_append_comm).append_left replies

theorem perm_defer {handled replies : List (Option UInt64)} {waiting taken : List UInt64}
    (hperm : handled.Perm (replies ++ (waiting ++ taken).map some)) (id : UInt64) :
    (handled ++ [some id]).Perm (replies ++ (waiting ++ [id] ++ taken).map some) := by
  refine (hperm.append_right [some id]).trans ?_
  rw [List.append_assoc]
  refine List.Perm.append_left replies ?_
  rw [← List.map_singleton, ← List.map_append, List.append_assoc, List.append_assoc]
  exact ((List.perm_append_comm).append_left waiting).map some

/-- One more frame was handled while the connection was open. -/
theorem Answered.handling (hanswered : client.Answered) (hopen : client.isOpen = true)
    (id : Option UInt64) : ∀ frame ∈ (client.handling id).handled, frame.whileOpen = true :=
  List.forall_mem_append.mpr ⟨hanswered.whileOpen, List.forall_mem_singleton.mpr hopen⟩

theorem handled_ids (id : Option UInt64) :
    (client.handling id).handled.map Handled.id = client.handled.map Handled.id ++ [id] := by
  rw [Client.handling, List.map_append, List.map_singleton]

/-- A frame and its reply keep the account of a connection that differs in its flags. -/
theorem Answered.reply {base : Client} {id : Option UInt64} (hreply : Replies codec id base later)
    (hhandled : base.handled = (client.handling id).handled)
    (hreplies : base.replies = client.replies) (hwaiting : base.outstanding = client.outstanding)
    (hkept : base.immediateClose = client.immediateClose) (hanswered : client.Answered) :
    later.immediateClose = false →
      (later.handled.map Handled.id).Perm (later.replies ++ later.outstanding.map some) := by
  obtain ⟨_, _, _, _, rfl, hone⟩ := replies_spec hreply
  intro hopen
  obtain ⟨hbefore, hone⟩ := hone hopen
  rw [hone, hreplies]
  change (base.handled.map Handled.id).Perm (_ ++ base.outstanding.map some)
  rw [hhandled, hwaiting, handled_ids]
  exact perm_reply (hanswered.exact (hkept ▸ hbefore)) id

theorem Answered.handles (hanswered : client.Answered) (hopen : client.isOpen = true)
    {id : Option UInt64} (hhandles : Handles codec client id later) : later.Answered := by
  have hwhile := hanswered.handling hopen id
  cases hhandles with
  | undecoded hreply =>
      have hexact := hanswered.reply hreply rfl rfl rfl rfl
      obtain ⟨_, _, _, _, rfl, _⟩ := replies_spec hreply
      exact ⟨hexact, hwhile, hanswered.commands, hanswered.flags⟩
  | accepted id _ hreply =>
      have hexact := hanswered.reply hreply rfl rfl rfl rfl
      obtain ⟨_, _, _, _, rfl, _⟩ := replies_spec hreply
      exact ⟨hexact, hwhile, fun hfirst => Bool.noConfusion hfirst,
        fun hfirst => Bool.noConfusion hfirst⟩
  | refused id _ hreply =>
      have hexact := hanswered.reply hreply rfl rfl rfl rfl
      obtain ⟨_, _, _, _, rfl, _⟩ := replies_spec hreply
      exact ⟨hexact, hwhile, hanswered.commands, hanswered.flags⟩
  | answered id input devices hnegotiated hreply =>
      have hexact := hanswered.reply hreply rfl rfl rfl rfl
      obtain ⟨_, _, _, _, rfl, _⟩ := replies_spec hreply
      have hnot : ¬client.negotiated = false := ne_of_eq_of_ne hnegotiated (by decide)
      exact ⟨hexact, hwhile, fun hfirst => (hnot hfirst).elim,
        fun hfirst => (hnot hfirst).elim⟩
  | overrun id _ =>
      exact ⟨fun hkept => Bool.noConfusion hkept, hwhile, hanswered.commands, hanswered.flags⟩
  | deferred id command hnegotiated =>
      have hnot : ¬client.negotiated = false := ne_of_eq_of_ne hnegotiated (by decide)
      refine ⟨fun hkept => ?_, hwhile, fun hfirst => (hnot hfirst).elim,
        fun hfirst => (hnot hfirst).elim⟩
      have hwaiting : (client.commands ++ [(id, command)]).map Prod.fst =
          client.commands.map Prod.fst ++ [id] := List.map_append
      change ((client.handling (some id)).handled.map Handled.id).Perm (client.replies ++
        ((client.commands ++ [(id, command)]).map Prod.fst ++ client.taken).map some)
      rw [handled_ids, hwaiting]
      exact perm_defer (hanswered.exact hkept) id

theorem Answered.refuse (hanswered : client.Answered) (hopen : client.isOpen = true)
    (error : ProtocolError) : (client.refuse codec error).Answered := by
  have hreply := @replies_refuse codec client error
  have hexact := hanswered.reply hreply rfl rfl rfl rfl
  obtain ⟨_, _, _, _, hlater, _⟩ := replies_spec hreply
  rw [hlater] at hexact ⊢
  exact ⟨hexact, hanswered.handling hopen none, hanswered.commands, hanswered.flags⟩

/-- A completion of a command that is taken makes it a reply. -/
theorem perm_complete {handled replies : List (Option UInt64)} {waiting taken : List UInt64}
    {id : UInt64} (hid : id ∈ taken)
    (hperm : handled.Perm (replies ++ (waiting ++ taken).map some)) :
    handled.Perm (replies ++ [some id] ++ (waiting ++ taken.erase id).map some) := by
  refine hperm.trans ?_
  rw [List.append_assoc]
  refine List.Perm.append_left replies ?_
  rw [← List.map_singleton, ← List.map_append]
  refine List.Perm.map some ?_
  refine ((List.perm_cons_erase hid).append_left waiting).trans ?_
  exact List.perm_middle

theorem Answered.complete (hanswered : client.Answered) {id : UInt64}
    (hid : id ∈ client.taken) (result : Except ProtocolError ResponseResult) :
    (client.complete codec id result).Answered := by
  obtain ⟨capture, hreply⟩ := @replies_complete codec client id result
  obtain ⟨_, _, _, _, hlater, hreplies⟩ := replies_spec hreply
  have hnot : client.negotiated = false → False := by
    intro hfirst
    have hnone := hanswered.commands hfirst
    rw [outstanding, List.append_eq_nil_iff] at hnone
    exact List.not_mem_nil (hnone.2 ▸ hid)
  rw [hlater] at hreplies ⊢
  refine ⟨fun hkept => ?_, hanswered.whileOpen, fun hfirst => (hnot hfirst).elim,
    fun hfirst => (hnot hfirst).elim⟩
  obtain ⟨hbefore, hone⟩ := hreplies hkept
  rw [hone]
  exact perm_complete hid (hanswered.exact hbefore)

theorem Answered.take (hanswered : client.Answered) : client.takeCommands.2.Answered := by
  rw [takeCommands]
  split
  · refine ⟨fun hkept => ?_, hanswered.whileOpen, fun hfirst => ?_, hanswered.flags⟩
    · refine (hanswered.exact hkept).trans (List.Perm.append_left client.replies ?_)
      exact (List.perm_append_comm).map some
    · have hnone := hanswered.commands hfirst
      rw [outstanding, List.append_eq_nil_iff] at hnone ⊢
      exact ⟨rfl, List.append_eq_nil_iff.mpr ⟨hnone.2, hnone.1⟩⟩
  · exact hanswered

theorem Answered.act (hact : Act codec answersTaken client later)
    (hanswered : client.Answered) : later.Answered := by
  cases hact with
  | receive stream frames pendingFrames _ =>
      exact ⟨hanswered.exact, hanswered.whileOpen, hanswered.commands, hanswered.flags⟩
  | handle status devices frame hopen => exact hanswered.handles hopen (handles_handleFrame frame)
  | refuse error hopen => exact hanswered.refuse hopen error
  | write front rest count stream _ _ _ _ _ =>
      exact ⟨hanswered.exact, hanswered.whileOpen, hanswered.commands, hanswered.flags⟩
  | lose stream _ =>
      exact ⟨hanswered.exact, hanswered.whileOpen, hanswered.commands, hanswered.flags⟩
  | take => exact hanswered.take
  | complete id result hid => exact hanswered.complete hid result

/-- A notification is not a reply. -/
theorem Answered.offer {notification : Notification} {frame : List UInt8}
    (_ : encodeFrame codec.messages (.notification notification) = .ok frame)
    (hanswered : client.Answered) : (client.offer notification frame).Answered := by
  have hreplies : (client.history ++ [(ServerMessage.notification notification, frame)]).filterMap
      (fun entry => replyTo entry.1) = client.replies := by
    rw [List.filterMap_append, replies]
    exact List.append_nil _
  rw [Client.offer]
  split
  · rw [send, queueEncoded]
    split
    · exact ⟨fun hkept => Bool.noConfusion hkept, hanswered.whileOpen, hanswered.commands,
        hanswered.flags⟩
    · refine ⟨fun hkept => ?_, hanswered.whileOpen, hanswered.commands, hanswered.flags⟩
      rw [replies, hreplies]
      exact hanswered.exact hkept
  · exact hanswered

/-- A message is queued, or the connection is given up. -/
theorem history_queue (message : ServerMessage) :
    (client.queue codec message).immediateClose = true ∨
      ∃ bytes, (client.queue codec message).history = client.history ++ [(message, bytes)] := by
  rw [queue]
  split
  · exact .inl rfl
  · next bytes _ =>
    rw [send, queueEncoded]
    split <;> exact .inr ⟨bytes, rfl⟩

/-- The command is a hello for the version of the daemon. -/
def Acceptable : Command → Prop
  | .hello minMajor maxMajor => minMajor ≤ protocolMajor ∧ protocolMajor ≤ maxMajor
  | _ => False

/-- What a frame that does not decode and a first request that is no acceptable hello
lead to. -/
structure Complains (codec : Codec) (client : Client) : Prop where
  undecoded : ∀ status devices frame error,
    decodeFrame codec.requests frame = .error error →
      (client.handleFrame codec status devices frame).immediateClose = true ∨
        ∃ bytes, (client.handleFrame codec status devices frame).history =
          client.history ++ [(.error none error, bytes)]
  refused : ∀ status devices frame request,
    decodeFrame codec.requests frame = .ok request → client.negotiated = false →
      ¬Acceptable request.command →
        (client.handleFrame codec status devices frame).closing = true ∧
          ((client.handleFrame codec status devices frame).immediateClose = true ∨
            ∃ error bytes, (client.handleFrame codec status devices frame).history =
              client.history ++ [(.error (some request.id) error, bytes)])

theorem complains (codec : Codec) (client : Client) : client.Complains codec := by
  refine ⟨fun status devices frame error hdecode => ?_,
    fun status devices frame request hdecode hfirst hrefused => ?_⟩
  · simp only [handleFrame, hdecode]
    exact @history_queue codec (client.handling none) (.error none error)
  · have hnew : (client.handling (some request.id)).negotiated = false := hfirst
    simp only [handleFrame, hdecode, hnew, Bool.false_eq_true, if_false]
    cases hcommand : request.command with
    | hello minMajor maxMajor =>
        rw [hcommand] at hrefused
        have hversions : ¬(minMajor ≤ protocolMajor ∧ protocolMajor ≤ maxMajor) := hrefused
        rw [negotiate, if_neg hversions]
        exact ⟨rfl, (@history_queue codec (client.handling (some request.id)) _).imp id
          fun hqueued => ⟨_, hqueued⟩⟩
    | _ =>
        exact ⟨rfl, (@history_queue codec (client.handling (some request.id)) _).imp id
          fun hqueued => ⟨_, hqueued⟩⟩

end Client

/-- In every run of the server the account of the requests of every connection is right,
as long as the connection is not given up. -/
theorem IpcServer.answered_turns {codec : Codec} {path : PathBuf} {accepts : List AcceptAnswer}
    {server : IpcServer}
    (hturns : Turns codec Client.answersTaken (bind path accepts) server) :
    ∀ entry ∈ server.clients, entry.2.Answered ∧ entry.2.Complains codec := fun entry hentry =>
  ⟨hturns.forall_clients Client.answered_new Client.Answered.act Client.Answered.offer entry
    hentry, entry.2.complains codec⟩

/-- What became of the lines that a connection has read: their ids are those of its replies,
of its outstanding commands and of the frames that wait, and what was meant for it is
written or queued. -/
structure Client.LinesAnswered (codec : Codec) (reads : List ReadAnswer) (client : Client) :
    Prop where
  lines : ∃ consumed, reads = consumed ++ client.stream.reads ∧
    (Ipc.Acceptable (consumed.flatMap gave) →
      ((Lines.cut newline (consumed.flatMap gave)).1.map fun line =>
        frameId codec (stripCr line)).Perm
        (client.replies ++ client.outstanding.map some ++
          client.pendingFrames.map (frameId codec)))
  queued : client.stream.written ++ unwritten client.output = client.meant

/-- In every run of the server the lines of every connection that is not given up are
answered in what is written to it and queued for it. -/
theorem IpcServer.linesAnswered_turns {codec : Codec} {path : PathBuf}
    {accepts : List AcceptAnswer} {server : IpcServer}
    (hturns : Turns codec Client.answersTaken (bind path accepts) server) :
    ∀ entry ∈ server.clients, entry.2.immediateClose = false → ∃ reads writes,
      .accepted reads writes true ∈ accepts ∧ entry.2.LinesAnswered codec reads := by
  intro entry hentry hkept
  have hanswered := hturns.forall_clients Client.answered_new Client.Answered.act
    Client.Answered.offer entry hentry
  have haccounted := hturns.forall_clients Client.accounted_new Client.Accounted.act
    Client.Accounted.offer entry hentry
  obtain ⟨reads, writes, hwaits, consumed, hreads, hhears⟩ := hturns.readsOn.2 entry hentry
  refine ⟨reads, writes, hwaits, ⟨consumed, hreads, fun haccept => ?_⟩, haccounted.whole hkept⟩
  have hlines := (hhears [] haccept ⟨rfl, rfl⟩).frames
  rw [List.nil_append] at hlines
  rw [← hlines]
  exact (hanswered.exact hkept).append_right _

/-- A connection that waits for the answer to a stop, which the reactor has taken. -/
def stopping : Client :=
  { (greeted []).handling (some 2) with taken := [2] }

theorem stopping_turns (path : PathBuf) :
    IpcServer.Turns talkCodec Client.answersTaken
      (.bind path
        [.accepted [.data (helloText ++ [newline]), .data (stopText ++ [newline])] [] true])
      (serving path stopping) := by
  have hserve : ∀ status, (greeted [.data (stopText ++ [newline])]).serve talkCodec status []
      { pollin := true } = some { (greeted []).handling (some 2) with
        commands := [(2, .stopCapture)] } := fun status =>
    Client.serve_line ⟨rfl, rfl, rfl, rfl, rfl⟩ stopText_short (handleFrame_stop rfl rfl status [])
      rfl
  exact ((serving_hello greets_talkCodec [.data (stopText ++ [newline])]).tail
    (serving_serve (fun path => ⟨daemonVersion, 1, 0, false, path.toStringLossy⟩) []
      (hserve _))).tail serving_take

/-- The stop is answered. -/
theorem answered_stop :
    (stopping.complete talkCodec 2 (.ok .captureStopped)).handled.length = 2 ∧
      ∀ entry ∈ (serving (.ofString "/run/wiiland.sock")
          (stopping.complete talkCodec 2 (.ok .captureStopped))).clients,
        entry.2.Answered ∧ entry.2.Complains talkCodec := by
  have hreply : (stopping.complete talkCodec 2 (.ok .captureStopped)).handled =
      stopping.handled := by
    obtain ⟨_, hreply⟩ := @Client.replies_complete talkCodec stopping 2 (.ok .captureStopped)
    obtain ⟨_, _, _, _, hlater, _⟩ := Client.replies_spec hreply
    rw [hlater]
  refine ⟨hreply ▸ rfl, IpcServer.answered_turns ((stopping_turns _).tail
    (serving_complete (List.mem_singleton.mpr rfl)))⟩

/-- A long text in the place of a number. -/
def longId : List UInt8 := .replicate 65527 97

def longText : List UInt8 := textBytes "\x7b\"id\":\"" ++ longId ++ [34, 125]

/-- The library shows the text it did not expect. -/
def longComplaint : String :=
  "invalid type: string \"" ++ .ofList (.replicate 65527 'a') ++
    "\", expected u64 at line 1 column 65535"

def longReplyText : List UInt8 :=
  textBytes "\x7b\"type\":\"error\",\"value\":\x7b\"id\":null,\"error\":\x7b" ++
    textBytes "\"code\":\"invalid_json\",\"message\":\"invalid type: string \\\"" ++
    longId ++ textBytes "\\\", expected u64 at line 1 column 65535\"\x7d\x7d\x7d"

/-- The library on the long text, and on the answer to it. -/
def longCodec : Codec where
  requests := tableSerde [] longComplaint
  messages := tableSerde [(.error none (.json longComplaint), longReplyText)] "expected value"

theorem longText_line : newline ∉ longText ∧ longText.length = maxFrameBytes := by
  have hstart : newline ∉ textBytes "\x7b\"id\":\"" ∧ (textBytes "\x7b\"id\":\"").length = 7 := by
    rw [textBytes_ofList]
    decide
  rw [longText, longId, List.mem_append, List.mem_append, List.mem_replicate, List.length_append,
    List.length_append, List.length_replicate, hstart.2]
  refine ⟨?_, rfl⟩
  rintro ((hmem | hmem) | hmem)
  · exact hstart.1 hmem
  · exact absurd hmem.2 (by decide)
  · exact absurd hmem (by decide)

theorem longText_undecoded :
    decodeFrame longCodec.requests longText = .error (.json longComplaint) := by
  have hlast : longText.getLast? = some 125 := by
    rw [longText, List.getLast?_append]
    rfl
  have hreturn : stripCr longText = longText :=
    stripCr_of_last fun hline => absurd (hlast.symm.trans hline) (by decide)
  rw [decodeFrame, if_neg (getLast_ne_of_not_mem longText_line.1), hreturn,
    if_neg (Nat.not_lt.mpr longText_line.2.le)]
  rfl

/-- A frame that does not decode and an error that does not encode. -/
theorem handleFrame_speechless {codec : Codec} {client : Client} {status : Status}
    {devices : List DeviceInfo} {frame : List UInt8} {error failure : ProtocolError}
    (hdecode : decodeFrame codec.requests frame = .error error)
    (hencode : encodeFrame codec.messages (.error none error) = .error failure) :
    client.handleFrame codec status devices frame =
      { client.handling none with immediateClose := true } := by
  simp only [Client.handleFrame, hdecode, Client.queue, hencode]

theorem longReplyText_long : maxFrameBytes < longReplyText.length := by
  have hstart : (textBytes
      "\"code\":\"invalid_json\",\"message\":\"invalid type: string \\\"").length = 56 := by
    rw [textBytes_ofList]
    rfl
  rw [longReplyText, longId, List.length_append, List.length_append, List.length_append,
    List.length_replicate, hstart, maxFrameBytes]
  omega

/-- A frame that does not decode and gets no error: the error shows the long text of the
frame and does not fit in a frame itself. -/
theorem longText_unanswered :
    decodeFrame longCodec.requests longText = .error (.json longComplaint) ∧
      ((Client.new {}).handleFrame longCodec ⟨daemonVersion, 1, 0, false, "/run/wiiland.sock"⟩
          [] longText).handled = [⟨none, true⟩] ∧
        ((Client.new {}).handleFrame longCodec ⟨daemonVersion, 1, 0, false, "/run/wiiland.sock"⟩
          [] longText).history = [] := by
  have htext : longCodec.messages.toVec (.error none (.json longComplaint)) =
      .ok longReplyText := by
    rw [longCodec, tableSerde_head]
  rw [handleFrame_speechless longText_undecoded (encodeFrame_long htext longReplyText_long)]
  exact ⟨longText_undecoded, rfl, rfl⟩

end Daemon

end Wiiland
