/-
A client and the daemon's side of its connection, joined by the two streams between
them.  The calls of the client and the steps of the connection come in any order; what
one side reads the other has written.
-/
import Wiiland.Daemon.Connections
import Wiiland.Daemon.QueueAccount
import Wiiland.Daemon.RequestAccount
import Wiiland.Ipc.ClientAccount

namespace Wiiland

namespace Daemon

open Ipc

namespace Client

variable {codec : Codec} {allowed : Completions} {client later : Client}

/-- Every act only adds to what is written. -/
theorem Act.written (hact : Act codec allowed client later) :
    client.stream.written <+: later.stream.written := by
  have hsame : ∀ {stream : UnixStream}, stream.written = client.stream.written →
      client.stream.written <+: stream.written := fun hwritten => hwritten ▸ List.prefix_refl _
  cases hact with
  | receive stream frames pendingFrames hwritten => exact hsame hwritten
  | handle status devices frame _ =>
      exact hsame (congrArg UnixStream.written (sameInput_handleFrame frame).1)
  | refuse error _ =>
      exact hsame (congrArg UnixStream.written (sameInput_replies (replies_refuse error)).1)
  | write front rest count stream _ _ _ hwritten _ => exact hwritten ▸ List.prefix_append _ _
  | lose stream hwritten => exact hsame hwritten
  | take =>
      rw [takeCommands]
      split <;> exact List.prefix_refl _
  | complete id result _ =>
      obtain ⟨capture, hreply⟩ := @replies_complete codec client id result
      exact hsame (congrArg UnixStream.written (sameInput_replies hreply).1)

theorem written_offer (notification : Notification) (frame : List UInt8) :
    (client.offer notification frame).stream = client.stream := by
  rw [Client.offer]
  split
  · rw [send, queueEncoded]
    split <;> rfl
  · rfl

theorem Step.written (hstep : Step codec allowed client later) :
    client.stream.written <+: later.stream.written := by
  have hoffer : ∀ {other : Client} {notification : Notification} {frame : List UInt8},
      encodeFrame codec.messages (.notification notification) = .ok frame →
        client.stream.written <+: other.stream.written →
          client.stream.written <+: (other.offer notification frame).stream.written := by
    intro other notification frame _ hbefore
    rwa [written_offer]
  exact @Step.keeps codec allowed client later
    (fun other => client.stream.written <+: other.stream.written)
    (fun hact hbefore => hbefore.trans hact.written) hoffer hstep (List.prefix_refl _)

/-- Each id is owed no more often than it was asked for, also on a connection that is
given up. -/
def Backed (client : Client) : Prop :=
  ∀ id : Option UInt64, (client.replies ++ client.outstanding.map some).count id ≤
    (client.handled.map Handled.id).count id

theorem backed_new (reads : List ReadAnswer) (writes : List WriteAnswer) :
    Backed (.new { reads, writes }) := fun _ => Nat.le_refl _

theorem Backed.congr (hbacked : client.Backed) (hreplies : later.replies = client.replies)
    (hwaiting : later.outstanding = client.outstanding)
    (hhandled : later.handled = client.handled) : later.Backed := by
  intro id
  rw [hreplies, hwaiting, hhandled]
  exact hbacked id

/-- A reply adds at most one to the replies, and nothing to what is owed. -/
theorem replies_grow {id : Option UInt64} (hreply : Replies codec id client later) :
    (∀ other, later.replies.count other ≤ client.replies.count other + [id].count other) ∧
      later.outstanding = client.outstanding := by
  cases hreply with
  | sent message bytes hid _ =>
      have hcount : ∀ other, ((client.history ++ [(message, bytes)]).filterMap
          fun entry => replyTo entry.1).count other ≤
            client.replies.count other + [id].count other := by
        intro other
        rw [List.filterMap_append, List.count_append, replies]
        simp only [List.filterMap_cons, hid, List.filterMap_nil, Nat.le_refl]
      rw [send, queueEncoded]
      split <;> exact ⟨hcount, rfl⟩
  | lost => exact ⟨fun other => Nat.le_add_right _ _, rfl⟩

/-- Replying to a frame that was noted. -/
theorem Backed.reply {base : Client} {id : Option UInt64}
    (hreply : Replies codec id base later)
    (hhandled : base.handled = (client.handling id).handled)
    (hreplies : base.replies = client.replies) (hwaiting : base.outstanding = client.outstanding)
    (hbacked : client.Backed) : later.Backed := by
  intro other
  obtain ⟨hgrow, howed⟩ := replies_grow hreply
  have hgrow := hgrow other
  have hbound := hbacked other
  rw [List.count_append] at hbound ⊢
  rw [hreplies] at hgrow
  rw [handled_replies hreply, hhandled, handled_ids, howed, hwaiting, List.count_append]
  omega

theorem Backed.handles (hbacked : client.Backed) {id : Option UInt64}
    (hhandles : Handles codec client id later) : later.Backed := by
  cases hhandles with
  | undecoded hreply => exact hbacked.reply hreply rfl rfl rfl
  | accepted id _ hreply => exact hbacked.reply hreply rfl rfl rfl
  | refused id _ hreply => exact (hbacked.reply hreply rfl rfl rfl :)
  | answered id input devices _ hreply => exact hbacked.reply hreply rfl rfl rfl
  | overrun id _ =>
      intro other
      have hbound := hbacked other
      change (client.replies ++ client.outstanding.map some).count other ≤
        ((client.handling (some id)).handled.map Handled.id).count other
      rw [handled_ids]
      simp only [List.count_append] at hbound ⊢
      omega
  | deferred id command _ =>
      intro other
      have hbound := hbacked other
      change (client.replies ++ ((client.commands ++ [(id, command)]).map Prod.fst ++
        client.taken).map some).count other ≤
          ((client.handling (some id)).handled.map Handled.id).count other
      rw [outstanding] at hbound
      rw [handled_ids]
      simp only [List.map_append, List.count_append, List.map_cons, List.map_nil] at hbound ⊢
      omega

theorem Backed.complete (hbacked : client.Backed) {id : UInt64} (hid : id ∈ client.taken)
    (result : Except ProtocolError ResponseResult) :
    (client.complete codec id result).Backed := by
  obtain ⟨capture, hreply⟩ := @replies_complete codec client id result
  obtain ⟨hgrow, howed⟩ := replies_grow hreply
  intro other
  have hgrow := hgrow other
  have hbound := hbacked other
  have herase := ((List.perm_cons_erase hid).map some).count_eq other
  rw [outstanding] at hbound
  rw [handled_replies hreply, howed]
  change (_ ++ (client.commands.map Prod.fst ++ client.taken.erase id).map some).count other ≤ _
  rw [List.map_cons, ← List.singleton_append] at herase
  simp only [List.map_append, List.count_append] at hbound herase ⊢
  change _ ≤ client.replies.count other + _ at hgrow
  omega

theorem Backed.take (hbacked : client.Backed) : client.takeCommands.2.Backed := by
  rw [takeCommands]
  split
  · intro other
    have hbound := hbacked other
    rw [outstanding] at hbound
    change (client.replies ++ ([] ++ (client.taken ++ client.commands.map Prod.fst)).map
      some).count other ≤ _
    simp only [List.map_append, List.count_append, List.nil_append] at hbound ⊢
    omega
  · exact hbacked

theorem Backed.act (hact : Act codec answersTaken client later) (hbacked : client.Backed) :
    later.Backed := by
  cases hact with
  | receive stream frames pendingFrames _ => exact hbacked
  | handle status devices frame _ => exact hbacked.handles (handles_handleFrame frame)
  | refuse error _ => exact hbacked.reply (replies_refuse error) rfl rfl rfl
  | write front rest count stream _ _ _ _ _ => exact hbacked
  | lose stream _ => exact hbacked
  | take => exact hbacked.take
  | complete id result hid => exact hbacked.complete hid result

theorem Backed.offer {notification : Notification} {frame : List UInt8}
    (_ : encodeFrame codec.messages (.notification notification) = .ok frame)
    (hbacked : client.Backed) : (client.offer notification frame).Backed := by
  have hreplies : (client.history ++ [(ServerMessage.notification notification, frame)]).filterMap
      (fun entry => replyTo entry.1) = client.replies := by
    rw [List.filterMap_append, replies]
    exact List.append_nil _
  rw [Client.offer]
  split
  · rw [send, queueEncoded]
    split <;> exact hbacked.congr hreplies rfl rfl
  · exact hbacked

end Client

/-- The request is over with the reply to it. -/
def Replied : Except Stop ResponseResult → Prop
  | .ok _ => True
  | .error (.error (.server _)) => True
  | .error _ => False

/-- A client, the daemon's side of its connection, and what they did so far. -/
structure Talk where
  client : Ipc.Client
  conn : Client
  /-- The bytes that the connection has read. -/
  heard : List UInt8
  /-- The ids of the requests that were sent. -/
  sent : List UInt64
  /-- The id of the request that waits for its reply. -/
  awaiting : Option UInt64
  /-- The notifications that the client's polls returned. -/
  returned : List Notification

namespace Talk

/-- A connection that was just accepted. -/
def start (reads : List ReadAnswer) (writes : List WriteAnswer) : Talk :=
  ⟨{}, .new { reads, writes }, [], [], none, []⟩

/-- One step of either side.  A request is sent, waits one turn at a time and gets its
reply, or cannot be encoded; polls come between requests; and the connection takes its
steps at any time.  A caller whose request failed otherwise (by its time-out, its stream or
a full backlog), or whose poll failed, makes no more calls: the late reply to such a request
would meet a call that does not expect it. -/
inductive Step (codec : Codec) : Talk → Talk → Prop
  | send {talk : Talk} (command : Command) (frame : List UInt8)
      (hidle : talk.awaiting = none)
      (hframe : encodeFrame codec.requests ⟨talk.client.nextId, command⟩ = .ok frame) :
      Step codec talk { talk with
        client := talk.client.begun frame
        sent := talk.sent ++ [talk.client.nextId]
        awaiting := some talk.client.nextId }
  | unsent {talk : Talk} (command : Command) (error : ProtocolError)
      (hidle : talk.awaiting = none)
      (hframe : encodeFrame codec.requests ⟨talk.client.nextId, command⟩ = .error error) :
      Step codec talk { talk with client := talk.client.allocateId.2 }
  | wait {talk : Talk} {later : Ipc.Client} (id : UInt64) (timed : Bool) (turn : Turn)
      (hawaiting : talk.awaiting = some id)
      (hwait : Ipc.Client.readResponse codec id timed [turn] talk.client = (none, later))
      (hread : later.received <+: talk.conn.stream.written) :
      Step codec talk { talk with client := later }
  | reply {talk : Talk} {later : Ipc.Client} (id : UInt64) (timed : Bool) (turn : Turn)
      (outcome : Except Stop ResponseResult) (hawaiting : talk.awaiting = some id)
      (hwait : Ipc.Client.readResponse codec id timed [turn] talk.client = (some outcome, later))
      (hreplied : Replied outcome) (hread : later.received <+: talk.conn.stream.written) :
      Step codec talk { talk with client := later, awaiting := none }
  | poll {talk : Talk} {later : Ipc.Client} (read : Read) (found : Option Notification)
      (hidle : talk.awaiting = none)
      (hpoll : Ipc.Client.pollEvent codec talk.client read = (.ok found, later))
      (hread : later.received <+: talk.conn.stream.written) :
      Step codec talk { talk with
        client := later
        returned := talk.returned ++ found.toList }
  | daemon {talk : Talk} {later : Client} (consumed : List ReadAnswer)
      (hstep : Client.Step codec Client.answersTaken talk.conn later)
      (hconsumed : talk.conn.stream.reads = consumed ++ later.stream.reads)
      (hheard : talk.heard ++ consumed.flatMap Client.gave <+: talk.client.written) :
      Step codec talk { talk with
        conn := later
        heard := talk.heard ++ consumed.flatMap Client.gave }

abbrev Steps (codec : Codec) : Talk → Talk → Prop := Relation.ReflTransGen (Step codec)

/-- The ids that some messages reply to. -/
def repliesOf (messages : List ServerMessage) : List (Option UInt64) :=
  messages.filterMap Client.replyTo

/-- What holds between the two sides. -/
structure Sound (codec : Codec) (talk : Talk) : Prop where
  account : Ipc.Client.Account codec talk.client talk.returned
  framed : ∃ requests frames, List.Forall₂
    (fun request frame => encodeFrame codec.requests request = .ok frame) requests frames ∧
      talk.client.written = frames.flatten ∧ requests.map Request.id = talk.sent
  replies : repliesOf (talk.client.handed.map Prod.fst) ++ talk.awaiting.toList.map some =
    talk.sent.map some
  accounted : talk.conn.Accounted codec
  answered : talk.conn.Answered
  backed : talk.conn.Backed
  hears : Client.Hears codec talk.heard talk.conn
  heard : talk.heard <+: talk.client.written
  received : talk.client.received <+: talk.conn.stream.written

variable {codec : Codec} {talk next : Talk}

theorem sound_start (codec : Codec) (reads : List ReadAnswer) (writes : List WriteAnswer) :
    (start reads writes).Sound codec where
  account := Ipc.Client.account_connected codec
  framed := ⟨[], [], .nil, rfl, rfl⟩
  replies := rfl
  accounted := Client.accounted_new reads writes
  answered := Client.answered_new reads writes
  backed := Client.backed_new reads writes
  hears := ⟨rfl, rfl⟩
  heard := List.prefix_refl _
  received := List.prefix_refl _

/-- The frames meant for a connection. -/
theorem encoded_history {conn : Client} (haccounted : conn.Accounted codec) :
    List.Forall₂ (fun message frame => encodeFrame codec.messages message = .ok frame)
      (conn.history.map Prod.fst) (conn.history.map Prod.snd) := by
  rw [List.forall₂_map_left_iff, List.forall₂_map_right_iff, List.forall₂_same]
  exact haccounted.encoded

/-- What a client can have read is well formed: the first of the messages meant for it. -/
theorem Sound.wellFormed (hmessages : codec.messages.Lawful) (hsound : talk.Sound codec)
    {received : List UInt8} (hread : received <+: talk.conn.stream.written) :
    WellFormed codec received ∧
      (Lines.cut newline received).1.map (fun line => decodeFrame codec.messages (stripCr line)) <+:
        (talk.conn.history.map Prod.fst).map .ok := by
  have hmeant := hread.trans hsound.accounted.written
  rw [Client.meant, List.flatMap_def] at hmeant
  obtain ⟨haccept, hlines⟩ :=
    decodeFrame_front hmessages (encoded_history hsound.accounted) hmeant
  refine ⟨⟨haccept, fun line hline => ?_⟩, hlines⟩
  have hmem := hlines.subset (List.mem_map_of_mem hline)
  obtain ⟨message, _, hdecode⟩ := List.mem_map.mp hmem
  exact ⟨message, hdecode.symm⟩

theorem decoded_lines {lines : List (List UInt8)} {entries : List (ServerMessage × Nat)}
    (hlines : List.Forall₂ (Decodes codec) lines entries) :
    lines.map (fun line => decodeFrame codec.messages (stripCr line)) =
      (entries.map Prod.fst).map .ok := by
  induction hlines with
  | nil => rfl
  | cons hhead _ ih => rw [List.map_cons, ih, hhead.1, List.map_cons, List.map_cons]

/-- The messages of a client are the first of those meant for it, in order. -/
theorem Sound.ordered (hmessages : codec.messages.Lawful) (hsound : talk.Sound codec)
    {later : Ipc.Client} (hwired : later.Wired codec)
    (hread : later.received <+: talk.conn.stream.written) :
    (later.handed ++ later.messages).map Prod.fst <+: talk.conn.history.map Prod.fst := by
  have hlines := (hsound.wellFormed hmessages hread).2
  rw [decoded_lines hwired.lines] at hlines
  exact (List.prefix_map_iff_of_injective fun _ _ h => Except.ok.inj h).mp hlines

/-- The frames that a connection has handled are the first of those sent to it. -/
theorem Sound.handled (hrequests : codec.requests.Lawful) (hsound : talk.Sound codec) :
    talk.conn.handled.map Handled.id ++
        talk.conn.pendingFrames.map (Client.frameId codec) <+: talk.sent.map some := by
  obtain ⟨requests, frames, hframes, hwritten, hids⟩ := hsound.framed
  obtain ⟨_, hlines⟩ := decodeFrame_front hrequests hframes (hwritten ▸ hsound.heard)
  have hids' := hlines.map fun decoded => decoded.toOption.map Request.id
  rw [List.map_map, List.map_map] at hids'
  rw [hsound.hears.frames, ← hids, List.map_map]
  exact hids'

theorem acceptable_heard (hrequests : codec.requests.Lawful) (hsound : talk.Sound codec)
    {heard : List UInt8} (hheard : heard <+: talk.client.written) : Ipc.Acceptable heard := by
  obtain ⟨requests, frames, hframes, hwritten, _⟩ := hsound.framed
  exact (decodeFrame_front hrequests hframes (hwritten ▸ hheard)).1

theorem replies_history (conn : Client) :
    conn.replies = repliesOf (conn.history.map Prod.fst) := by
  rw [repliesOf, List.filterMap_map]
  rfl

theorem repliesOf_append (first second : List ServerMessage) :
    repliesOf (first ++ second) = repliesOf first ++ repliesOf second := List.filterMap_append

theorem repliesOf_asMessages (noted : List (Notification × Nat)) :
    repliesOf ((asMessages noted).map Prod.fst) = [] := by
  rw [repliesOf, List.filterMap_eq_nil_iff]
  intro message hmessage
  obtain ⟨entry, hentry, rfl⟩ := List.mem_map.mp hmessage
  obtain ⟨note, _, rfl⟩ := List.mem_map.mp hentry
  rfl

/-- Deferring notifications leaves the replies alone. -/
theorem replies_progress {client later : Ipc.Client} {noted : List (Notification × Nat)}
    {last : List (ServerMessage × Nat)}
    (hhanded : later.handed = client.handed ++ asMessages noted ++ last) :
    repliesOf (later.handed.map Prod.fst) =
      repliesOf (client.handed.map Prod.fst) ++ repliesOf (last.map Prod.fst) := by
  rw [hhanded, List.map_append, List.map_append, repliesOf_append, repliesOf_append,
    repliesOf_asMessages, List.append_nil]

/-- A reply that a client takes off the wire is the reply to the request that waits. -/
theorem Sound.expected (hrequests : codec.requests.Lawful) (hmessages : codec.messages.Lawful)
    (hsound : talk.Sound codec) {later : Ipc.Client} (hwired : later.Wired codec)
    (hread : later.received <+: talk.conn.stream.written) {noted : List (Notification × Nat)}
    {message : ServerMessage} {bytes : Nat} {id : Option UInt64}
    (hhanded : later.handed = talk.client.handed ++ asMessages noted ++ [(message, bytes)])
    (hreply : Client.replyTo message = some id) : talk.awaiting.map some = some id := by
  have hordered : later.handed.map Prod.fst <+: talk.conn.history.map Prod.fst := by
    refine List.IsPrefix.trans ?_ (hsound.ordered hmessages hwired hread)
    rw [List.map_append]
    exact List.prefix_append _ _
  have hone : repliesOf ([(message, bytes)].map Prod.fst) = [id] := by
    rw [List.map_singleton, repliesOf, List.filterMap_cons, hreply]
    rfl
  have hgot := replies_progress hhanded
  rw [hone] at hgot
  have hfront : repliesOf (later.handed.map Prod.fst) <+: talk.conn.replies := by
    rw [replies_history]
    exact hordered.filterMap _
  have hcount := hfront.sublist.count_le id
  have hbacked := hsound.backed id
  have hhandled := ((List.prefix_append _ _).trans (hsound.handled hrequests)).sublist.count_le id
  rw [← hsound.replies, List.count_append] at hhandled
  rw [hgot, List.count_append, List.count_singleton_self] at hcount
  rw [List.count_append] at hbacked
  have hawaited : 0 < (talk.awaiting.toList.map some).count id := by omega
  obtain ⟨awaited, hmem, rfl⟩ := List.mem_map.mp (List.count_pos_iff.mp hawaited)
  rw [Option.mem_toList.mp hmem]
  rfl

/-- What a poll does besides returning notifications. -/
theorem pollEvent_handed {client later : Ipc.Client} {read : Read}
    {found : Option Notification} (hwired : client.Wired codec)
    (hactive : client.terminated = false)
    (hpoll : Ipc.Client.pollEvent codec client read = (.ok found, later)) :
    later.written = client.written ∧
      ∃ noted, later.handed = client.handed ++ asMessages noted := by
  have hnone : client.handed = client.handed ++ asMessages [] := (List.append_nil _).symm
  have hpolled := Ipc.Client.pollEvent_cases hwired hactive read
  rw [hpoll] at hpolled
  cases hpolled with
  | queued _ => exact ⟨rfl, [], hnone⟩
  | quiet hprogress hhanded => exact ⟨hprogress.written, [], hhanded.trans hnone⟩
  | @notified _ notification bytes _ hprogress hhanded =>
      exact ⟨hprogress.written, [(notification, bytes)], hhanded⟩

theorem Sound.send (hsound : talk.Sound codec) {command : Command} {frame : List UInt8}
    (hidle : talk.awaiting = none)
    (hframe : encodeFrame codec.requests ⟨talk.client.nextId, command⟩ = .ok frame) :
    Sound codec { talk with
      client := talk.client.begun frame
      sent := talk.sent ++ [talk.client.nextId]
      awaiting := some talk.client.nextId } := by
  obtain ⟨requests, frames, hframes, hwritten, hids⟩ := hsound.framed
  have hreplies := hsound.replies
  rw [hidle, Option.toList_none, List.map_nil, List.append_nil] at hreplies
  exact {
    account := hsound.account.begun frame
    framed := by
      refine ⟨requests ++ [⟨talk.client.nextId, command⟩], frames ++ [frame],
        List.rel_append hframes (.cons hframe .nil), ?_, ?_⟩
      · rw [List.flatten_append, List.flatten_singleton, ← hwritten]
        rfl
      · rw [List.map_append, hids]
        rfl
    replies := by
      rw [List.map_append, ← hreplies]
      rfl
    accounted := hsound.accounted
    answered := hsound.answered
    backed := hsound.backed
    hears := hsound.hears
    heard := hsound.heard.trans (List.prefix_append _ _)
    received := hsound.received }

/-- A client that has taken some messages off the wire, the last of which may be the
reply that was awaited. -/
theorem Sound.took (hsound : talk.Sound codec) {later : Ipc.Client}
    {awaiting : Option UInt64} {returned : List Notification}
    (haccount : Ipc.Client.Account codec later returned)
    (hwritten : later.written = talk.client.written)
    (hreplies : repliesOf (later.handed.map Prod.fst) ++ awaiting.toList.map some =
      talk.sent.map some)
    (hread : later.received <+: talk.conn.stream.written) :
    Sound codec { talk with client := later, awaiting, returned } where
  account := haccount
  framed := hwritten ▸ hsound.framed
  replies := hreplies
  accounted := hsound.accounted
  answered := hsound.answered
  backed := hsound.backed
  hears := hsound.hears
  heard := hwritten ▸ hsound.heard
  received := hread

theorem Sound.daemon (hrequests : codec.requests.Lawful) (hsound : talk.Sound codec)
    {later : Client} {consumed : List ReadAnswer}
    (hstep : Client.Step codec Client.answersTaken talk.conn later)
    (hconsumed : talk.conn.stream.reads = consumed ++ later.stream.reads)
    (hheard : talk.heard ++ consumed.flatMap Client.gave <+: talk.client.written) :
    Sound codec { talk with
      conn := later
      heard := talk.heard ++ consumed.flatMap Client.gave } where
  account := hsound.account
  framed := hsound.framed
  replies := hsound.replies
  accounted := hstep.keeps Client.Accounted.act Client.Accounted.offer hsound.accounted
  answered := hstep.keeps Client.Answered.act Client.Answered.offer hsound.answered
  backed := hstep.keeps Client.Backed.act Client.Backed.offer hsound.backed
  hears := by
    obtain ⟨others, hothers, hhears⟩ := hstep.readsOn
    obtain rfl := List.append_cancel_right (hconsumed.symm.trans hothers)
    exact hhears _ (acceptable_heard hrequests hsound hheard) hsound.hears
  heard := hheard
  received := hsound.received.trans hstep.written

/-- What one turn of a waiting request comes to. -/
inductive Waited (codec : Codec) (talk : Talk) (later : Ipc.Client) :
    Option (Except Stop ResponseResult) → Prop
  | waiting (hsound : Sound codec { talk with client := later }) : Waited codec talk later none
  | replied {outcome : Except Stop ResponseResult} (hreplied : Replied outcome)
      (hsound : Sound codec { talk with client := later, awaiting := none }) :
      Waited codec talk later (some outcome)
  | failed {error : ClientError}
      (hcause : Ipc.Client.StreamError error ∨ error = Ipc.Client.backlogExceeded) :
      Waited codec talk later (some (.error (.error error)))

/-- While both sides are sound a request gets its own reply, or the stream or the backlog
fails it. -/
theorem Sound.waited (hrequests : codec.requests.Lawful) (hmessages : codec.messages.Lawful)
    (hsound : talk.Sound codec) {id : UInt64} (hawaiting : talk.awaiting = some id)
    (timed : Bool) (turn : Turn) {outcome : Option (Except Stop ResponseResult)}
    {later : Ipc.Client}
    (hwait : Ipc.Client.readResponse codec id timed [turn] talk.client = (outcome, later))
    (hread : later.received <+: talk.conn.stream.written) :
    Waited codec talk later outcome := by
  have hawaited := Ipc.Client.readResponse_cases hsound.account.wired id timed [turn]
  have hreplies := hsound.replies
  rw [hwait] at hawaited
  simp only at hawaited
  have htook : ∀ {noted : List (Notification × Nat)} {message : ServerMessage} {bytes : Nat}
      {actual : Option UInt64}, Ipc.Client.Progress codec talk.client later noted →
      later.handed = talk.client.handed ++ asMessages noted ++ [(message, bytes)] →
      Client.replyTo message = some actual →
        actual = some id ∧ Sound codec { talk with client := later, awaiting := none } := by
    intro noted message bytes actual hprogress hhanded hreply
    have hexpected := hsound.expected hrequests hmessages hprogress.wired hread hhanded hreply
    rw [hawaiting, Option.map_some] at hexpected
    obtain rfl := Option.some.inj hexpected
    have hlast : repliesOf ([(message, bytes)].map Prod.fst) = [some id] := by
      rw [List.map_singleton, repliesOf, List.filterMap_cons, hreply]
      rfl
    have hnotes : notesOf [(message, bytes)] = [] :=
      Ipc.Client.notesOf_reply fun _ hsame => by
        cases hsame
        cases hreply
    refine ⟨rfl, hsound.took (hsound.account.progress hprogress hhanded hnotes)
      hprogress.written ?_ hread⟩
    rw [replies_progress hhanded, hlast, ← hreplies, hawaiting]
    exact List.append_nil _
  cases hawaited with
  | @waiting noted _ hprogress hhanded =>
      have hhanded' : later.handed = talk.client.handed ++ asMessages noted ++ [] :=
        hhanded.trans (List.append_nil _).symm
      refine .waiting (hsound.took (hsound.account.progress hprogress hhanded' rfl)
        hprogress.written ?_ hread)
      rw [replies_progress hhanded', ← hreplies]
      exact congrArg (· ++ _) (List.append_nil _)
  | stopped _ _ hstream _ => exact .failed (.inl hstream)
  | answered hprogress hhanded => exact .replied trivial (htook hprogress hhanded rfl).2
  | mismatched hprogress hhanded hother =>
      exact absurd (Option.some.inj (htook hprogress hhanded rfl).1) hother
  | @refused _ _ errorId error _ hprogress hhanded =>
      obtain ⟨rfl, hnext⟩ := htook hprogress hhanded rfl
      refine .replied ?_ hnext
      rw [Ipc.Client.errorReply, if_neg (not_not.mpr rfl)]
      trivial
  | overflow hprogress hhanded hexceeds => exact .failed (.inr rfl)
  | malformed error _ _ hrefused =>
      exact absurd (hsound.wellFormed hmessages hread).1 hrefused

/-- Every step of either side keeps both sides sound. -/
theorem Sound.step (hrequests : codec.requests.Lawful) (hmessages : codec.messages.Lawful)
    (hsound : talk.Sound codec) (hstep : Step codec talk next) : next.Sound codec := by
  cases hstep with
  | send command frame hidle hframe => exact hsound.send hidle hframe
  | unsent command error hidle hframe =>
      have haccount := hsound.account.begun []
      rw [Ipc.Client.begun, List.append_nil] at haccount
      exact hsound.took haccount rfl hsound.replies hsound.received
  | wait id timed turn hawaiting hwait hread =>
      cases hsound.waited hrequests hmessages hawaiting timed turn hwait hread with
      | waiting hnext => exact hnext
  | reply id timed turn outcome hawaiting hwait hreplied hread =>
      cases hsound.waited hrequests hmessages hawaiting timed turn hwait hread with
      | replied _ hnext => exact hnext
      | failed hcause =>
          rcases hcause with (rfl | ⟨kind, rfl⟩) | rfl
          · cases hreplied
          · cases hreplied
          · cases hreplied
  | poll read found hidle hpoll hread =>
      obtain ⟨hwritten, noted, hhanded⟩ :=
        pollEvent_handed hsound.account.wired hsound.account.active hpoll
      have hpolled := (Ipc.Client.pollEvent_account hsound.account read).2 found (by rw [hpoll])
      rw [hpoll] at hpolled
      refine hsound.took hpolled hwritten ?_ hread
      rw [← hsound.replies, replies_progress (hhanded.trans (List.append_nil _).symm)]
      exact congrArg (· ++ _) (List.append_nil _)
  | daemon consumed hstep hconsumed hheard =>
      exact hsound.daemon hrequests hstep hconsumed hheard

theorem sound_steps (hrequests : codec.requests.Lawful) (hmessages : codec.messages.Lawful)
    {reads : List ReadAnswer} {writes : List WriteAnswer}
    (hsteps : Steps codec (start reads writes) talk) : talk.Sound codec := by
  induction hsteps with
  | refl => exact sound_start codec reads writes
  | tail _ hstep ih => exact ih.step hrequests hmessages hstep

end Talk

end Daemon

end Wiiland
