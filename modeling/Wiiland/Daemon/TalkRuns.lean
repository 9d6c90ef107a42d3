/-
What a client can rely on, in every order of its calls and the daemon's steps: messages
come in order, a request gets its own reply, and no reply is lost on the way.
-/
import Wiiland.Daemon.Conversation

namespace Wiiland

namespace Daemon

open Ipc

/-- A library that knows a hello and the answer to it. -/
def helloCodec : Codec where
  requests := .single ⟨1, .hello 1 1⟩ helloText
  messages := .single helloReply helloReplyText

theorem helloReplyText_short : Short helloReplyText := by
  rw [helloReplyText, textBytes_ofList, textBytes_ofList, textBytes_ofList]
  decide

theorem helloCodec_lawful : helloCodec.requests.Lawful ∧ helloCodec.messages.Lawful :=
  ⟨Serde.single_short helloText_short, Serde.single_short helloReplyText_short⟩

theorem encode_hello :
    encodeFrame helloCodec.requests ⟨1, .hello 1 1⟩ = .ok (helloText ++ [newline]) := by
  refine encodeFrame_eq_ok.mpr ⟨helloText, by simp [helloCodec, Serde.single],
    helloText_short.length_le, rfl⟩

theorem greets_helloCodec : Greets helloCodec where
  decode := by
    rw [decodeFrame_short helloText_short]
    simp [helloCodec, Serde.single]
  encode := by
    refine encodeFrame_eq_ok.mpr ⟨helloReplyText, by simp [helloCodec, Serde.single],
      helloReplyText_short.length_le, rfl⟩

def helloLine : List UInt8 := helloText ++ [newline]

def replyLine : List UInt8 := helloReplyText ++ [newline]

theorem replyLine_length : replyLine.length = 118 := by
  rw [replyLine, List.length_append, helloReplyText_length]
  rfl

/-- A connection whose hello is answered, and whose peer has taken the answer. -/
def answeredHello : Client :=
  { greeted [] with stream := { written := replyLine }, output := [], queuedBytes := 0 }

theorem readClient_hello (status : Status) (devices : List DeviceInfo)
    (writes : List WriteAnswer) :
    (Client.new { reads := [.data helloLine], writes }).readClient helloCodec status devices =
      (true, { greeted [] with stream := { reads := [], writes } }) := by
  have hglue : Lines.glue newline [helloText] [] = helloLine := by
    rw [Lines.glue, List.flatMap_singleton, List.append_nil, helloLine]
  have hlength : (Lines.glue newline [helloText] []).length < readChunk := by
    rw [hglue, helloLine, List.length_append]
    exact Nat.lt_of_le_of_lt (Nat.succ_le_succ helloText_short.2.2) (by decide)
  rw [@Client.readClient_lines _ _ _ _ [helloText] [] rfl rfl rfl
    (by rw [hglue]; rfl) (List.forall_mem_singleton.mpr helloText_short)
    (by rw [hglue, helloLine]; simp) hlength]
  rw [show frameBudget = 7 + 1 from rfl, Client.processPending_line helloText rfl]
  simp only
  have hframe := handleFrame_hello_first greets_helloCodec status devices { reads := [], writes } []
  simp only [Client.new] at hframe ⊢
  rw [hframe]
  rfl

theorem writeLoop_hello :
    ({ greeted [] with stream := { reads := [], writes := [.wrote 118] } } : Client).writeLoop
      writeBudget = (true, answeredHello) := by
  have hbytes : (replyLine.drop 0).take writeBudget = replyLine := by
    rw [List.drop_zero, List.take_of_length_le]
    rw [replyLine_length]
    decide
  have hwrite : ({ writes := [.wrote 118] } : UnixStream).write replyLine =
      (.wrote 118, { written := replyLine }) := by
    rw [UnixStream.write]
    simp only [replyLine_length, List.nil_append]
    rw [List.take_of_length_le (Nat.le_of_eq replyLine_length)]
    rfl
  rw [Client.writeLoop, if_neg (by decide)]
  simp only [greeted]
  rw [show helloReplyText ++ [newline] = replyLine from rfl, hbytes, hwrite]
  simp only
  rw [if_neg (by decide), Client.writeLoop, if_neg (by decide)]
  simp only [Client.advance, replyLine_length]
  rfl

theorem serve_helloLine (status : Status) (devices : List DeviceInfo) :
    (Client.new { reads := [.data helloLine], writes := [.wrote 118] }).serve helloCodec status
      devices { pollin := true } = some answeredHello := by
  have hread : (Client.new { reads := [.data helloLine], writes := [.wrote 118] }).readTurn
      helloCodec status devices { pollin := true } =
        (true, { greeted [] with stream := { reads := [], writes := [.wrote 118] } }) := by
    rw [Client.readTurn]
    exact readClient_hello status devices [.wrote 118]
  have hwrite : Client.writeTurn true
      { greeted [] with stream := { reads := [], writes := [.wrote 118] } } { pollin := true } =
        (true, answeredHello) := by
    rw [Client.writeTurn]
    exact writeLoop_hello
  rw [Client.serve, hread]
  simp only
  rw [show (true && !(greeted []).immediateClose) = true from rfl, hwrite]
  rfl

/-- A client that has sent a hello and got the answer. -/
def greetedClient : Ipc.Client :=
  { ({} : Ipc.Client).begun helloLine with
    received := replyLine
    handed := [(helloReply, 118)] }

theorem wait_hello : Ipc.Client.readResponse helloCodec 1 false
    [⟨false, none, .data replyLine⟩] (({} : Ipc.Client).begun helloLine) =
      (some (.ok (.hello protocolMajor protocolMinor daemonVersion)), greetedClient) := by
  have hglue : Lines.glue newline [helloReplyText] [] = replyLine := by
    rw [Lines.glue, List.flatMap_singleton, List.append_nil, replyLine]
  have hdecode : Decodes helloCodec helloReplyText (helloReply, 118) := by
    refine ⟨?_, by rw [helloReplyText_length]⟩
    rw [helloReplyText_short.stripCr]
    exact decodeFrame_json helloCodec_lawful.2 (by simp [helloCodec, Serde.single])
      helloReplyText_short.length_le
  have hpoll := @Ipc.Client.pollMessage_lines helloCodec (({} : Ipc.Client).begun helloLine) rfl
    rfl [helloReplyText] _ _
    (List.forall_mem_singleton.mpr ⟨helloReplyText_short.1, helloReplyText_short.fits⟩)
    (.cons hdecode .nil) (by rw [hglue, replyLine_length]; decide)
  rw [hglue] at hpoll
  rw [Ipc.Client.readResponse]
  simp only [hpoll]
  rfl

/-- A talk whose hello is sent. -/
def helloSent : Talk where
  client := ({} : Ipc.Client).begun helloLine
  conn := .new { reads := [.data helloLine], writes := [.wrote 118] }
  heard := []
  sent := [1]
  awaiting := some 1
  returned := []

/-- A talk whose hello is answered. -/
def helloServed : Talk := { helloSent with conn := answeredHello, heard := helloLine }

/-- A talk whose hello is over. -/
def helloDone : Talk := { helloServed with client := greetedClient, awaiting := none }

theorem gave_helloLine : [ReadAnswer.data helloLine].flatMap Client.gave = helloLine := by
  have hlength : helloLine.length ≤ readChunk := by
    rw [helloLine, List.length_append]
    exact (Nat.succ_le_succ helloText_short.2.2).trans (by decide)
  rw [List.flatMap_singleton, Client.gave, List.take_of_length_le hlength]

theorem hello_served : Talk.Steps helloCodec (.start [.data helloLine] [.wrote 118])
    helloServed := by
  have hsend : Talk.Step helloCodec (.start [.data helloLine] [.wrote 118]) helloSent :=
    .send (.hello 1 1) helloLine rfl encode_hello
  have hserve := @Talk.Step.daemon helloCodec helloSent answeredHello [.data helloLine]
    (.serve ⟨daemonVersion, 1, 0, false, ""⟩ [] { pollin := true } (serve_helloLine _ _)) rfl
    (by rw [gave_helloLine]; exact List.prefix_refl _)
  rw [gave_helloLine] at hserve
  exact (Relation.ReflTransGen.single hsend).tail hserve

theorem hello_done : Talk.Steps helloCodec (.start [.data helloLine] [.wrote 118])
    helloDone :=
  hello_served.tail (.reply 1 false ⟨false, none, .data replyLine⟩ _ rfl wait_hello trivial
    (List.prefix_refl _))

namespace Talk

variable {codec : Codec} {talk : Talk}

/-- A wait of several turns is a run of single turns. -/
theorem waited_steps {id : UInt64} {timed : Bool} {turns : List Turn}
    {outcome : Except Stop ResponseResult} {later : Ipc.Client}
    (hwired : talk.client.Wired codec) (hawaiting : talk.awaiting = some id)
    (hwait : Ipc.Client.readResponse codec id timed turns talk.client = (some outcome, later))
    (hreplied : Replied outcome) (hread : later.received <+: talk.conn.stream.written) :
    Steps codec talk { talk with client := later, awaiting := none } := by
  induction turns generalizing talk with
  | nil => cases congrArg Prod.fst hwait
  | cons turn turns ih =>
      have hsplit := Ipc.Client.readResponse_turns codec id timed [turn] turns talk.client
      have hawaited := Ipc.Client.readResponse_cases hwired id timed [turn]
      rw [List.singleton_append, hwait] at hsplit
      rcases hfirst : Ipc.Client.readResponse codec id timed [turn] talk.client with
        ⟨first, middle⟩
      rw [hfirst] at hsplit hawaited
      cases first with
      | some reply =>
          obtain ⟨hsame, rfl⟩ := Prod.mk.inj hsplit
          obtain rfl := Option.some.inj hsame
          exact .single (.reply id timed turn outcome hawaiting hfirst hreplied hread)
      | none =>
          have hthen : Ipc.Client.readResponse codec id timed turns middle =
              (some outcome, later) := hsplit.symm
          cases hawaited with
          | waiting hprogress _ =>
              have hrest := @Ipc.Client.readResponse_cases codec middle hprogress.wired id timed
                turns
              rw [hthen] at hrest
              have hmiddle : middle.received <+: talk.conn.stream.written :=
                hrest.reads.trans hread
              exact .head (.wait id timed turn hawaiting hfirst hmiddle)
                (@ih { talk with client := middle } hprogress.wired hawaiting hthen hread)

/-- A call of the client that gets its reply is a run of the talk: the request is sent
and then waits turn by turn. -/
theorem requested_steps {command : Command} {env : RequestEnv} {frame : List UInt8}
    {timed : Bool} {outcome : Except Stop ResponseResult} {later : Ipc.Client}
    (hsound : talk.Sound codec) (hidle : talk.awaiting = none)
    (hframe : encodeFrame codec.requests ⟨talk.client.nextId, command⟩ = .ok frame)
    (hsent : env.write = none) (htimeout : env.timeout = .ok timed)
    (hrestored : env.restore = none)
    (hrequest : Ipc.Client.request codec talk.client command env = (some outcome, later))
    (hreplied : Replied outcome) (hread : later.received <+: talk.conn.stream.written) :
    Steps codec talk { talk with
      client := later
      sent := talk.sent ++ [talk.client.nextId] } := by
  rw [Ipc.Client.request_timely hsound.account.active hframe hsent htimeout hrestored]
    at hrequest
  have hbegun := (hsound.send hidle hframe).account.wired
  have hsteps := waited_steps hbegun rfl hrequest hreplied hread
  exact .head (.send command frame hidle hframe) (by rw [← hidle] at hsteps; exact hsteps)

/-- The notifications among some messages. -/
def notificationsOf (messages : List ServerMessage) : List Notification :=
  messages.filterMap fun
    | .notification notification => some notification
    | _ => none

theorem notificationsOf_handed (entries : List (ServerMessage × Nat)) :
    notificationsOf (entries.map Prod.fst) = (notesOf entries).map Prod.fst := by
  induction entries with
  | nil => rfl
  | cons entry entries ih =>
      obtain ⟨message, bytes⟩ := entry
      cases message with
      | notification notification => exact congrArg (notification :: ·) ih
      | response id result => exact ih
      | error id error => exact ih

/-- Up to the first request or poll that fails, and whatever the order of steps, the messages
that the client has got are the first of those meant for it, and the notifications that it
returned, with those it holds back, the first of the published ones. -/
theorem talk_ordered (hrequests : codec.requests.Lawful) (hmessages : codec.messages.Lawful)
    {reads : List ReadAnswer} {writes : List WriteAnswer}
    (hsteps : Steps codec (start reads writes) talk) :
    (talk.client.handed ++ talk.client.messages).map Prod.fst <+:
        talk.conn.history.map Prod.fst ∧
      talk.returned ++ talk.client.notifications.map Prod.fst <+:
        notificationsOf (talk.conn.history.map Prod.fst) := by
  have hsound := sound_steps hrequests hmessages hsteps
  have hordered := hsound.ordered hmessages hsound.account.wired hsound.received
  obtain ⟨older, hreturned, hnotes⟩ := hsound.account.notes
  refine ⟨hordered, ?_⟩
  rw [← hreturned, ← List.map_append, ← hnotes, ← notificationsOf_handed]
  rw [List.map_append] at hordered
  exact ((List.prefix_append _ _).trans hordered).filterMap _

theorem talk_ordered_hello :
    (helloDone.client.handed ++ helloDone.client.messages).map Prod.fst <+:
      helloDone.conn.history.map Prod.fst :=
  (talk_ordered helloCodec_lawful.1 helloCodec_lawful.2 hello_done).1

/-- An idle client takes no reply off the wire. -/
theorem Sound.no_reply (hrequests : codec.requests.Lawful) (hmessages : codec.messages.Lawful)
    (hsound : talk.Sound codec) (hidle : talk.awaiting = none) {later : Ipc.Client}
    (hprogress : talk.client.Progress codec later [])
    (hread : later.received <+: talk.conn.stream.written) {message : ServerMessage}
    {bytes : Nat} (hhanded : later.handed = talk.client.handed ++ [(message, bytes)]) :
    Client.replyTo message = none := by
  cases hreply : Client.replyTo message with
  | none => rfl
  | some id =>
      have hhanded' : later.handed =
          talk.client.handed ++ asMessages [] ++ [(message, bytes)] := by
        rw [hhanded]
        exact congrArg (· ++ _) (List.append_nil _).symm
      have hexpected :=
        hsound.expected hrequests hmessages hprogress.wired hread hhanded' hreply
      rw [hidle] at hexpected
      cases hexpected

/-- A poll only fails with its stream. -/
theorem Sound.polled (hrequests : codec.requests.Lawful) (hmessages : codec.messages.Lawful)
    (hsound : talk.Sound codec) (hidle : talk.awaiting = none) (read : Read) {stop : Stop}
    {later : Ipc.Client}
    (hpoll : Ipc.Client.pollEvent codec talk.client read = (.error stop, later))
    (hread : later.received <+: talk.conn.stream.written) :
    ∃ error, stop = .error error ∧ Ipc.Client.StreamError error := by
  have hpolled := Ipc.Client.pollEvent_cases hsound.account.wired hsound.account.active read
  rw [hpoll] at hpolled
  cases hpolled with
  | stopped hcause => exact ⟨_, rfl, hcause⟩
  | malformed error hrefused => exact absurd (hsound.wellFormed hmessages hread).1 hrefused
  | @unexpected _ message bytes error hreply hprogress hhanded =>
      have hnone := hsound.no_reply hrequests hmessages hidle hprogress hread hhanded
      cases message with
      | notification notification => exact absurd rfl (hreply notification)
      | response id result => cases hnone
      | error id error => cases hnone

/-- Up to the first request or poll that fails, and whatever the order of steps, the replies
that the client took are those to its requests, one each and in their order; a request that
waits gets its own reply and no other, and an idle poll no reply at all, unless the stream
or the backlog fails. -/
theorem talk_matched (hrequests : codec.requests.Lawful) (hmessages : codec.messages.Lawful)
    {reads : List ReadAnswer} {writes : List WriteAnswer}
    (hsteps : Steps codec (start reads writes) talk) :
    repliesOf (talk.client.handed.map Prod.fst) ++ talk.awaiting.toList.map some =
        talk.sent.map some ∧
      (∀ id timed turn outcome later, talk.awaiting = some id →
        Ipc.Client.readResponse codec id timed [turn] talk.client = (some outcome, later) →
          later.received <+: talk.conn.stream.written →
            (Replied outcome ∧ repliesOf (later.handed.map Prod.fst) = talk.sent.map some) ∨
              ∃ error, outcome = .error (.error error) ∧
                (Ipc.Client.StreamError error ∨ error = Ipc.Client.backlogExceeded)) ∧
      ∀ read stop later, talk.awaiting = none →
        Ipc.Client.pollEvent codec talk.client read = (.error stop, later) →
          later.received <+: talk.conn.stream.written →
            ∃ error, stop = .error error ∧ Ipc.Client.StreamError error := by
  have hsound := sound_steps hrequests hmessages hsteps
  refine ⟨hsound.replies, fun id timed turn outcome later hawaiting hwait hread => ?_,
    fun read stop later hidle hpoll hread =>
      hsound.polled hrequests hmessages hidle read hpoll hread⟩
  cases hsound.waited hrequests hmessages hawaiting timed turn hwait hread with
  | replied hreplied hnext =>
      refine .inl ⟨hreplied, ?_⟩
      rw [← hnext.replies]
      exact (List.append_nil _).symm
  | failed hcause => exact .inr ⟨_, rfl, hcause⟩

theorem talk_matched_hello : repliesOf (greetedClient.handed.map Prod.fst) = [some 1] := by
  have hmatched := talk_matched helloCodec_lawful.1 helloCodec_lawful.2 hello_served
  rcases hmatched.2.1 1 false ⟨false, none, .data replyLine⟩ _ _ rfl wait_hello
    (List.prefix_refl _) with ⟨_, hreplies⟩ | ⟨_, herror, _⟩
  · exact hreplies
  · cases herror

/-- Nothing is under way between the two sides: all that was sent is read, handled and
answered, and all that was meant for the client has reached it. -/
structure Settled (talk : Talk) : Prop where
  kept : talk.conn.immediateClose = false
  heard : talk.heard = talk.client.written
  handled : talk.conn.pendingFrames = []
  answered : talk.conn.outstanding = []
  written : talk.conn.output = []
  received : talk.client.received = talk.conn.stream.written

theorem handled_settled (hrequests : codec.requests.Lawful) (hsound : talk.Sound codec)
    (hsettled : talk.Settled) : talk.conn.handled.map Handled.id = talk.sent.map some := by
  obtain ⟨requests, frames, hframes, hwritten, hids⟩ := hsound.framed
  have hdecode := (decodeFrame_frames hrequests hframes).2.2
  rw [← hwritten, ← hsettled.heard] at hdecode
  have hlines := congrArg (List.map fun decoded => decoded.toOption.map Request.id) hdecode
  rw [List.map_map, List.map_map] at hlines
  have hhears := hsound.hears.frames
  rw [hsettled.handled, List.map_nil, List.append_nil] at hhears
  rw [hhears, ← hids, List.map_map]
  exact hlines

theorem history_settled (hmessages : codec.messages.Lawful) (hsound : talk.Sound codec)
    (hsettled : talk.Settled) :
    (talk.client.handed ++ talk.client.messages).map Prod.fst =
      talk.conn.history.map Prod.fst := by
  have hwhole := hsound.accounted.whole hsettled.kept
  rw [hsettled.written, unwritten, List.append_nil, ← hsettled.received, Client.meant,
    List.flatMap_def] at hwhole
  have hdecode := (decodeFrame_frames hmessages (encoded_history hsound.accounted)).2.2
  rw [← hwhole, decoded_lines hsound.account.wired.lines] at hdecode
  exact List.map_injective_iff.mpr (fun _ _ h => Except.ok.inj h) hdecode

/-- No reply is lost on the way of a client whose requests and polls did not fail: once
nothing is under way, it has every message that was meant for it, and the reply it waits for
is among those that it has. -/
theorem talk_settled (hrequests : codec.requests.Lawful) (hmessages : codec.messages.Lawful)
    {reads : List ReadAnswer} {writes : List WriteAnswer}
    (hsteps : Steps codec (start reads writes) talk) (hsettled : talk.Settled) :
    (talk.client.handed ++ talk.client.messages).map Prod.fst =
        talk.conn.history.map Prod.fst ∧
      repliesOf (talk.client.messages.map Prod.fst) = talk.awaiting.toList.map some := by
  have hsound := sound_steps hrequests hmessages hsteps
  have hhistory := history_settled hmessages hsound hsettled
  refine ⟨hhistory, ?_⟩
  have hexact := hsound.answered.exact hsettled.kept
  rw [hsettled.answered, List.map_nil, List.append_nil,
    handled_settled hrequests hsound hsettled, ← hsound.replies, replies_history, ← hhistory,
    List.map_append, repliesOf_append, List.perm_append_left_iff] at hexact
  cases hawaiting : talk.awaiting with
  | none =>
      rw [hawaiting] at hexact
      exact List.perm_nil.mp hexact.symm
  | some id =>
      rw [hawaiting] at hexact
      exact List.perm_singleton.mp hexact.symm

theorem talk_settled_hello :
    (helloDone.client.handed ++ helloDone.client.messages).map Prod.fst =
        helloDone.conn.history.map Prod.fst ∧
      repliesOf (helloDone.client.messages.map Prod.fst) = [] :=
  talk_settled helloCodec_lawful.1 helloCodec_lawful.2 hello_done
    ⟨rfl, rfl, rfl, rfl, rfl, rfl⟩

end Talk

end Daemon

end Wiiland
