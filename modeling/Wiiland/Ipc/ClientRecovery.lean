/-
Requests after an abandoned one.  Against a server that answers in order, a request
issued when no earlier reply is unread returns its own reply in time; the reply to
an abandoned request that is still unread is taken for the next request's.
-/
import Wiiland.Ipc.ClientAccount

namespace Wiiland

namespace Ipc

/-- The request a message replies to. -/
def replyId : ServerMessage → Option UInt64
  | .notification _ => none
  | .response id _ => some id
  | .error id _ => id

def replyIds (entries : List (ServerMessage × Nat)) : List UInt64 :=
  entries.filterMap fun entry => replyId entry.1

theorem replyIds_append (first second : List (ServerMessage × Nat)) :
    replyIds (first ++ second) = replyIds first ++ replyIds second :=
  List.filterMap_append

theorem replyIds_asMessages (notes : List (Notification × Nat)) :
    replyIds (asMessages notes) = [] := by
  induction notes with
  | nil => rfl
  | cons note notes ih => exact ih

/-- What a request returns for its own reply. -/
def ownOutcome : ServerMessage → Option (Except Stop ResponseResult)
  | .notification _ => none
  | .response _ result => some (.ok result)
  | .error _ error => some (.error (.error (.server error)))

/-- A stream of notifications and of replies to the issued requests, each with its id
and in their order. -/
structure Orderly (codec : Codec) (received : List UInt8) (issued : List UInt64) : Prop where
  formed : WellFormed codec received
  correlated : ∀ entries, List.Forall₂ (Decodes codec) (Lines.cut newline received).1 entries →
    ∀ error bytes, (.error none error, bytes) ∉ entries
  inOrder : ∀ entries, List.Forall₂ (Decodes codec) (Lines.cut newline received).1 entries →
    replyIds entries <+: issued

namespace Client

/-- The ids whose requests reach the server when a request is made. -/
def sentIds (codec : Codec) (client : Client) (command : Command) (env : RequestEnv) :
    List UInt64 :=
  if client.terminated then []
  else
    match encodeFrame codec.requests ⟨client.nextId, command⟩, env.write with
    | .ok _, none => [client.nextId]
    | _, _ => []

/-- The calls made on a connection to an orderly server and the ids it was sent.  A
call may end in any way, also in a timeout. -/
inductive Dialogue (codec : Codec) : Client → List UInt64 → Prop
  | connected : Dialogue codec {} []
  | requested {client : Client} {issued : List UInt64} {command : Command}
      {env : RequestEnv} (earlier : Dialogue codec client issued)
      (returned : (request codec client command env).1.isSome = true)
      (orderly : Orderly codec (request codec client command env).2.received
        (issued ++ sentIds codec client command env)) :
      Dialogue codec (request codec client command env).2
        (issued ++ sentIds codec client command env)
  | polled {client : Client} {issued : List UInt64} {read : Read}
      (earlier : Dialogue codec client issued)
      (orderly : Orderly codec (pollEvent codec client read).2.received issued) :
      Dialogue codec (pollEvent codec client read).2 issued

theorem Awaited.wired {codec : Codec} {id : UInt64} {client later : Client}
    {turns : List Turn} {outcome : Option (Except Stop ResponseResult)}
    (hawaited : Awaited codec id client turns outcome later)
    (hformed : WellFormed codec later.received) : Wired codec later := by
  cases hawaited with
  | waiting hprogress _ => exact hprogress.wired
  | stopped hprogress _ _ _ => exact hprogress.wired
  | answered hprogress _ => exact hprogress.wired
  | mismatched hprogress _ _ => exact hprogress.wired
  | refused hprogress _ => exact hprogress.wired
  | overflow hprogress _ _ => exact hprogress.wired.congr rfl rfl rfl rfl
  | malformed _ _ _ hrefused => exact absurd hformed hrefused

theorem Wired.requested {codec : Codec} {client : Client} (hwired : Wired codec client)
    {command : Command} {env : RequestEnv}
    (hformed : WellFormed codec (request codec client command env).2.received) :
    Wired codec (request codec client command env).2 := by
  cases hactive : client.terminated with
  | true =>
      rw [request, ensureActive, hactive]
      exact hwired
  | false =>
      rcases request_cases hactive codec command env with
        ⟨error, sent, _, hearly⟩ | ⟨frame, timed, _, _, _, hlater, _⟩
      · rw [hearly]
        exact hwired.begun sent
      · rw [hlater] at hformed ⊢
        exact (readResponse_cases (hwired.begun frame) _ timed env.turns).wired hformed

theorem Wired.polled {codec : Codec} {client : Client} (hwired : Wired codec client)
    {read : Read} (hformed : WellFormed codec (pollEvent codec client read).2.received) :
    Wired codec (pollEvent codec client read).2 := by
  cases hactive : client.terminated with
  | true =>
      rw [pollEvent, ensureActive, hactive]
      exact hwired
  | false =>
      have hpolled := pollEvent_cases hwired hactive read
      generalize pollEvent codec client read = polled at hformed hpolled ⊢
      obtain ⟨result, later⟩ := polled
      cases hpolled with
      | queued _ => exact hwired.congr rfl rfl rfl rfl
      | quiet hprogress _ => exact hprogress.wired
      | notified _ hprogress _ => exact hprogress.wired
      | unexpected _ hprogress _ => exact hprogress.wired
      | stopped _ => exact hwired
      | malformed _ hrefused => exact absurd hformed hrefused

theorem Dialogue.wired {codec : Codec} {client : Client} {issued : List UInt64}
    (hdialogue : Dialogue codec client issued) : Wired codec client := by
  induction hdialogue with
  | connected => exact ⟨fits_nil, rfl, .nil⟩
  | requested _ _ horderly ih => exact ih.requested horderly.formed
  | polled _ horderly ih => exact ih.polled horderly.formed

/-- A request that is sent and waits without meeting its deadline or a failed read. -/
structure Timely (env : RequestEnv) : Prop where
  sent : env.write = none
  timeout : ∃ timed, env.timeout = .ok timed
  restored : env.restore = none
  turns : ∀ turn ∈ env.turns, OnTime turn

theorem readResponse_more {codec : Codec} {id : UInt64} {timed : Bool} {turns : List Turn}
    {client : Client} (hwaits : (readResponse codec id timed turns client).1 = none)
    (more : List Turn) :
    readResponse codec id timed (turns ++ more) client =
      readResponse codec id timed more (readResponse codec id timed turns client).2 := by
  rw [readResponse_turns]
  rcases hwait : readResponse codec id timed turns client with ⟨outcome, later⟩
  rw [hwait] at hwaits
  obtain rfl : outcome = none := hwaits
  rfl

/-- A call whose reply is queued returns within as many turns as messages are queued. -/
theorem readResponse_returns {codec : Codec} {id : UInt64} {timed : Bool}
    {turns : List Turn} {client : Client} (honTime : ∀ turn ∈ turns, OnTime turn)
    (hqueued : replyIds client.messages ≠ [])
    (hlength : client.messages.length ≤ turns.length) :
    (readResponse codec id timed turns client).1 ≠ none := by
  induction turns generalizing client with
  | nil =>
      rw [List.length_nil, Nat.le_zero, List.length_eq_zero_iff] at hlength
      rw [hlength] at hqueued
      exact absurd rfl hqueued
  | cons turn turns ih =>
      rw [List.forall_mem_cons] at honTime
      rw [readResponse, honTime.1.early, Bool.and_false, if_neg Bool.false_ne_true,
        honTime.1.settable, ite_self]
      cases hmessages : client.messages with
      | nil =>
          rw [hmessages] at hqueued
          exact absurd rfl hqueued
      | cons entry rest =>
          obtain ⟨message, bytes⟩ := entry
          simp only [pollMessage, popMessage, hmessages]
          cases message with
          | notification notification =>
              simp only [queueNotification]
              split
              · next herror => exact Option.some_ne_none _
              · next hdone =>
                apply ih honTime.2
                · rw [hmessages] at hqueued
                  split <;> exact hqueued
                · rw [hmessages, List.length_cons, List.length_cons,
                    Nat.add_le_add_iff_right] at hlength
                  split <;> exact hlength
          | response responseId result =>
              simp only
              split <;> exact Option.some_ne_none _
          | error errorId error => exact Option.some_ne_none _

theorem eq_of_prefix_concat {A : Type} {start rest : List A} {first second : A}
    (hpre : start ++ [first] ++ rest <+: start ++ [second]) : first = second := by
  rw [List.append_assoc, List.prefix_append_right_inj] at hpre
  exact (List.cons_prefix_cons.mp hpre).1

/-- Every earlier reply has been read when the next request is made. -/
def Settled (client : Client) (issued : List UInt64) : Prop :=
  replyIds client.handed = issued

/-- What the wait of a settled request ends in: never another request's reply. -/
theorem Awaited.settled {codec : Codec} {client later : Client} {issued : List UInt64}
    {frame : List UInt8} {turns : List Turn} {outcome : Option (Except Stop ResponseResult)}
    (hsettled : Settled client issued)
    (hawaited : Awaited codec client.nextId (client.begun frame) turns outcome later)
    (horderly : Orderly codec later.received (issued ++ [client.nextId])) :
    (∀ expected actual,
        outcome ≠ some (.error (.error (.unexpectedResponseId expected actual)))) ∧
      ((∀ turn ∈ turns, OnTime turn) →
        outcome = none ∨
        (∃ message bytes, later.handed.getLast? = some (message, bytes) ∧
          replyId message = some client.nextId ∧ outcome = ownOutcome message) ∨
        outcome = some (.error (.error backlogExceeded)) ∧ later.terminated = true) := by
  have hlines := (hawaited.wired horderly.formed).lines
  have hinOrder := horderly.inOrder _ hlines
  have hcorrelated := horderly.correlated _ hlines
  have hstart : ∀ noted, replyIds ((client.begun frame).handed ++ asMessages noted) =
      issued := by
    intro noted
    rw [replyIds_append, replyIds_asMessages, List.append_nil]
    exact hsettled
  cases hawaited with
  | waiting hprogress hhanded =>
      exact ⟨nofun, fun _ => Or.inl rfl⟩
  | stopped hprogress hhanded hstream hcause =>
      refine ⟨?_, fun honTime => ?_⟩
      · rintro expected actual hsame
        cases hsame
        rcases hstream with hend | ⟨kind, hio⟩ <;> contradiction
      · obtain ⟨turn, hturn, hlate⟩ := hcause
        exact absurd (honTime turn hturn) hlate
  | @answered noted _ result bytes hprogress hhanded =>
      refine ⟨nofun, fun _ => Or.inr (Or.inl ⟨.response client.nextId result, bytes, ?_, rfl,
        rfl⟩)⟩
      rw [hhanded, List.getLast?_concat]
  | mismatched hprogress hhanded hother =>
      rw [hhanded, replyIds_append, replyIds_append, hstart] at hinOrder
      exact absurd (eq_of_prefix_concat hinOrder) hother
  | @refused noted _ errorId error bytes hprogress hhanded =>
      rw [hhanded] at hcorrelated
      cases errorId with
      | none =>
          refine absurd (List.mem_append_left _ ?_) (hcorrelated error bytes)
          exact List.mem_append_right _ List.mem_cons_self
      | some actual =>
          rw [hhanded, replyIds_append, replyIds_append, hstart] at hinOrder
          obtain rfl := eq_of_prefix_concat hinOrder
          rw [errorReply, if_neg (not_not.mpr rfl)]
          refine ⟨nofun, fun _ => Or.inr (Or.inl ⟨.error (some client.nextId) error, bytes,
            ?_, rfl, rfl⟩)⟩
          rw [hhanded, List.getLast?_concat]
  | overflow hprogress hhanded hexceeds =>
      exact ⟨nofun, fun _ => Or.inr (Or.inr ⟨rfl, rfl⟩)⟩
  | malformed error hmore hsame hrefused => exact absurd horderly.formed hrefused

theorem sentIds_of_sent {codec : Codec} {client : Client} {command : Command}
    {env : RequestEnv} {frame : List UInt8} (hactive : client.terminated = false)
    (hframe : encodeFrame codec.requests ⟨client.nextId, command⟩ = .ok frame)
    (hsent : env.write = none) : sentIds codec client command env = [client.nextId] := by
  rw [sentIds, hactive, if_neg Bool.false_ne_true, hframe, hsent]

/-- In every dialogue with an orderly server, a request made when no earlier reply is
unread is never failed by another request's reply.  If it is sent and waits in time, it
returns its own reply or ends the client, and it does not wait on once its reply has
arrived. -/
theorem request_recovers {codec : Codec} {client : Client} {issued : List UInt64}
    (hdialogue : Dialogue codec client issued) (hsettled : Settled client issued)
    {command : Command} {env : RequestEnv}
    (horderly : Orderly codec (request codec client command env).2.received
      (issued ++ sentIds codec client command env)) :
    (∀ expected actual, (request codec client command env).1 ≠
        some (.error (.error (.unexpectedResponseId expected actual)))) ∧
      (Timely env → (∃ frame, encodeFrame codec.requests ⟨client.nextId, command⟩ = .ok frame) →
        ((request codec client command env).1 = none ∧
          (client.nextId ∈ replyIds (request codec client command env).2.messages →
            ∀ more, (∀ turn ∈ more, OnTime turn) →
              (request codec client command env).2.messages.length ≤ more.length →
              (request codec client command { env with turns := env.turns ++ more }).1 ≠
                none)) ∨
        (∃ message bytes, (request codec client command env).2.handed.getLast? =
            some (message, bytes) ∧ replyId message = some client.nextId ∧
          (request codec client command env).1 = ownOutcome message) ∨
        (request codec client command env).1 = some (.error (.error backlogExceeded)) ∧
          (request codec client command env).2.terminated = true) := by
  cases hactive : client.terminated with
  | true =>
      have hensure : client.ensureActive = .error backlogExceeded := by
        rw [ensureActive, hactive]
        rfl
      have hended : request codec client command env =
          (some (.error (.error backlogExceeded)), client) := by
        rw [request, hensure]
      rw [hended]
      exact ⟨by simp [backlogExceeded], fun _ _ => Or.inr (Or.inr ⟨rfl, hactive⟩)⟩
  | false =>
      refine ⟨?_, ?_⟩
      · rcases request_cases hactive codec command env with
          ⟨error, sent, hkind, hearly⟩ |
          ⟨frame, timed, hframe, hsent, _, hlater, hresult | ⟨_, _, _, _, hresult⟩⟩
        · rw [hearly]
          rintro expected actual hsame
          cases hsame
          rcases hkind with (hend | ⟨kind, hio⟩) | ⟨other, hother⟩ <;> contradiction
        · rw [sentIds_of_sent hactive hframe hsent, hlater] at horderly
          rw [hresult]
          exact ((readResponse_cases (hdialogue.wired.begun frame) _ timed
            env.turns).settled hsettled horderly).1
        · rw [hresult]
          simp
      · rintro ⟨hsent, ⟨timed, htimeout⟩, hrestored, hturns⟩ ⟨frame, hframe⟩
        have hrequest := request_timely hactive hframe hsent htimeout hrestored
        rw [sentIds_of_sent hactive hframe hsent, hrequest] at horderly
        rw [hrequest]
        rcases ((readResponse_cases (hdialogue.wired.begun frame) _ timed
            env.turns).settled hsettled horderly).2 hturns with hwaits | hends
        · refine Or.inl ⟨hwaits, fun harrived more hmore hlength => ?_⟩
          rw [@request_timely codec client command { env with turns := env.turns ++ more }
            frame timed hactive hframe hsent htimeout hrestored, readResponse_more hwaits]
          exact readResponse_returns hmore (List.ne_nil_of_mem harrived) hlength
        · exact Or.inr hends

def laterPongText : List UInt8 :=
  textBytes "\x7b\"type\":\"response\",\"value\":\x7b\"id\":2,\"result\":\x7b\"type\":\"pong\"\x7d\x7d\x7d"

def laterPingText : List UInt8 := textBytes "\x7b\"id\":2,\"command\":\x7b\"type\":\"ping\"\x7d\x7d"

/-- The library on two pings and their replies. -/
def pingCodec : Codec where
  requests :=
    { toVec := fun request =>
        if request = ⟨1, .ping⟩ then .ok pingText
        else if request = ⟨2, .ping⟩ then .ok laterPingText
        else .error "unsupported value"
      fromSlice := fun _ => .error "expected value" }
  messages :=
    { toVec := fun _ => .error "unsupported value"
      fromSlice := fun text =>
        if text = pongText then .ok (.response 1 .pong)
        else if text = laterPongText then .ok (.response 2 .pong)
        else .error "expected value" }

/-- A wait that meets its deadline before anything arrives. -/
def silent : RequestEnv where
  write := none
  timeout := .ok true
  turns := [⟨true, none, .data []⟩]
  restore := none

/-- A wait in which both replies arrive with the first read. -/
def bothReplies : RequestEnv where
  write := none
  timeout := .ok true
  turns := [⟨false, none, .data (Lines.glue newline [pongText, laterPongText] [])⟩]
  restore := none

/-- The client after its first ping has timed out. -/
def abandoned : Client := ({} : Client).begun (pingText ++ [newline])

/-- The client after its second ping has read the first reply. -/
def misled : Client :=
  { abandoned.begun (laterPingText ++ [newline]) with
    received := Lines.glue newline [pongText, laterPongText] []
    messages := [(.response 2 .pong, laterPongText.length + 1)]
    handed := [(.response 1 .pong, pongText.length + 1)] }

theorem laterPongText_short : Short laterPongText := by
  rw [show laterPongText = _ from textBytes_ofList _]
  decide

theorem laterPingText_short : Short laterPingText := by
  rw [show laterPingText = _ from textBytes_ofList _]
  decide

theorem laterPongText_ne : laterPongText ≠ pongText := by
  rw [show laterPongText = _ from textBytes_ofList _,
    show pongText = _ from textBytes_ofList _]
  decide

theorem encode_ping : encodeFrame pingCodec.requests ⟨1, .ping⟩ = .ok (pingText ++ [newline]) :=
  encodeFrame_eq_ok.mpr ⟨pingText, rfl, pingText_short.length_le, rfl⟩

theorem request_silent : request pingCodec {} .ping silent =
    (some (.error (.error (.io .timedOut))), abandoned) :=
  @request_timely _ {} _ silent _ _ rfl encode_ping rfl rfl rfl

theorem pongText_plain :
    ∀ line ∈ [pongText, laterPongText], newline ∉ line ∧ Fits line := by
  rw [List.forall_mem_cons, List.forall_mem_singleton]
  exact ⟨⟨pongText_short.1, pongText_short.fits⟩,
    laterPongText_short.1, laterPongText_short.fits⟩

theorem pongText_decodes : List.Forall₂ (Decodes pingCodec) [pongText, laterPongText]
    [(.response 1 .pong, pongText.length + 1), (.response 2 .pong, laterPongText.length + 1)] :=
  .cons (decodes_short pongText_short (by simp [pingCodec]))
    (.cons (decodes_short laterPongText_short (by simp [pingCodec, laterPongText_ne])) .nil)

theorem request_bothReplies : request pingCodec abandoned .ping bothReplies =
    (some (.error (.error (.unexpectedResponseId 2 1))), misled) := by
  have hframe : encodeFrame pingCodec.requests ⟨2, .ping⟩ =
      .ok (laterPingText ++ [newline]) :=
    encodeFrame_eq_ok.mpr ⟨laterPingText, rfl, laterPingText_short.length_le, rfl⟩
  have hpoll : pollMessage pingCodec (abandoned.begun (laterPingText ++ [newline]))
      (.data (Lines.glue newline [pongText, laterPongText] [])) =
        (.ok (some (.response 1 .pong, pongText.length + 1)), misled) :=
    pollMessage_lines rfl rfl pongText_plain pongText_decodes
      (glue_short (Nat.le_refl _) (by simp [pongText_short, laterPongText_short]))
  rw [@request_timely _ abandoned _ bothReplies _ _ rfl hframe rfl rfl rfl, bothReplies,
    readResponse]
  simp only [Bool.and_false, Bool.false_eq_true, if_false, ite_self, hpoll]
  rfl

/-- A stream of whole lines with replies in order. -/
theorem orderly_lines {codec : Codec} {lines : List (List UInt8)}
    {entries : List (ServerMessage × Nat)} {issued : List UInt64}
    (hplain : ∀ line ∈ lines, newline ∉ line ∧ Fits line)
    (hlines : List.Forall₂ (Decodes codec) lines entries)
    (hcorrelated : ∀ error bytes, (.error none error, bytes) ∉ entries)
    (hinOrder : replyIds entries <+: issued) :
    Orderly codec (Lines.glue newline lines []) issued := by
  have hcut := Lines.cut_glue (fun line hline => (hplain line hline).1)
    (List.not_mem_nil (a := newline))
  have hunique : ∀ others,
      List.Forall₂ (Decodes codec) (Lines.cut newline (Lines.glue newline lines [])).1 others →
      others = entries := by
    intro others hothers
    rw [hcut] at hothers
    exact List.right_unique_forall₂' (decodes_rightUnique codec) hothers hlines
  refine ⟨⟨?_, ?_⟩, fun others hothers => ?_, fun others hothers => ?_⟩
  · rw [Acceptable, hcut]
    exact ⟨fun line hline => (hplain line hline).2, fits_nil⟩
  · rw [hcut]
    exact decodes_of_mem hlines
  · rw [hunique others hothers]
    exact hcorrelated
  · rw [hunique others hothers]
    exact hinOrder

theorem dialogue_abandoned : Dialogue pingCodec abandoned [1] := by
  have hdialogue := @Dialogue.requested pingCodec {} [] .ping silent .connected
    (by rw [request_silent]; rfl)
  rw [request_silent, List.nil_append] at hdialogue
  have hsent : sentIds pingCodec {} .ping silent = [1] :=
    @sentIds_of_sent _ {} _ _ _ rfl encode_ping rfl
  rw [hsent] at hdialogue
  exact hdialogue (@orderly_lines _ [] [] _ nofun .nil nofun List.nil_prefix)

/-- After a timeout the next ping, answered in time, fails on the late reply. -/
theorem late_reply_misread :
    (request pingCodec {} .ping silent).1 = some (.error (.error (.io .timedOut))) ∧
      Dialogue pingCodec abandoned [1] ∧ Timely bothReplies ∧
      Orderly pingCodec (request pingCodec abandoned .ping bothReplies).2.received [1, 2] ∧
      replyIds ((request pingCodec abandoned .ping bothReplies).2.handed ++
        (request pingCodec abandoned .ping bothReplies).2.messages) = [1, 2] ∧
      (request pingCodec abandoned .ping bothReplies).1 =
        some (.error (.error (.unexpectedResponseId 2 1))) ∧
      (request pingCodec abandoned .ping bothReplies).2.terminated = false := by
  have horderly : Orderly pingCodec misled.received [1, 2] :=
    orderly_lines pongText_plain pongText_decodes nofun (List.prefix_refl _)
  rw [request_silent, request_bothReplies]
  refine ⟨rfl, dialogue_abandoned, ⟨rfl, ⟨true, rfl⟩, rfl, ?_⟩, horderly, rfl, rfl, rfl⟩
  rw [bothReplies, List.forall_mem_singleton]
  exact ⟨rfl, rfl, _, by simp [Lines.glue], rfl⟩

/-- A wait in which the reply arrives with the first read. -/
def promptReply : RequestEnv where
  write := none
  timeout := .ok true
  turns := [⟨false, none, .data (Lines.glue newline [pongText] [])⟩]
  restore := none

/-- The client after its first ping has been answered. -/
def answered : Client :=
  { abandoned with
    received := Lines.glue newline [pongText] []
    handed := [(.response 1 .pong, pongText.length + 1)] }

theorem pongText_decodes_first : List.Forall₂ (Decodes pingCodec) [pongText]
    [(.response 1 .pong, pongText.length + 1)] :=
  .cons (decodes_short pongText_short (by simp [pingCodec])) .nil

theorem pongText_plain_first : ∀ line ∈ [pongText], newline ∉ line ∧ Fits line :=
  fun line hline => pongText_plain line
    (List.mem_cons.mpr (Or.inl (List.mem_singleton.mp hline)))

theorem request_promptReply : request pingCodec {} .ping promptReply =
    (some (.ok .pong), answered) := by
  have hpoll : pollMessage pingCodec abandoned (.data (Lines.glue newline [pongText] [])) =
      (.ok (some (.response 1 .pong, pongText.length + 1)), answered) :=
    pollMessage_lines rfl rfl pongText_plain_first pongText_decodes_first
      (glue_short (by simp) (by simp [pongText_short]))
  rw [@request_timely _ {} _ promptReply _ _ rfl encode_ping rfl rfl rfl, promptReply,
    readResponse]
  have hpoll' : pollMessage pingCodec (({} : Client).begun (pingText ++ [newline]))
      (.data (Lines.glue newline [pongText] [])) =
      (.ok (some (.response 1 .pong, pongText.length + 1)), answered) := hpoll
  simp only [Bool.and_false, Bool.false_eq_true, if_false, ite_self, hpoll']
  rfl

/-- The first ping of a connection is answered, with no other reply to meet. -/
theorem request_recovers_first :
    (request pingCodec {} .ping promptReply).1 = some (.ok .pong) ∧
      (request pingCodec {} .ping promptReply).1 ≠
        some (.error (.error (.unexpectedResponseId 1 2))) := by
  have horderly : Orderly pingCodec (request pingCodec {} .ping promptReply).2.received
      ([] ++ sentIds pingCodec {} .ping promptReply) := by
    have hsent : sentIds pingCodec {} .ping promptReply = [1] :=
      @sentIds_of_sent _ {} _ _ _ rfl encode_ping rfl
    rw [request_promptReply, hsent]
    exact orderly_lines pongText_plain_first pongText_decodes_first nofun (List.prefix_refl _)
  exact ⟨by rw [request_promptReply], (request_recovers .connected rfl horderly).1 1 2⟩

end Client

end Ipc

end Wiiland
