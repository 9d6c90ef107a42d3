/-
The accounts of a client none of whose calls has failed.  Notifications are
returned once and in wire order, a request returns the response with its own id,
and the lengths on the wire add up; a backlog that grows too long ends the client.
-/
import Wiiland.Ipc.ClientCalls
import Wiiland.Ipc.Framing

namespace Wiiland

namespace Ipc

namespace Client

/-- The calls of a connection so far, none of which has failed, and the
notifications they returned. -/
inductive Calls (codec : Codec) : Client → List Notification → Prop
  | connected : Calls codec {} []
  | requested {client : Client} {returned : List Notification} {command : Command}
      {env : RequestEnv} {result : ResponseResult} (earlier : Calls codec client returned)
      (answered : (request codec client command env).1 = some (.ok result)) :
      Calls codec (request codec client command env).2 returned
  | polled {client : Client} {returned : List Notification} {read : Read}
      {found : Option Notification} (earlier : Calls codec client returned)
      (done : (pollEvent codec client read).1 = .ok found) :
      Calls codec (pollEvent codec client read).2 (returned ++ found.toList)

structure Account (codec : Codec) (client : Client) (returned : List Notification) :
    Prop where
  wired : Wired codec client
  active : client.terminated = false
  notes : ∃ older : List (Notification × Nat), older.map Prod.fst = returned ∧
    notesOf client.handed = older ++ client.notifications
  bytes : client.notificationBytes = total client.notifications
  limit : client.notificationBytes ≤ maxNotificationBacklogBytes

theorem account_connected (codec : Codec) : Account codec {} [] where
  wired := ⟨fits_nil, rfl, .nil⟩
  active := rfl
  notes := ⟨[], rfl, rfl⟩
  bytes := rfl
  limit := Nat.zero_le _

theorem Account.begun {codec : Codec} {client : Client} {returned : List Notification}
    (haccount : Account codec client returned) (sent : List UInt8) :
    Account codec (client.begun sent) returned :=
  ⟨haccount.wired.begun sent, haccount.active, haccount.notes, haccount.bytes,
    haccount.limit⟩

theorem notesOf_reply {message : ServerMessage} {bytes : Nat}
    (hreply : ∀ notification, message ≠ .notification notification) :
    notesOf [(message, bytes)] = [] := by
  cases message with
  | notification notification => exact absurd rfl (hreply notification)
  | response id result => rfl
  | error id error => rfl

/-- Deferring notifications keeps the account. -/
theorem Account.progress {codec : Codec} {client later : Client}
    {returned : List Notification} {noted : List (Notification × Nat)}
    {last : List (ServerMessage × Nat)} (haccount : Account codec client returned)
    (hprogress : Progress codec client later noted)
    (hhanded : later.handed = client.handed ++ asMessages noted ++ last)
    (hlast : notesOf last = []) : Account codec later returned := by
  obtain ⟨older, hreturned, hnotes⟩ := haccount.notes
  refine ⟨hprogress.wired, hprogress.terminated.trans haccount.active,
    ⟨older, hreturned, ?_⟩, ?_, hprogress.limit haccount.limit⟩
  · rw [hhanded, notesOf_append, notesOf_append, notesOf_asMessages, hnotes, hlast,
      List.append_nil, List.append_assoc, hprogress.notifications]
  · rw [hprogress.bytes, hprogress.notifications, total_append, haccount.bytes]

/-- An answered request took the response with its own id off the wire last. -/
theorem Account.requested {codec : Codec} {client : Client} {returned : List Notification}
    (haccount : Account codec client returned) {command : Command} {env : RequestEnv}
    {result : ResponseResult}
    (hanswered : (request codec client command env).1 = some (.ok result)) :
    Account codec (request codec client command env).2 returned ∧
      ∃ bytes, (request codec client command env).2.handed.getLast? =
        some (.response client.nextId result, bytes) := by
  rcases request_cases haccount.active codec command env with
    ⟨error, sent, _, hearly⟩ | ⟨frame, timed, _, _, _, hlater, hresult | ⟨_, kind, _, _, hresult⟩⟩
  · rw [hearly] at hanswered
    cases hanswered
  · have hawaited := readResponse_cases (haccount.wired.begun frame) client.nextId timed
      env.turns
    rw [← hresult, ← hlater, hanswered] at hawaited
    cases hawaited with
    | answered hprogress hhanded =>
        refine ⟨(haccount.begun frame).progress hprogress hhanded rfl, ?_⟩
        rw [hhanded, List.getLast?_concat]
        exact ⟨_, rfl⟩
  · rw [hresult] at hanswered
    cases hanswered

theorem total_handed {codec : Codec} {lines : List (List UInt8)}
    {entries : List (ServerMessage × Nat)} (hlines : List.Forall₂ (Decodes codec) lines entries)
    (rest : List UInt8) :
    total entries + rest.length = (Lines.glue newline lines rest).length := by
  induction hlines with
  | nil => simp [total, Lines.glue]
  | cons hhead _ ih =>
      rw [total_cons, Nat.add_assoc, ih, hhead.2]
      simp [Lines.glue]
      omega

theorem le_total_of_mem {A : Type} {entry : A × Nat} {entries : List (A × Nat)}
    (hentry : entry ∈ entries) : entry.2 ≤ Ipc.total entries := by
  induction entries with
  | nil => exact absurd hentry List.not_mem_nil
  | cons head tail ih =>
      rw [total_cons]
      rcases List.mem_cons.mp hentry with rfl | htail
      · exact Nat.le_add_right _ _
      · exact Nat.le_add_left_of_le (ih htail)

/-- All lengths handed out or queued, and the unfinished line, are the stream. -/
theorem Wired.total {codec : Codec} {client : Client} (hwired : Wired codec client) :
    Ipc.total client.handed + Ipc.total client.messages + client.frames.bytes.length =
      client.received.length := by
  rw [← total_append, total_handed hwired.lines, hwired.rest, Lines.glue_cut]

/-- What one event poll of an active client does. -/
theorem pollEvent_account {codec : Codec} {client : Client} {returned : List Notification}
    (haccount : Account codec client returned) (read : Read) :
    (pollEvent codec client read).1 ≠ .error .panic ∧
      ∀ found, (pollEvent codec client read).1 = .ok found →
        Account codec (pollEvent codec client read).2 (returned ++ found.toList) := by
  obtain ⟨older, hreturned, hnotes⟩ := haccount.notes
  have hpolled := pollEvent_cases haccount.wired haccount.active read
  rcases hpoll : pollEvent codec client read with ⟨result, later⟩
  rw [hpoll] at hpolled
  cases hpolled with
  | stopped _ => exact ⟨by simp, by simp⟩
  | malformed error _ => exact ⟨by simp, by simp⟩
  | unexpected _ _ _ => exact ⟨by simp, by simp⟩
  | @queued note rest hqueue =>
      refine ⟨by simp, fun found hfound => ?_⟩
      obtain rfl := Except.ok.inj hfound
      have hbytes := haccount.bytes
      rw [hqueue, total_cons] at hbytes
      refine ⟨haccount.wired.congr rfl rfl rfl rfl, haccount.active,
        ⟨older ++ [note], ?_, ?_⟩, ?_, ?_⟩
      · rw [List.map_append, hreturned]
        rfl
      · rw [hnotes, hqueue, List.append_assoc]
        rfl
      · simp only [hbytes, Nat.add_sub_cancel_left]
      · exact Nat.le_trans (Nat.sub_le _ _) haccount.limit
  | quiet hprogress hhanded =>
      refine ⟨by simp, fun found hfound => ?_⟩
      obtain rfl := Except.ok.inj hfound
      rw [Option.toList_none, List.append_nil]
      have hsame : later.handed = client.handed ++ asMessages [] ++ [] := by
        exact hhanded.trans ((List.append_nil _).trans (List.append_nil _)).symm
      exact haccount.progress hprogress hsame rfl
  | @notified _ notification bytes hqueue hprogress hhanded =>
      refine ⟨by simp, fun found hfound => ?_⟩
      obtain rfl := Except.ok.inj hfound
      have hlater := hprogress.notifications
      rw [hqueue] at hlater
      refine ⟨hprogress.wired, hprogress.terminated.trans haccount.active,
        ⟨older ++ [(notification, bytes)], ?_, ?_⟩, ?_, hprogress.limit haccount.limit⟩
      · rw [List.map_append, hreturned]
        rfl
      · rw [hhanded, notesOf_append, hnotes, hqueue, hlater, List.append_nil,
          List.append_nil, List.append_nil]
        rfl
      · rw [hprogress.bytes, haccount.bytes, hqueue, hlater]
        rfl

theorem calls_account {codec : Codec} {client : Client} {returned : List Notification}
    (hcalls : Calls codec client returned) : Account codec client returned := by
  induction hcalls with
  | connected => exact account_connected codec
  | requested _ hanswered ih => exact (ih.requested hanswered).1
  | polled _ hdone ih => exact (pollEvent_account ih _).2 _ hdone

/-- A request that ends the client met a notification that would not fit, and did
not keep it. -/
theorem Account.overflow {codec : Codec} {client : Client} {returned : List Notification}
    (haccount : Account codec client returned) {command : Command} {env : RequestEnv}
    (hterminated : (request codec client command env).2.terminated = true) :
    (request codec client command env).1 = some (.error (.error backlogExceeded)) ∧
      ∃ older refused, older.map Prod.fst = returned ∧
        notesOf (request codec client command env).2.handed =
          older ++ (request codec client command env).2.notifications ++ [refused] ∧
        (request codec client command env).2.notificationBytes ≤
          maxNotificationBacklogBytes ∧
        maxNotificationBacklogBytes <
          (request codec client command env).2.notificationBytes + refused.2 := by
  have hclash : ∀ later : Client, later.terminated = client.terminated →
      later.terminated ≠ true := by
    intro later hsame hlater
    rw [hsame, haccount.active] at hlater
    cases hlater
  rcases request_cases haccount.active codec command env with
    ⟨error, sent, _, hearly⟩ | ⟨frame, timed, _, _, _, hlater, hresult⟩
  · rw [hearly] at hterminated
    exact absurd hterminated (hclash _ rfl)
  · have hawaited := readResponse_cases (haccount.wired.begun frame) client.nextId timed
      env.turns
    rw [← hlater] at hawaited
    generalize hwait : (readResponse codec client.nextId timed env.turns
      (client.begun frame)).1 = wait at hawaited hresult
    generalize (request codec client command env).2 = later at *
    cases hawaited with
    | waiting hprogress _ => exact absurd hterminated (hclash _ hprogress.terminated)
    | stopped hprogress _ _ _ => exact absurd hterminated (hclash _ hprogress.terminated)
    | answered hprogress _ => exact absurd hterminated (hclash _ hprogress.terminated)
    | mismatched hprogress _ _ => exact absurd hterminated (hclash _ hprogress.terminated)
    | refused hprogress _ => exact absurd hterminated (hclash _ hprogress.terminated)
    | malformed error _ hsame _ => exact absurd hterminated (hclash _ hsame)
    | @overflow _ _ notification bytes hprogress hhanded hexceeds =>
        rcases hresult with hresult | ⟨_, _, _, hanswered, _⟩
        · obtain ⟨older, hreturned, hnotes⟩ := haccount.notes
          refine ⟨hresult, older, (notification, bytes), hreturned, ?_,
            hprogress.limit haccount.limit, hexceeds⟩
          simp only [hhanded, hprogress.notifications, notesOf_append, notesOf_asMessages]
          change notesOf client.handed ++ _ ++ _ = older ++ (client.notifications ++ _) ++ _
          rw [hnotes, List.append_assoc older]
          rfl
        · cases hanswered

theorem request_ne_panic {codec : Codec} {client : Client} {returned : List Notification}
    (haccount : Account codec client returned) (command : Command) (env : RequestEnv) :
    (request codec client command env).1 ≠ some (.error .panic) := by
  intro hpanic
  rcases request_cases haccount.active codec command env with
    ⟨error, sent, _, hearly⟩ | ⟨frame, timed, _, _, _, _, hresult | ⟨_, _, _, _, hresult⟩⟩
  · rw [hearly] at hpanic
    cases hpanic
  · have hawaited := readResponse_cases (haccount.wired.begun frame) client.nextId timed
      env.turns
    rw [← hresult, hpanic] at hawaited
    cases hawaited
  · rw [hresult] at hpanic
    cases hpanic

/-- A client that has ended answers every call alike and does not touch its socket. -/
theorem terminated_calls {client : Client} (hterminated : client.terminated = true)
    (codec : Codec) :
    (∀ read, pollEvent codec client read = (.error (.error backlogExceeded), client)) ∧
      ∀ command env, request codec client command env =
        (some (.error (.error backlogExceeded)), client) := by
  have hensure : client.ensureActive = .error backlogExceeded := by
    rw [ensureActive, hterminated]
    rfl
  refine ⟨fun read => ?_, fun command env => ?_⟩
  · rw [pollEvent, hensure]
  · rw [request, hensure]

/-- After any calls none of which failed, the queues and the counters are exact: the
stream is what was handed out, what is queued and an unfinished line; notifications
came back once and in order; the next calls do not panic, a request returns the
response with its own id, and only a notification that would not fit ends the
client. -/
theorem calls_exact {codec : Codec} {client : Client} {returned : List Notification}
    (hcalls : Calls codec client returned) :
    (List.Forall₂ (Decodes codec) (Lines.cut newline client.received).1
        (client.handed ++ client.messages) ∧
      total client.handed + total client.messages + client.frames.bytes.length =
        client.received.length) ∧
    (∃ older, older.map Prod.fst = returned ∧
      notesOf client.handed = older ++ client.notifications) ∧
    (client.notificationBytes = total client.notifications ∧
      client.notificationBytes ≤ maxNotificationBacklogBytes ∧
      ∀ note ∈ client.notifications, note.2 ≤ client.notificationBytes) ∧
    (∀ read, (pollEvent codec client read).1 ≠ .error .panic) ∧
    (∀ command env, (request codec client command env).1 ≠ some (.error .panic) ∧
      (∀ result, (request codec client command env).1 = some (.ok result) →
        ∃ bytes, (request codec client command env).2.handed.getLast? =
          some (.response client.nextId result, bytes)) ∧
      ((request codec client command env).2.terminated = true →
        (request codec client command env).1 = some (.error (.error backlogExceeded)) ∧
        (∃ older refused, older.map Prod.fst = returned ∧
          notesOf (request codec client command env).2.handed =
            older ++ (request codec client command env).2.notifications ++ [refused] ∧
          (request codec client command env).2.notificationBytes ≤
            maxNotificationBacklogBytes ∧
          maxNotificationBacklogBytes <
            (request codec client command env).2.notificationBytes + refused.2) ∧
        (∀ read, pollEvent codec (request codec client command env).2 read =
          (.error (.error backlogExceeded), (request codec client command env).2)) ∧
        ∀ other others, request codec (request codec client command env).2 other others =
          (some (.error (.error backlogExceeded)),
            (request codec client command env).2))) := by
  have haccount := calls_account hcalls
  refine ⟨⟨haccount.wired.lines, haccount.wired.total⟩, haccount.notes,
    ⟨haccount.bytes, haccount.limit, fun note hnote => ?_⟩,
    fun read => (pollEvent_account haccount read).1, fun command env =>
      ⟨request_ne_panic haccount command env, fun result hanswered =>
        (haccount.requested hanswered).2, fun hterminated => ?_⟩⟩
  · rw [haccount.bytes]
    exact le_total_of_mem hnote
  · obtain ⟨hresult, hrefused⟩ := haccount.overflow hterminated
    exact ⟨hresult, hrefused, terminated_calls hterminated codec⟩

def pongText : List UInt8 :=
  textBytes "\x7b\"type\":\"response\",\"value\":\x7b\"id\":1,\"result\":\x7b\"type\":\"pong\"\x7d\x7d\x7d"

theorem pongText_short : Short pongText := by
  rw [show pongText = _ from textBytes_ofList _]
  decide

theorem decodes_short {codec : Codec} {line : List UInt8} {message : ServerMessage}
    (hshort : Short line)
    (hread : codec.messages.fromSlice line = .ok message) :
    Decodes codec line (message, line.length + 1) := by
  refine ⟨?_, rfl⟩
  rw [hshort.stripCr, decodeFrame, if_neg (getLast_ne_of_not_mem hshort.1), hshort.stripCr]
  simp only [if_neg (Nat.not_lt.mpr hshort.length_le), hread]

/-- The library on a ping, its reply and a notification. -/
def sampleCodec : Codec where
  requests := .single pingRequest pingText
  messages :=
    { toVec := fun _ => .error "unsupported value"
      fromSlice := fun text =>
        if text = pongText then .ok (.response 1 .pong)
        else if text = unsupportedText then .ok (.notification .unsupported)
        else .error "expected value" }

/-- A wait in which the reply arrives behind a notification. -/
def laterReply : RequestEnv where
  write := none
  timeout := .ok true
  turns := [⟨false, none, .data (Lines.glue newline [unsupportedText, pongText] [])⟩,
    ⟨false, none, .data []⟩]
  restore := none

/-- The client when it has met the notification. -/
def notified : Client :=
  { ({} : Client).begun (pingText ++ [newline]) with
    received := Lines.glue newline [unsupportedText, pongText] []
    messages := [(.response 1 .pong, pongText.length + 1)]
    handed := [(.notification .unsupported, unsupportedText.length + 1)] }

/-- The client with its reply and the notification that it still has to return. -/
def replied : Client :=
  { notified with
    notifications := [(.unsupported, unsupportedText.length + 1)]
    notificationBytes := unsupportedText.length + 1
    messages := []
    handed := [(.notification .unsupported, unsupportedText.length + 1),
      (.response 1 .pong, pongText.length + 1)] }

theorem poll_notified :
    pollMessage sampleCodec (({} : Client).begun (pingText ++ [newline]))
      (.data (Lines.glue newline [unsupportedText, pongText] [])) =
        (.ok (some (.notification .unsupported, unsupportedText.length + 1)), notified) := by
  have hother : unsupportedText ≠ pongText := by
    rw [show unsupportedText = _ from textBytes_ofList _,
      show pongText = _ from textBytes_ofList _]
    decide
  have hplain : ∀ line ∈ [unsupportedText, pongText], newline ∉ line ∧ Fits line := by
    rw [List.forall_mem_cons, List.forall_mem_singleton]
    exact ⟨⟨unsupportedText_short.1, unsupportedText_short.fits⟩,
      pongText_short.1, pongText_short.fits⟩
  have hdecodes : List.Forall₂ (Decodes sampleCodec) [unsupportedText, pongText]
      [(.notification .unsupported, unsupportedText.length + 1),
        (.response 1 .pong, pongText.length + 1)] :=
    .cons (decodes_short unsupportedText_short (by simp [sampleCodec, hother]))
      (.cons (decodes_short pongText_short (by simp [sampleCodec])) .nil)
  exact pollMessage_lines rfl rfl hplain hdecodes
    (glue_short (Nat.le_refl _) (by simp [unsupportedText_short, pongText_short]))

theorem request_laterReply :
    request sampleCodec {} .ping laterReply = (some (.ok .pong), replied) := by
  have hframe : encodeFrame sampleCodec.requests pingRequest = .ok (pingText ++ [newline]) :=
    encodeFrame_eq_ok.mpr ⟨pingText, by simp [sampleCodec, Serde.single],
      pingText_short.length_le, rfl⟩
  have hroom : notified.notificationBytes + (unsupportedText.length + 1) ≤
      maxNotificationBacklogBytes := by
    have hlength := unsupportedText_short.2.2
    rw [maxNotificationBacklogBytes, show notified.notificationBytes = 0 from rfl]
    omega
  have hqueued : notified.queueNotification .unsupported (unsupportedText.length + 1) =
      (.ok (), { notified with
        notifications := [(.unsupported, unsupportedText.length + 1)]
        notificationBytes := notified.notificationBytes + (unsupportedText.length + 1) }) := by
    rw [queueNotification, if_pos hroom]
    rfl
  rw [@request_timely _ {} _ laterReply _ _ rfl hframe rfl rfl rfl, laterReply, readResponse]
  simp only [Bool.and_false, Bool.false_eq_true, if_false, ite_self, poll_notified, hqueued]
  rw [show notified.notificationBytes = 0 from rfl, Nat.zero_add]
  rfl

/-- A ping whose reply waits behind a notification, which a poll then returns. -/
theorem calls_exact_laterReply :
    (request sampleCodec {} .ping laterReply).1 = some (.ok .pong) ∧
      (pollEvent sampleCodec replied (.data [])).1 = .ok (some .unsupported) ∧
      (∃ older, older.map Prod.fst = [] ∧
        notesOf replied.handed = older ++ replied.notifications) ∧
      total replied.handed + total replied.messages + replied.frames.bytes.length =
        replied.received.length ∧
      ∃ older, older.map Prod.fst = [.unsupported] ∧
        notesOf (pollEvent sampleCodec replied (.data [])).2.handed =
          older ++ (pollEvent sampleCodec replied (.data [])).2.notifications := by
  have hreplied : Calls sampleCodec replied [] := by
    have hcalls := @Calls.requested sampleCodec {} [] .ping laterReply .pong .connected
      (congrArg Prod.fst request_laterReply)
    rwa [request_laterReply] at hcalls
  have hpolled : (pollEvent sampleCodec replied (.data [])).1 = .ok (some .unsupported) := rfl
  have hlater : Calls sampleCodec (pollEvent sampleCodec replied (.data [])).2 [.unsupported] :=
    .polled hreplied hpolled
  exact ⟨congrArg Prod.fst request_laterReply, hpolled, (calls_exact hreplied).2.1,
    (calls_exact hreplied).1.2, (calls_exact hlater).2.1⟩

end Client

end Ipc

end Wiiland
