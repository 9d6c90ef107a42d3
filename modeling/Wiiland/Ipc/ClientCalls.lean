/-
What the calls of the blocking client do to its queues.  The messages handed out
and the messages still queued are the lines received so far, decoded in order, and
the deferred notifications are the ones handed out and not yet returned.
-/
import Mathlib.Data.List.Forall2
import Wiiland.Ipc.Client

namespace Wiiland

namespace Ipc

open FrameBuffer

/-- A line and the message it carries, with its length on the wire. -/
def Decodes (codec : Codec) (line : List UInt8) (entry : ServerMessage × Nat) : Prop :=
  decodeFrame codec.messages (stripCr line) = .ok entry.1 ∧ entry.2 = line.length + 1

/-- Every line received is a message, and none is too long. -/
structure WellFormed (codec : Codec) (received : List UInt8) : Prop where
  acceptable : Acceptable received
  decodes : ∀ line ∈ (Lines.cut newline received).1,
    ∃ message, decodeFrame codec.messages (stripCr line) = .ok message

/-- The sum of the lengths on the wire. -/
def total {A : Type} (entries : List (A × Nat)) : Nat :=
  entries.foldr (fun entry sum => entry.2 + sum) 0

theorem total_cons {A : Type} (entry : A × Nat) (entries : List (A × Nat)) :
    total (entry :: entries) = entry.2 + total entries := rfl

theorem total_append {A : Type} (first second : List (A × Nat)) :
    total (first ++ second) = total first + total second := by
  induction first with
  | nil => exact (Nat.zero_add _).symm
  | cons head tail ih =>
      rw [List.cons_append, total_cons, total_cons, ih, Nat.add_assoc]

/-- The notifications among some messages. -/
def notesOf (entries : List (ServerMessage × Nat)) : List (Notification × Nat) :=
  entries.filterMap fun entry =>
    match entry.1 with
    | .notification notification => some (notification, entry.2)
    | _ => none

def asMessages (notes : List (Notification × Nat)) : List (ServerMessage × Nat) :=
  notes.map fun note => (.notification note.1, note.2)

theorem notesOf_append (first second : List (ServerMessage × Nat)) :
    notesOf (first ++ second) = notesOf first ++ notesOf second :=
  List.filterMap_append

theorem notesOf_asMessages (notes : List (Notification × Nat)) :
    notesOf (asMessages notes) = notes := by
  induction notes with
  | nil => rfl
  | cons note notes ih =>
      change note :: notesOf (asMessages notes) = note :: notes
      rw [ih]

namespace Client

/-- The queues of a client are the stream it has received. -/
structure Wired (codec : Codec) (client : Client) : Prop where
  fits : Fits client.frames.bytes
  rest : client.frames.bytes = (Lines.cut newline client.received).2
  lines : List.Forall₂ (Decodes codec) (Lines.cut newline client.received).1
    (client.handed ++ client.messages)

theorem Wired.retained {codec : Codec} {client : Client} (hwired : Wired codec client) :
    Retained client.frames.bytes := by
  refine ⟨?_, hwired.fits⟩
  rw [hwired.rest]
  exact (Lines.not_mem_cut newline client.received).2

/-- Later states of a client: it has deferred some notifications and read on. -/
structure Progress (codec : Codec) (client later : Client)
    (noted : List (Notification × Nat)) : Prop where
  wired : Wired codec later
  notifications : later.notifications = client.notifications ++ noted
  bytes : later.notificationBytes = client.notificationBytes + total noted
  limit : client.notificationBytes ≤ maxNotificationBacklogBytes →
    later.notificationBytes ≤ maxNotificationBacklogBytes
  terminated : later.terminated = client.terminated
  nextId : later.nextId = client.nextId
  written : later.written = client.written
  received : client.received <+: later.received

theorem Progress.refl {codec : Codec} {client : Client} (hwired : Wired codec client) :
    Progress codec client client [] where
  wired := hwired
  notifications := (List.append_nil _).symm
  bytes := rfl
  limit := id
  terminated := rfl
  nextId := rfl
  written := rfl
  received := List.prefix_refl _

theorem Progress.trans {codec : Codec} {client middle later : Client}
    {first second : List (Notification × Nat)} (hfirst : Progress codec client middle first)
    (hsecond : Progress codec middle later second) :
    Progress codec client later (first ++ second) where
  wired := hsecond.wired
  notifications := by
    rw [hsecond.notifications, hfirst.notifications, List.append_assoc]
  bytes := by rw [hsecond.bytes, hfirst.bytes, total_append, Nat.add_assoc]
  limit := fun hlimit => hsecond.limit (hfirst.limit hlimit)
  terminated := hsecond.terminated.trans hfirst.terminated
  nextId := hsecond.nextId.trans hfirst.nextId
  written := hsecond.written.trans hfirst.written
  received := hfirst.received.trans hsecond.received

/-- What one poll can do. -/
inductive Polled (codec : Codec) (client : Client) (read : Read) :
    Except Stop (Option (ServerMessage × Nat)) → Client → Prop
  | took {later : Client} (entry : Option (ServerMessage × Nat))
      (progress : Progress codec client later [])
      (handed : later.handed = client.handed ++ entry.toList)
      (empty : entry = none → later.messages = []) : Polled codec client read (.ok entry) later
  | failed {kind : IoErrorKind} (cause : read = .failed kind) :
      Polled codec client read (.error (.error (mapStreamIoError kind))) client
  | ended (cause : read = .data []) :
      Polled codec client read (.error (.error .prematureEof)) client
  | malformed {later : Client} (error : ProtocolError)
      (received : client.received <+: later.received)
      (terminated : later.terminated = client.terminated)
      (refused : ¬WellFormed codec later.received) :
      Polled codec client read (.error (.error (.frame error))) later

/-- The pieces of a read that end the frames, the first of which had begun before. -/
def Covers : Nat → List (List UInt8) → List (List UInt8) → Prop
  | _, [], _ => True
  | _, _ :: _, [] => False
  | buffered, line :: lines, chunk :: chunks =>
      line.length + 1 = buffered + chunk.length ∧ Covers 0 lines chunks

theorem covers_split (lines rest : List (List UInt8)) :
    Covers 0 lines (lines.map (· ++ [newline]) ++ rest) := by
  induction lines with
  | nil => trivial
  | cons line lines ih => exact ⟨by simp, ih⟩

/-- The pieces of a read end the lines that the read completes. -/
theorem covers_carry {carried : List UInt8} (hcarried : newline ∉ carried)
    (chunk : List UInt8) :
    Covers carried.length (Lines.cut newline (carried ++ chunk)).1
      (Lines.splitInclusive newline chunk) := by
  rw [Lines.cut_carry hcarried, Lines.splitInclusive]
  cases (Lines.cut newline chunk).1 with
  | nil => trivial
  | cons line lines =>
      refine ⟨?_, covers_split lines _⟩
      simp only [List.length_append, List.length_singleton]
      omega

/-- Decoding the frames of a read queues their messages, or one does not decode. -/
theorem collect_cases {codec : Codec} {lines chunks : List (List UInt8)} {buffered : Nat}
    (hcovers : Covers buffered lines chunks) (client : Client) :
    (∃ entries, List.Forall₂ (Decodes codec) lines entries ∧
      collect codec (lines.map stripCr) chunks buffered client =
        (.ok (), { client with messages := client.messages ++ entries })) ∨
    ∃ error messages, (∃ line ∈ lines, ∀ message,
        decodeFrame codec.messages (stripCr line) ≠ .ok message) ∧
      collect codec (lines.map stripCr) chunks buffered client =
        (.error (.error (.frame error)), { client with messages := messages }) := by
  induction lines generalizing chunks buffered client with
  | nil => exact Or.inl ⟨[], .nil, by rw [List.append_nil]; rfl⟩
  | cons line lines ih =>
      cases chunks with
      | nil => exact hcovers.elim
      | cons chunk chunks =>
          obtain ⟨hlength, hcovers⟩ := hcovers
          rw [List.map_cons]
          cases hdecode : decodeFrame codec.messages (stripCr line) with
          | error error =>
              refine Or.inr ⟨error, client.messages, ⟨line, List.mem_cons_self, ?_⟩, ?_⟩
              · intro message hmessage
                rw [hdecode] at hmessage
                cases hmessage
              · rw [collect, hdecode]
          | ok message =>
              rcases ih hcovers { client with
                  messages := client.messages ++ [(message, buffered + chunk.length)] } with
                ⟨entries, hentries, hcollect⟩ | ⟨error, messages, ⟨other, hother, hbad⟩, hcollect⟩
              · refine Or.inl ⟨(message, buffered + chunk.length) :: entries,
                  .cons ⟨hdecode, hlength.symm⟩ hentries, ?_⟩
                rw [collect, hdecode]
                simp only
                rw [hcollect]
                simp
              · refine Or.inr ⟨error, messages,
                  ⟨other, List.mem_cons_of_mem _ hother, hbad⟩, ?_⟩
                rw [collect, hdecode]
                exact hcollect

theorem popMessage_spec (client : Client) :
    let popped := client.popMessage
    popped.2.handed ++ popped.2.messages = client.handed ++ client.messages ∧
      popped.2.handed = client.handed ++ popped.1.toList ∧
      (popped.1 = none → popped.2.messages = []) := by
  unfold popMessage
  cases hmessages : client.messages with
  | nil => simp [hmessages]
  | cons message rest => simp

/-- Popping keeps everything but the two ends of the message queue. -/
theorem popMessage_progress {codec : Codec} {client : Client} (hwired : Wired codec client) :
    Progress codec client client.popMessage.2 [] := by
  have hspec := client.popMessage_spec
  have hlines := hspec.1 ▸ hwired.lines
  unfold popMessage at hlines ⊢
  cases hmessages : client.messages with
  | nil => exact .refl hwired
  | cons message rest =>
      simp only [hmessages] at hlines
      exact ⟨⟨hwired.fits, hwired.rest, hlines⟩, (List.append_nil _).symm, rfl, id, rfl, rfl,
        rfl, List.prefix_refl _⟩

/-- A read queues the messages of the lines it completes, or the stream is not one
of messages. -/
theorem receive_cases {codec : Codec} {client : Client} (hwired : Wired codec client)
    (hempty : client.messages = []) (chunk : List UInt8) :
    (∃ later, receive codec client chunk = (.ok (), later) ∧
      Progress codec client later [] ∧ later.handed = client.handed) ∨
    ∃ error later, receive codec client chunk = (.error (.error (.frame error)), later) ∧
      client.received <+: later.received ∧ later.terminated = client.terminated ∧
      ¬WellFormed codec later.received := by
  have hcut : Lines.cut newline (client.received ++ chunk) = _ :=
    Lines.cut_append client.received chunk
  rw [← hwired.rest] at hcut
  have hpre := List.prefix_append client.received chunk
  unfold receive
  rcases push_spec hwired.retained chunk with
    ⟨haccept, hpush⟩ | ⟨hrefuse, size, kept, _, _, hpush⟩
  · rw [hpush]
    simp only
    rcases @collect_cases codec _ _ _ (covers_carry hwired.retained.unfinished chunk)
        { client with
          frames := ⟨(Lines.cut newline (client.frames.bytes ++ chunk)).2⟩
          received := client.received ++ chunk } with
      ⟨entries, hentries, hcollect⟩ | ⟨error, messages, ⟨line, hline, hbad⟩, hcollect⟩
    · refine Or.inl ⟨_, hcollect, ⟨⟨?_, ?_, ?_⟩, (List.append_nil _).symm, rfl, id, rfl, rfl,
        rfl, hpre⟩, rfl⟩
      · exact haccept.2
      · rw [hcut]
      · simp only [hcut, hempty, List.nil_append]
        have hlines := hwired.lines
        rw [hempty, List.append_nil] at hlines
        exact List.rel_append hlines hentries
    · refine Or.inr ⟨error, _, hcollect, hpre, rfl, fun hformed => ?_⟩
      obtain ⟨message, hmessage⟩ := hformed.decodes line (by
        rw [hcut]
        exact List.mem_append_right _ hline)
      exact hbad message hmessage
  · rw [hpush]
    refine Or.inr ⟨.frameTooLarge size, _, rfl, hpre, rfl, fun hformed => hrefuse ?_⟩
    have haccept := (acceptable_append client.received chunk).mp hformed.acceptable
    rw [hwired.rest]
    exact haccept.2

theorem pollMessage_cases {codec : Codec} {client : Client} (hwired : Wired codec client)
    (read : Read) :
    Polled codec client read (pollMessage codec client read).1
      (pollMessage codec client read).2 := by
  unfold pollMessage
  cases hmessages : client.messages with
  | cons message rest =>
      have hspec := client.popMessage_spec
      exact .took _ (popMessage_progress hwired) hspec.2.1 hspec.2.2
  | nil =>
      cases read with
      | failed kind => exact .failed rfl
      | data bytes =>
          simp only
          by_cases hend : bytes.take readSize = []
          · rw [if_pos hend]
            rcases List.take_eq_nil_iff.mp hend with hsize | rfl
            · cases hsize
            · exact .ended rfl
          · rw [if_neg hend]
            rcases receive_cases hwired hmessages (bytes.take readSize) with
              ⟨later, hreceive, hprogress, hhanded⟩ | ⟨error, later, hreceive, hmore, hsame, hbad⟩
            · rw [hreceive]
              have hspec := later.popMessage_spec
              refine .took _ (hprogress.trans (popMessage_progress hprogress.wired)) ?_
                hspec.2.2
              rw [hspec.2.1, hhanded]
            · rw [hreceive]
              exact .malformed error hmore hsame hbad

theorem decodes_rightUnique (codec : Codec) : Relator.RightUnique (Decodes codec) := by
  intro line first second hfirst hsecond
  refine Prod.ext ?_ (hfirst.2.trans hsecond.2.symm)
  exact Except.ok.inj (hfirst.1.symm.trans hsecond.1)

theorem decodes_of_mem {codec : Codec} {lines : List (List UInt8)}
    {entries : List (ServerMessage × Nat)} (hlines : List.Forall₂ (Decodes codec) lines entries) :
    ∀ line ∈ lines, ∃ message, decodeFrame codec.messages (stripCr line) = .ok message := by
  induction hlines with
  | nil => simp
  | @cons line entry lines entries hhead _ ih =>
      rw [List.forall_mem_cons]
      exact ⟨⟨entry.1, hhead.1⟩, ih⟩

/-- A read of whole lines hands out the first message and queues the others. -/
theorem pollMessage_lines {codec : Codec} {client : Client} (hframes : client.frames = {})
    (hmessages : client.messages = []) {lines : List (List UInt8)}
    {entry : ServerMessage × Nat} {entries : List (ServerMessage × Nat)}
    (hplain : ∀ line ∈ lines, newline ∉ line ∧ Fits line)
    (hlines : List.Forall₂ (Decodes codec) lines (entry :: entries))
    (hsize : (Lines.glue newline lines []).length ≤ readSize) :
    pollMessage codec client (.data (Lines.glue newline lines [])) =
      (.ok (some entry), { client with
        received := client.received ++ Lines.glue newline lines []
        messages := entries
        handed := client.handed ++ [entry] }) := by
  have hchunk := List.take_of_length_le hsize
  have hcut := Lines.cut_glue (fun line hline => (hplain line hline).1)
    (List.not_mem_nil (a := newline))
  have hnonempty : Lines.glue newline lines [] ≠ [] := by
    cases hlines
    simp [Lines.glue]
  have hcovers := covers_carry (List.not_mem_nil (a := newline))
    (Lines.glue newline lines [])
  rw [List.nil_append, hcut] at hcovers
  rw [pollMessage, hmessages]
  simp only
  rw [hchunk, if_neg hnonempty, receive, hframes, push_lines hplain]
  rcases collect_cases hcovers { client with
      frames := {}, received := client.received ++ Lines.glue newline lines [] } with
    ⟨others, hothers, hcollect⟩ | ⟨_, _, ⟨line, hline, hbad⟩, _⟩
  · obtain rfl := List.right_unique_forall₂' (decodes_rightUnique codec) hothers hlines
    simp only [hmessages, List.length_nil] at hcollect ⊢
    rw [hcollect]
    rfl
  · obtain ⟨message, hmessage⟩ := decodes_of_mem hlines line hline
    exact absurd hmessage (hbad message)

theorem queueNotification_cases {codec : Codec} {client : Client}
    (hwired : Wired codec client) (notification : Notification) (frameBytes : Nat) :
    (∃ later, client.queueNotification notification frameBytes = (.ok (), later) ∧
      Progress codec client later [(notification, frameBytes)] ∧
      later.handed = client.handed) ∨
    client.queueNotification notification frameBytes =
        (.error backlogExceeded, { client with terminated := true }) ∧
      maxNotificationBacklogBytes < client.notificationBytes + frameBytes := by
  unfold queueNotification
  by_cases hfits : client.notificationBytes + frameBytes ≤ maxNotificationBacklogBytes
  · exact Or.inl ⟨_, if_pos hfits, ⟨⟨hwired.fits, hwired.rest, hwired.lines⟩, rfl, rfl,
      fun _ => hfits, rfl, rfl, rfl, List.prefix_refl _⟩, rfl⟩
  · exact Or.inr ⟨if_neg hfits, Nat.lt_of_not_le hfits⟩

/-- The errors of the stream itself, after which the client is as it was. -/
def StreamError (error : ClientError) : Prop :=
  error = .prematureEof ∨ ∃ kind, error = .io kind

theorem streamError_map (kind : IoErrorKind) : StreamError (mapStreamIoError kind) := by
  cases kind with
  | brokenPipe | connectionReset | unexpectedEof => exact Or.inl rfl
  | timedOut | wouldBlock | other => exact Or.inr ⟨_, rfl⟩

theorem ensureActive_ok {client : Client} (hactive : client.terminated = false) :
    client.ensureActive = .ok () := by
  rw [ensureActive, hactive]
  rfl

/-- What a poll for an event comes to, on a client that is not terminated. -/
inductive PolledEvent (codec : Codec) (client : Client) :
    Except Stop (Option Notification) → Client → Prop
  | queued {note : Notification × Nat} {rest : List (Notification × Nat)}
      (queue : client.notifications = note :: rest) :
      PolledEvent codec client (.ok (some note.1)) { client with
        notifications := rest
        notificationBytes := client.notificationBytes - note.2 }
  | quiet {later : Client} (progress : Progress codec client later [])
      (handed : later.handed = client.handed) : PolledEvent codec client (.ok none) later
  | notified {later : Client} {notification : Notification} {bytes : Nat}
      (queue : client.notifications = []) (progress : Progress codec client later [])
      (handed : later.handed = client.handed ++ [(.notification notification, bytes)]) :
      PolledEvent codec client (.ok (some notification)) later
  | unexpected {later : Client} {message : ServerMessage} {bytes : Nat} {error : ClientError}
      (reply : ∀ notification, message ≠ .notification notification)
      (progress : Progress codec client later [])
      (handed : later.handed = client.handed ++ [(message, bytes)]) :
      PolledEvent codec client (.error (.error error)) later
  | stopped {error : ClientError} (cause : StreamError error) :
      PolledEvent codec client (.error (.error error)) client
  | malformed {later : Client} (error : ProtocolError)
      (refused : ¬WellFormed codec later.received) :
      PolledEvent codec client (.error (.error (.frame error))) later

theorem pollEvent_cases {codec : Codec} {client : Client} (hwired : Wired codec client)
    (hactive : client.terminated = false) (read : Read) :
    PolledEvent codec client (pollEvent codec client read).1 (pollEvent codec client read).2 := by
  rw [pollEvent, ensureActive_ok hactive]
  simp only
  cases hqueue : client.notifications with
  | cons note rest => exact .queued hqueue
  | nil =>
      have hpolled := pollMessage_cases hwired read
      generalize pollMessage codec client read = polled at hpolled ⊢
      obtain ⟨outcome, later⟩ := polled
      cases hpolled with
      | failed _ => exact .stopped (streamError_map _)
      | ended _ => exact .stopped (.inl rfl)
      | malformed error _ _ hrefused => exact .malformed error hrefused
      | took entry hprogress hhanded _ =>
          cases entry with
          | none => exact .quiet hprogress (hhanded.trans (List.append_nil _))
          | some entry =>
              obtain ⟨message, bytes⟩ := entry
              cases message with
              | notification notification => exact .notified hqueue hprogress hhanded
              | response id result =>
                  exact .unexpected (fun _ hsame => by cases hsame) hprogress hhanded
              | error id error =>
                  exact .unexpected (fun _ hsame => by cases hsame) hprogress hhanded

/-- A turn before the deadline whose read, if one is made, gives data. -/
structure OnTime (turn : Turn) : Prop where
  early : turn.expired = false
  settable : turn.setTimeout = none
  delivers : ∃ bytes, bytes ≠ [] ∧ turn.read = .data bytes

/-- What awaiting the reply `id` can do: defer notifications, and then end. -/
inductive Awaited (codec : Codec) (id : UInt64) (client : Client) (turns : List Turn) :
    Option (Except Stop ResponseResult) → Client → Prop
  | waiting {noted : List (Notification × Nat)} {later : Client}
      (progress : Progress codec client later noted)
      (handed : later.handed = client.handed ++ asMessages noted) :
      Awaited codec id client turns none later
  | stopped {noted : List (Notification × Nat)} {later : Client} {error : ClientError}
      (progress : Progress codec client later noted)
      (handed : later.handed = client.handed ++ asMessages noted)
      (stream : StreamError error) (cause : ∃ turn ∈ turns, ¬OnTime turn) :
      Awaited codec id client turns (some (.error (.error error))) later
  | answered {noted : List (Notification × Nat)} {later : Client} {result : ResponseResult}
      {bytes : Nat} (progress : Progress codec client later noted)
      (handed : later.handed =
        client.handed ++ asMessages noted ++ [(.response id result, bytes)]) :
      Awaited codec id client turns (some (.ok result)) later
  | mismatched {noted : List (Notification × Nat)} {later : Client} {actual : UInt64}
      {result : ResponseResult} {bytes : Nat} (progress : Progress codec client later noted)
      (handed : later.handed =
        client.handed ++ asMessages noted ++ [(.response actual result, bytes)])
      (other : actual ≠ id) :
      Awaited codec id client turns (some (.error (.error (.unexpectedResponseId id actual)))) later
  | refused {noted : List (Notification × Nat)} {later : Client} {errorId : Option UInt64}
      {error : ProtocolError} {bytes : Nat} (progress : Progress codec client later noted)
      (handed : later.handed =
        client.handed ++ asMessages noted ++ [(.error errorId error, bytes)]) :
      Awaited codec id client turns (some (.error (.error (errorReply id errorId error)))) later
  | overflow {noted : List (Notification × Nat)} {later : Client}
      {notification : Notification} {bytes : Nat}
      (progress : Progress codec client later noted)
      (handed : later.handed =
        client.handed ++ asMessages noted ++ [(.notification notification, bytes)])
      (exceeds : maxNotificationBacklogBytes < later.notificationBytes + bytes) :
      Awaited codec id client turns (some (.error (.error backlogExceeded)))
        { later with terminated := true }
  | malformed {later : Client} (error : ProtocolError)
      (received : client.received <+: later.received)
      (terminated : later.terminated = client.terminated)
      (refused : ¬WellFormed codec later.received) :
      Awaited codec id client turns (some (.error (.error (.frame error)))) later

/-- Awaiting on after a turn that deferred some notifications. -/
theorem Awaited.after {codec : Codec} {id : UInt64} {client middle later : Client}
    {turn : Turn} {turns : List Turn}
    {first : List (Notification × Nat)} {outcome : Option (Except Stop ResponseResult)}
    (hfirst : Progress codec client middle first)
    (hhanded : middle.handed = client.handed ++ asMessages first)
    (hawaited : Awaited codec id middle turns outcome later) :
    Awaited codec id client (turn :: turns) outcome later := by
  have hjoin : ∀ noted, middle.handed ++ asMessages noted =
      client.handed ++ asMessages (first ++ noted) := by
    intro noted
    rw [hhanded, asMessages, asMessages, asMessages, List.map_append, List.append_assoc]
  cases hawaited with
  | waiting hprogress hlater =>
      exact .waiting (hfirst.trans hprogress) (hlater.trans (hjoin _))
  | stopped hprogress hlater hstream hcause =>
      obtain ⟨late, hlate, hnot⟩ := hcause
      exact .stopped (hfirst.trans hprogress) (hlater.trans (hjoin _)) hstream
        ⟨late, List.mem_cons_of_mem _ hlate, hnot⟩
  | answered hprogress hlater =>
      exact .answered (hfirst.trans hprogress) (by rw [hlater, hjoin])
  | mismatched hprogress hlater hother =>
      exact .mismatched (hfirst.trans hprogress) (by rw [hlater, hjoin]) hother
  | refused hprogress hlater =>
      exact .refused (hfirst.trans hprogress) (by rw [hlater, hjoin])
  | overflow hprogress hlater hexceeds =>
      exact .overflow (hfirst.trans hprogress) (by rw [hlater, hjoin]) hexceeds
  | malformed error hmore hsame hbad =>
      exact .malformed error (hfirst.received.trans hmore)
        (hsame.trans hfirst.terminated) hbad

/-- Awaiting a reply over some turns is awaiting it over each of them. -/
theorem readResponse_turns (codec : Codec) (id : UInt64) (timed : Bool)
    (first second : List Turn) (client : Client) :
    readResponse codec id timed (first ++ second) client =
      match readResponse codec id timed first client with
      | (none, later) => readResponse codec id timed second later
      | (some outcome, later) => (some outcome, later) := by
  induction first generalizing client with
  | nil => rfl
  | cons turn first ih =>
      simp only [List.cons_append, readResponse]
      split
      · rfl
      · split
        · rfl
        · generalize pollMessage codec client turn.read = polled
          obtain ⟨outcome, later⟩ := polled
          cases outcome with
          | error stop => rfl
          | ok entry =>
              cases entry with
              | none => exact ih later
              | some entry =>
                  obtain ⟨message, bytes⟩ := entry
                  cases message with
                  | notification notification =>
                      simp only
                      split
                      · rfl
                      · exact ih _
                  | response other result =>
                      simp only
                      split <;> rfl
                  | error other error => rfl

theorem readResponse_cases {codec : Codec} {client : Client} (hwired : Wired codec client)
    (id : UInt64) (timed : Bool) (turns : List Turn) :
    Awaited codec id client turns (readResponse codec id timed turns client).1
      (readResponse codec id timed turns client).2 := by
  have hstay : client.handed = client.handed ++ asMessages [] := (List.append_nil _).symm
  induction turns generalizing client with
  | nil => exact .waiting (.refl hwired) hstay
  | cons turn turns ih =>
      rw [readResponse]
      by_cases hexpired : (timed && turn.expired) = true
      · rw [if_pos hexpired]
        refine .stopped (.refl hwired) hstay (Or.inr ⟨_, rfl⟩)
          ⟨turn, List.mem_cons_self, fun honTime => ?_⟩
        rw [honTime.early, Bool.and_false] at hexpired
        cases hexpired
      · rw [if_neg hexpired]
        split
        · next kind hset =>
          refine .stopped (.refl hwired) hstay (Or.inr ⟨_, rfl⟩)
            ⟨turn, List.mem_cons_self, fun honTime => ?_⟩
          rw [honTime.settable, ite_self] at hset
          cases hset
        · next =>
          have hpolled := pollMessage_cases hwired turn.read
          rcases hpoll : pollMessage codec client turn.read with ⟨polled, later⟩
          rw [hpoll] at hpolled
          cases hpolled with
          | @failed kind hread =>
              refine .stopped (.refl hwired) hstay (streamError_map kind)
                ⟨turn, List.mem_cons_self, fun honTime => ?_⟩
              obtain ⟨bytes, _, hdata⟩ := honTime.delivers
              rw [hread] at hdata
              cases hdata
          | ended hread =>
              refine .stopped (.refl hwired) hstay (Or.inl rfl)
                ⟨turn, List.mem_cons_self, fun honTime => ?_⟩
              obtain ⟨bytes, hbytes, hdata⟩ := honTime.delivers
              rw [hread] at hdata
              exact hbytes (Read.data.inj hdata).symm
          | malformed error hmore hsame hbad => exact .malformed error hmore hsame hbad
          | took entry hprogress hhanded _ =>
              cases entry with
              | none =>
                  simp only
                  exact .after hprogress hhanded (ih hprogress.wired (List.append_nil _).symm)
              | some entry =>
                  obtain ⟨message, bytes⟩ := entry
                  rw [Option.toList_some] at hhanded
                  have hlast : later.handed =
                      client.handed ++ asMessages [] ++ [(message, bytes)] := by
                    rw [hhanded, ← hstay]
                  cases message with
                  | notification notification =>
                      simp only
                      rcases queueNotification_cases hprogress.wired notification bytes with
                        ⟨queued, hqueued, hqueue, hsame⟩ | ⟨hqueued, hexceeds⟩
                      · rw [hqueued]
                        simp only
                        refine .after (hprogress.trans hqueue) ?_
                          (ih hqueue.wired (List.append_nil _).symm)
                        rw [hsame, hhanded]
                        rfl
                      · rw [hqueued]
                        exact .overflow hprogress hlast hexceeds
                  | response responseId result =>
                      simp only
                      by_cases hid : responseId ≠ id
                      · rw [if_pos hid]
                        exact .mismatched hprogress hlast hid
                      · rw [if_neg hid]
                        rw [not_not] at hid
                        rw [hid] at hlast
                        exact .answered hprogress hlast
                  | error errorId error => exact .refused hprogress hlast

theorem Wired.congr {codec : Codec} {client other : Client} (hwired : Wired codec client)
    (hframes : other.frames = client.frames) (hreceived : other.received = client.received)
    (hhanded : other.handed = client.handed) (hmessages : other.messages = client.messages) :
    Wired codec other where
  fits := hframes ▸ hwired.fits
  rest := by rw [hframes, hreceived, hwired.rest]
  lines := by rw [hreceived, hhanded, hmessages]; exact hwired.lines

/-- A client that has taken an id and sent some bytes for it. -/
def begun (client : Client) (sent : List UInt8) : Client :=
  { client.allocateId.2 with written := client.written ++ sent }

theorem Wired.begun {codec : Codec} {client : Client} (hwired : Wired codec client)
    (sent : List UInt8) : Wired codec (client.begun sent) :=
  hwired.congr rfl rfl rfl rfl

/-- A request ends before it waits, or it waits; a reply is lost when the timeout
cannot be restored. -/
theorem request_cases {client : Client} (hactive : client.terminated = false)
    (codec : Codec) (command : Command) (env : RequestEnv) :
    (∃ error sent, (StreamError error ∨ ∃ frame, error = .frame frame) ∧
      request codec client command env =
        (some (.error (.error error)), client.begun sent)) ∨
    ∃ frame timed, encodeFrame codec.requests ⟨client.nextId, command⟩ = .ok frame ∧
      env.write = none ∧ env.timeout = .ok timed ∧
      (request codec client command env).2 =
        (readResponse codec client.nextId timed env.turns (client.begun frame)).2 ∧
      ((request codec client command env).1 =
          (readResponse codec client.nextId timed env.turns (client.begun frame)).1 ∨
        ∃ result kind, env.restore = some kind ∧
          (readResponse codec client.nextId timed env.turns (client.begun frame)).1 =
            some (.ok result) ∧
          (request codec client command env).1 = some (.error (.error (.io kind)))) := by
  have hensure := ensureActive_ok hactive
  have hnone : client.begun [] = client.allocateId.2 := by
    rw [begun, List.append_nil]
    rfl
  unfold request
  rw [hensure]
  simp only
  cases hframe : encodeFrame codec.requests ⟨client.allocateId.1, command⟩ with
  | error error => exact Or.inl ⟨_, [], Or.inr ⟨error, rfl⟩, by rw [hnone]⟩
  | ok frame =>
      simp only
      cases hwrite : env.write with
      | some failure =>
          exact Or.inl ⟨_, frame.take failure.2, Or.inl (streamError_map failure.1), rfl⟩
      | none =>
          simp only
          cases htimeout : env.timeout with
          | error kind => exact Or.inl ⟨_, frame, Or.inl (Or.inr ⟨kind, rfl⟩), rfl⟩
          | ok timed =>
              simp only
              refine Or.inr ⟨frame, timed, hframe, trivial, rfl, ?_, ?_⟩
              · split <;> rfl
              · split
                · next result kind hresult hrestore =>
                    exact Or.inr ⟨result, kind, hrestore, hresult, rfl⟩
                · exact Or.inl rfl

/-- Waiting for a reply only adds to what is read. -/
theorem Awaited.reads {codec : Codec} {id : UInt64} {client later : Client}
    {turns : List Turn} {outcome : Option (Except Stop ResponseResult)}
    (hawaited : Awaited codec id client turns outcome later) :
    client.received <+: later.received := by
  cases hawaited with
  | waiting hprogress _ => exact hprogress.received
  | stopped hprogress _ _ _ => exact hprogress.received
  | answered hprogress _ => exact hprogress.received
  | mismatched hprogress _ _ => exact hprogress.received
  | refused hprogress _ => exact hprogress.received
  | overflow hprogress _ _ => exact hprogress.received
  | malformed _ hmore _ _ => exact hmore

/-- A request that is sent and whose timeout can be restored is its wait. -/
theorem request_timely {codec : Codec} {client : Client} {command : Command}
    {env : RequestEnv} {frame : List UInt8} {timed : Bool}
    (hactive : client.terminated = false)
    (hframe : encodeFrame codec.requests ⟨client.nextId, command⟩ = .ok frame)
    (hsent : env.write = none) (htimeout : env.timeout = .ok timed)
    (hrestored : env.restore = none) :
    request codec client command env =
      readResponse codec client.nextId timed env.turns (client.begun frame) := by
  have hensure := ensureActive_ok hactive
  have hencode : encodeFrame codec.requests ⟨client.allocateId.1, command⟩ = .ok frame := hframe
  unfold request
  rw [hensure]
  simp only [hencode, hsent, htimeout, hrestored]
  split
  · next hnone => cases hnone
  · rfl

end Client

end Ipc

end Wiiland
