/-
The output queue of a connection.  Every act keeps the account of what is queued, and
what the socket took is a front part of what was meant for the connection.
-/
import Wiiland.Daemon.Exchange

namespace Wiiland

namespace Daemon

open Ipc

/-- The bytes of an output queue that are not written yet. -/
def unwritten : List Pending → List UInt8
  | [] => []
  | entry :: rest => entry.bytes.drop entry.offset ++ unwritten rest

/-- The sum over an output queue of what is left of each entry. -/
def backlog : List Pending → Nat
  | [] => 0
  | entry :: rest => entry.bytes.length - entry.offset + backlog rest

theorem unwritten_append (output : List Pending) (bytes : List UInt8) :
    unwritten (output ++ [⟨bytes, 0⟩]) = unwritten output ++ bytes := by
  induction output with
  | nil => exact List.append_nil bytes
  | cons entry output ih => rw [List.cons_append, unwritten, unwritten, ih, List.append_assoc]

theorem backlog_append (output : List Pending) (bytes : List UInt8) :
    backlog (output ++ [⟨bytes, 0⟩]) = backlog output + bytes.length := by
  induction output with
  | nil => exact Nat.add_comm bytes.length 0
  | cons entry output ih => rw [List.cons_append, backlog, backlog, ih, Nat.add_assoc]

theorem unwritten_advance (front : Pending) (rest : List Pending) (count : Nat) :
    unwritten (front :: rest) =
      (front.bytes.drop front.offset).take count ++
        unwritten (Client.advance front rest count) := by
  have hcut := List.take_append_drop count (front.bytes.drop front.offset)
  rw [unwritten, Client.advance]
  split
  · next hwhole =>
    have hdrop : (front.bytes.drop front.offset).drop count = [] := by
      rw [List.drop_drop, hwhole, List.drop_length]
    rw [hdrop, List.append_nil] at hcut
    rw [hcut]
  · rw [unwritten, ← List.append_assoc, ← List.drop_drop, hcut]

theorem backlog_advance {front : Pending} {rest : List Pending} {count : Nat}
    (hfits : count ≤ front.bytes.length - front.offset) :
    backlog (Client.advance front rest count) = backlog (front :: rest) - count := by
  rw [backlog, Client.advance]
  split
  · next hwhole => omega
  · rw [backlog]
    change front.bytes.length - (front.offset + count) + backlog rest = _
    omega

namespace Client

/-- The messages meant for a connection, one after the other. -/
def meant (client : Client) : List UInt8 := client.history.flatMap Prod.snd

/-- The account of the output queue.  A connection that is not given up has everything
that was meant for it either written or queued. -/
structure Accounted (codec : Codec) (client : Client) : Prop where
  queuedBytes : client.queuedBytes = backlog client.output
  bounded : client.queuedBytes ≤ maxQueuedBytes
  exact : client.saturated = false
  begun : ∀ entry ∈ client.output, entry.offset < entry.bytes.length
  encoded : ∀ entry ∈ client.history, encodeFrame codec.messages entry.1 = .ok entry.2
  written : client.stream.written <+: client.meant
  whole : client.immediateClose = false →
    client.stream.written ++ unwritten client.output = client.meant

variable {codec : Codec} {client later : Client}

theorem accounted_new (reads : List ReadAnswer) (writes : List WriteAnswer) :
    Accounted codec (.new { reads, writes }) where
  queuedBytes := rfl
  bounded := Nat.zero_le _
  exact := rfl
  begun _ hentry := (List.not_mem_nil hentry).elim
  encoded _ hentry := (List.not_mem_nil hentry).elim
  written := List.nil_prefix
  whole _ := rfl

/-- Everything that was meant for a connection that is not given up is written or queued. -/
def Whole (client : Client) : Prop :=
  client.immediateClose = false →
    client.stream.written ++ unwritten client.output = client.meant

theorem Whole.congr (hwhole : client.Whole)
    (hwritten : later.stream.written = client.stream.written)
    (houtput : later.output = client.output) (hhistory : later.history = client.history)
    (hclose : later.immediateClose = false → client.immediateClose = false) : later.Whole := by
  intro hlater
  rw [hwritten, houtput, meant, hhistory]
  exact hwhole (hclose hlater)

theorem Whole.send (hwhole : client.Whole) (message : ServerMessage) (bytes : List UInt8) :
    (client.send message bytes).Whole := by
  rw [Client.send, queueEncoded]
  split
  · exact fun hkept => Bool.noConfusion hkept
  · intro hkept
    rw [meant, List.flatMap_append, List.flatMap_singleton, unwritten_append,
      ← List.append_assoc]
    exact congrArg (· ++ bytes) (hwhole hkept)

theorem Whole.write (hwhole : client.Whole) {front : Pending} {rest : List Pending}
    {count queuedBytes : Nat} {stream : UnixStream} {saturated : Bool}
    (houtput : client.output = front :: rest)
    (hwritten : stream.written =
      client.stream.written ++ (front.bytes.drop front.offset).take count) :
    Whole { client with
      stream, queuedBytes, saturated, output := advance front rest count } := by
  intro hkept
  have hbefore := hwhole hkept
  rwa [houtput, unwritten_advance, ← List.append_assoc, ← hwritten] at hbefore

theorem Whole.replies {id : Option UInt64} (hreply : Replies codec id client later)
    (hwhole : client.Whole) : later.Whole := by
  cases hreply with
  | sent message bytes _ _ => exact hwhole.send message bytes
  | lost => exact fun hkept => Bool.noConfusion hkept

theorem Whole.handles (hwhole : client.Whole) {id : Option UInt64}
    (hhandles : Handles codec client id later) : later.Whole := by
  have hhandling : (client.handling id).Whole := hwhole.congr rfl rfl rfl fun hkept => hkept
  cases hhandles with
  | undecoded hreply => exact hhandling.replies hreply
  | accepted id _ hreply => exact .replies hreply (hhandling.congr rfl rfl rfl fun hkept => hkept)
  | refused id _ hreply => exact (hhandling.replies hreply).congr rfl rfl rfl fun hkept => hkept
  | answered id input devices _ hreply =>
      exact .replies hreply (hhandling.congr rfl rfl rfl fun hkept => hkept)
  | overrun id _ => exact fun hkept => Bool.noConfusion hkept
  | deferred id command _ => exact hhandling.congr rfl rfl rfl fun hkept => hkept

theorem Whole.act {allowed : Completions} (hact : Act codec allowed client later)
    (hwhole : client.Whole) : later.Whole := by
  cases hact with
  | receive stream frames pendingFrames hwritten =>
      exact hwhole.congr hwritten rfl rfl fun hkept => hkept
  | handle status devices frame _ => exact hwhole.handles (handles_handleFrame frame)
  | refuse error _ =>
      exact .replies (replies_refuse error) (hwhole.congr rfl rfl rfl fun hkept => hkept)
  | write front rest count stream houtput _ _ hwritten _ => exact hwhole.write houtput hwritten
  | lose stream hwritten => exact hwhole.congr hwritten rfl rfl fun hkept => hkept
  | take =>
      rw [takeCommands]
      split
      · exact hwhole.congr rfl rfl rfl fun hkept => hkept
      · exact hwhole
  | complete id result _ =>
      obtain ⟨capture, hreply⟩ := @replies_complete codec client id result
      exact .replies hreply (hwhole.congr rfl rfl rfl fun hkept => hkept)

theorem Whole.acts {allowed : Completions} (hacts : Acts codec allowed client later)
    (hwhole : client.Whole) : later.Whole := by
  induction hacts with
  | refl => exact hwhole
  | tail _ hact ih => exact ih.act hact

/-- The account looks at the queue, at what is written and at what was meant. -/
theorem Accounted.congr (haccount : client.Accounted codec)
    (hwritten : later.stream.written = client.stream.written)
    (houtput : later.output = client.output) (hbytes : later.queuedBytes = client.queuedBytes)
    (hexact : later.saturated = client.saturated) (hhistory : later.history = client.history)
    (hclose : later.immediateClose = false → client.immediateClose = false) :
    later.Accounted codec where
  queuedBytes := by rw [hbytes, houtput]; exact haccount.queuedBytes
  bounded := hbytes ▸ haccount.bounded
  exact := hexact ▸ haccount.exact
  begun := houtput ▸ haccount.begun
  encoded := hhistory ▸ haccount.encoded
  written := by rw [hwritten, meant, hhistory]; exact haccount.written
  whole := Whole.congr haccount.whole hwritten houtput hhistory hclose

theorem Accounted.send (haccount : client.Accounted codec) {message : ServerMessage}
    {bytes : List UInt8} (hframe : encodeFrame codec.messages message = .ok bytes) :
    (client.send message bytes).Accounted codec := by
  have hencoded : ∀ entry ∈ client.history ++ [(message, bytes)],
      encodeFrame codec.messages entry.1 = .ok entry.2 := by
    rw [List.forall_mem_append, List.forall_mem_singleton]
    exact ⟨haccount.encoded, hframe⟩
  have hmeant : ∀ other : Client, other.history = client.history ++ [(message, bytes)] →
      other.meant = client.meant ++ bytes := by
    intro other hhistory
    rw [meant, hhistory, List.flatMap_append, List.flatMap_singleton, meant]
  have hwhole := Whole.send haccount.whole message bytes
  rw [Client.send, queueEncoded] at hwhole ⊢
  by_cases hroom : maxQueuedBytes < client.queuedBytes + bytes.length
  · rw [if_pos hroom] at hwhole ⊢
    exact {
      queuedBytes := haccount.queuedBytes
      bounded := haccount.bounded
      exact := haccount.exact
      begun := haccount.begun
      encoded := hencoded
      written := by
        rw [hmeant _ rfl]
        exact haccount.written.trans (List.prefix_append ..)
      whole := hwhole }
  · rw [if_neg hroom] at hwhole ⊢
    exact {
      queuedBytes := by
        rw [backlog_append, ← haccount.queuedBytes]
      bounded := Nat.le_of_not_lt hroom
      exact := haccount.exact
      begun := by
        rw [List.forall_mem_append, List.forall_mem_singleton]
        exact ⟨haccount.begun, (encodeFrame_length hframe).1⟩
      encoded := hencoded
      written := by
        rw [hmeant _ rfl]
        exact haccount.written.trans (List.prefix_append ..)
      whole := hwhole }

theorem Accounted.replies {id : Option UInt64} (hreply : Replies codec id client later)
    (haccount : client.Accounted codec) : later.Accounted codec := by
  cases hreply with
  | sent message bytes _ hframe => exact haccount.send hframe
  | lost => exact haccount.congr rfl rfl rfl rfl rfl fun hkept => Bool.noConfusion hkept

theorem Accounted.handles (haccount : client.Accounted codec) {id : Option UInt64}
    (hhandles : Handles codec client id later) : later.Accounted codec := by
  have hhandling : (client.handling id).Accounted codec :=
    haccount.congr rfl rfl rfl rfl rfl fun hkept => hkept
  cases hhandles with
  | undecoded hreply => exact hhandling.replies hreply
  | accepted id _ hreply =>
      exact .replies hreply (hhandling.congr rfl rfl rfl rfl rfl fun hkept => hkept)
  | refused id _ hreply =>
      exact (hhandling.replies hreply).congr rfl rfl rfl rfl rfl fun hkept => hkept
  | answered id input devices _ hreply =>
      exact .replies hreply (hhandling.congr rfl rfl rfl rfl rfl fun hkept => hkept)
  | overrun id _ => exact hhandling.congr rfl rfl rfl rfl rfl fun hkept => Bool.noConfusion hkept
  | deferred id command _ => exact hhandling.congr rfl rfl rfl rfl rfl fun hkept => hkept

theorem Accounted.write (haccount : client.Accounted codec) {front : Pending}
    {rest : List Pending} {count : Nat} {stream : UnixStream}
    (houtput : client.output = front :: rest)
    (hfits : count ≤ front.bytes.length - front.offset)
    (hwritten : stream.written =
      client.stream.written ++ (front.bytes.drop front.offset).take count)
    (hkept : client.immediateClose = false) :
    Accounted codec { client with
      stream
      output := advance front rest count
      queuedBytes := client.queuedBytes - count
      saturated := client.saturated || decide (client.queuedBytes < count) } := by
  have hqueued := haccount.queuedBytes
  have hbegun := haccount.begun
  have hwhole : Whole { client with
      stream
      output := advance front rest count
      queuedBytes := client.queuedBytes - count
      saturated := client.saturated || decide (client.queuedBytes < count) } :=
    Whole.write haccount.whole houtput hwritten
  rw [houtput] at hqueued hbegun
  have hcount : count ≤ client.queuedBytes := by
    rw [hqueued, backlog]
    omega
  exact {
    queuedBytes := by rw [backlog_advance hfits, ← hqueued]
    bounded := (Nat.sub_le ..).trans haccount.bounded
    exact := by
      rw [haccount.exact, Bool.false_or, decide_eq_false_iff_not]
      exact Nat.not_lt.mpr hcount
    begun := by
      intro entry hentry
      have hfront := hbegun front List.mem_cons_self
      change entry ∈ advance front rest count at hentry
      rw [advance] at hentry
      split at hentry
      · exact hbegun entry (List.mem_cons_of_mem _ hentry)
      · rcases List.mem_cons.mp hentry with rfl | hentry
        · change front.offset + count < front.bytes.length
          omega
        · exact hbegun entry (List.mem_cons_of_mem _ hentry)
    encoded := haccount.encoded
    written := ⟨_, hwhole hkept⟩
    whole := hwhole }

/-- Every act keeps the account. -/
theorem Accounted.act {allowed : Completions} (hact : Act codec allowed client later)
    (haccount : client.Accounted codec) : later.Accounted codec := by
  cases hact with
  | receive stream frames pendingFrames hwritten =>
      exact haccount.congr hwritten rfl rfl rfl rfl fun hkept => hkept
  | handle status devices frame _ => exact haccount.handles (handles_handleFrame frame)
  | refuse error _ =>
      exact .replies (replies_refuse error)
        (haccount.congr rfl rfl rfl rfl rfl fun hkept => hkept)
  | write front rest count stream houtput _ hfits hwritten hkept =>
      exact haccount.write houtput hfits hwritten hkept
  | lose stream hwritten => exact haccount.congr hwritten rfl rfl rfl rfl fun hkept => hkept
  | take =>
      rw [takeCommands]
      split
      · exact haccount.congr rfl rfl rfl rfl rfl fun hkept => hkept
      · exact haccount
  | complete id result _ =>
      obtain ⟨capture, hreply⟩ := @replies_complete codec client id result
      exact .replies hreply (haccount.congr rfl rfl rfl rfl rfl fun hkept => hkept)

theorem Accounted.offer {notification : Notification} {frame : List UInt8}
    (hframe : encodeFrame codec.messages (.notification notification) = .ok frame)
    (haccount : client.Accounted codec) : (client.offer notification frame).Accounted codec := by
  rw [Client.offer]
  split
  · exact haccount.send hframe
  · exact haccount

/-- What is meant for a connection grew by replies. -/
def Replied (client later : Client) : Prop :=
  ∃ replies, later.history = client.history ++ replies ∧
    ∀ reply ∈ replies, (replyTo reply.1).isSome

theorem Replied.refl (client : Client) : Replied client client :=
  ⟨[], (List.append_nil _).symm, fun _ hreply => (List.not_mem_nil hreply).elim⟩

theorem Replied.trans {middle : Client} (hfirst : Replied client middle)
    (hsecond : Replied middle later) : Replied client later := by
  obtain ⟨first, hmiddle, hall⟩ := hfirst
  obtain ⟨second, hlater, hrest⟩ := hsecond
  refine ⟨first ++ second, ?_, List.forall_mem_append.mpr ⟨hall, hrest⟩⟩
  rw [hlater, hmiddle, List.append_assoc]

theorem Replied.congr (hreplied : Replied client later) {other : Client}
    (hhistory : other.history = later.history) : Replied client other := by
  rw [Replied, hhistory]
  exact hreplied

theorem Replied.replies {id : Option UInt64} {middle : Client}
    (hreply : Replies codec id middle later) (hmiddle : middle.history = client.history) :
    Replied client later := by
  cases hreply with
  | sent message bytes hid _ =>
      refine ⟨[(message, bytes)], ?_, List.forall_mem_singleton.mpr (hid ▸ rfl)⟩
      rw [← hmiddle, send, queueEncoded]
      split <;> rfl
  | lost => exact (Replied.refl client).congr hmiddle

theorem Replied.handles {id : Option UInt64} (hhandles : Handles codec client id later) :
    Replied client later := by
  cases hhandles with
  | undecoded hreply => exact .replies hreply rfl
  | accepted id _ hreply => exact .replies hreply rfl
  | refused id _ hreply => exact (Replied.replies hreply rfl).congr rfl
  | answered id input devices _ hreply => exact .replies hreply rfl
  | overrun id _ => exact .congr (.refl client) rfl
  | deferred id command _ => exact .congr (.refl client) rfl

theorem Replied.act {allowed : Completions} (hact : Act codec allowed client later) :
    Replied client later := by
  cases hact with
  | receive stream frames pendingFrames _ => exact .congr (.refl client) rfl
  | handle status devices frame _ => exact .handles (handles_handleFrame frame)
  | refuse error _ => exact .replies (replies_refuse error) rfl
  | write front rest count stream _ _ _ _ _ => exact .congr (.refl client) rfl
  | lose stream _ => exact .congr (.refl client) rfl
  | take =>
      refine .congr (.refl client) ?_
      rw [takeCommands]
      split <;> rfl
  | complete id result _ =>
      obtain ⟨capture, hreply⟩ := @replies_complete codec client id result
      exact .replies hreply rfl

theorem Replied.acts {allowed : Completions}
    (hacts : Acts codec allowed client later) : Replied client later := by
  induction hacts with
  | refl => exact .refl client
  | tail _ hact ih => exact ih.trans (.act hact)

end Client

namespace IpcServer

/-- Another turn extends what is meant for a connection by replies, or the connection is
new. -/
inductive Meant (server : IpcServer) (entry : UInt64 × Client) : Prop
  | accepted (hnew : Accepted server entry)
  | replied (client : Client) (hclient : (entry.1, client) ∈ server.clients)
      (hreplied : client.Replied entry.2)

theorem Reacts.meant {codec : Codec} {allowed : Completions} {server later : IpcServer}
    (hreacts : Reacts codec allowed server later) :
    ∀ entry ∈ later.clients, Meant server entry := by
  intro entry hentry
  rcases hreacts.origin entry hentry with hnew | ⟨client, hclient, hacts⟩
  · exact .accepted hnew
  · exact .replied client hclient (.acts hacts)

end IpcServer

end Daemon

end Wiiland
