/-
What one connection sees of a run of the server: its own turns, the commands taken from
it, their completions and the notifications offered to it.  The frames it handles are the
lines of what it has read.
-/
import Wiiland.Daemon.CommandTurns
import Wiiland.Daemon.Exchange

namespace Wiiland

namespace Daemon

open Ipc

namespace Client

/-- A call into the server, for one of its connections. -/
inductive Step (codec : Codec) (allowed : Completions) : Client → Client → Prop
  | serve {client later : Client} (status : Status) (devices : List DeviceInfo)
      (revents : Revents) (hserve : client.serve codec status devices revents = some later) :
      Step codec allowed client later
  | take {client : Client} : Step codec allowed client client.takeCommands.2
  | complete {client : Client} (id : UInt64) (result : Except ProtocolError ResponseResult)
      (hallowed : allowed client id result) :
      Step codec allowed client (client.complete codec id result)
  | offer {client : Client} (notification : Notification) (frame : List UInt8)
      (hframe : encodeFrame codec.messages (.notification notification) = .ok frame) :
      Step codec allowed client (client.offer notification frame)

variable {codec : Codec} {allowed : Completions} {status : Status}
variable {devices : List DeviceInfo} {client later : Client}

/-- What every act and every publication keeps is kept by every step. -/
theorem Step.keeps {holds : Client → Prop}
    (hact : ∀ {client later}, Act codec allowed client later → holds client → holds later)
    (hoffer : ∀ {client notification frame},
      encodeFrame codec.messages (.notification notification) = .ok frame →
        holds client → holds (client.offer notification frame))
    (hstep : Step codec allowed client later) (hholds : holds client) : holds later := by
  cases hstep with
  | serve status devices revents hserve =>
      have hacts : Acts codec allowed client later := acts_serve hserve
      clear hserve
      induction hacts with
      | refl => exact hholds
      | tail _ hlast ih => exact hact hlast ih
  | take => exact hact .take hholds
  | complete id result hallowed => exact hact (.complete id result hallowed) hholds
  | offer notification frame hframe => exact hoffer hframe hholds

/-- The bytes that a read has given. -/
def gave : ReadAnswer → List UInt8
  | .data bytes => bytes.take readChunk
  | _ => []

/-- The frames of a connection are the lines of what it has read: those handled and those
that wait, in order, and an unfinished line. -/
structure Hears (codec : Codec) (heard : List UInt8) (client : Client) : Prop where
  frames : client.handled.map Handled.id ++ client.pendingFrames.map (frameId codec) =
    (Lines.cut newline heard).1.map fun line => frameId codec (stripCr line)
  rest : client.frames.bytes = (Lines.cut newline heard).2

/-- How a connection reads on, as long as no line is too long. -/
def ReadsOn (codec : Codec) (client later : Client) : Prop :=
  ∃ consumed, client.stream.reads = consumed ++ later.stream.reads ∧
    ∀ heard, Ipc.Acceptable (heard ++ consumed.flatMap gave) →
      Hears codec heard client → Hears codec (heard ++ consumed.flatMap gave) later

theorem ReadsOn.refl (client : Client) : ReadsOn codec client client :=
  ⟨[], rfl, fun heard _ hhears => by rwa [List.flatMap_nil, List.append_nil]⟩

theorem ReadsOn.trans {middle : Client} (hfirst : ReadsOn codec client middle)
    (hsecond : ReadsOn codec middle later) : ReadsOn codec client later := by
  obtain ⟨consumed, hreads, hhears⟩ := hfirst
  obtain ⟨more, hmore, hnext⟩ := hsecond
  refine ⟨consumed ++ more, by rw [hreads, hmore, List.append_assoc], fun heard haccept => ?_⟩
  rw [List.flatMap_append, ← List.append_assoc] at haccept ⊢
  intro hstart
  exact hnext _ haccept (hhears heard (FrameBuffer.acceptable_of_append haccept) hstart)

/-- What leaves the input of a connection alone. -/
theorem ReadsOn.of_same (hreads : later.stream.reads = client.stream.reads)
    (hframes : later.frames = client.frames)
    (hpending : later.pendingFrames = client.pendingFrames)
    (hhandled : later.handled = client.handled) : ReadsOn codec client later := by
  refine ⟨[], by rw [hreads, List.nil_append], fun heard _ hhears => ?_⟩
  rw [List.flatMap_nil, List.append_nil]
  exact ⟨by rw [hhandled, hpending]; exact hhears.frames, by rw [hframes]; exact hhears.rest⟩

theorem handled_replies {id : Option UInt64} (hreply : Replies codec id client later) :
    later.handled = client.handled := by
  cases hreply with
  | sent message bytes _ _ =>
      rw [send, queueEncoded]
      split <;> rfl
  | lost => rfl

theorem ReadsOn.replies {id : Option UInt64} (hreply : Replies codec id client later) :
    ReadsOn codec client later := by
  obtain ⟨hstream, hframes, hpending⟩ := sameInput_replies hreply
  exact .of_same (congrArg UnixStream.reads hstream) hframes hpending (handled_replies hreply)

/-- A frame that is handled is noted with its id. -/
theorem handled_handleFrame (frame : List UInt8) :
    (client.handleFrame codec status devices frame).handled.map Handled.id =
      client.handled.map Handled.id ++ [frameId codec frame] := by
  have hhandles := @handles_handleFrame codec status devices client frame
  generalize client.handleFrame codec status devices frame = later at hhandles
  generalize frameId codec frame = id at hhandles
  have hnoted : (client.handling id).handled.map Handled.id =
      client.handled.map Handled.id ++ [id] := by
    rw [handling, List.map_append, List.map_singleton]
  cases hhandles with
  | undecoded hreply => rw [handled_replies hreply, hnoted]
  | accepted id _ hreply => rw [handled_replies hreply]; exact hnoted
  | refused id _ hreply =>
      exact (congrArg (List.map Handled.id) (handled_replies hreply)).trans hnoted
  | answered id input devices _ hreply => rw [handled_replies hreply]; exact hnoted
  | overrun id _ => exact hnoted
  | deferred id command _ => exact hnoted

theorem readsOn_processPending (budget : Nat) :
    ReadsOn codec client (client.processPending codec status devices budget).2 := by
  induction budget generalizing client with
  | zero => exact .refl client
  | succ budget ih =>
      rw [processPending]
      split
      · exact .refl client
      · next frame rest hpending =>
        have hsame := @sameInput_handleFrame codec status devices
          { client with pendingFrames := rest } frame
        have hnoted := @handled_handleFrame codec status devices
          { client with pendingFrames := rest } frame
        simp only
        generalize handleFrame codec status devices { client with pendingFrames := rest } frame =
          later at hsame hnoted
        have hone : ReadsOn codec client later := by
          refine ⟨[], by rw [hsame.1, List.nil_append], fun heard _ hhears => ?_⟩
          rw [List.flatMap_nil, List.append_nil]
          refine ⟨?_, by rw [hsame.2.1]; exact hhears.rest⟩
          have hframes := hhears.frames
          rw [hpending, List.map_cons] at hframes
          rw [hnoted, hsame.2.2, ← hframes, List.append_assoc]
          rfl
        split
        · exact hone.trans ih
        · exact hone

/-- The bytes of a read. -/
theorem read_consumes (stream : UnixStream) :
    ∃ consumed, stream.reads = consumed ++ stream.read.2.reads ∧
      consumed.flatMap gave = match stream.read.1 with
        | .data bytes => bytes
        | _ => [] := by
  rw [UnixStream.read]
  cases hreads : stream.reads with
  | nil => exact ⟨[], hreads.symm, rfl⟩
  | cons answer reads =>
      cases answer with
      | data bytes => exact ⟨[.data bytes], rfl, List.flatMap_singleton ..⟩
      | wouldBlock => exact ⟨[.wouldBlock], rfl, rfl⟩
      | failed => exact ⟨[.failed], rfl, rfl⟩

/-- A read that gives nothing. -/
theorem ReadsOn.nothing {stream : UnixStream} {answer : ReadAnswer}
    (hread : client.stream.read = (answer, stream))
    (hnone : (match answer with | .data bytes => bytes | _ => []) = []) :
    ReadsOn codec client { client with stream } := by
  obtain ⟨consumed, hreads, hgave⟩ := read_consumes client.stream
  rw [hread] at hreads hgave
  refine ⟨consumed, hreads, fun heard _ hhears => ?_⟩
  rw [hgave.trans hnone, List.append_nil]
  exact ⟨hhears.frames, hhears.rest⟩

/-- A line that ends in a read was begun by what was read before. -/
theorem Hears.push {heard bytes : List UInt8} (hhears : Hears codec heard client)
    (haccept : Ipc.Acceptable (heard ++ bytes)) :
    client.frames.push bytes =
      (.ok ((Lines.cut newline ((Lines.cut newline heard).2 ++ bytes)).1.map stripCr),
        ⟨(Lines.cut newline ((Lines.cut newline heard).2 ++ bytes)).2⟩) := by
  have hwhole := (FrameBuffer.acceptable_append heard bytes).mp haccept
  have hretained : FrameBuffer.Retained client.frames.bytes := by
    refine ⟨hhears.rest ▸ (Lines.not_mem_cut newline heard).2, ?_⟩
    exact hhears.rest ▸ (FrameBuffer.acceptable_of_append haccept).2
  rw [← hhears.rest] at hwhole ⊢
  rcases FrameBuffer.push_spec hretained bytes with ⟨_, hpushed⟩ | ⟨hrefused, _⟩
  · exact hpushed
  · exact absurd hwhole.2 hrefused

/-- A read completes the lines that wait for their turn. -/
theorem ReadsOn.received {stream : UnixStream} {bytes : List UInt8} {frames : FrameBuffer}
    {whole : List (List UInt8)} (hread : client.stream.read = (.data bytes, stream))
    (hpush : client.frames.push bytes = (.ok whole, frames)) :
    ReadsOn codec client
      { client with stream, frames, pendingFrames := client.pendingFrames ++ whole } := by
  obtain ⟨consumed, hreads, hgave⟩ := read_consumes client.stream
  rw [hread] at hreads hgave
  refine ⟨consumed, hreads, fun heard haccept hhears => ?_⟩
  simp only at hgave
  rw [hgave] at haccept ⊢
  rw [hhears.push haccept] at hpush
  obtain ⟨hlines, rfl⟩ := Prod.mk.inj hpush
  obtain rfl := Except.ok.inj hlines
  have hframes : ∀ whole, client.handled.map Handled.id ++
      (client.pendingFrames ++ whole).map (frameId codec) =
        (Lines.cut newline heard).1.map (fun line => frameId codec (stripCr line)) ++
          whole.map (frameId codec) := by
    intro whole
    rw [List.map_append, ← List.append_assoc, hhears.frames]
  refine ⟨(hframes _).trans ?_, by rw [Lines.cut_append heard bytes]⟩
  rw [Lines.cut_append heard bytes, List.map_append, List.map_map]
  rfl

/-- A line that is too long ends the connection, if there is one. -/
theorem ReadsOn.refused {stream : UnixStream} {bytes : List UInt8} {frames : FrameBuffer}
    {error : ProtocolError} (hread : client.stream.read = (.data bytes, stream))
    (hpush : client.frames.push bytes = (.error error, frames)) :
    ReadsOn codec client (refuse codec { client with stream, frames } error) := by
  obtain ⟨consumed, hreads, hgave⟩ := read_consumes client.stream
  rw [hread] at hreads hgave
  have hsame := sameInput_replies (@replies_refuse codec { client with stream, frames } error)
  refine ⟨consumed, by rw [hsame.1]; exact hreads, fun heard haccept hhears => ?_⟩
  simp only at hgave
  rw [hgave] at haccept
  rw [hhears.push haccept] at hpush
  cases congrArg Prod.fst hpush

theorem readsOn_readLoop (reads budget : Nat) :
    ReadsOn codec client (readLoop codec status devices reads budget client).2 := by
  induction reads generalizing client budget with
  | zero => exact .refl client
  | succ reads ih =>
      rw [readLoop]
      split
      · next stream hread => exact .nothing hread rfl
      · next stream hread => exact .nothing hread rfl
      · next bytes stream hread =>
        split
        · next hend => exact .nothing hread hend
        · split
          · next error frames hpush => exact .refused hread hpush
          · next whole frames hpush =>
            have hreceived : ReadsOn codec client { client with
                stream, frames, pendingFrames := client.pendingFrames ++ whole } :=
              .received hread hpush
            have hhandled := @readsOn_processPending codec status devices
              { client with stream, frames, pendingFrames := client.pendingFrames ++ whole } budget
            simp only
            split
            · exact hreceived.trans hhandled
            · exact (hreceived.trans hhandled).trans (ih _)

theorem readsOn_readClient : ReadsOn codec client (client.readClient codec status devices).2 := by
  have hpending := @readsOn_processPending codec status devices client frameBudget
  rw [readClient]
  simp only
  split
  · exact hpending
  · exact hpending.trans (readsOn_readLoop _ _)

theorem readsOn_writeLoop (budget : Nat) :
    ReadsOn codec client (client.writeLoop budget).2 := by
  induction budget using Nat.strongRecOn generalizing client with
  | ind budget ih =>
      rw [writeLoop]
      split
      · exact .refl client
      · next hbudget =>
        split
        · exact .refl client
        · next front rest _ =>
          have hreads := write_reads client.stream ((front.bytes.drop front.offset).take budget)
          split
          · next count stream hwrite =>
            rw [hwrite] at hreads
            split
            · exact .of_same hreads rfl rfl rfl
            · next hpos =>
              have hwrote : ReadsOn codec client { client with
                  stream
                  output := advance front rest count
                  queuedBytes := client.queuedBytes - count
                  saturated := client.saturated || decide (client.queuedBytes < count) } :=
                .of_same hreads rfl rfl rfl
              apply hwrote.trans
              apply ih
              omega
          · next stream hwrite =>
            rw [hwrite] at hreads
            exact .of_same hreads rfl rfl rfl
          · next stream hwrite =>
            rw [hwrite] at hreads
            exact .of_same hreads rfl rfl rfl

theorem readsOn_serve {revents : Revents}
    (hserve : client.serve codec status devices revents = some later) :
    ReadsOn codec client later := by
  have hread : ReadsOn codec client (client.readTurn codec status devices revents).2 := by
    rw [readTurn]
    split
    · exact readsOn_readClient
    · exact .refl client
  rw [serve] at hserve
  generalize client.readTurn codec status devices revents = read at hread hserve
  have hwrite : ReadsOn codec read.2
      (writeTurn (read.1 && !read.2.immediateClose) read.2 revents).2 := by
    rw [writeTurn]
    split
    · exact readsOn_writeLoop _
    · exact .refl read.2
  simp only at hserve
  split at hserve
  · obtain rfl := Option.some.inj hserve
    exact hread.trans hwrite
  · cases hserve

theorem readsOn_send (message : ServerMessage) (bytes : List UInt8) :
    ReadsOn codec client (client.send message bytes) := by
  rw [send, queueEncoded]
  split <;> exact .of_same rfl rfl rfl rfl

/-- Whatever the server does with a connection, it reads on. -/
theorem Step.readsOn (hstep : Step codec allowed client later) : ReadsOn codec client later := by
  cases hstep with
  | serve status devices revents hserve => exact readsOn_serve hserve
  | take =>
      rw [takeCommands]
      split
      · exact .of_same rfl rfl rfl rfl
      · exact .refl client
  | complete id result _ =>
      obtain ⟨capture, hreply⟩ := @replies_complete codec client id result
      have hbase : ReadsOn codec client
          { client with taken := client.taken.erase id, capture } := .of_same rfl rfl rfl rfl
      exact hbase.trans (.replies hreply)
  | offer notification frame _ =>
      rw [Client.offer]
      split
      · exact readsOn_send _ _
      · exact .refl client

end Client

namespace IpcServer

variable {codec : Codec} {allowed : Completions} {server : IpcServer}

/-- A turn of the server is at most one step of a connection that stays. -/
theorem Turn.step {later : IpcServer} (hturn : Turn codec allowed server later) :
    ∀ entry ∈ later.clients, Accepted server entry ∨
      ∃ client, (entry.1, client) ∈ server.clients ∧
        (entry.2 = client ∨ Client.Step codec allowed client entry.2) := by
  have hself : ∀ entry ∈ server.clients, Accepted server entry ∨
      ∃ client, (entry.1, client) ∈ server.clients ∧
        (entry.2 = client ∨ Client.Step codec allowed client entry.2) :=
    fun entry hentry => .inr ⟨entry.2, hentry, .inl rfl⟩
  intro entry hentry
  cases hturn with
  | handleReady status devices token revents =>
      rw [IpcServer.handleReady] at hentry
      split at hentry
      · split at hentry
        · exact hself entry hentry
        · split at hentry
          · rcases (accepted_acceptLoop acceptBudget).2 entry hentry with hnew | hold
            · exact .inl hnew
            · exact hself entry hold
          · exact hself entry hentry
      · split at hentry
        · exact hself entry hentry
        · next client hfind =>
          split at hentry
          · exact hself entry (List.mem_filter.mp hentry).1
          · next served hserve =>
            obtain ⟨⟨other, old⟩, hold, rfl⟩ := List.mem_map.mp hentry
            by_cases htoken : other = token
            · subst htoken
              rw [if_pos rfl]
              exact .inr ⟨client, find_mem hfind, .inr (.serve _ devices revents hserve)⟩
            · rw [if_neg htoken]
              exact hself _ hold
  | takeCommands =>
      change entry ∈ (takeAll server.clients).2 at hentry
      rw [takeAll_clients] at hentry
      obtain ⟨client, hclient, rfl⟩ := List.mem_map.mp hentry
      exact .inr ⟨client.2, hclient, .inr .take⟩
  | completeCommand token id result hallowed =>
      obtain ⟨⟨other, client⟩, hclient, rfl⟩ := List.mem_map.mp hentry
      by_cases htoken : other = token
      · subst htoken
        rw [if_pos rfl]
        exact .inr ⟨client, hclient, .inr (.complete id result (hallowed client hclient))⟩
      · rw [if_neg htoken]
        exact hself _ hclient
  | publish notification =>
      obtain ⟨client, hclient, ⟨_, _, hsame⟩ | ⟨frame, hframe, hsame⟩⟩ := mem_publish hentry
      · exact .inr ⟨client, hclient, .inl hsame⟩
      · exact .inr ⟨client, hclient, .inr (hsame ▸ .offer notification frame hframe)⟩
  | rehash before => exact hself entry (List.mem_mergeSort.mp hentry)

/-- No connection comes to wait at the listener in a turn. -/
theorem Turn.accepts {later : IpcServer} (hturn : Turn codec allowed server later) :
    later.accepts ⊆ server.accepts := by
  cases hturn with
  | handleReady status devices token revents =>
      rw [IpcServer.handleReady]
      split
      · split
        · exact List.Subset.refl _
        · split
          · exact (accepted_acceptLoop acceptBudget).1
          · exact List.Subset.refl _
      · split
        · exact List.Subset.refl _
        · split <;> exact List.Subset.refl _
  | takeCommands => exact List.Subset.refl _
  | completeCommand token id result _ => exact List.Subset.refl _
  | publish notification =>
      rw [IpcServer.publish]
      split <;> exact List.Subset.refl _
  | rehash before => exact List.Subset.refl _

/-- In every run of the server a connection was accepted with a stream, and has read on
from its start. -/
theorem Turns.readsOn {path : PathBuf} {accepts : List AcceptAnswer}
    (hturns : Turns codec allowed (bind path accepts) server) :
    server.accepts ⊆ accepts ∧ ∀ entry ∈ server.clients, ∃ reads writes,
      .accepted reads writes true ∈ accepts ∧
        Client.ReadsOn codec (.new { reads, writes }) entry.2 := by
  induction hturns with
  | refl => exact ⟨List.Subset.refl _, fun entry hentry => (List.not_mem_nil hentry).elim⟩
  | tail _ hturn ih =>
      obtain ⟨hsubset, hclients⟩ := ih
      refine ⟨List.Subset.trans hturn.accepts hsubset, fun entry hentry => ?_⟩
      rcases hturn.step entry hentry with
        ⟨⟨reads, writes, hwaits, hfresh⟩, _⟩ | ⟨client, hclient, hsame | hstep⟩
      · exact ⟨reads, writes, hsubset hwaits, hfresh ▸ .refl entry.2⟩
      · exact hsame ▸ hclients _ hclient
      · obtain ⟨reads, writes, hwaits, hreads⟩ := hclients _ hclient
        exact ⟨reads, writes, hwaits, hreads.trans hstep.readsOn⟩

theorem Distinct.acceptLoop (hdistinct : server.Distinct) (budget : Nat) :
    (IpcServer.acceptLoop budget server).2.Distinct := by
  induction budget generalizing server with
  | zero => exact hdistinct
  | succ budget ih =>
      rw [IpcServer.acceptLoop]
      split
      · exact hdistinct
      · exact hdistinct
      · exact hdistinct
      · next reads writes nonblocking accepts _ =>
        have hrest : Distinct { server with accepts } := hdistinct
        simp only
        split
        · exact ih (hrest.addClient { reads, writes })
        · exact ih hrest

/-- Tokens stay distinct in every turn. -/
theorem Turn.distinct {later : IpcServer} (hturn : Turn codec allowed server later)
    (hdistinct : server.Distinct) : later.Distinct := by
  cases hturn with
  | handleReady status devices token revents =>
      rw [IpcServer.handleReady]
      split
      · split
        · exact hdistinct
        · split
          · exact hdistinct.acceptLoop acceptBudget
          · exact hdistinct
      · split
        · exact hdistinct
        · split
          · exact hdistinct.subperm (tokens_remove token)
          · exact hdistinct.subperm (@tokens_modify server token _ ▸ .refl _)
  | takeCommands => exact hdistinct.subperm (List.Perm.of_eq tokens_takeCommands).subperm
  | completeCommand token id result _ =>
      exact hdistinct.subperm (@tokens_modify server token _ ▸ .refl _)
  | publish notification => exact hdistinct.subperm (tokens_publish notification)
  | rehash before => exact hdistinct.subperm (tokens_rehash before)

end IpcServer

end Daemon

end Wiiland
