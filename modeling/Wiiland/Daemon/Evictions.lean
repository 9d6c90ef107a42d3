/-
Connections that are given up.  A connection whose queue overflows leaves the server in
the same iteration, unless it is a completion that overflows it.
-/
import Wiiland.Daemon.Exchange
import Wiiland.Daemon.LifecycleRuns
import Wiiland.Daemon.RuntimeTurns

namespace Wiiland

namespace Daemon

open Ipc

/-- The frame of a response, or of the error in its place. -/
def responseFrame (codec : Codec) (id : UInt64) (result : ResponseResult) :
    Except ProtocolError (List UInt8) :=
  match encodeFrame codec.messages (.response id result) with
  | .ok bytes => .ok bytes
  | .error _ => encodeFrame codec.messages (Client.oversizeError id)

namespace Client

/-- The frame that a completion queues, if it encodes. -/
def answer (codec : Codec) (client : Client) (id : UInt64) :
    Except ProtocolError ResponseResult → Except ProtocolError (List UInt8)
  | .error error => encodeFrame codec.messages (.error (some id) error)
  | .ok result =>
      if client.leaseRefused result then
        encodeFrame codec.messages (.error (some id)
          (protocolError .invalidRequest "capture device limit reached"))
      else responseFrame codec id result

/-- The frame encodes and the queue has room for it. -/
def Takes (client : Client) (frame : Except ProtocolError (List UInt8)) : Prop :=
  ∃ bytes, frame = .ok bytes ∧ client.queuedBytes + bytes.length ≤ maxQueuedBytes

/-- The queue has room for the answer of a completion. -/
def hasRoom (codec : Codec) : Completions := fun client id result =>
  client.Takes (client.answer codec id result)

variable {codec : Codec} {client : Client}

theorem takes_ok {bytes : List UInt8} :
    client.Takes (.ok bytes) ↔ client.queuedBytes + bytes.length ≤ maxQueuedBytes :=
  ⟨fun ⟨_, hbytes, hroom⟩ => Except.ok.inj hbytes ▸ hroom, fun hroom => ⟨bytes, rfl, hroom⟩⟩

theorem not_takes_error {error : ProtocolError} : ¬client.Takes (.error error) :=
  fun ⟨_, hbytes, _⟩ => nomatch hbytes

theorem send_kept {message : ServerMessage} {bytes : List UInt8}
    (hkept : client.immediateClose = false) :
    (client.send message bytes).immediateClose = false ↔ client.Takes (.ok bytes) := by
  rw [takes_ok, send, queueEncoded]
  split
  · next hfull => exact iff_of_false Bool.noConfusion (Nat.not_le.mpr hfull)
  · next hroom => exact iff_of_true hkept (Nat.le_of_not_lt hroom)

theorem queue_kept {message : ServerMessage} (hkept : client.immediateClose = false) :
    (client.queue codec message).immediateClose = false ↔
      client.Takes (encodeFrame codec.messages message) := by
  rw [queue]
  split
  · next error hframe =>
    rw [hframe]
    exact iff_of_false Bool.noConfusion not_takes_error
  · next bytes hframe =>
    rw [hframe]
    exact send_kept hkept

theorem queueResponse_kept {id : UInt64} {result : ResponseResult}
    (hkept : client.immediateClose = false) :
    (client.queueResponse codec id result).immediateClose = false ↔
      client.Takes (responseFrame codec id result) := by
  rw [queueResponse, responseFrame]
  cases encodeFrame codec.messages (.response id result) with
  | ok bytes => exact send_kept hkept
  | error error => exact queue_kept hkept

theorem lease_queue (result : ResponseResult) :
    (client.lease result).queuedBytes = client.queuedBytes ∧
      (client.lease result).immediateClose = client.immediateClose := by
  cases result with
  | captureStarted info =>
      rw [lease]
      split <;> exact ⟨rfl, rfl⟩
  | _ => exact ⟨rfl, rfl⟩

/-- A completion keeps a connection exactly when the queue has room for its answer. -/
theorem complete_kept_iff {id : UInt64} {result : Except ProtocolError ResponseResult}
    (hkept : client.immediateClose = false) :
    (client.complete codec id result).immediateClose = false ↔
      hasRoom codec client id result := by
  cases result with
  | error error =>
      exact @queue_kept codec { client with taken := client.taken.erase id } _ hkept
  | ok result =>
      have hrefused : leaseRefused { client with taken := client.taken.erase id } result =
          client.leaseRefused result := by
        cases result <;> rfl
      obtain ⟨hbytes, hlease⟩ :=
        @lease_queue { client with taken := client.taken.erase id } result
      rw [complete, hasRoom, answer, hrefused]
      split
      · exact @queue_kept codec { client with taken := client.taken.erase id } _ hkept
      · rw [queueResponse_kept (hlease.trans hkept), Takes, hbytes]
        rfl

end Client

namespace IpcServer

/-- No connection is marked to be given up. -/
def Kept (server : IpcServer) : Prop := ∀ entry ∈ server.clients, entry.2.immediateClose = false

variable {codec : Codec} {server later : IpcServer}

theorem serve_kept {status : Status} {devices : List DeviceInfo} {client later : Client}
    {revents : Revents} (hserve : client.serve codec status devices revents = some later) :
    later.immediateClose = false := by
  rw [Client.serve] at hserve
  simp only at hserve
  split at hserve
  · next hguard =>
    rw [Option.some.inj hserve, Bool.and_eq_true, Bool.and_eq_true, Bool.not_eq_true'] at hguard
    exact hguard.1.2
  · cases hserve

theorem Kept.handleReady (hkept : server.Kept) (status : PathBuf → Status)
    (devices : List DeviceInfo) (token : UInt64) (revents : Revents) :
    (server.handleReady codec status devices token revents).2.Kept := by
  have haccept : server.acceptReady.2.Kept := by
    intro entry hentry
    rcases (accepted_acceptLoop acceptBudget).2 entry hentry with ⟨⟨_, _, _, hfresh⟩, _⟩ | hold
    · exact hfresh ▸ rfl
    · exact hkept entry hold
  rw [IpcServer.handleReady]
  split
  · split
    · exact hkept
    · split
      · exact haccept
      · exact hkept
  · split
    · exact hkept
    · split
      · exact fun entry hentry => hkept entry (List.mem_filter.mp hentry).1
      · next later hserve =>
        intro entry hentry
        obtain ⟨old, hold, rfl⟩ := List.mem_map.mp hentry
        split
        · exact serve_kept hserve
        · exact hkept old hold

theorem Kept.publish (hkept : server.Kept) (notification : Notification) :
    (server.publish codec notification).Kept := by
  rw [IpcServer.publish]
  split
  · exact hkept
  · intro entry hentry
    exact (Bool.not_eq_true' _).mp (List.mem_filter.mp hentry).2

theorem Kept.takeCommands (hkept : server.Kept) : server.takeCommands.2.Kept := by
  intro entry hentry
  change entry ∈ (takeAll server.clients).2 at hentry
  rw [takeAll_clients] at hentry
  obtain ⟨old, hold, rfl⟩ := List.mem_map.mp hentry
  have hclose := hkept old hold
  rw [Client.takeCommands]
  split <;> exact hclose

/-- A turn leaves no marked connection, when the answers of completions have room. -/
theorem Kept.turn (hkept : server.Kept)
    (hturn : Turn codec (Client.hasRoom codec) server later) : later.Kept := by
  cases hturn with
  | handleReady status devices token revents =>
      exact hkept.handleReady status devices token revents
  | takeCommands => exact hkept.takeCommands
  | completeCommand token id result hroom =>
      intro entry hentry
      obtain ⟨⟨other, client⟩, hclient, rfl⟩ := List.mem_map.mp hentry
      split
      · next htoken =>
        obtain rfl : other = token := htoken
        exact (Client.complete_kept_iff (hkept _ hclient)).mpr (hroom client hclient)
      · exact hkept _ hclient
  | publish notification => exact hkept.publish notification
  | rehash before => exact fun entry hentry => hkept entry (List.mem_mergeSort.mp hentry)

theorem Kept.turns (hkept : server.Kept)
    (hturns : Turns codec (Client.hasRoom codec) server later) : later.Kept := by
  induction hturns with
  | refl => exact hkept
  | tail _ hturn ih => exact ih.turn hturn

end IpcServer

/-- In every run of the reactor whose completions have room for their answers, no
connection that is marked to be given up is left after a step or an iteration. -/
theorem Runtime.kept_loop {P D : Type} [DeviceSession D] [RuntimePlatform P D] (codec : Codec)
    (config : Config) (dryRun : Bool) (platform : P) (path : PathBuf)
    (accepts : List AcceptAnswer) (steps : List (LoopStep P))
    (hmeets : MeetsAll codec (Client.hasRoom codec) steps
      (start config dryRun platform (some (.bind path accepts)) : Runtime P D))
    (server : IpcServer)
    (hserver : ((start config dryRun platform (some (.bind path accepts)) :
      Runtime P D).loop codec steps).ipc = some server) :
    ∀ entry ∈ server.clients, entry.2.immediateClose = false := by
  have hserved := served_loop steps hmeets
  rw [hserver] at hserved
  cases hserved with
  | some hturns =>
      have hstart : (IpcServer.bind path accepts).Kept :=
        fun _ hentry => (List.not_mem_nil hentry).elim
      exact hstart.turns hturns

/-- A system without devices that answers its polls from a list. -/
structure PollingPlatform where
  polls : List Polled := []

instance : RuntimePlatform PollingPlatform FakeDevice where
  openDevice platform _ _ _ := (.error (-enodev), platform)
  startMonitor platform := (.ok (), platform)
  monitorFd _ := false
  drainMonitor platform _ := (.ok false, platform)
  requestSnapshot platform := (.ok (), platform)
  takeSnapshot platform := (none, platform)
  shutdownRequested platform := (false, platform)
  drainSignal platform := platform
  now platform := (0, platform)
  poll platform _ _ :=
    match platform.polls with
    | [] => (.interrupted, platform)
    | polled :: polls => (polled, { platform with polls })
  processId _ := 1
  traceDropped _ := 0
  lifecycleDropped _ := 0

/-- The only connection of a reactor without devices, before some polls. -/
structure Polling (path : PathBuf) (polls : List Polled) (client : Client)
    (runtime : Runtime PollingPlatform FakeDevice) : Prop where
  platform : runtime.platform = ⟨polls⟩
  slots : runtime.slots = .replicate maxDevices none
  idle : runtime.monitorPending = false
  ipc : runtime.ipc = some (serving path client)

/-- A poll that reports the connection of the token 2 ready to read. -/
def readable : Polled := .ready 1 [{}, {}, { pollin := true }]

namespace Polling

variable {codec : Codec} {path : PathBuf} {polls : List Polled} {client later : Client}
variable {runtime : Runtime PollingPlatform FakeDevice}

theorem pollOwners (hpolling : Polling path polls client runtime) :
    ∃ pollin pollout, runtime.pollOwners =
      [(.signal, true, false), (.ipc listenerToken, true, false), (.ipc 2, pollin, pollout)] := by
  have hactive : runtime.active = [] := by
    rw [Runtime.active, hpolling.slots]
    rfl
  refine ⟨client.isOpen, !client.immediateClose && (client.output != [] ||
    client.pendingFrames != []), ?_⟩
  rw [Runtime.pollOwners, hactive, hpolling.ipc]
  rfl

theorem handleReady (hpolling : Polling path polls client runtime)
    (hserve : ∀ status, client.serve codec status [] { pollin := true } = some later) :
    runtime.handleReady codec 2 { pollin := true } =
      (.ok (), { runtime with ipc := some (serving path later) }) := by
  have hdevices : deviceSnapshot runtime.slots = [] := by
    rw [hpolling.slots]
    rfl
  rw [Runtime.handleReady, hpolling.ipc, hdevices]
  simp only [IpcServer.handleReady_only (by decide : (2 : UInt64) ≠ listenerToken)
    (rfl : (serving path client).clients = [(2, client)]) (hserve _)]
  rfl

theorem dispatch (hpolling : Polling path polls client runtime)
    {after : Runtime PollingPlatform FakeDevice}
    (hready : runtime.handleReady codec 2 { pollin := true } = (.ok (), after)) :
    runtime.dispatch codec false
        [(.signal, {}), (.ipc listenerToken, {}), (.ipc 2, { pollin := true })] =
      (.ok (), after) := by
  have hserved : Runtime.serveReady codec
      [(.signal, {}), (.ipc listenerToken, {}), (.ipc 2, { pollin := true })] runtime =
        (.ok (), after) := by
    change Runtime.serveReady codec [(.ipc 2, { pollin := true })] runtime = _
    rw [Runtime.serveReady, hready]
    rfl
  change Runtime.serveReady codec _ (if false || runtime.monitorPending then _ else runtime) = _
  rw [if_neg (by rw [hpolling.idle]; decide)]
  exact hserved

theorem reports (hpolling : Polling path polls client runtime) :
    Runtime.reports runtime.pollOwners [{}, {}, { pollin := true }] =
      [(.signal, {}), (.ipc listenerToken, {}), (.ipc 2, { pollin := true })] := by
  obtain ⟨pollin, pollout, howners⟩ := hpolling.pollOwners
  rw [howners]
  rfl

theorem poll (hpolling : Polling path (readable :: polls) client runtime) :
    RuntimePlatform.poll runtime.platform runtime.pollOwners 0 =
      (readable, PollingPlatform.mk polls) := by
  rw [hpolling.platform]
  rfl

/-- The reactor when it has polled. -/
theorem polled (hpolling : Polling path (readable :: polls) client runtime) :
    Polling path polls client
      { runtime with platform := PollingPlatform.mk polls, dispatchStarted := 0 } :=
  ⟨rfl, hpolling.slots, hpolling.idle, hpolling.ipc⟩

/-- An iteration is the turn of the connection. -/
theorem pollReady_turn (hpolling : Polling path (readable :: polls) client runtime)
    {after : Runtime PollingPlatform FakeDevice}
    (hready : Runtime.handleReady codec
      { runtime with platform := PollingPlatform.mk polls, dispatchStarted := 0 } 2
        { pollin := true } = (.ok (), after)) :
    runtime.pollReady codec 0 false = (.ok none, after) := by
  have hdispatch := hpolling.polled.dispatch hready
  rw [← hpolling.reports] at hdispatch
  exact Runtime.pollReady_dispatched hpolling.poll rfl rfl (by rw [hpolling.reports]; rfl)
    (by decide) hdispatch

theorem pollReady (hpolling : Polling path (readable :: polls) client runtime)
    (hserve : ∀ status, client.serve codec status [] { pollin := true } = some later) :
    ∃ ready, runtime.pollReady codec 0 false = (.ok none, ready) ∧
      Polling path polls later ready :=
  ⟨_, hpolling.pollReady_turn (hpolling.polled.handleReady hserve), rfl, hpolling.slots,
    hpolling.idle, rfl⟩

theorem takeCommands (hpolling : Polling path polls client runtime)
    (hcommands : client.commands = []) : runtime.takeCommands = ([], runtime) := by
  have hipc := hpolling.ipc
  have htake : client.takeCommands = ([], client) := by
    rw [Client.takeCommands]
    split
    · rw [hcommands, List.map_nil, List.append_nil, ← hcommands]
    · rfl
  rw [Runtime.takeCommands, hipc]
  simp only [IpcServer.takeCommands, serving, takeAll, htake]
  rw [← serving, ← hipc]
  rfl

/-- Servicing no commands changes nothing. -/
theorem serviceCommands (hpolling : Polling path polls client runtime)
    (hcommands : client.commands = []) :
    Polling path polls client (runtime.serviceCommands codec) := by
  have htaken := hpolling.takeCommands hcommands
  obtain ⟨hplatform, hslots, hidle, hipc⟩ := hpolling
  rw [Runtime.serviceCommands, htaken]
  refine ⟨hplatform, ?_, hidle, hipc⟩
  change runtime.slots.map _ = _
  rw [hslots]
  rfl

/-- An iteration in which the connection is served and leaves no command. -/
theorem pollOnce (hpolling : Polling path (readable :: polls) client runtime)
    (hserve : ∀ status, client.serve codec status [] { pollin := true } = some later)
    (hcommands : later.commands = []) :
    Polling path polls later (runtime.pollOnce codec 0 false).2 := by
  obtain ⟨ready, hready, hpolled⟩ := hpolling.pollReady hserve
  rw [Runtime.pollOnce, hready]
  exact hpolled.serviceCommands hcommands

theorem takeCommands_stop (hpolling : Polling path polls client runtime)
    (hcommands : client.commands = [(2, .stopCapture)]) (hopen : client.isOpen = true) :
    runtime.takeCommands = ([(2, 2, .stopCapture)], { runtime with
      ipc := some
        (serving path { client with commands := [], taken := client.taken ++ [2] }) }) := by
  have htake : client.takeCommands =
      ([(2, .stopCapture)], { client with commands := [], taken := client.taken ++ [2] }) := by
    rw [Client.takeCommands, if_pos hopen, hcommands]
    rfl
  rw [Runtime.takeCommands, hpolling.ipc]
  simp only [IpcServer.takeCommands, serving, takeAll, htake]
  rfl

/-- An iteration in which the connection leaves a stop. -/
theorem pollOnce_stop (hpolling : Polling path (readable :: polls) client runtime)
    (hserve : ∀ status, client.serve codec status [] { pollin := true } = some later)
    (hcommands : later.commands = [(2, .stopCapture)]) (hopen : later.isOpen = true) :
    (runtime.pollOnce codec 0 false).2.ipc = some (serving path
      ({ later with commands := [], taken := later.taken ++ [2] }.complete codec 2
        (.ok .captureStopped))) := by
  obtain ⟨ready, hready, hpolled⟩ := hpolling.pollReady hserve
  rw [Runtime.pollOnce, hready]
  simp only [Runtime.serviceCommands, hpolled.takeCommands_stop hcommands hopen]
  rfl

end Polling

/-- A connection that has been answered a hello and a number of empty frames, and whose
peer takes nothing. -/
structure Filled (count : Nat) (reads : List ReadAnswer) (client : Client) : Prop where
  opened : client.isOpen = true
  pendingFrames : client.pendingFrames = []
  frames : client.frames = {}
  reads : client.stream.reads = reads
  writes : client.stream.writes = []
  negotiated : client.negotiated = true
  commands : client.commands = []
  queuedBytes : client.queuedBytes = 118 + 126 * count

theorem filled_greeted (reads : List ReadAnswer) : Filled 0 reads (greeted reads) :=
  ⟨rfl, rfl, rfl, rfl, rfl, rfl, rfl, rfl⟩

theorem Filled.sends {count : Nat} {line : List UInt8} {reads : List ReadAnswer}
    {client : Client} (hfilled : Filled count (.data (line ++ [newline]) :: reads) client) :
    client.Sends line reads :=
  ⟨hfilled.opened, hfilled.pendingFrames, hfilled.frames, hfilled.reads, hfilled.writes⟩

/-- One more empty frame is answered. -/
theorem Filled.blank {count : Nat} {reads : List ReadAnswer} {client : Client}
    (hfilled : Filled count (.data [newline] :: reads) client)
    (hroom : 118 + 126 * (count + 1) ≤ maxQueuedBytes) :
    ∃ later, (∀ status, client.serve talkCodec status [] { pollin := true } = some later) ∧
      Filled (count + 1) reads later := by
  have hlength : (blankReplyText ++ [newline]).length = 126 := by
    rw [List.length_append, blankReplyText_length]
    rfl
  have hbytes := hfilled.queuedBytes
  have hhandle : ∀ status, Client.handleFrame talkCodec status []
      { client with stream := { client.stream with reads } } [] =
        (Client.handling { client with stream := { client.stream with reads } } none).send
          blankReply (blankReplyText ++ [newline]) :=
    fun status => handleFrame_blank status []
  have hfits : (Client.handling { client with stream := { client.stream with reads } }
      none).queuedBytes + (blankReplyText ++ [newline]).length ≤ maxQueuedBytes := by
    rw [hlength]
    change client.queuedBytes + 126 ≤ maxQueuedBytes
    omega
  rw [Client.send_room hfits] at hhandle
  refine ⟨_, fun status => Client.serve_line (hfilled.sends : client.Sends [] reads)
    (by decide) (hhandle status) hfilled.opened, hfilled.opened, hfilled.pendingFrames,
    hfilled.frames, rfl, hfilled.writes, hfilled.negotiated, hfilled.commands, ?_⟩
  change client.queuedBytes + (blankReplyText ++ [newline]).length = _
  omega

/-- So many empty frames are answered, one in each iteration. -/
theorem Filled.polls {path : PathBuf} {polls : List Polled} (more : Nat) {count : Nat}
    {reads : List ReadAnswer} {client : Client} {runtime : Runtime PollingPlatform FakeDevice}
    (hpolling : Polling path (.replicate more readable ++ polls) client runtime)
    (hfilled : Filled count (.replicate more (.data [newline]) ++ reads) client)
    (hroom : 118 + 126 * (count + more) ≤ maxQueuedBytes) :
    ∃ later, Polling path polls later
        (runtime.loop talkCodec (.replicate more (.pollOnce 0 false))) ∧
      Filled (count + more) reads later := by
  induction more generalizing count client runtime with
  | zero => exact ⟨client, hpolling, hfilled⟩
  | succ more ih =>
      obtain ⟨later, hserve, hlater⟩ := hfilled.blank (by omega)
      have hpolled := hpolling.pollOnce hserve hlater.commands
      obtain ⟨last, hlast, hdone⟩ := ih hpolled hlater (by omega)
      refine ⟨last, hlast, ?_⟩
      rw [Nat.add_assoc, Nat.add_comm 1] at hdone
      exact hdone

/-- The client says hello, sends empty frames until its queue is almost full, and then a
stop, and reads nothing. -/
def overflowReads (count : Nat) : List ReadAnswer :=
  .data (helloText ++ [newline]) ::
    (.replicate count (.data [newline]) ++ [.data (stopText ++ [newline])])

def overflowStart (count : Nat) : Runtime PollingPlatform FakeDevice :=
  .start {} false
    ⟨.ready 1 [{}, { pollin := true }] :: readable :: (.replicate count readable ++ [readable])⟩
    (some (.bind (.ofString "/run/wiiland.sock") [.accepted (overflowReads count) [] true]))

def overflowPolls (count : Nat) : List (LoopStep PollingPlatform) :=
  .pollOnce 0 false :: .pollOnce 0 false ::
    (.replicate count (.pollOnce 0 false) ++ [.pollOnce 0 false])

theorem overflow_ready (count : Nat) :
    ∃ ready, (overflowStart count).pollReady talkCodec 0 false = (.ok none, ready) ∧
      Polling (.ofString "/run/wiiland.sock")
        (readable :: (.replicate count readable ++ [readable]))
        (.new { reads := overflowReads count }) ready :=
  ⟨_, Runtime.pollReady_dispatched rfl rfl rfl rfl (by decide) rfl, rfl, rfl, rfl, rfl⟩

theorem overflow_accepted (count : Nat) :
    Polling (.ofString "/run/wiiland.sock")
      (readable :: (.replicate count readable ++ [readable]))
      (.new { reads := overflowReads count })
      ((overflowStart count).pollOnce talkCodec 0 false).2 := by
  obtain ⟨ready, hready, hpolled⟩ := overflow_ready count
  rw [Runtime.pollOnce, hready]
  exact hpolled.serviceCommands rfl

theorem stop_answered :
    responseFrame talkCodec 2 .captureStopped = .ok (stopReplyText ++ [newline]) := by
  have hencode := encode_stopReply
  rw [stopReply] at hencode
  rw [responseFrame, hencode]

/-- There is no room left for the answer to a stop. -/
theorem complete_stop_overflows {client : Client} (hkept : client.immediateClose = false)
    (hfull : maxQueuedBytes < client.queuedBytes + 73) :
    (client.complete talkCodec 2 (.ok .captureStopped)).immediateClose = true := by
  rw [← Bool.not_eq_false]
  intro hlater
  obtain ⟨bytes, hframe, hroom⟩ := (Client.complete_kept_iff hkept).mp hlater
  rw [← Except.ok.inj (stop_answered.symm.trans hframe), stopReply_length] at hroom
  exact absurd hroom (Nat.not_le.mpr hfull)

theorem overflow_kept_of {count : Nat} (hroom : 118 + 126 * count ≤ maxQueuedBytes)
    (hfull : maxQueuedBytes < 118 + 126 * count + 73) :
    ∃ server client,
      ((overflowStart count).loop talkCodec (overflowPolls count)).ipc = some server ∧
      (2, client) ∈ server.clients ∧ client.immediateClose = true := by
  obtain ⟨later, hpolling, hfilled⟩ := Filled.polls count
    ((overflow_accepted count).pollOnce
      (fun status => serve_hello greets_talkCodec status [] _) rfl)
    (filled_greeted _) (by rwa [Nat.zero_add])
  have hhandle := fun status => @handleFrame_stop
    { later with stream := { later.stream with reads := [] } } hfilled.negotiated
    hfilled.commands status []
  have hserve := fun status => Client.serve_line hfilled.sends stopText_short (hhandle status)
    hfilled.opened
  have hlast := hpolling.pollOnce_stop hserve rfl hfilled.opened
  have hloop : (overflowStart count).loop talkCodec (overflowPolls count) =
      (Runtime.pollOnce talkCodec 0 false (Runtime.loop talkCodec
        (Runtime.pollOnce talkCodec 0 false
          (Runtime.pollOnce talkCodec 0 false (overflowStart count)).2).2
        (.replicate count (.pollOnce 0 false)))).2 := by
    rw [overflowPolls, Runtime.loop, List.foldl_cons, List.foldl_cons, List.foldl_append]
    rfl
  rw [← hloop] at hlast
  refine ⟨_, _, hlast, List.mem_singleton_self _, ?_⟩
  refine complete_stop_overflows (Client.isOpen_iff.mp hfilled.opened).2 ?_
  change maxQueuedBytes < later.queuedBytes + 73
  rwa [hfilled.queuedBytes, Nat.zero_add]

/-- An iteration is over, and the connection that the completion of the stop overflowed
is still there. -/
theorem overflow_kept :
    ∃ server client,
      ((overflowStart 2079).loop talkCodec (overflowPolls 2079)).ipc = some server ∧
        (2, client) ∈ server.clients ∧ client.immediateClose = true :=
  overflow_kept_of (by decide) (by decide)

section Meeting

variable {codec : Codec} {allowed : Completions} {path : PathBuf} {polls : List Polled}
variable {client : Client} {runtime ready : Runtime PollingPlatform FakeDevice}

theorem meets_pollOnce (hready : runtime.pollReady codec 0 false = (.ok none, ready))
    (hservices : ready.Services codec allowed) :
    runtime.Meets codec allowed (.pollOnce 0 false) := by
  intro later hlater
  rw [hready] at hlater
  cases hlater
  exact hservices

theorem Polling.services (hpolling : Polling path polls client runtime)
    (hcommands : client.commands = []) : runtime.Services codec allowed := by
  rw [Runtime.Services, hpolling.takeCommands hcommands]
  trivial

theorem Polling.services_stop (hpolling : Polling path polls client runtime)
    (hcommands : client.commands = [(2, .stopCapture)]) (hopen : client.isOpen = true)
    (hroom : client.queuedBytes + 73 ≤ maxQueuedBytes) :
    runtime.Services talkCodec (Client.hasRoom talkCodec) := by
  rw [Runtime.Services, hpolling.takeCommands_stop hcommands hopen]
  refine ⟨fun server other hserver hother => ?_, trivial⟩
  rw [← Option.some.inj hserver] at hother
  rw [(Prod.mk.inj (List.mem_singleton.mp hother)).2]
  exact ⟨_, stop_answered, by rwa [stopReply_length]⟩

end Meeting

/-- A stop that is answered while there is room. -/
theorem kept_stop :
    ((overflowStart 0).loop talkCodec (overflowPolls 0)).ipc.isSome ∧
      ∀ server, ((overflowStart 0).loop talkCodec (overflowPolls 0)).ipc = some server →
        ∀ entry ∈ server.clients, entry.2.immediateClose = false := by
  obtain ⟨first, hfirst, haccepted⟩ := overflow_ready 0
  obtain ⟨second, hsecond, hgreeted⟩ := (overflow_accepted 0).pollReady
    (fun status => serve_hello greets_talkCodec status [] _)
  have hhello := (overflow_accepted 0).pollOnce
    (fun status => serve_hello greets_talkCodec status [] _) rfl
  have hhandle := fun status => @handleFrame_stop (greeted []) rfl rfl status []
  have hserve := fun status => Client.serve_line (filled_greeted _).sends stopText_short
    (hhandle status) rfl
  obtain ⟨third, hthird, hstopping⟩ := hhello.pollReady hserve
  have hlast := hhello.pollOnce_stop hserve rfl rfl
  refine ⟨Option.isSome_iff_exists.mpr ⟨_, hlast⟩,
    Runtime.kept_loop talkCodec {} false _ _ _ (overflowPolls 0) ?_⟩
  exact ⟨meets_pollOnce hfirst (haccepted.services rfl),
    meets_pollOnce hsecond (hgreeted.services rfl),
    meets_pollOnce hthird (hstopping.services_stop rfl rfl (by decide)), trivial⟩

end Daemon

end Wiiland
