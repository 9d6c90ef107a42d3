/-
One whole frame at a time.  A connection whose peer sends a frame and reads nothing
handles that frame in its turn and keeps what it answers.
-/
import Wiiland.Daemon.ServerTurns
import Wiiland.Ipc.Framing

namespace Wiiland

namespace Daemon

open Ipc

namespace Client

variable {codec : Codec} {status : Status} {devices : List DeviceInfo} {client later : Client}

/-- Handling a frame leaves the stream and what waits from it alone. -/
def SameInput (client later : Client) : Prop :=
  later.stream = client.stream ∧ later.frames = client.frames ∧
    later.pendingFrames = client.pendingFrames

theorem sameInput_replies {id : Option UInt64} (hreply : Replies codec id client later) :
    SameInput client later := by
  cases hreply with
  | sent message bytes _ _ =>
      rw [send, queueEncoded]
      split <;> exact ⟨rfl, rfl, rfl⟩
  | lost => exact ⟨rfl, rfl, rfl⟩

theorem sameInput_handleFrame (frame : List UInt8) :
    SameInput client (client.handleFrame codec status devices frame) := by
  have hhandles := @handles_handleFrame codec status devices client frame
  generalize client.handleFrame codec status devices frame = later at hhandles
  generalize frameId codec frame = id at hhandles
  cases hhandles with
  | undecoded hreply => exact (sameInput_replies hreply :)
  | accepted id _ hreply => exact (sameInput_replies hreply :)
  | refused id _ hreply => exact (sameInput_replies hreply :)
  | answered id input devices _ hreply => exact (sameInput_replies hreply :)
  | overrun id _ => exact ⟨rfl, rfl, rfl⟩
  | deferred id command _ => exact ⟨rfl, rfl, rfl⟩

/-- A connection between frames, whose peer sends one line and takes nothing. -/
structure Sends (line : List UInt8) (reads : List ReadAnswer) (client : Client) : Prop where
  opened : client.isOpen = true
  pendingFrames : client.pendingFrames = []
  frames : client.frames = {}
  reads : client.stream.reads = .data (line ++ [newline]) :: reads
  writes : client.stream.writes = []

theorem writeReady_blocked (hwrites : client.stream.writes = []) :
    client.writeReady = (true, client) := by
  have hblocked : ∀ bytes, client.stream.write bytes = (.wouldBlock, client.stream) := by
    intro bytes
    rw [UnixStream.write, hwrites]
  rw [writeReady, writeLoop, if_neg (by decide)]
  split
  · rfl
  · simp only [hblocked]

theorem processPending_line (line : List UInt8) (hpending : client.pendingFrames = [line])
    (budget : Nat) :
    client.processPending codec status devices (budget + 1) = (budget,
      handleFrame codec status devices { client with pendingFrames := [] } line) := by
  have hsame := @sameInput_handleFrame codec status devices
    { client with pendingFrames := [] } line
  rw [processPending, hpending]
  simp only
  generalize handleFrame codec status devices _ line = later at hsame
  split
  · cases budget with
    | zero => rfl
    | succ budget => rw [processPending, hsame.2.2]
  · rfl

theorem processPending_pair {line other : List UInt8} {middle : Client}
    (hpending : client.pendingFrames = [line, other])
    (hmiddle : handleFrame codec status devices { client with pendingFrames := [other] } line =
      middle) (hopen : middle.isOpen = true) (budget : Nat) :
    client.processPending codec status devices (budget + 1 + 1) =
      (budget, handleFrame codec status devices { middle with pendingFrames := [] } other) := by
  have hwaits : middle.pendingFrames = [other] := by
    rw [← hmiddle]
    exact (sameInput_handleFrame line).2.2
  rw [processPending, hpending]
  simp only [hmiddle]
  rw [if_pos hopen, processPending_line other hwaits]

/-- Some whole lines of one read wait for their turn at once. -/
theorem readClient_lines {lines : List (List UInt8)} {reads : List ReadAnswer}
    (hopened : client.isOpen = true) (hpending : client.pendingFrames = [])
    (hframes : client.frames = {})
    (hreads : client.stream.reads = .data (Lines.glue newline lines []) :: reads)
    (hlines : ∀ line ∈ lines, Short line) (hsome : Lines.glue newline lines [] ≠ [])
    (hlength : (Lines.glue newline lines []).length < readChunk) :
    client.readClient codec status devices = (true,
      (processPending codec status devices frameBudget { client with
        stream := { client.stream with reads }, pendingFrames := lines }).2) := by
  have hread : client.stream.read =
      (.data (Lines.glue newline lines []), { client.stream with reads }) := by
    rw [UnixStream.read, hreads]
    simp only
    rw [List.take_of_length_le hlength.le]
  have hstrip : lines.map stripCr = lines := by
    rw [List.map_congr_left fun line hline => (hlines line hline).stripCr]
    exact List.map_id _
  have hpush : client.frames.push (Lines.glue newline lines []) = (.ok lines, {}) := by
    have hwhole := @FrameBuffer.push_lines lines
      fun line hline => ⟨(hlines line hline).1, (hlines line hline).fits⟩
    rw [hframes]
    rwa [hstrip] at hwhole
  have hidle : processPending codec status devices frameBudget client =
      (frameBudget, client) := by
    rw [frameBudget, processPending, hpending]
  rw [readClient, hidle]
  simp only [hpending, hopened]
  rw [if_neg (by decide)]
  rw [show readBudget = 7 + 1 from rfl, readLoop, hread]
  simp only [if_neg hsome, hpush, hpending, List.nil_append]
  rw [if_pos (by rw [decide_eq_true hlength, Bool.or_true])]
  rw [← hframes]

/-- A part of a line waits for the rest of it, or is refused. -/
theorem readClient_part {part : List UInt8} {reads : List ReadAnswer}
    (hopened : client.isOpen = true) (hpending : client.pendingFrames = [])
    (hreads : client.stream.reads = .data part :: reads) (hpart : newline ∉ part)
    (hsome : part ≠ []) (hlength : part.length < readChunk) :
    client.readClient codec status devices = (true,
      if maxFrameBytes < FrameBuffer.restLen client.frames.bytes part then
        refuse codec { client with stream := { client.stream with reads } }
          (.frameTooLarge (FrameBuffer.restLen client.frames.bytes part))
      else
        { client with
          stream := { client.stream with reads }
          frames := ⟨client.frames.bytes ++ part⟩ }) := by
  have hread : client.stream.read = (.data part, { client.stream with reads }) := by
    rw [UnixStream.read, hreads]
    simp only
    rw [List.take_of_length_le hlength.le]
  have hidle : ∀ {idle : Client}, idle.pendingFrames = [] →
      processPending codec status devices frameBudget idle = (frameBudget, idle) := by
    intro idle hnone
    rw [frameBudget, processPending, hnone]
  have hreads : (frameBudget == 0 || client.pendingFrames != [] || !client.isOpen) = false := by
    rw [hpending, hopened]
    rfl
  rw [readClient, hidle hpending]
  simp only [hreads, Bool.false_eq_true, if_false]
  rw [show readBudget = 7 + 1 from rfl, readLoop, hread]
  simp only [if_neg hsome, FrameBuffer.push_part hpart hsome]
  by_cases hlong : maxFrameBytes < FrameBuffer.restLen client.frames.bytes part
  · simp only [if_pos hlong]
  · simp only [if_neg hlong, hpending, List.append_nil]
    rw [hidle rfl, if_pos (by rw [decide_eq_true hlength, Bool.or_true])]

theorem pair_length {line other : List UInt8} (hline : Short line) (hother : Short other) :
    (Lines.glue newline [line, other] []).length < readChunk := by
  have hfirst := hline.2.2
  have hsecond := hother.2.2
  simp only [Lines.glue, List.flatMap_cons, List.flatMap_nil, List.length_append,
    List.length_cons, List.length_nil, readChunk]
  omega

theorem readClient_line {line : List UInt8} {reads : List ReadAnswer}
    (hsends : Sends line reads client) (hshort : Short line) :
    client.readClient codec status devices = (true,
      handleFrame codec status devices
        { client with stream := { client.stream with reads } } line) := by
  obtain ⟨hopened, hpending, hframes, hreads, _⟩ := hsends
  have hglue : Lines.glue newline [line] [] = line ++ [newline] := by
    rw [Lines.glue, List.flatMap_singleton, List.append_nil]
  have hlength : (Lines.glue newline [line] []).length < readChunk := by
    rw [hglue, List.length_append]
    exact Nat.lt_of_le_of_lt (Nat.succ_le_succ hshort.2.2) (by decide)
  rw [← hglue] at hreads
  rw [readClient_lines hopened hpending hframes hreads (List.forall_mem_singleton.mpr hshort)
    (by simp [hglue]) hlength]
  rw [show frameBudget = 7 + 1 from rfl, processPending_line line rfl]
  simp only
  rw [← hpending]

/-- A connection that is open after its reads, and whose peer takes nothing, is kept. -/
theorem serve_blocked {revents : Revents}
    (hread : client.readTurn codec status devices revents = (true, later))
    (hopen : later.isOpen = true) (hwrites : later.stream.writes = []) :
    client.serve codec status devices revents = some later := by
  obtain ⟨hclosing, hkept⟩ := isOpen_iff.mp hopen
  have hwrite : writeTurn true later revents = (true, later) := by
    rw [writeTurn]
    split
    · exact writeReady_blocked hwrites
    · rfl
  rw [serve, hread]
  simp only [hkept, Bool.not_false, Bool.and_true, hwrite, hclosing, Bool.false_and, if_true]

/-- The turn of such a connection handles the line. -/
theorem serve_line {line : List UInt8} {reads : List ReadAnswer}
    (hsends : Sends line reads client) (hshort : Short line)
    (hlater : handleFrame codec status devices
      { client with stream := { client.stream with reads } } line = later)
    (hopen : later.isOpen = true) :
    client.serve codec status devices { pollin := true } = some later := by
  have hsame := @sameInput_handleFrame codec status devices
    { client with stream := { client.stream with reads } } line
  rw [hlater] at hsame
  refine serve_blocked ?_ hopen ?_
  · rw [readTurn, hsends.opened, readClient_line hsends hshort, hlater]
    rfl
  · rw [hsame.1]
    exact hsends.writes

theorem send_room {message : ServerMessage} {bytes : List UInt8}
    (hroom : client.queuedBytes + bytes.length ≤ maxQueuedBytes) :
    client.send message bytes =
      { client with
        history := client.history ++ [(message, bytes)]
        queuedBytes := client.queuedBytes + bytes.length
        output := client.output ++ [⟨bytes, 0⟩] } := by
  rw [send, queueEncoded, if_neg (Nat.not_lt.mpr hroom)]

end Client

namespace IpcServer

variable {codec : Codec} {status : PathBuf → Status} {devices : List DeviceInfo}
variable {server : IpcServer}

/-- The listener has one connection, and it is the first. -/
theorem handleReady_accept (path : PathBuf) (reads : List ReadAnswer)
    (writes : List WriteAnswer) :
    (bind path [.accepted reads writes true]).handleReady codec status devices listenerToken
        { pollin := true } =
      (.ok (), { path, clients := [(2, .new { reads, writes })], nextToken := 3 }) := rfl

/-- The turn of a connection that is kept. -/
theorem handleReady_serve {token : UInt64} {client later : Client} {revents : Revents}
    (htoken : token ≠ listenerToken) (hfind : server.find token = some client)
    (hserve : client.serve codec (status server.path) devices revents = some later) :
    server.handleReady codec status devices token revents =
      (.ok (), server.modify token fun _ => later) := by
  rw [handleReady, if_neg htoken, hfind]
  simp only [hserve]

theorem handleReady_only {token : UInt64} {client later : Client}
    (htoken : token ≠ listenerToken) (hclients : server.clients = [(token, client)])
    (hserve : client.serve codec (status server.path) devices { pollin := true } = some later) :
    server.handleReady codec status devices token { pollin := true } =
      (.ok (), { server with clients := [(token, later)] }) := by
  have hfind : server.find token = some client := by
    rw [find, hclients, List.lookup_cons, beq_self_eq_true]
  rw [handleReady_serve htoken hfind hserve]
  simp only [modify, hclients, List.map_cons, List.map_nil, if_true]

end IpcServer

/-- A library that knows some values by their texts, and one complaint about all others. -/
def tableSerde {A : Type} [DecidableEq A] (entries : List (A × List UInt8))
    (complaint : String) : Serde A where
  toVec value :=
    match entries.find? fun entry => entry.1 = value with
    | some entry => .ok entry.2
    | none => .error "unsupported value"
  fromSlice text :=
    match entries.find? fun entry => entry.2 = text with
    | some entry => .ok entry.1
    | none => .error complaint

theorem tableSerde_head {A : Type} [DecidableEq A] (value : A) (text : List UInt8)
    (entries : List (A × List UInt8)) (complaint : String) :
    (tableSerde ((value, text) :: entries) complaint).toVec value = .ok text := by
  simp only [tableSerde, List.find?_cons, decide_true]

theorem tableSerde_tail {A : Type} [DecidableEq A] {value other : A} (hother : other ≠ value)
    (text : List UInt8) (entries : List (A × List UInt8)) (complaint : String) :
    (tableSerde ((other, text) :: entries) complaint).toVec value =
      (tableSerde entries complaint).toVec value := by
  simp only [tableSerde, List.find?_cons, decide_eq_false hother]

theorem encodeFrame_long {A : Type} {serde : Serde A} {value : A} {json : List UInt8}
    (hjson : serde.toVec value = .ok json) (hlong : maxFrameBytes < json.length) :
    encodeFrame serde value = .error (.frameTooLarge json.length) := by
  rw [encodeFrame, hjson]
  exact if_pos hlong

theorem decodeFrame_short {A : Type} {serde : Serde A} {text : List UInt8}
    (hshort : Short text) :
    decodeFrame serde text = match serde.fromSlice text with
      | .error complaint => .error (.json complaint)
      | .ok value => .ok value := by
  cases hread : serde.fromSlice text with
  | error complaint =>
      rw [decodeFrame, if_neg (getLast_ne_of_not_mem hshort.1), hshort.stripCr,
        if_neg (Nat.not_lt.mpr hshort.length_le), hread]
  | ok value =>
      rw [decodeFrame, if_neg (getLast_ne_of_not_mem hshort.1), hshort.stripCr,
        if_neg (Nat.not_lt.mpr hshort.length_le), hread]

def helloText : List UInt8 := textBytes
  "\x7b\"id\":1,\"command\":\x7b\"type\":\"hello\",\"min_major\":1,\"max_major\":1\x7d\x7d"

def stopText : List UInt8 :=
  textBytes "\x7b\"id\":2,\"command\":\x7b\"type\":\"stop_capture\"\x7d\x7d"

/-- The complaint about an empty frame. -/
def blankComplaint : String := "EOF while parsing a value at line 1 column 0"

def helloReply : ServerMessage := .response 1 (.hello protocolMajor protocolMinor daemonVersion)

def stopReply : ServerMessage := .response 2 .captureStopped

def blankReply : ServerMessage := .error none (.json blankComplaint)

/-- The complaint about five parts of an overlong line. -/
def overlongReply : ServerMessage := .error none (.frameTooLarge 81915)

def helloReplyText : List UInt8 :=
  textBytes "\x7b\"type\":\"response\",\"value\":\x7b\"id\":1,\"result\":\x7b" ++
  textBytes "\"type\":\"hello\",\"value\":\x7b\"major\":1,\"minor\":1," ++
  textBytes "\"daemon_version\":\"2.0.0\"\x7d\x7d\x7d\x7d"

def stopReplyText : List UInt8 := textBytes
  "\x7b\"type\":\"response\",\"value\":\x7b\"id\":2,\"result\":\x7b\"type\":\"capture_stopped\"\x7d\x7d\x7d"

def blankReplyText : List UInt8 :=
  textBytes "\x7b\"type\":\"error\",\"value\":\x7b\"id\":null,\"error\":\x7b" ++
  textBytes "\"code\":\"invalid_json\",\"message\":" ++
  textBytes "\"EOF while parsing a value at line 1 column 0\"\x7d\x7d\x7d"

def overlongReplyText : List UInt8 :=
  textBytes "\x7b\"type\":\"error\",\"value\":\x7b\"id\":null,\"error\":\x7b" ++
  textBytes "\"code\":\"frame_too_large\",\"message\":" ++
  textBytes "\"JSON frame is 81915 bytes, maximum is 65536\"\x7d\x7d\x7d"

/-- The library on a hello, a stop and an empty frame, and on what answers them and an
overlong line. -/
def talkCodec : Codec where
  requests :=
    tableSerde [(⟨1, .hello 1 1⟩, helloText), (⟨2, .stopCapture⟩, stopText)] blankComplaint
  messages := tableSerde [(helloReply, helloReplyText), (stopReply, stopReplyText),
    (blankReply, blankReplyText), (overlongReply, overlongReplyText)] "expected value"

theorem helloText_short : Short helloText := by
  rw [show helloText = _ from textBytes_ofList _]
  decide

theorem stopText_short : Short stopText := by
  rw [show stopText = _ from textBytes_ofList _]
  decide

theorem helloReplyText_length : helloReplyText.length = 117 := by
  rw [helloReplyText, List.length_append, List.length_append, textBytes_ofList,
    textBytes_ofList, textBytes_ofList]
  rfl

theorem stopReplyText_length : stopReplyText.length = 72 := by
  rw [show stopReplyText = _ from textBytes_ofList _]
  rfl

theorem stopReply_length : (stopReplyText ++ [newline]).length = 73 := by
  rw [List.length_append, stopReplyText_length]
  rfl

theorem blankReplyText_length : blankReplyText.length = 125 := by
  rw [blankReplyText, List.length_append, List.length_append, textBytes_ofList,
    textBytes_ofList, textBytes_ofList]
  rfl

theorem overlongReplyText_length : overlongReplyText.length = 127 := by
  rw [overlongReplyText, List.length_append, List.length_append, textBytes_ofList,
    textBytes_ofList, textBytes_ofList]
  rfl

theorem helloText_ne_stopText : helloText ≠ stopText := by
  rw [show helloText = _ from textBytes_ofList _, show stopText = _ from textBytes_ofList _]
  decide

theorem helloText_ne_nil : helloText ≠ [] := by
  rw [show helloText = _ from textBytes_ofList _]
  decide

theorem stopText_ne_nil : stopText ≠ [] := by
  rw [show stopText = _ from textBytes_ofList _]
  decide

theorem decode_stop : decodeFrame talkCodec.requests stopText = .ok ⟨2, .stopCapture⟩ := by
  rw [decodeFrame_short stopText_short]
  simp [talkCodec, tableSerde, helloText_ne_stopText]

theorem decode_blank : decodeFrame talkCodec.requests [] = .error (.json blankComplaint) := by
  rw [decodeFrame_short (by decide)]
  simp [talkCodec, tableSerde, helloText_ne_nil, stopText_ne_nil]

/-- The library reads a hello and writes the answer to it. -/
structure Greets (codec : Codec) : Prop where
  decode : decodeFrame codec.requests helloText = .ok ⟨1, .hello 1 1⟩
  encode : encodeFrame codec.messages helloReply = .ok (helloReplyText ++ [newline])

theorem greets_table (requests : List (Request × List UInt8))
    (messages : List (ServerMessage × List UInt8)) (complaint other : String) :
    Greets ⟨tableSerde ((⟨1, .hello 1 1⟩, helloText) :: requests) complaint,
      tableSerde ((helloReply, helloReplyText) :: messages) other⟩ where
  decode := by
    rw [decodeFrame_short helloText_short]
    simp [tableSerde]
  encode := by
    refine encodeFrame_eq_ok.mpr ⟨helloReplyText, tableSerde_head .., ?_, rfl⟩
    rw [helloReplyText_length]
    decide

theorem greets_talkCodec : Greets talkCodec := greets_table _ _ _ _

theorem encode_stopReply :
    encodeFrame talkCodec.messages stopReply = .ok (stopReplyText ++ [newline]) := by
  refine encodeFrame_eq_ok.mpr ⟨stopReplyText,
    by simp [talkCodec, tableSerde, helloReply, stopReply], ?_, rfl⟩
  rw [stopReplyText_length]
  decide

theorem encode_blankReply :
    encodeFrame talkCodec.messages blankReply = .ok (blankReplyText ++ [newline]) := by
  refine encodeFrame_eq_ok.mpr ⟨blankReplyText,
    by simp [talkCodec, tableSerde, helloReply, stopReply, blankReply], ?_, rfl⟩
  rw [blankReplyText_length]
  decide

theorem encode_overlongReply :
    encodeFrame talkCodec.messages overlongReply = .ok (overlongReplyText ++ [newline]) := by
  have hother : blankReply ≠ overlongReply := by decide
  refine encodeFrame_eq_ok.mpr ⟨overlongReplyText, ?_, ?_, rfl⟩
  · rw [talkCodec, tableSerde_tail (by simp [helloReply, overlongReply]),
      tableSerde_tail (by simp [stopReply, overlongReply]), tableSerde_tail hother, tableSerde_head]
  · rw [overlongReplyText_length]
    decide

/-- A connection whose hello is answered and whose peer takes nothing. -/
def greeted (reads : List ReadAnswer) : Client where
  stream := { reads }
  output := [⟨helloReplyText ++ [newline], 0⟩]
  queuedBytes := 118
  negotiated := true
  history := [(helloReply, helloReplyText ++ [newline])]
  handled := [⟨some 1, true⟩]

/-- The hello of a new connection, while other frames wait. -/
theorem handleFrame_hello_first {codec : Codec} (hgreets : Greets codec) (status : Status)
    (devices : List DeviceInfo) (stream : UnixStream) (waiting : List (List UInt8)) :
    ({ Client.new stream with pendingFrames := waiting } : Client).handleFrame codec status
      devices helloText = { greeted [] with stream, pendingFrames := waiting } := by
  have hlength : (helloReplyText ++ [newline]).length = 118 := by
    rw [List.length_append, helloReplyText_length]
    rfl
  have hreply := hgreets.encode
  rw [helloReply] at hreply
  simp only [Client.handleFrame, hgreets.decode, Client.handling, Client.new, Client.negotiate,
    Client.queueResponse, hreply]
  rw [if_neg Bool.false_ne_true, if_pos (by decide), Client.send_room, hlength]
  · rfl
  · rw [hlength]
    exact (by decide : 0 + 118 ≤ maxQueuedBytes)

theorem handleFrame_hello {codec : Codec} (hgreets : Greets codec) (status : Status)
    (devices : List DeviceInfo) (reads : List ReadAnswer) :
    (Client.new { reads }).handleFrame codec status devices helloText = greeted reads :=
  handleFrame_hello_first hgreets status devices { reads } []

theorem sends_new {line : List UInt8} (reads : List ReadAnswer) :
    Client.Sends line reads (.new { reads := .data (line ++ [newline]) :: reads }) :=
  ⟨rfl, rfl, rfl, rfl, rfl⟩

/-- A hello that is answered leaves the connection open. -/
theorem serve_hello {codec : Codec} (hgreets : Greets codec) (status : Status)
    (devices : List DeviceInfo) (reads : List ReadAnswer) :
    (Client.new { reads := .data (helloText ++ [newline]) :: reads }).serve codec status
        devices { pollin := true } = some (greeted reads) :=
  Client.serve_line (sends_new reads) helloText_short
    (handleFrame_hello hgreets status devices reads) rfl

/-- The server of a connection that has the token 2. -/
def serving (path : PathBuf) (client : Client) : IpcServer where
  path := path
  clients := [(2, client)]
  nextToken := 3

/-- The server of two connections, with the tokens 2 and 3. -/
def servingTwo (path : PathBuf) (first second : Client) : IpcServer where
  path := path
  clients := [(2, first), (3, second)]
  nextToken := 4

section Serving

open IpcServer

variable {codec : Codec} {allowed : Completions} {path : PathBuf} {client later : Client}
variable {first second : Client}

theorem turn_handleReady {server later : IpcServer} {status : PathBuf → Status}
    {devices : List DeviceInfo} {token : UInt64} {revents : Revents}
    (hready : server.handleReady codec status devices token revents = (.ok (), later)) :
    Turn codec allowed server later := by
  have hturn := @Turn.handleReady codec allowed server status devices token revents
  rw [hready] at hturn
  exact hturn

theorem serving_serve (status : PathBuf → Status) (devices : List DeviceInfo)
    (hserve : client.serve codec (status path) devices { pollin := true } = some later) :
    Turn codec allowed (serving path client) (serving path later) := by
  exact turn_handleReady (@handleReady_only codec status devices (serving path client) 2 client
    later (by decide) rfl hserve)

theorem servingTwo_first (status : PathBuf → Status) (devices : List DeviceInfo)
    (hserve : first.serve codec (status path) devices { pollin := true } = some later) :
    (servingTwo path first second).handleReady codec status devices 2 { pollin := true } =
      (.ok (), servingTwo path later second) :=
  @handleReady_serve codec status devices (servingTwo path first second) 2 first later
    { pollin := true } (by decide) rfl hserve

theorem servingTwo_second (status : PathBuf → Status) (devices : List DeviceInfo)
    (hserve : second.serve codec (status path) devices { pollin := true } = some later) :
    (servingTwo path first second).handleReady codec status devices 3 { pollin := true } =
      (.ok (), servingTwo path first later) :=
  @handleReady_serve codec status devices (servingTwo path first second) 3 second later
    { pollin := true } (by decide) rfl hserve

theorem serving_accept (reads : List ReadAnswer) (writes : List WriteAnswer) :
    Turn codec allowed (bind path [.accepted reads writes true])
      (serving path (.new { reads, writes })) :=
  .handleReady (fun _ => ⟨daemonVersion, 1, 0, false, ""⟩) [] listenerToken { pollin := true }

theorem serving_take : Turn codec allowed (serving path client)
    (serving path client.takeCommands.2) := .takeCommands

theorem serving_complete {id : UInt64} {result : Except ProtocolError ResponseResult}
    (hallowed : allowed client id result) : Turn codec allowed (serving path client)
      (serving path (client.complete codec id result)) := by
  refine .completeCommand 2 id result fun other hother => ?_
  rw [(Prod.mk.inj (List.mem_singleton.mp hother)).2]
  exact hallowed

theorem serving_hello (hgreets : Greets codec) (reads : List ReadAnswer) :
    Turns codec allowed
      (bind path [.accepted (.data (helloText ++ [newline]) :: reads) [] true])
      (serving path (greeted reads)) :=
  .tail (.single (serving_accept _ _))
    (serving_serve (fun _ => ⟨daemonVersion, 1, 0, false, ""⟩) [] (serve_hello hgreets ..))

end Serving

/-- An empty frame is answered with a complaint. -/
theorem handleFrame_blank {client : Client} (status : Status) (devices : List DeviceInfo) :
    client.handleFrame talkCodec status devices [] =
      (client.handling none).send blankReply (blankReplyText ++ [newline]) := by
  have hreply := encode_blankReply
  simp only [Client.handleFrame, decode_blank, Client.queue]
  rw [show ServerMessage.error none (.json blankComplaint) = blankReply from rfl, hreply]

/-- A stop waits for the reactor. -/
theorem handleFrame_stop {client : Client} (hnegotiated : client.negotiated = true)
    (hcommands : client.commands = []) (status : Status) (devices : List DeviceInfo) :
    client.handleFrame talkCodec status devices stopText =
      { client.handling (some 2) with commands := [(2, .stopCapture)] } := by
  have hlater : (client.handling (some 2)).negotiated = true := hnegotiated
  simp only [Client.handleFrame, decode_stop, hlater, if_true, Client.handleCommand,
    Client.defer, Client.captureRefused, Bool.false_eq_true, if_false]
  rw [if_neg (by rw [show (client.handling (some 2)).commands = [] from hcommands]; decide)]
  rw [show (client.handling (some 2)).commands = [] from hcommands]
  rfl

theorem stopReply_room {client : Client} (hqueued : client.queuedBytes ≤ 300) :
    client.queuedBytes + (stopReplyText ++ [newline]).length ≤ maxQueuedBytes := by
  rw [stopReply_length]
  exact (Nat.add_le_add_right hqueued 73).trans (by decide)

/-- A completed stop is answered. -/
theorem complete_stop {client : Client} (hqueued : client.queuedBytes ≤ 300) :
    client.complete talkCodec 2 (.ok .captureStopped) = { client with
      taken := client.taken.erase 2
      capture := []
      history := client.history ++ [(stopReply, stopReplyText ++ [newline])]
      queuedBytes := client.queuedBytes + (stopReplyText ++ [newline]).length
      output := client.output ++ [⟨stopReplyText ++ [newline], 0⟩] } := by
  have hreply := encode_stopReply
  rw [stopReply] at hreply
  rw [Client.complete]
  simp only [Client.leaseRefused, Bool.false_eq_true, if_false, Client.lease,
    Client.queueResponse, hreply]
  rw [Client.send_room]
  · rfl
  · exact stopReply_room hqueued

end Daemon

end Wiiland
