/-
However a stream of requests is cut into reads, and whenever its connection is served,
the same requests are handled and answered alike up to the first overlong line.
-/
import Wiiland.Daemon.Packing
import Wiiland.Daemon.QueueAccount

namespace Wiiland

namespace Daemon

open Ipc

/-- The bytes that some reads of a stream deliver. -/
def delivered : List ReadAnswer → List UInt8
  | [] => []
  | .data bytes :: reads => bytes.take readChunk ++ delivered reads
  | _ :: reads => delivered reads

theorem length_le_of_mem_cut (stream : List UInt8) :
    (∀ line ∈ (Lines.cut newline stream).1, line.length ≤ stream.length) ∧
      (Lines.cut newline stream).2.length ≤ stream.length := by
  induction stream with
  | nil => exact ⟨fun line hline => absurd hline List.not_mem_nil, Nat.le_refl _⟩
  | cons byte stream ih =>
      obtain ⟨hlines, hrest⟩ := ih
      rw [Lines.cut]
      split
      · refine ⟨fun line hline => ?_, Nat.le_succ_of_le hrest⟩
        rcases List.mem_cons.mp hline with rfl | hmem
        · exact Nat.zero_le _
        · exact Nat.le_succ_of_le (hlines line hmem)
      · cases hcut : (Lines.cut newline stream).1 with
        | nil =>
            exact ⟨fun line hline => absurd hline List.not_mem_nil, Nat.succ_le_succ hrest⟩
        | cons first lines =>
            rw [hcut] at hlines
            refine ⟨fun line hline => ?_, Nat.le_succ_of_le hrest⟩
            rcases List.mem_cons.mp hline with rfl | hmem
            · exact Nat.succ_le_succ (hlines first List.mem_cons_self)
            · exact Nat.le_succ_of_le (hlines line (List.mem_cons_of_mem _ hmem))

theorem fits_of_length {line : List UInt8} (hshort : line.length ≤ maxFrameBytes) :
    Ipc.Fits line := by
  rw [Ipc.Fits, stripCr_length]
  exact (Nat.sub_le _ _).trans hshort

/-- A stream that is shorter than a frame may be has no overlong line. -/
theorem acceptable_short {stream : List UInt8} (hshort : stream.length ≤ maxFrameBytes) :
    Acceptable stream := by
  obtain ⟨hlines, hrest⟩ := length_le_of_mem_cut stream
  exact ⟨fun line hline => fits_of_length ((hlines line hline).trans hshort),
    fits_of_length (hrest.trans hshort)⟩

theorem delivered_data {bytes : List UInt8} (hlength : bytes.length ≤ readChunk)
    (reads : List ReadAnswer) : delivered (.data bytes :: reads) = bytes ++ delivered reads := by
  rw [delivered, List.take_of_length_le hlength]

theorem fittingFrames_append {first : List UInt8}
    (hfits : ∀ line ∈ (Lines.cut newline first).1, Ipc.Fits line) (second : List UInt8) :
    fittingFrames (first ++ second) = (Lines.cut newline first).1.map stripCr ++
      fittingFrames ((Lines.cut newline first).2 ++ second) := by
  have hall : ∀ line ∈ (Lines.cut newline first).1, decide (Ipc.Fits line) = true :=
    fun line hline => decide_eq_true (hfits line hline)
  rw [fittingFrames, Lines.cut_append, List.takeWhile_append_of_pos hall, List.map_append]
  rfl

theorem fittingFrames_acceptable {stream : List UInt8} (haccept : Acceptable stream) :
    fittingFrames stream = (Lines.cut newline stream).1.map stripCr := by
  have hall : ∀ line ∈ (Lines.cut newline stream).1, decide (Ipc.Fits line) = true :=
    fun line hline => decide_eq_true (haccept.1 line hline)
  rw [fittingFrames, List.takeWhile_eq_self_iff.mpr hall]

/-- A line that begins too long ends no fitting frame. -/
theorem fittingFrames_overlong {start : List UInt8} (hstart : newline ∉ start)
    (hlong : ¬Ipc.Fits start) (more : List UInt8) : fittingFrames (start ++ more) = [] := by
  rw [fittingFrames, Lines.cut_carry hstart]
  cases (Lines.cut newline more).1 with
  | nil => rfl
  | cons line lines =>
      have hlonger : ¬Ipc.Fits (start ++ line) := fun hfits => hlong hfits.of_append
      rw [List.takeWhile_cons_of_neg (by simpa using hlonger)]
      rfl

/-- A read is shorter than a frame may be, so a push that refuses one has met the
overlong line first: the frames before it came with earlier reads. -/
theorem fittingFrames_refused {consumed chunk : List UInt8} (haccept : Acceptable consumed)
    (hchunk : chunk.length ≤ readChunk)
    (hrefused : ¬Acceptable ((Lines.cut newline consumed).2 ++ chunk)) (more : List UInt8) :
    fittingFrames (consumed ++ (chunk ++ more)) =
        (Lines.cut newline consumed).1.map stripCr ∧
      ¬Acceptable (consumed ++ (chunk ++ more)) := by
  have hrest := (Lines.not_mem_cut newline consumed).2
  constructor
  · have hnone : fittingFrames ((Lines.cut newline consumed).2 ++ (chunk ++ more)) = [] := by
      by_cases hnewline : newline ∈ chunk
      · obtain ⟨part, after, rfl, hpart⟩ := List.eq_append_cons_of_mem hnewline
        have hstart : newline ∉ (Lines.cut newline consumed).2 ++ part := by
          rw [List.mem_append, not_or]
          exact ⟨hrest, hpart⟩
        have hafter : Acceptable after := by
          refine acceptable_short (le_trans ?_ (hchunk.trans (by decide)))
          rw [List.length_append, List.length_cons]
          omega
        rw [← List.append_assoc, acceptable_line hstart] at hrefused
        rw [List.append_assoc, ← List.append_assoc]
        exact fittingFrames_overlong hstart (fun hfits => hrefused ⟨hfits, hafter⟩) _
      · have hstart : newline ∉ (Lines.cut newline consumed).2 ++ chunk := by
          rw [List.mem_append, not_or]
          exact ⟨hrest, hnewline⟩
        rw [acceptable_rest hstart] at hrefused
        rw [← List.append_assoc]
        exact fittingFrames_overlong hstart hrefused more
    rw [fittingFrames_append haccept.1, hnone, List.append_nil]
  · intro hwhole
    have hlater := ((FrameBuffer.acceptable_append consumed _).mp hwhole).2
    rw [← List.append_assoc] at hlater
    exact hrefused (FrameBuffer.acceptable_of_append hlater)

namespace Client

variable {codec : Codec} {status : Status} {devices : List DeviceInfo} {ids : List UInt64}
  {client first second later : Client} {stream consumed : List UInt8} {done : List (List UInt8)}

/-- The commands of a connection are of some ids. -/
structure Owes (ids : List UInt64) (client : Client) : Prop where
  commands : ∀ command ∈ client.commands, command.1 ∈ ids
  taken : ∀ id ∈ client.taken, id ∈ ids

/-- A reply leaves the commands alone. -/
theorem Owes.replies {id : Option UInt64} (howes : Owes ids first)
    (hreply : Replies codec id first second) : Owes ids second := by
  cases hreply with
  | sent message bytes _ _ =>
      rw [send, queueEncoded]
      split <;> exact ⟨howes.commands, howes.taken⟩
  | lost => exact ⟨howes.commands, howes.taken⟩

theorem Owes.queue (howes : Owes ids client) {id : Option UInt64} {message : ServerMessage}
    (hid : replyTo message = some id) : Owes ids (client.queue codec message) :=
  howes.replies (replies_queue hid)

theorem Owes.defer (howes : Owes ids client) {id : UInt64} (hid : id ∈ ids) (command : Command) :
    Owes ids (client.defer codec id command) := by
  unfold Client.defer
  split
  · exact howes.queue rfl
  · split
    · exact ⟨howes.commands, howes.taken⟩
    · refine ⟨fun found hmem => ?_, howes.taken⟩
      rcases List.mem_append.mp hmem with hold | hnew
      · exact howes.commands found hold
      · rw [List.mem_singleton.mp hnew]
        exact hid

theorem Owes.applySubscriptions (howes : Owes ids client) (subscriptions : List Subscription)
    (enabled : Bool) : Owes ids (client.applySubscriptions subscriptions enabled) := by
  obtain ⟨input, devices, hsame⟩ := @applySubscriptions_eq client subscriptions enabled
  rw [hsame]
  exact ⟨howes.commands, howes.taken⟩

theorem Owes.negotiate (howes : Owes ids client) (id : UInt64) (command : Command) :
    Owes ids (client.negotiate codec id command) := by
  have hrefused : ∀ error, Owes ids
      { client.queue codec (.error (some id) error) with closing := true } := by
    intro error
    have hqueued : Owes ids (client.queue codec (.error (some id) error)) := howes.queue rfl
    exact ⟨hqueued.commands, hqueued.taken⟩
  cases command with
  | hello minMajor maxMajor =>
      by_cases hversion : minMajor ≤ protocolMajor ∧ protocolMajor ≤ maxMajor
      · simp only [Client.negotiate, if_pos hversion]
        have haccepted : Owes ids { client with negotiated := true } :=
          ⟨howes.commands, howes.taken⟩
        exact haccepted.replies (replies_queueResponse _ _)
      · simp only [Client.negotiate, if_neg hversion]
        exact hrefused _
  | _ => exact hrefused _

theorem Owes.handleFrame (howes : Owes ids client) {frame : List UInt8}
    (hdeferred : ∀ id ∈ deferredIds codec [frame], id ∈ ids) :
    Owes ids (client.handleFrame codec status devices frame) := by
  unfold Client.handleFrame
  cases hdecode : decodeFrame codec.requests frame with
  | error error =>
      have hhandling : Owes ids (client.handling none) := ⟨howes.commands, howes.taken⟩
      exact hhandling.queue rfl
  | ok request =>
      have hhandling : Owes ids (client.handling (some request.id)) :=
        ⟨howes.commands, howes.taken⟩
      have hid : isDeferred request.command = true → request.id ∈ ids := fun hcontrol =>
        hdeferred request.id (by simp [deferredIds, hdecode, hcontrol])
      simp only
      split
      · cases hcommand : request.command with
        | hello | unknown => exact hhandling.queue rfl
        | ping | status | devices => exact hhandling.replies (replies_queueResponse _ _)
        | subscribe subscriptions | unsubscribe subscriptions =>
            exact (hhandling.applySubscriptions subscriptions _).replies
              (replies_queueResponse _ _)
        | diagnostics | config | startCapture | stopCapture =>
            rw [hcommand] at hid
            exact hhandling.defer (hid rfl) _
      · exact hhandling.negotiate request.id request.command

/-- A connection that is given the frames of a stream one by one. -/
def given (codec : Codec) (status : Status) (devices : List DeviceInfo)
    (frames : List (List UInt8)) : Client :=
  handleAll codec status devices (.new {}) frames

/-- The replies that a stream's own requests put off are left out. -/
abbrev setAside (codec : Codec) (stream : List UInt8) : List UInt64 :=
  deferredIds codec (fittingFrames stream)

/-- A connection that has read a part of the stream: the lines of this part are handled
or wait, and it stands as if the handled ones had come one by one. -/
structure Reading (codec : Codec) (status : Status) (devices : List DeviceInfo)
    (stream consumed : List UInt8) (done : List (List UInt8)) (client : Client) : Prop where
  split : consumed ++ delivered client.stream.reads = stream
  accept : Acceptable consumed
  lines : (Lines.cut newline consumed).1.map stripCr = done ++ client.pendingFrames
  rest : client.frames.bytes = (Lines.cut newline consumed).2
  alike : Alike (setAside codec stream) client (given codec status devices done)
  owes : Owes (setAside codec stream) client

/-- The error about an overlong line, where it can be encoded. -/
def refusal (codec : Codec) (size : Nat) : List (ServerMessage × List UInt8) :=
  match encodeFrame codec.messages (.error none (.frameTooLarge size)) with
  | .ok bytes => [(.error none (.frameTooLarge size), bytes)]
  | .error _ => []

/-- A connection that met an overlong line after it handled all lines before it. -/
structure Refused (codec : Codec) (status : Status) (devices : List DeviceInfo)
    (stream : List UInt8) (client : Client) : Prop where
  overlong : ¬Acceptable stream
  heardOut : (given codec status devices (fittingFrames stream)).closing = false
  closing : client.closing = true
  handled : client.handledIds =
    (given codec status devices (fittingFrames stream)).handledIds ++ [none]
  replies : ∃ size, maxFrameBytes < size ∧ client.repliesExcept (setAside codec stream) =
    (given codec status devices (fittingFrames stream)).repliesExcept (setAside codec stream) ++
      refusal codec size
  owes : Owes (setAside codec stream) client

/-- Where a connection stands with its stream. -/
inductive Stage (codec : Codec) (status : Status) (devices : List DeviceInfo)
    (stream : List UInt8) (client : Client) : Prop
  | reading (consumed : List UInt8) (done : List (List UInt8))
      (hreading : Reading codec status devices stream consumed done client)
  | refused (hrefused : Refused codec status devices stream client)

theorem Stage.owes (hstage : Stage codec status devices stream client) :
    Owes (setAside codec stream) client := by
  cases hstage with
  | reading consumed done hreading => exact hreading.owes
  | refused hrefused => exact hrefused.owes

/-- What is handled or waits is a frame before the first overlong line. -/
theorem Reading.fittingFrames_eq
    (hreading : Reading codec status devices stream consumed done client) :
    fittingFrames stream = done ++ client.pendingFrames ++
      fittingFrames ((Lines.cut newline consumed).2 ++ delivered client.stream.reads) := by
  rw [← hreading.lines, ← fittingFrames_append hreading.accept.1, hreading.split]

theorem deferredIds_append (first second : List (List UInt8)) :
    deferredIds codec (first ++ second) = deferredIds codec first ++ deferredIds codec second :=
  List.filterMap_append

/-- A change that is not seen in what is read or handled. -/
theorem Stage.same (hstage : Stage codec status devices stream client)
    (hreads : delivered later.stream.reads = delivered client.stream.reads)
    (hframes : later.frames = client.frames)
    (hpending : later.pendingFrames = client.pendingFrames)
    (halike : Alike (setAside codec stream) later client)
    (howes : Owes (setAside codec stream) later) :
    Stage codec status devices stream later := by
  cases hstage with
  | reading consumed done hreading =>
      refine .reading consumed done ⟨?_, hreading.accept, ?_, ?_, halike.trans hreading.alike,
        howes⟩
      · rw [hreads]
        exact hreading.split
      · rw [hpending]
        exact hreading.lines
      · rw [hframes]
        exact hreading.rest
  | refused hrefused =>
      obtain ⟨size, hsize, hreplies⟩ := hrefused.replies
      exact .refused ⟨hrefused.overlong, hrefused.heardOut, halike.closing.trans hrefused.closing,
        halike.handled.trans hrefused.handled, ⟨size, hsize, halike.replies.trans hreplies⟩, howes⟩

/-- The next waiting frame is handled. -/
theorem Reading.handleFrame (hreading : Reading codec status devices stream consumed done client)
    (hopen : client.closing = false) {frame : List UInt8} {rest : List (List UInt8)}
    (hpending : client.pendingFrames = frame :: rest) :
    Reading codec status devices stream consumed (done ++ [frame])
      (handleFrame codec status devices { client with pendingFrames := rest } frame) := by
  obtain ⟨hstream, hframes, hrest⟩ := @sameInput_handleFrame codec status devices
    { client with pendingFrames := rest } frame
  have hdeferred : ∀ id ∈ deferredIds codec [frame], id ∈ setAside codec stream := by
    intro id hid
    rw [setAside, hreading.fittingFrames_eq, hpending, deferredIds_append, deferredIds_append,
      ← List.singleton_append, deferredIds_append]
    simp [hid]
  have halike : Alike (setAside codec stream) { client with pendingFrames := rest }
      (given codec status devices done) :=
    ⟨hreading.alike.negotiated, hreading.alike.closing, hreading.alike.handled,
      hreading.alike.replies⟩
  have howes : Owes (setAside codec stream) { client with pendingFrames := rest } :=
    ⟨hreading.owes.commands, hreading.owes.taken⟩
  refine ⟨?_, hreading.accept, ?_, ?_, ?_, howes.handleFrame hdeferred⟩
  · rw [hstream]
    exact hreading.split
  · rw [hrest, hreading.lines, hpending, List.append_assoc]
    rfl
  · rw [hframes]
    exact hreading.rest
  · rw [given, handleAll_append]
    have hspec : (given codec status devices done).closing = false :=
      hreading.alike.closing.symm.trans hopen
    change Alike _ _ (handleAll codec status devices (given codec status devices done) [frame])
    rw [handleAll_cons hspec]
    exact halike.handleFrame hdeferred

theorem Reading.processPending
    (hreading : Reading codec status devices stream consumed done client)
    (hopen : client.closing = false) (budget : Nat) :
    ∃ more, Reading codec status devices stream consumed more
      (client.processPending codec status devices budget).2 := by
  induction budget generalizing client done with
  | zero => exact ⟨done, hreading⟩
  | succ budget ih =>
      rw [Client.processPending]
      split
      · exact ⟨done, hreading⟩
      · next frame rest hpending =>
        have hnext := hreading.handleFrame hopen hpending
        simp only
        split
        · next hstill => exact ih hnext (isOpen_iff.mp hstill).1
        · exact ⟨_, hnext⟩

/-- A read gives the next bytes of the stream, or none. -/
theorem delivered_read (source : UnixStream) :
    match source.read with
    | (.data bytes, later) =>
        delivered source.reads = bytes ++ delivered later.reads ∧ bytes.length ≤ readChunk
    | (_, later) => delivered source.reads = delivered later.reads := by
  unfold UnixStream.read
  cases hreads : source.reads with
  | nil =>
      simp only
      rw [hreads]
  | cons answer reads =>
      cases answer with
      | data bytes => exact ⟨rfl, List.length_take_le _ _⟩
      | wouldBlock | failed => rfl

/-- The bytes of a read that the collector accepts. -/
theorem Reading.accepted (hreading : Reading codec status devices stream consumed done client)
    {bytes : List UInt8} {source : UnixStream} {frames : FrameBuffer}
    {whole : List (List UInt8)}
    (hdelivered : delivered client.stream.reads = bytes ++ delivered source.reads)
    (hpush : client.frames.push bytes = (.ok whole, frames)) :
    Reading codec status devices stream (consumed ++ bytes) done
      { client with stream := source, frames, pendingFrames := client.pendingFrames ++ whole } := by
  have hretained : FrameBuffer.Retained client.frames.bytes := by
    rw [hreading.rest]
    exact ⟨(Lines.not_mem_cut newline consumed).2, hreading.accept.2⟩
  rcases FrameBuffer.push_spec hretained bytes with
    ⟨haccept, hframes⟩ | ⟨_, size, kept, _, _, hframes⟩
  · rw [hpush] at hframes
    obtain ⟨hwhole, rfl⟩ := Prod.mk.inj hframes
    obtain rfl := Except.ok.inj hwhole
    rw [hreading.rest] at haccept ⊢
    have hcut := @Lines.cut_append _ _ newline consumed bytes
    refine ⟨?_, ?_, ?_, ?_, ?_, ⟨hreading.owes.commands, hreading.owes.taken⟩⟩
    · rw [List.append_assoc, ← hdelivered]
      exact hreading.split
    · exact (FrameBuffer.acceptable_append consumed bytes).mpr ⟨hreading.accept.1, haccept⟩
    · rw [hcut, List.map_append, hreading.lines, List.append_assoc]
    · rw [hcut]
    · exact ⟨hreading.alike.negotiated, hreading.alike.closing, hreading.alike.handled,
        hreading.alike.replies⟩
  · rw [hpush] at hframes
    cases (Prod.mk.inj hframes).1

theorem handledIds_refuse (error : ProtocolError) :
    (client.refuse codec error).handledIds = client.handledIds ++ [none] ∧
      (client.refuse codec error).closing = true := by
  obtain ⟨_, hclosing, hhandled⟩ := replies_frame (@replies_refuse codec client error)
  exact ⟨hhandled.trans (handledIds_handling none), hclosing⟩

theorem repliesExcept_refuse (size : Nat) :
    (client.refuse codec (.frameTooLarge size)).repliesExcept ids =
      client.repliesExcept ids ++ refusal codec size := by
  unfold refuse Client.queue refusal
  cases encodeFrame codec.messages (.error none (.frameTooLarge size)) with
  | error error => exact (List.append_nil _).symm
  | ok bytes => exact repliesExcept_send _ _

/-- The bytes of a read that the collector refuses, when nothing waits. -/
theorem Reading.refuse (hreading : Reading codec status devices stream consumed done client)
    (hopen : client.closing = false) (hpending : client.pendingFrames = [])
    {bytes : List UInt8} {source : UnixStream} {frames : FrameBuffer} {error : ProtocolError}
    (hdelivered : delivered client.stream.reads = bytes ++ delivered source.reads)
    (hlength : bytes.length ≤ readChunk)
    (hpush : client.frames.push bytes = (.error error, frames)) :
    Refused codec status devices stream
      (refuse codec { client with stream := source, frames } error) := by
  have hretained : FrameBuffer.Retained client.frames.bytes := by
    rw [hreading.rest]
    exact ⟨(Lines.not_mem_cut newline consumed).2, hreading.accept.2⟩
  rcases FrameBuffer.push_spec hretained bytes with
    ⟨_, hframes⟩ | ⟨hrefused, size, kept, hsize, _, hframes⟩
  · rw [hpush] at hframes
    cases (Prod.mk.inj hframes).1
  · rw [hpush] at hframes
    obtain rfl := Except.error.inj (Prod.mk.inj hframes).1
    rw [hreading.rest] at hrefused
    obtain ⟨hfitting, hoverlong⟩ := fittingFrames_refused hreading.accept hlength hrefused
      (delivered source.reads)
    rw [← hdelivered, hreading.split] at hfitting hoverlong
    rw [hreading.lines, hpending, List.append_nil] at hfitting
    obtain ⟨hhandled, hclosing⟩ := @handledIds_refuse codec
      { client with stream := source, frames } (.frameTooLarge size)
    refine ⟨hoverlong, ?_, hclosing, ?_, ⟨size, hsize, ?_⟩, ?_⟩
    · rw [hfitting]
      exact hreading.alike.closing.symm.trans hopen
    · rw [hhandled, hfitting]
      exact congrArg (· ++ [none]) hreading.alike.handled
    · rw [repliesExcept_refuse, hfitting]
      exact congrArg (· ++ refusal codec size) hreading.alike.replies
    · have hbefore : Owes (setAside codec stream)
          { handling { client with stream := source, frames } none with closing := true } :=
        ⟨hreading.owes.commands, hreading.owes.taken⟩
      exact hbefore.replies (replies_refuse _)

theorem Reading.readLoop (hreading : Reading codec status devices stream consumed done client)
    (hopen : client.closing = false) (hpending : client.pendingFrames = [])
    {reads budget : Nat}
    (hread : client.readLoop codec status devices reads budget = (true, later)) :
    Stage codec status devices stream later := by
  induction reads generalizing client consumed done budget with
  | zero =>
      obtain rfl := (Prod.mk.inj hread).2
      exact .reading consumed done hreading
  | succ reads ih =>
      have hsource := delivered_read client.stream
      rw [Client.readLoop] at hread
      split at hread
      · next source hblocked =>
        rw [hblocked] at hsource
        obtain rfl := (Prod.mk.inj hread).2
        exact (Stage.reading consumed done hreading).same hsource.symm rfl rfl
          ⟨rfl, rfl, rfl, rfl⟩ ⟨hreading.owes.commands, hreading.owes.taken⟩
      · cases (Prod.mk.inj hread).1
      · next bytes source hdata =>
        rw [hdata] at hsource
        split at hread
        · cases (Prod.mk.inj hread).1
        · split at hread
          · next error frames hpush =>
            obtain rfl := (Prod.mk.inj hread).2
            exact .refused (hreading.refuse hopen hpending hsource.1 hsource.2 hpush)
          · next whole frames hpush =>
            have haccepted := hreading.accepted hsource.1 hpush
            obtain ⟨more, hhandled⟩ := haccepted.processPending hopen budget
            simp only at hread
            split at hread
            · obtain rfl := (Prod.mk.inj hread).2
              exact .reading _ more hhandled
            · next hgo =>
              simp only [Bool.or_eq_true, not_or, Bool.not_eq_true', Bool.not_eq_false,
                bne_iff_ne, ne_eq, not_not] at hgo
              exact ih hhandled (isOpen_iff.mp hgo.1.1.1).1 hgo.1.2 hread

theorem Stage.readTurn (hstage : Stage codec status devices stream client) {revents : Revents}
    (hread : client.readTurn codec status devices revents = (true, later)) :
    Stage codec status devices stream later := by
  rw [Client.readTurn] at hread
  split at hread
  · next hguard =>
    obtain ⟨hopen, _⟩ := isOpen_iff.mp (Bool.and_eq_true_iff.mp hguard).1
    cases hstage with
    | refused hrefused =>
        rw [hrefused.closing] at hopen
        cases hopen
    | reading consumed done hreading =>
        obtain ⟨more, hhandled⟩ := hreading.processPending hopen frameBudget
        rw [readClient] at hread
        simp only at hread
        split at hread
        · obtain rfl := (Prod.mk.inj hread).2
          exact .reading consumed more hhandled
        · next hgo =>
          simp only [Bool.or_eq_true, not_or, Bool.not_eq_true', Bool.not_eq_false,
            bne_iff_ne, ne_eq, not_not] at hgo
          exact hhandled.readLoop (isOpen_iff.mp hgo.2).1 hgo.1.2 hread
  · obtain rfl := (Prod.mk.inj hread).2
    exact hstage

theorem Stage.writeLoop (hstage : Stage codec status devices stream client) {budget : Nat}
    (hwrite : client.writeLoop budget = (true, later)) :
    Stage codec status devices stream later := by
  have howes := hstage.owes
  induction budget using Nat.strongRecOn generalizing client with
  | ind budget ih =>
      rw [Client.writeLoop] at hwrite
      split at hwrite
      · obtain rfl := (Prod.mk.inj hwrite).2
        exact hstage
      · next hbudget =>
        split at hwrite
        · obtain rfl := (Prod.mk.inj hwrite).2
          exact hstage
        · next front rest houtput =>
          have hreads := write_reads client.stream ((front.bytes.drop front.offset).take budget)
          split at hwrite
          · next count source hwrote =>
            rw [hwrote] at hreads
            split at hwrite
            · cases (Prod.mk.inj hwrite).1
            · refine ih (budget - count) (by omega) ?_ hwrite ⟨howes.commands, howes.taken⟩
              exact hstage.same (congrArg delivered hreads) rfl rfl ⟨rfl, rfl, rfl, rfl⟩
                ⟨howes.commands, howes.taken⟩
          · next source hblocked =>
            rw [hblocked] at hreads
            obtain rfl := (Prod.mk.inj hwrite).2
            exact hstage.same (congrArg delivered hreads) rfl rfl ⟨rfl, rfl, rfl, rfl⟩
              ⟨howes.commands, howes.taken⟩
          · cases (Prod.mk.inj hwrite).1

/-- The reactor's turn with a connection that is kept: it reads or writes, the reactor
takes and completes its commands, and a notification is published to it. -/
inductive Visit (codec : Codec) (status : Status) (devices : List DeviceInfo) :
    Client → Client → Prop
  | read {client later : Client} (revents : Revents)
      (hread : client.readTurn codec status devices revents = (true, later)) :
      Visit codec status devices client later
  | write {client later : Client} (hwrite : client.writeReady = (true, later)) :
      Visit codec status devices client later
  | take {client : Client} : Visit codec status devices client client.takeCommands.2
  | complete {client : Client} (id : UInt64) (result : Except ProtocolError ResponseResult)
      (htaken : id ∈ client.taken) :
      Visit codec status devices client (client.complete codec id result)
  | offer {client : Client} (notification : Notification) (frame : List UInt8) :
      Visit codec status devices client (client.offer notification frame)

abbrev Visits (codec : Codec) (status : Status) (devices : List DeviceInfo) :
    Client → Client → Prop :=
  Relation.ReflTransGen (Visit codec status devices)

/-- A reply to one of the ids that are left out. -/
theorem alike_replies {id : UInt64} (hid : id ∈ ids)
    (hreply : Replies codec (some id) first second) : Alike ids second first := by
  cases hreply with
  | sent message bytes hmessage _ =>
      refine alike_send ?_ bytes
      rw [counts, hmessage]
      simpa using hid
  | lost => exact ⟨rfl, rfl, rfl, rfl⟩

theorem Stage.takeCommands (hstage : Stage codec status devices stream client) :
    Stage codec status devices stream client.takeCommands.2 := by
  have howes := hstage.owes
  unfold Client.takeCommands
  split
  · refine hstage.same rfl rfl rfl ⟨rfl, rfl, rfl, rfl⟩
      ⟨fun command hmem => ?_, fun id hmem => ?_⟩
    · exact absurd hmem List.not_mem_nil
    · rcases List.mem_append.mp hmem with hold | hnew
      · exact howes.taken id hold
      · obtain ⟨command, hcommand, rfl⟩ := List.mem_map.mp hnew
        exact howes.commands command hcommand
  · exact hstage

theorem Stage.complete (hstage : Stage codec status devices stream client) {id : UInt64}
    (htaken : id ∈ client.taken) (result : Except ProtocolError ResponseResult) :
    Stage codec status devices stream (client.complete codec id result) := by
  have howes := hstage.owes
  have hid := howes.taken id htaken
  obtain ⟨capture, hreply⟩ := @replies_complete codec client id result
  have hbefore : Stage codec status devices stream
      { client with taken := client.taken.erase id, capture } :=
    hstage.same rfl rfl rfl ⟨rfl, rfl, rfl, rfl⟩
      ⟨howes.commands, fun found hmem => howes.taken found (List.mem_of_mem_erase hmem)⟩
  obtain ⟨hstream, hframes, hpending⟩ := sameInput_replies hreply
  exact hbefore.same (congrArg (fun source => delivered source.reads) hstream) hframes hpending
    (alike_replies hid hreply) (hbefore.owes.replies hreply)

theorem Stage.offer (hstage : Stage codec status devices stream client)
    (notification : Notification) (frame : List UInt8) :
    Stage codec status devices stream (client.offer notification frame) := by
  have howes := hstage.owes
  unfold Client.offer
  split
  · have halike : Alike (setAside codec stream)
        (client.send (.notification notification) frame) client := alike_send rfl frame
    unfold send queueEncoded at halike ⊢
    split at halike
    · next hfull =>
      rw [if_pos hfull]
      exact hstage.same rfl rfl rfl halike ⟨howes.commands, howes.taken⟩
    · next hroom =>
      rw [if_neg hroom]
      exact hstage.same rfl rfl rfl halike ⟨howes.commands, howes.taken⟩
  · exact hstage

theorem Stage.visit (hstage : Stage codec status devices stream client)
    (hvisit : Visit codec status devices client later) :
    Stage codec status devices stream later := by
  cases hvisit with
  | read revents hread => exact hstage.readTurn hread
  | write hwrite => exact hstage.writeLoop hwrite
  | take => exact hstage.takeCommands
  | complete id result htaken => exact hstage.complete htaken result
  | offer notification frame => exact hstage.offer notification frame

theorem Stage.visits (hstage : Stage codec status devices stream client)
    (hvisits : Visits codec status devices client later) :
    Stage codec status devices stream later := by
  induction hvisits with
  | refl => exact hstage
  | tail _ hvisit ih => exact ih.visit hvisit

theorem immediateClose_writeLoop (budget : Nat) :
    (client.writeLoop budget).2.immediateClose = client.immediateClose := by
  induction budget using Nat.strongRecOn generalizing client with
  | ind budget ih =>
      rw [Client.writeLoop]
      split
      · rfl
      · next hbudget =>
        split
        · rfl
        · next front rest _ =>
          split
          · next count source _ =>
            split
            · rfl
            · next hpos => exact ih (budget - count) (by omega)
          · rfl
          · rfl

theorem Whole.visit (hwhole : client.Whole) (hvisit : Visit codec status devices client later) :
    later.Whole := by
  cases hvisit with
  | read revents hread =>
      have hacts := @acts_readTurn codec (fun _ _ _ => True) status devices client revents
      rw [hread] at hacts
      exact hwhole.acts hacts
  | write hwrite =>
      have hsame := @immediateClose_writeLoop client writeBudget
      rw [← writeReady, hwrite] at hsame
      intro hkept
      have hacts := @acts_writeLoop codec (fun _ _ _ => True) client (hsame.symm.trans hkept)
        writeBudget
      rw [← writeReady, hwrite] at hacts
      exact hwhole.acts hacts hkept
  | take => exact hwhole.act (@Act.take codec (fun _ _ _ => True) client)
  | complete id result _ =>
      exact hwhole.act (@Act.complete codec (fun _ _ _ => True) client id result trivial)
  | offer notification frame =>
      rw [Client.offer]
      split
      · exact hwhole.send _ _
      · exact hwhole

theorem stage_new (reads : List ReadAnswer) (writes : List WriteAnswer) :
    Stage codec status devices (delivered reads) (.new { reads, writes }) :=
  .reading [] [] ⟨rfl, acceptable_short (Nat.zero_le _), rfl, rfl, ⟨rfl, rfl, rfl, rfl⟩,
    ⟨fun _ hmem => absurd hmem List.not_mem_nil, fun _ hmem => absurd hmem List.not_mem_nil⟩⟩

end Client

/-- The stream has an overlong line, and no failed negotiation before it. -/
def MeetsOverlong (codec : Codec) (stream : List UInt8) : Prop :=
  ¬Acceptable stream ∧ turnedAway codec (fittingFrames stream) = false

theorem heard_eq {codec : Codec} {frames : List (List UInt8)}
    (hnone : turnedAway codec frames = false) : heard codec frames = frames := by
  induction frames with
  | nil => rfl
  | cons frame rest ih =>
      rw [turnedAway] at hnone
      rw [heard]
      cases hdecode : decodeFrame codec.requests frame with
      | error error =>
          rw [hdecode] at hnone
          exact congrArg (frame :: ·) (ih hnone)
      | ok request =>
          rw [hdecode] at hnone
          simp only [Bool.not_eq_false'] at hnone
          simp only [hnone, if_true]

namespace Client

variable {codec : Codec} {status : Status} {devices : List DeviceInfo} {client : Client}
  {stream : List UInt8}

/-- What was delivered is handled, or the connection takes no more. -/
def Finished (client : Client) : Prop :=
  client.closing = true ∨ client.pendingFrames = [] ∧ delivered client.stream.reads = []

/-- What becomes of a stream: the frames before its first overlong line, up to a failed
negotiation, are handled in order and answered as if they had come one by one; then the
overlong line ends the connection with its error. -/
structure StreamOutcome (codec : Codec) (status : Status) (devices : List DeviceInfo)
    (stream : List UInt8) (client : Client) : Prop where
  closing : client.closing = true ↔
    MeetsOverlong codec stream ∨ turnedAway codec (fittingFrames stream) = true
  within : ¬MeetsOverlong codec stream →
    client.handledIds = (heard codec (fittingFrames stream)).map (frameId codec) ∧
    client.repliesExcept (setAside codec stream) =
      (given codec status devices (fittingFrames stream)).repliesExcept (setAside codec stream)
  beyond : MeetsOverlong codec stream →
    client.handledIds = (fittingFrames stream).map (frameId codec) ++ [none] ∧
    ∃ size, maxFrameBytes < size ∧ client.repliesExcept (setAside codec stream) =
      (given codec status devices (fittingFrames stream)).repliesExcept (setAside codec stream) ++
        refusal codec size

theorem Stage.outcome (hstage : Stage codec status devices stream client)
    (hfinished : client.Finished) : StreamOutcome codec status devices stream client := by
  obtain ⟨hspec_handled, hspec_closing⟩ := @handleAll_first codec status devices (.new {})
    rfl rfl (fittingFrames stream)
  change (given codec status devices (fittingFrames stream)).handledIds = [] ++ _ at hspec_handled
  change (given codec status devices (fittingFrames stream)).closing = _ at hspec_closing
  rw [List.nil_append] at hspec_handled
  cases hstage with
  | refused hrefused =>
      have hnone := hspec_closing.symm.trans hrefused.heardOut
      have hmeets : MeetsOverlong codec stream := ⟨hrefused.overlong, hnone⟩
      refine ⟨iff_of_true hrefused.closing (Or.inl hmeets), fun hnot => absurd hmeets hnot,
        fun _ => ⟨?_, hrefused.replies⟩⟩
      rw [hrefused.handled, hspec_handled, heard_eq hnone]
  | reading consumed done hreading =>
      have hsame : given codec status devices (fittingFrames stream) =
          given codec status devices done ∧
          (client.closing = false → Acceptable stream) := by
        rw [Finished] at hfinished
        cases hclosing : client.closing with
        | true =>
            have hdone : (given codec status devices done).closing = true :=
              hreading.alike.closing.symm.trans hclosing
            refine ⟨?_, fun hfalse => Bool.noConfusion hfalse⟩
            rw [hreading.fittingFrames_eq, List.append_assoc, given, handleAll_append]
            exact handleAll_closing hdone _
        | false =>
            rw [hclosing] at hfinished
            obtain ⟨hpending, hdelivered⟩ := hfinished.resolve_left Bool.false_ne_true
            have hsplit := hreading.split
            rw [hdelivered, List.append_nil] at hsplit
            have haccept := hreading.accept
            have hlines := hreading.lines
            rw [hsplit] at haccept hlines
            rw [hpending, List.append_nil, ← fittingFrames_acceptable haccept] at hlines
            exact ⟨congrArg _ hlines, fun _ => haccept⟩
      obtain ⟨hgiven, haccept⟩ := hsame
      have hturned : client.closing = turnedAway codec (fittingFrames stream) := by
        rw [hreading.alike.closing, ← hgiven, hspec_closing]
      have hnot : ¬MeetsOverlong codec stream := fun hmeets =>
        hmeets.1 (haccept (hturned.trans hmeets.2))
      refine ⟨?_, fun _ => ⟨?_, ?_⟩, fun hmeets => absurd hmeets hnot⟩
      · rw [hturned]
        exact (or_iff_right hnot).symm
      · rw [hreading.alike.handled, ← hgiven, hspec_handled]
      · rw [hreading.alike.replies, hgiven]

/-- Two connections that are given the same bytes, however these are cut into reads and
whenever the reactor serves the connections, handle the same requests and answer them
alike: every frame before the first overlong line, in order. -/
theorem replies_repacked {reads others : List ReadAnswer} {writes elsewhere : List WriteAnswer}
    {later : Client} (hsame : delivered others = delivered reads)
    (hclient : Visits codec status devices (.new { reads, writes }) client)
    (hlater : Visits codec status devices (.new { reads := others, writes := elsewhere }) later)
    (hfinished : client.Finished) (hdone : later.Finished) :
    client.closing = later.closing ∧ client.handledIds = later.handledIds ∧
      StreamOutcome codec status devices (delivered reads) client ∧
      StreamOutcome codec status devices (delivered reads) later := by
  have hfirst := ((stage_new reads writes).visits hclient).outcome hfinished
  have hsecond := ((stage_new others elsewhere).visits hlater).outcome hdone
  rw [hsame] at hsecond
  refine ⟨Bool.eq_iff_iff.mpr (hfirst.closing.trans hsecond.closing.symm), ?_, hfirst, hsecond⟩
  by_cases hmeets : MeetsOverlong codec (delivered reads)
  · rw [(hfirst.beyond hmeets).1, (hsecond.beyond hmeets).1]
  · rw [(hfirst.within hmeets).1, (hsecond.within hmeets).1]

/-- However it was served, everything that was meant for a connection that is not given up
is written or queued. -/
theorem whole_visits {reads : List ReadAnswer} {writes : List WriteAnswer}
    (hvisits : Visits codec status devices (.new { reads, writes }) client) : client.Whole := by
  induction hvisits with
  | refl => exact fun _ => rfl
  | tail _ hvisit ih => exact ih.visit hvisit

theorem Visit.lines {lines : List (List UInt8)} {reads : List ReadAnswer}
    (hopened : client.isOpen = true) (hpending : client.pendingFrames = [])
    (hframes : client.frames = {})
    (hreads : client.stream.reads = .data (Lines.glue newline lines []) :: reads)
    (hlines : ∀ line ∈ lines, Short line) (hsome : Lines.glue newline lines [] ≠ [])
    (hlength : (Lines.glue newline lines []).length < readChunk) :
    Visit codec status devices client (processPending codec status devices frameBudget
      { client with stream := { client.stream with reads }, pendingFrames := lines }).2 := by
  refine .read { pollin := true } ?_
  rw [readTurn, hopened]
  exact readClient_lines hopened hpending hframes hreads hlines hsome hlength

/-- Two lines of one read are handled in the same turn. -/
theorem Visit.pair {line other : List UInt8} {reads : List ReadAnswer} {middle : Client}
    (hopened : client.isOpen = true) (hpending : client.pendingFrames = [])
    (hframes : client.frames = {})
    (hreads : client.stream.reads = .data (Lines.glue newline [line, other] []) :: reads)
    (hline : Short line) (hother : Short other)
    (hmiddle : handleFrame codec status devices { client with
      stream := { client.stream with reads }, pendingFrames := [other] } line = middle)
    (hopen : middle.isOpen = true) :
    Visit codec status devices client
      (handleFrame codec status devices { middle with pendingFrames := [] } other) := by
  have hlength := pair_length hline hother
  have hvisit := @Visit.lines codec status devices client [line, other] reads hopened hpending
    hframes hreads (List.forall_mem_cons.mpr ⟨hline, List.forall_mem_singleton.mpr hother⟩)
    (by simp [Lines.glue]) hlength
  rwa [show frameBudget = 6 + 1 + 1 from rfl, processPending_pair rfl hmiddle hopen] at hvisit

theorem Visit.line {line : List UInt8} {reads : List ReadAnswer}
    (hsends : Sends line reads client) (hshort : Short line) :
    Visit codec status devices client (handleFrame codec status devices
      { client with stream := { client.stream with reads } } line) := by
  refine .read { pollin := true } ?_
  rw [readTurn, hsends.opened]
  exact readClient_line hsends hshort

/-- A part of a line is kept, or refused when too much is there. -/
theorem Visit.part {part : List UInt8} {reads : List ReadAnswer}
    (hopened : client.isOpen = true) (hpending : client.pendingFrames = [])
    (hreads : client.stream.reads = .data part :: reads) (hpart : newline ∉ part)
    (hsome : part ≠ []) (hlength : part.length < readChunk) :
    Visit codec status devices client
      (if maxFrameBytes < FrameBuffer.restLen client.frames.bytes part then
        refuse codec { client with stream := { client.stream with reads } }
          (.frameTooLarge (FrameBuffer.restLen client.frames.bytes part))
      else
        { client with
          stream := { client.stream with reads }
          frames := ⟨client.frames.bytes ++ part⟩ }) := by
  refine .read { pollin := true } ?_
  rw [readTurn, hopened]
  exact readClient_part hopened hpending hreads hpart hsome hlength

end Client

section Overlong

open Client

variable {status : Status} {devices : List DeviceInfo}

/-- A part of a line that is almost as long as one read. -/
def overlongPart : List UInt8 := .replicate 16383 97

theorem overlongPart_plain :
    newline ∉ overlongPart ∧ overlongPart ≠ [] ∧ overlongPart.length < readChunk := by
  refine ⟨fun hmem => ?_, List.ne_nil_of_length_pos ?_, ?_⟩
  · exact absurd (List.eq_of_mem_replicate hmem) (by decide)
  · rw [overlongPart, List.length_replicate]
    decide
  · rw [overlongPart, List.length_replicate]
    decide

theorem restLen_overlongPart (bytes : List UInt8) :
    FrameBuffer.restLen bytes overlongPart = bytes.length + 16383 := by
  rw [FrameBuffer.restLen, overlongPart, List.getLast?_replicate, List.length_replicate]
  rfl

/-- Some parts are kept while they fit. -/
theorem visits_parts {codec : Codec} (count : Nat) {client : Client} {reads : List ReadAnswer}
    (hopened : client.isOpen = true) (hpending : client.pendingFrames = [])
    (hroom : client.frames.bytes.length + 16383 * count ≤ maxFrameBytes)
    (hreads : client.stream.reads = .replicate count (.data overlongPart) ++ reads) :
    ∃ kept : List UInt8, kept.length = client.frames.bytes.length + 16383 * count ∧
      Visits codec status devices client
        { client with stream := { client.stream with reads }, frames := ⟨kept⟩ } := by
  induction count generalizing client with
  | zero =>
      rw [List.replicate_zero, List.nil_append] at hreads
      rw [← hreads]
      exact ⟨client.frames.bytes, rfl, .refl⟩
  | succ count ih =>
      obtain ⟨hpart, hsome, hlength⟩ := overlongPart_plain
      rw [List.replicate_succ, List.cons_append] at hreads
      have hvisit := @Visit.part codec status devices client _ _ hopened hpending hreads hpart
        hsome hlength
      rw [restLen_overlongPart, if_neg (by omega)] at hvisit
      have hbytes : (client.frames.bytes ++ overlongPart).length =
          client.frames.bytes.length + 16383 := by
        rw [List.length_append, overlongPart, List.length_replicate]
      obtain ⟨kept, hkept, hvisits⟩ := @ih { client with
          stream := { client.stream with
            reads := .replicate count (.data overlongPart) ++ reads }
          frames := ⟨client.frames.bytes ++ overlongPart⟩ } hopened hpending
        (by rw [hbytes]; omega) rfl
      refine ⟨kept, ?_, .head hvisit hvisits⟩
      rw [hkept, hbytes]
      omega

/-- Five parts of a line without its end. -/
def overlongReads : List ReadAnswer := .replicate 4 (.data overlongPart) ++ [.data overlongPart]

/-- The fifth part is refused, and ends the connection. -/
theorem visits_overlong {codec : Codec} {start client : Client}
    (hstart : Visits codec status devices start client) (hopened : client.isOpen = true)
    (hpending : client.pendingFrames = []) (hframes : client.frames = {})
    (hreads : client.stream.reads = overlongReads) :
    ∃ later, Visits codec status devices start later ∧ later.closing = true ∧
      later.handledIds = client.handledIds ++ [none] ∧
      ∀ ids, later.repliesExcept ids = client.repliesExcept ids ++ refusal codec 81915 := by
  obtain ⟨hpart, hsome, hlength⟩ := overlongPart_plain
  have hbytes : client.frames.bytes.length = 0 := by
    rw [hframes]
    rfl
  obtain ⟨kept, hkept, hvisits⟩ := @visits_parts status devices codec 4 client
    [.data overlongPart] hopened hpending (by rw [hbytes]; decide) hreads
  have hlast := @Visit.part codec status devices { client with
      stream := { client.stream with reads := [.data overlongPart] }
      frames := ⟨kept⟩ } _ _ hopened hpending rfl hpart hsome hlength
  have hlong : FrameBuffer.restLen kept overlongPart = 81915 := by
    rw [restLen_overlongPart, hkept, hbytes]
  rw [if_pos (by rw [hlong]; decide), hlong] at hlast
  obtain ⟨hhandled, hclosing⟩ := @handledIds_refuse codec { client with
      stream := { client.stream with reads := [] }, frames := ⟨kept⟩ } (.frameTooLarge 81915)
  exact ⟨_, (hstart.trans hvisits).tail hlast, hclosing, hhandled,
    fun ids => repliesExcept_refuse 81915⟩

end Overlong

section Stops

open Client

variable {status : Status} {devices : List DeviceInfo}

/-- A connection that is greeted and has asked for a stop. -/
def asked (reads : List ReadAnswer) : Client :=
  { (greeted reads).handling (some 2) with commands := [(2, .stopCapture)] }

/-- The empty line comes with the stop, and is answered first. -/
def packedEnd (more : List ReadAnswer) : Client :=
  (((asked more).handling none).send blankReply
    (blankReplyText ++ [newline])).takeCommands.2.complete talkCodec 2 (.ok .captureStopped)

/-- The empty line comes after the stop was completed. -/
def spreadEnd (more : List ReadAnswer) : Client :=
  ({ (asked (.data [newline] :: more)).takeCommands.2.complete talkCodec 2
      (.ok .captureStopped) with
    stream := { reads := more } }.handling none).send blankReply (blankReplyText ++ [newline])

def packedReads (more : List ReadAnswer) : List ReadAnswer :=
  .data (helloText ++ [newline]) :: .data (Lines.glue newline [stopText, []] []) :: more

def spreadReads (more : List ReadAnswer) : List ReadAnswer :=
  .data (helloText ++ [newline]) :: .data (stopText ++ [newline]) :: .data [newline] :: more

theorem visit_hello (reads : List ReadAnswer) :
    Visit talkCodec status devices
      (.new { reads := .data (helloText ++ [newline]) :: reads }) (greeted reads) := by
  rw [← handleFrame_hello greets_talkCodec status devices]
  exact .line (sends_new reads) helloText_short

theorem blankReply_length : (blankReplyText ++ [newline]).length = 126 := by
  rw [List.length_append, blankReplyText_length]
  rfl

theorem blankReply_room {client : Client} (hqueued : client.queuedBytes ≤ 200) :
    client.queuedBytes + (blankReplyText ++ [newline]).length ≤ maxQueuedBytes := by
  rw [blankReply_length]
  exact (Nat.add_le_add_right hqueued 126).trans (by decide)

/-- The stop waits, and the empty line after it is answered in the same turn. -/
theorem visit_packed (more : List ReadAnswer) :
    Visit talkCodec status devices
      (greeted (.data (Lines.glue newline [stopText, []] []) :: more))
      (((asked more).handling none).send blankReply (blankReplyText ++ [newline])) := by
  have hvisit := @Visit.pair talkCodec status devices
    (greeted (.data (Lines.glue newline [stopText, []] []) :: more)) stopText [] more _ rfl rfl
    rfl rfl stopText_short (by decide) (handleFrame_stop rfl rfl status devices) rfl
  rw [handleFrame_blank] at hvisit
  exact hvisit

/-- The reactor takes a stop and completes it. -/
theorem visits_stop {client : Client} (hopened : client.isOpen = true)
    (hcommands : client.commands = [(2, .stopCapture)]) :
    Visits talkCodec status devices client
      (client.takeCommands.2.complete talkCodec 2 (.ok .captureStopped)) := by
  refine .tail (.single .take) (.complete 2 _ ?_)
  rw [takeCommands, if_pos hopened, hcommands]
  exact List.mem_append_right _ (List.mem_singleton.mpr rfl)

theorem visits_packed (more : List ReadAnswer) :
    Visits talkCodec status devices (.new { reads := packedReads more }) (packedEnd more) := by
  have hqueued : ((asked more).handling none).queuedBytes ≤ 200 := (by decide : 118 ≤ 200)
  have hsent := @send_room _ blankReply _ (blankReply_room hqueued)
  refine (Relation.ReflTransGen.tail (.single (visit_hello _)) (visit_packed more)).trans
    (visits_stop ?_ ?_)
  · rw [hsent]
    rfl
  · rw [hsent]
    rfl

theorem visits_spread (more : List ReadAnswer) :
    Visits talkCodec status devices (.new { reads := spreadReads more }) (spreadEnd more) := by
  have hstop : Visit talkCodec status devices
      (greeted (.data (stopText ++ [newline]) :: .data [newline] :: more))
      (asked (.data [newline] :: more)) := by
    have hvisit := @Visit.line talkCodec status devices
      (greeted (.data (stopText ++ [newline]) :: .data [newline] :: more)) stopText _
      ⟨rfl, rfl, rfl, rfl, rfl⟩ stopText_short
    rwa [handleFrame_stop rfl rfl] at hvisit
  have hsends : Sends [] more ((asked (.data [newline] :: more)).takeCommands.2.complete
      talkCodec 2 (.ok .captureStopped)) := by
    rw [complete_stop (by exact (by decide : 118 ≤ 300))]
    exact ⟨rfl, rfl, rfl, rfl, rfl⟩
  have hblank := @Visit.line talkCodec status devices _ _ _ hsends (by decide)
  rw [handleFrame_blank] at hblank
  exact ((Relation.ReflTransGen.tail (.single (visit_hello _)) hstop).trans
    (visits_stop rfl rfl)).tail hblank

theorem shortLine_length {line : List UInt8} (hshort : Short line) :
    (line ++ [newline]).length ≤ 129 := by
  rw [List.length_append]
  exact Nat.succ_le_succ hshort.2.2

theorem delivered_packedReads (more : List ReadAnswer) :
    delivered (packedReads more) =
      helloText ++ [newline] ++ (stopText ++ [newline] ++ ([newline] ++ delivered more)) := by
  have hpair : (stopText ++ [newline] ++ [newline]).length ≤ readChunk := by
    rw [List.length_append]
    exact (Nat.add_le_add_right (shortLine_length stopText_short) 1).trans (by decide)
  rw [packedReads, delivered_data ((shortLine_length helloText_short).trans (by decide))]
  rw [show Lines.glue newline [stopText, []] [] = stopText ++ [newline] ++ [newline] by
    simp [Lines.glue], delivered_data hpair, List.append_assoc _ [newline] (delivered more)]

theorem delivered_spread (more : List ReadAnswer) :
    delivered (spreadReads more) = delivered (packedReads more) := by
  rw [delivered_packedReads, spreadReads,
    delivered_data ((shortLine_length helloText_short).trans (by decide)),
    delivered_data ((shortLine_length stopText_short).trans (by decide)),
    delivered_data (by decide)]

theorem acceptable_packed : Acceptable (delivered (packedReads [])) := by
  refine acceptable_short ?_
  rw [delivered_packedReads, List.length_append, @List.length_append _ (stopText ++ [newline])]
  exact (Nat.add_le_add (shortLine_length helloText_short)
    (Nat.add_le_add_right (shortLine_length stopText_short) 1)).trans (by decide)

theorem queued_takeCommands {client : Client} :
    client.takeCommands.2.queuedBytes = client.queuedBytes := by
  rw [takeCommands]
  split <;> rfl

theorem packedEnd_eq (more : List ReadAnswer) : packedEnd more = { greeted more with
    history := [(helloReply, helloReplyText ++ [newline]),
      (blankReply, blankReplyText ++ [newline]), (stopReply, stopReplyText ++ [newline])]
    handled := [⟨some 1, true⟩, ⟨some 2, true⟩, ⟨none, true⟩]
    queuedBytes := 317
    output := [⟨helloReplyText ++ [newline], 0⟩, ⟨blankReplyText ++ [newline], 0⟩,
      ⟨stopReplyText ++ [newline], 0⟩] } := by
  have hqueued : ((asked more).handling none).queuedBytes ≤ 200 := (by decide : 118 ≤ 200)
  have hmore : (((asked more).handling none).send blankReply
      (blankReplyText ++ [newline])).takeCommands.2.queuedBytes ≤ 300 := by
    rw [queued_takeCommands, send_room (blankReply_room hqueued), blankReply_length]
    exact (by decide : 118 + 126 ≤ 300)
  rw [packedEnd, complete_stop hmore, send_room (blankReply_room hqueued), blankReply_length,
    stopReply_length]
  rfl

theorem spreadEnd_eq (more : List ReadAnswer) : spreadEnd more = { greeted more with
    history := [(helloReply, helloReplyText ++ [newline]),
      (stopReply, stopReplyText ++ [newline]), (blankReply, blankReplyText ++ [newline])]
    handled := [⟨some 1, true⟩, ⟨some 2, true⟩, ⟨none, true⟩]
    queuedBytes := 317
    output := [⟨helloReplyText ++ [newline], 0⟩, ⟨stopReplyText ++ [newline], 0⟩,
      ⟨blankReplyText ++ [newline], 0⟩] } := by
  have hqueued : (asked (.data [newline] :: more)).takeCommands.2.queuedBytes ≤ 300 :=
    (by decide : 118 ≤ 300)
  rw [spreadEnd, complete_stop hqueued, stopReply_length, send_room, blankReply_length]
  · rfl
  · exact blankReply_room (by exact (by decide : 118 + 73 ≤ 200))

theorem refusal_overlong :
    refusal talkCodec 81915 = [(overlongReply, overlongReplyText ++ [newline])] := by
  have hreply := encode_overlongReply
  rw [overlongReply] at hreply
  rw [refusal, hreply]
  rfl

/-- A stop and an empty line, together or apart, and then an overlong line: the same
requests are handled, and answered alike but for the stop, before the connection ends. -/
theorem replies_repacked_overlong :
    ∃ client later : Client,
      client.closing = true ∧ client.handledIds = [some 1, some 2, none, none] ∧
      (later.repliesExcept [2]).map Prod.fst = [helloReply, blankReply, overlongReply] ∧
      client.closing = later.closing ∧ client.handledIds = later.handledIds ∧
      StreamOutcome talkCodec ⟨daemonVersion, 1, 0, false, ""⟩ []
        (delivered (packedReads overlongReads)) client ∧
      StreamOutcome talkCodec ⟨daemonVersion, 1, 0, false, ""⟩ []
        (delivered (packedReads overlongReads)) later := by
  have hpacked := @visits_packed ⟨daemonVersion, 1, 0, false, ""⟩ [] overlongReads
  have hspread := @visits_spread ⟨daemonVersion, 1, 0, false, ""⟩ [] overlongReads
  rw [packedEnd_eq] at hpacked
  rw [spreadEnd_eq] at hspread
  obtain ⟨client, hclient, hclosing, hhandled, _⟩ := visits_overlong hpacked rfl rfl rfl rfl
  obtain ⟨later, hlater, hdone, _, hreplies⟩ := visits_overlong hspread rfl rfl rfl rfl
  refine ⟨client, later, hclosing, hhandled, ?_, replies_repacked (delivered_spread overlongReads)
    hclient hlater (.inl hclosing) (.inl hdone)⟩
  rw [hreplies, refusal_overlong]
  rfl

/-- The answer to a control command changes its place with the packing of the requests: no
line is too long and no queue is full, and the replies come in another order. -/
theorem replies_reordered :
    ¬∀ (codec : Codec) (status : Status) (devices : List DeviceInfo)
      (reads others : List ReadAnswer) (client later : Client),
      delivered others = delivered reads → Acceptable (delivered reads) →
      Visits codec status devices (.new { reads }) client →
      Visits codec status devices (.new { reads := others }) later →
      client.Finished → later.Finished →
      client.immediateClose = false → later.immediateClose = false →
      client.handledIds = later.handledIds ∧ client.repliesExcept [] = later.repliesExcept [] := by
  intro hclaim
  have hsame := (hclaim talkCodec ⟨daemonVersion, 1, 0, false, ""⟩ [] (packedReads [])
    (spreadReads []) (packedEnd []) (spreadEnd []) (delivered_spread []) acceptable_packed
    (visits_packed []) (visits_spread []) (by rw [packedEnd_eq]; exact .inr ⟨rfl, rfl⟩)
    (by rw [spreadEnd_eq]; exact .inr ⟨rfl, rfl⟩) (by rw [packedEnd_eq]; rfl)
    (by rw [spreadEnd_eq]; rfl)).2
  rw [packedEnd_eq, spreadEnd_eq] at hsame
  have hsecond := congrArg Prod.fst (List.cons.inj (List.cons.inj hsame).2).1
  cases hsecond

end Stops

end Daemon

end Wiiland
