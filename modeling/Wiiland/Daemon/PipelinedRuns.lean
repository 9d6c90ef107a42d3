/-
Pipelined commands in runs of the reactor.  In an iteration each connection has at most one
turn, and the commands that it is accepted are taken before the next one.
-/
import Wiiland.Daemon.CommandTurns
import Wiiland.Daemon.Evictions

namespace Wiiland

namespace Daemon

open Hid Ipc
open IpcServer (Holding Draining)

namespace Runtime

variable {P D : Type} [DeviceSession D] [RuntimePlatform P D]

/-- The frames that `handleReady` handles, each with its token. -/
def readyMoments (codec : Codec) (runtime : Runtime P D) (token : UInt64)
    (revents : Revents) : List (UInt64 × Client × List UInt8) :=
  match runtime.ipc with
  | none => []
  | some server =>
      server.readyMoments codec
        (statusSnapshot runtime.slots runtime.dryRun
          (RuntimePlatform.processId runtime.platform))
        (deviceSnapshot runtime.slots) token revents

/-- The frames that `serveReady` handles. -/
def serveMoments (codec : Codec) : List (PollOwner × Revents) → Runtime P D →
    List (UInt64 × Client × List UInt8)
  | [], _ => []
  | (.ipc token, revents) :: rest, runtime =>
      if revents.any then
        runtime.readyMoments codec token revents ++
          match runtime.handleReady codec token revents with
          | (.error _, _) => []
          | (.ok _, runtime) => serveMoments codec rest runtime
      else serveMoments codec rest runtime
  | _ :: rest, runtime => serveMoments codec rest runtime

/-- The frames that `dispatch` handles. -/
def dispatchMoments (codec : Codec) (single : Bool) (reported : List (PollOwner × Revents))
    (runtime : Runtime P D) : List (UInt64 × Client × List UInt8) :=
  match drainReady codec single reported runtime with
  | (.error _, _) => []
  | (.ok _, runtime) =>
      let monitorReady := reported.any fun entry => entry.1 == .monitor && entry.2.any
      serveMoments codec reported
        (if monitorReady || runtime.monitorPending then runtime.pollMonitor else runtime)

/-- The frames that one iteration handles. -/
def pollMoments (codec : Codec) (timeout : Nat) (single : Bool) (runtime : Runtime P D) :
    List (UInt64 × Client × List UInt8) :=
  let owners := runtime.pollOwners
  let (polled, platform) := RuntimePlatform.poll runtime.platform owners timeout
  let (now, platform) := RuntimePlatform.now platform
  let (shutdown, platform) := RuntimePlatform.shutdownRequested platform
  if shutdown then []
  else
    match polled with
    | .interrupted | .failed _ => []
    | .ready count revents =>
        let reported := reports owners revents
        if (reported.any fun entry => entry.1 == .signal && entry.2.any) ||
            (count = 0 && !runtime.monitorPending) then []
        else
          dispatchMoments codec single reported
            { runtime with platform, dispatchStarted := now }

/-- The server, if there is one, holds the commands of some frames. -/
def Held (codec : Codec) (moments : List (UInt64 × Client × List UInt8))
    (ipc : Option IpcServer) : Prop :=
  ∀ server, ipc = some server → Holding codec moments server

end Runtime

/-- The tokens of the connections in a report. -/
def readyToken : PollOwner × Revents → Option UInt64
  | (.ipc token, _) => some token
  | _ => none

/-- The listener comes first in what is left of a report, and no connection comes twice
or has had its turn. -/
structure Due (moments : List (UInt64 × Client × List UInt8)) (tokens : List UInt64) :
    Prop where
  nodup : tokens.Nodup
  fresh : ∀ moment ∈ moments, moment.1 ∉ tokens
  listener : listenerToken ∈ tokens → moments = [] ∧ tokens.head? = some listenerToken

variable {moments more : List (UInt64 × Client × List UInt8)} {token : UInt64}
  {tokens : List UInt64}

theorem Due.rest (hdue : Due moments (token :: tokens))
    (hmore : ∀ moment ∈ more, moment.1 = token) : Due (moments ++ more) tokens := by
  have hnodup := List.nodup_cons.mp hdue.nodup
  refine ⟨hnodup.2, fun moment hmoment => ?_, fun hlistener => ?_⟩
  · rcases List.mem_append.mp hmoment with hmoment | hmoment
    · exact fun hmem => hdue.fresh moment hmoment (List.mem_cons_of_mem token hmem)
    · exact hmore moment hmoment ▸ hnodup.1
  · have hhead := (hdue.listener (List.mem_cons_of_mem token hlistener)).2
    exact absurd (Option.some.inj hhead ▸ hlistener) hnodup.1

theorem due_start (hnodup : (listenerToken :: tokens).Nodup) :
    Due [] (listenerToken :: tokens) := ⟨hnodup, List.forall_mem_nil _, fun _ => ⟨rfl, rfl⟩⟩

namespace Runtime

variable {P D : Type} [DeviceSession D] [RuntimePlatform P D]
variable {codec : Codec} {runtime : Runtime P D}

theorem Held.published {ipc later : Option IpcServer} (hheld : Held codec moments ipc)
    (hpublished : Published codec ipc later) : Held codec moments later :=
  hpublished.preserves (fun _ notification hholding => hholding.publish notification) hheld

theorem readyTokens_reports (owners : List (PollOwner × Bool × Bool))
    (revents : List Revents) : (reports owners revents).filterMap readyToken =
      owners.filterMap fun owner => readyToken (owner.1, {}) := by
  have hfst : owners.zipIdx.map Prod.fst = owners := List.zipIdx_map_fst 0 owners
  rw [reports, List.filterMap_map]
  conv_rhs => rw [← hfst, List.filterMap_map]
  refine List.filterMap_congr fun entry _ => ?_
  obtain ⟨⟨owner, _⟩, index⟩ := entry
  cases owner <;> rfl

theorem readyTokens_pollOwners : runtime.pollOwners.filterMap (fun owner =>
    readyToken (owner.1, {})) = runtime.ipc.elim [] fun server =>
      listenerToken :: server.clients.map Prod.fst := by
  have hmonitor : (if RuntimePlatform.monitorFd runtime.platform
      then [(PollOwner.monitor, true, false)] else []).filterMap (fun owner =>
        readyToken (owner.1, {})) = [] := by
    split <;> rfl
  have hdevices : (runtime.active.map fun entry =>
      (PollOwner.device entry.1, true, false)).filterMap (fun owner =>
        readyToken (owner.1, {})) = [] := by
    rw [List.filterMap_map]
    exact List.filterMap_eq_nil_iff.mpr fun _ _ => rfl
  have hsources : ∀ sources : List PollSource, (sources.map fun source =>
      (PollOwner.ipc source.token, source.pollin, source.pollout)).filterMap (fun owner =>
        readyToken (owner.1, {})) = sources.map PollSource.token := by
    intro sources
    rw [List.filterMap_map]
    exact List.filterMap_eq_map_iff_forall_eq_some.mpr fun _ _ => rfl
  rw [pollOwners, List.cons_append, List.cons_append, List.filterMap_cons,
    List.filterMap_append, List.filterMap_append, hmonitor, hdevices, hsources]
  cases runtime.ipc with
  | none => rfl
  | some server =>
      simp only [readyToken, Option.elim, IpcServer.pollSources, List.map_cons, List.map_map,
        List.nil_append]
      rfl

/-- The turn of the listener, or of a connection that has had none. -/
theorem held_handleReady (hheld : Held codec moments runtime.ipc)
    (hdue : Due moments (token :: tokens)) (revents : Revents) :
    Held codec (moments ++ runtime.readyMoments codec token revents)
        (runtime.handleReady codec token revents).2.ipc ∧
      (∀ moment ∈ runtime.readyMoments codec token revents,
        moment.1 = token ∧ moment.2.1.commands.length < frameBudget) ∧
      ∀ code, (runtime.handleReady codec token revents).1 = .error code →
        moments ++ runtime.readyMoments codec token revents = [] := by
  rw [handleReady, readyMoments]
  cases hipc : runtime.ipc with
  | none =>
      refine ⟨?_, List.forall_mem_nil _, fun _ hcode => by cases hcode⟩
      intro server hserver
      rw [hipc] at hserver
      cases hserver
  | some server =>
      have hholding := hheld server hipc
      by_cases hlistener : token = listenerToken
      · subst hlistener
        obtain ⟨rfl, _⟩ := hdue.listener List.mem_cons_self
        have hnone : ∀ status devices, server.readyMoments codec status devices listenerToken
            revents = [] := fun _ _ => if_pos rfl
        simp only [hnone]
        refine ⟨?_, List.forall_mem_nil _, fun _ _ => rfl⟩
        rintro later ⟨⟩
        exact hholding.accept
      · have hnew : ∀ moment ∈ moments, moment.1 ≠ token := fun moment hmoment hsame =>
          hdue.fresh moment hmoment (hsame ▸ List.mem_cons_self)
        obtain ⟨hok, hserved, hroom⟩ := @IpcServer.Holding.serve codec moments server
          (statusSnapshot runtime.slots runtime.dryRun
            (RuntimePlatform.processId runtime.platform))
          (deviceSnapshot runtime.slots) token revents hholding hlistener hnew
        refine ⟨?_, hroom, fun code hcode => ?_⟩
        · rintro later ⟨⟩
          exact hserved
        · cases hok.symm.trans hcode

/-- What holds after some turns: the commands that are held are those of the frames, each
frame found room for its command, and an error comes before any frame. -/
structure Turned {A : Type} (codec : Codec)
    (before moments : List (UInt64 × Client × List UInt8))
    (result : Except Int A × Runtime P D) : Prop where
  held : Held codec (before ++ moments) result.2.ipc
  room : ∀ moment ∈ moments, moment.2.1.commands.length < frameBudget
  failed : ∀ code, result.1 = .error code → before ++ moments = []

theorem turned_serveReady (reported : List (PollOwner × Revents))
    (hheld : Held codec moments runtime.ipc)
    (hdue : Due moments (reported.filterMap readyToken)) :
    Turned codec moments (serveMoments codec reported runtime)
      (serveReady codec reported runtime) := by
  induction reported generalizing runtime moments with
  | nil => exact ⟨(List.append_nil moments).symm ▸ hheld, List.forall_mem_nil _,
      fun _ hcode => by cases hcode⟩
  | cons entry reported ih =>
      obtain ⟨owner, revents⟩ := entry
      cases owner with
      | ipc token =>
          have hready := held_handleReady hheld hdue revents
          have hrest := hdue.rest fun moment hmoment => (hready.2.1 moment hmoment).1
          rw [serveReady, serveMoments]
          split
          · generalize runtime.handleReady codec token revents = result at hready
            obtain ⟨hserved, hroom, hfailed⟩ := hready
            obtain ⟨_ | _, after⟩ := result
            · rw [List.append_nil]
              exact ⟨hserved, fun moment hmoment => (hroom moment hmoment).2, hfailed⟩
            · obtain ⟨hheldAfter, hroomAfter, hfailedAfter⟩ := ih hserved hrest
              rw [List.append_assoc] at hheldAfter hfailedAfter
              refine ⟨hheldAfter, fun moment hmoment => ?_, hfailedAfter⟩
              exact (List.mem_append.mp hmoment).elim (fun hturn => (hroom moment hturn).2)
                (hroomAfter moment)
          · exact ih hheld (by
              have hidle := @Due.rest moments [] token _ hdue (List.forall_mem_nil _)
              rwa [List.append_nil] at hidle)
      | _ => exact ih hheld hdue

theorem turned_dispatch (single : Bool) (reported : List (PollOwner × Revents))
    (hheld : Held codec [] runtime.ipc) (hdue : Due [] (reported.filterMap readyToken)) :
    Turned codec [] (dispatchMoments codec single reported runtime)
      (dispatch codec single reported runtime) := by
  have hdrained := Held.published hheld (published_drainReady runtime single reported)
  rw [dispatch, dispatchMoments]
  generalize drainReady codec single reported runtime = result at hdrained
  obtain ⟨_ | _, after⟩ := result
  · exact ⟨hdrained, List.forall_mem_nil _, fun _ _ => rfl⟩
  · refine turned_serveReady reported ?_ hdue
    split
    · rw [pollMonitor, ipc_requestReconcile]
      exact hdrained
    · exact hdrained

/-- An iteration up to the commands: an iteration that ends before them handled no frame. -/
theorem turned_pollReady (timeout : Nat) (single : Bool) (hheld : Held codec [] runtime.ipc) :
    Turned codec [] (runtime.pollMoments codec timeout single)
        (runtime.pollReady codec timeout single) ∧
      ∀ ended, (runtime.pollReady codec timeout single).1 = .ok (some ended) →
        runtime.pollMoments codec timeout single = [] := by
  have hdue : ∀ revents, Due [] ((reports runtime.pollOwners revents).filterMap readyToken) := by
    intro revents
    rw [readyTokens_reports, readyTokens_pollOwners]
    cases hipc : runtime.ipc with
    | none => exact ⟨List.nodup_nil, List.forall_mem_nil _,
        fun hlistener => absurd hlistener List.not_mem_nil⟩
    | some server => exact due_start (hheld server hipc).distinct
  have hidle : ∀ (result : Except Int (Option Bool)) (later : Runtime P D),
      later.ipc = runtime.ipc → Turned codec [] [] (result, later) ∧
        ∀ ended, result = .ok (some ended) → ([] : List (UInt64 × Client × List UInt8)) = [] :=
    fun _ later hipc => ⟨⟨hipc ▸ hheld, List.forall_mem_nil _, fun _ _ => rfl⟩, fun _ _ => rfl⟩
  rw [pollReady, pollMoments]
  simp only
  generalize (RuntimePlatform.shutdownRequested (RuntimePlatform.now (RuntimePlatform.poll
    runtime.platform runtime.pollOwners timeout).2).2) = goes
  cases goes.1 with
  | true => exact hidle _ _ (by rfl)
  | false =>
      generalize (RuntimePlatform.poll runtime.platform runtime.pollOwners timeout).1 = polled
      cases polled with
      | interrupted => exact hidle _ _ (by rfl)
      | failed errno => exact hidle _ _ (by rfl)
      | ready count revents =>
          simp only [Bool.false_eq_true, if_false]
          cases (reports runtime.pollOwners revents).any fun entry =>
              entry.1 == .signal && entry.2.any with
          | true => exact hidle _ _ (by rfl)
          | false =>
              simp only [Bool.false_eq_true, if_false, Bool.false_or]
              split
              · exact hidle _ _ (by rfl)
              · have hturned := @turned_dispatch P D _ _ codec { runtime with
                  platform := goes.2
                  dispatchStarted := (RuntimePlatform.now (RuntimePlatform.poll
                    runtime.platform runtime.pollOwners timeout).2).1 } single _ hheld
                    (hdue revents)
                split
                · next code after hafter =>
                  rw [hafter] at hturned
                  exact ⟨⟨hturned.held, hturned.room, fun _ _ => hturned.failed code rfl⟩,
                    fun _ hended => by cases hended⟩
                · next after hafter =>
                  rw [hafter] at hturned
                  exact ⟨⟨hturned.held, hturned.room, fun _ hcode => by cases hcode⟩,
                    fun _ hended => by cases hended⟩

theorem pollMoments_dispatched {timeout count now : Nat} {single : Bool}
    {revents : List Revents} {polled ready platform : P}
    (hpoll : RuntimePlatform.poll runtime.platform runtime.pollOwners timeout =
      (.ready count revents, polled))
    (hnow : RuntimePlatform.now polled = (now, ready))
    (hgoes : RuntimePlatform.shutdownRequested ready = (false, platform))
    (hsignal : ((reports runtime.pollOwners revents).any fun entry =>
      entry.1 == .signal && entry.2.any) = false) (hcount : count ≠ 0) :
    runtime.pollMoments codec timeout single =
      dispatchMoments codec single (reports runtime.pollOwners revents)
        { runtime with platform, dispatchStarted := now } := by
  rw [pollMoments]
  simp only [hpoll, hnow, hgoes, hsignal, hcount, decide_false, Bool.false_and, Bool.or_false,
    Bool.false_eq_true, if_false]

theorem held_serviceCommands (hheld : Held codec moments runtime.ipc) :
    Held codec [] (runtime.serviceCommands codec).ipc := by
  have hcompleted : ∀ (commands : List (UInt64 × UInt64 × Command)) (runtime : Runtime P D),
      (∀ server, runtime.ipc = some server → Draining commands server) →
        Held codec [] (commands.foldl (completeCommand codec) runtime).ipc := by
    intro commands
    induction commands with
    | nil => exact fun runtime hdraining server hserver => (hdraining server hserver).holding
    | cons command commands ih =>
        intro runtime hdraining
        refine ih _ fun later hlater => ?_
        change Option.map _ (runtime.controlCommand command.2.2).2.ipc = some later at hlater
        rw [ipc_controlCommand] at hlater
        obtain ⟨server, hserver, rfl⟩ := Option.map_eq_some_iff.mp hlater
        exact (hdraining server hserver).complete _
  refine hcompleted _ _ fun later hlater => ?_
  cases hipc : runtime.ipc with
  | none =>
      simp only [hipc] at hlater
      cases hlater
  | some server =>
      simp only [hipc] at hlater ⊢
      cases hlater
      exact (hheld server hipc).take

theorem held_pollOnce (timeout : Nat) (single : Bool) (hheld : Held codec [] runtime.ipc) :
    Held codec [] (runtime.pollOnce codec timeout single).2.ipc := by
  obtain ⟨hturned, hended⟩ := turned_pollReady timeout single hheld
  rw [pollOnce]
  split
  · next code later hlater =>
    have hnone := hturned.failed code (congrArg Prod.fst hlater)
    have hheldAfter := hturned.held
    rwa [hnone, hlater] at hheldAfter
  · next ended later hlater =>
    have hnone := hended ended (congrArg Prod.fst hlater)
    have hheldAfter := hturned.held
    rwa [hnone, hlater] at hheldAfter
  · next later hlater =>
    have hheldAfter := hturned.held
    rw [hlater] at hheldAfter
    exact held_serviceCommands hheldAfter

/-- Connections are read in iterations only. -/
def Polls (steps : List (LoopStep P)) : Prop :=
  ∀ token revents, LoopStep.reactor (.handleReady token revents) ∉ steps

theorem held_loopStep {step : LoopStep P}
    (hstep : ∀ token revents, step ≠ .reactor (.handleReady token revents))
    (hheld : Held codec [] runtime.ipc) : Held codec [] (runtime.loopStep codec step).ipc := by
  cases step with
  | pollOnce timeout single => exact held_pollOnce timeout single hheld
  | reactor step =>
      cases step with
      | addPath path => exact Held.published hheld (published_addPath runtime path)
      | requestReconcile =>
          rw [loopStep, Runtime.step, ipc_requestReconcile]
          exact hheld
      | serviceDiscovery => exact Held.published hheld (published_serviceDiscovery runtime)
      | drainDevice single slot =>
          exact Held.published hheld (published_drainDevice runtime single slot)
      | tickSlot single slot =>
          exact Held.published hheld (published_tickSlot runtime single slot)
      | handleReady token revents => exact absurd rfl (hstep token revents)
      | serviceCommands => exact held_serviceCommands hheld
      | rehash before =>
          intro later hlater
          obtain ⟨server, hserver, rfl⟩ := Option.map_eq_some_iff.mp hlater
          exact (hheld server hserver).rehash before
      | elapse platform now pending metrics => exact hheld

theorem held_loop (steps : List (LoopStep P)) (hpolls : Polls steps)
    (hheld : Held codec [] runtime.ipc) : Held codec [] (runtime.loop codec steps).ipc := by
  induction steps generalizing runtime with
  | nil => exact hheld
  | cons step steps ih =>
      refine ih (fun token revents hmem => hpolls token revents (List.mem_cons_of_mem step hmem))
        (held_loopStep (fun token revents hstep => ?_) hheld)
      exact hpolls token revents (hstep ▸ List.mem_cons_self)

/-- What pipelining does to an iteration that starts here.  No connection holds more
commands than the budget and none finds its place taken; the commands accepted from a
connection that is still there and open are completed, in their order, and none of them is
left. -/
structure Pipelined (codec : Codec) (timeout : Nat) (single : Bool) (runtime : Runtime P D) :
    Prop where
  bounded : ∀ server, runtime.ipc = some server →
    ∀ entry ∈ server.clients, entry.2.commands.length ≤ frameBudget
  room : ∀ moment ∈ runtime.pollMoments codec timeout single,
    moment.2.1.commands.length < frameBudget
  accepted : ∀ later server, runtime.pollReady codec timeout single = (.ok none, later) →
    later.ipc = some server → ∀ entry ∈ server.clients, entry.2.isOpen = true →
      (later.takeCommands.1.filter fun command => command.1 == entry.1) =
        (acceptedBy codec entry.1 (runtime.pollMoments codec timeout single)).map
          fun command => (entry.1, command)
  held : ∀ later server, runtime.pollReady codec timeout single = (.ok none, later) →
    later.ipc = some server → ∀ entry ∈ server.clients, entry.2.commands.length ≤ frameBudget
  completed : ∀ server, (runtime.pollOnce codec timeout single).2.ipc = some server →
    ∀ entry ∈ server.clients, entry.2.taken = [] ∧
      (entry.2.isOpen = true → entry.2.commands = [])

theorem Held.pipelined (hheld : Held codec [] runtime.ipc) (timeout : Nat) (single : Bool) :
    runtime.Pipelined codec timeout single := by
  obtain ⟨hturned, _⟩ := turned_pollReady timeout single hheld
  have hready : ∀ later server, runtime.pollReady codec timeout single = (.ok none, later) →
      later.ipc = some server →
        Holding codec (runtime.pollMoments codec timeout single) server := by
    intro later server hlater
    have hheldAfter := hturned.held
    rw [hlater] at hheldAfter
    exact hheldAfter server
  refine ⟨fun server hserver => (hheld server hserver).bounded, hturned.room, ?_, ?_, ?_⟩
  · intro later server hlater hserver entry hentry hopen
    have hholding := hready later server hlater hserver
    have htaken := IpcServer.takeAll_filter (List.nodup_cons.mp hholding.distinct).2 hentry
    rw [Client.takeCommands, if_pos hopen, hholding.accepted entry hentry hopen] at htaken
    rw [takeCommands, hserver]
    exact htaken
  · exact fun later server hlater hserver => (hready later server hlater hserver).bounded
  · intro server hserver entry hentry
    have hholding := held_pollOnce timeout single hheld server hserver
    exact ⟨hholding.taken entry hentry, hholding.accepted entry hentry⟩

/-- In every run of the reactor that reads its connections in iterations, pipelined
commands never exceed the limit, and each that is accepted from a connection is completed
in its iteration when the connection is still open. -/
theorem loop_pipelined (codec : Codec) (config : Config) (dryRun : Bool) (platform : P)
    (path : PathBuf) (accepts : List AcceptAnswer) (steps : List (LoopStep P))
    (hpolls : Polls steps) (timeout : Nat) (single : Bool) :
    ((start config dryRun platform (some (.bind path accepts)) : Runtime P D).loop codec
      steps).Pipelined codec timeout single := by
  refine Held.pipelined (held_loop steps hpolls ?_) timeout single
  rintro server ⟨⟩
  exact IpcServer.holding_bind path accepts

end Runtime

/-- A peer that says hello and asks for a stop at once. -/
def pipelining (writes : List WriteAnswer) : UnixStream where
  reads := [.data (Lines.glue newline [helloText, stopText] [])]
  writes := writes

def pipeliningStart (writes : List WriteAnswer) : Runtime PollingPlatform FakeDevice :=
  .start {} false ⟨[.ready 1 [{}, { pollin := true }], readable]⟩
    (some (.bind (.ofString "/run/wiiland.sock")
      [.accepted (pipelining writes).reads writes true]))

section Pipelining

open Client

variable {status : Status} {devices : List DeviceInfo} {writes : List WriteAnswer}

/-- The connection once both its lines are handled. -/
def pipelined (writes : List WriteAnswer) : Client :=
  { (greeted []).handling (some 2) with
    stream := { writes }
    commands := [(2, .stopCapture)] }

theorem pipelining_readTurn :
    (Client.new (pipelining writes)).readTurn talkCodec status devices { pollin := true } =
      (true, pipelined writes) := by
  have hread := @readClient_lines talkCodec status devices (.new (pipelining writes))
    [helloText, stopText] [] rfl rfl rfl rfl (List.forall_mem_cons.mpr
      ⟨helloText_short, List.forall_mem_singleton.mpr stopText_short⟩)
    (by simp [Lines.glue]) (pair_length helloText_short stopText_short)
  have hhello := handleFrame_hello_first greets_talkCodec status devices { writes } [stopText]
  have hstop := @handleFrame_stop { greeted [] with stream := { writes } } rfl rfl status devices
  have hpair := @processPending_pair talkCodec status devices
    { Client.new { writes } with pendingFrames := [helloText, stopText] }
    helloText stopText _ rfl hhello rfl 6
  exact hread.trans (congrArg (fun later => (true, later.2))
    (hpair.trans (congrArg (Prod.mk 6) hstop)))

/-- A connection that has something to write and whose peer is gone is lost. -/
theorem serve_lost {codec : Codec} {client middle : Client} {revents : Revents}
    (hread : client.readTurn codec status devices revents = (true, middle))
    (hkept : middle.immediateClose = false) (houtput : middle.output ≠ [])
    (hwrites : middle.stream.writes = [.failed]) :
    client.serve codec status devices revents = none := by
  have hfails : ∀ bytes, middle.stream.write bytes =
      (.failed, { middle.stream with writes := [] }) := by
    intro bytes
    rw [UnixStream.write, hwrites]
  have hwrite : (writeTurn true middle revents).1 = false := by
    rw [writeTurn, if_pos (by simp [houtput]), writeReady, writeLoop, if_neg (by decide)]
    split
    · next hnone => exact absurd hnone houtput
    · simp only [hfails]
  rw [serve, hread]
  simp only [hkept, Bool.not_false, Bool.and_true, hwrite, Bool.false_and, Bool.false_eq_true,
    if_false]

/-- The stop is accepted. -/
theorem pipelining_turnMoments :
    ((Client.new (pipelining writes)).turnMoments talkCodec status devices
      { pollin := true }).filterMap (accepted talkCodec) = [(2, .stopCapture)] := by
  have hspends := (@spends_readTurn talkCodec status devices (.new (pipelining writes))
    { pollin := true }).commands
  rw [pipelining_readTurn] at hspends
  exact hspends.symm

end Pipelining

namespace Polling

variable {codec : Codec} {path : PathBuf} {polls : List Polled} {client : Client}
variable {runtime : Runtime PollingPlatform FakeDevice}

theorem handleReady_lost (hpolling : Polling path polls client runtime)
    (hserve : ∀ status, client.serve codec status [] { pollin := true } = none) :
    runtime.handleReady codec 2 { pollin := true } =
      (.ok (), { runtime with ipc := some { serving path client with clients := [] } }) := by
  have hdevices : deviceSnapshot runtime.slots = [] := by
    rw [hpolling.slots]
    rfl
  rw [Runtime.handleReady, hpolling.ipc, hdevices]
  simp only [IpcServer.handleReady]
  rw [if_neg (by decide), show (serving path client).find 2 = some client from rfl]
  simp only [hserve]
  rfl

/-- When the turn of the connection ends it, no command is left to be completed. -/
theorem pollReady_lost (hpolling : Polling path (readable :: polls) client runtime)
    (hserve : ∀ status, client.serve codec status [] { pollin := true } = none) :
    ∃ later, runtime.pollReady codec 0 false = (.ok none, later) ∧ later.takeCommands.1 = [] :=
  ⟨_, hpolling.pollReady_turn (hpolling.polled.handleReady_lost hserve), rfl⟩

/-- The frames of an iteration are those of the turn of the connection. -/
theorem pollMoments_turn (hpolling : Polling path (readable :: polls) client runtime) :
    ∃ status, runtime.pollMoments codec 0 false =
      (client.turnMoments codec status [] { pollin := true }).map fun moment => (2, moment) := by
  have hready : ∃ status, Runtime.readyMoments codec
      { runtime with platform := PollingPlatform.mk polls, dispatchStarted := 0 } 2
        { pollin := true } =
      (client.turnMoments codec status [] { pollin := true }).map fun moment => (2, moment) := by
    have hdevices : deviceSnapshot runtime.slots = [] := by
      rw [hpolling.slots]
      rfl
    refine ⟨statusSnapshot runtime.slots runtime.dryRun 1 path, ?_⟩
    simp only [Runtime.readyMoments, hpolling.ipc, hdevices, IpcServer.readyMoments]
    rw [if_neg (by decide)]
    rfl
  obtain ⟨status, hready⟩ := hready
  refine ⟨status, ?_⟩
  rw [Runtime.pollMoments_dispatched hpolling.poll rfl rfl (by rw [hpolling.reports]; rfl)
    (by decide), hpolling.reports]
  change Runtime.serveMoments codec _ (if false || runtime.monitorPending then _ else _) = _
  rw [if_neg (by rw [hpolling.idle]; decide)]
  change Runtime.serveMoments codec [(.ipc 2, { pollin := true })] _ = _
  rw [Runtime.serveMoments, if_pos (by rfl), hready]
  split
  · exact List.append_nil _
  · exact List.append_nil _

end Polling

theorem pipelining_ready (writes : List WriteAnswer) :
    ∃ ready, (pipeliningStart writes).pollReady talkCodec 0 false = (.ok none, ready) ∧
      Polling (.ofString "/run/wiiland.sock") [readable] (.new (pipelining writes)) ready :=
  ⟨_, Runtime.pollReady_dispatched rfl rfl rfl rfl (by decide) rfl, rfl, rfl, rfl, rfl⟩

theorem pipelining_accepted (writes : List WriteAnswer) :
    Polling (.ofString "/run/wiiland.sock") [readable] (.new (pipelining writes))
      ((pipeliningStart writes).loop talkCodec [.pollOnce 0 false]) := by
  obtain ⟨ready, hready, hpolled⟩ := pipelining_ready writes
  change Polling _ _ _ ((pipeliningStart writes).pollOnce talkCodec 0 false).2
  rw [Runtime.pollOnce, hready]
  exact hpolled.serviceCommands rfl

/-- The stop is completed in the iteration in which it was read. -/
theorem pipelining_completed :
    ∃ client, ((pipeliningStart []).loop talkCodec [.pollOnce 0 false, .pollOnce 0 false]).ipc =
        some (serving (.ofString "/run/wiiland.sock") client) ∧
      client.isOpen = true ∧ client.commands = [] ∧
      client.history.map Prod.fst = [helloReply, stopReply] := by
  have hserve := fun status => @Client.serve_blocked talkCodec status [] _ _ _
    (@pipelining_readTurn status [] []) rfl rfl
  have hipc := (pipelining_accepted []).pollOnce_stop hserve rfl rfl
  refine ⟨_, hipc, ?_⟩
  rw [complete_stop (by exact (by decide : 118 ≤ 300))]
  exact ⟨rfl, rfl, rfl⟩

/-- A run whose only connection stays, and has its stop completed. -/
theorem pipelined_stop :
    ((pipeliningStart []).loop talkCodec [.pollOnce 0 false]).Pipelined talkCodec 0 false ∧
      ∃ client,
        ((pipeliningStart []).loop talkCodec [.pollOnce 0 false, .pollOnce 0 false]).ipc =
          some (serving (.ofString "/run/wiiland.sock") client) ∧
        client.isOpen = true ∧ client.commands = [] ∧
        client.history.map Prod.fst = [helloReply, stopReply] :=
  ⟨Runtime.loop_pipelined talkCodec {} false _ _ _ [.pollOnce 0 false]
    (fun _ _ hmem => by cases List.mem_singleton.mp hmem) 0 false, pipelining_completed⟩

/-- The writes of a peer that is gone before it is answered. -/
def hasty : List WriteAnswer := [.failed]

theorem hasty_serve {status : Status} {devices : List DeviceInfo} :
    (Client.new (pipelining hasty)).serve talkCodec status devices { pollin := true } = none :=
  serve_lost pipelining_readTurn rfl (List.cons_ne_nil _ _) rfl

/-- A command that is accepted may never be completed: its connection may end in the turn
in which it was decoded. -/
theorem hasty_uncompleted :
    ¬∀ (codec : Codec) (config : Config) (dryRun : Bool) (platform : PollingPlatform)
        (path : PathBuf) (accepts : List AcceptAnswer) (steps : List (LoopStep PollingPlatform)),
      Runtime.Polls steps → ∀ (timeout : Nat) (single : Bool)
        (runtime : Runtime PollingPlatform FakeDevice),
      runtime = (Runtime.start config dryRun platform (some (.bind path accepts))).loop codec
        steps →
      (∀ server, runtime.ipc = some server →
        ∀ entry ∈ server.clients, entry.2.commands.length ≤ frameBudget) ∧
      (∀ moment ∈ runtime.pollMoments codec timeout single,
        moment.2.1.commands.length < frameBudget) ∧
      ∀ later, runtime.pollReady codec timeout single = (.ok none, later) →
        ∀ token, ∀ command ∈ acceptedBy codec token (runtime.pollMoments codec timeout single),
          (token, command) ∈ later.takeCommands.1 := by
  intro hclaim
  obtain ⟨later, hlater, hnone⟩ := (pipelining_accepted hasty).pollReady_lost fun _ => hasty_serve
  obtain ⟨status, hmoments⟩ :=
    @Polling.pollMoments_turn talkCodec _ _ _ _ (pipelining_accepted hasty)
  have hcompleted := (hclaim talkCodec {} false _ _ _ [.pollOnce 0 false]
    (fun _ _ hmem => by cases List.mem_singleton.mp hmem) 0 false _ rfl).2.2 later hlater 2
    (2, .stopCapture)
  rw [hnone] at hcompleted
  refine List.not_mem_nil (hcompleted ?_)
  change _ ∈ acceptedBy talkCodec 2
    (((pipeliningStart hasty).loop talkCodec [.pollOnce 0 false]).pollMoments talkCodec 0 false)
  rw [hmoments, acceptedBy_own, pipelining_turnMoments]
  exact List.mem_singleton_self _

end Daemon

end Wiiland
