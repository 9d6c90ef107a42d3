/-
The reactor and its server.  Every step of the reactor is a sequence of turns of the
server; which completions it makes is told by the commands that it services.
-/
import Wiiland.Daemon.Runtime
import Wiiland.Daemon.ServerTurns

namespace Wiiland

namespace Daemon

open Hid Ipc
open IpcServer (Turn Turns)

/-- A server, if there is one, makes turns. -/
inductive Served (codec : Codec) (allowed : Completions) :
    Option IpcServer → Option IpcServer → Prop
  | none : Served codec allowed none none
  | some {server later : IpcServer} (hturns : Turns codec allowed server later) :
      Served codec allowed (some server) (some later)

namespace Served

variable {codec : Codec} {allowed : Completions}

theorem refl (ipc : Option IpcServer) : Served codec allowed ipc ipc :=
  match ipc with
  | .none => .none
  | .some _ => .some .refl

theorem trans {first second third : Option IpcServer} (hone : Served codec allowed first second)
    (htwo : Served codec allowed second third) : Served codec allowed first third := by
  cases hone with
  | none => exact htwo
  | some hturns =>
      cases htwo with
      | some hrest => exact .some (hturns.trans hrest)

theorem single {server later : IpcServer} (hturn : Turn codec allowed server later) :
    Served codec allowed (.some server) (.some later) := .some (.single hturn)

theorem map {change : IpcServer → IpcServer} (ipc : Option IpcServer)
    (hchange : ∀ server, ipc = .some server → Turn codec allowed server (change server)) :
    Served codec allowed ipc (ipc.map change) :=
  match ipc, hchange with
  | .none, _ => .none
  | .some server, hchange => .single (hchange server rfl)

end Served

/-- Notifications are published to a server, if there is one. -/
def Published (codec : Codec) (ipc later : Option IpcServer) : Prop :=
  ∃ notifications : List Notification,
    later = ipc.map fun server => notifications.foldl (IpcServer.publish codec) server

namespace Published

variable {codec : Codec} {ipc first second third : Option IpcServer}

theorem refl (ipc : Option IpcServer) : Published codec ipc ipc := ⟨[], Option.map_id'.symm⟩

theorem trans (hone : Published codec first second) (htwo : Published codec second third) :
    Published codec first third := by
  obtain ⟨notifications, rfl⟩ := hone
  obtain ⟨others, rfl⟩ := htwo
  refine ⟨notifications ++ others, ?_⟩
  simp only [Option.map_map, Function.comp_def, List.foldl_append]

/-- What one publication preserves, all of them preserve. -/
theorem preserves {holds : IpcServer → Prop} (hpublished : Published codec ipc second)
    (hpublish : ∀ server notification, holds server → holds (server.publish codec notification))
    (hfirst : ∀ server, ipc = some server → holds server) :
    ∀ server, second = some server → holds server := by
  obtain ⟨notifications, rfl⟩ := hpublished
  intro later hlater
  obtain ⟨server, hserver, rfl⟩ := Option.map_eq_some_iff.mp hlater
  have hholds := hfirst server hserver
  clear hlater hserver
  induction notifications generalizing server with
  | nil => exact hholds
  | cons notification notifications ih => exact ih _ (hpublish server notification hholds)

theorem served {allowed : Completions} (hpublished : Published codec first second) :
    Served codec allowed first second := by
  obtain ⟨notifications, rfl⟩ := hpublished
  cases first with
  | none => exact .none
  | some server =>
      refine .some ?_
      induction notifications generalizing server with
      | nil => exact .refl
      | cons notification notifications ih => exact .head (.publish notification) (ih _)

end Published

namespace Runtime

section Publishing

variable {P D : Type} {codec : Codec} (runtime : Runtime P D)

theorem published_publish (path : PathBuf) (notification : Notification) :
    Published codec runtime.ipc (runtime.publish codec path notification).ipc :=
  ⟨[notification], rfl⟩

theorem published_foldl {A : Type} {change : Runtime P D → A → Runtime P D} (items : List A)
    (hchange : ∀ (runtime : Runtime P D) item,
      Published codec runtime.ipc (change runtime item).ipc) :
    Published codec runtime.ipc (items.foldl change runtime).ipc := by
  induction items generalizing runtime with
  | nil => exact .refl runtime.ipc
  | cons item items ih => exact (hchange runtime item).trans (ih _)

theorem published_collect (path : PathBuf) (events : List Event) :
    Published codec runtime.ipc (runtime.collect codec path events).ipc :=
  published_foldl { runtime with
    notificationSequence := (observe path.toStringLossy runtime.notificationSequence events).1 }
    (observe path.toStringLossy runtime.notificationSequence events).2
    fun runtime input => published_publish runtime path input

theorem published_dropSlot (slot : Nat) (path : PathBuf) (reason : RemovalReason) :
    Published codec runtime.ipc (runtime.dropSlot codec slot path reason).ipc := by
  rw [dropSlot]
  split
  · exact published_publish { runtime with
      slots := runtime.slots.set slot none
      notificationSequence := nextSequence runtime.notificationSequence } path _
  · exact .refl runtime.ipc

variable [DeviceSession D]

theorem published_dropMissing (slot : Nat) :
    Published codec runtime.ipc (runtime.dropMissing codec slot).ipc := by
  rw [dropMissing]
  split
  · exact .refl runtime.ipc
  · exact published_dropSlot ..

theorem published_drainSession (slot : Nat) (device : D) :
    Published codec runtime.ipc (runtime.drainSession codec slot device).2.ipc := by
  rw [drainSession]
  simp only
  split
  · exact published_collect { runtime with
      slots := runtime.slots.set slot (some (DeviceSession.drain device).2) } _ _
  · exact .refl runtime.ipc

theorem published_drainDevice (single : Bool) (slot : Nat) :
    Published codec runtime.ipc (runtime.drainDevice codec single slot).2.ipc := by
  rw [drainDevice]
  split
  · exact .refl runtime.ipc
  · next device _ =>
    have hdrain := @published_drainSession P D codec runtime _ slot device
    simp only
    split
    · next after hafter =>
      rw [hafter] at hdrain
      exact hdrain
    · next after hafter =>
      rw [hafter] at hdrain
      exact hdrain.trans (published_dropSlot ..)
    · next code after hafter =>
      rw [hafter] at hdrain
      exact hdrain.trans (published_dropSlot ..)

theorem published_tickSlot (single : Bool) (slot : Nat) :
    Published codec runtime.ipc (runtime.tickSlot codec single slot).2.ipc := by
  rw [tickSlot]
  split
  · exact .refl runtime.ipc
  · next device _ =>
    split
    · simp only
      split
      · exact .refl runtime.ipc
      · exact published_dropSlot { runtime with
          slots := runtime.slots.set slot (some (DeviceSession.tickPointer device).2) } ..
    · exact .refl runtime.ipc

theorem published_drainReady (single : Bool) (reported : List (PollOwner × Revents)) :
    Published codec runtime.ipc (drainReady codec single reported runtime).2.ipc := by
  induction reported generalizing runtime with
  | nil => exact .refl runtime.ipc
  | cons entry reported ih =>
      obtain ⟨owner, revents⟩ := entry
      cases owner with
      | device slot =>
          have hdrain := @published_drainDevice P D codec runtime _ single slot
          rw [drainReady]
          split
          · split
            · next code after hafter =>
              rw [hafter] at hdrain
              exact hdrain
            · next after hafter =>
              rw [hafter] at hdrain
              exact hdrain.trans (ih _)
          · exact ih _
      | _ => exact ih _

end Publishing

theorem served_takeCommands {P D : Type} {codec : Codec} {allowed : Completions}
    (runtime : Runtime P D) : Served codec allowed runtime.ipc runtime.takeCommands.2.ipc := by
  rw [takeCommands]
  split
  · exact .refl runtime.ipc
  · next server hipc =>
    rw [hipc]
    exact .single .takeCommands

theorem ipc_requestReconcile {P D : Type} [RuntimePlatform P D] (runtime : Runtime P D) :
    runtime.requestReconcile.ipc = runtime.ipc := by
  rw [requestReconcile]
  split
  · rfl
  · split <;> rfl

variable {P D : Type} [DeviceSession D] [RuntimePlatform P D]
variable {codec : Codec} {allowed : Completions} (runtime : Runtime P D)

theorem published_addPath (path : PathBuf) :
    Published codec runtime.ipc (runtime.addPath codec path).2.ipc := by
  rw [addPath]
  split
  · exact .refl runtime.ipc
  · split
    · exact .refl runtime.ipc
    · next slot _ =>
      split
      · exact .refl runtime.ipc
      · next device platform _ =>
        exact published_publish { runtime with
          platform
          deeds := runtime.deeds ++ [.opened path]
          slots := runtime.slots.set slot (some device)
          notificationSequence := nextSequence runtime.notificationSequence } _ _

theorem published_setUp (budget : Nat) :
    Published codec runtime.ipc (setUp codec budget runtime).ipc := by
  induction budget generalizing runtime with
  | zero => exact .refl runtime.ipc
  | succ budget ih =>
      rw [setUp]
      split
      · exact .refl runtime.ipc
      · next path rest _ =>
        exact (published_addPath { runtime with pendingAdditions := rest } path).trans (ih _)

theorem published_takeSnapshot :
    Published codec runtime.ipc (runtime.takeSnapshot codec).ipc := by
  rw [takeSnapshot]
  split
  · split
    · exact .refl runtime.ipc
    · next snapshot platform _ =>
      simp only
      split
      · exact published_foldl { runtime with
          platform
          snapshotPending := false
          deeds := runtime.deeds ++ [.took snapshot] } _ fun runtime slot =>
            published_dropMissing runtime slot
      · exact .refl runtime.ipc
  · exact .refl runtime.ipc

theorem published_serviceDiscovery :
    Published codec runtime.ipc (runtime.serviceDiscovery codec).ipc := by
  have htaken := @published_takeSnapshot P D _ _ codec runtime
  have hready := htaken.trans (published_setUp (runtime.takeSnapshot codec) deviceSetupBudget)
  rw [serviceDiscovery, retryReconcile]
  split
  · rw [ipc_requestReconcile]
    exact hready
  · exact hready

theorem served_handleReady (token : UInt64) (revents : Revents) :
    Served codec allowed runtime.ipc (runtime.handleReady codec token revents).2.ipc := by
  rw [handleReady]
  split
  · exact .refl runtime.ipc
  · next server hipc =>
    rw [hipc]
    exact .single (.handleReady _ _ token revents)

theorem ipc_controlCommand (command : Command) :
    (runtime.controlCommand command).2.ipc = runtime.ipc := by
  cases command with
  | startCapture syspath =>
      rw [controlCommand]
      split
      · rfl
      · simp only
        split <;> rfl
  | _ => rfl

/-- Each of the completions of some commands, one after the other, is allowed. -/
def Completing (codec : Codec) (allowed : Completions) :
    List (UInt64 × UInt64 × Command) → Runtime P D → Prop
  | [], _ => True
  | command :: commands, runtime =>
      (∀ server client, runtime.ipc = some server → (command.1, client) ∈ server.clients →
          allowed client command.2.1 (runtime.controlCommand command.2.2).1) ∧
        Completing codec allowed commands (runtime.completeCommand codec command)

/-- Each of the completions of `service_commands` is allowed. -/
def Services (codec : Codec) (allowed : Completions) (runtime : Runtime P D) : Prop :=
  Completing codec allowed runtime.takeCommands.1 runtime.takeCommands.2

variable {runtime}

theorem served_completeCommand {command : UInt64 × UInt64 × Command}
    (hallowed : ∀ server client, runtime.ipc = some server →
      (command.1, client) ∈ server.clients →
        allowed client command.2.1 (runtime.controlCommand command.2.2).1) :
    Served codec allowed runtime.ipc (runtime.completeCommand codec command).ipc := by
  obtain ⟨token, id, command⟩ := command
  have hipc := ipc_controlCommand runtime command
  rw [completeCommand]
  simp only
  rw [hipc]
  exact .map runtime.ipc fun server hserver =>
    .completeCommand token id _ fun client hclient => hallowed server client hserver hclient

theorem served_completing (commands : List (UInt64 × UInt64 × Command))
    (hcompleting : Completing codec allowed commands runtime) :
    Served codec allowed runtime.ipc (commands.foldl (completeCommand codec) runtime).ipc := by
  induction commands generalizing runtime with
  | nil => exact .refl runtime.ipc
  | cons command commands ih =>
      exact (served_completeCommand hcompleting.1).trans (ih hcompleting.2)

theorem served_serviceCommands (hservices : runtime.Services codec allowed) :
    Served codec allowed runtime.ipc (runtime.serviceCommands codec).ipc :=
  (served_takeCommands runtime).trans (served_completing _ hservices)

theorem served_serveReady (reported : List (PollOwner × Revents)) :
    Served codec allowed runtime.ipc (serveReady codec reported runtime).2.ipc := by
  induction reported generalizing runtime with
  | nil => exact .refl runtime.ipc
  | cons entry reported ih =>
      obtain ⟨owner, revents⟩ := entry
      cases owner with
      | ipc token =>
          have hready := @served_handleReady P D _ _ codec allowed runtime token revents
          rw [serveReady]
          split
          · split
            · next code after hafter =>
              rw [hafter] at hready
              exact hready
            · next after hafter =>
              rw [hafter] at hready
              exact hready.trans ih
          · exact ih
      | _ => exact ih

theorem served_dispatch (single : Bool) (reported : List (PollOwner × Revents)) :
    Served codec allowed runtime.ipc (runtime.dispatch codec single reported).2.ipc := by
  have hdrained : Served codec allowed runtime.ipc
      (drainReady codec single reported runtime).2.ipc :=
    (published_drainReady runtime single reported).served
  rw [dispatch]
  split
  · next code after hafter =>
    rw [hafter] at hdrained
    exact hdrained
  · next after hafter =>
    rw [hafter] at hdrained
    simp only
    split
    · refine hdrained.trans ?_
      have hserved := @served_serveReady P D _ _ codec allowed after.pollMonitor reported
      rw [pollMonitor, ipc_requestReconcile] at hserved
      exact hserved
    · exact hdrained.trans (served_serveReady reported)

theorem served_pollReady (timeout : Nat) (single : Bool) :
    Served codec allowed runtime.ipc (runtime.pollReady codec timeout single).2.ipc := by
  have hdispatch : ∀ platform now reported, Served codec allowed runtime.ipc
      (dispatch codec single reported
        { runtime with platform, dispatchStarted := now }).2.ipc :=
    fun platform now reported => @served_dispatch P D _ _ codec allowed
      { runtime with platform, dispatchStarted := now } single reported
  rw [pollReady]
  simp only
  split
  · exact .refl runtime.ipc
  · split
    · exact .refl runtime.ipc
    · exact .refl runtime.ipc
    · next count revents _ =>
      have hserved := hdispatch
        (RuntimePlatform.shutdownRequested (RuntimePlatform.now (RuntimePlatform.poll
          runtime.platform runtime.pollOwners timeout).2).2).2
        (RuntimePlatform.now (RuntimePlatform.poll runtime.platform runtime.pollOwners
          timeout).2).1
        (reports runtime.pollOwners revents)
      split
      · exact .refl runtime.ipc
      · split
        · exact .refl runtime.ipc
        · split
          · next hafter =>
            rw [hafter] at hserved
            exact hserved
          · next hafter =>
            rw [hafter] at hserved
            exact hserved

/-- An iteration that dispatches what it polled. -/
theorem pollReady_dispatched {timeout count now : Nat} {single : Bool} {revents : List Revents}
    {polled ready platform : P} {later : Runtime P D}
    (hpoll : RuntimePlatform.poll runtime.platform runtime.pollOwners timeout =
      (.ready count revents, polled))
    (hnow : RuntimePlatform.now polled = (now, ready))
    (hgoes : RuntimePlatform.shutdownRequested ready = (false, platform))
    (hsignal : ((reports runtime.pollOwners revents).any fun entry =>
      entry.1 == .signal && entry.2.any) = false)
    (hcount : count ≠ 0)
    (hdispatch : dispatch codec single (reports runtime.pollOwners revents)
      { runtime with platform, dispatchStarted := now } = (.ok (), later)) :
    runtime.pollReady codec timeout single = (.ok none, later) := by
  rw [pollReady]
  simp only [hpoll, hnow, hgoes, hsignal, hdispatch, hcount, decide_false, Bool.false_and,
    Bool.false_eq_true, if_false]

theorem served_pollOnce (timeout : Nat) (single : Bool)
    (hservices : ∀ later, runtime.pollReady codec timeout single = (.ok none, later) →
      later.Services codec allowed) :
    Served codec allowed runtime.ipc (runtime.pollOnce codec timeout single).2.ipc := by
  have hready := @served_pollReady P D _ _ codec allowed runtime timeout single
  rw [pollOnce]
  split
  · next hafter =>
    rw [hafter] at hready
    exact hready
  · next hafter =>
    rw [hafter] at hready
    exact hready
  · next later hafter =>
    rw [hafter] at hready
    exact hready.trans (served_serviceCommands (hservices later hafter))

end Runtime

/-- A step of the reactor, or a whole iteration. -/
inductive LoopStep (P : Type) where
  | reactor (step : ReactorStep P)
  | pollOnce (timeout : Nat) (single : Bool)

namespace Runtime

variable {P D : Type} [DeviceSession D] [RuntimePlatform P D]

def loopStep (codec : Codec) (runtime : Runtime P D) : LoopStep P → Runtime P D
  | .reactor step => runtime.step codec step
  | .pollOnce timeout single => (runtime.pollOnce codec timeout single).2

def loop (codec : Codec) (runtime : Runtime P D) (steps : List (LoopStep P)) : Runtime P D :=
  steps.foldl (loopStep codec) runtime

/-- The completions of a step are allowed. -/
def Meets (codec : Codec) (allowed : Completions) (runtime : Runtime P D) :
    LoopStep P → Prop
  | .reactor .serviceCommands => runtime.Services codec allowed
  | .reactor _ => True
  | .pollOnce timeout single => ∀ later,
      runtime.pollReady codec timeout single = (.ok none, later) → later.Services codec allowed

/-- The completions of every step of a run are allowed. -/
def MeetsAll (codec : Codec) (allowed : Completions) : List (LoopStep P) → Runtime P D → Prop
  | [], _ => True
  | step :: steps, runtime =>
      runtime.Meets codec allowed step ∧ MeetsAll codec allowed steps (runtime.loopStep codec step)

variable {codec : Codec} {allowed : Completions} {runtime : Runtime P D}

theorem served_loopStep {step : LoopStep P} (hmeets : runtime.Meets codec allowed step) :
    Served codec allowed runtime.ipc (runtime.loopStep codec step).ipc := by
  cases step with
  | pollOnce timeout single => exact served_pollOnce timeout single hmeets
  | reactor step =>
      cases step with
      | addPath path => exact (published_addPath runtime path).served
      | requestReconcile =>
          rw [loopStep, step, ipc_requestReconcile]
          exact .refl runtime.ipc
      | serviceDiscovery => exact (published_serviceDiscovery runtime).served
      | drainDevice single slot => exact (published_drainDevice runtime single slot).served
      | tickSlot single slot => exact (published_tickSlot runtime single slot).served
      | handleReady token revents => exact served_handleReady runtime token revents
      | serviceCommands => exact served_serviceCommands hmeets
      | rehash before => exact .map runtime.ipc fun _ _ => .rehash before
      | elapse platform now pending metrics => exact .refl runtime.ipc

/-- Every run of the reactor is a run of its server. -/
theorem served_loop (steps : List (LoopStep P))
    (hmeets : MeetsAll codec allowed steps runtime) :
    Served codec allowed runtime.ipc (runtime.loop codec steps).ipc := by
  induction steps generalizing runtime with
  | nil => exact .refl runtime.ipc
  | cons step steps ih => exact (served_loopStep hmeets.1).trans (ih hmeets.2)

/-- Steps of the reactor lead from one state to the other. -/
def Ran (codec : Codec) (runtime later : Runtime P D) : Prop :=
  ∃ steps, later = runtime.run codec steps

theorem ran_refl (runtime : Runtime P D) : Ran codec runtime runtime := ⟨[], rfl⟩

theorem ran_step (step : ReactorStep P) : Ran codec runtime (runtime.step codec step) :=
  ⟨[step], rfl⟩

theorem Ran.trans {middle later : Runtime P D} (hfirst : Ran codec runtime middle)
    (hsecond : Ran codec middle later) : Ran codec runtime later := by
  obtain ⟨steps, rfl⟩ := hfirst
  obtain ⟨others, rfl⟩ := hsecond
  exact ⟨steps ++ others, (List.foldl_append ..).symm⟩

theorem Ran.of_eq {A : Type} {result : A × Runtime P D} {value : A} {later : Runtime P D}
    (hran : Ran codec runtime result.2) (hresult : result = (value, later)) :
    Ran codec runtime later := by
  rw [hresult] at hran
  exact hran

theorem ran_elapse (platform : P) (now : Nat) (pending : Bool) :
    Ran codec runtime
      { runtime with platform, dispatchStarted := now, monitorPending := pending } :=
  ran_step (.elapse platform now pending runtime.metrics)

theorem ran_drainReady (single : Bool) (reported : List (PollOwner × Revents)) :
    Ran codec runtime (drainReady codec single reported runtime).2 := by
  induction reported generalizing runtime with
  | nil => exact ran_refl runtime
  | cons entry reported ih =>
      obtain ⟨owner, revents⟩ := entry
      cases owner with
      | device slot =>
          have hdrain : Ran codec runtime (runtime.drainDevice codec single slot).2 :=
            ran_step (.drainDevice single slot)
          rw [drainReady]
          split
          · split
            · next hafter => exact hdrain.of_eq hafter
            · next hafter => exact (hdrain.of_eq hafter).trans ih
          · exact ih
      | _ => exact ih

theorem ran_serveReady (reported : List (PollOwner × Revents)) :
    Ran codec runtime (serveReady codec reported runtime).2 := by
  induction reported generalizing runtime with
  | nil => exact ran_refl runtime
  | cons entry reported ih =>
      obtain ⟨owner, revents⟩ := entry
      cases owner with
      | ipc token =>
          have hready : Ran codec runtime (runtime.handleReady codec token revents).2 :=
            ran_step (.handleReady token revents)
          rw [serveReady]
          split
          · split
            · next hafter => exact hready.of_eq hafter
            · next hafter => exact (hready.of_eq hafter).trans ih
          · exact ih
      | _ => exact ih

theorem ran_dispatch (single : Bool) (reported : List (PollOwner × Revents)) :
    Ran codec runtime (dispatch codec single reported runtime).2 := by
  have hdrained := @ran_drainReady P D _ _ codec runtime single reported
  rw [dispatch]
  split
  · next hafter => exact hdrained.of_eq hafter
  · next after hafter =>
    refine (hdrained.of_eq hafter).trans (Ran.trans ?_ (ran_serveReady reported))
    split
    · exact (ran_elapse _ after.dispatchStarted _).trans (ran_step .requestReconcile)
    · exact ran_refl after

theorem ran_pollReady (timeout : Nat) (single : Bool) :
    Ran codec runtime (runtime.pollReady codec timeout single).2 := by
  rw [pollReady]
  simp only
  split
  · exact ran_elapse _ _ runtime.monitorPending
  · split
    · exact ran_elapse _ _ runtime.monitorPending
    · exact ran_elapse _ _ runtime.monitorPending
    · split
      · exact ran_elapse _ _ runtime.monitorPending
      · split
        · exact ran_elapse _ _ runtime.monitorPending
        · have hdispatch : ∀ platform now reported, Ran codec runtime (dispatch codec single
              reported { runtime with platform, dispatchStarted := now }).2 :=
            fun platform now reported =>
              (ran_elapse platform now runtime.monitorPending).trans (ran_dispatch single reported)
          split
          · next hafter => exact (hdispatch _ _ _).of_eq hafter
          · next hafter => exact (hdispatch _ _ _).of_eq hafter

/-- An iteration is a run of steps; when it services the commands, that is the last. -/
theorem ran_pollOnce (timeout : Nat) (single : Bool) :
    Ran codec runtime (runtime.pollOnce codec timeout single).2 := by
  have hready := @ran_pollReady P D _ _ codec runtime timeout single
  rw [pollOnce]
  split
  · next hafter => exact hready.of_eq hafter
  · next hafter => exact hready.of_eq hafter
  · next later hafter => exact (hready.of_eq hafter).trans (ran_step .serviceCommands)

theorem ran_loopStep (step : LoopStep P) : Ran codec runtime (runtime.loopStep codec step) := by
  cases step with
  | pollOnce timeout single => exact ran_pollOnce timeout single
  | reactor step => exact ran_step step

/-- The reactor's loop is a run of steps. -/
theorem ran_loop (steps : List (LoopStep P)) : Ran codec runtime (runtime.loop codec steps) := by
  induction steps generalizing runtime with
  | nil => exact ran_refl runtime
  | cons step steps ih => exact (ran_loopStep step).trans ih

end Runtime

end Daemon

end Wiiland
