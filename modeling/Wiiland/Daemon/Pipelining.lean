/-
How a connection spends the budget of its turn.  Each frame takes one unit of it and leaves
at most one command to the reactor.
-/
import Wiiland.Daemon.Packing

namespace Wiiland

namespace Daemon

open Ipc

namespace Client

/-- The command that a frame leaves to the reactor, where `handle_frame` queues it. -/
def accepted (codec : Codec) (moment : Client × List UInt8) : Option (UInt64 × Command) :=
  match decodeFrame codec.requests moment.2 with
  | .error _ => none
  | .ok request =>
      if moment.1.negotiated && isDeferred request.command &&
          !moment.1.captureRefused request.command &&
          decide (moment.1.commands.length < frameBudget) then
        some (request.id, request.command)
      else none

/-- The frames that `processPending` handles, each with the connection before it. -/
def pendingMoments (codec : Codec) (status : Status) (devices : List DeviceInfo) :
    Nat → Client → List (Client × List UInt8)
  | 0, _ => []
  | budget + 1, client =>
      match client.pendingFrames with
      | [] => []
      | frame :: rest =>
          let before := { client with pendingFrames := rest }
          let after := handleFrame codec status devices before frame
          (before, frame) ::
            if after.isOpen then pendingMoments codec status devices budget after else []

/-- The frames that `readLoop` handles. -/
def loopMoments (codec : Codec) (status : Status) (devices : List DeviceInfo) :
    Nat → Nat → Client → List (Client × List UInt8)
  | 0, _, _ => []
  | reads + 1, budget, client =>
      match client.stream.read with
      | (.wouldBlock, _) | (.failed, _) => []
      | (.data bytes, stream) =>
          if bytes = [] then []
          else
            match client.frames.push bytes with
            | (.error _, _) => []
            | (.ok whole, frames) =>
                let arrived := { client with
                  stream
                  frames
                  pendingFrames := client.pendingFrames ++ whole }
                let (left, later) := processPending codec status devices budget arrived
                pendingMoments codec status devices budget arrived ++
                  if !later.isOpen || left == 0 || later.pendingFrames != [] ||
                      bytes.length < readChunk then []
                  else loopMoments codec status devices reads left later

/-- The frames that `readClient` handles. -/
def readMoments (codec : Codec) (status : Status) (devices : List DeviceInfo)
    (client : Client) : List (Client × List UInt8) :=
  let (left, later) := processPending codec status devices frameBudget client
  pendingMoments codec status devices frameBudget client ++
    if left == 0 || later.pendingFrames != [] || !later.isOpen then []
    else loopMoments codec status devices readBudget left later

/-- The frames that `readTurn` handles. -/
def turnMoments (codec : Codec) (status : Status) (devices : List DeviceInfo)
    (client : Client) (revents : Revents) : List (Client × List UInt8) :=
  if client.isOpen && (revents.pollin || revents.pollerr || revents.pollhup ||
      revents.pollnval || client.pendingFrames != []) then
    client.readMoments codec status devices
  else []

variable {codec : Codec} {status : Status} {devices : List DeviceInfo}
  {client middle later : Client}

/-- The commands and the leases of a connection stay, and what ends it stays. -/
structure Quiet (client later : Client) : Prop where
  commands : later.commands = client.commands
  taken : later.taken = client.taken
  capture : later.capture = client.capture
  opened : later.isOpen = true → client.isOpen = true

theorem quiet_refl (client : Client) : Quiet client client := ⟨rfl, rfl, rfl, id⟩

theorem Quiet.trans (hfirst : Quiet client middle) (hsecond : Quiet middle later) :
    Quiet client later :=
  ⟨hsecond.commands.trans hfirst.commands, hsecond.taken.trans hfirst.taken,
    hsecond.capture.trans hfirst.capture, fun hopen => hfirst.opened (hsecond.opened hopen)⟩

theorem not_isOpen_immediateClose :
    ¬{ client with immediateClose := true }.isOpen = true := fun hopen =>
  Bool.noConfusion (isOpen_iff.mp hopen).2

theorem quiet_send (message : ServerMessage) (bytes : List UInt8) :
    Quiet client (client.send message bytes) := by
  rw [send, queueEncoded]
  split
  · exact ⟨rfl, rfl, rfl, fun hopen => absurd hopen not_isOpen_immediateClose⟩
  · exact ⟨rfl, rfl, rfl, id⟩

theorem quiet_replies {id : Option UInt64} (hreply : Replies codec id client later) :
    Quiet client later := by
  cases hreply with
  | sent message bytes _ _ => exact quiet_send message bytes
  | lost => exact ⟨rfl, rfl, rfl, fun hopen => absurd hopen not_isOpen_immediateClose⟩

theorem quiet_offer (notification : Notification) (frame : List UInt8) :
    Quiet client (client.offer notification frame) := by
  rw [offer]
  split
  · exact quiet_send _ _
  · exact quiet_refl client

theorem quiet_writeLoop (budget : Nat) : Quiet client (client.writeLoop budget).2 := by
  have hclosing : ∀ stream, Quiet client { client with stream, closing := true } :=
    fun stream => ⟨rfl, rfl, rfl, fun hopen => Bool.noConfusion (isOpen_iff.mp hopen).1⟩
  induction budget using Nat.strongRecOn generalizing client with
  | ind budget ih =>
      rw [writeLoop]
      split
      · exact quiet_refl client
      · next hbudget =>
        split
        · exact quiet_refl client
        · next front rest _ =>
          split
          · next count stream _ =>
            split
            · exact hclosing stream
            · have hwrote : Quiet client { client with
                  stream
                  output := advance front rest count
                  queuedBytes := client.queuedBytes - count
                  saturated := client.saturated || decide (client.queuedBytes < count) } :=
                ⟨rfl, rfl, rfl, id⟩
              refine hwrote.trans (ih (budget - count) (by omega) fun stream => ?_)
              exact ⟨rfl, rfl, rfl, fun hopen => Bool.noConfusion (isOpen_iff.mp hopen).1⟩
          · exact ⟨rfl, rfl, rfl, id⟩
          · next stream _ => exact hclosing stream

theorem quiet_writeTurn (kept : Bool) (revents : Revents) :
    Quiet client (writeTurn kept client revents).2 := by
  rw [writeTurn]
  split
  · exact quiet_writeLoop writeBudget
  · exact quiet_refl client

theorem commands_defer (id : UInt64) (command : Command) :
    (client.defer codec id command).commands = client.commands ++
      if !client.captureRefused command && decide (client.commands.length < frameBudget) then
        [(id, command)] else [] := by
  rw [defer]
  cases hrefused : client.captureRefused command with
  | true =>
      rw [if_pos rfl]
      exact (quiet_replies (replies_queue rfl)).commands.trans (List.append_nil _).symm
  | false =>
      rw [if_neg Bool.false_ne_true]
      by_cases hfull : frameBudget ≤ client.commands.length
      · rw [if_pos hfull, decide_eq_false (Nat.not_lt.mpr hfull)]
        exact (List.append_nil _).symm
      · rw [if_neg hfull, decide_eq_true (Nat.not_le.mp hfull)]
        rfl

theorem commands_negotiate (id : UInt64) (command : Command) :
    (client.negotiate codec id command).commands = client.commands := by
  have hrefused : ∀ error, ({ client.queue codec (.error (some id) error) with
      closing := true } : Client).commands = client.commands := fun error =>
    (quiet_replies (replies_queue rfl)).commands
  cases command with
  | hello minMajor maxMajor =>
      by_cases hversion : minMajor ≤ protocolMajor ∧ protocolMajor ≤ maxMajor
      · simp only [negotiate, if_pos hversion]
        exact (quiet_replies (replies_queueResponse _ _)).commands
      · simp only [negotiate, if_neg hversion]
        exact hrefused _
  | _ => exact hrefused _

theorem commands_handleCommand (id : UInt64) (command : Command) :
    (client.handleCommand codec status devices id command).commands = client.commands ++
      if isDeferred command && !client.captureRefused command &&
          decide (client.commands.length < frameBudget) then [(id, command)] else [] := by
  cases command with
  | hello | unknown =>
      exact (quiet_replies (replies_queue rfl)).commands.trans (List.append_nil _).symm
  | ping | status | devices =>
      exact (quiet_replies (replies_queueResponse _ _)).commands.trans (List.append_nil _).symm
  | subscribe subscriptions =>
      obtain ⟨input, listed, hsame⟩ := @applySubscriptions_eq client subscriptions true
      rw [handleCommand, hsame]
      exact (quiet_replies (replies_queueResponse _ _)).commands.trans (List.append_nil _).symm
  | unsubscribe subscriptions =>
      obtain ⟨input, listed, hsame⟩ := @applySubscriptions_eq client subscriptions false
      rw [handleCommand, hsame]
      exact (quiet_replies (replies_queueResponse _ _)).commands.trans (List.append_nil _).symm
  | diagnostics | config | startCapture | stopCapture => exact commands_defer id _

/-- A frame adds the command that is accepted, and no other. -/
theorem commands_handleFrame (frame : List UInt8) :
    (client.handleFrame codec status devices frame).commands =
      client.commands ++ (accepted codec (client, frame)).toList := by
  rw [handleFrame, accepted]
  cases hdecode : decodeFrame codec.requests frame with
  | error error =>
      exact (quiet_replies (replies_queue rfl)).commands.trans (List.append_nil _).symm
  | ok request =>
      have hsame : (client.handling (some request.id)).negotiated = client.negotiated := rfl
      have hcapture : (client.handling (some request.id)).captureRefused request.command =
          client.captureRefused request.command := by
        cases request.command <;> rfl
      simp only [hsame]
      cases hnegotiated : client.negotiated with
      | false =>
          rw [if_neg Bool.false_ne_true, commands_negotiate]
          exact (List.append_nil _).symm
      | true =>
          rw [if_pos rfl, commands_handleCommand, hcapture, Bool.true_and]
          refine congrArg (client.commands ++ ·) ?_
          change (if isDeferred request.command && !client.captureRefused request.command &&
            decide (client.commands.length < frameBudget) then _ else _) = _
          split <;> rfl

theorem kept_handleFrame (frame : List UInt8) :
    (client.handleFrame codec status devices frame).taken = client.taken ∧
      (client.handleFrame codec status devices frame).capture = client.capture := by
  have hhandles := @handles_handleFrame codec status devices client frame
  generalize client.handleFrame codec status devices frame = later at hhandles ⊢
  generalize frameId codec frame = id at hhandles
  cases hhandles with
  | undecoded hreply => exact ⟨(quiet_replies hreply).taken, (quiet_replies hreply).capture⟩
  | accepted id _ hreply =>
      exact ⟨(quiet_replies hreply).taken, (quiet_replies hreply).capture⟩
  | refused id _ hreply =>
      exact ⟨(quiet_replies hreply).taken, (quiet_replies hreply).capture⟩
  | answered id input devices _ hreply =>
      exact ⟨(quiet_replies hreply).taken, (quiet_replies hreply).capture⟩
  | overrun id _ => exact ⟨rfl, rfl⟩
  | deferred id command _ => exact ⟨rfl, rfl⟩

/-- Frames spend their number of a budget, and add the commands that are accepted. -/
structure Spends (codec : Codec) (budget left : Nat) (client later : Client)
    (moments : List (Client × List UInt8)) : Prop where
  commands : later.commands = client.commands ++ moments.filterMap (accepted codec)
  taken : later.taken = client.taken
  capture : later.capture = client.capture
  spent : moments.length + left ≤ budget
  room : ∀ moment ∈ moments, moment.1.commands.length < client.commands.length + budget

variable {budget left : Nat} {moments : List (Client × List UInt8)}

theorem spends_nothing (hcommands : later.commands = client.commands)
    (htaken : later.taken = client.taken) (hcapture : later.capture = client.capture) :
    Spends codec budget budget client later [] :=
  ⟨hcommands.trans (List.append_nil _).symm, htaken, hcapture, (Nat.zero_add budget).le,
    fun _ hmoment => absurd hmoment List.not_mem_nil⟩

theorem Spends.weaken (hspends : Spends codec budget left client later moments) :
    Spends codec budget 0 client later moments :=
  ⟨hspends.commands, hspends.taken, hspends.capture, (Nat.le_add_right _ left).trans hspends.spent,
    hspends.room⟩

theorem spends_none (hcommands : later.commands = client.commands)
    (htaken : later.taken = client.taken) (hcapture : later.capture = client.capture) :
    Spends codec budget 0 client later [] :=
  (spends_nothing hcommands htaken hcapture).weaken

theorem Spends.length_commands (hspends : Spends codec budget left client later moments) :
    later.commands.length + left ≤ client.commands.length + budget := by
  have haccepted := List.length_filterMap_le (accepted codec) moments
  have hspent := hspends.spent
  rw [hspends.commands, List.length_append]
  omega

theorem Spends.trans {rest : List (Client × List UInt8)} {last : Nat}
    (hfirst : Spends codec budget left client middle moments)
    (hsecond : Spends codec left last middle later rest) :
    Spends codec budget last client later (moments ++ rest) where
  commands := by
    rw [hsecond.commands, hfirst.commands, List.filterMap_append, List.append_assoc]
  taken := hsecond.taken.trans hfirst.taken
  capture := hsecond.capture.trans hfirst.capture
  spent := by
    have hone := hfirst.spent
    have htwo := hsecond.spent
    rw [List.length_append]
    omega
  room := by
    intro moment hmoment
    rcases List.mem_append.mp hmoment with hmoment | hmoment
    · exact hfirst.room moment hmoment
    · have hroom := hsecond.room moment hmoment
      have hlength := hfirst.length_commands
      omega

theorem spends_handleFrame (frame : List UInt8) :
    Spends codec (budget + 1) budget client (client.handleFrame codec status devices frame)
      [(client, frame)] where
  commands := commands_handleFrame frame
  taken := (kept_handleFrame frame).1
  capture := (kept_handleFrame frame).2
  spent := (Nat.add_comm 1 budget).le
  room moment hmoment := by
    rw [List.mem_singleton.mp hmoment]
    exact Nat.lt_add_of_pos_right budget.succ_pos

theorem spends_processPending (budget : Nat) :
    Spends codec budget (processPending codec status devices budget client).1 client
      (processPending codec status devices budget client).2
      (pendingMoments codec status devices budget client) := by
  induction budget generalizing client with
  | zero => exact spends_nothing rfl rfl rfl
  | succ budget ih =>
      cases hframes : client.pendingFrames with
      | nil =>
          simp only [processPending, pendingMoments, hframes]
          exact spends_nothing rfl rfl rfl
      | cons frame rest =>
          have hframe := @spends_handleFrame codec status devices
            { client with pendingFrames := rest } budget frame
          have hspends : ∀ {last later more}, Spends codec (budget + 1) last
              { client with pendingFrames := rest } later more →
                Spends codec (budget + 1) last client later more :=
            fun h => ⟨h.commands, h.taken, h.capture, h.spent, h.room⟩
          simp only [processPending, pendingMoments, hframes]
          split
          · exact hspends (hframe.trans ih)
          · exact hspends hframe

theorem spends_readLoop (reads budget : Nat) :
    Spends codec budget 0 client (readLoop codec status devices reads budget client).2
      (loopMoments codec status devices reads budget client) := by
  induction reads generalizing budget client with
  | zero => exact spends_none rfl rfl rfl
  | succ reads ih =>
      rw [readLoop, loopMoments]
      rcases client.stream.read with ⟨answer, stream⟩
      cases answer with
      | wouldBlock => exact spends_none rfl rfl rfl
      | failed => exact spends_none rfl rfl rfl
      | data bytes =>
          simp only
          by_cases hend : bytes = []
          · rw [if_pos hend, if_pos hend]
            exact spends_none rfl rfl rfl
          · rw [if_neg hend, if_neg hend]
            rcases client.frames.push bytes with ⟨pushed, frames⟩
            cases pushed with
            | error error =>
                have hquiet := quiet_replies (@replies_refuse codec
                  { client with stream, frames } error)
                exact spends_none hquiet.commands hquiet.taken hquiet.capture
            | ok whole =>
                have hpending := @spends_processPending codec status devices
                  { client with stream, frames, pendingFrames := client.pendingFrames ++ whole }
                  budget
                have hspends : ∀ {last later more}, Spends codec budget last { client with
                    stream, frames, pendingFrames := client.pendingFrames ++ whole }
                    later more → Spends codec budget last client later more :=
                  fun h => ⟨h.commands, h.taken, h.capture, h.spent, h.room⟩
                simp only
                split
                · rw [List.append_nil]
                  exact (hspends hpending).weaken
                · exact hspends (hpending.trans (ih _))

theorem spends_readClient :
    Spends codec frameBudget 0 client (client.readClient codec status devices).2
      (client.readMoments codec status devices) := by
  have hpending := @spends_processPending codec status devices client frameBudget
  rw [readClient, readMoments]
  simp only
  split
  · rw [List.append_nil]
    exact hpending.weaken
  · exact hpending.trans (spends_readLoop ..)

theorem spends_readTurn (revents : Revents) :
    Spends codec frameBudget 0 client (client.readTurn codec status devices revents).2
      (client.turnMoments codec status devices revents) := by
  rw [readTurn, turnMoments]
  split
  · exact spends_readClient
  · exact spends_none rfl rfl rfl

/-- The turn of a connection: frames within the budget, and then what keeps its commands. -/
theorem serve_spends {revents : Revents}
    (hserve : client.serve codec status devices revents = some later) :
    ∃ middle, Spends codec frameBudget 0 client middle
        (client.turnMoments codec status devices revents) ∧
      Quiet middle later ∧ (client.isOpen = false → middle = client) := by
  have hread := @spends_readTurn codec status devices client revents
  have hclosed : client.isOpen = false →
      (client.readTurn codec status devices revents).2 = client := fun hclosed => by
    rw [readTurn, hclosed]
    rfl
  rw [serve] at hserve
  simp only at hserve
  split at hserve
  · cases hserve
    exact ⟨_, hread, quiet_writeTurn _ revents, hclosed⟩
  · cases hserve

end Client

end Daemon

end Wiiland
