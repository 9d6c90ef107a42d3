/-
The capture leases of the connections.  A lease is taken and given up only when a command
of its own connection is completed.
-/
import Wiiland.Daemon.CommandTurns

namespace Wiiland

namespace Daemon

open Ipc

namespace Client

/-- The leases of a connection differ, and there are no more than the limit. -/
structure Leasing (client : Client) : Prop where
  nodup : client.capture.Nodup
  few : client.capture.length ≤ maxCaptureDevices

/-- The completion is answered with an error: the next message meant for the connection. -/
def Declined (codec : Codec) (client : Client) (id : UInt64)
    (result : Except ProtocolError ResponseResult) : Prop :=
  ∃ error bytes, (client.complete codec id result).history =
    client.history ++ [(.error (some id) error, bytes)]

variable {codec : Codec} {status : Status} {devices : List DeviceInfo} {client later : Client}

theorem leasing_of_nil (hnone : client.capture = []) : client.Leasing :=
  ⟨hnone ▸ List.nodup_nil, hnone ▸ Nat.zero_le _⟩

theorem Leasing.same (hleasing : client.Leasing) (hsame : later.capture = client.capture) :
    later.Leasing := ⟨hsame ▸ hleasing.nodup, hsame ▸ hleasing.few⟩

theorem capture_serve {revents : Revents}
    (hserve : client.serve codec status devices revents = some later) :
    later.capture = client.capture := by
  obtain ⟨middle, hspends, hquiet, _⟩ := serve_spends hserve
  exact hquiet.capture.trans hspends.capture

theorem capture_takeCommands : client.takeCommands.2.capture = client.capture := by
  rw [takeCommands]
  split <;> rfl

theorem capture_queueResponse (id : UInt64) (result : ResponseResult) :
    (client.queueResponse codec id result).capture = client.capture :=
  (quiet_replies (replies_queueResponse id result)).capture

/-- The leases after a completion. -/
theorem capture_complete (id : UInt64) (result : Except ProtocolError ResponseResult) :
    (client.complete codec id result).capture =
      match result with
      | .ok result =>
          if client.leaseRefused result then client.capture else (client.lease result).capture
      | .error _ => client.capture := by
  cases result with
  | error error => exact (quiet_replies (replies_queue rfl)).capture
  | ok result =>
      have hrefused : ({ client with taken := client.taken.erase id } : Client).leaseRefused
          result = client.leaseRefused result := by
        cases result <;> rfl
      have hlease : (({ client with taken := client.taken.erase id } : Client).lease
          result).capture = (client.lease result).capture := by
        cases result with
        | captureStarted info =>
            simp only [lease]
            split <;> rfl
        | _ => rfl
      simp only [complete, hrefused]
      split
      · exact (quiet_replies (replies_queue rfl)).capture
      · exact (capture_queueResponse id result).trans hlease

theorem room_of_granted {info : DeviceInfo}
    (hgranted : ¬client.leaseRefused (.captureStarted info) = true)
    (hnew : ¬client.capture.contains info.syspath = true) :
    client.capture.length < maxCaptureDevices := by
  rw [leaseRefused, Bool.and_eq_true, not_and] at hgranted
  refine Nat.not_le.mp fun hfull => hgranted (decide_eq_true hfull) ?_
  rw [Bool.eq_false_of_not_eq_true hnew]
  rfl

theorem Leasing.complete (hleasing : client.Leasing) (id : UInt64)
    (result : Except ProtocolError ResponseResult) :
    (client.complete codec id result).Leasing := by
  have hcapture := @capture_complete codec client id result
  cases result with
  | error error => exact hleasing.same hcapture
  | ok result =>
      simp only at hcapture
      split at hcapture
      · exact hleasing.same hcapture
      · next hgranted =>
        cases result with
        | captureStarted info =>
            rw [lease] at hcapture
            split at hcapture
            · exact hleasing.same hcapture
            · next hnew =>
              have hfresh : info.syspath ∉ client.capture := fun hmem =>
                hnew (List.contains_iff_mem.mpr hmem)
              refine ⟨hcapture ▸ ?_, hcapture ▸ ?_⟩
              · exact List.nodup_append.mpr ⟨hleasing.nodup, List.nodup_singleton _,
                  fun path hpath other hother hsame =>
                    hfresh (List.mem_singleton.mp hother ▸ hsame ▸ hpath)⟩
              · rw [List.length_append]
                exact room_of_granted hgranted hnew
        | captureStopped => exact leasing_of_nil hcapture
        | _ => exact hleasing.same hcapture

theorem history_send (message : ServerMessage) (bytes : List UInt8) :
    (client.send message bytes).history = client.history ++ [(message, bytes)] := by
  rw [send, queueEncoded]
  split <;> rfl

/-- A completion that takes a new lease. -/
theorem complete_granted {id : UInt64} {info : DeviceInfo}
    (hnew : info.syspath ∉ client.capture)
    (hroom : client.capture.length < maxCaptureDevices) :
    client.complete codec id (.ok (.captureStarted info)) =
      queueResponse codec { client with
        taken := client.taken.erase id
        capture := client.capture ++ [info.syspath] } id (.captureStarted info) := by
  have hcontains : client.capture.contains info.syspath = false :=
    Bool.eq_false_of_not_eq_true fun hmem => hnew (List.contains_iff_mem.mp hmem)
  simp only [complete, leaseRefused, lease, hcontains]
  rw [decide_eq_false (Nat.not_le.mpr hroom)]
  rfl

/-- A completion that takes a new lease is answered with an error exactly when its reply
does not fit a frame, and the error does. -/
theorem declined_granted_iff {id : UInt64} {info : DeviceInfo}
    (hnew : info.syspath ∉ client.capture)
    (hroom : client.capture.length < maxCaptureDevices) :
    Declined codec client id (.ok (.captureStarted info)) ↔
      (∃ error, encodeFrame codec.messages (.response id (.captureStarted info)) =
        .error error) ∧
      ∃ bytes, encodeFrame codec.messages (oversizeError id) = .ok bytes := by
  rw [Declined, complete_granted hnew hroom, queueResponse]
  cases hreply : encodeFrame codec.messages (.response id (.captureStarted info)) with
  | ok bytes =>
      simp only [history_send, List.append_cancel_left_eq, List.cons.injEq, Prod.mk.injEq,
        reduceCtorEq, false_and, exists_const, exists_false]
  | error failure =>
      simp only [queue]
      cases herror : encodeFrame codec.messages (oversizeError id) with
      | ok bytes =>
          simp only [history_send]
          exact ⟨fun _ => ⟨⟨failure, rfl⟩, bytes, rfl⟩, fun _ => ⟨_, bytes, rfl⟩⟩
      | error other =>
          simp only [reduceCtorEq, exists_false, and_false, iff_false]
          rintro ⟨error, bytes, hhistory⟩
          exact absurd (congrArg List.length hhistory) (by simp)

end Client

namespace IpcServer

/-- The leases of every connection. -/
def leases (server : IpcServer) : List (UInt64 × List String) :=
  server.clients.map fun entry => (entry.1, entry.2.capture)

/-- Tokens that differ, and connections whose leases are in order. -/
structure Leasing (server : IpcServer) : Prop where
  distinct : server.Distinct
  leasing : ∀ entry ∈ server.clients, entry.2.Leasing

/-- The connections that are left have the leases they had. -/
def KeepsLeases (server later : IpcServer) : Prop :=
  ∀ entry ∈ later.clients, ∃ client, (entry.1, client) ∈ server.clients ∧
    entry.2.capture = client.capture

variable {codec : Codec} {server middle later : IpcServer}

theorem keepsLeases_refl (server : IpcServer) : KeepsLeases server server :=
  fun entry hentry => ⟨entry.2, hentry, rfl⟩

theorem KeepsLeases.trans (hfirst : KeepsLeases server middle)
    (hsecond : KeepsLeases middle later) : KeepsLeases server later := by
  intro entry hentry
  obtain ⟨client, hclient, hsame⟩ := hsecond entry hentry
  obtain ⟨old, hold, holder⟩ := hfirst _ hclient
  exact ⟨old, hold, hsame.trans holder⟩

theorem Leasing.keeps (hleasing : server.Leasing) (hdistinct : later.Distinct)
    (hkeeps : KeepsLeases server later) : later.Leasing := by
  refine ⟨hdistinct, fun entry hentry => ?_⟩
  obtain ⟨client, hclient, hsame⟩ := hkeeps entry hentry
  exact (hleasing.leasing _ hclient).same hsame

theorem leasing_bind (path : PathBuf) (accepts : List AcceptAnswer) :
    (bind path accepts).Leasing :=
  ⟨List.nodup_singleton listenerToken, List.forall_mem_nil _⟩

theorem keepsLeases_publish (notification : Notification) :
    KeepsLeases server (server.publish codec notification) := by
  intro entry hentry
  obtain ⟨client, hclient, ⟨_, _, hsame⟩ | ⟨frame, _, hsame⟩⟩ := mem_publish hentry
  · exact ⟨client, hclient, congrArg Client.capture hsame⟩
  · exact ⟨client, hclient, hsame ▸ (Client.quiet_offer notification frame).capture⟩

theorem keepsLeases_rehash (before : UInt64 → UInt64 → Bool) :
    KeepsLeases server (server.rehash before) := fun entry hentry =>
  ⟨entry.2, List.mem_mergeSort.mp hentry, rfl⟩

theorem keepsLeases_takeCommands : KeepsLeases server server.takeCommands.2 := by
  intro entry hentry
  obtain ⟨client, hclient, hsame⟩ := mem_takeCommands hentry
  exact ⟨client, hclient, hsame ▸ Client.capture_takeCommands⟩

/-- The connections there were stay as they are, and new ones have no leases. -/
structure Adds (server later : IpcServer) : Prop where
  distinct : server.Distinct → later.Distinct
  stay : ∀ entry ∈ server.clients, entry ∈ later.clients
  new : ∀ entry ∈ later.clients, entry ∈ server.clients ∨
    (entry.1 ∉ server.clients.map Prod.fst ∧ entry.2.capture = [])

theorem adds_same (hsame : later.clients = server.clients) : Adds server later := by
  refine ⟨fun hdistinct => ?_, fun entry hentry => hsame ▸ hentry,
    fun entry hentry => .inl (hsame ▸ hentry)⟩
  rw [Distinct, hsame]
  exact hdistinct

theorem Adds.trans (hfirst : Adds server middle) (hsecond : Adds middle later) :
    Adds server later := by
  refine ⟨fun hdistinct => hsecond.distinct (hfirst.distinct hdistinct),
    fun entry hentry => hsecond.stay entry (hfirst.stay entry hentry), fun entry hentry => ?_⟩
  rcases hsecond.new entry hentry with hmiddle | ⟨hfree, hnone⟩
  · exact hfirst.new entry hmiddle
  · refine .inr ⟨fun hmem => hfree ?_, hnone⟩
    obtain ⟨old, hold, hsame⟩ := List.mem_map.mp hmem
    exact List.mem_map.mpr ⟨old, hfirst.stay old hold, hsame⟩

theorem adds_addClient (stream : UnixStream) : Adds server (server.addClient stream) := by
  rcases (@addClient_clients server stream).2 with hsame | ⟨token, _, hfree, hclients⟩
  · exact adds_same hsame
  · refine ⟨fun hdistinct => hdistinct.addClient stream, fun entry hentry => ?_,
      fun entry hentry => ?_⟩
    · rw [hclients]
      exact List.mem_cons_of_mem _ hentry
    · rw [hclients] at hentry
      rcases List.mem_cons.mp hentry with rfl | hold
      · exact .inr ⟨hfree, rfl⟩
      · exact .inl hold

theorem adds_acceptLoop (budget : Nat) : Adds server (acceptLoop budget server).2 := by
  induction budget generalizing server with
  | zero => exact adds_same rfl
  | succ budget ih =>
      rw [acceptLoop]
      split
      · exact adds_same rfl
      · exact adds_same rfl
      · exact adds_same rfl
      · next reads writes nonblocking accepts _ =>
        have hsame : Adds server { server with accepts } := adds_same rfl
        simp only
        split
        · exact (hsame.trans (adds_addClient { reads, writes })).trans ih
        · exact hsame.trans ih

variable {status : PathBuf → Status} {devices : List DeviceInfo} {token : UInt64}
  {revents : Revents}

theorem adds_listener :
    Adds server (server.handleReady codec status devices listenerToken revents).2 := by
  rw [handleReady, if_pos rfl]
  split
  · exact adds_same rfl
  · split
    · exact adds_acceptLoop acceptBudget
    · exact adds_same rfl

/-- The turn of a connection, which keeps its leases unless it ends, and touches no other. -/
theorem keepsLeases_handleReady (htoken : token ≠ listenerToken) :
    KeepsLeases server (server.handleReady codec status devices token revents).2 ∧
      (server.Distinct → (server.handleReady codec status devices token revents).2.Distinct) ∧
      ∀ entry ∈ server.clients, entry.1 ≠ token →
        entry ∈ (server.handleReady codec status devices token revents).2.clients := by
  rw [handleReady, if_neg htoken]
  split
  · exact ⟨keepsLeases_refl server, id, fun _ hentry _ => hentry⟩
  · next client hfind =>
    split
    · refine ⟨fun entry hentry => ⟨entry.2, (List.mem_filter.mp hentry).1, rfl⟩,
        fun hdistinct => hdistinct.subperm (tokens_remove token), fun entry hentry hother => ?_⟩
      exact List.mem_filter.mpr ⟨hentry, bne_iff_ne.mpr hother⟩
    · next later hserve =>
      refine ⟨fun entry hentry => ?_,
        fun hdistinct => hdistinct.subperm (@tokens_modify server token _ ▸ .refl _),
        fun entry hentry hother => ?_⟩
      · rcases mem_modify hentry with ⟨_, _, rfl⟩ | ⟨_, hold⟩
        · exact ⟨client, find_mem hfind, Client.capture_serve hserve⟩
        · exact ⟨entry.2, hold, rfl⟩
      · exact List.mem_map.mpr ⟨entry, hentry, if_neg hother⟩

/-- A completion touches no other connection. -/
theorem completeCommand_apart (id : UInt64) (result : Except ProtocolError ResponseResult)
    {entry : UInt64 × Client} (hother : entry.1 ≠ token) :
    entry ∈ (server.completeCommand codec token id result).clients ↔
      entry ∈ server.clients := by
  refine ⟨fun hentry => ?_, fun hentry => List.mem_map.mpr ⟨entry, hentry, if_neg hother⟩⟩
  rcases mem_modify hentry with ⟨_, _, rfl⟩ | ⟨_, hold⟩
  · exact absurd rfl hother
  · exact hold

theorem Leasing.complete (hleasing : server.Leasing) (id : UInt64)
    (result : Except ProtocolError ResponseResult) :
    (server.completeCommand codec token id result).Leasing := by
  refine ⟨hleasing.distinct.subperm (@tokens_modify server token _ ▸ .refl _),
    fun entry hentry => ?_⟩
  rcases mem_modify hentry with ⟨client, hclient, rfl⟩ | ⟨_, hold⟩
  · exact (hleasing.leasing _ hclient).complete id result
  · exact hleasing.leasing entry hold

/-- A completion leaves the leases as they are when it leaves those of its connection. -/
theorem leases_completeCommand (id : UInt64) (result : Except ProtocolError ResponseResult) :
    (server.completeCommand codec token id result).leases = server.leases ↔
      ∀ client, (token, client) ∈ server.clients →
        (client.complete codec id result).capture = client.capture := by
  rw [leases, leases, completeCommand, modify, List.map_map, List.map_inj_left]
  refine ⟨fun hsame client hclient => ?_, fun hsame entry hentry => ?_⟩
  · have hown := hsame (token, client) hclient
    rw [Function.comp_apply, if_pos rfl] at hown
    exact congrArg Prod.snd hown
  · rw [Function.comp_apply]
    split
    · next htoken =>
      subst htoken
      exact congrArg (Prod.mk entry.1) (hsame entry.2 hentry)
    · rfl

end IpcServer

end Daemon

end Wiiland
