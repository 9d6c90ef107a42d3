/-
Runs of the server.  A turn is one call of the reactor into it; to every connection that
it leaves, a turn is a sequence of acts.
-/
import Wiiland.Daemon.Acts

namespace Wiiland

namespace Daemon

open Ipc

namespace IpcServer

/-- One call into the server, or a new order of its map; `allowed` tells which completions
may come. -/
inductive Turn (codec : Codec) (allowed : Completions) :
    IpcServer → IpcServer → Prop
  | handleReady {server : IpcServer} (status : PathBuf → Status) (devices : List DeviceInfo)
      (token : UInt64) (revents : Revents) :
      Turn codec allowed server (server.handleReady codec status devices token revents).2
  | takeCommands {server : IpcServer} : Turn codec allowed server server.takeCommands.2
  | completeCommand {server : IpcServer} (token id : UInt64)
      (result : Except ProtocolError ResponseResult)
      (hallowed : ∀ client, (token, client) ∈ server.clients → allowed client id result) :
      Turn codec allowed server (server.completeCommand codec token id result)
  | publish {server : IpcServer} (notification : Notification) :
      Turn codec allowed server (server.publish codec notification)
  | rehash {server : IpcServer} (before : UInt64 → UInt64 → Bool) :
      Turn codec allowed server (server.rehash before)

abbrev Turns (codec : Codec) (allowed : Completions) :
    IpcServer → IpcServer → Prop :=
  Relation.ReflTransGen (Turn codec allowed)

variable {codec : Codec} {allowed : Completions} {server : IpcServer}

/-- A connection that waits at the listener. -/
def Fresh (server : IpcServer) (client : Client) : Prop :=
  ∃ reads writes, .accepted reads writes true ∈ server.accepts ∧ client = .new { reads, writes }

/-- A connection that was just accepted, under a token that was free. -/
def Accepted (server : IpcServer) (entry : UInt64 × Client) : Prop :=
  Fresh server entry.2 ∧ entry.1 ∉ server.clients.map Prod.fst

/-- Where a connection comes from: it is new, or what acts made of the connection of this
token. -/
def Origin (codec : Codec) (allowed : Completions) (server : IpcServer)
    (entry : UInt64 × Client) : Prop :=
  Accepted server entry ∨ ∃ client, (entry.1, client) ∈ server.clients ∧
    Client.Acts codec allowed client entry.2

theorem origin_self {entry : UInt64 × Client} (hentry : entry ∈ server.clients) :
    Origin codec allowed server entry := .inr ⟨entry.2, hentry, .refl⟩

theorem origin_modify {token : UInt64} {change : Client → Client}
    (hchange : ∀ client, (token, client) ∈ server.clients →
      Client.Acts codec allowed client (change client)) :
    ∀ entry ∈ (server.modify token change).clients, Origin codec allowed server entry := by
  intro entry hentry
  obtain ⟨⟨other, client⟩, hclient, rfl⟩ := List.mem_map.mp hentry
  by_cases htoken : other = token
  · subst htoken
    rw [if_pos rfl]
    exact .inr ⟨client, hclient, hchange client hclient⟩
  · rw [if_neg htoken]
    exact origin_self hclient

theorem allocateToken_frame (tries : Nat) :
    (server.allocateToken tries).2.clients = server.clients ∧
      (server.allocateToken tries).2.accepts = server.accepts := by
  induction tries generalizing server with
  | zero => exact ⟨rfl, rfl⟩
  | succ tries ih =>
      simp only [allocateToken]
      split
      · exact ⟨rfl, rfl⟩
      · exact ih

theorem allocateToken_fresh {later : IpcServer} {tries : Nat} {token : UInt64}
    (hallocated : server.allocateToken tries = (some token, later)) :
    token ≠ listenerToken ∧ token ∉ server.clients.map Prod.fst := by
  induction tries generalizing server with
  | zero => cases hallocated
  | succ tries ih =>
      simp only [allocateToken] at hallocated
      split at hallocated
      · next hfree =>
        cases hallocated
        refine ⟨fun hlistener => ?_, fun hmem => ?_⟩
        · rw [hlistener] at hfree
          exact absurd hfree.1 (by decide)
        · obtain ⟨entry, hentry, htoken⟩ := List.mem_map.mp hmem
          have hnone := List.lookup_eq_none_iff.mp (Option.isNone_iff_eq_none.mp hfree.2)
            entry hentry
          exact absurd htoken.symm (by simpa using hnone)
      · exact @ih { server with nextToken := tokenAfter server.nextToken } hallocated

/-- A new connection has a token of its own. -/
theorem addClient_clients (stream : UnixStream) :
    (server.addClient stream).accepts = server.accepts ∧
      ((server.addClient stream).clients = server.clients ∨
        ∃ token, token ≠ listenerToken ∧ token ∉ server.clients.map Prod.fst ∧
          (server.addClient stream).clients = (token, .new stream) :: server.clients) := by
  have hframe := @allocateToken_frame server (server.clients.length + 1)
  rw [addClient]
  split
  · next hallocated =>
    rw [hallocated] at hframe
    exact ⟨hframe.2, .inl hframe.1⟩
  · next token after hallocated =>
    rw [hallocated] at hframe
    obtain ⟨hlistener, hfree⟩ := allocateToken_fresh hallocated
    exact ⟨hframe.2, .inr ⟨token, hlistener, hfree, congrArg (List.cons _) hframe.1⟩⟩

theorem Fresh.of_subset {later : IpcServer} {client : Client} (hfresh : Fresh later client)
    (hsubset : later.accepts ⊆ server.accepts) : Fresh server client := by
  obtain ⟨reads, writes, hwaits, hclient⟩ := hfresh
  exact ⟨reads, writes, hsubset hwaits, hclient⟩

theorem accepted_acceptLoop (budget : Nat) :
    (acceptLoop budget server).2.accepts ⊆ server.accepts ∧
      ∀ entry ∈ (acceptLoop budget server).2.clients,
        Accepted server entry ∨ entry ∈ server.clients := by
  induction budget generalizing server with
  | zero => exact ⟨List.Subset.refl _, fun entry hentry => .inr hentry⟩
  | succ budget ih =>
      rw [acceptLoop]
      split
      · exact ⟨List.drop_subset .., fun entry hentry => .inr hentry⟩
      · exact ⟨List.drop_subset .., fun entry hentry => .inr hentry⟩
      · next errno accepts hwaits =>
        exact ⟨hwaits ▸ List.subset_cons_self .., fun entry hentry => .inr hentry⟩
      · next reads writes nonblocking accepts hwaits =>
        have hrest : accepts ⊆ server.accepts := hwaits ▸ List.subset_cons_self ..
        simp only
        split
        · next hguard =>
          obtain ⟨haccepts, hadded⟩ := @addClient_clients { server with accepts } { reads, writes }
          obtain ⟨hsubset, hclients⟩ := @ih (addClient { server with accepts } { reads, writes })
          rw [haccepts] at hsubset
          refine ⟨List.Subset.trans hsubset hrest, fun entry hentry => ?_⟩
          rcases hclients entry hentry with ⟨hfresh, hfree⟩ | hold
          · have hfresh : Fresh server entry.2 := hfresh.of_subset (haccepts ▸ hrest)
            rcases hadded with hsame | ⟨token, _, _, hmore⟩
            · rw [hsame] at hfree
              exact .inl ⟨hfresh, hfree⟩
            · rw [hmore, List.map_cons, List.mem_cons, not_or] at hfree
              exact .inl ⟨hfresh, hfree.2⟩
          · rcases hadded with hsame | ⟨token, _, hfree, hmore⟩
            · exact .inr (hsame ▸ hold)
            · rw [hmore] at hold
              rcases List.mem_cons.mp hold with rfl | hold
              · obtain rfl : nonblocking = true := (Bool.and_eq_true_iff.mp hguard).1
                exact .inl ⟨⟨reads, writes, hwaits ▸ List.mem_cons_self, rfl⟩, hfree⟩
              · exact .inr hold
        · obtain ⟨hsubset, hclients⟩ := @ih { server with accepts }
          exact ⟨List.Subset.trans hsubset hrest, fun entry hentry =>
            (hclients entry hentry).imp_left
              fun ⟨hfresh, hfree⟩ => ⟨hfresh.of_subset hrest, hfree⟩⟩

theorem takeAll_clients (clients : List (UInt64 × Client)) :
    (takeAll clients).2 = clients.map fun entry => (entry.1, entry.2.takeCommands.2) := by
  induction clients with
  | nil => rfl
  | cons entry clients ih =>
      rw [takeAll, List.map_cons, ← ih]

theorem find_mem {token : UInt64} {client : Client} (hfind : server.find token = some client) :
    (token, client) ∈ server.clients := by
  obtain ⟨before, after, hclients, _⟩ := List.lookup_eq_some_iff.mp hfind
  rw [hclients]
  exact List.mem_append_right _ List.mem_cons_self

theorem origin_handleReady (status : PathBuf → Status) (devices : List DeviceInfo)
    (token : UInt64) (revents : Revents) :
    ∀ entry ∈ (server.handleReady codec status devices token revents).2.clients,
      Origin codec allowed server entry := by
  have haccept : ∀ entry ∈ server.acceptReady.2.clients, Origin codec allowed server entry :=
    fun entry hentry => ((accepted_acceptLoop acceptBudget).2 entry hentry).imp id
      fun hold => ⟨entry.2, hold, .refl⟩
  rw [handleReady]
  split
  · split
    · exact fun _ => origin_self
    · split
      · exact haccept
      · exact fun _ => origin_self
  · split
    · exact fun _ => origin_self
    · next client hfind =>
      split
      · exact fun _ hentry => origin_self (List.mem_filter.mp hentry).1
      · next later hserve =>
        intro entry hentry
        obtain ⟨⟨other, old⟩, hold, rfl⟩ := List.mem_map.mp hentry
        by_cases htoken : other = token
        · subst htoken
          rw [if_pos rfl]
          exact .inr ⟨client, find_mem hfind, Client.acts_serve hserve⟩
        · rw [if_neg htoken]
          exact origin_self hold

/-- A connection after a publication was there before it. -/
theorem mem_publish {notification : Notification} {entry : UInt64 × Client}
    (hentry : entry ∈ (server.publish codec notification).clients) :
    ∃ client, (entry.1, client) ∈ server.clients ∧
      ((∃ error, encodeFrame codec.messages (.notification notification) = .error error ∧
          entry.2 = client) ∨
        ∃ frame, encodeFrame codec.messages (.notification notification) = .ok frame ∧
          entry.2 = client.offer notification frame) := by
  rw [publish] at hentry
  split at hentry
  · next error hframe => exact ⟨entry.2, hentry, .inl ⟨error, hframe, rfl⟩⟩
  · next frame hframe =>
    obtain ⟨⟨token, client⟩, hclient, rfl⟩ := List.mem_map.mp (List.mem_filter.mp hentry).1
    exact ⟨client, hclient, .inr ⟨frame, hframe, rfl⟩⟩

/-- The turns that are not publications. -/
inductive Reacts (codec : Codec) (allowed : Completions) (server : IpcServer) :
    IpcServer → Prop
  | handleReady (status : PathBuf → Status) (devices : List DeviceInfo) (token : UInt64)
      (revents : Revents) :
      Reacts codec allowed server (server.handleReady codec status devices token revents).2
  | takeCommands : Reacts codec allowed server server.takeCommands.2
  | completeCommand (token id : UInt64) (result : Except ProtocolError ResponseResult)
      (hallowed : ∀ client, (token, client) ∈ server.clients → allowed client id result) :
      Reacts codec allowed server (server.completeCommand codec token id result)
  | rehash (before : UInt64 → UInt64 → Bool) : Reacts codec allowed server (server.rehash before)

theorem turn_iff {later : IpcServer} : Turn codec allowed server later ↔
    (∃ notification, later = server.publish codec notification) ∨
      Reacts codec allowed server later := by
  constructor
  · intro hturn
    cases hturn with
    | handleReady status devices token revents =>
        exact .inr (.handleReady status devices token revents)
    | takeCommands => exact .inr .takeCommands
    | completeCommand token id result hallowed =>
        exact .inr (.completeCommand token id result hallowed)
    | publish notification => exact .inl ⟨notification, rfl⟩
    | rehash before => exact .inr (.rehash before)
  · rintro (⟨notification, rfl⟩ | hreacts)
    · exact .publish notification
    · cases hreacts with
      | handleReady status devices token revents =>
          exact .handleReady status devices token revents
      | takeCommands => exact .takeCommands
      | completeCommand token id result hallowed =>
          exact .completeCommand token id result hallowed
      | rehash before => exact .rehash before

/-- The other turns are acts and new connections. -/
theorem Reacts.origin {later : IpcServer} (hreacts : Reacts codec allowed server later) :
    ∀ entry ∈ later.clients, Origin codec allowed server entry := by
  cases hreacts with
  | handleReady status devices token revents =>
      exact origin_handleReady status devices token revents
  | takeCommands =>
      intro entry hentry
      change entry ∈ (takeAll server.clients).2 at hentry
      rw [takeAll_clients] at hentry
      obtain ⟨client, hclient, rfl⟩ := List.mem_map.mp hentry
      exact .inr ⟨client.2, hclient, .single .take⟩
  | completeCommand token id result hallowed =>
      exact origin_modify fun client hclient =>
        .single (.complete id result (hallowed client hclient))
  | rehash before => exact fun entry hentry => origin_self (List.mem_mergeSort.mp hentry)

/-- What holds of a new connection and is kept by every act and every publication holds
of every connection in a run. -/
theorem Turns.forall_clients {holds : Client → Prop} {path : PathBuf}
    {accepts : List AcceptAnswer} (hnew : ∀ reads writes, holds (.new { reads, writes }))
    (hact : ∀ {client later}, Client.Act codec allowed client later → holds client → holds later)
    (hoffer : ∀ {client notification frame},
      encodeFrame codec.messages (.notification notification) = .ok frame →
        holds client → holds (client.offer notification frame))
    (hturns : Turns codec allowed (bind path accepts) server) :
    ∀ entry ∈ server.clients, holds entry.2 := by
  induction hturns with
  | refl => exact fun entry hentry => (List.not_mem_nil hentry).elim
  | tail _ hturn ih =>
      intro entry hentry
      rcases turn_iff.mp hturn with ⟨notification, rfl⟩ | hreacts
      · obtain ⟨client, hclient, ⟨_, _, hsame⟩ | ⟨frame, hframe, hsame⟩⟩ := mem_publish hentry
        · exact hsame ▸ ih _ hclient
        · exact hsame ▸ hoffer hframe (ih _ hclient)
      · rcases hreacts.origin entry hentry with
          ⟨⟨reads, writes, _, hfresh⟩, _⟩ | ⟨client, hclient, hacts⟩
        · exact hfresh ▸ hnew reads writes
        · have hholds := ih _ hclient
          clear hclient
          generalize entry.2 = later at hacts
          induction hacts with
          | refl => exact hholds
          | tail _ hlast ih => exact hact hlast ih

end IpcServer

end Daemon

end Wiiland
