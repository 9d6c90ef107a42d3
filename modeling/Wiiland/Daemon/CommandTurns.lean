/-
The commands that the connections of the server hold during one iteration: each holds what
was accepted from it since the commands were last taken, and taking them leaves none.
-/
import Wiiland.Daemon.Pipelining
import Wiiland.Daemon.ServerTurns

namespace Wiiland

namespace Daemon

open Ipc
open Client (Quiet Spends)

/-- The commands accepted from the connection of a token, among frames that were handled. -/
def acceptedBy (codec : Codec) (token : UInt64)
    (moments : List (UInt64 × Client × List UInt8)) : List (UInt64 × Command) :=
  moments.filterMap fun moment =>
    if moment.1 = token then Client.accepted codec moment.2 else none

theorem acceptedBy_append (codec : Codec) (token : UInt64)
    (first second : List (UInt64 × Client × List UInt8)) :
    acceptedBy codec token (first ++ second) =
      acceptedBy codec token first ++ acceptedBy codec token second :=
  List.filterMap_append

theorem acceptedBy_other {codec : Codec} {token : UInt64}
    {moments : List (UInt64 × Client × List UInt8)}
    (hother : ∀ moment ∈ moments, moment.1 ≠ token) : acceptedBy codec token moments = [] :=
  List.filterMap_eq_nil_iff.mpr fun moment hmoment => if_neg (hother moment hmoment)

theorem acceptedBy_own (codec : Codec) (token : UInt64)
    (moments : List (Client × List UInt8)) :
    acceptedBy codec token (moments.map fun moment => (token, moment)) =
      moments.filterMap (Client.accepted codec) := by
  rw [acceptedBy, List.filterMap_map]
  exact List.filterMap_congr fun moment _ => if_pos rfl

namespace IpcServer

/-- The frames that `handleReady` handles, each with its token. -/
def readyMoments (codec : Codec) (status : PathBuf → Status) (devices : List DeviceInfo)
    (server : IpcServer) (token : UInt64) (revents : Revents) :
    List (UInt64 × Client × List UInt8) :=
  if token = listenerToken then []
  else
    match server.find token with
    | none => []
    | some client =>
        (client.turnMoments codec (status server.path) devices revents).map fun moment =>
          (token, moment)

/-- The tokens of the connections differ, and none is the listener's. -/
def Distinct (server : IpcServer) : Prop :=
  (listenerToken :: server.clients.map Prod.fst).Nodup

/-- Each open connection holds the commands accepted from it, all within the budget, and
none that was taken waits for its completion. -/
structure Holding (codec : Codec) (moments : List (UInt64 × Client × List UInt8))
    (server : IpcServer) : Prop where
  distinct : server.Distinct
  accepted : ∀ entry ∈ server.clients, entry.2.isOpen = true →
    entry.2.commands = acceptedBy codec entry.1 moments
  bounded : ∀ entry ∈ server.clients, entry.2.commands.length ≤ frameBudget
  taken : ∀ entry ∈ server.clients, entry.2.taken = []

variable {codec : Codec} {moments : List (UInt64 × Client × List UInt8)}
  {server later : IpcServer}

theorem holding_bind (path : PathBuf) (accepts : List AcceptAnswer) :
    Holding codec [] (bind path accepts) :=
  ⟨List.nodup_singleton listenerToken, List.forall_mem_nil _, List.forall_mem_nil _,
    List.forall_mem_nil _⟩

/-- Connections may go, and their order may change. -/
theorem Distinct.subperm (hdistinct : server.Distinct)
    (htokens : (later.clients.map Prod.fst).Subperm (server.clients.map Prod.fst)) :
    later.Distinct := by
  have hnodup := List.nodup_cons.mp hdistinct
  refine List.nodup_cons.mpr ⟨fun hlistener => hnodup.1 (htokens.subset hlistener), ?_⟩
  obtain ⟨tokens, hperm, hsublist⟩ := htokens
  exact hperm.nodup_iff.mp (hnodup.2.sublist hsublist)

theorem tokens_publish (notification : Notification) :
    ((server.publish codec notification).clients.map Prod.fst).Subperm
      (server.clients.map Prod.fst) := by
  rw [publish]
  split
  · exact .refl _
  · next frame _ =>
    have hsublist := List.Sublist.map Prod.fst (@List.filter_sublist _
      (fun entry : UInt64 × Client => !entry.2.immediateClose)
      (server.clients.map fun entry => (entry.1, entry.2.offer notification frame)))
    rw [List.map_map] at hsublist
    exact hsublist.subperm

theorem tokens_rehash (before : UInt64 → UInt64 → Bool) :
    ((server.rehash before).clients.map Prod.fst).Subperm (server.clients.map Prod.fst) :=
  ((List.mergeSort_perm _ _).map Prod.fst).subperm

theorem tokens_remove (token : UInt64) :
    ((server.remove token).clients.map Prod.fst).Subperm (server.clients.map Prod.fst) :=
  (List.filter_sublist.map Prod.fst).subperm

theorem tokens_takeCommands :
    server.takeCommands.2.clients.map Prod.fst = server.clients.map Prod.fst := by
  change (takeAll server.clients).2.map Prod.fst = _
  rw [takeAll_clients, List.map_map]
  rfl

/-- Connections may go, and what keeps their commands may happen to them. -/
theorem Holding.quiet (hholding : Holding codec moments server)
    (htokens : (later.clients.map Prod.fst).Subperm (server.clients.map Prod.fst))
    (hquiet : ∀ entry ∈ later.clients, ∃ client, (entry.1, client) ∈ server.clients ∧
      Quiet client entry.2) : Holding codec moments later where
  distinct := hholding.distinct.subperm htokens
  accepted entry hentry hopen := by
    obtain ⟨client, hclient, hkept⟩ := hquiet entry hentry
    exact hkept.commands.trans (hholding.accepted _ hclient (hkept.opened hopen))
  bounded entry hentry := by
    obtain ⟨client, hclient, hkept⟩ := hquiet entry hentry
    exact hkept.commands ▸ hholding.bounded _ hclient
  taken entry hentry := by
    obtain ⟨client, hclient, hkept⟩ := hquiet entry hentry
    exact hkept.taken.trans (hholding.taken _ hclient)

theorem Holding.publish (hholding : Holding codec moments server)
    (notification : Notification) :
    Holding codec moments (server.publish codec notification) := by
  refine hholding.quiet (tokens_publish notification) fun entry hentry => ?_
  obtain ⟨client, hclient, ⟨_, _, hsame⟩ | ⟨frame, _, hsame⟩⟩ := mem_publish hentry
  · exact ⟨client, hclient, hsame ▸ Client.quiet_refl client⟩
  · exact ⟨client, hclient, hsame ▸ Client.quiet_offer notification frame⟩

theorem Holding.rehash (hholding : Holding codec moments server)
    (before : UInt64 → UInt64 → Bool) : Holding codec moments (server.rehash before) :=
  hholding.quiet (tokens_rehash before) fun entry hentry =>
    ⟨entry.2, List.mem_mergeSort.mp hentry, Client.quiet_refl entry.2⟩

theorem Holding.remove (hholding : Holding codec moments server) (token : UInt64) :
    Holding codec moments (server.remove token) :=
  hholding.quiet (tokens_remove token) fun entry hentry =>
    ⟨entry.2, (List.mem_filter.mp hentry).1, Client.quiet_refl entry.2⟩

/-- Frames of connections that are gone change nothing. -/
theorem Holding.forget (hholding : Holding codec moments server)
    {more : List (UInt64 × Client × List UInt8)}
    (hgone : ∀ entry ∈ server.clients, ∀ moment ∈ more, moment.1 ≠ entry.1) :
    Holding codec (moments ++ more) server :=
  { hholding with
    accepted := fun entry hentry hopen => by
      rw [acceptedBy_append, acceptedBy_other (hgone entry hentry), List.append_nil]
      exact hholding.accepted entry hentry hopen }

theorem Distinct.addClient (hdistinct : server.Distinct) (stream : UnixStream) :
    (server.addClient stream).Distinct := by
  rcases (@addClient_clients server stream).2 with hclients | ⟨token, hlistener, hfree, hclients⟩
  · rw [Distinct, hclients]
    exact hdistinct
  · have hnodup := List.nodup_cons.mp hdistinct
    simp only [Distinct, hclients, List.map_cons, List.nodup_cons, List.mem_cons, not_or]
    exact ⟨⟨hlistener.symm, hnodup.1⟩, hfree, hnodup.2⟩

theorem Holding.addClient (hholding : Holding codec [] server) (reads : List ReadAnswer)
    (writes : List WriteAnswer) : Holding codec [] (server.addClient { reads, writes }) := by
  have hdistinct := hholding.distinct.addClient { reads, writes }
  have hentries : ∀ entry ∈ (server.addClient { reads, writes }).clients,
      entry.2 = .new { reads, writes } ∨ entry ∈ server.clients := by
    intro entry hentry
    rcases (@addClient_clients server { reads, writes }).2 with hclients | ⟨token, _, _, hclients⟩
    · exact .inr (hclients ▸ hentry)
    · rw [hclients] at hentry
      exact (List.mem_cons.mp hentry).imp_left (congrArg Prod.snd)
  refine ⟨hdistinct, fun entry hentry hopen => ?_, fun entry hentry => ?_,
    fun entry hentry => ?_⟩
  · rcases hentries entry hentry with hnew | hold
    · rw [hnew]
      rfl
    · exact hholding.accepted entry hold hopen
  · rcases hentries entry hentry with hnew | hold
    · rw [hnew]
      exact Nat.zero_le frameBudget
    · exact hholding.bounded entry hold
  · rcases hentries entry hentry with hnew | hold
    · rw [hnew]
      rfl
    · exact hholding.taken entry hold

theorem Holding.acceptLoop (hholding : Holding codec [] server) (budget : Nat) :
    Holding codec [] (IpcServer.acceptLoop budget server).2 := by
  have haccepts : ∀ accepts, Holding codec [] { server with accepts } := fun accepts =>
    ⟨hholding.distinct, hholding.accepted, hholding.bounded, hholding.taken⟩
  induction budget generalizing server with
  | zero => exact hholding
  | succ budget ih =>
      rw [IpcServer.acceptLoop]
      split
      · exact haccepts _
      · exact haccepts _
      · exact haccepts _
      · next reads writes nonblocking accepts _ =>
        simp only
        split
        · have hadded := (haccepts accepts).addClient reads writes
          exact ih hadded fun _ =>
            ⟨hadded.distinct, hadded.accepted, hadded.bounded, hadded.taken⟩
        · exact ih (haccepts accepts) haccepts

variable {status : PathBuf → Status} {devices : List DeviceInfo} {token : UInt64}
  {revents : Revents}

theorem Holding.accept (hholding : Holding codec [] server) :
    Holding codec [] (server.handleReady codec status devices listenerToken revents).2 := by
  rw [handleReady, if_pos rfl]
  split
  · exact hholding
  · split
    · exact hholding.acceptLoop acceptBudget
    · exact hholding

theorem tokens_modify (change : Client → Client) :
    (server.modify token change).clients.map Prod.fst = server.clients.map Prod.fst := by
  rw [modify, List.map_map]
  refine List.map_congr_left fun entry _ => ?_
  rw [Function.comp_apply]
  split
  · next hsame => exact hsame.symm
  · rfl

theorem mem_modify {change : Client → Client} {entry : UInt64 × Client}
    (hentry : entry ∈ (server.modify token change).clients) :
    (∃ client, (token, client) ∈ server.clients ∧ entry = (token, change client)) ∨
      (entry.1 ≠ token ∧ entry ∈ server.clients) := by
  obtain ⟨⟨other, client⟩, hclient, rfl⟩ := List.mem_map.mp hentry
  by_cases hsame : other = token
  · subst hsame
    exact .inl ⟨client, hclient, if_pos rfl⟩
  · rw [if_neg hsame]
    exact .inr ⟨hsame, hclient⟩

/-- The turn of a connection that has had none in this iteration. -/
theorem Holding.serve (hholding : Holding codec moments server) (htoken : token ≠ listenerToken)
    (hnew : ∀ moment ∈ moments, moment.1 ≠ token) :
    (server.handleReady codec status devices token revents).1 = .ok () ∧
      Holding codec (moments ++ server.readyMoments codec status devices token revents)
        (server.handleReady codec status devices token revents).2 ∧
      ∀ moment ∈ server.readyMoments codec status devices token revents,
        moment.1 = token ∧ moment.2.1.commands.length < frameBudget := by
  rw [handleReady, readyMoments, if_neg htoken, if_neg htoken]
  cases hfind : server.find token with
  | none => exact ⟨rfl, (List.append_nil moments).symm ▸ hholding,
      List.forall_mem_nil _⟩
  | some client =>
      have hclient := find_mem hfind
      have hidle : client.isOpen = true → client.commands = [] := fun hopen =>
        (hholding.accepted _ hclient hopen).trans (acceptedBy_other hnew)
      have hroom : ∀ moment ∈ (client.turnMoments codec (status server.path) devices
          revents).map fun moment => (token, moment),
          moment.1 = token ∧ moment.2.1.commands.length < frameBudget := by
        intro moment hmoment
        obtain ⟨moment, hturn, rfl⟩ := List.mem_map.mp hmoment
        refine ⟨rfl, ?_⟩
        have hspends := @Client.spends_readTurn codec (status server.path) devices client revents
        have hopen : client.isOpen = true := by
          rw [Client.turnMoments] at hturn
          split at hturn
          · next hready => exact (Bool.and_eq_true_iff.mp hready).1
          · exact absurd hturn List.not_mem_nil
        have hlength := hspends.room moment hturn
        rwa [hidle hopen, List.length_nil, Nat.zero_add] at hlength
      cases hserve : client.serve codec (status server.path) devices revents with
      | none =>
          simp only [hserve]
          refine ⟨trivial, (hholding.remove token).forget fun entry hentry moment hmoment => ?_,
            hroom⟩
          rw [(hroom moment hmoment).1]
          exact fun hsame => absurd hsame.symm (by simpa using (List.mem_filter.mp hentry).2)
      | some later =>
          simp only [hserve]
          refine ⟨trivial, ?_, hroom⟩
          obtain ⟨middle, hspends, hquiet, hclosed⟩ := Client.serve_spends hserve
          have hentries : ∀ entry ∈ (server.modify token fun _ => later).clients,
              entry = (token, later) ∨ (entry.1 ≠ token ∧ entry ∈ server.clients) := by
            intro entry hentry
            rcases mem_modify hentry with ⟨_, _, hsame⟩ | hother
            · exact .inl hsame
            · exact .inr hother
          have hlength := hspends.length_commands
          refine ⟨?_, fun entry hentry hopen => ?_, fun entry hentry => ?_,
            fun entry hentry => ?_⟩
          · exact hholding.distinct.subperm (@tokens_modify server token _ ▸ .refl _)
          · rcases hentries entry hentry with rfl | ⟨hother, hold⟩
            · have hstarted : client.isOpen = true := by
                by_contra hended
                exact hended (hclosed (Bool.not_eq_true _ ▸ hended) ▸ hquiet.opened hopen)
              rw [acceptedBy_append, acceptedBy_other hnew, acceptedBy_own, hquiet.commands,
                hspends.commands, hidle hstarted]
            · rw [acceptedBy_append, hholding.accepted entry hold hopen,
                acceptedBy_other fun moment hmoment hsame =>
                  hother (hsame.symm.trans (hroom moment hmoment).1), List.append_nil]
          · rcases hentries entry hentry with rfl | ⟨_, hold⟩
            · rw [hquiet.commands]
              cases hopen : client.isOpen with
              | false =>
                  rw [hclosed hopen]
                  exact hholding.bounded _ hclient
              | true =>
                  rw [hidle hopen, List.length_nil] at hlength
                  omega
            · exact hholding.bounded entry hold
          · rcases hentries entry hentry with rfl | ⟨_, hold⟩
            · exact hquiet.taken.trans (hspends.taken.trans (hholding.taken _ hclient))
            · exact hholding.taken entry hold

/-- Commands that were taken are completed one after the other: the ids that wait are
those of the commands that are left. -/
structure Draining (commands : List (UInt64 × UInt64 × Command)) (server : IpcServer) :
    Prop where
  distinct : server.Distinct
  emptied : ∀ entry ∈ server.clients, entry.2.isOpen = true → entry.2.commands = []
  bounded : ∀ entry ∈ server.clients, entry.2.commands.length ≤ frameBudget
  taken : ∀ entry ∈ server.clients,
    entry.2.taken = (commands.filter fun command => command.1 == entry.1).map fun command =>
      command.2.1

/-- What is taken from a connection: its commands when it is open. -/
theorem takeAll_filter {clients : List (UInt64 × Client)} {entry : UInt64 × Client}
    (hnodup : (clients.map Prod.fst).Nodup) (hentry : entry ∈ clients) :
    ((takeAll clients).1.filter fun command => command.1 == entry.1) =
      entry.2.takeCommands.1.map fun command => (entry.1, command) := by
  have hown : ∀ (token other : UInt64) (commands : List (UInt64 × Command)),
      ((commands.map fun command => (other, command)).filter fun command =>
        command.1 == token) =
          if other = token then commands.map fun command => (other, command) else [] := by
    intro token other commands
    split
    · next hsame =>
      refine List.filter_eq_self.mpr fun command hcommand => ?_
      obtain ⟨_, _, rfl⟩ := List.mem_map.mp hcommand
      exact beq_iff_eq.mpr hsame
    · next hother =>
      refine List.filter_eq_nil_iff.mpr fun command hcommand => ?_
      obtain ⟨_, _, rfl⟩ := List.mem_map.mp hcommand
      exact fun hsame => hother (beq_iff_eq.mp hsame)
  have habsent : ∀ (token : UInt64) (clients : List (UInt64 × Client)),
      token ∉ clients.map Prod.fst →
        ((takeAll clients).1.filter fun command => command.1 == token) = [] := by
    intro token clients hmem
    induction clients with
    | nil => rfl
    | cons first clients ih =>
        rw [List.map_cons, List.mem_cons, not_or] at hmem
        rw [takeAll, List.filter_append, hown, if_neg (Ne.symm hmem.1), ih hmem.2]
        rfl
  induction clients with
  | nil => exact absurd hentry List.not_mem_nil
  | cons first clients ih =>
      rw [List.map_cons, List.nodup_cons] at hnodup
      rw [takeAll, List.filter_append, hown]
      rcases List.mem_cons.mp hentry with rfl | hentry
      · rw [if_pos rfl, habsent _ _ hnodup.1, List.append_nil]
      · rw [if_neg fun hsame => hnodup.1 (List.mem_map.mpr ⟨entry, hentry, hsame.symm⟩),
          ih hnodup.2 hentry, List.nil_append]

theorem mem_takeCommands {entry : UInt64 × Client}
    (hentry : entry ∈ server.takeCommands.2.clients) :
    ∃ client, (entry.1, client) ∈ server.clients ∧ entry.2 = client.takeCommands.2 := by
  change entry ∈ (takeAll server.clients).2 at hentry
  rw [takeAll_clients] at hentry
  obtain ⟨old, hold, rfl⟩ := List.mem_map.mp hentry
  exact ⟨old.2, hold, rfl⟩

theorem Holding.take (hholding : Holding codec moments server) :
    Draining server.takeCommands.1 server.takeCommands.2 where
  distinct := hholding.distinct.subperm (@tokens_takeCommands server ▸ .refl _)
  emptied entry hentry := by
    obtain ⟨client, _, hsame⟩ := mem_takeCommands hentry
    rw [hsame, Client.takeCommands]
    split
    · exact fun _ => rfl
    · next hclosed => exact fun hopen => absurd hopen hclosed
  bounded entry hentry := by
    obtain ⟨client, hclient, hsame⟩ := mem_takeCommands hentry
    rw [hsame, Client.takeCommands]
    split
    · exact Nat.zero_le frameBudget
    · exact hholding.bounded _ hclient
  taken entry hentry := by
    obtain ⟨client, hclient, hsame⟩ := mem_takeCommands hentry
    have htaken := takeAll_filter (List.nodup_cons.mp hholding.distinct).2 hclient
    change _ = ((takeAll server.clients).1.filter _).map _
    rw [htaken, hsame, List.map_map, Client.takeCommands]
    have hnone := hholding.taken _ hclient
    split
    · exact congrArg (· ++ client.commands.map Prod.fst) hnone
    · exact hnone

theorem Draining.complete {command : UInt64 × UInt64 × Command}
    {commands : List (UInt64 × UInt64 × Command)}
    (hdraining : Draining (command :: commands) server)
    (result : Except ProtocolError ResponseResult) :
    Draining commands (server.completeCommand codec command.1 command.2.1 result) := by
  have hcompleted : ∀ client : Client, (client.complete codec command.2.1 result).commands =
        client.commands ∧
      (client.complete codec command.2.1 result).taken = client.taken.erase command.2.1 ∧
      ((client.complete codec command.2.1 result).isOpen = true → client.isOpen = true) := by
    intro client
    obtain ⟨capture, hreplies⟩ := @Client.replies_complete codec client command.2.1 result
    have hquiet := Client.quiet_replies hreplies
    exact ⟨hquiet.commands, hquiet.taken, hquiet.opened⟩
  refine ⟨?_, fun entry hentry hopen => ?_, fun entry hentry => ?_, fun entry hentry => ?_⟩
  · exact hdraining.distinct.subperm (@tokens_modify server command.1 _ ▸ .refl _)
  · rcases mem_modify hentry with ⟨client, hclient, rfl⟩ | ⟨_, hold⟩
    · exact (hcompleted client).1.trans
        (hdraining.emptied _ hclient ((hcompleted client).2.2 hopen))
    · exact hdraining.emptied entry hold hopen
  · rcases mem_modify hentry with ⟨client, hclient, rfl⟩ | ⟨_, hold⟩
    · exact (hcompleted client).1 ▸ hdraining.bounded _ hclient
    · exact hdraining.bounded entry hold
  · rcases mem_modify hentry with ⟨client, hclient, rfl⟩ | ⟨hother, hold⟩
    · have htaken := hdraining.taken _ hclient
      rw [List.filter_cons, if_pos (beq_self_eq_true command.1), List.map_cons] at htaken
      rw [(hcompleted client).2.1, htaken, List.erase_cons_head]
    · have htaken := hdraining.taken entry hold
      rwa [List.filter_cons, if_neg (beq_iff_eq.not.mpr (Ne.symm hother))] at htaken

theorem Draining.holding (hdraining : Draining [] server) : Holding codec [] server :=
  ⟨hdraining.distinct, hdraining.emptied, hdraining.bounded, hdraining.taken⟩

end IpcServer

end Daemon

end Wiiland
