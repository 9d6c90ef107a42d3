/-
Which entries the setup and the cleanup of a server delete.  They tell sockets apart by
inode, and read the inode by a second look at the public name.
-/
import Mathlib.Data.List.Chain
import Wiiland.Daemon.SocketCleanup

namespace Wiiland

namespace Daemon

namespace Socket

open Interference UnixPath

variable {process : Process} {name : Name} {inode : Inode} {state after : State}
  {log : List Step}

/-- An inode that was read at the name as a socket of the daemon's user, and at which a
connection to the name was refused. -/
def Verified (process : Process) (name : Name) (inode : Inode) (log : List Step) : Prop :=
  (∃ reading ∈ log, ∃ entry, observed reading = some (name, entry) ∧
    entry.isSocket = true ∧ entry.uid = process.euid ∧ entry.inode = inode) ∧
  ∃ connection ∈ log, ∃ entry, foundStale connection = some (name, some entry) ∧
    entry.inode = inode

/-- The inode of a socket that `UnixListener::bind` created at the name. -/
def Created (name : Name) (inode : Inode) (log : List Step) : Prop :=
  ∃ creation ∈ log, ∃ entry, created creation = some (name, entry) ∧ entry.inode = inode

/-- The second look at a name finds what the first call dealt with: a connection that is
refused met the entry whose metadata were read just before, and a socket that is read just
after the daemon has created one is that socket. -/
def Undisturbed (earlier later : Step) : Prop :=
  (∀ name entry met, observed earlier = some (name, entry) →
    foundStale later = some (name, met) → ∃ held, met = some held ∧ held.inode = entry.inode) ∧
  ∀ name entry found, created earlier = some (name, entry) →
    observed later = some (name, found) → found.isSocket = true → found.inode = entry.inode

/-- What is deleted is a socket that the daemon created or verified before. -/
def Owned (process : Process) (name : Name) (before : List Step) (event : Step) : Prop :=
  ∀ place entry, unlinked event = some (place, entry) →
    Verified process name entry.inode before ∨ Created name entry.inode before

theorem Verified.mono {larger : List Step} (hverified : Verified process name inode log)
    (hsubset : log ⊆ larger) : Verified process name inode larger := by
  obtain ⟨⟨reading, hreading, hread⟩, connection, hconnection, hrefused⟩ := hverified
  exact ⟨⟨reading, hsubset hreading, hread⟩, connection, hsubset hconnection, hrefused⟩

theorem Created.mono {larger : List Step} (hcreated : Created name inode log)
    (hsubset : log ⊆ larger) : Created name inode larger := by
  obtain ⟨creation, hcreation, hmade⟩ := hcreated
  exact ⟨creation, hsubset hcreation, hmade⟩

theorem Owned.mono {event : Step} {larger : List Step}
    (howned : Owned process name log event) (hsubset : log ⊆ larger) :
    Owned process name larger event := fun place entry hunlinked =>
  (howned place entry hunlinked).imp (·.mono hsubset) (·.mono hsubset)

theorem each_owned_append {first second : List Step}
    (hfirst : Each (Owned process name) first) (hsecond : Each (Owned process name) second) :
    Each (Owned process name) (first ++ second) :=
  each_append.mpr ⟨hfirst, fun before event after hlog =>
    (hsecond before event after hlog).mono (List.subset_append_right _ _)⟩

/-- A call that does not unlink. -/
def Silent (call : Call) : Prop := ∀ place, call ≠ .unlinkat place

theorem unlinked_silent {event : Step} (hsilent : Silent event.request) :
    unlinked event = none := by
  obtain ⟨before, request, answer, after⟩ := event
  cases request with
  | unlinkat place => exact absurd rfl (hsilent place)
  | _ => rfl

theorem each_owned_silent (hsilent : ∀ event ∈ log, Silent event.request) :
    Each (Owned process name) log :=
  each_of_forall fun before event hevent place entry hunlinked => by
    rw [unlinked_silent (hsilent event hevent)] at hunlinked
    cases hunlinked

/-- An exact cleanup of an inode that is owned deletes only what is owned. -/
theorem CleanupExact.owned {earlier : List Step}
    (hexact : CleanupExact process name inode log after)
    (hearlier : ∀ event ∈ earlier, Silent event.request)
    (howns : Verified process name inode earlier ∨ Created name inode earlier) :
    Each (Owned process name) (earlier ++ log) := by
  refine each_append.mpr ⟨each_owned_silent hearlier,
    each_of_forall fun before event hevent place entry hunlinked => ?_⟩
  obtain ⟨⟨_, rfl⟩, _⟩ := hexact.unlinks event hevent place entry hunlinked
  exact howns.imp (·.mono (List.subset_append_left _ _)) (·.mono (List.subset_append_left _ _))

section silent

theorem silent_require {condition : Bool} {error : IoError} :
    Prog.Within Silent (require condition error) := by
  cases condition with
  | true => exact within_pure
  | false => exact within_throw

theorem silent_osCString {checked : Name} : Prog.Within Silent (osCString checked) :=
  silent_require

theorem silent_entryMetadata {place : Name} : Prog.Within Silent (entryMetadata place) :=
  within_andThen silent_osCString fun _ => within_perform fun _ => Call.noConfusion

theorem silent_openEntry {place : Name} {flags : OpenFlags} :
    Prog.Within Silent (openEntry place flags) :=
  within_andThen silent_osCString fun _ => within_perform fun _ => Call.noConfusion

theorem silent_fstat {file : File} : Prog.Within Silent (fstat file) :=
  within_perform fun _ => Call.noConfusion

theorem silent_validatePrivateDirectory {metadata : EntryMetadata} {what : String} :
    Prog.Within Silent (validatePrivateDirectory process metadata what) :=
  within_andThen silent_require fun _ => within_andThen silent_require fun _ => silent_require

theorem silent_createDirectory {path : Path} : Prog.Within Silent (createDirectory path) := by
  refine within_andThen (within_attempt (within_perform fun _ => Call.noConfusion))
    fun made => ?_
  cases made with
  | ok _ => exact within_pure
  | error error => exact silent_require

theorem silent_ensurePrivateParent {parent : Path} :
    Prog.Within Silent (ensurePrivateParent process parent) := by
  refine within_andThen (within_attempt (within_perform fun _ => Call.noConfusion))
    fun metadata => ?_
  cases metadata with
  | ok metadata => exact silent_validatePrivateDirectory
  | error error =>
      dsimp only
      split
      · exact within_andThen (within_perform fun _ => Call.noConfusion) fun _ =>
          within_andThen silent_validatePrivateDirectory fun _ =>
          within_andThen silent_createDirectory fun _ =>
          within_andThen (within_perform fun _ => Call.noConfusion) fun _ =>
          silent_validatePrivateDirectory
      · exact within_throw

theorem silent_openParent {path : Path} : Prog.Within Silent (PinnedParent.open process path) := by
  refine within_andThen ?_ fun _ => within_andThen (within_perform fun _ => Call.noConfusion)
    fun _ => within_andThen silent_validatePrivateDirectory fun _ => within_pure
  induction path.components with
  | nil => exact within_pure
  | cons component rest ih => exact within_andThen silent_osCString fun _ => ih

theorem silent_openLock {lockName : Name} : Prog.Within Silent (openLock lockName) := by
  refine within_andThen (within_attempt silent_openEntry) fun opened => ?_
  cases opened with
  | ok file => exact within_pure
  | error error =>
      dsimp only
      split
      · exact within_andThen silent_openEntry fun _ => within_pure
      · exact within_throw

theorem silent_lockFile {file : File} : Prog.Within Silent (lockFile file) := by
  refine within_andThen (within_attempt (within_perform fun _ => Call.noConfusion))
    fun locked => ?_
  cases locked with
  | ok _ => exact within_pure
  | error error =>
      dsimp only
      split
      · exact within_throw
      · exact within_throw

theorem silent_acquireSocketLock : Prog.Within Silent (acquireSocketLock process name) := by
  refine within_andThen silent_openLock fun opened => ?_
  have hrest : Prog.Within Silent (do
      let metadata ← fstat opened.1
      require (metadata.permissions = 0o600)
        (.custom .permissionDenied "IPC socket lock is not mode 0600")
      lockFile opened.1
      let named ← entryMetadata (socketLockName name)
      require (named.inode = metadata.inode && named.format = regularFormat)
        (.custom .addrInUse "IPC socket lock changed during acquisition")
      pure opened.1 : Io File) :=
    within_andThen silent_fstat fun _ => within_andThen silent_require fun _ =>
      within_andThen silent_lockFile fun _ => within_andThen silent_entryMetadata fun _ =>
      within_andThen silent_require fun _ => within_pure
  refine within_andThen silent_fstat fun _ => within_andThen silent_require fun _ =>
    within_andThen silent_require fun _ => ?_
  split
  · exact within_andThen (within_perform fun _ => Call.noConfusion) fun _ => hrest
  · exact hrest

theorem silent_setup {parent : PinnedParent} :
    Prog.Within Silent (do
      setupBoundSocket process name inode
      parent.verifyPublicIdentity process : Io Unit) := by
  refine within_andThen ?_ fun _ => ?_
  · exact within_andThen silent_openEntry fun _ => within_andThen silent_fstat fun _ =>
      within_andThen silent_require fun _ => within_andThen silent_require fun _ =>
      within_andThen (within_perform fun _ => Call.noConfusion) fun _ =>
      within_andThen (within_perform fun _ => Call.noConfusion) fun _ =>
      within_andThen silent_entryMetadata fun _ => silent_require
  · refine within_andThen (within_attempt silent_openParent) fun current => ?_
    cases current with
    | ok current => exact silent_require
    | error error => exact within_throw

end silent

/-- Runs in which no second look is disturbed delete only what the daemon owns, and what
they give is as stated. -/
def Owning (process : Process) (name : Name) {α : Type} (gives : α → List Step → Prop)
    (program : Io α) : Prop :=
  ∀ state log result after, Runs (shared process name) program state log result after →
    log.IsChain Undisturbed →
      Each (Owned process name) log ∧ ∀ value, result = .ok value → gives value log

theorem Owning.of_silent {α : Type} {program : Io α} (hsilent : Prog.Within Silent program) :
    Owning process name (fun _ _ => True) program :=
  fun _ _ _ _ hruns _ => ⟨each_owned_silent (hruns.within hsilent), fun _ _ => trivial⟩

theorem Owning.andThen {α β : Type} {gives : β → List Step → Prop} {program : Io α}
    {rest : α → Io β} (hprogram : Owning process name (fun _ _ => True) program)
    (hmono : ∀ value log earlier, gives value log → gives value (earlier ++ log))
    (hrest : ∀ value, Owning process name gives (rest value)) :
    Owning process name gives (program >>= rest) := by
  intro state log result after hruns hchain
  rcases runs_andThen.mp hruns with ⟨value, middle, first, second, hfirst, hsecond, rfl⟩ |
    ⟨error, hfirst, rfl⟩
  · obtain ⟨hleft, hright, _⟩ := List.isChain_append.mp hchain
    obtain ⟨howned, hgives⟩ := hrest value _ _ _ _ hsecond hright
    exact ⟨each_owned_append (hprogram _ _ _ _ hfirst hleft).1 howned,
      fun given hgiven => hmono given second first (hgives given hgiven)⟩
  · exact ⟨(hprogram _ _ _ _ hfirst hchain).1, fun _ hresult => by cases hresult⟩

theorem runs_entryMetadata {place : Name} {result : Except IoError EntryMetadata}
    (hruns : Runs (shared process name) (entryMetadata place) state log result after) :
    log = [] ∧ (∃ error, result = .error error) ∨
      ∃ before, log = [⟨before, .fstatat place, result, before⟩] := by
  rw [entryMetadata, runs_osCString_andThen] at hruns
  rcases hruns with ⟨_, hruns⟩ | ⟨_, rfl, _, rfl⟩
  · obtain ⟨before, _, _, ⟨rfl, _⟩, _, rfl⟩ := runs_perform.mp hruns
    exact .inr ⟨_, rfl⟩
  · exact .inl ⟨rfl, _, rfl⟩

theorem removeStale_owning :
    Owning process name (fun _ _ => True) (removeStale process name) := by
  intro state log result after hruns hchain
  refine ⟨?_, fun _ _ => trivial⟩
  rw [removeStale, runs_attempt_andThen] at hruns
  obtain ⟨found, middle, first, second, hfound, hruns, rfl⟩ := hruns
  have hfirst := hfound.within silent_entryMetadata
  cases found with
  | error error =>
      exact each_owned_append (each_owned_silent hfirst)
        (each_owned_silent (hruns.within silent_require))
  | ok metadata =>
      rcases runs_entryMetadata hfound with ⟨_, _, hresult⟩ | ⟨before, rfl⟩
      · cases hresult
      · dsimp only at hruns
        rw [runs_require_andThen] at hruns
        rcases hruns with ⟨hsocket, hruns⟩ | ⟨_, rfl, _⟩
        · rw [ensureOwner, runs_require_andThen] at hruns
          rcases hruns with ⟨howner, hruns⟩ | ⟨_, rfl, _⟩
          · rw [runs_attempt_andThen] at hruns
            obtain ⟨answer, met, third, cleanup, hconnect, hruns, rfl⟩ := hruns
            have hthird : ∀ event ∈ third, Silent event.request :=
              hconnect.within (within_perform fun _ => Call.noConfusion)
            obtain ⟨_, place, _, ⟨rfl, _⟩, _, rfl⟩ := runs_perform.mp hconnect
            rw [← List.append_assoc]
            have hearlier := List.forall_mem_append.mpr ⟨hfirst, hthird⟩
            cases answer with
            | ok _ =>
                obtain ⟨rfl, _, _⟩ := runs_throw.mp hruns
                rw [List.append_nil]
                exact each_owned_silent hearlier
            | error error =>
                dsimp only at hruns
                by_cases hstale : isStaleConnectError error = true
                · rw [if_pos hstale] at hruns
                  refine (removeExpectedEntry_exact hruns).owned hearlier (.inl ?_)
                  rw [← List.append_assoc] at hchain
                  have hpair := List.isChain_pair.mp (List.isChain_append.mp hchain).1
                  obtain ⟨held, hheld, hinode⟩ := hpair.1 name metadata (place.entries name) rfl
                    (by rw [foundStale, if_pos hstale])
                  exact ⟨⟨_, List.mem_cons_self, metadata, rfl, hsocket, of_decide_eq_true howner,
                    rfl⟩, _, List.mem_cons_of_mem _ (List.mem_singleton_self _), held,
                    by rw [foundStale, if_pos hstale, hheld], hinode⟩
                · rw [if_neg hstale] at hruns
                  obtain ⟨rfl, _, _⟩ := runs_throw.mp hruns
                  rw [List.append_nil]
                  exact each_owned_silent hearlier
          · rw [List.append_nil]
            exact each_owned_silent hfirst
        · rw [List.append_nil]
          exact each_owned_silent hfirst

/-- A setup that fails deletes no other socket than the one it is for. -/
theorem guarded_owned {setup : Io Unit} {result : Except IoError Unit} {earlier : List Step}
    (hsetup : Prog.Within Silent setup) (hearlier : ∀ event ∈ earlier, Silent event.request)
    (hcreated : Created name inode earlier)
    (hruns : Runs (shared process name) (guarded process name inode setup) state log result
      after) : Each (Owned process name) (earlier ++ log) := by
  rw [guarded, runs_attempt_andThen] at hruns
  obtain ⟨answer, middle, first, second, hfirst, hruns, rfl⟩ := hruns
  have hboth := List.forall_mem_append.mpr ⟨hearlier, hfirst.within hsetup⟩
  rw [← List.append_assoc]
  cases answer with
  | ok _ =>
      obtain ⟨rfl, _, _⟩ := runs_pure.mp hruns
      rw [List.append_nil]
      exact each_owned_silent hboth
  | error error =>
      obtain ⟨_, _, cleanup, last, hcleanup, hlast, rfl⟩ := runs_attempt_andThen.mp hruns
      obtain ⟨rfl, _, _⟩ := runs_throw.mp hlast
      rw [List.append_nil]
      exact (removeExpectedEntry_exact hcleanup).owned hboth
        (.inr (hcreated.mono (List.subset_append_left _ _)))

/-- `UnixListener::bind` that succeeds has created the socket that its log shows. -/
theorem created_of_listen {before there : State} {answer : Except IoError Unit}
    (hanswers : answers process before (.listen name) answer there) (hok : answer = .ok ()) :
    ∃ entry, created ⟨before, .listen name, .ok (), there⟩ = some (name, entry) := by
  subst hok
  rcases hanswers with ⟨_, herror, _⟩ | ⟨entry, _, _, rfl⟩ | ⟨⟨_, herror, _⟩, _⟩
  · cases herror
  · exact ⟨entry, by rw [created, put_self, Option.map_some]⟩
  · cases herror

/-- What `bind` does once it has seen to an earlier socket: the server it gives has the
inode of the socket that was created. -/
theorem publish_owning {path : Path} {parent : PinnedParent} {lock : File} :
    Owning process name (fun server log => server.path = path ∧ Created name server.inode log)
      (do
        perform (.listen name)
        let metadata ← entryMetadata name
        require metadata.isSocket (.custom .addrInUse "IPC socket path changed during bind")
        guarded process name metadata.inode (do
          setupBoundSocket process name metadata.inode
          parent.verifyPublicIdentity process)
        pure ⟨path, parent, lock, metadata.inode⟩ : Io BoundServer) := by
  intro state log result after hruns hchain
  rw [runs_andThen] at hruns
  rcases hruns with ⟨_, middle, first, second, hlisten, hruns, rfl⟩ | ⟨error, hlisten, rfl⟩
  · have hfirst : ∀ event ∈ first, Silent event.request :=
      hlisten.within (within_perform fun _ => Call.noConfusion)
    obtain ⟨before, there, _, hanswers, _, rfl⟩ := runs_perform.mp hlisten
    rw [runs_andThen] at hruns
    rcases hruns with ⟨metadata, read, third, fourth, hread, hruns, rfl⟩ | ⟨error, hread, rfl⟩
    · have hthird := hread.within silent_entryMetadata
      have hboth := List.forall_mem_append.mpr ⟨hfirst, hthird⟩
      rcases runs_entryMetadata hread with ⟨_, _, hresult⟩ | ⟨place, rfl⟩
      · cases hresult
      · rw [← List.append_assoc] at hchain ⊢
        obtain ⟨entry, hmade⟩ := created_of_listen hanswers rfl
        have hpair := List.isChain_pair.mp (List.isChain_append.mp hchain).1
        rw [runs_require_andThen] at hruns
        rcases hruns with ⟨hsocket, hruns⟩ | ⟨_, rfl, _, rfl⟩
        · have hcreated : Created name metadata.inode
              ([⟨before, .listen name, .ok (), there⟩] ++
                [⟨place, .fstatat name, .ok metadata, place⟩]) :=
            ⟨_, List.mem_cons_self, entry, hmade,
              (hpair.2 name entry metadata hmade rfl hsocket).symm⟩
          rw [runs_andThen] at hruns
          rcases hruns with ⟨_, there, fifth, sixth, hguarded, hruns, rfl⟩ | ⟨error, hguarded, rfl⟩
          · obtain ⟨rfl, rfl, _⟩ := runs_pure.mp hruns
            rw [List.append_nil]
            refine ⟨guarded_owned silent_setup hboth hcreated hguarded, fun server hserver => ?_⟩
            cases hserver
            exact ⟨rfl, hcreated.mono (List.subset_append_left _ _)⟩
          · exact ⟨guarded_owned silent_setup hboth hcreated hguarded,
              fun _ hresult => by cases hresult⟩
        · rw [List.append_nil]
          exact ⟨each_owned_silent hboth, fun _ hresult => by cases hresult⟩
    · exact ⟨each_owned_append (each_owned_silent hfirst)
        (each_owned_silent (hread.within silent_entryMetadata)), fun _ hresult => by cases hresult⟩
  · exact ⟨each_owned_silent (hlisten.within (within_perform fun _ => Call.noConfusion)),
      fun _ hresult => by cases hresult⟩

theorem bind_owning {path : Path} (hname : path.fileName = some name) :
    Owning process name (fun server log => server.path = path ∧ Created name server.inode log)
      (bind process path) := by
  have hmono : ∀ (server : BoundServer) (log earlier : List Step),
      server.path = path ∧ Created name server.inode log →
        server.path = path ∧ Created name server.inode (earlier ++ log) :=
    fun _ _ _ ⟨hpath, hcreated⟩ => ⟨hpath, hcreated.mono (List.subset_append_right _ _)⟩
  have hbind : bind process path = (do
      ensurePrivateParent process (parentOrHere path)
      let parent ← PinnedParent.open process (parentOrHere path)
      let lock ← acquireSocketLock process name
      removeStale process name
      perform (.listen name)
      let metadata ← entryMetadata name
      require metadata.isSocket (.custom .addrInUse "IPC socket path changed during bind")
      guarded process name metadata.inode (do
        setupBoundSocket process name metadata.inode
        parent.verifyPublicIdentity process)
      pure ⟨path, parent, lock, metadata.inode⟩) := by
    rw [bind, socketName, hname]
    rfl
  rw [hbind]
  refine .andThen (.of_silent silent_ensurePrivateParent) hmono fun _ => ?_
  refine .andThen (.of_silent silent_openParent) hmono fun _ => ?_
  refine .andThen (.of_silent silent_acquireSocketLock) hmono fun _ => ?_
  exact .andThen removeStale_owning hmono fun _ => publish_owning

/-- Whatever other processes do to the public name, a cleanup is exact.  A start and the
drop of its server delete only sockets that were created or verified, the drop only the one
that was created, if the second looks of the start are undisturbed. -/
theorem cleanup_owned (process : Process) (name : Name) :
    (∀ inode state log result after,
      Runs (shared process name) (removeExpectedEntry process name inode) state log result
        after → CleanupExact process name inode log after) ∧
    ∀ path state log result after, path.fileName = some name →
      Runs (shared process name) (bind process path) state log result after →
      log.IsChain Undisturbed →
        Each (Owned process name) log ∧
        ∀ server later outcome last, result = .ok server →
          Runs (shared process name) (drop process server) after later outcome last →
          ∀ event ∈ later, ∀ place entry, unlinked event = some (place, entry) →
            Created name entry.inode log := by
  refine ⟨fun _ _ _ _ _ => removeExpectedEntry_exact,
    fun path state log result after hname hruns hchain => ?_⟩
  obtain ⟨howned, hserver⟩ := bind_owning hname _ _ _ _ hruns hchain
  refine ⟨howned, fun server later outcome last hresult hdrop event hevent place entry
    hunlinked => ?_⟩
  obtain ⟨hpath, hcreated⟩ := hserver server hresult
  rw [drop, hpath, hname] at hdrop
  obtain ⟨_, _, first, second, hremove, hpure, rfl⟩ := runs_attempt_andThen.mp hdrop
  obtain ⟨rfl, _, _⟩ := runs_pure.mp hpure
  rw [List.append_nil] at hevent
  obtain ⟨⟨_, hinode⟩, _⟩ :=
    (removeExpectedEntry_exact hremove).unlinks event hevent place entry hunlinked
  rw [hinode]
  exact hcreated

section starts

def lone : Process := ⟨1000, 7⟩
def lonePath : Path := ⟨true, [[114], [115]]⟩
def runDirectory : Path := ⟨true, [[114]]⟩
def privateDirectory : EntryMetadata := ⟨(1, 1), 0o040700, 1000⟩
def lockEntry : EntryMetadata := ⟨(1, 2), 0o100600, 1000⟩
def lockFileOf : File := ⟨(1, 2), 0o100000⟩

/-- A socket of the daemon's user. -/
def socketOf (number : UInt64) : EntryMetadata := ⟨(1, number), 0o140600, 1000⟩

/-- A directory with nothing but the lock that an earlier server left. -/
def lockOnly : State :=
  ⟨fun name => if name = socketLockName [115] then some lockEntry else none, 0⟩

def bound : State := lockOnly.put [115] (some (socketOf 3))

/-- The directory once another process has put its own socket under the name. -/
def replaced (number : UInt64) : State := bound.put [115] (some (socketOf number))

def ready (number : UInt64) : State := (replaced number).chmod (1, number) 0o600

/-- The calls of a start that finds the given socket after it has bound its own. -/
def startLog (number : UInt64) : List Step :=
  [⟨lockOnly, .lstat runDirectory, .ok privateDirectory, lockOnly⟩,
    ⟨lockOnly, .openDirectory runDirectory, .ok privateDirectory, lockOnly⟩,
    ⟨lockOnly, .openat (socketLockName [115]) .createNew, .error (.os eexist), lockOnly⟩,
    ⟨lockOnly, .openat (socketLockName [115]) .readWrite, .ok lockFileOf, lockOnly⟩,
    ⟨lockOnly, .fstat lockFileOf, .ok lockEntry, lockOnly⟩,
    ⟨lockOnly, .fstat lockFileOf, .ok lockEntry, lockOnly⟩,
    ⟨lockOnly, .flock lockFileOf, .ok (), lockOnly⟩,
    ⟨lockOnly, .fstatat (socketLockName [115]), .ok lockEntry, lockOnly⟩,
    ⟨lockOnly, .fstatat [115], .error (.os enoent), lockOnly⟩,
    ⟨lockOnly, .listen [115], .ok (), bound⟩,
    ⟨replaced number, .fstatat [115], .ok (socketOf number), replaced number⟩,
    ⟨replaced number, .openat [115] .pathOnly, .ok ⟨(1, number), socketFormat⟩, replaced number⟩,
    ⟨replaced number, .fstat ⟨(1, number), socketFormat⟩, .ok (socketOf number), replaced number⟩,
    ⟨replaced number, .fchmod ⟨(1, number), socketFormat⟩ 0o600, .ok (), ready number⟩,
    ⟨ready number, .setNonblocking, .ok (), ready number⟩,
    ⟨ready number, .fstatat [115], .ok (socketOf number), ready number⟩,
    ⟨ready number, .openDirectory runDirectory, .ok privateDirectory, ready number⟩]

theorem lockOnly_spare {number : UInt64} (hnumber : number = 3 ∨ number = 4) :
    lockOnly.Spare [115] (1, number) := by
  intro other entry _ hentry
  simp only [lockOnly] at hentry
  split at hentry
  · cases hentry
    rcases hnumber with rfl | rfl <;> decide
  · cases hentry

theorem startLog_runs {number : UInt64} (hnumber : number = 3 ∨ number = 4) :
    Runs (shared lone [115]) (bind lone lonePath) lockOnly (startLog number)
      (.ok ⟨lonePath, ⟨runDirectory, (1, 1)⟩, lockFileOf, (1, number)⟩) (ready number) := by
  have hspare : bound.Spare [115] (1, number) := by
    intro other entry hother hentry
    rw [bound, put_other hother] at hentry
    exact lockOnly_spare hnumber other entry hother hentry
  have hothers : Relation.ReflTransGen (Others [115]) bound (replaced number) :=
    .single ⟨some (socketOf number), fun entry hentry => by cases hentry; exact hspare, rfl⟩
  have hfresh : Fresh lone lockOnly [115] socketFormat (socketOf 3) :=
    ⟨rfl, lockOnly_spare (.inl rfl), rfl, rfl⟩
  rcases hnumber with rfl | rfl
  all_goals refine .call .refl rfl ?_
  all_goals refine .call .refl rfl ?_
  all_goals refine .call .refl (.inl ⟨by decide, rfl, rfl⟩) ?_
  all_goals refine .call .refl ⟨rfl, .inl rfl⟩ ?_
  all_goals refine .call .refl ⟨rfl, .inl ⟨lockEntry, rfl, rfl, rfl⟩⟩ ?_
  all_goals refine .call .refl ⟨rfl, .inl ⟨lockEntry, rfl, rfl, rfl⟩⟩ ?_
  all_goals refine .call .refl rfl ?_
  all_goals refine .call .refl ⟨rfl, .inl rfl⟩ ?_
  all_goals refine .call .refl ⟨rfl, .inl rfl⟩ ?_
  all_goals refine .call .refl (.inr (.inl ⟨socketOf 3, hfresh, .inl rfl, rfl⟩)) ?_
  all_goals refine .call hothers ⟨rfl, .inl rfl⟩ ?_
  all_goals refine .call .refl ⟨rfl, .inl rfl⟩ ?_
  all_goals refine .call .refl ⟨rfl, .inl ⟨socketOf _, rfl, rfl, rfl⟩⟩ ?_
  all_goals refine .call .refl (.inl ⟨rfl, rfl⟩) ?_
  all_goals refine .call .refl rfl ?_
  all_goals refine .call .refl ⟨rfl, .inl rfl⟩ ?_
  all_goals exact .call .refl rfl (.done .refl)

def fetched (number : UInt64) : State := { ready number with sequence := 1 }

/-- The name that the drop gives to what it captures. -/
def taken (number : UInt64) : Name := quarantineName lone (1, number) 0

def captured (number : UInt64) : State :=
  ((fetched number).put [115] none).put (taken number) (some (socketOf number))

def removal (number : UInt64) : Step :=
  ⟨captured number, .unlinkat (taken number), .ok (), (captured number).put (taken number) none⟩

/-- The calls of a drop that captures and deletes the socket its server took for its own. -/
def dropLog (number : UInt64) : List Step :=
  [⟨ready number, .fetchAdd, .ok 0, fetched number⟩,
    ⟨fetched number, .renameat2 [115] (taken number), .ok (), captured number⟩,
    ⟨captured number, .fstatat (taken number), .ok (socketOf number), captured number⟩,
    removal number]

theorem dropLog_runs {number : UInt64} (hnumber : number = 3 ∨ number = 4) :
    Runs (shared lone [115])
      (drop lone ⟨lonePath, ⟨runDirectory, (1, 1)⟩, lockFileOf, (1, number)⟩)
      (ready number) (dropLog number) (.ok ()) ((captured number).put (taken number) none) := by
  rcases hnumber with rfl | rfl
  all_goals refine .call .refl ⟨rfl, rfl⟩ ?_
  all_goals refine .call .refl (.inl rfl) ?_
  all_goals refine .call .refl ⟨rfl, .inl rfl⟩ ?_
  all_goals exact .call .refl (.inl rfl) (.done .refl)

theorem startLog_created {number : UInt64} {event : Step} {place : Name}
    {entry : EntryMetadata} (hevent : event ∈ startLog number)
    (hcreated : created event = some (place, entry)) :
    place = [115] ∧ entry = socketOf 3 := by
  have hmade : (place, entry) ∈ (startLog number).filterMap created :=
    List.mem_filterMap.mpr ⟨event, hevent, hcreated⟩
  have hall : (startLog number).filterMap created = [([115], socketOf 3)] := rfl
  rw [hall, List.mem_singleton] at hmade
  exact Prod.mk.injEq .. ▸ hmade

/-- A socket of another process, put under the public name between the calls that bind the
daemon's socket and read its metadata, is deleted when the server is dropped. -/
theorem replacement_deleted : ¬∀ (process : Process) (name : Name) (path : UnixPath.Path)
    (state after last : State) (log later : List Step) (server : BoundServer)
    (outcome : Except IoError Unit), path.fileName = some name →
    Runs (shared process name) (bind process path) state log (.ok server) after →
    Runs (shared process name) (drop process server) after later outcome last →
    ∀ event ∈ later, ∀ place entry, unlinked event = some (place, entry) →
      Created name entry.inode log := by
  intro hclaim
  obtain ⟨creation, hcreation, entry, hcreated, hinode⟩ :=
    hclaim lone [115] lonePath _ _ _ _ _ _ _ rfl (startLog_runs (.inr rfl))
      (dropLog_runs (.inr rfl)) (removal 4) (by simp [dropLog]) (taken 4) (socketOf 4) rfl
  rw [(startLog_created hcreation hcreated).2] at hinode
  exact absurd hinode (by decide)

theorem startLog_undisturbed : (startLog 3).IsChain Undisturbed := by
  have hstale : ∀ event ∈ startLog 3, foundStale event = none := by
    simp [startLog, foundStale]
  have hobserved : (startLog 3).filterMap observed =
      [(socketLockName [115], lockEntry), ([115], socketOf 3), ([115], socketOf 3)] := rfl
  refine List.Pairwise.isChain (List.pairwise_of_forall_mem_list fun first hfirst second hsecond =>
    ⟨fun name entry met _ hmet => ?_, fun name entry found hcreated hfound _ => ?_⟩)
  · rw [hstale second hsecond] at hmet
    cases hmet
  · obtain ⟨rfl, rfl⟩ := startLog_created hfirst hcreated
    have hseen : ([115], found) ∈ (startLog 3).filterMap observed :=
      List.mem_filterMap.mpr ⟨second, hsecond, hfound⟩
    rw [hobserved] at hseen
    have hsocket : found = socketOf 3 := by simpa [socketLockName] using hseen
    rw [hsocket]

/-- A start that nobody disturbs, and a drop that deletes the socket the start created. -/
theorem cleanup_owned_undisturbed :
    Each (Owned lone [115]) (startLog 3) ∧
      (dropLog 3).filterMap unlinked = [(taken 3, socketOf 3)] ∧
      Created [115] (socketOf 3).inode (startLog 3) := by
  obtain ⟨howned, hdropped⟩ := (cleanup_owned lone [115]).2 lonePath _ _ _ _ rfl
    (startLog_runs (.inl rfl)) startLog_undisturbed
  exact ⟨howned, rfl, hdropped _ _ _ _ rfl (dropLog_runs (.inl rfl))
    (removal 3) (by simp [dropLog]) (taken 3) (socketOf 3) rfl⟩

end starts

end Socket

end Daemon

end Wiiland
