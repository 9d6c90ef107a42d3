/-
Capture leases in runs of the reactor, and what they make of the capture flags of the
devices.
-/
import Wiiland.Daemon.BridgeSession
import Wiiland.Daemon.Exchange
import Wiiland.Daemon.Leases
import Wiiland.Daemon.RuntimeTurns
import Wiiland.Daemon.SlotDevices
import Wiiland.Lib.JsonText

namespace Wiiland

namespace Daemon

open Hid Ipc
open IpcServer (KeepsLeases Adds)

namespace Runtime

variable {P D : Type} [DeviceSession D]

/-- When a capture is granted that is a new lease of its connection, the reply fits a
frame, or else the error that would take its place does not. -/
def GrantFits (codec : Codec) (runtime : Runtime P D)
    (command : UInt64 × UInt64 × Command) : Prop :=
  ∀ syspath slot device server client, command.2.2 = .startCapture syspath →
    runtime.find (.ofString syspath) = some slot → runtime.device slot = some device →
    (DeviceSession.setCapture device true).1 = .ok () → runtime.ipc = some server →
    (command.1, client) ∈ server.clients →
    (DeviceSession.info (DeviceSession.setCapture device true).2).syspath ∉ client.capture →
    client.capture.length < maxCaptureDevices →
      (∃ bytes, encodeFrame codec.messages (.response command.2.1 (.captureStarted
        (DeviceSession.info (DeviceSession.setCapture device true).2))) = .ok bytes) ∨
      ∃ error, encodeFrame codec.messages (Client.oversizeError command.2.1) = .error error

/-- The library writes the answer to a granted capture with every character of the path in
its escaped form; what stands around the path is short. -/
def WritesCaptures (codec : Codec) : Prop :=
  ∀ id info, ∃ json, codec.messages.toVec (.response id (.captureStarted info)) = .ok json ∧
    json.length ≤ 512 + Text.byteLength (JsonText.escape info.syspath.toList)

/-- While the devices have paths of the system, every grant fits a frame. -/
theorem grantFits_of_short [LawfulSession D] {codec : Codec} {runtime : Runtime P D}
    (hwrites : WritesCaptures codec)
    (hshort : InSlots (fun device : D => ShortPath device) runtime.slots)
    (command : UInt64 × UInt64 × Command) : runtime.GrantFits codec command := by
  intro syspath slot device server client _ _ hdevice _ _ _ _ _
  left
  obtain ⟨json, hjson, hlength⟩ := hwrites command.2.1
    (DeviceSession.info (DeviceSession.setCapture device true).2)
  have hdevicePath : ShortPath device := inSlots_device hshort hdevice
  have hpath : (DeviceSession.info (DeviceSession.setCapture device true).2).syspath.toList.length <
      4096 := by
    rw [LawfulSession.info_syspath, LawfulSession.path_setCapture]
    exact hdevicePath
  have hescaped := JsonText.byteLength_escape
    (DeviceSession.info (DeviceSession.setCapture device true).2).syspath.toList
  refine ⟨_, encodeFrame_eq_ok.mpr ⟨json, hjson, ?_, rfl⟩⟩
  calc json.length
      ≤ 512 + 6 * (DeviceSession.info
          (DeviceSession.setCapture device true).2).syspath.toList.length :=
        hlength.trans (Nat.add_le_add_left hescaped 512)
    _ ≤ 512 + 6 * 4096 := Nat.add_le_add_left (Nat.mul_le_mul_left 6 hpath.le) 512
    _ ≤ maxFrameBytes := by decide

variable [RuntimePlatform P D]

/-- The leases of every connection. -/
def leases (runtime : Runtime P D) : List (UInt64 × List String) :=
  runtime.ipc.elim [] IpcServer.leases

/-- The completion of a command is answered with an error. -/
def Refuses (codec : Codec) (runtime : Runtime P D)
    (command : UInt64 × UInt64 × Command) : Prop :=
  ∃ server client, runtime.ipc = some server ∧ (command.1, client) ∈ server.clients ∧
    Client.Declined codec client command.2.1 (runtime.controlCommand command.2.2).1

/-- A command that is answered with an error leaves every lease as it was. -/
def SparesLeases (codec : Codec) (runtime : Runtime P D)
    (command : UInt64 × UInt64 × Command) : Prop :=
  runtime.Refuses codec command →
    (runtime.completeCommand codec command).leases = runtime.leases

variable {codec : Codec} {runtime : Runtime P D}

/-- A capture is granted to a device in a slot that takes the flag. -/
theorem controlCommand_start_iff {syspath : String} {result : ResponseResult} :
    (runtime.controlCommand (.startCapture syspath)).1 = .ok result ↔
      ∃ slot device, runtime.find (.ofString syspath) = some slot ∧
        runtime.device slot = some device ∧
        (DeviceSession.setCapture device true).1 = .ok () ∧
        result = .captureStarted (DeviceSession.info (DeviceSession.setCapture device true).2) := by
  rw [controlCommand]
  cases hfind : runtime.find (.ofString syspath) with
  | none => simp
  | some slot =>
      cases hdevice : runtime.device slot with
      | none => simp [hdevice]
      | some device =>
          cases hresult : (DeviceSession.setCapture device true).1 with
          | error code => simp [hdevice, hresult]
          | ok _ => simp [hdevice, hresult, eq_comm]

/-- The server, if there is one, has its leases in order. -/
def Leased (ipc : Option IpcServer) : Prop := ∀ server, ipc = some server → server.Leasing

theorem leases_completeCommand {server : IpcServer} (hipc : runtime.ipc = some server)
    (command : UInt64 × UInt64 × Command) :
    (runtime.completeCommand codec command).leases = (server.completeCommand codec command.1
      command.2.1 (runtime.controlCommand command.2.2).1).leases := by
  have hkept := ipc_controlCommand runtime command.2.2
  rw [hipc] at hkept
  rw [leases, completeCommand]
  simp only [hkept, Option.map_some, Option.elim_some]

/-- Two connections of one token are the same. -/
theorem entry_unique {server : IpcServer} (hdistinct : server.Distinct) {token : UInt64}
    {client other : Client} (hclient : (token, client) ∈ server.clients)
    (hother : (token, other) ∈ server.clients) : client = other :=
  congrArg Prod.snd (List.inj_on_of_nodup_map (List.nodup_cons.mp hdistinct).2 hclient hother rfl)

/-- An error leaves the leases as they were exactly when a grant fits. -/
theorem sparesLeases_iff (hleased : Leased runtime.ipc) {command : UInt64 × UInt64 × Command}
    {syspath : String} (hstart : command.2.2 = .startCapture syspath) :
    runtime.SparesLeases codec command ↔ runtime.GrantFits codec command := by
  constructor
  · intro hspares path slot device server client hpath hfind hdevice hset hipc hclient hnew hroom
    have hresult := controlCommand_start_iff.mpr ⟨slot, device, hfind, hdevice, hset, rfl⟩
    rw [← hpath] at hresult
    cases hreply : encodeFrame codec.messages (.response command.2.1 (.captureStarted
        (DeviceSession.info (DeviceSession.setCapture device true).2))) with
    | ok bytes => exact .inl ⟨bytes, rfl⟩
    | error failure =>
        cases herror : encodeFrame codec.messages (Client.oversizeError command.2.1) with
        | error other => exact .inr ⟨other, rfl⟩
        | ok bytes =>
            have hrefused := (Client.declined_granted_iff hnew hroom).mpr
              ⟨⟨failure, hreply⟩, bytes, herror⟩
            rw [← hresult] at hrefused
            have hsame := hspares ⟨server, client, hipc, hclient, hrefused⟩
            rw [leases_completeCommand hipc, leases, hipc, Option.elim_some,
              IpcServer.leases_completeCommand] at hsame
            have hcapture := hsame client hclient
            rw [hresult, Client.complete_granted hnew hroom, Client.capture_queueResponse]
              at hcapture
            exact absurd (congrArg List.length hcapture) (by simp)
  · rintro hfits ⟨server, client, hipc, hclient, hrefused⟩
    rw [leases_completeCommand hipc, leases, hipc, Option.elim_some,
      IpcServer.leases_completeCommand]
    intro other hother
    rw [← entry_unique (hleased server hipc).distinct hclient hother,
      Client.capture_complete]
    cases hresult : (runtime.controlCommand command.2.2).1 with
    | error error => rfl
    | ok result =>
        rw [hstart] at hresult
        obtain ⟨slot, device, hfind, hdevice, hset, rfl⟩ := controlCommand_start_iff.mp hresult
        simp only
        split
        · rfl
        · next hgranted =>
          rw [Client.lease]
          split
          · rfl
          · next hnew =>
            have hfresh : (DeviceSession.info (DeviceSession.setCapture device true).2).syspath ∉
                client.capture := fun hmem => hnew (List.contains_iff_mem.mpr hmem)
            have hroom := Client.room_of_granted hgranted hnew
            rw [hstart, hresult] at hrefused
            obtain ⟨⟨failure, hlong⟩, bytes, herror⟩ :=
              (Client.declined_granted_iff hfresh hroom).mp hrefused
            rcases hfits syspath slot device server client hstart hfind hdevice hset hipc hclient
              hfresh hroom with ⟨_, hreply⟩ | ⟨_, hnone⟩
            · cases hreply.symm.trans hlong
            · cases hnone.symm.trans herror

theorem leased_takeCommands {P D : Type} {runtime : Runtime P D}
    (hleased : Leased runtime.ipc) : Leased runtime.takeCommands.2.ipc := by
  rw [takeCommands]
  cases hipc : runtime.ipc with
  | none =>
      rw [hipc] at hleased
      simp only [hipc]
      exact hleased
  | some server =>
      rintro later ⟨⟩
      have hleasing := hleased server hipc
      exact hleasing.keeps (hleasing.distinct.subperm
        (@IpcServer.tokens_takeCommands server ▸ .refl _)) IpcServer.keepsLeases_takeCommands

theorem leased_completing (commands : List (UInt64 × UInt64 × Command))
    (hleased : Leased runtime.ipc) :
    Leased (commands.foldl (completeCommand codec) runtime).ipc := by
  induction commands generalizing runtime with
  | nil => exact hleased
  | cons command commands ih =>
      refine ih fun later hlater => ?_
      change Option.map _ (runtime.controlCommand command.2.2).2.ipc = some later at hlater
      rw [ipc_controlCommand] at hlater
      obtain ⟨server, hserver, rfl⟩ := Option.map_eq_some_iff.mp hlater
      exact (hleased server hserver).complete _ _

theorem leased_serviceCommands (hleased : Leased runtime.ipc) :
    Leased (runtime.serviceCommands codec).ipc :=
  leased_completing runtime.takeCommands.1 (leased_takeCommands hleased)

/-- What a turn does to the connections: it keeps their leases or adds some. -/
theorem handleReady_leases (token : UInt64) (revents : Revents) {server later : IpcServer}
    (hserver : runtime.ipc = some server)
    (hlater : (runtime.handleReady codec token revents).2.ipc = some later) :
    (server.Distinct → later.Distinct) ∧
      (∀ entry ∈ server.clients, entry.1 ≠ token → entry ∈ later.clients) ∧
      (Adds server later ∨ KeepsLeases server later) := by
  rw [handleReady, hserver] at hlater
  cases hlater
  by_cases hlistener : token = listenerToken
  · subst hlistener
    have hadds := @IpcServer.adds_listener codec server
      (statusSnapshot runtime.slots runtime.dryRun
        (RuntimePlatform.processId runtime.platform)) (deviceSnapshot runtime.slots) revents
    exact ⟨hadds.distinct, fun entry hentry _ => hadds.stay entry hentry, .inl hadds⟩
  · obtain ⟨hkeeps, hdistinct, hstay⟩ := @IpcServer.keepsLeases_handleReady codec server
      (statusSnapshot runtime.slots runtime.dryRun
        (RuntimePlatform.processId runtime.platform)) (deviceSnapshot runtime.slots) token
      revents hlistener
    exact ⟨hdistinct, hstay, .inr hkeeps⟩

theorem Adds.leasing {server later : IpcServer} (hadds : Adds server later)
    (hleasing : server.Leasing) : later.Leasing := by
  refine ⟨hadds.distinct hleasing.distinct, fun entry hentry => ?_⟩
  rcases hadds.new entry hentry with hold | ⟨_, hnone⟩
  · exact hleasing.leasing entry hold
  · exact Client.leasing_of_nil hnone

/-- Every step other than the servicing of commands publishes, is a turn of a connection,
gives the connections another order or does not touch the server. -/
theorem step_ipc {step : ReactorStep P} (hstep : step ≠ .serviceCommands) :
    Published codec runtime.ipc (runtime.step codec step).ipc ∨
      (∃ token revents, step = .handleReady token revents) ∨
      ∃ before, (runtime.step codec step).ipc =
        runtime.ipc.map fun server => server.rehash before := by
  cases step with
  | addPath path => exact .inl (published_addPath runtime path)
  | requestReconcile =>
      rw [Runtime.step, ipc_requestReconcile]
      exact .inl (.refl runtime.ipc)
  | serviceDiscovery => exact .inl (published_serviceDiscovery runtime)
  | drainDevice single slot => exact .inl (published_drainDevice runtime single slot)
  | tickSlot single slot => exact .inl (published_tickSlot runtime single slot)
  | handleReady token revents => exact .inr (.inl ⟨token, revents, rfl⟩)
  | serviceCommands => exact absurd rfl hstep
  | rehash before => exact .inr (.inr ⟨before, rfl⟩)
  | elapse platform now pending metrics => exact .inl (.refl runtime.ipc)

/-- Such a step keeps the leases of the connections that it leaves. -/
theorem step_leases {step : ReactorStep P} (hstep : step ≠ .serviceCommands)
    {server later : IpcServer} (hserver : runtime.ipc = some server)
    (hlater : (runtime.step codec step).ipc = some later) :
    (server.Distinct → later.Distinct) ∧ (Adds server later ∨ KeepsLeases server later) := by
  rcases step_ipc hstep with hpublished | ⟨token, revents, rfl⟩ | ⟨before, hrehashed⟩
  · have hkeeps := @Published.preserves codec runtime.ipc _
      (fun later => (server.Distinct → later.Distinct) ∧ KeepsLeases server later) hpublished
      (fun middle notification hmiddle =>
        ⟨fun hdistinct => (hmiddle.1 hdistinct).subperm (IpcServer.tokens_publish notification),
          hmiddle.2.trans (IpcServer.keepsLeases_publish notification)⟩)
      (fun other hother => by
        cases hserver.symm.trans hother
        exact ⟨id, IpcServer.keepsLeases_refl server⟩) later hlater
    exact ⟨hkeeps.1, .inr hkeeps.2⟩
  · obtain ⟨hdistinct, _, hkeeps⟩ := handleReady_leases token revents hserver hlater
    exact ⟨hdistinct, hkeeps⟩
  · rw [hrehashed, hserver] at hlater
    cases hlater
    exact ⟨fun hdistinct => hdistinct.subperm (IpcServer.tokens_rehash before),
      .inr (IpcServer.keepsLeases_rehash before)⟩

theorem ipc_of_step {step : ReactorStep P} {later : IpcServer}
    (hstep : step ≠ .serviceCommands) (hlater : (runtime.step codec step).ipc = some later) :
    ∃ server, runtime.ipc = some server := by
  rcases step_ipc hstep with ⟨notifications, hpublished⟩ | ⟨token, revents, rfl⟩ |
    ⟨before, hrehashed⟩
  · rw [hpublished] at hlater
    obtain ⟨server, hserver, _⟩ := Option.map_eq_some_iff.mp hlater
    exact ⟨server, hserver⟩
  · cases hipc : runtime.ipc with
    | some server => exact ⟨server, rfl⟩
    | none =>
        rw [Runtime.step, handleReady, hipc] at hlater
        exact ⟨later, hipc.symm.trans hlater⟩
  · rw [hrehashed] at hlater
    obtain ⟨server, hserver, _⟩ := Option.map_eq_some_iff.mp hlater
    exact ⟨server, hserver⟩

theorem leased_step (step : ReactorStep P) (hleased : Leased runtime.ipc) :
    Leased (runtime.step codec step).ipc := by
  by_cases hstep : step = .serviceCommands
  · subst hstep
    exact leased_serviceCommands hleased
  · intro later hlater
    obtain ⟨server, hserver⟩ := ipc_of_step hstep hlater
    have hleasing := hleased server hserver
    obtain ⟨hdistinct, hadds | hkeeps⟩ := step_leases hstep hserver hlater
    · exact Adds.leasing hadds hleasing
    · exact hleasing.keeps (hdistinct hleasing.distinct) hkeeps

theorem leased_run (steps : List (ReactorStep P)) (hleased : Leased runtime.ipc) :
    Leased (runtime.run codec steps).ipc := by
  induction steps generalizing runtime with
  | nil => exact hleased
  | cons step steps ih => exact ih (leased_step step hleased)

/-- A path is among the leases of a connection that is open. -/
theorem any_capturePaths {server : IpcServer} {path : PathBuf} :
    (server.capturePaths.any fun lease => (PathBuf.ofString lease).same path) = true ↔
      ∃ entry ∈ server.clients, entry.2.isOpen = true ∧
        ∃ lease ∈ entry.2.capture, (PathBuf.ofString lease).same path = true := by
  simp only [IpcServer.capturePaths, List.any_eq_true, List.mem_flatMap, List.mem_filter]
  constructor
  · rintro ⟨lease, ⟨entry, ⟨hentry, hopen⟩, hlease⟩, hsame⟩
    exact ⟨entry, hentry, hopen, lease, hlease, hsame⟩
  · rintro ⟨entry, hentry, hopen, lease, hlease, hsame⟩
    exact ⟨lease, ⟨entry, ⟨hentry, hopen⟩, hlease⟩, hsame⟩

/-- After the commands are serviced each device captures exactly when an open connection
has a lease on its path. -/
theorem flagged_serviceCommands [LawfulSession D] [Capturing D] {device : D}
    (hdevice : some device ∈ (runtime.serviceCommands codec).slots) :
    Capturing.capture device = true ↔
      ∃ server, (runtime.serviceCommands codec).ipc = some server ∧
        ∃ entry ∈ server.clients, entry.2.isOpen = true ∧
          ∃ lease ∈ entry.2.capture,
            (PathBuf.ofString lease).same (DeviceSession.path device) = true := by
  rw [serviceCommands] at hdevice ⊢
  generalize runtime.takeCommands = taken at hdevice ⊢
  simp only at hdevice ⊢
  generalize taken.1.foldl (completeCommand codec) taken.2 = completed at hdevice ⊢
  obtain ⟨slot, _, hslot⟩ := List.mem_map.mp hdevice
  obtain ⟨before, _, rfl⟩ := Option.map_eq_some_iff.mp hslot
  rw [Capturing.capture_setCapture, LawfulSession.path_setCapture]
  change _ ↔ ∃ server, completed.ipc = some server ∧ _
  cases completed.ipc with
  | none => simp
  | some server =>
      refine any_capturePaths.trans ⟨fun hleased => ⟨server, rfl, hleased⟩, ?_⟩
      rintro ⟨other, hother, hleased⟩
      cases hother
      exact hleased

/-- Leases in a state of the reactor, and what its next steps do to them. -/
structure LeasesExact [Capturing D] (codec : Codec) (runtime : Runtime P D) : Prop where
  listed : ∀ server, runtime.ipc = some server → ∀ entry ∈ server.clients,
    entry.2.capture.Nodup ∧ entry.2.capture.length ≤ maxCaptureDevices
  flagged : ∀ device, some device ∈ (runtime.serviceCommands codec).slots →
    (Capturing.capture device = true ↔
      ∃ server, (runtime.serviceCommands codec).ipc = some server ∧
        ∃ entry ∈ server.clients, entry.2.isOpen = true ∧
          ∃ lease ∈ entry.2.capture,
            (PathBuf.ofString lease).same (DeviceSession.path device) = true)
  /-- Only the servicing of commands changes leases. -/
  kept : ∀ step, step ≠ .serviceCommands → ∀ server later, runtime.ipc = some server →
    (runtime.step codec step).ipc = some later → ∀ entry ∈ later.clients,
      (entry.1 ∉ server.clients.map Prod.fst ∧ entry.2.capture = []) ∨
        ∃ client, (entry.1, client) ∈ server.clients ∧ entry.2.capture = client.capture
  /-- A connection that is read or that ends takes no other with it. -/
  stay : ∀ token revents server later, runtime.ipc = some server →
    (runtime.handleReady codec token revents).2.ipc = some later →
      ∀ entry ∈ server.clients, entry.1 ≠ token → entry ∈ later.clients
  /-- A completion changes no connection but its own. -/
  own : ∀ before command after, runtime.takeCommands.1 = before ++ command :: after →
    ∀ server later,
      (before.foldl (completeCommand codec) runtime.takeCommands.2).ipc = some server →
      ((before ++ [command]).foldl (completeCommand codec) runtime.takeCommands.2).ipc =
        some later →
        ∀ entry, entry.1 ≠ command.1 → (entry ∈ later.clients ↔ entry ∈ server.clients)

theorem Leased.exact [LawfulSession D] [Capturing D] (hleased : Leased runtime.ipc) :
    runtime.LeasesExact codec where
  listed server hserver entry hentry :=
    ⟨((hleased server hserver).leasing entry hentry).nodup,
      ((hleased server hserver).leasing entry hentry).few⟩
  flagged device hdevice := flagged_serviceCommands hdevice
  kept step hstep server later hserver hlater entry hentry := by
    rcases (step_leases hstep hserver hlater).2 with hadds | hkeeps
    · exact (hadds.new entry hentry).symm.imp_right fun hold => ⟨entry.2, hold, rfl⟩
    · exact .inr (hkeeps entry hentry)
  stay token revents server later hserver hlater :=
    (handleReady_leases token revents hserver hlater).2.1
  own before command after _ server later hserver hlater entry hother := by
    rw [List.foldl_append] at hlater
    change Option.map _ (controlCommand _ command.2.2).2.ipc = some later at hlater
    rw [ipc_controlCommand, hserver] at hlater
    cases hlater
    exact IpcServer.completeCommand_apart _ _ hother

theorem lasting_shortPath [LawfulSession D] [SysfsPaths P] :
    Lasting P (fun device : D => ShortPath device) where
  opened := SysfsPaths.path_short
  drain device hshort := by rwa [ShortPath, LawfulSession.path_drain]
  setCapture device enabled hshort := by rwa [ShortPath, LawfulSession.path_setCapture]
  tickPointer device hshort := by rwa [ShortPath, LawfulSession.path_tickPointer]

/-- In every run of the reactor, over any order of its steps, capture leases are exact, and
a capture that is answered with an error leaves every lease as it was. -/
theorem run_leases [LawfulSession D] [Capturing D] [SysfsPaths P]
    (hwrites : WritesCaptures codec) (config : Config) (dryRun : Bool) (platform : P)
    (path : PathBuf) (accepts : List AcceptAnswer) (steps : List (ReactorStep P)) :
    ((start config dryRun platform (some (.bind path accepts)) : Runtime P D).run codec
        steps).LeasesExact codec ∧
      ∀ before command after syspath, ((start config dryRun platform
          (some (.bind path accepts)) : Runtime P D).run codec steps).takeCommands.1 =
            before ++ command :: after →
        command.2.2 = .startCapture syspath →
          SparesLeases codec (before.foldl (completeCommand codec) ((start config dryRun
            platform (some (.bind path accepts)) : Runtime P D).run codec
              steps).takeCommands.2) command := by
  have hleased : Leased ((start config dryRun platform (some (.bind path accepts)) :
      Runtime P D).run codec steps).ipc := by
    refine leased_run steps ?_
    rintro server ⟨⟩
    exact IpcServer.leasing_bind path accepts
  refine ⟨hleased.exact, fun before command after syspath _ hstart => ?_⟩
  have hslots : InSlots (fun device : D => ShortPath device) ((start config dryRun platform
      (some (.bind path accepts)) : Runtime P D).run codec steps).takeCommands.2.slots :=
    (slots_takeCommands _).symm ▸
      inSlots_run lasting_shortPath (inSlots_start config dryRun platform _) steps
  exact (sparesLeases_iff (leased_completing before (leased_takeCommands hleased)) hstart).mpr
    (grantFits_of_short hwrites (inSlots_completing lasting_shortPath before hslots) command)

end Runtime

def numeral (n : Nat) : List UInt8 := Text.encode (Nat.toDigits 10 n)

theorem length_numeral {n digits : Nat} (hdigits : 0 < digits) (hn : n < 10 ^ digits) :
    (numeral n).length ≤ digits := by
  have hascii : ∀ c ∈ Nat.toDigits 10 n, c.toNat < 128 := by
    intro c hc
    have hdigit := Nat.isDigit_of_mem_toDigits (by decide) (by decide) hc
    exact Nat.lt_of_le_of_lt ((Decimal.isDigit_iff_toNat c).mp hdigit).2 (by decide)
  rw [numeral, Text.length_encode, Text.byteLength_of_ascii hascii]
  exact (Nat.length_toDigits_le_iff (by decide) hdigits).mpr hn

def flagText (flag : Bool) : List UInt8 := textBytes (if flag then "true" else "false")

def profileText : Ipc.Profile → List UInt8
  | .none_ => textBytes "none"
  | .gamepad => textBytes "gamepad"
  | .desktop => textBytes "desktop"
  | .both => textBytes "both"
  | .unknown => textBytes "unknown"

/-- The text of the answer to a granted capture. -/
def startedText (id : UInt64) (info : DeviceInfo) : List UInt8 :=
  textBytes "\x7b\"type\":\"response\",\"value\":\x7b\"id\":" ++ (numeral id.toNat ++
    (textBytes ",\"result\":\x7b\"type\":\"capture_started\",\"value\":\x7b\"syspath\":\"" ++
    (Text.encode (JsonText.escape info.syspath.toList) ++
    (textBytes "\",\"profile\":\"" ++ (profileText info.profile ++
    (textBytes "\",\"opened_interfaces\":" ++ (numeral info.openedInterfaces.toNat ++
    (textBytes ",\"pending_interfaces\":" ++ (numeral info.pendingInterfaces.toNat ++
    (textBytes ",\"gamepad_output\":" ++ (flagText info.gamepadOutput ++
    (textBytes ",\"desktop_output\":" ++ (flagText info.desktopOutput ++
    textBytes "\x7d\x7d\x7d\x7d")))))))))))))

theorem length_startedText (id : UInt64) (info : DeviceInfo) :
    (startedText id info).length ≤
      512 + Text.byteLength (JsonText.escape info.syspath.toList) := by
  have hid := @length_numeral id.toNat 20 (by decide)
    (id.toNat_lt.trans_le (by decide))
  have hopened := @length_numeral info.openedInterfaces.toNat 10 (by decide)
    (info.openedInterfaces.toNat_lt.trans_le (by decide))
  have hpending := @length_numeral info.pendingInterfaces.toNat 10 (by decide)
    (info.pendingInterfaces.toNat_lt.trans_le (by decide))
  have hflag : ∀ flag, (flagText flag).length ≤ 5 := by decide
  have hprofile : (profileText info.profile).length ≤ 7 := by
    cases info.profile <;> decide
  have hgamepad := hflag info.gamepadOutput
  have hdesktop := hflag info.desktopOutput
  have hhead : (textBytes "\x7b\"type\":\"response\",\"value\":\x7b\"id\":").length = 33 := by
    decide
  have hresult : (textBytes
      ",\"result\":\x7b\"type\":\"capture_started\",\"value\":\x7b\"syspath\":\"").length = 56 := by
    decide
  have hnames : (textBytes "\",\"profile\":\"").length = 13 ∧
      (textBytes "\",\"opened_interfaces\":").length = 22 ∧
      (textBytes ",\"pending_interfaces\":").length = 22 ∧
      (textBytes ",\"gamepad_output\":").length = 18 ∧
      (textBytes ",\"desktop_output\":").length = 18 ∧
      (textBytes "\x7d\x7d\x7d\x7d").length = 4 := by decide
  simp only [startedText, List.length_append, Text.length_encode, hhead, hresult, hnames]
  grind

def padPath : String := "/sys/devices/virtual/misc/uhid/0005:057E:0306.0001"

/-- The path of a device that the daemon does not have. -/
def awayPath : String := "/sys/devices/virtual/misc/uhid/0005:057E:0330.0002"

/-- The text of a request for a capture. -/
def startText (id : UInt64) (syspath : String) : List UInt8 :=
  textBytes "\x7b\"id\":" ++ (numeral id.toNat ++
    (textBytes ",\"command\":\x7b\"type\":\"start_capture\",\"syspath\":\"" ++
    (Text.encode (JsonText.escape syspath.toList) ++ textBytes "\"\x7d\x7d")))

def awayReply : ServerMessage :=
  .error (some 3) (protocolError .invalidRequest "device is not owned by this daemon")

def awayReplyText : List UInt8 :=
  textBytes "\x7b\"type\":\"error\",\"value\":\x7b\"id\":3,\"error\":\x7b" ++
    textBytes "\"code\":\"invalid_request\"," ++
    textBytes "\"message\":\"device is not owned by this daemon\"\x7d\x7d\x7d"

def startedMessages : Serde ServerMessage :=
  tableSerde [(helloReply, helloReplyText), (awayReply, awayReplyText)] "expected value"

/-- The library on a hello and two starts, on what answers them and on every granted
capture. -/
def startedCodec : Codec where
  requests := tableSerde [(⟨1, .hello 1 1⟩, helloText),
    (⟨2, .startCapture padPath⟩, startText 2 padPath),
    (⟨3, .startCapture awayPath⟩, startText 3 awayPath)] blankComplaint
  messages := { startedMessages with
    toVec message := match message with
      | .response id (.captureStarted info) => .ok (startedText id info)
      | message => startedMessages.toVec message }

theorem writesCaptures_started : Runtime.WritesCaptures startedCodec :=
  fun id info => ⟨_, rfl, length_startedText id info⟩

theorem greets_started : Greets startedCodec where
  decode := (greets_table _ [] blankComplaint "").decode
  encode := by
    have htext : startedMessages.toVec helloReply = .ok helloReplyText := tableSerde_head ..
    refine encodeFrame_eq_ok.mpr ⟨helloReplyText, htext, ?_, rfl⟩
    rw [helloReplyText_length]
    decide

theorem encode_awayReply :
    ∃ bytes, encodeFrame startedCodec.messages awayReply = .ok bytes := by
  have htext : startedMessages.toVec awayReply = .ok awayReplyText := by
    rw [startedMessages, tableSerde_tail (by simp [helloReply, awayReply]), tableSerde_head]
  refine ⟨_, encodeFrame_eq_ok.mpr ⟨awayReplyText, htext, ?_, rfl⟩⟩
  decide

theorem short_start : Short (startText 2 padPath) ∧ Short (startText 3 awayPath) := by
  constructor <;> decide

theorem decode_start : decodeFrame startedCodec.requests (startText 2 padPath) =
    .ok ⟨2, .startCapture padPath⟩ := by
  have hother : helloText ≠ startText 2 padPath := by decide
  rw [decodeFrame_short short_start.1]
  simp [startedCodec, tableSerde, hother]

theorem decode_away : decodeFrame startedCodec.requests (startText 3 awayPath) =
    .ok ⟨3, .startCapture awayPath⟩ := by
  have hother : helloText ≠ startText 3 awayPath ∧ startText 2 padPath ≠ startText 3 awayPath := by
    decide
  rw [decodeFrame_short short_start.2]
  simp [startedCodec, tableSerde, hother.1, hother.2]

/-- A start waits for the reactor. -/
theorem Client.handleFrame_start {codec : Codec} {client : Client} {frame : List UInt8}
    {id : UInt64} {syspath : String}
    (hdecode : decodeFrame codec.requests frame = .ok ⟨id, .startCapture syspath⟩)
    (hnegotiated : client.negotiated = true) (hcapture : client.capture = [])
    (hfew : client.commands.length < frameBudget) (status : Status)
    (devices : List DeviceInfo) :
    client.handleFrame codec status devices frame =
      { client.handling (some id) with
        commands := client.commands ++ [(id, .startCapture syspath)] } := by
  have hlater : (client.handling (some id)).negotiated = true := hnegotiated
  have hallowed : (client.handling (some id)).captureRefused (.startCapture syspath) = false := by
    have hnone : (client.handling (some id)).capture = [] := hcapture
    rw [captureRefused, hnone]
    rfl
  have hroom : ¬frameBudget ≤ (client.handling (some id)).commands.length :=
    Nat.not_le.mpr hfew
  rw [handleFrame, hdecode]
  change (if (client.handling (some id)).negotiated = true then _ else _) = _
  rw [if_pos hlater, handleCommand, defer, hallowed, if_neg Bool.false_ne_true,
    if_neg hroom]
  rfl

/-- A reactor with one device and a server. -/
structure Hosts (device : BridgeSession) (server : IpcServer)
    (runtime : Runtime BridgePlatform BridgeSession) : Prop where
  slots : runtime.slots = (List.replicate maxDevices none).set 0 (some device)
  ipc : runtime.ipc = some server

/-- A path that is not there is opened and gets the first free slot. -/
theorem Runtime.addPath_opened {P D : Type} [DeviceSession D] [RuntimePlatform P D]
    {codec : Codec} {runtime : Runtime P D} {path : PathBuf} {slot : Nat} {device : D}
    {platform : P} (hfind : runtime.find path = none)
    (hslot : runtime.slots.findIdx? Option.isNone = some slot)
    (hopen : RuntimePlatform.openDevice runtime.platform path runtime.config
      (!runtime.dryRun) = (.ok device, platform)) :
    runtime.addPath codec path =
      (.ok true, (did { runtime with platform } (.opened path)).insert codec slot device) := by
  rw [addPath, hfind, if_neg (by decide), hslot]
  simp only [hopen]

section Started

variable {codec : Codec} {device : BridgeSession} {server later : IpcServer}
variable {runtime : Runtime BridgePlatform BridgeSession}

theorem hosts_addPath (path : PathBuf) {syspath : PathBuf}
    (hsyspath : syspath.bytes.length < pathMax) (accepts : List AcceptAnswer) :
    Hosts { device := plainBridge syspath.toStringLossy } (.bind path accepts)
      ((Runtime.start {} false ⟨[]⟩ (some (.bind path accepts))).step codec
        (.addPath syspath)) := by
  have hopen : RuntimePlatform.openDevice (Runtime.start {} false ⟨[]⟩
      (some (.bind path accepts)) : Runtime BridgePlatform BridgeSession).platform syspath {}
        true = (.ok { device := plainBridge syspath.toStringLossy }, BridgePlatform.mk []) :=
    openDevice_plain hsyspath
  have halone : ∀ notification, (IpcServer.bind path accepts).publish codec notification =
      .bind path accepts := by
    intro notification
    rw [IpcServer.publish]
    split <;> rfl
  rw [Runtime.step, Runtime.addPath_opened rfl rfl hopen]
  exact ⟨rfl, congrArg some (halone _)⟩

theorem Hosts.turn {token : UInt64} {revents : Revents} (hhosts : Hosts device server runtime)
    (hready : ∀ status, server.handleReady codec status [DeviceSession.info device] token
      revents = (.ok (), later)) :
    Hosts device later (runtime.step codec (.handleReady token revents)) := by
  have hdevices : deviceSnapshot runtime.slots = [DeviceSession.info device] := by
    rw [hhosts.slots]
    rfl
  refine ⟨?_, ?_⟩
  · rw [Runtime.step, Runtime.handleReady, hhosts.ipc]
    exact hhosts.slots
  · rw [Runtime.step, Runtime.handleReady, hhosts.ipc, hdevices]
    simp only [hready]

theorem Hosts.find (hhosts : Hosts device server runtime) (path : PathBuf) :
    runtime.find path = if (DeviceSession.path device).same path then some 0 else none := by
  have hempty : ∀ count, (List.replicate count (none : Option BridgeSession)).findIdx?
      (fun slot => slot.any fun device => (DeviceSession.path device).same path) = none :=
    fun count => List.findIdx?_eq_none_iff.mpr fun slot hslot =>
      List.eq_of_mem_replicate hslot ▸ rfl
  rw [Runtime.find, hhosts.slots]
  refine (List.findIdx?_cons ..).trans ?_
  rw [Option.any_some]
  split
  · rfl
  · exact congrArg (Option.map (· + 1)) (hempty _)

/-- A connection that asks for two captures. -/
def starting : Client :=
  { ({ (greeted []).handling (some 2) with
      commands := [(2, .startCapture padPath)] } : Client).handling (some 3) with
    commands := [(2, .startCapture padPath), (3, .startCapture awayPath)] }

def startedReads : List ReadAnswer :=
  [.data (startText 2 padPath ++ [newline]), .data (startText 3 awayPath ++ [newline])]

def startedSteps : List (ReactorStep BridgePlatform) :=
  [.addPath (.ofString padPath), .handleReady listenerToken { pollin := true },
    .handleReady 2 { pollin := true }, .handleReady 2 { pollin := true },
    .handleReady 2 { pollin := true }]

def startedServer : IpcServer :=
  .bind (.ofString "/run/wiiland.sock")
    [.accepted (.data (helloText ++ [newline]) :: startedReads) [] true]

def startedRuntime : Runtime BridgePlatform BridgeSession :=
  (Runtime.start {} false ⟨[]⟩ (some startedServer)).run startedCodec startedSteps

theorem startedRuntime_hosts :
    Hosts { device := plainBridge padPath }
      (serving (.ofString "/run/wiiland.sock") starting) startedRuntime := by
  have hpath : (PathBuf.ofString padPath).toStringLossy = padPath := by
    rw [PathBuf.toStringLossy, PathBuf.ofString, LossyText.decode_encode, String.ofList_toList]
  have hadded := @hosts_addPath startedCodec (.ofString "/run/wiiland.sock")
    (.ofString padPath) (by decide)
    [.accepted (.data (helloText ++ [newline]) :: startedReads) [] true]
  rw [hpath] at hadded
  have haccepted := @Hosts.turn startedCodec _ _ _ _ _ _ hadded
    fun status => IpcServer.handleReady_accept _ _ _
  have hhello := @Hosts.turn startedCodec _ _ _ _ _ _ haccepted
    fun status => IpcServer.handleReady_only (by decide) rfl
      (serve_hello greets_started _ _ _)
  have hstart := @Hosts.turn startedCodec _ _ _ _ _ _ hhello
    fun status => IpcServer.handleReady_only (by decide) rfl
      (Client.serve_line ⟨rfl, rfl, rfl, rfl, rfl⟩ short_start.1
        (Client.handleFrame_start decode_start rfl rfl (by decide) _ _) rfl)
  exact hstart.turn fun status => IpcServer.handleReady_only (by decide) rfl
    (Client.serve_line ⟨rfl, rfl, rfl, rfl, rfl⟩ short_start.2
      (Client.handleFrame_start decode_away rfl rfl (by decide) _ _) rfl)

variable {path : PathBuf} {client : Client}

/-- The capture of the device is granted. -/
theorem Hosts.granted (hhosts : Hosts { device := plainBridge padPath } (serving path client)
      runtime) (hcapture : client.capture = []) :
    ∃ device later, DeviceSession.path device = .ofString padPath ∧
      later.capture = [padPath] ∧ Hosts device (serving path later)
        (runtime.completeCommand startedCodec (2, 2, .startCapture padPath)) := by
  obtain ⟨hset, hinfo⟩ := setCapture_plain padPath
  have hfind : runtime.find (.ofString padPath) = some 0 := by
    rw [hhosts.find]
    exact if_pos (decide_eq_true rfl)
  have hdevice : runtime.device 0 = some { device := plainBridge padPath } := by
    rw [Runtime.device, hhosts.slots]
    rfl
  have hcontrol : runtime.controlCommand (.startCapture padPath) =
      (.ok (.captureStarted ⟨padPath, .gamepad, 32519, 0, true, false⟩),
        { runtime with slots := runtime.slots.set 0 (some (DeviceSession.setCapture
          (BridgeSession.mk (plainBridge padPath) [] [] []) true).2) }) := by
    rw [Runtime.controlCommand, hfind, Option.bind_some, hdevice, Option.map_some]
    simp only [hset, hinfo]
  refine ⟨(DeviceSession.setCapture (BridgeSession.mk (plainBridge padPath) [] [] []) true).2,
    client.complete startedCodec 2
      (.ok (.captureStarted ⟨padPath, .gamepad, 32519, 0, true, false⟩)), ?_, ?_, ?_, ?_⟩
  · rw [LawfulSession.path_setCapture]
    rfl
  · rw [Client.complete_granted (hcapture ▸ List.not_mem_nil) (hcapture ▸ by decide),
      Client.capture_queueResponse, hcapture]
    rfl
  · rw [Runtime.completeCommand]
    simp only [hcontrol, hhosts.slots]
    rfl
  · rw [Runtime.completeCommand]
    simp only [hcontrol, hhosts.ipc]
    rfl

/-- The capture of a device that is not in a slot is refused. -/
theorem Hosts.refuses (hhosts : Hosts device (serving path client) runtime)
    (hpath : DeviceSession.path device = .ofString padPath) :
    runtime.Refuses startedCodec (2, 3, .startCapture awayPath) := by
  have hfind : runtime.find (.ofString awayPath) = none := by
    rw [hhosts.find, hpath]
    exact if_neg (by decide)
  have hcontrol : (runtime.controlCommand (.startCapture awayPath)).1 =
      .error (protocolError .invalidRequest "device is not owned by this daemon") := by
    rw [Runtime.controlCommand, hfind]
    rfl
  obtain ⟨bytes, hencode⟩ := encode_awayReply
  refine ⟨_, client, hhosts.ipc, List.mem_singleton.mpr rfl, ?_⟩
  refine ⟨protocolError .invalidRequest "device is not owned by this daemon", bytes, ?_⟩
  rw [hcontrol, Client.complete, Client.queue]
  rw [awayReply] at hencode
  simp only [hencode, Client.history_send]

theorem taken_started : startedRuntime.takeCommands =
    ([(2, 2, .startCapture padPath), (2, 3, .startCapture awayPath)],
      { startedRuntime with ipc := some (serving (.ofString "/run/wiiland.sock")
        starting.takeCommands.2) }) := by
  rw [Runtime.takeCommands, startedRuntime_hosts.ipc]
  rfl

/-- The reactor after the first of the two captures. -/
def grantedRuntime : Runtime BridgePlatform BridgeSession :=
  startedRuntime.takeCommands.2.completeCommand startedCodec (2, 2, .startCapture padPath)

theorem grantedRuntime_hosts : ∃ device later,
    DeviceSession.path device = .ofString padPath ∧ later.capture = [padPath] ∧
      Hosts device (serving (.ofString "/run/wiiland.sock") later) grantedRuntime := by
  have hhosts : Hosts { device := plainBridge padPath }
      (serving (.ofString "/run/wiiland.sock") starting.takeCommands.2)
      startedRuntime.takeCommands.2 := by
    rw [taken_started]
    exact ⟨startedRuntime_hosts.slots, rfl⟩
  exact hhosts.granted rfl

/-- A run in which a capture is granted and the next one, of another device, is refused. -/
theorem leases_started :
    startedRuntime.LeasesExact startedCodec ∧ grantedRuntime.leases = [(2, [padPath])] ∧
      grantedRuntime.Refuses startedCodec (2, 3, .startCapture awayPath) ∧
      grantedRuntime.SparesLeases startedCodec (2, 3, .startCapture awayPath) := by
  have hleases := Runtime.run_leases writesCaptures_started {} false (BridgePlatform.mk [])
    (.ofString "/run/wiiland.sock")
    [.accepted (.data (helloText ++ [newline]) :: startedReads) [] true] startedSteps
  obtain ⟨device, later, hpath, hcapture, hhosts⟩ := grantedRuntime_hosts
  refine ⟨hleases.1, ?_, hhosts.refuses hpath, ?_⟩
  · rw [Runtime.leases, hhosts.ipc, ← hcapture]
    rfl
  · have hspared := hleases.2 [(2, 2, .startCapture padPath)] (2, 3, .startCapture awayPath) []
      awayPath (congrArg Prod.fst taken_started) rfl
    rw [List.foldl_cons, List.foldl_nil] at hspared
    exact hspared

end Started

end Daemon

end Wiiland
