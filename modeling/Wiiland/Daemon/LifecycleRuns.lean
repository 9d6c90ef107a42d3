/-
The reactor makes the moves of the life cycle machine, so the notifications it publishes
tell the life cycle of its devices.
-/
import Wiiland.Daemon.Lifecycle

namespace Wiiland

namespace Daemon

open Hid Ipc
open Turns (Alternates Here)

namespace Runtime

open View (Move Moves Tracked)

variable {P D : Type}

theorem slots_of_device {runtime : Runtime P D} {slot : Nat} {device : D}
    (hdevice : runtime.device slot = some device) :
    runtime.slots[slot]? = some (some device) := by
  rw [Runtime.device, Option.join_eq_some_iff] at hdevice
  exact hdevice

theorem device_set {runtime : Runtime P D} {slot : Nat} {device : D}
    (hdevice : runtime.device slot = some device) (later : D) :
    Runtime.device { runtime with slots := runtime.slots.set slot (some later) } slot =
      some later := by
  have hlt := (List.getElem?_eq_some_iff.mp (slots_of_device hdevice)).1
  rw [Runtime.device, List.getElem?_set_self hlt]
  rfl

theorem collect_cons {codec : Codec} (runtime : Runtime P D) (path : PathBuf) (event : Event)
    (events : List Event) :
    runtime.collect codec path (event :: events) =
      let number := nextSequence runtime.notificationSequence
      (publish codec { runtime with notificationSequence := number } path
        (.input number path.toStringLossy (timestamp event)
          (inputPayload event.kind))).collect codec path events := rfl

theorem slots_collect {codec : Codec} (runtime : Runtime P D) (path : PathBuf)
    (events : List Event) : (runtime.collect codec path events).slots = runtime.slots := by
  induction events generalizing runtime with
  | nil => rfl
  | cons event events ih =>
      rw [collect_cons]
      exact ih _

section Seen

variable [DeviceSession D]

def view (runtime : Runtime P D) : View where
  paths := runtime.slots.map (Option.map DeviceSession.path)
  sequence := runtime.notificationSequence
  deeds := runtime.deeds

variable {runtime : Runtime P D}

theorem view_paths (slot : Nat) :
    runtime.view.paths[slot]? = runtime.slots[slot]?.map (Option.map DeviceSession.path) :=
  List.getElem?_map ..

theorem paths_of_device {slot : Nat} {device : D} (hdevice : runtime.device slot = some device) :
    runtime.view.paths[slot]? = some (some (DeviceSession.path device)) := by
  rw [view_paths, slots_of_device hdevice]
  rfl

theorem view_set (runtime : Runtime P D) (slot : Nat) (device : Option D) :
    view { runtime with slots := runtime.slots.set slot device } =
      { runtime.view with
        paths := runtime.view.paths.set slot (device.map DeviceSession.path) } := by
  rw [view, List.map_set]
  rfl

/-- A session that changes and keeps its path is not seen. -/
theorem view_update {slot : Nat} {device later : D} (hdevice : runtime.device slot = some device)
    (hpath : DeviceSession.path later = DeviceSession.path device) :
    view { runtime with slots := runtime.slots.set slot (some later) } = runtime.view := by
  have hset : runtime.view.paths.set slot (some (DeviceSession.path later)) =
      runtime.view.paths := by
    apply List.ext_getElem?
    intro other
    rw [List.getElem?_set]
    split
    · next heq =>
      subst heq
      have hslot := paths_of_device hdevice
      rw [if_pos (List.getElem?_eq_some_iff.mp hslot).1, hslot, hpath]
    · rfl
  rw [view_set]
  exact congrArg (fun paths => View.mk paths runtime.view.sequence runtime.view.deeds) hset

theorem find_eq_none {path : PathBuf} :
    runtime.find path = none ↔ ¬runtime.view.Active path.components := by
  rw [find, List.findIdx?_eq_none_iff, View.Active]
  constructor
  · rintro hnone ⟨other, hmem, hsame⟩
    obtain ⟨slot, hslot, hpath⟩ := List.mem_map.mp hmem
    obtain ⟨device, rfl, rfl⟩ := Option.map_eq_some_iff.mp hpath
    have hfalse := hnone _ hslot
    rw [Option.any_some, PathBuf.same_iff.mpr hsame] at hfalse
    cases hfalse
  · intro hnone slot hslot
    cases slot with
    | none => rfl
    | some device =>
        rw [Option.any_some, Bool.eq_false_iff]
        intro hsame
        exact hnone ⟨_, List.mem_map.mpr ⟨_, hslot, rfl⟩, PathBuf.same_iff.mp hsame⟩

variable {codec : Codec}

theorem moves_dropSlot {slot : Nat} {path : PathBuf} (reason : RemovalReason)
    (hpath : ∀ device, runtime.device slot = some device → DeviceSession.path device = path) :
    Moves runtime.view (runtime.dropSlot codec slot path reason).view := by
  rw [dropSlot]
  cases hdevice : runtime.device slot with
  | none => exact .refl
  | some device =>
      have hslot := paths_of_device hdevice
      rw [hpath device hdevice] at hslot
      change Moves _ (View.publish (view { runtime with slots := runtime.slots.set slot none })
        path fun number => .deviceRemoved number path.toStringLossy reason)
      rw [view_set]
      exact .single (.depart slot path reason hslot)

theorem moves_insert [LawfulSession D] {slot : Nat} {device : D}
    (hfree : runtime.slots[slot]? = some none)
    (hnew : ¬runtime.view.Active (DeviceSession.path device).components) :
    Moves runtime.view (runtime.insert codec slot device).view := by
  have hslot : runtime.view.paths[slot]? = some none := by
    rw [view_paths, hfree]
    rfl
  change Moves _ (View.publish
    (view { runtime with slots := runtime.slots.set slot (some device) }) _
    fun number => .deviceAdded number _)
  rw [view_set]
  exact .single (.arrive slot _ _ hslot hnew (LawfulSession.info_syspath device))

theorem moves_dropMissing (slot : Nat) :
    Moves runtime.view (runtime.dropMissing codec slot).view := by
  rw [dropMissing]
  cases hdevice : runtime.device slot with
  | none => exact .refl
  | some device =>
      refine moves_dropSlot .removed fun other hother => ?_
      rw [hdevice] at hother
      rw [Option.some.inj hother]

theorem moves_foldl {A : Type} {change : Runtime P D → A → Runtime P D} (items : List A)
    (hchange : ∀ (runtime : Runtime P D) item, Moves runtime.view (change runtime item).view) :
    Moves runtime.view (items.foldl change runtime).view := by
  induction items generalizing runtime with
  | nil => exact .refl
  | cons item items ih =>
      rw [List.foldl_cons]
      exact (hchange runtime item).trans ih

theorem moves_collect {path : PathBuf} (hactive : some path ∈ runtime.view.paths)
    (events : List Event) : Moves runtime.view (runtime.collect codec path events).view := by
  induction events generalizing runtime with
  | nil => exact .refl
  | cons event events ih =>
      rw [collect_cons]
      refine Relation.ReflTransGen.head (.input path (timestamp event)
        (inputPayload event.kind) hactive) ?_
      exact @ih (publish codec { runtime with
        notificationSequence := nextSequence runtime.notificationSequence } path _) hactive

theorem view_takeCommands : runtime.takeCommands.2.view = runtime.view := by
  rw [takeCommands]
  split <;> rfl

theorem view_syncCaptures [LawfulSession D] : runtime.syncCaptures.view = runtime.view := by
  have hslots : runtime.syncCaptures.slots.map (Option.map DeviceSession.path) =
      runtime.slots.map (Option.map DeviceSession.path) := by
    rw [syncCaptures, List.map_map]
    refine List.map_congr_left fun slot _ => ?_
    cases slot with
    | none => rfl
    | some device => exact congrArg some (LawfulSession.path_setCapture device _)
  exact congrArg (fun paths => View.mk paths runtime.notificationSequence runtime.deeds) hslots

theorem tracked_start (config : Config) (dryRun : Bool) (platform : P)
    (ipc : Option IpcServer) :
    Tracked (start config dryRun platform ipc : Runtime P D).view := by
  have hnone : ∀ (slot : Nat) (path : PathBuf),
      (start config dryRun platform ipc : Runtime P D).view.paths[slot]? ≠
        some (some path) := by
    intro slot path hslot
    rw [view_paths, start, List.getElem?_replicate] at hslot
    split at hslot <;> cases hslot
  refine ⟨fun _ => Turns.alternates_nil, fun key => iff_of_false Turns.not_here_nil ?_, ?_, ?_,
    ?_, rfl, rfl⟩
  · rw [View.active_iff]
    exact fun ⟨slot, path, hslot, _⟩ => hnone slot path hslot
  · exact fun i j path other hi => absurd hi (hnone i path)
  · intro before path notification after hsplit
    exact absurd hsplit (by simp [view, start])
  · exact fun _ _ hmem => absurd hmem List.not_mem_nil

theorem moves_drainSession [LawfulSession D] {slot : Nat} {device : D}
    (hdevice : runtime.device slot = some device) :
    Moves runtime.view (runtime.drainSession codec slot device).2.view ∧
      ∀ later, (runtime.drainSession codec slot device).2.device slot = some later →
        DeviceSession.path later = DeviceSession.path device := by
  have hpath := LawfulSession.path_drain device
  have hview := view_update hdevice hpath
  have hset := device_set hdevice (DeviceSession.drain device).2
  have hkept : ∀ after : Runtime P D,
      after.slots = runtime.slots.set slot (some (DeviceSession.drain device).2) →
        ∀ later, after.device slot = some later →
          DeviceSession.path later = DeviceSession.path device := by
    intro after hslots later hlater
    rw [Runtime.device, hslots] at hlater
    rw [← hpath, ← Option.some.inj (hset.symm.trans hlater)]
  have hactive : some (DeviceSession.path device) ∈ runtime.view.paths :=
    List.mem_of_getElem? (paths_of_device hdevice)
  rw [drainSession]
  by_cases hlistens : runtime.ipc.any IpcServer.hasInputSubscribers = true
  · simp only [if_pos hlistens]
    refine ⟨?_, hkept _ (slots_collect _ _ _)⟩
    rw [← hview] at hactive ⊢
    exact moves_collect hactive _
  · simp only [if_neg hlistens]
    refine ⟨?_, hkept _ rfl⟩
    rw [hview]

theorem moves_drainDevice [LawfulSession D] (single : Bool) (slot : Nat) :
    Moves runtime.view (runtime.drainDevice codec single slot).2.view := by
  rw [drainDevice]
  cases hdevice : runtime.device slot with
  | none => exact .refl
  | some device =>
      obtain ⟨hmoves, hpath⟩ := @moves_drainSession P D _ runtime codec _ slot device hdevice
      simp only
      split
      · next after hdrain =>
        rw [hdrain] at hmoves
        exact hmoves
      · next after hdrain =>
        rw [hdrain] at hmoves hpath
        exact hmoves.trans (moves_dropSlot .gone hpath)
      · next code after hdrain =>
        rw [hdrain] at hmoves hpath
        exact hmoves.trans (moves_dropSlot .drainError hpath)

theorem moves_tickSlot [LawfulSession D] (single : Bool) (slot : Nat) :
    Moves runtime.view (runtime.tickSlot codec single slot).2.view := by
  rw [tickSlot]
  cases hdevice : runtime.device slot with
  | none => exact .refl
  | some device =>
      have hview := view_update hdevice (LawfulSession.path_tickPointer device)
      have hset := device_set hdevice (DeviceSession.tickPointer device).2
      simp only
      split
      · split
        · rw [hview]
        · rw [← hview]
          refine moves_dropSlot .pointerError fun later hlater => ?_
          rw [← Option.some.inj (hset.symm.trans hlater)]
      · exact .refl

end Seen

variable [DeviceSession D] [RuntimePlatform P D] {codec : Codec} {runtime : Runtime P D}

theorem moves_addPath [LawfulSession D] [OpensPath P] (path : PathBuf) :
    Moves runtime.view (runtime.addPath codec path).2.view := by
  rw [addPath]
  split
  · exact .refl
  · next hfind =>
    rw [Bool.not_eq_true, Option.isSome_eq_false_iff, Option.isNone_iff_eq_none] at hfind
    split
    · exact .refl
    · next slot hslot =>
      have hopened : ∀ platform, Moves runtime.view
          (did { runtime with platform } (.opened path)).view := fun platform =>
        .single (@Move.note runtime.view (.opened path) fun _ _ h => by cases h)
      split
      · exact hopened _
      · next device platform hopen =>
        have hpath : DeviceSession.path device = path :=
          OpensPath.path_openDevice _ _ _ _ _ _ hopen
        refine (hopened platform).trans (moves_insert ?_ ?_)
        · obtain ⟨hlt, hnone, _⟩ := List.findIdx?_eq_some_iff_getElem.mp hslot
          exact List.getElem?_eq_some_iff.mpr ⟨hlt, Option.isNone_iff_eq_none.mp hnone⟩
        · rw [hpath]
          exact find_eq_none.mp hfind

theorem moves_setUp [LawfulSession D] [OpensPath P] (budget : Nat) :
    Moves runtime.view (setUp codec budget runtime).view := by
  induction budget generalizing runtime with
  | zero => exact .refl
  | succ budget ih =>
      rw [setUp]
      split
      · exact .refl
      · next path rest _ =>
        have hadd := @moves_addPath P D _ _ codec
          { runtime with pendingAdditions := rest } _ _ path
        exact hadd.trans ih

theorem moves_requestReconcile : Moves runtime.view runtime.requestReconcile.view := by
  rw [requestReconcile]
  split
  · exact .refl
  · split
    · exact .single (@Move.note runtime.view .requested fun _ _ h => by cases h)
    · exact .single (@Move.note runtime.view .requestFailed fun _ _ h => by cases h)

theorem moves_takeSnapshot : Moves runtime.view (runtime.takeSnapshot codec).view := by
  rw [takeSnapshot]
  split
  · split
    · exact .refl
    · next snapshot platform _ =>
      have htook : Moves runtime.view
          (did { runtime with platform, snapshotPending := false } (.took snapshot)).view :=
        .single (@Move.note runtime.view (.took snapshot) fun _ _ h => by cases h)
      simp only
      split
      · next paths _ =>
        refine htook.trans ?_
        change Moves _ (List.foldl (dropMissing codec) _ _).view
        exact moves_foldl _ fun runtime slot => moves_dropMissing slot
      · exact htook
  · exact .refl

theorem moves_serviceDiscovery [LawfulSession D] [OpensPath P] :
    Moves runtime.view (runtime.serviceDiscovery codec).view := by
  have htaken := @moves_takeSnapshot P D _ _ codec runtime
  have hsetUp := @moves_setUp P D _ _ codec (runtime.takeSnapshot codec) _ _ deviceSetupBudget
  rw [serviceDiscovery]
  refine htaken.trans (hsetUp.trans ?_)
  generalize setUp codec deviceSetupBudget (runtime.takeSnapshot codec) = ready
  rw [retryReconcile]
  split
  · exact @moves_requestReconcile P D _ _ { ready with reconcileAgain := false }
  · exact .refl

theorem view_controlCommand [LawfulSession D] (command : Command) :
    (runtime.controlCommand command).2.view = runtime.view := by
  cases command with
  | startCapture syspath =>
      rw [controlCommand]
      split
      · rfl
      · next slot device hfound =>
        obtain ⟨found, _, hmap⟩ := Option.bind_eq_some_iff.mp hfound
        obtain ⟨other, hdevice, hpair⟩ := Option.map_eq_some_iff.mp hmap
        obtain ⟨rfl, rfl⟩ := Prod.mk.inj hpair
        have hview := view_update hdevice (LawfulSession.path_setCapture other true)
        simp only
        split <;> exact hview
  | _ => rfl

theorem view_completeCommand [LawfulSession D] (command : UInt64 × UInt64 × Command) :
    (runtime.completeCommand codec command).view = runtime.view :=
  view_controlCommand command.2.2

theorem view_serviceCommands [LawfulSession D] :
    (runtime.serviceCommands codec).view = runtime.view := by
  have hfold : ∀ (commands : List (UInt64 × UInt64 × Command)) (runtime : Runtime P D),
      (commands.foldl (completeCommand codec) runtime).view = runtime.view := by
    intro commands
    induction commands with
    | nil => exact fun _ => rfl
    | cons command commands ih =>
        exact fun runtime => (ih _).trans (view_completeCommand command)
  rw [serviceCommands]
  exact view_syncCaptures.trans ((hfold _ _).trans view_takeCommands)

theorem view_handleReady (token : UInt64) (revents : Revents) :
    (runtime.handleReady codec token revents).2.view = runtime.view := by
  rw [handleReady]
  split <;> rfl

/-- Every step of the reactor is a sequence of moves of the machine. -/
theorem moves_step [LawfulSession D] [OpensPath P] (step : ReactorStep P) :
    Moves runtime.view (runtime.step codec step).view := by
  cases step with
  | addPath path => exact moves_addPath path
  | requestReconcile => exact moves_requestReconcile
  | serviceDiscovery => exact moves_serviceDiscovery
  | drainDevice single slot => exact moves_drainDevice single slot
  | tickSlot single slot => exact moves_tickSlot single slot
  | handleReady token revents =>
      rw [Runtime.step, view_handleReady]
  | serviceCommands =>
      rw [Runtime.step, view_serviceCommands]
  | rehash before => exact .refl
  | elapse platform now pending metrics => exact .refl

theorem moves_run [LawfulSession D] [OpensPath P] (steps : List (ReactorStep P)) :
    Moves runtime.view (runtime.run codec steps).view :=
  moves_foldl steps fun _ step => moves_step step

end Runtime

/-- What the published notifications promise: for each path they tell comings and goings
in turn, a device is in a slot exactly while the last of them was a coming, inputs come
in between, and the numbers rise. -/
structure Reported (view : View) : Prop where
  alternates : ∀ key, Alternates (turns key view.deeds)
  active : ∀ key, Here (turns key view.deeds) ↔ view.Active key
  distinct : ∀ (i j : Nat) (path other : PathBuf), view.paths[i]? = some (some path) →
    view.paths[j]? = some (some other) → path.components = other.components → i = j
  inputs : ∀ before path notification after,
    view.deeds = before ++ .published path notification :: after →
      notification.isInput = true → Here (turns path.components before)
  named : ∀ path notification, .published path notification ∈ view.deeds →
    notification.syspath = some path.toStringLossy
  nonzero : 0 ∉ sequences view.deeds
  increasing : ∀ (i j : Nat) (first second : UInt64), i < j → j < 0xffffffffffffffff →
    (sequences view.deeds)[i]? = some first → (sequences view.deeds)[j]? = some second →
      first < second

theorem View.Tracked.reported {view : View} (htracked : view.Tracked) : Reported view := by
  have hnumber : ∀ (i : Nat) (number : UInt64), (sequences view.deeds)[i]? = some number →
      number.toNat = i % 0xffffffffffffffff + 1 := by
    intro i number hnumber
    rw [htracked.numbered, List.getElem?_map] at hnumber
    obtain ⟨n, hn, rfl⟩ := Option.map_eq_some_iff.mp hnumber
    obtain ⟨_, rfl⟩ := List.getElem?_eq_some_iff.mp hn
    rw [List.getElem_range]
    exact sequenceAt_toNat i
  refine ⟨htracked.alternates, htracked.here, htracked.distinct, htracked.inputs,
    htracked.named, fun hzero => ?_, fun i j first second hij hj hfirst hsecond => ?_⟩
  · obtain ⟨i, hi⟩ := List.mem_iff_getElem?.mp hzero
    have hpos := hnumber i 0 hi
    rw [UInt64.toNat_zero] at hpos
    omega
  · have hone := hnumber i first hfirst
    have htwo := hnumber j second hsecond
    rw [UInt64.lt_iff_toNat_lt, hone, htwo, Nat.mod_eq_of_lt (by omega),
      Nat.mod_eq_of_lt (by omega)]
    omega

/-- Over any order of discovery, readiness, drains, ticks and commands, the published
notifications tell the life cycle of every device. -/
theorem Runtime.reported_run {P D : Type} [DeviceSession D] [RuntimePlatform P D]
    [LawfulSession D] [OpensPath P] (codec : Codec) (config : Config) (dryRun : Bool)
    (platform : P) (ipc : Option IpcServer) (steps : List (ReactorStep P)) :
    Reported ((start config dryRun platform ipc : Runtime P D).run codec steps).view :=
  ((tracked_start config dryRun platform ipc).moves (moves_run steps)).reported

/-- A session that answers its drains from a list and then goes on. -/
structure FakeDevice where
  path : PathBuf
  drains : List (Except Int BridgeAction × List Event) := []

instance : DeviceSession FakeDevice where
  path := FakeDevice.path
  info device := ⟨device.path.toStringLossy, .desktop, 1, 0, false, true⟩
  drain device :=
    match device.drains with
    | [] => ((.ok .continue_, []), device)
    | drained :: drains => (drained, { device with drains })
  setCapture device _ := (.ok (), device)
  pointerActive _ := true
  tickPointer device := (.ok (), device)

instance : LawfulSession FakeDevice where
  path_drain device := by
    rcases device with ⟨path, _ | ⟨drained, drains⟩⟩ <;> rfl
  path_setCapture _ _ := rfl
  path_tickPointer _ := rfl
  info_syspath _ := rfl

/-- A platform that opens every path and answers its snapshots from a list. -/
structure FakePlatform where
  snapshots : List Snapshot := []
  drains : List (Except Int BridgeAction × List Event) := []

instance : RuntimePlatform FakePlatform FakeDevice where
  openDevice platform path _ _ := (.ok { path, drains := platform.drains }, platform)
  startMonitor platform := (.ok (), platform)
  monitorFd _ := true
  drainMonitor platform _ := (.ok false, platform)
  requestSnapshot platform := (.ok (), platform)
  takeSnapshot platform :=
    (platform.snapshots.head?, { platform with snapshots := platform.snapshots.drop 1 })
  shutdownRequested platform := (false, platform)
  drainSignal platform := platform
  now platform := (0, platform)
  poll platform _ _ := (.interrupted, platform)
  processId _ := 1
  traceDropped _ := 0
  lifecycleDropped _ := 0

instance : OpensPath FakePlatform where
  path_openDevice := by
    rintro platform later path config outputs device hopen
    cases hopen
    rfl

/-- A codec that writes everything as an empty text. -/
def fakeCodec : Codec where
  requests := ⟨fun _ => .ok [], fun _ => .error ""⟩
  messages := ⟨fun _ => .ok [], fun _ => .error ""⟩

def shownPath : PathBuf := .ofString "/wii"

/-- A connection that has subscribed to everything. -/
def listening : Client where
  stream := {}
  negotiated := true
  input := true
  devices := true

/-- A device that a snapshot shows reports a key, and is gone when it is drained again. -/
def pressThenGone : Runtime FakePlatform FakeDevice :=
  (Runtime.start {} false
    { snapshots := [⟨1, .ok [shownPath]⟩]
      drains := [(.ok .continue_, [⟨⟨5, 0⟩, .key ⟨.a, .pressed⟩⟩]), (.ok .gone, [])] }
    (some { path := .ofString "/run/wiiland.sock", clients := [(2, listening)]
            nextToken := 3 })).run fakeCodec
      [.requestReconcile, .serviceDiscovery, .drainDevice false 0, .drainDevice false 0]

/-- The messages that were meant for the connections. -/
def meantFor (server : IpcServer) : List ServerMessage :=
  server.clients.flatMap fun entry => entry.2.history.map Prod.fst

/-- The connection hears of the coming, the key and the going. -/
theorem reported_gone :
    sequences pressThenGone.view.deeds = [1, 2, 3] ∧
      pressThenGone.ipc.map meantFor = some
        [.notification (.deviceAdded 1 ⟨shownPath.toStringLossy, .desktop, 1, 0, false, true⟩),
          .notification (.input 2 shownPath.toStringLossy ⟨5, 0⟩ (.key ⟨4, 1⟩)),
          .notification (.deviceRemoved 3 shownPath.toStringLossy .gone)] ∧
      Reported pressThenGone.view :=
  ⟨rfl, rfl, Runtime.reported_run ..⟩

end Daemon

end Wiiland
