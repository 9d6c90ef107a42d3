/-
Discovery.  Snapshots are asked for one at a time, additions are spread over the
iterations, and requests that come in between are put off and made up for.
-/
import Wiiland.Daemon.LifecycleRuns

namespace Wiiland

namespace Daemon

open Hid Ipc
open Turns (Here)

namespace Deed

/-- A device leaves by itself, or reports. -/
def isLeaving : Deed → Bool
  | .published _ (.input ..) => true
  | .published _ (.deviceRemoved _ _ reason) => reason != .removed
  | _ => false

/-- A device that is missing from a snapshot is dropped. -/
def isDrop : Deed → Bool
  | .published _ (.deviceRemoved _ _ reason) => reason == .removed
  | _ => false

/-- A device is opened, and added if that succeeds. -/
def isSetUp : Deed → Bool
  | .opened _ => true
  | .published _ (.deviceAdded ..) => true
  | _ => false

def isOpened : Deed → Bool
  | .opened _ => true
  | _ => false

def isRequested : Deed → Bool
  | .requested => true
  | _ => false

/-- A snapshot was requested, or could not be. -/
def isAttempt : Deed → Bool
  | .requested => true
  | .requestFailed => true
  | _ => false

end Deed

namespace Runtime

variable {P D : Type}

/-- The state of discovery. -/
def discovery (runtime : Runtime P D) : Bool × Bool × List PathBuf :=
  (runtime.snapshotPending, runtime.reconcileAgain, runtime.pendingAdditions)

/-- The deeds grow by allowed ones. -/
def Grows (allowed : Deed → Bool) (runtime later : Runtime P D) : Prop :=
  ∃ new, later.deeds = runtime.deeds ++ new ∧ ∀ deed ∈ new, allowed deed = true

theorem Grows.same {allowed : Deed → Bool} {runtime later : Runtime P D}
    (hsame : later.deeds = runtime.deeds) : Grows allowed runtime later :=
  ⟨[], by rw [hsame, List.append_nil], fun _ hmem => absurd hmem List.not_mem_nil⟩

theorem Grows.one {allowed : Deed → Bool} {runtime later : Runtime P D} {deed : Deed}
    (hdeeds : later.deeds = runtime.deeds ++ [deed]) (hallowed : allowed deed = true) :
    Grows allowed runtime later :=
  ⟨[deed], hdeeds, fun _ hmem => List.mem_singleton.mp hmem ▸ hallowed⟩

theorem Grows.trans {allowed : Deed → Bool} {first second third : Runtime P D}
    (hfirst : Grows allowed first second) (hsecond : Grows allowed second third) :
    Grows allowed first third := by
  obtain ⟨new, hnew, hallowed⟩ := hfirst
  obtain ⟨more, hmore, hother⟩ := hsecond
  refine ⟨new ++ more, by rw [hmore, hnew, List.append_assoc], fun deed hmem => ?_⟩
  rcases List.mem_append.mp hmem with hmem | hmem
  · exact hallowed deed hmem
  · exact hother deed hmem

section Leaves

variable [DeviceSession D]

/-- Steps outside discovery: devices report or leave by themselves. -/
structure Leaves (runtime later : Runtime P D) : Prop where
  discovery : later.discovery = runtime.discovery
  active : ∀ key, later.view.Active key → runtime.view.Active key
  deeds : Grows Deed.isLeaving runtime later

theorem Leaves.trans {first second third : Runtime P D} (hfirst : Leaves first second)
    (hsecond : Leaves second third) : Leaves first third :=
  ⟨hsecond.discovery.trans hfirst.discovery,
    fun key hactive => hfirst.active key (hsecond.active key hactive),
    hfirst.deeds.trans hsecond.deeds⟩

/-- A step that is not seen and does not touch discovery. -/
theorem Leaves.unseen {runtime later : Runtime P D}
    (hdiscovery : later.discovery = runtime.discovery) (hview : later.view = runtime.view) :
    Leaves runtime later := by
  refine ⟨hdiscovery, fun key hactive => hview ▸ hactive, .same ?_⟩
  exact congrArg View.deeds hview

variable {runtime : Runtime P D} {codec : Codec}

theorem active_clear {slot : Nat} {key : UnixPath.Path}
    (hactive : (view { runtime with slots := runtime.slots.set slot none }).Active key) :
    runtime.view.Active key := by
  rw [View.active_iff] at hactive ⊢
  obtain ⟨other, path, hother, hkey⟩ := hactive
  refine ⟨other, path, ?_, hkey⟩
  rw [view_set, List.getElem?_set] at hother
  split at hother
  · split at hother <;> cases hother
  · exact hother

theorem leaves_dropSlot (slot : Nat) (path : PathBuf) {reason : RemovalReason}
    (hreason : reason ≠ .removed) :
    Leaves runtime (runtime.dropSlot codec slot path reason) := by
  rw [dropSlot]
  split
  · refine ⟨rfl, fun key hactive => active_clear hactive, .one rfl ?_⟩
    exact bne_iff_ne.mpr hreason
  · exact .unseen rfl rfl

theorem leaves_collect (path : PathBuf) (events : List Event) :
    Leaves runtime (runtime.collect codec path events) := by
  induction events generalizing runtime with
  | nil => exact .unseen rfl rfl
  | cons event events ih =>
      rw [collect_cons]
      refine Leaves.trans ?_ ih
      exact ⟨rfl, fun key hactive => hactive, .one rfl rfl⟩

theorem leaves_update {slot : Nat} {device later : D}
    (hdevice : runtime.device slot = some device)
    (hpath : DeviceSession.path later = DeviceSession.path device) :
    Leaves runtime { runtime with slots := runtime.slots.set slot (some later) } :=
  .unseen rfl (view_update hdevice hpath)

theorem leaves_drainSession [LawfulSession D] {slot : Nat} {device : D}
    (hdevice : runtime.device slot = some device) :
    Leaves runtime (runtime.drainSession codec slot device).2 := by
  have hupdate := leaves_update hdevice (LawfulSession.path_drain device)
  rw [drainSession]
  by_cases hlistens : runtime.ipc.any IpcServer.hasInputSubscribers = true
  · simp only [if_pos hlistens]
    exact hupdate.trans (leaves_collect _ _)
  · simp only [if_neg hlistens]
    exact hupdate

theorem leaves_drainDevice [LawfulSession D] (single : Bool) (slot : Nat) :
    Leaves runtime (runtime.drainDevice codec single slot).2 := by
  rw [drainDevice]
  cases hdevice : runtime.device slot with
  | none => exact .unseen rfl rfl
  | some device =>
      have hleaves := @leaves_drainSession P D _ runtime codec _ slot device hdevice
      simp only
      split
      · next after hdrain =>
        rw [hdrain] at hleaves
        exact hleaves
      · next after hdrain =>
        rw [hdrain] at hleaves
        exact hleaves.trans (leaves_dropSlot slot _ (by decide))
      · next code after hdrain =>
        rw [hdrain] at hleaves
        exact hleaves.trans (leaves_dropSlot slot _ (by decide))

theorem leaves_tickSlot [LawfulSession D] (single : Bool) (slot : Nat) :
    Leaves runtime (runtime.tickSlot codec single slot).2 := by
  rw [tickSlot]
  cases hdevice : runtime.device slot with
  | none => exact .unseen rfl rfl
  | some device =>
      have hupdate := leaves_update hdevice (LawfulSession.path_tickPointer device)
      simp only
      split
      · split
        · exact hupdate
        · exact hupdate.trans (leaves_dropSlot slot _ (by decide))
      · exact .unseen rfl rfl

end Leaves

variable [DeviceSession D] [RuntimePlatform P D] {codec : Codec} {runtime : Runtime P D}

theorem discovery_controlCommand (command : Command) :
    (runtime.controlCommand command).2.discovery = runtime.discovery := by
  cases command with
  | startCapture syspath =>
      rw [controlCommand]
      split
      · rfl
      · simp only
        split <;> rfl
  | _ => rfl

theorem discovery_serviceCommands :
    (runtime.serviceCommands codec).discovery = runtime.discovery := by
  have hfold : ∀ (commands : List (UInt64 × UInt64 × Command)) (runtime : Runtime P D),
      (commands.foldl (completeCommand codec) runtime).discovery = runtime.discovery := by
    intro commands
    induction commands with
    | nil => exact fun _ => rfl
    | cons command commands ih =>
        exact fun runtime => (ih _).trans (discovery_controlCommand command.2.2)
  have htaken : runtime.takeCommands.2.discovery = runtime.discovery := by
    rw [takeCommands]
    split <;> rfl
  exact (hfold _ _).trans htaken

/-- The steps that are not discovery's. -/
theorem leaves_step [LawfulSession D] {step : ReactorStep P}
    (hadd : ∀ path, step ≠ .addPath path) (hrequest : step ≠ .requestReconcile)
    (hservice : step ≠ .serviceDiscovery) : Leaves runtime (runtime.step codec step) := by
  cases step with
  | addPath path => exact absurd rfl (hadd path)
  | requestReconcile => exact absurd rfl hrequest
  | serviceDiscovery => exact absurd rfl hservice
  | drainDevice single slot => exact leaves_drainDevice single slot
  | tickSlot single slot => exact leaves_tickSlot single slot
  | handleReady token revents =>
      refine .unseen ?_ (view_handleReady token revents)
      rw [Runtime.step, Runtime.handleReady]
      split <;> rfl
  | serviceCommands => exact .unseen discovery_serviceCommands view_serviceCommands
  | rehash before => exact .unseen rfl rfl
  | elapse platform now pending metrics => exact .unseen rfl rfl

end Runtime

/-- How many snapshots were requested. -/
def requests (deeds : List Deed) : Nat := deeds.countP Deed.isRequested

/-- Every snapshot that was taken answers the latest request. -/
def Latest (deeds : List Deed) : Prop :=
  ∀ before snapshot after, deeds = before ++ .took snapshot :: after →
    snapshot.request = requests before

/-- A snapshot that does not show a path was requested, and by then the device of the path
had been added, and it has not left since. -/
def Justified (before : List Deed) (path : PathBuf) : Prop :=
  ∃ early late snapshot paths drops,
    before = early ++ .requested :: (late ++ .took snapshot :: drops) ∧
      snapshot.request = requests early + 1 ∧ snapshot.paths = .ok paths ∧
      (∀ other ∈ paths, other.components ≠ path.components) ∧
      Here (turns path.components early) ∧
      turns path.components (.requested :: (late ++ .took snapshot :: drops)) = []

def RemovalsJustified (deeds : List Deed) : Prop :=
  ∀ before path sequence syspath after,
    deeds = before ++ .published path (.deviceRemoved sequence syspath .removed) :: after →
      Justified before path

theorem Latest.of_append {deeds new : List Deed} (hlatest : Latest (deeds ++ new)) :
    Latest deeds := by
  intro before snapshot after hsplit
  apply hlatest before snapshot (after ++ new)
  rw [hsplit, List.append_assoc, List.cons_append]

theorem RemovalsJustified.append {deeds new : List Deed} (hjustified : RemovalsJustified deeds)
    (hnew : ∀ deed ∈ new, deed.isDrop = false) : RemovalsJustified (deeds ++ new) := by
  induction new generalizing deeds with
  | nil => rwa [List.append_nil]
  | cons deed new ih =>
      rw [List.append_cons]
      refine ih ?_ fun other hother => hnew other (List.mem_cons_of_mem deed hother)
      intro before path sequence syspath after hsplit
      rcases View.split_snoc hsplit with ⟨rest, hdeeds, _⟩ | ⟨_, hlast⟩
      · exact hjustified before path sequence syspath rest hdeeds
      · have hfalse := hnew deed List.mem_cons_self
        rw [← hlast] at hfalse
        cases hfalse

theorem requests_of_leaving {deeds : List Deed} (hleaving : ∀ deed ∈ deeds,
    deed.isLeaving = true) : requests deeds = 0 := by
  rw [requests, List.countP_eq_zero]
  intro deed hmem hrequested
  have hleaves := hleaving deed hmem
  cases deed <;> cases hrequested
  cases hleaves

theorem not_coming {key : UnixPath.Path} {deeds : List Deed}
    (hquiet : ∀ deed ∈ deeds, deed.isSetUp = false) : true ∉ turns key deeds := by
  rw [turns, List.mem_filterMap]
  rintro ⟨deed, hmem, hturn⟩
  have hfalse := hquiet deed hmem
  cases deed with
  | published path notification =>
      cases notification with
      | deviceAdded sequence info => cases hfalse
      | deviceRemoved sequence syspath reason =>
          rw [Deed.turn, Option.ite_none_right_eq_some] at hturn
          cases hturn.2
      | _ => cases hturn
  | _ => cases hturn

theorem Deed.isSetUp_of_isLeaving {deed : Deed} (hleaving : deed.isLeaving = true) :
    deed.isSetUp = false := by
  cases deed with
  | published path notification => cases notification <;> first | rfl | cases hleaving
  | _ => cases hleaving

theorem Deed.isSetUp_of_isDrop {deed : Deed} (hdrop : deed.isDrop = true) :
    deed.isSetUp = false := by
  cases deed with
  | published path notification => cases notification <;> first | rfl | cases hdrop
  | _ => cases hdrop

theorem Deed.isDrop_of_isLeaving {deed : Deed} (hleaving : deed.isLeaving = true) :
    deed.isDrop = false := by
  cases deed with
  | published path notification =>
      cases notification with
      | deviceRemoved sequence syspath reason =>
          exact beq_eq_false_iff_ne.mpr (bne_iff_ne.mp hleaving)
      | _ => rfl
  | _ => cases hleaving

theorem Deed.isDrop_of_isSetUp {deed : Deed} (hsetUp : deed.isSetUp = true) :
    deed.isDrop = false := by
  cases deed with
  | published path notification => cases notification <;> first | rfl | cases hsetUp
  | _ => rfl

namespace Runtime

open View (Tracked)

variable {P D : Type} [DeviceSession D]

/-- What holds of discovery at every moment. -/
structure Steady (runtime : Runtime P D) : Prop where
  tracked : Tracked runtime.view
  idle : runtime.snapshotPending = true → runtime.pendingAdditions = []
  unique : runtime.pendingAdditions.Pairwise fun path other =>
    path.components ≠ other.components
  fresh : ∀ path ∈ runtime.pendingAdditions, ¬runtime.view.Active path.components
  current : runtime.snapshotPending = true → ∃ early late,
    runtime.deeds = early ++ .requested :: late ∧ ∀ deed ∈ late, deed.isLeaving = true
  removed : Latest runtime.deeds → RemovalsJustified runtime.deeds

variable {runtime later : Runtime P D}

theorem Steady.leaves (hsteady : Steady runtime) (hleaves : Leaves runtime later)
    (htracked : Tracked later.view) : Steady later := by
  obtain ⟨hpending, hrest⟩ := Prod.mk.inj hleaves.discovery
  have hadditions := (Prod.mk.inj hrest).2
  obtain ⟨new, hdeeds, hleaving⟩ := hleaves.deeds
  refine ⟨htracked, ?_, ?_, ?_, ?_, ?_⟩
  · rw [hpending, hadditions]
    exact hsteady.idle
  · rw [hadditions]
    exact hsteady.unique
  · rw [hadditions]
    exact fun path hmem hactive => hsteady.fresh path hmem (hleaves.active _ hactive)
  · rw [hpending]
    intro hwaits
    obtain ⟨early, late, hsplit, hlate⟩ := hsteady.current hwaits
    refine ⟨early, late ++ new, ?_, fun deed hmem => ?_⟩
    · rw [hdeeds, hsplit, List.append_assoc, List.cons_append]
    · rcases List.mem_append.mp hmem with hmem | hmem
      · exact hlate deed hmem
      · exact hleaving deed hmem
  · rw [hdeeds]
    intro hlatest
    exact (hsteady.removed hlatest.of_append).append fun deed hmem =>
      Deed.isDrop_of_isLeaving (hleaving deed hmem)

/-- One path is set up: its device is opened, and added if that succeeds. -/
structure SetsUp (runtime later : Runtime P D) (path : PathBuf) : Prop where
  discovery : later.discovery = runtime.discovery
  active : ∀ key, later.view.Active key → runtime.view.Active key ∨ key = path.components
  deeds : Grows Deed.isSetUp runtime later
  opened : later.deeds.countP Deed.isOpened ≤ runtime.deeds.countP Deed.isOpened + 1

theorem Steady.setsUp (hsteady : Steady runtime) {path : PathBuf}
    (hsetsUp : SetsUp runtime later path) (htracked : Tracked later.view)
    (hpending : runtime.snapshotPending = false)
    (hother : ∀ other ∈ runtime.pendingAdditions, other.components ≠ path.components) :
    Steady later := by
  obtain ⟨hsame, hrest⟩ := Prod.mk.inj hsetsUp.discovery
  have hadditions := (Prod.mk.inj hrest).2
  obtain ⟨new, hdeeds, hsetUp⟩ := hsetsUp.deeds
  have hnot : ¬later.snapshotPending = true := by
    rw [hsame, hpending]
    exact Bool.false_ne_true
  refine ⟨htracked, fun hwaits => absurd hwaits hnot, ?_, ?_, fun hwaits => absurd hwaits hnot,
    ?_⟩
  · rw [hadditions]
    exact hsteady.unique
  · rw [hadditions]
    intro queued hmem hactive
    rcases hsetsUp.active _ hactive with hactive | hkey
    · exact hsteady.fresh queued hmem hactive
    · exact hother queued hmem hkey
  · rw [hdeeds]
    intro hlatest
    exact (hsteady.removed hlatest.of_append).append fun deed hmem =>
      Deed.isDrop_of_isSetUp (hsetUp deed hmem)

end Runtime

end Daemon

end Wiiland
