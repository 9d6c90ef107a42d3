/-
The sessions in the slots of the reactor.  What a session is opened with and its calls
keep holds of every device in a slot, in every run.
-/
import Wiiland.Daemon.LifecycleRuns

namespace Wiiland

namespace Daemon

open Hid Ipc

/-- A property that sessions are opened with and that their calls keep. -/
structure Lasting (P : Type) {D : Type} [DeviceSession D] [RuntimePlatform P D]
    (holds : D → Prop) : Prop where
  opened : ∀ (platform later : P) (path : PathBuf) (config : Config) (outputs : Bool)
    (device : D), RuntimePlatform.openDevice platform path config outputs =
      (.ok device, later) → holds device
  drain : ∀ device : D, holds device → holds (DeviceSession.drain device).2
  setCapture : ∀ (device : D) (enabled : Bool), holds device →
    holds (DeviceSession.setCapture device enabled).2
  tickPointer : ∀ device : D, holds device → holds (DeviceSession.tickPointer device).2

/-- What holds of every device in a slot. -/
def InSlots {D : Type} (holds : D → Prop) (slots : List (Option D)) : Prop :=
  ∀ device, some device ∈ slots → holds device

theorem InSlots.put {D : Type} {holds : D → Prop} {slots : List (Option D)}
    (hslots : InSlots holds slots) (slot : Nat) {device : D} (hdevice : holds device) :
    InSlots holds (slots.set slot (some device)) := by
  intro other hother
  rcases List.mem_or_eq_of_mem_set hother with hold | hnew
  · exact hslots other hold
  · exact Option.some.inj hnew ▸ hdevice

theorem InSlots.clear {D : Type} {holds : D → Prop} {slots : List (Option D)}
    (hslots : InSlots holds slots) (slot : Nat) : InSlots holds (slots.set slot none) := by
  intro other hother
  rcases List.mem_or_eq_of_mem_set hother with hold | hnone
  · exact hslots other hold
  · cases hnone

namespace Runtime

variable {P D : Type} {codec : Codec} {runtime : Runtime P D} {holds : D → Prop}

theorem inSlots_start (config : Config) (dryRun : Bool) (platform : P)
    (ipc : Option IpcServer) :
    InSlots holds (start config dryRun platform ipc : Runtime P D).slots := by
  intro device hdevice
  cases List.eq_of_mem_replicate hdevice

theorem inSlots_device (hslots : InSlots holds runtime.slots) {slot : Nat} {device : D}
    (hdevice : runtime.device slot = some device) : holds device :=
  hslots device (List.mem_of_getElem? (slots_of_device hdevice))

theorem inSlots_dropSlot (hslots : InSlots holds runtime.slots) (slot : Nat) (path : PathBuf)
    (reason : RemovalReason) : InSlots holds (runtime.dropSlot codec slot path reason).slots := by
  rw [dropSlot]
  split
  · exact hslots.clear slot
  · exact hslots

theorem slots_takeCommands (runtime : Runtime P D) :
    runtime.takeCommands.2.slots = runtime.slots := by
  rw [takeCommands]
  split <;> rfl

theorem slots_requestReconcile [RuntimePlatform P D] (runtime : Runtime P D) :
    runtime.requestReconcile.slots = runtime.slots := by
  rw [requestReconcile]
  split
  · rfl
  · split <;> rfl

variable [DeviceSession D]

theorem inSlots_applySnapshot (hslots : InSlots holds runtime.slots) (paths : List PathBuf) :
    InSlots holds (runtime.applySnapshot codec paths).slots := by
  rw [applySnapshot]
  change InSlots holds ((missingSlots runtime.active paths).foldl (dropMissing codec) runtime).slots
  generalize missingSlots runtime.active paths = missing
  induction missing generalizing runtime with
  | nil => exact hslots
  | cons slot missing ih =>
      refine ih ?_
      rw [dropMissing]
      split
      · exact hslots
      · exact inSlots_dropSlot hslots slot _ _

variable [RuntimePlatform P D]

theorem inSlots_addPath (hlasting : Lasting P holds) (hslots : InSlots holds runtime.slots)
    (path : PathBuf) : InSlots holds (runtime.addPath codec path).2.slots := by
  rw [addPath]
  split
  · exact hslots
  · split
    · exact hslots
    · next slot _ =>
      split
      · exact hslots
      · next device platform hopen =>
        exact hslots.put slot (hlasting.opened _ _ _ _ _ _ hopen)

theorem inSlots_setUp (hlasting : Lasting P holds) (budget : Nat)
    (hslots : InSlots holds runtime.slots) : InSlots holds (setUp codec budget runtime).slots := by
  induction budget generalizing runtime with
  | zero => exact hslots
  | succ budget ih =>
      rw [setUp]
      split
      · exact hslots
      · next path rest _ =>
        exact ih (@inSlots_addPath P D codec { runtime with pendingAdditions := rest } holds _ _
          hlasting hslots path)

theorem inSlots_serviceDiscovery (hlasting : Lasting P holds)
    (hslots : InSlots holds runtime.slots) :
    InSlots holds (runtime.serviceDiscovery codec).slots := by
  have htaken : InSlots holds (runtime.takeSnapshot codec).slots := by
    rw [takeSnapshot]
    split
    · rcases RuntimePlatform.takeSnapshot runtime.platform with ⟨_ | snapshot, platform⟩
      · exact hslots
      · have hsame : InSlots holds (did { runtime with platform, snapshotPending := false }
            (.took snapshot)).slots := hslots
        simp only
        split
        · exact inSlots_applySnapshot hsame _
        · exact hslots
    · exact hslots
  have hset := @inSlots_setUp P D codec _ holds _ _ hlasting deviceSetupBudget htaken
  rw [serviceDiscovery, retryReconcile]
  split
  · rw [slots_requestReconcile]
    exact hset
  · exact hset

theorem inSlots_drainDevice (hlasting : Lasting P holds) (hslots : InSlots holds runtime.slots)
    (single : Bool) (slot : Nat) :
    InSlots holds (runtime.drainDevice codec single slot).2.slots := by
  rw [drainDevice]
  split
  · exact hslots
  · next device hdevice =>
    have hdrained : InSlots holds (runtime.drainSession codec slot device).2.slots := by
      have hput := hslots.put slot (hlasting.drain device (inSlots_device hslots hdevice))
      rw [drainSession]
      simp only
      split
      · rw [slots_collect]
        exact hput
      · exact hput
    generalize runtime.drainSession codec slot device = drained at hdrained ⊢
    rcases drained with ⟨_ | _ | _, after⟩
    · exact inSlots_dropSlot hdrained slot _ _
    · exact hdrained
    · exact inSlots_dropSlot hdrained slot _ _

theorem inSlots_tickSlot (hlasting : Lasting P holds) (hslots : InSlots holds runtime.slots)
    (single : Bool) (slot : Nat) :
    InSlots holds (runtime.tickSlot codec single slot).2.slots := by
  rw [tickSlot]
  split
  · exact hslots
  · next device hdevice =>
    have hput := hslots.put slot (hlasting.tickPointer device (inSlots_device hslots hdevice))
    split
    · simp only
      split
      · exact hput
      · exact inSlots_dropSlot hput slot _ _
    · exact hslots

theorem inSlots_controlCommand (hlasting : Lasting P holds)
    (hslots : InSlots holds runtime.slots) (command : Command) :
    InSlots holds (runtime.controlCommand command).2.slots := by
  cases command with
  | startCapture syspath =>
      rw [controlCommand]
      cases hfound : (runtime.find (.ofString syspath)).bind fun slot =>
          (runtime.device slot).map fun device => (slot, device) with
      | none => exact hslots
      | some found =>
          obtain ⟨slot, _, hmapped⟩ := Option.bind_eq_some_iff.mp hfound
          obtain ⟨device, hdevice, rfl⟩ := Option.map_eq_some_iff.mp hmapped
          have hput := hslots.put slot (hlasting.setCapture device true
            (inSlots_device hslots hdevice))
          simp only
          split <;> exact hput
  | _ => exact hslots

theorem inSlots_completing (hlasting : Lasting P holds)
    (commands : List (UInt64 × UInt64 × Command)) (hslots : InSlots holds runtime.slots) :
    InSlots holds (commands.foldl (completeCommand codec) runtime).slots := by
  induction commands generalizing runtime with
  | nil => exact hslots
  | cons command commands ih => exact ih (inSlots_controlCommand hlasting hslots command.2.2)

theorem inSlots_serviceCommands (hlasting : Lasting P holds)
    (hslots : InSlots holds runtime.slots) :
    InSlots holds (runtime.serviceCommands codec).slots := by
  have htaken : InSlots holds runtime.takeCommands.2.slots := slots_takeCommands runtime ▸ hslots
  have hcompleted := @inSlots_completing P D codec _ holds _ _ hlasting
    runtime.takeCommands.1 htaken
  intro device hdevice
  rw [serviceCommands] at hdevice
  generalize runtime.takeCommands = taken at hcompleted hdevice
  obtain ⟨slot, hslot, hlater⟩ := List.mem_map.mp hdevice
  obtain ⟨before, rfl, rfl⟩ := Option.map_eq_some_iff.mp hlater
  exact hlasting.setCapture before _ (hcompleted before hslot)

theorem inSlots_step (hlasting : Lasting P holds) (hslots : InSlots holds runtime.slots)
    (step : ReactorStep P) : InSlots holds (runtime.step codec step).slots := by
  cases step with
  | addPath path => exact inSlots_addPath hlasting hslots path
  | requestReconcile => exact (slots_requestReconcile runtime).symm ▸ hslots
  | serviceDiscovery => exact inSlots_serviceDiscovery hlasting hslots
  | drainDevice single slot => exact inSlots_drainDevice hlasting hslots single slot
  | tickSlot single slot => exact inSlots_tickSlot hlasting hslots single slot
  | handleReady token revents =>
      rw [Runtime.step, handleReady]
      split <;> exact hslots
  | serviceCommands => exact inSlots_serviceCommands hlasting hslots
  | rehash before => exact hslots
  | elapse platform now pending metrics => exact hslots

/-- The devices in the slots of a run. -/
theorem inSlots_run (hlasting : Lasting P holds) (hslots : InSlots holds runtime.slots)
    (steps : List (ReactorStep P)) : InSlots holds (runtime.run codec steps).slots := by
  induction steps generalizing runtime with
  | nil => exact hslots
  | cons step steps ih => exact ih (inSlots_step hlasting hslots step)

end Runtime

end Daemon

end Wiiland
