/-
What a device knows about its interfaces: the record of the open ones and the
pending ones, over every run of its calls and whatever opens or fails to.
-/
import Wiiland.Daemon.BridgeHealth

namespace Wiiland

namespace Daemon

open Hid

/-- A call on a device.  Interfaces that close under it come with their watch. -/
inductive BridgeCall where
  | setCapture (enabled : Bool) (attempts : Attempts)
  | retryOpen (attempts : Attempts)
  | watch (lost : InterfaceMask) (answers : Answers)

namespace BridgeDevice

def call (device : BridgeDevice) : BridgeCall → Except Int Unit × BridgeDevice
  | .setCapture enabled attempts => device.setCapture enabled attempts
  | .retryOpen attempts => device.retryOpen attempts
  | .watch lost answers =>
      let (result, device, _) := (device.losing lost).handleWatch answers
      (result, device)

/-- A watch that has to make new outputs and cannot: it returns before it looks at
what is open. -/
def losesOutputs (device : BridgeDevice) (lost : InterfaceMask) (answers : Answers) : Bool :=
  !(device.losing lost).lostInterfaces.isEmpty &&
    !(createOutputs device.profile device.config device.outputsEnabled answers.create).isOk

/-- The two masks against the interfaces that are open and those that are wanted. -/
structure Accurate (device : BridgeDevice) : Prop where
  recorded : device.openedIfaces = device.iface.opened
  disjoint : device.openedIfaces.inter device.pendingIfaces = .empty
  covers : (device.openedIfaces.union device.pendingIfaces).contains
    device.requestedInterfaces = true
  wanted : device.requestedInterfaces.contains device.pendingIfaces = true

/-- Nothing is open or pending that is not wanted. -/
structure Bounded (device : BridgeDevice) : Prop where
  opened : ∀ i, device.iface.opened.has i = true → device.requestedInterfaces.has i = true
  pending : ∀ i, device.pendingIfaces.has i = true → device.requestedInterfaces.has i = true

/-- The record is true, and pending is what is wanted and closed. -/
structure Settled (device : BridgeDevice) : Prop where
  recorded : device.openedIfaces = device.iface.opened
  pending : device.pendingIfaces = device.requestedInterfaces.diff device.iface.opened

theorem requestedInterfaces_all {device : BridgeDevice} {i : Nat}
    (hwanted : device.requestedInterfaces.has i = true) : InterfaceMask.all.has i = true := by
  unfold requestedInterfaces at hwanted
  split at hwanted
  · exact hwanted
  · exact (InterfaceMask.contains_iff _ _).mp (all_contains_requested _ _) i hwanted

theorem Settled.accurate {device : BridgeDevice} (hsettled : device.Settled) :
    device.Accurate := by
  refine ⟨hsettled.recorded, ?_, ?_, ?_⟩
  · ext i
    rw [hsettled.recorded, hsettled.pending, InterfaceMask.has_inter, InterfaceMask.has_diff,
      InterfaceMask.has_empty]
    cases device.iface.opened.has i <;> simp
  · rw [InterfaceMask.contains_iff]
    intro i hwanted
    rw [hsettled.recorded, hsettled.pending, InterfaceMask.has_union, InterfaceMask.has_diff,
      hwanted]
    cases device.iface.opened.has i <;> rfl
  · rw [InterfaceMask.contains_iff]
    intro i hpending
    rw [hsettled.pending, InterfaceMask.has_diff, Bool.and_eq_true] at hpending
    exact hpending.1

/-- A retry opens only what is pending, and what it leaves pending stays closed. -/
theorem retryOpen_masks (device : BridgeDevice) (attempts : Attempts) :
    (device.retryOpen attempts).2.requestedInterfaces = device.requestedInterfaces ∧
    (∀ i, (device.retryOpen attempts).2.iface.opened.has i = true →
      device.iface.opened.has i = true ∨ device.pendingIfaces.has i = true) ∧
    (∀ i, (device.retryOpen attempts).2.pendingIfaces.has i = true →
      device.pendingIfaces.has i = true) ∧
    (device.Settled → (device.retryOpen attempts).2.Settled) := by
  cases hpending : device.pendingIfaces.isEmpty with
  | true =>
      rw [retryOpen, if_pos hpending]
      exact ⟨rfl, fun _ => Or.inl, fun _ => id, id⟩
  | false =>
      obtain ⟨error, hretry⟩ := retryOpen_pending hpending attempts
      rw [hretry]
      refine ⟨rfl, fun i => device.iface.openAll_le device.pendingIfaces attempts,
        fun i hleft => ?_, fun hsettled => ⟨rfl, ?_⟩⟩
      · simp only [InterfaceMask.has_diff, Bool.and_eq_true] at hleft
        exact hleft.1
      · ext i
        have hmono := device.iface.openAll_mono device.pendingIfaces attempts (i := i)
        change (device.pendingIfaces.diff _).has i = (device.requestedInterfaces.diff _).has i
        rw [hsettled.pending] at hmono ⊢
        simp only [InterfaceMask.has_diff]
        cases hopen : device.iface.opened.has i with
        | false => simp
        | true => simp [hmono hopen]

theorem Bounded.retryOpen {device : BridgeDevice} (hbounded : device.Bounded)
    (attempts : Attempts) : (device.retryOpen attempts).2.Bounded := by
  obtain ⟨hwanted, hopened, hpending, _⟩ := device.retryOpen_masks attempts
  constructor <;> rw [hwanted]
  · exact fun i hhas => (hopened i hhas).elim (hbounded.opened i) (hbounded.pending i)
  · exact fun i hhas => hbounded.pending i (hpending i hhas)

/-- A pending interface whose attempt succeeds is open after a retry. -/
theorem retryOpen_granted {device : BridgeDevice} {attempts : Attempts} {k : Nat}
    (hpending : device.pendingIfaces.has k = true)
    (hwanted : device.requestedInterfaces.has k = true)
    (hgranted : attempts (position k) = none) :
    (device.retryOpen attempts).2.iface.opened.has k = true := by
  have hsome : device.pendingIfaces.isEmpty = false :=
    (InterfaceMask.not_isEmpty_iff _).mpr ⟨k, hpending⟩
  obtain ⟨error, hretry⟩ := retryOpen_pending hsome attempts
  rw [hretry]
  exact device.iface.openAll_granted hgranted hpending (requestedInterfaces_all hwanted)

/-- A change of capture puts both masks in order, whatever they were. -/
theorem switchCapture_masks {device : BridgeDevice} (hbounded : device.Bounded)
    (enabled : Bool) :
    (device.switchCapture enabled).Settled ∧ (device.switchCapture enabled).Bounded := by
  refine ⟨⟨rfl, rfl⟩, fun i hopen => ?_, fun i hpending => ?_⟩
  · change (device.iface.opened.diff
      ((device.iface.opened.diff (device.switchCapture enabled).requestedInterfaces).inter
        .all)).has i = true at hopen
    simp only [InterfaceMask.has_diff, InterfaceMask.has_inter, Bool.and_eq_true] at hopen
    have hall := requestedInterfaces_all (hbounded.opened i hopen.1)
    rw [hopen.1, hall] at hopen
    simpa using hopen.2
  · change ((device.switchCapture enabled).requestedInterfaces.diff _).has i = true at hpending
    rw [InterfaceMask.has_diff, Bool.and_eq_true] at hpending
    exact hpending.1

theorem Bounded.setCapture {device : BridgeDevice} (hbounded : device.Bounded)
    (enabled : Bool) (attempts : Attempts) :
    (device.setCapture enabled attempts).2.Bounded ∧
      (device.setCapture enabled attempts).2.requestedInterfaces =
        ({ device with capture := enabled } : BridgeDevice).requestedInterfaces := by
  unfold BridgeDevice.setCapture
  split
  · next hsame =>
    subst hsame
    exact ⟨hbounded, rfl⟩
  · exact ⟨(switchCapture_masks hbounded enabled).2.retryOpen attempts,
      (retryOpen_masks _ attempts).1⟩

/-- A changed capture, or any capture on a settled device, leaves it settled. -/
theorem settled_setCapture {device : BridgeDevice} (hbounded : device.Bounded)
    {enabled : Bool} (hsettled : enabled = device.capture → device.Settled)
    (attempts : Attempts) : (device.setCapture enabled attempts).2.Settled := by
  unfold setCapture
  split
  · next hsame => exact hsettled hsame
  · exact (retryOpen_masks _ attempts).2.2.2 (switchCapture_masks hbounded enabled).1

/-- The end of a watch settles the device, whatever it had recorded. -/
theorem reopen_masks {device : BridgeDevice} (attempts : Attempts)
    (hopened : ∀ i, device.iface.opened.has i = true →
      device.requestedInterfaces.has i = true) :
    (device.reopen attempts).2.Settled ∧ (device.reopen attempts).2.Bounded ∧
      (device.reopen attempts).2.requestedInterfaces = device.requestedInterfaces := by
  have hbounded : Bounded
      { device with
          openedIfaces := device.iface.opened
          pendingIfaces := device.requestedInterfaces.diff device.iface.opened } := by
    refine ⟨hopened, fun i hpending => ?_⟩
    change (device.requestedInterfaces.diff _).has i = true at hpending
    rw [InterfaceMask.has_diff, Bool.and_eq_true] at hpending
    exact hpending.1
  exact ⟨(retryOpen_masks _ attempts).2.2.2 ⟨rfl, rfl⟩, hbounded.retryOpen attempts,
    (retryOpen_masks _ attempts).1⟩

/-- A wanted interface that a watch can open is open after it. -/
theorem reopen_granted {device : BridgeDevice} {attempts : Attempts} {k : Nat}
    (hwanted : device.requestedInterfaces.has k = true)
    (hgranted : attempts (position k) = none) :
    (device.reopen attempts).2.iface.opened.has k = true := by
  unfold reopen
  cases hopen : device.iface.opened.has k with
  | true => exact (retryOpen_spec _ attempts).2.1 k hopen
  | false =>
      refine retryOpen_granted ?_ hwanted hgranted
      rw [InterfaceMask.has_diff, hwanted, hopen]
      rfl

/-- The masks a call leaves alone, and what is wanted. -/
structure SameMasks (first second : BridgeDevice) : Prop where
  iface : first.iface = second.iface
  opened : first.openedIfaces = second.openedIfaces
  pending : first.pendingIfaces = second.pendingIfaces
  wanted : first.requestedInterfaces = second.requestedInterfaces

theorem SameMasks.refl (device : BridgeDevice) : SameMasks device device :=
  ⟨rfl, rfl, rfl, rfl⟩

/-- A reset of the session leaves the masks alone; it fails where the outputs do. -/
theorem resetSession_masks (device : BridgeDevice) (create : OutputDevice → Option Int) :
    SameMasks (device.resetSession create).2.1 device ∧
      (device.resetSession create).1.isOk =
        (createOutputs device.profile device.config device.outputsEnabled create).isOk := by
  unfold resetSession
  simp only
  cases createOutputs device.profile device.config device.outputsEnabled create <;>
    exact ⟨⟨rfl, rfl, rfl, rfl⟩, rfl⟩

/-- A watch ends by opening what is wanted, unless it loses its outputs. -/
theorem call_watch (device : BridgeDevice) (lost : InterfaceMask) (answers : Answers) :
    ∃ kept, SameMasks kept (device.losing lost) ∧
      (device.call (.watch lost answers)).2 =
        if device.losesOutputs lost answers then kept
        else (kept.reopen answers.attempts).2 := by
  change ∃ kept, SameMasks kept (device.losing lost) ∧
    ((device.losing lost).handleWatch answers).2.1 = _
  unfold losesOutputs handleWatch
  cases (device.losing lost).lostInterfaces.isEmpty with
  | true => exact ⟨device.losing lost, .refl _, rfl⟩
  | false =>
      obtain ⟨hmasks, hok⟩ := (device.losing lost).resetSession_masks answers.create
      rcases hreset : (device.losing lost).resetSession answers.create with
        ⟨_ | _, reset, shown⟩
      · rw [hreset] at hmasks hok
        refine ⟨reset, hmasks, ?_⟩
        change reset = if !false && !(createOutputs (device.losing lost).profile
          (device.losing lost).config (device.losing lost).outputsEnabled
          answers.create).isOk then reset else _
        rw [← hok]
        rfl
      · rw [hreset] at hmasks hok
        refine ⟨reset, hmasks, ?_⟩
        change (reset.reopen answers.attempts).2 = if !false &&
          !(createOutputs (device.losing lost).profile (device.losing lost).config
            (device.losing lost).outputsEnabled answers.create).isOk then _ else _
        rw [← hok]
        rfl

/-- A created device is settled: what did not open is pending. -/
theorem withBackendOutputs_masks {syspath : String} {devtype : Option String}
    {config : Config} {outputsEnabled : Bool} {answers : Answers} {device : BridgeDevice}
    (hcreated : withBackendOutputs syspath devtype config outputsEnabled answers =
      .ok device) : device.Settled ∧ device.Bounded := by
  unfold withBackendOutputs at hcreated
  split at hcreated
  · simp only at hcreated
    generalize config.profileForDevice (some syspath) devtype = profile at hcreated
    have hmasks := Interface.openedOf_open ⟨.empty⟩
      (Daemon.requestedInterfaces profile config) answers.attempts
    have hle := fun i => Interface.openAll_le ⟨.empty⟩
      (Daemon.requestedInterfaces profile config) answers.attempts (i := i)
    rw [← hmasks.2] at hle
    generalize Interface.open_ ⟨.empty⟩ (Daemon.requestedInterfaces profile config)
      answers.attempts = outcome at hcreated hmasks hle
    obtain ⟨result, iface⟩ := outcome
    have hiface : Interface.openedOf result = iface.opened := hmasks.1.trans hmasks.2.symm
    split at hcreated
    · cases hcreated
    · cases houtputs : createOutputs profile config outputsEnabled answers.create with
      | error error =>
          rw [houtputs] at hcreated
          cases hcreated
      | ok outputs =>
          rw [houtputs] at hcreated
          obtain rfl := Except.ok.inj hcreated
          refine ⟨⟨hiface, ?_⟩, fun i hopen => ?_, fun i hpending => ?_⟩
          · change (Daemon.requestedInterfaces profile config).diff (Interface.openedOf result) =
              (Daemon.requestedInterfaces profile config).diff iface.opened
            rw [hiface]
          · refine (hle i hopen).resolve_left ?_
            rw [InterfaceMask.has_empty]
            exact Bool.false_ne_true
          · change ((Daemon.requestedInterfaces profile config).diff _).has i = true at hpending
            rw [InterfaceMask.has_diff, Bool.and_eq_true] at hpending
            exact hpending.1
  · cases hcreated

end BridgeDevice

/-- A device in use.  A watch that loses its outputs leaves it behind, until the next
watch or change of capture brings it up to date. -/
structure InUse where
  device : BridgeDevice
  upToDate : Bool

namespace InUse

def call (inUse : InUse) (call : BridgeCall) : InUse where
  device := (inUse.device.call call).2
  upToDate :=
    match call with
    | .setCapture enabled _ => inUse.upToDate || enabled != inUse.device.capture
    | .retryOpen _ => inUse.upToDate
    | .watch lost answers => !inUse.device.losesOutputs lost answers

/-- A new device after some calls, whatever they returned. -/
def run (device : BridgeDevice) (calls : List BridgeCall) : InUse :=
  calls.foldl call ⟨device, true⟩

structure Valid (inUse : InUse) : Prop where
  bounded : inUse.device.Bounded
  settled : inUse.upToDate = true → inUse.device.Settled

theorem Valid.call {inUse : InUse} (hvalid : inUse.Valid) (call : BridgeCall) :
    (inUse.call call).Valid := by
  cases call with
  | setCapture enabled attempts =>
      refine ⟨(hvalid.bounded.setCapture enabled attempts).1, fun hcurrent => ?_⟩
      refine BridgeDevice.settled_setCapture hvalid.bounded (fun hsame => ?_) attempts
      refine hvalid.settled ?_
      simpa [InUse.call, hsame] using hcurrent
  | retryOpen attempts =>
      exact ⟨hvalid.bounded.retryOpen attempts, fun hcurrent =>
        (inUse.device.retryOpen_masks attempts).2.2.2 (hvalid.settled hcurrent)⟩
  | watch lost answers =>
      obtain ⟨kept, hmasks, hcall⟩ := inUse.device.call_watch lost answers
      have hopened : ∀ i, kept.iface.opened.has i = true →
          kept.requestedInterfaces.has i = true := by
        intro i hopen
        rw [hmasks.iface] at hopen
        rw [hmasks.wanted]
        simp only [BridgeDevice.losing, InterfaceMask.has_diff, Bool.and_eq_true] at hopen
        exact hvalid.bounded.opened i hopen.1
      obtain ⟨hsettled, hbounded, _⟩ := BridgeDevice.reopen_masks answers.attempts hopened
      constructor
      · change (inUse.device.call (.watch lost answers)).2.Bounded
        rw [hcall]
        split
        · refine ⟨hopened, fun i hpending => ?_⟩
          rw [hmasks.pending] at hpending
          rw [hmasks.wanted]
          exact hvalid.bounded.pending i hpending
        · exact hbounded
      · intro hcurrent
        have hkept : inUse.device.losesOutputs lost answers = false := by
          simpa [InUse.call] using hcurrent
        change (inUse.device.call (.watch lost answers)).2.Settled
        rw [hcall, hkept, if_neg Bool.false_ne_true]
        exact hsettled

theorem Valid.foldl {inUse : InUse} (hvalid : inUse.Valid) (calls : List BridgeCall) :
    (calls.foldl InUse.call inUse).Valid := by
  induction calls generalizing inUse with
  | nil => exact hvalid
  | cons call rest ih => exact ih (hvalid.call call)

end InUse

namespace BridgeDevice

/-- A watch that keeps its outputs opens every wanted interface that will open. -/
def Retries (device : BridgeDevice) : Prop :=
  ∀ lost answers k, device.losesOutputs lost answers = false →
    device.requestedInterfaces.has k = true → answers.attempts (position k) = none →
      (device.call (.watch lost answers)).2.iface.opened.has k = true

theorem retries (device : BridgeDevice) : device.Retries := by
  intro lost answers k hkept hwanted hgranted
  obtain ⟨kept, hmasks, hcall⟩ := device.call_watch lost answers
  rw [hcall, hkept, if_neg Bool.false_ne_true]
  refine reopen_granted ?_ hgranted
  rw [hmasks.wanted]
  exact hwanted

/-- What is wanted and closed is pending. -/
theorem Settled.pending_of_closed {device : BridgeDevice} (hsettled : device.Settled)
    {i : Nat} (hwanted : device.requestedInterfaces.has i = true)
    (hclosed : device.iface.opened.has i = false) : device.pendingIfaces.has i = true := by
  rw [hsettled.pending, InterfaceMask.has_diff, hwanted, hclosed]
  rfl

/-- Without capture nothing is open that the profile does not ask for. -/
theorem Bounded.released {device : BridgeDevice} (hbounded : device.Bounded)
    (attempts : Attempts) :
    device.requested.contains (device.setCapture false attempts).2.iface.opened = true := by
  rw [InterfaceMask.contains_iff]
  intro i hopen
  obtain ⟨hafter, hwanted⟩ := hbounded.setCapture false attempts
  have hhas := hafter.opened i hopen
  rw [hwanted] at hhas
  exact hhas

end BridgeDevice

/-- In every run of its calls, whatever they return and whatever opens, a device that is
up to date knows what is open and what is wanted; what it lost and did not get back is
pending, and the next watch tries it again.  Leaving capture always closes what only the
capture asked for. -/
theorem run_masks {syspath : String} {devtype : Option String} {config : Config}
    {outputsEnabled : Bool} {answers : Answers} {created : BridgeDevice}
    (hcreated : BridgeDevice.withBackendOutputs syspath devtype config outputsEnabled
      answers = .ok created) (calls : List BridgeCall) :
    let inUse := InUse.run created calls
    (inUse.upToDate = true → inUse.device.Accurate ∧
      ∀ i, inUse.device.requestedInterfaces.has i = true →
        inUse.device.iface.opened.has i = false →
          inUse.device.pendingIfaces.has i = true) ∧
    (∀ attempts, inUse.device.requested.contains
      (inUse.device.setCapture false attempts).2.iface.opened = true) ∧
    inUse.device.Retries := by
  obtain ⟨hsettled, hbounded⟩ := BridgeDevice.withBackendOutputs_masks hcreated
  have hvalid : (InUse.run created calls).Valid :=
    InUse.Valid.foldl ⟨hbounded, fun _ => hsettled⟩ calls
  refine ⟨fun hcurrent => ?_, hvalid.bounded.released, BridgeDevice.retries _⟩
  have hafter := hvalid.settled hcurrent
  exact ⟨hafter.accurate, fun i => hafter.pending_of_closed⟩

/-- The answers of a system that opens the interfaces of `closed` never, and makes an
output where `makes` says so. -/
def opening (closed : InterfaceMask) (makes : Bool) : Answers where
  attempts := fun bit => if closed.contains bit then some ⟨-19, by decide⟩ else none
  create := fun _ => if makes then none else some (-19)
  emit := fun _ => none

theorem default_validate : ({} : Config).validate = .ok () := by
  decide

/-- A gamepad on which the given interfaces opened. -/
def gamepadOn (opened : InterfaceMask) : BridgeDevice :=
  .assemble "/sys/devices/wiimote0" .gamepad ⟨{}, default_validate⟩ true ⟨opened⟩ opened
    (true, false)

/-- A controller without a motion plus that is captured, loses its core, and is
released. -/
theorem run_masks_released :
    (InUse.run (gamepadOn ⟨0x7e03⟩)
      [.setCapture true (opening .motionPlus true).attempts,
        .watch .core (opening .motionPlus true),
        .setCapture false (opening .motionPlus true).attempts]).device.Accurate := by
  have hcreated : BridgeDevice.withBackendOutputs "/sys/devices/wiimote0" none {} true
      (opening .motionPlus true) = .ok (gamepadOn ⟨0x7e03⟩) := rfl
  exact ((run_masks hcreated _).1 (by decide)).1

/-- The device after its core closed while no output could be made. -/
def strandedDevice : BridgeDevice :=
  (InUse.run (gamepadOn ⟨0x7f03⟩) [.watch .core (opening .core false)]).device

/-- A watch that cannot make new outputs leaves the record of the lost core, and the
next call returns without a look at it. -/
theorem run_masks_stranded :
    BridgeDevice.withBackendOutputs "/sys/devices/wiimote0" none {} true
        (opening .empty true) = .ok (gamepadOn ⟨0x7f03⟩) ∧
      (strandedDevice.setCapture false (opening .empty true).attempts).1 = .ok () ∧
      (strandedDevice.setCapture false (opening .empty true).attempts).2.openedIfaces ≠
        (strandedDevice.setCapture false (opening .empty true).attempts).2.iface.opened :=
  ⟨rfl, rfl, by decide⟩

end Daemon

end Wiiland
