/-
Who owns the virtual devices: a construction that fails leaves none behind, a bridge
has all the outputs it needs or none, and what it has goes away with it.
-/
import Mathlib.Data.List.MinMax
import Wiiland.Daemon.OutputLifetimes

namespace Wiiland

namespace Daemon

namespace Uinput

open Mapping Lifetime

variable {α β : Type} {status last : Status} {fd : Nat}

theorem bind_apply (program : Calls α) (rest : α → Calls β) (backend : Backend) :
    (program >>= rest) backend =
      match program backend with
      | (.error error, backend) => (.error error, backend)
      | (.ok value, backend) => rest value backend := by
  change ExceptT.bindCont rest (program backend).1 (program backend).2 = _
  rcases program backend with ⟨_ | _, _⟩ <;> rfl

/-- What happens to one descriptor between two states of the backend. -/
def Moves (fd : Nat) (status last : Status) (before after : Backend) : Prop :=
  Acts BackendEvent.fd Status.next fd status last before.trace after.trace

/-- One call on the descriptor. -/
theorem Moves.single {before after : Backend} {event : BackendEvent}
    (hfd : event.fd = some fd) (hnext : status.next event = some last)
    (htrace : after.trace = before.trace ++ [event]) : Moves fd status last before after := by
  rw [Moves, htrace]
  exact .single hfd hnext before.trace

theorem Moves.trans {middle : Status} {first second third : Backend}
    (hfirst : Moves fd status middle first second)
    (hsecond : Moves fd middle last second third) : Moves fd status last first third :=
  Acts.trans hfirst hsecond

/-- A program that leaves a device as it is, whatever it returns. -/
def Keeps (fd : Nat) (status : Status) (program : Calls α) : Prop :=
  ∀ backend, Moves fd status status backend (program backend).2 ∧
    (program backend).2.live = backend.live

theorem Keeps.pure (value : α) : Keeps fd status (pure value) :=
  fun backend => ⟨.refl backend.trace, rfl⟩

theorem Keeps.bind {program : Calls α} {rest : α → Calls β} (hprogram : Keeps fd status program)
    (hrest : ∀ value, Keeps fd status (rest value)) : Keeps fd status (program >>= rest) := by
  intro backend
  obtain ⟨hmoves, hlive⟩ := hprogram backend
  rw [bind_apply]
  rcases hresult : program backend with ⟨error | value, middle⟩ <;> rw [hresult] at hmoves hlive
  · exact ⟨hmoves, hlive⟩
  · obtain ⟨hmoves', hlive'⟩ := hrest value middle
    exact ⟨hmoves.trans hmoves', hlive'.trans hlive⟩

theorem Keeps.forM {program : α → Calls Unit} (hprogram : ∀ value, Keeps fd status (program value))
    (values : List α) : Keeps fd status (values.forM program) := by
  induction values with
  | nil => exact .pure ()
  | cons value rest ih => exact (hprogram value).bind fun _ => ih

/-- Between the steps of its life a device that is up stays as it is. -/
theorem next_plain (hup : status = .opened ∨ status = .created) {event : BackendEvent}
    (hplain : event.isPlain = true) : status.next event = some status := by
  cases event with
  | ioctl fd request arg error => rcases hup with rfl | rfl <;> exact if_pos hplain
  | write => rcases hup with rfl | rfl <;> rfl
  | opened | openFailed | close => cases hplain

theorem follow_plain (hup : status = .opened ∨ status = .created) {events : List BackendEvent}
    (hplain : ∀ event ∈ events, event.isPlain = true) :
    follow Status.next status events = some status := by
  induction events with
  | nil => rfl
  | cons event rest ih =>
      rw [follow, next_plain hup (hplain event List.mem_cons_self)]
      exact ih fun found hmem => hplain found (List.mem_cons_of_mem event hmem)

namespace Backend

theorem reply_frame (backend : Backend) (granted : Nat) :
    (backend.reply granted).2.trace = backend.trace ∧
      (backend.reply granted).2.live = backend.live := by
  unfold reply
  split <;> exact ⟨rfl, rfl⟩

theorem ioctl_spec (fd request : Nat) (arg : Int) (backend : Backend) :
    ∃ error, (ioctl fd request arg backend).2.trace =
        backend.trace ++ [.ioctl fd request arg error] ∧
      (ioctl fd request arg backend).2.live = backend.live ∧
      ((ioctl fd request arg backend).1.isOk = true ↔ error = none) := by
  obtain ⟨htrace, hlive⟩ := backend.reply_frame 0
  unfold ioctl
  rcases hreply : backend.reply 0 with ⟨error | granted, middle⟩ <;>
    rw [hreply] at htrace hlive
  · exact ⟨some (errno error), congrArg (· ++ _) htrace, hlive,
      by simp [Except.isOk, Except.toBool]⟩
  · exact ⟨none, congrArg (· ++ _) htrace, hlive, by simp [Except.isOk, Except.toBool]⟩

/-- A request that is not a step of the life. -/
theorem keeps_ioctl (hup : status = .opened ∨ status = .created) {request : Nat}
    (hcreate : request ≠ uiDevCreate) (hdestroy : request ≠ uiDevDestroy) (arg : Int) :
    Keeps fd status (ioctl fd request arg) := by
  intro backend
  obtain ⟨error, htrace, hlive, _⟩ := ioctl_spec fd request arg backend
  have hplain : (BackendEvent.ioctl fd request arg error).isPlain = true := by
    simp [BackendEvent.isPlain, hcreate, hdestroy]
  exact ⟨.single rfl (next_plain hup hplain) htrace, hlive⟩

theorem writes_spec (fd : Nat) (data : Payload) (replies : List (Except OsError Nat)) :
    ∀ event ∈ (writes fd data replies).2.2, event.fd = some fd ∧ event.isPlain = true := by
  induction replies with
  | nil =>
      intro event hmem
      rw [List.mem_singleton.mp hmem]
      exact ⟨rfl, rfl⟩
  | cons reply rest ih =>
      cases reply with
      | ok n =>
          intro event hmem
          rw [List.mem_singleton.mp hmem]
          exact ⟨rfl, rfl⟩
      | error error =>
          intro event hmem
          rw [writes] at hmem
          split at hmem
          · rcases List.mem_cons.mp hmem with rfl | hlater
            · exact ⟨rfl, rfl⟩
            · exact ih event hlater
          · rw [List.mem_singleton.mp hmem]
            exact ⟨rfl, rfl⟩

theorem keeps_writeExact (hup : status = .opened ∨ status = .created) (data : Payload) :
    Keeps fd status (writeExact fd data) := by
  intro backend
  have hspec := writes_spec fd data backend.replies
  exact ⟨⟨_, rfl, fun event hmem => (hspec event hmem).1,
    follow_plain hup fun event hmem => (hspec event hmem).2⟩, rfl⟩

theorem unused_not_mem (live : List Nat) (fd : Nat) : unused live fd ∉ live := by
  unfold unused
  split
  · intro hmem
    exact absurd (List.le_max_of_le' 0 hmem (Nat.le_refl _)) (Nat.not_succ_le_self _)
  · assumption

/-- An open either fails and touches no descriptor, or opens a new one. -/
theorem open_spec (path : String) (backend : Backend) :
    (∃ error after, open_ path backend = (.error error, after) ∧
      after.trace = backend.trace ++ [.openFailed path error] ∧ after.live = backend.live) ∨
    ∃ fd after, open_ path backend = (.ok fd, after) ∧ fd ∉ backend.live ∧
      Moves fd .closed .opened backend after ∧ after.live = fd :: backend.live := by
  obtain ⟨htrace, hlive⟩ := backend.reply_frame 0
  unfold open_
  rcases hreply : backend.reply 0 with ⟨error | granted, middle⟩ <;>
    rw [hreply] at htrace hlive
  · exact Or.inl ⟨errno error, _, rfl, congrArg (· ++ _) htrace, hlive⟩
  · refine Or.inr ⟨unused middle.live granted, _, rfl, ?_, ?_, ?_⟩
    · rw [← hlive]
      exact unused_not_mem _ _
    · have hopens : BackendEvent.fd (.opened path (unused middle.live granted)) =
          some (unused middle.live granted) := rfl
      exact .single hopens rfl (congrArg (· ++ _) htrace)
    · exact congrArg (_ :: ·) hlive

/-- A close of a device that is not there any more, or never was. -/
theorem close_spec (hnext : status.next (.close fd) = some .closed) (backend : Backend) :
    Moves fd status .closed backend (backend.close fd) ∧
      (backend.close fd).live = backend.live.erase fd :=
  ⟨.single rfl hnext rfl, rfl⟩

end Backend

namespace VirtualDevice

open Uinput.Backend

/-- Where a device stands in its life. -/
def stage (out : VirtualDevice) : Status := if out.created then .created else .opened

theorem stage_up (out : VirtualDevice) : out.stage = .opened ∨ out.stage = .created := by
  unfold stage
  split
  · exact Or.inr rfl
  · exact Or.inl rfl

/-- A device that goes away ends its life. -/
theorem drop_spec (out : VirtualDevice) (backend : Backend) :
    Moves out.fd out.stage .closed backend (out.drop backend) ∧
      (out.drop backend).live = backend.live.erase out.fd := by
  unfold drop stage
  split
  · obtain ⟨error, htrace, hlive, _⟩ := ioctl_spec out.fd uiDevDestroy 0 backend
    have hdestroys : Moves out.fd .created .destroyed backend
        (ioctl out.fd uiDevDestroy 0 backend).2 := .single rfl rfl htrace
    obtain ⟨hcloses, herased⟩ :=
      @close_spec .destroyed out.fd rfl (ioctl out.fd uiDevDestroy 0 backend).2
    exact ⟨hdestroys.trans hcloses, herased.trans (congrArg (List.erase · out.fd) hlive)⟩
  · exact close_spec rfl backend

theorem keeps_configure (out : VirtualDevice) : Keeps out.fd .opened out.configure := by
  have hset : ∀ request, request ≠ uiDevCreate → request ≠ uiDevDestroy → ∀ code : Nat,
      Keeps out.fd .opened (ioctl out.fd request code) :=
    fun request hcreate hdestroy code => keeps_ioctl (Or.inl rfl) hcreate hdestroy code
  have hev := hset uiSetEvbit (by decide) (by decide)
  unfold configure
  refine (hev evKey).bind fun _ => ?_
  refine (Keeps.forM (hset uiSetKeybit (by decide) (by decide)) _).bind fun _ => ?_
  refine Keeps.bind ?_ fun _ => Keeps.bind ?_ fun _ => keeps_writeExact (Or.inl rfl) _
  · split
    · exact (hev evAbs).bind fun _ => .forM (hset uiSetAbsbit (by decide) (by decide)) _
    · exact .pure ()
  · split
    · exact (hev evRel).bind fun _ => .forM (hset uiSetRelbit (by decide) (by decide)) _
    · exact .pure ()

/-- Whatever is emitted, and whether it arrives, the device stays. -/
theorem keeps_use (out : VirtualDevice) (use : Use) : Keeps out.fd out.stage (out.use use) := by
  have hevent : ∀ type code value, Keeps out.fd out.stage (out.emitEvent type code value) :=
    fun type code value => keeps_writeExact out.stage_up _
  cases use with
  | event type code value => exact hevent type code value
  | key code state => exact (hevent _ _ _).bind fun _ => hevent _ _ _
  | abs code value => exact hevent _ _ _
  | rel code value =>
      change Keeps out.fd out.stage (if value ≠ 0 then out.emitEvent evRel code value else pure ())
      split
      · exact hevent _ _ _
      · exact .pure ()
  | syn => exact hevent _ _ _

/-- The calls of `with_backend` on its open descriptor. -/
theorem setup_spec (out : VirtualDevice) (hfresh : out.created = false) (backend : Backend) :
    (∃ error after, (out.owned do
        out.configure
        ioctl out.fd uiDevCreate 0
        pure { out with created := true }) backend = (.error error, after) ∧
      Moves out.fd .opened .closed backend after ∧ after.live = backend.live.erase out.fd) ∨
    ∃ after, (out.owned do
        out.configure
        ioctl out.fd uiDevCreate 0
        pure { out with created := true }) backend = (.ok { out with created := true }, after) ∧
      Moves out.fd .opened .created backend after ∧ after.live = backend.live := by
  have hstage : out.stage = .opened := by
    rw [stage, hfresh]
    rfl
  unfold owned
  rw [bind_apply]
  obtain ⟨hsets, hlive⟩ := out.keeps_configure backend
  rcases hconfigure : out.configure backend with ⟨error | _, configured⟩ <;>
    rw [hconfigure] at hsets hlive
  · obtain ⟨hdrops, herased⟩ := out.drop_spec configured
    rw [hstage] at hdrops
    exact Or.inl ⟨error, _, rfl, hsets.trans hdrops, herased.trans (by rw [hlive])⟩
  · simp only
    rw [bind_apply]
    obtain ⟨error, htrace, hlive', hok⟩ := ioctl_spec out.fd uiDevCreate 0 configured
    rcases hcreate : ioctl out.fd uiDevCreate 0 configured with ⟨code | _, created⟩ <;>
      rw [hcreate] at htrace hlive' hok
    · have hfails : error.isSome = true := by
        cases error with
        | none => exact absurd (hok.mpr rfl) Bool.false_ne_true
        | some error => rfl
      have hplain : (BackendEvent.ioctl out.fd uiDevCreate 0 error).isPlain = true := by
        rw [BackendEvent.isPlain, hfails]
        rfl
      have hstays : Moves out.fd .opened .opened configured created :=
        .single rfl (next_plain (Or.inl rfl) hplain) htrace
      obtain ⟨hdrops, herased⟩ := out.drop_spec created
      rw [hstage] at hdrops
      exact Or.inl ⟨code, _, rfl, hsets.trans (hstays.trans hdrops),
        herased.trans (by rw [hlive', hlive])⟩
    · obtain rfl := hok.mp rfl
      have hcreates : Moves out.fd .opened .created configured created :=
        .single rfl rfl htrace
      exact Or.inr ⟨created, rfl, hsets.trans hcreates, hlive'.trans hlive⟩

/-- A construction either leaves no device, or one that is created. -/
theorem withBackend_spec (path : String) (kind : VirtualKind) (backend : Backend) :
    (∃ error after, withBackend path kind backend = (.error error, after) ∧
      after.trace = backend.trace ++ [.openFailed path error] ∧ after.live = backend.live) ∨
    (∃ error after fd, withBackend path kind backend = (.error error, after) ∧
      fd ∉ backend.live ∧ Moves fd .closed .closed backend after ∧
      after.live = backend.live) ∨
    ∃ out after, withBackend path kind backend = (.ok out, after) ∧ out.created = true ∧
      out.fd ∉ backend.live ∧ Moves out.fd .closed .created backend after ∧
      after.live = out.fd :: backend.live := by
  unfold withBackend
  rw [bind_apply]
  rcases open_spec path backend with ⟨error, after, hopen, hspec⟩ |
    ⟨fd, opened, hopen, hfresh, hopens, hlive⟩
  · rw [hopen]
    exact Or.inl ⟨error, after, rfl, hspec⟩
  · rw [hopen]
    rcases setup_spec ⟨fd, false, kind⟩ rfl opened with ⟨error, after, hsetup, hends, herased⟩ |
      ⟨after, hsetup, hcreates, hkept⟩
    · refine Or.inr (Or.inl ⟨error, after, fd, hsetup, hfresh, hopens.trans hends, ?_⟩)
      rw [herased, hlive]
      exact List.erase_cons_head fd backend.live
    · exact Or.inr (Or.inr ⟨_, after, hsetup, rfl, hfresh, hopens.trans hcreates,
        hkept.trans hlive⟩)

end VirtualDevice

/-- Where the calls so far leave a descriptor. -/
def statusOf (backend : Backend) (fd : Nat) : Option Status :=
  follow Status.next .closed (on BackendEvent.fd fd backend.trace)

theorem Moves.statusOf {before after : Backend} (hmoves : Moves fd status last before after)
    (hbefore : Uinput.statusOf before fd = some status) :
    Uinput.statusOf after fd = some last :=
  hmoves.follow_on hbefore

theorem Moves.statusOf_other {before after : Backend} {other : Nat}
    (hmoves : Moves fd status last before after) (hother : other ≠ fd) :
    Uinput.statusOf after other = Uinput.statusOf before other := by
  rw [Uinput.statusOf, hmoves.on_other hother]
  rfl

/-- The devices that are up: each was created on a descriptor of its own, and every
other descriptor is closed or was never opened. -/
structure Owns (devices : List VirtualDevice) (backend : Backend) : Prop where
  created : ∀ device ∈ devices, device.created = true
  distinct : (devices.map VirtualDevice.fd).Nodup
  live : ∀ device ∈ devices, device.fd ∈ backend.live
  up : ∀ fd ∈ devices.map VirtualDevice.fd, statusOf backend fd = some .created
  closed : ∀ fd ∉ devices.map VirtualDevice.fd, statusOf backend fd = some .closed

namespace Owns

variable {devices : List VirtualDevice} {device : VirtualDevice} {before after : Backend}

/-- What changes no status and no descriptor. -/
theorem same (howns : Owns devices before)
    (hsame : ∀ fd, statusOf after fd = statusOf before fd) (hlive : after.live = before.live) :
    Owns devices after := by
  refine ⟨howns.created, howns.distinct, ?_, fun fd hmem => ?_, fun fd hmem => ?_⟩
  · rw [hlive]
    exact howns.live
  · rw [hsame]
    exact howns.up fd hmem
  · rw [hsame]
    exact howns.closed fd hmem

/-- A descriptor that ends where it began. -/
theorem stay (howns : Owns devices before) (hstatus : statusOf before fd = some status)
    (hmoves : Moves fd status status before after) (hlive : after.live = before.live) :
    Owns devices after := by
  refine howns.same (fun other => ?_) hlive
  by_cases hother : other = fd
  · rw [hother, hmoves.statusOf hstatus, hstatus]
  · exact hmoves.statusOf_other hother

theorem fresh (howns : Owns devices before) (hfresh : fd ∉ before.live) :
    fd ∉ devices.map VirtualDevice.fd := by
  intro hmem
  obtain ⟨device, hdevice, rfl⟩ := List.mem_map.mp hmem
  exact hfresh (howns.live device hdevice)

/-- A device that comes up. -/
theorem gain (howns : Owns devices before) (hcreated : device.created = true)
    (hfresh : device.fd ∉ before.live) (hmoves : Moves device.fd .closed .created before after)
    (hlive : after.live = device.fd :: before.live) : Owns (device :: devices) after := by
  have hnew := howns.fresh hfresh
  refine ⟨?_, List.nodup_cons.mpr ⟨hnew, howns.distinct⟩, ?_, ?_, ?_⟩
  · intro found hmem
    rcases List.mem_cons.mp hmem with rfl | hold
    · exact hcreated
    · exact howns.created found hold
  · intro found hmem
    rw [hlive]
    rcases List.mem_cons.mp hmem with rfl | hold
    · exact List.mem_cons_self
    · exact List.mem_cons_of_mem _ (howns.live found hold)
  · intro fd hmem
    rcases List.mem_cons.mp hmem with rfl | hold
    · exact hmoves.statusOf (howns.closed _ hnew)
    · rw [hmoves.statusOf_other fun hsame => hnew (hsame ▸ hold)]
      exact howns.up fd hold
  · intro fd hmem
    rw [List.map_cons, List.mem_cons, not_or] at hmem
    rw [hmoves.statusOf_other hmem.1]
    exact howns.closed fd hmem.2

/-- A device that goes away. -/
theorem drop (howns : Owns (device :: devices) before) : Owns devices (device.drop before) := by
  obtain ⟨hmoves, herased⟩ := device.drop_spec before
  obtain ⟨hnew, hdistinct⟩ := List.nodup_cons.mp howns.distinct
  have hstage : device.stage = .created := if_pos (howns.created device List.mem_cons_self)
  rw [hstage] at hmoves
  refine ⟨fun found hmem => howns.created found (List.mem_cons_of_mem _ hmem), hdistinct, ?_,
    ?_, ?_⟩
  · intro found hmem
    have hne : found.fd ≠ device.fd := fun hsame =>
      hnew (hsame ▸ List.mem_map_of_mem hmem)
    rw [herased, List.mem_erase_of_ne hne]
    exact howns.live found (List.mem_cons_of_mem _ hmem)
  · intro fd hmem
    rw [hmoves.statusOf_other fun hsame => hnew (hsame ▸ hmem)]
    exact howns.up fd (List.mem_cons_of_mem _ hmem)
  · intro fd hmem
    by_cases hsame : fd = device.fd
    · rw [hsame]
      exact hmoves.statusOf (howns.up _ List.mem_cons_self)
    · rw [hmoves.statusOf_other hsame]
      refine howns.closed fd ?_
      rw [List.map_cons, List.mem_cons, not_or]
      exact ⟨hsame, hmem⟩

theorem perm (howns : Owns devices before) {others : List VirtualDevice}
    (hperm : devices.Perm others) : Owns others before := by
  have hfds := hperm.map VirtualDevice.fd
  exact ⟨fun device hmem => howns.created device (hperm.mem_iff.mpr hmem),
    hfds.nodup_iff.mp howns.distinct, fun device hmem => howns.live device (hperm.mem_iff.mpr hmem),
    fun fd hmem => howns.up fd (hfds.mem_iff.mpr hmem),
    fun fd hmem => howns.closed fd fun hin => hmem (hfds.mem_iff.mp hin)⟩

/-- A failed construction changes nothing, and a successful one adds its device. -/
theorem withBackend (howns : Owns devices before) (path : String) (kind : VirtualKind) :
    (∃ error after, VirtualDevice.withBackend path kind before = (.error error, after) ∧
      Owns devices after) ∨
    ∃ out after, VirtualDevice.withBackend path kind before = (.ok out, after) ∧
      Owns (out :: devices) after := by
  rcases VirtualDevice.withBackend_spec path kind before with
    ⟨error, after, hfails, htrace, hlive⟩ | ⟨error, after, fd, hfails, hfresh, hmoves, hlive⟩ |
    ⟨out, after, hmade, hcreated, hfresh, hmoves, hlive⟩
  · have hsame : ∀ fd, statusOf after fd = statusOf before fd := by
      intro fd
      rw [statusOf, htrace, on, List.filter_append,
        List.filter_cons_of_neg (by simp [BackendEvent.fd]), List.filter_nil, List.append_nil]
      rfl
    exact Or.inl ⟨error, after, hfails, howns.same hsame hlive⟩
  · have hclosed := howns.closed fd (howns.fresh hfresh)
    exact Or.inl ⟨error, after, hfails, howns.stay hclosed hmoves hlive⟩
  · exact Or.inr ⟨out, after, hmade, howns.gain hcreated hfresh hmoves hlive⟩

end Owns

/-- A program that leaves the devices that are up as they are. -/
def Preserves (devices : List VirtualDevice) (program : Calls α) : Prop :=
  ∀ backend, Owns devices backend → Owns devices (program backend).2

namespace Preserves

variable {devices : List VirtualDevice} {device : VirtualDevice}

theorem bind {program : Calls α} {rest : α → Calls β} (hprogram : Preserves devices program)
    (hrest : ∀ value, Preserves devices (rest value)) :
    Preserves devices (program >>= rest) := by
  intro backend howns
  have hmiddle := hprogram backend howns
  rw [bind_apply]
  rcases hresult : program backend with ⟨error | value, middle⟩ <;> rw [hresult] at hmiddle
  · exact hmiddle
  · exact hrest value middle hmiddle

theorem forM {program : α → Calls Unit} (hprogram : ∀ value, Preserves devices (program value))
    (values : List α) : Preserves devices (values.forM program) := by
  induction values with
  | nil => exact fun _ => id
  | cons value rest ih => exact (hprogram value).bind fun _ => ih

theorem use (hmem : device ∈ devices) (call : VirtualDevice.Use) :
    Preserves devices (device.use call) := by
  intro backend howns
  obtain ⟨hmoves, hlive⟩ := device.keeps_use call backend
  have hstage : device.stage = .created := if_pos (howns.created device hmem)
  rw [hstage] at hmoves
  exact howns.stay (howns.up _ (List.mem_map_of_mem hmem)) hmoves hlive

theorem uses (hmem : device ∈ devices) (calls : List VirtualDevice.Use) {backend : Backend}
    (howns : Owns devices backend) :
    Owns devices (calls.foldl (fun backend call => (device.use call backend).2) backend) := by
  induction calls generalizing backend with
  | nil => exact howns
  | cons call rest ih => exact ih (use hmem call backend howns)

end Preserves

/-- Every call is part of a whole life of its descriptor. -/
def TornDown (backend : Backend) : Prop :=
  ∀ fd, ∃ lives : List (List BackendEvent), (∀ life ∈ lives, Life fd life) ∧
    on BackendEvent.fd fd backend.trace = lives.flatten

theorem Owns.shows {devices : List VirtualDevice} {backend : Backend}
    (howns : Owns devices backend) (fd : Nat) :
    Shows fd (if fd ∈ devices.map VirtualDevice.fd then .created else .closed)
      (on BackendEvent.fd fd backend.trace) := by
  refine shows_of_follow (fun event hmem => key_of_mem_on hmem) ?_
  split
  · next hmem => exact howns.up fd hmem
  · next hmem => exact howns.closed fd hmem

theorem Owns.tornDown {backend : Backend} (howns : Owns [] backend) : TornDown backend := by
  intro fd
  obtain ⟨lives, current, hlives, hbegun, hevents⟩ := howns.shows fd
  cases hbegun
  exact ⟨lives, hlives, hevents.trans (List.append_nil _)⟩

theorem owns_start (replies : List (Except OsError Nat)) (live : List Nat) :
    Owns [] ⟨replies, live, []⟩ :=
  ⟨fun _ hmem => absurd hmem List.not_mem_nil, List.nodup_nil,
    fun _ hmem => absurd hmem List.not_mem_nil, fun _ hmem => absurd hmem List.not_mem_nil,
    fun _ _ => rfl⟩

theorem VirtualDevice.lifetime_tornDown (path : String) (kind : VirtualKind)
    (uses : List Use) {backend : Backend} (howns : Owns [] backend) :
    TornDown (lifetime path kind uses backend) := by
  unfold lifetime
  rcases howns.withBackend path kind with ⟨error, after, hfails, hafter⟩ |
    ⟨out, after, hmade, hafter⟩
  · rw [hfails]
    exact hafter.tornDown
  · rw [hmade]
    exact (Preserves.uses List.mem_cons_self uses hafter).drop.tornDown

namespace OutputPair

variable {pair : OutputPair} {profile : Profile} {config : Config} {outputsEnabled : Bool}

/-- The outputs that are there, in the order they go away. -/
def devices (pair : OutputPair) : List VirtualDevice :=
  pair.gamepad.toList ++ pair.desktop.toList

/-- Both outputs are as the profile needs them. -/
def Complete (profile : Profile) (config : Config) (outputsEnabled : Bool)
    (pair : OutputPair) : Prop :=
  pair.gamepad.isSome = (outputsEnabled && needsGamepad profile config) ∧
    pair.desktop.isSome = (outputsEnabled && needsDesktop profile config)

/-- One output is made where it is needed, beside those that are up. -/
theorem createOutput_spec {devices : List VirtualDevice} {before : Backend}
    (howns : Owns devices before) (needed : Bool) (kind : VirtualKind) :
    (∃ error after, createOutput needed kind before = (.error error, after) ∧
      Owns devices after) ∨
    ∃ output after, createOutput needed kind before = (.ok output, after) ∧
      output.isSome = needed ∧ Owns (output.toList ++ devices) after := by
  unfold createOutput
  cases needed with
  | false => exact Or.inr ⟨.none, before, rfl, rfl, howns⟩
  | true =>
      rw [if_pos rfl, bind_apply]
      rcases howns.withBackend uinputPath kind with ⟨error, after, hfails, hafter⟩ |
        ⟨out, after, hmade, hafter⟩
      · rw [hfails]
        exact Or.inl ⟨error, after, rfl, hafter⟩
      · rw [hmade]
        exact Or.inr ⟨some out, after, rfl, rfl, hafter⟩

theorem owning_apply (output : Option VirtualDevice) (program : Calls α) (backend : Backend) :
    owning output program backend =
      match program backend with
      | (.error error, backend) => (.error error, dropOutput output backend)
      | (.ok value, backend) => (.ok value, backend) := by
  cases output with
  | some device => rfl
  | none =>
      change program backend = _
      rcases program backend with ⟨_ | _, _⟩ <;> rfl

theorem dropOutput_owns {output : Option VirtualDevice} {devices : List VirtualDevice}
    {before : Backend} (howns : Owns (output.toList ++ devices) before) :
    Owns devices (dropOutput output before) := by
  cases output with
  | none => exact howns
  | some device => exact howns.drop

/-- The outputs are made together, or none of them is left. -/
theorem createOutputs_spec {before : Backend} (howns : Owns [] before) (profile : Profile)
    (config : Config) (outputsEnabled : Bool) :
    (∃ error after, createOutputs profile config outputsEnabled before =
      (.error error, after) ∧ Owns [] after) ∨
    ∃ pair after, createOutputs profile config outputsEnabled before = (.ok pair, after) ∧
      Complete profile config outputsEnabled pair ∧ Owns pair.devices after := by
  unfold createOutputs
  cases outputsEnabled with
  | false => exact Or.inr ⟨none, before, rfl, ⟨rfl, rfl⟩, howns⟩
  | true =>
      rw [if_neg (by simp), bind_apply]
      rcases createOutput_spec howns (needsGamepad profile config) .controller with
        ⟨error, after, hfails, hafter⟩ | ⟨gamepad, after, hmade, hneeded, hafter⟩
      · rw [hfails]
        exact Or.inl ⟨error, after, rfl, hafter⟩
      · rw [hmade]
        simp only
        rw [owning_apply, bind_apply]
        rcases createOutput_spec hafter (needsDesktop profile config) .desktop with
          ⟨error, last, hfails, hlast⟩ | ⟨desktop, last, hmade', hneeded', hlast⟩
        · rw [hfails]
          exact Or.inl ⟨error, _, rfl, dropOutput_owns hlast⟩
        · rw [hmade']
          refine Or.inr ⟨⟨gamepad, desktop⟩, last, rfl, ⟨hneeded, hneeded'⟩, hlast.perm ?_⟩
          rw [List.append_nil]
          exact List.perm_append_comm

/-- One output of the bridge model: what the backend answers is its one answer. -/
theorem createOutput_refines (needed : Bool) (kind : VirtualKind) (backend : Backend) :
    ∃ answer, (createOutput needed kind backend).1.map Option.isSome =
      Daemon.createOutput needed answer := by
  unfold createOutput
  cases needed with
  | false => exact ⟨.none, rfl⟩
  | true =>
      rw [if_pos rfl, bind_apply]
      rcases VirtualDevice.withBackend uinputPath kind backend with ⟨error | out, after⟩
      · exact ⟨some error, rfl⟩
      · exact ⟨.none, rfl⟩

/-- The bridge model's outputs are those of the backend, each output there or not. -/
theorem createOutputs_refines (profile : Profile) (config : Config) (outputsEnabled : Bool)
    (backend : Backend) : ∃ create,
    (createOutputs profile config outputsEnabled backend).1.map
        (fun pair => (pair.gamepad.isSome, pair.desktop.isSome)) =
      Daemon.createOutputs profile config outputsEnabled create := by
  unfold createOutputs Daemon.createOutputs
  cases outputsEnabled with
  | false => exact ⟨fun _ => .none, rfl⟩
  | true =>
      rw [if_neg (by simp), bind_apply]
      obtain ⟨answer, hgamepad⟩ :=
        createOutput_refines (needsGamepad profile config) .controller backend
      rcases hfirst : createOutput (needsGamepad profile config) .controller backend with
        ⟨error | gamepad, after⟩ <;> rw [hfirst] at hgamepad
      · refine ⟨fun _ => answer, ?_⟩
        rw [← hgamepad]
        rfl
      · obtain ⟨answer', hdesktop⟩ :=
          createOutput_refines (needsDesktop profile config) .desktop after
        refine ⟨fun target => if target = .gamepad then answer else answer', ?_⟩
        change _ = Daemon.createOutput (needsGamepad profile config) answer >>= fun gamepad =>
          Daemon.createOutput (needsDesktop profile config) answer' >>= fun desktop =>
            pure (gamepad, desktop)
        rw [← hgamepad, ← hdesktop]
        simp only
        rw [owning_apply, bind_apply]
        rcases createOutput (needsDesktop profile config) .desktop after with ⟨_ | _, _⟩ <;> rfl

theorem preserves_emitActions (pair : OutputPair) (outputsEnabled : Bool)
    (actions : List OutputAction) :
    Preserves pair.devices (pair.emitActions outputsEnabled actions) := by
  unfold emitActions
  split
  · exact fun _ => id
  · refine Preserves.forM (fun action => ?_) actions
    unfold emitAction
    cases houtput : pair.get (actionTarget action) with
    | none => exact fun _ => id
    | some device =>
        have hmem : device ∈ pair.devices := by
          rw [devices, List.mem_append, Option.mem_toList, Option.mem_toList]
          cases hdevice : actionTarget action <;> rw [hdevice] at houtput
          · exact Or.inl houtput
          · exact Or.inr houtput
        cases action with
        | key target code value => exact Preserves.use hmem (.key code value)
        | abs target code value => exact Preserves.use hmem (.abs code value)
        | rel target code value => exact Preserves.use hmem (.rel code value)
        | sync target => exact Preserves.use hmem .syn

theorem drop_owns {before : Backend} (howns : Owns pair.devices before) :
    Owns [] (pair.drop before) := by
  have hdesktop : Owns pair.desktop.toList (dropOutput pair.gamepad before) :=
    dropOutput_owns howns
  refine dropOutput_owns ?_
  rw [List.append_nil]
  exact hdesktop

/-- A bridge owns what it holds, and holds all of what it needs or nothing. -/
structure Holds (profile : Profile) (config : Config) (outputsEnabled : Bool)
    (state : OutputPair × Backend) : Prop where
  owns : Owns state.1.devices state.2
  whole : state.1 = none ∨ state.1.Complete profile config outputsEnabled

theorem Holds.call {state : OutputPair × Backend}
    (hholds : Holds profile config outputsEnabled state) (call : OutputCall) :
    Holds profile config outputsEnabled
      (OutputPair.call profile config outputsEnabled state call) := by
  cases call with
  | process actions =>
      exact ⟨preserves_emitActions state.1 outputsEnabled actions state.2 hholds.owns,
        hholds.whole⟩
  | recreate =>
      have hdropped := drop_owns hholds.owns
      change Holds _ _ _ (state.1.recreate profile config outputsEnabled state.2)
      unfold recreate
      rcases createOutputs_spec hdropped profile config outputsEnabled with
        ⟨error, after, hfails, hafter⟩ | ⟨pair, after, hmade, hcomplete, hafter⟩
      · rw [hfails]
        exact ⟨hafter, Or.inl rfl⟩
      · rw [hmade]
        exact ⟨hafter, Or.inr hcomplete⟩

theorem Holds.foldl {state : OutputPair × Backend}
    (hholds : Holds profile config outputsEnabled state) (calls : List OutputCall) :
    Holds profile config outputsEnabled
      (calls.foldl (OutputPair.call profile config outputsEnabled) state) := by
  induction calls generalizing state with
  | nil => exact hholds
  | cons call rest ih => exact ih (hholds.call call)

end OutputPair

/-- Whatever the system answers: a virtual device is torn down once, whatever is done
with it; a pair of outputs is made whole or torn down; and a bridge that emits, loses its
interfaces and goes away holds whole outputs or none, and leaves nothing behind. -/
theorem outputs_torn_down (replies : List (Except OsError Nat)) (live : List Nat) :
    (∀ path kind uses,
      TornDown (VirtualDevice.lifetime path kind uses ⟨replies, live, []⟩)) ∧
    ∀ profile config outputsEnabled,
      match OutputPair.createOutputs profile config outputsEnabled ⟨replies, live, []⟩ with
      | (.error _, after) => TornDown after
      | (.ok pair, after) =>
          ∀ calls : List OutputPair.OutputCall,
            let state :=
              calls.foldl (OutputPair.call profile config outputsEnabled) (pair, after)
            (∀ fd, Shows fd
              (if fd ∈ state.1.devices.map VirtualDevice.fd then .created else .closed)
              (on BackendEvent.fd fd state.2.trace)) ∧
            (state.1 = .none ∨ state.1.Complete profile config outputsEnabled) ∧
            TornDown (state.1.drop state.2) := by
  have hstart := owns_start replies live
  refine ⟨fun path kind uses => VirtualDevice.lifetime_tornDown path kind uses hstart,
    fun profile config outputsEnabled => ?_⟩
  rcases OutputPair.createOutputs_spec hstart profile config outputsEnabled with
    ⟨error, after, hfails, hafter⟩ | ⟨pair, after, hmade, hcomplete, hafter⟩
  · rw [hfails]
    exact hafter.tornDown
  · rw [hmade]
    intro calls
    have hholds := OutputPair.Holds.foldl
      (⟨hafter, Or.inr hcomplete⟩ : OutputPair.Holds profile config outputsEnabled (pair, after))
      calls
    exact ⟨hholds.owns.shows, hholds.whole, (OutputPair.drop_owns hholds.owns).tornDown⟩

end Uinput

end Daemon

end Wiiland
