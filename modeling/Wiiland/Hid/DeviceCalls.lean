/-
What the calls of a controller do to it.  Looking up nodes only closes inputs, a
dispatch opens none, and a controller that is gone stays empty.
-/
import Wiiland.Hid.DeviceState

namespace Wiiland

namespace Hid

namespace Device

/-- The mask of the interface that a decoder reads. -/
def kindMask : InterfaceKind → InterfaceMask
  | .core => .core
  | .accel => .accel
  | .ir => .ir
  | .motionPlus => .motionPlus
  | .nunchuk => .nunchuk
  | .classic => .classicController
  | .balanceBoard => .balanceBoard
  | .pro => .proController
  | .drums => .drums
  | .guitar => .guitar

theorem kindMask_kindOf (i : Fin 10) : kindMask (kindOf i) = ifBit i := by
  revert i
  decide

/-- An event tells the interface that it comes from. -/
def From (kind : InterfaceKind) (event : Event) : Prop :=
  event.kind.interface = some (kindMask kind)

theorem report_from {decoder : Decoder} {time : Timeval} {event : Event}
    (hreport : (decoder.report time).1 = some event) : From decoder.interface event := by
  rcases decoder with ⟨interface, cache, recovery, motionPlus⟩
  cases interface <;> cases hreport <;> rfl

theorem decodeKey_from {decoder : Decoder} {input : InputEvent} {event : Event}
    (hdecode : decoder.decodeKey input = some event) : From decoder.interface event := by
  rcases decoder with ⟨interface, cache, recovery, motionPlus⟩
  rw [Decoder.decodeKey] at hdecode
  obtain ⟨button, _, hdecode⟩ := Option.bind_eq_some_iff.mp hdecode
  obtain ⟨state, _, hdecode⟩ := Option.bind_eq_some_iff.mp hdecode
  obtain ⟨kind, hkind, hdecode⟩ := Option.bind_eq_some_iff.mp hdecode
  cases interface <;> cases hkind <;> cases hdecode <;> rfl

theorem push_from {decoder : Decoder} {input : InputEvent} {event : Event}
    (hpush : (decoder.push input).1 = some event) : From decoder.interface event := by
  unfold Decoder.push at hpush
  split at hpush
  · cases hpush
  · split at hpush
    · cases hpush
    · split at hpush
      · exact @decodeKey_from { decoder with recovery := decoder.recovery.remember input }
          input event hpush
      · split at hpush
        · cases hpush
        · split at hpush
          · exact report_from hpush
          · cases hpush

theorem pushRecovered_from {decoder : Decoder} {event : Event}
    (hpush : decoder.pushRecovered.1 = some event) : From decoder.interface event := by
  rcases Decoder.pushRecovered_cases decoder with ⟨code, _, _, hstep⟩ | ⟨_, hstep⟩
  · rw [hstep] at hpush
    exact decodeKey_from hpush
  · rw [hstep] at hpush
    split at hpush
    · have hfrom := report_from hpush
      exact hfrom
    · cases hpush

theorem takeRecovered_from (decoder : Decoder) {event : Event} :
    decoder.takeRecovered.1 = some event → From decoder.interface event := by
  fun_induction Decoder.takeRecovered decoder with
  | case1 decoder hpending taken next hstep =>
      intro htaken
      apply pushRecovered_from
      rw [hstep]
      exact htaken
  | case2 decoder hpending next hstep ih =>
      intro htaken
      have hsame := (Decoder.sameKeys_pushRecovered decoder).interface
      rw [hstep] at hsame
      have hfrom := ih htaken
      rwa [hsame] at hfrom
  | case3 decoder hidle =>
      intro htaken
      cases htaken

namespace Interface

/-- The inputs still open are as they were. -/
def Closes (iface next : Interface) : Prop :=
  ∀ i, 0 ≤ (next.inputs i).fd →
    (next.inputs i).fd = (iface.inputs i).fd ∧ (next.inputs i).node = (iface.inputs i).node ∧
      (next.inputs i).decoder = (iface.inputs i).decoder ∧
      (next.inputs i).awaitingSync = (iface.inputs i).awaitingSync

theorem Closes.refl (iface : Interface) : Closes iface iface := fun _ _ => ⟨rfl, rfl, rfl, rfl⟩

theorem Closes.trans {first middle last : Interface} (hfirst : Closes first middle)
    (hsecond : Closes middle last) : Closes first last := by
  intro i hopen
  obtain ⟨hfd, hnode, hdecoder, hsync⟩ := hsecond i hopen
  obtain ⟨hfd', hnode', hdecoder', hsync'⟩ := hfirst i (hfd ▸ hopen)
  exact ⟨hfd.trans hfd', hnode.trans hnode', hdecoder.trans hdecoder', hsync.trans hsync'⟩

theorem closes_close (iface : Interface) (ifaces : InterfaceMask) :
    Closes iface (iface.close ifaces) := by
  intro i hopen
  rw [close_open hopen]
  exact ⟨rfl, rfl, rfl, rfl⟩

theorem closes_refresh (iface : Interface) (scan : Except Int (List UdevEntry)) :
    Closes iface (iface.refresh scan).2 := by
  rcases refresh_cases iface scan with ⟨errno, hfailed⟩ |
      ⟨nodes, next, _, hrefresh, hinputs, _, _⟩
  · rw [hfailed]
    exact Closes.refl iface
  · rw [hrefresh]
    intro i hopen
    rw [hinputs i] at hopen ⊢
    obtain ⟨_, _, hnode, hsame⟩ := refreshed_open hopen
    rw [hsame]
    exact ⟨rfl, hnode.symm, rfl, rfl⟩

/-- Nothing is left to recover at any input. -/
def Idle (iface : Interface) : Prop :=
  ∀ i, (iface.inputs i).decoder.recovery.hasPending = false

theorem recoveryPending_eq_false (iface : Interface) :
    iface.recoveryPending = false ↔ iface.Idle := by
  rw [recoveryPending, List.any_eq_false]
  simp [Idle]

theorem Closes.idle {iface next : Interface} (hcloses : Closes iface next)
    (hsound : next.Sound) (hidle : iface.Idle) : next.Idle := by
  intro i
  by_cases hopen : 0 ≤ (next.inputs i).fd
  · rw [(hcloses i hopen).2.2.1]
    exact hidle i
  · exact (hsound.kept i).idle (Int.not_le.mp hopen)

/-- An open input belongs to a controller that is still there. -/
theorem Sound.here {iface : Interface} (hsound : iface.Sound) {i : Fin 10}
    (hopen : 0 ≤ (iface.inputs i).fd) : iface.gone = false := by
  rw [← Bool.not_eq_true]
  intro hgone
  have havailable := (hsound.kept i).available hopen
  rw [hsound.available, hsound.gone hgone, InterfaceMask.has_empty] at havailable
  exact Bool.false_ne_true havailable

/-- All inputs of a controller that is gone are closed. -/
theorem Sound.closed {iface : Interface} (hsound : iface.Sound) (hgone : iface.gone = true)
    (i : Fin 10) : (iface.inputs i).fd < 0 := by
  by_contra hopen
  exact Bool.false_ne_true ((hsound.here (Int.not_lt.mp hopen)).symm.trans hgone)

theorem leave_closed (iface : Interface) (i : Fin 10) : (iface.leave.inputs i).fd < 0 := by
  change ((({ iface with gone := true, nodes.available := .empty } : Interface).close
    .all).inputs i).fd < 0
  rw [close_inputs]
  split
  · exact InputInterface.close_fd _
  · rename_i hkeep
    rw [not_and, Int.not_le] at hkeep
    exact hkeep (all_has i)

theorem leave_gone (iface : Interface) : iface.leave.gone = true :=
  (close_rest { iface with gone := true, nodes.available := .empty } .all).gone

theorem Sound.leave {iface : Interface} (hsound : iface.Sound) : iface.leave.Sound := by
  have hrest := close_rest { iface with gone := true, nodes.available := .empty } .all
  have hkept : ∀ i, (iface.leave.inputs i).Kept i := by
    intro i
    have hinput := close_inputs { iface with gone := true, nodes.available := .empty } .all i
    have hclosed : (({ iface with gone := true, nodes.available := .empty } : Interface).close
        .all).inputs i = if 0 ≤ (iface.inputs i).fd then (iface.inputs i).close
          else iface.inputs i := by
      rw [hinput]
      simp [all_has]
    have hbase : ((({ iface with gone := true, nodes.available := .empty } : Interface).close
        .all).inputs i).Kept i := by
      rw [hclosed]
      split
      · exact (hsound.kept i).close
      · exact hsound.kept i
    exact ⟨hbase.interface, hbase.consistent, hbase.idle,
      fun hopen => absurd (leave_closed iface i) (Int.not_lt.mpr hopen), hbase.synced⟩
  have hempty : iface.leave.nodes.available = .empty := congrArg Nodes.available hrest.nodes
  refine ⟨hkept, fun i => ?_, fun i => rfl, fun i hhas => ?_, ?_, fun _ => hempty⟩
  · rw [hempty, InterfaceMask.has_empty]
    rfl
  · rw [hempty, InterfaceMask.has_empty] at hhas
    exact absurd hhas Bool.false_ne_true
  · exact @close_motor { iface with gone := true, nodes.available := .empty } hsound.motor .all

theorem closes_leave (iface : Interface) : Closes iface iface.leave :=
  fun i hopen => absurd (leave_closed iface i) (Int.not_lt.mpr hopen)

/-- What a lookup of nodes leaves; a controller that is gone is not looked up. -/
structure Looked (iface next : Interface) : Prop where
  sound : next.Sound
  closes : Closes iface next
  still : iface.gone = true → next = iface
  syspath : next.syspath = iface.syspath
  monitor : next.monitor = iface.monitor
  wake : next.wake = iface.wake
  nextInput : next.nextInput = iface.nextInput

theorem Looked.refl {iface : Interface} (hsound : iface.Sound) : Looked iface iface :=
  ⟨hsound, Closes.refl iface, fun _ => rfl, rfl, rfl, rfl, rfl⟩

theorem Looked.trans {first middle last : Interface} (hfirst : Looked first middle)
    (hsecond : Looked middle last) : Looked first last where
  sound := hsecond.sound
  closes := hfirst.closes.trans hsecond.closes
  still := fun hgone => by
    have hsame := hfirst.still hgone
    rw [hsecond.still (hsame ▸ hgone), hsame]
  syspath := hsecond.syspath.trans hfirst.syspath
  monitor := hsecond.monitor.trans hfirst.monitor
  wake := hsecond.wake.trans hfirst.wake
  nextInput := hsecond.nextInput.trans hfirst.nextInput

theorem looked_refresh {iface : Interface} (hsound : iface.Sound) (hhere : iface.gone = false)
    (scan : Except Int (List UdevEntry)) :
    Looked iface (iface.refresh scan).2 ∧ (iface.refresh scan).2.gone = false := by
  have hnext := hsound.refresh hhere scan
  have hcloses := closes_refresh iface scan
  have hstill : iface.gone = true → (iface.refresh scan).2 = iface :=
    fun hgone => absurd (hhere.symm.trans hgone) Bool.false_ne_true
  rcases refresh_cases iface scan with ⟨errno, hfailed⟩ |
      ⟨nodes, next, _, hrefresh, _, hrest, _⟩
  · rw [hfailed]
    exact ⟨Looked.refl hsound, hhere⟩
  · rw [hrefresh] at hnext hcloses hstill ⊢
    exact ⟨⟨hnext, hcloses, hstill, hrest.syspath, hrest.monitor, hrest.wake,
      hrest.nextInput⟩, hrest.gone.trans hhere⟩

theorem looked_leave {iface : Interface} (hsound : iface.Sound) (hhere : iface.gone = false) :
    Looked iface iface.leave := by
  have hrest := close_rest { iface with gone := true, nodes.available := .empty } .all
  exact ⟨hsound.leave, closes_leave iface,
    fun hgone => absurd (hhere.symm.trans hgone) Bool.false_ne_true, hrest.syspath,
    hrest.monitor, hrest.wake, hrest.nextInput⟩

/-- What comes of a lookup: `Gone` exactly when the controller leaves. -/
inductive Noticed (before after : Bool) : Except Int (Option Event) → Prop
  | none (hsame : after = before) : Noticed before after (.ok none)
  | failed (errno : Int) (hsame : after = before) : Noticed before after (.error errno)
  | watch (hbefore : before = false) (hafter : after = false) :
      Noticed before after (.ok (some (lifecycleEvent .watch)))
  | gone (hbefore : before = false) (hafter : after = true) :
      Noticed before after (.ok (some (lifecycleEvent .gone)))

theorem monitorEvents_gone {iface : Interface} (hgone : iface.gone = true)
    (received : List UdevEvent) : iface.monitorEvents received = (.ok none, iface) := by
  induction received with
  | nil => rfl
  | cons event rest ih =>
      rw [monitorEvents]
      split
      · exact ih
      · split
        · exact ih
        · rw [if_pos (by rw [hgone]; rfl), ih]

theorem monitorEvents_looked {iface : Interface} (hsound : iface.Sound)
    (received : List UdevEvent) :
    Looked iface (iface.monitorEvents received).2 ∧
      Noticed iface.gone (iface.monitorEvents received).2.gone
        (iface.monitorEvents received).1 := by
  cases hgone : iface.gone with
  | true =>
      rw [monitorEvents_gone hgone]
      exact ⟨Looked.refl hsound, .none hgone⟩
  | false =>
      induction received generalizing iface with
      | nil => exact ⟨Looked.refl hsound, .none hgone⟩
      | cons event rest ih =>
          rw [monitorEvents]
          split
          · rw [if_neg (by rw [hgone]; exact Bool.false_ne_true)]
            exact ⟨looked_leave hsound hgone, .gone rfl (leave_gone iface)⟩
          · split
            · exact ih hsound hgone
            · split
              · exact ih hsound hgone
              · obtain ⟨hlooked, hhere⟩ := looked_refresh hsound hgone event.scan
                rcases hrefresh : iface.refresh event.scan with ⟨errno | _, next⟩
                · rw [hrefresh] at hlooked hhere
                  exact ⟨hlooked, .failed errno hhere⟩
                · rw [hrefresh] at hlooked hhere
                  simp only at hlooked hhere ⊢
                  split
                  · obtain ⟨hmore, hnoticed⟩ := ih hlooked.sound hhere
                    exact ⟨hlooked.trans hmore, hnoticed⟩
                  · exact ⟨hlooked, .watch rfl hhere⟩

theorem monitorEpollEvent_looked {iface : Interface} (hsound : iface.Sound)
    (ep : EpollEvent) :
    Looked iface (iface.monitorEpollEvent ep).2 ∧
      Noticed iface.gone (iface.monitorEpollEvent ep).2.gone
        (iface.monitorEpollEvent ep).1 := by
  have hstill : Looked iface iface ∧ Noticed iface.gone iface.gone (.ok none) :=
    ⟨Looked.refl hsound, .none rfl⟩
  have hreceived : ∀ {result next}, (if ep.readable then iface.monitorEvent ep.received
      else (.ok none, iface)) = (result, next) →
      Looked iface next ∧ Noticed iface.gone next.gone result := by
    intro result next heq
    split at heq
    · rw [monitorEvent] at heq
      split at heq
      · have hlooked := monitorEvents_looked hsound ep.received
        rw [heq] at hlooked
        exact hlooked
      · cases heq
        exact hstill
    · cases heq
      exact hstill
  rw [monitorEpollEvent]
  rcases hresult : (if ep.readable then iface.monitorEvent ep.received
      else (.ok none, iface)) with ⟨errno | _ | event, next⟩
  · obtain ⟨hlooked, hnoticed⟩ := hreceived hresult
    exact ⟨hlooked, hnoticed⟩
  · obtain ⟨hlooked, hnoticed⟩ := hreceived hresult
    refine ⟨hlooked, ?_⟩
    cases hnoticed with
    | none hsame =>
        simp only
        split
        · exact .failed _ hsame
        · exact .none hsame
  · obtain ⟨hlooked, hnoticed⟩ := hreceived hresult
    exact ⟨hlooked, hnoticed⟩

end Interface

/-- What reading one event of an open input comes to. -/
inductive InputInterface.Read (input : InputInterface) :
    Option Event → InputInterface → Prop
  | ignored (hawaiting : input.awaitingSync = true) : Read input none input
  | recovered (keys : List (BitVec 64)) (abs : List (Nat × Int)) (time : Timeval)
      (hawaiting : input.awaitingSync = true) :
      Read input
        { input with
          decoder := input.decoder.recover keys abs time, awaitingSync := false }.takeRecovered.1
        { input with
          decoder := input.decoder.recover keys abs time, awaitingSync := false }.takeRecovered.2
  | dropped (event : InputEvent) (hsynced : input.awaitingSync = false)
      (hdrop : event.eventType = evSyn ∧ event.code = synDropped) :
      Read input none { (input.push event).2 with awaitingSync := true }
  | pushed (event : InputEvent) (hsynced : input.awaitingSync = false)
      (hevent : ¬(event.eventType = evSyn ∧ event.code = synDropped)) :
      Read input (input.push event).1 (input.push event).2

theorem InputInterface.Read.same {input next : InputInterface} {event : Option Event}
    (hread : input.Read event next) :
    next.fd = input.fd ∧ next.node = input.node ∧ next.available = input.available := by
  cases hread <;> exact ⟨rfl, rfl, rfl⟩

theorem InputInterface.Read.kept {i : Fin 10} {input next : InputInterface}
    {event : Option Event} (hread : input.Read event next) (hkept : input.Kept i)
    (hopen : 0 ≤ input.fd) : next.Kept i := by
  have hnotClosed : ¬input.fd < 0 := Int.not_lt.mpr hopen
  have hpush : ∀ event, (input.push event).2.decoder.interface = kindOf i ∧
      (input.push event).2.decoder.recovery.Consistent := fun event =>
    ⟨(push_kept input.decoder event).1.trans hkept.interface,
      (push_kept input.decoder event).2.2 hkept.consistent⟩
  cases hread with
  | ignored => exact hkept
  | recovered keys abs time hawaiting =>
      have hrecovered : InputInterface.Kept i { input with
          decoder := input.decoder.recover keys abs time, awaitingSync := false } := by
        refine ⟨?_, ?_, fun hclosed => absurd hclosed hnotClosed, hkept.available, ?_⟩
        · exact (Decoder.recover_interface ..).trans hkept.interface
        · rw [Decoder.recover_recovery]
          exact RecoveryState.seed_consistent _ _ _ _
        · rw [Decoder.recover_recovery]
          rfl
      exact hrecovered.takeRecovered
  | dropped event hsynced hdrop =>
      refine ⟨(hpush event).1, (hpush event).2, fun hclosed => absurd hclosed hnotClosed,
        hkept.available, ?_⟩
      exact ((push_desynced input.decoder event).trans (by rw [decide_eq_true hdrop,
        Bool.or_true])).symm
  | pushed event hsynced hevent =>
      refine ⟨(hpush event).1, (hpush event).2, fun hclosed => absurd hclosed hnotClosed,
        hkept.available, ?_⟩
      have hkeeps := push_desynced input.decoder event
      rw [decide_eq_false hevent, Bool.or_false] at hkeeps
      exact hkept.synced.trans hkeeps.symm

theorem InputInterface.Read.from {i : Fin 10} {input next : InputInterface} {event : Event}
    (hread : input.Read (some event) next) (hkept : input.Kept i) : From (kindOf i) event := by
  rw [← hkept.interface]
  generalize hsome : some event = result at hread
  cases hread with
  | ignored => cases hsome
  | recovered keys abs time hawaiting =>
      have hfrom := takeRecovered_from _ hsome.symm
      rwa [Decoder.recover_interface] at hfrom
  | dropped => cases hsome
  | pushed event hsynced hevent => exact push_from hsome.symm

/-- A read that makes no event leaves an input without anything to recover so. -/
theorem InputInterface.Read.idle {input next : InputInterface}
    (hread : input.Read none next) (hidle : input.decoder.recovery.hasPending = false) :
    next.decoder.recovery.hasPending = false := by
  generalize hnone : (none : Option Event) = event at hread
  cases hread with
  | ignored => exact hidle
  | recovered keys abs time hawaiting =>
      exact Decoder.takeRecovered_none _ hnone.symm
  | dropped event hsynced hdrop => exact (push_kept input.decoder event).2.1.trans hidle
  | pushed event hsynced hevent => exact (push_kept input.decoder event).2.1.trans hidle

namespace Interface

theorem failureWatch_looked {iface : Interface} (hsound : iface.Sound) {i : Fin 10}
    (hopen : 0 ≤ (iface.inputs i).fd) (scan : Except Int (List UdevEntry)) :
    (iface.failureWatch i scan).1 = some (lifecycleEvent .watch) ∧
      Looked iface (iface.failureWatch i scan).2 ∧
      (iface.failureWatch i scan).2.gone = false := by
  have hhere := hsound.here hopen
  have hrest := close_rest iface (ifBit i)
  have hclosed : Looked iface (iface.close (ifBit i)) :=
    ⟨hsound.close _, closes_close iface _, fun h => absurd (hhere.symm.trans h) Bool.false_ne_true,
      hrest.syspath, hrest.monitor, hrest.wake, hrest.nextInput⟩
  obtain ⟨hlooked, hgone⟩ := looked_refresh (hsound.close (ifBit i))
    (hrest.gone.trans hhere) scan
  exact ⟨rfl, hclosed.trans hlooked, hgone⟩

/-- Reading an input finds nothing, reads an event of it, or finds it broken. -/
theorem readOne_cases {iface : Interface} (hsound : iface.Sound) (i : Fin 10)
    (ep : EpollEvent) :
    iface.readOne i ep = (none, iface) ∨
    0 ≤ (iface.inputs i).fd ∧
      ((∃ event input, (iface.inputs i).Read event input ∧
          iface.readOne i ep = (event, iface.setInput i input)) ∨
        ∃ next, iface.readOne i ep = (some (lifecycleEvent .watch), next) ∧
          Looked iface next ∧ iface.gone = false ∧ next.gone = false) := by
  unfold readOne
  split
  · exact Or.inl rfl
  · rename_i hclosed
    have hopen := Int.not_lt.mp hclosed
    have hfailed : ∃ next, iface.failureWatch i ep.scan =
        (some (lifecycleEvent .watch), next) ∧ Looked iface next ∧ iface.gone = false ∧
          next.gone = false := by
      obtain ⟨hwatch, hlooked, hgone⟩ := failureWatch_looked hsound hopen ep.scan
      exact ⟨_, Prod.ext hwatch rfl, hlooked, hsound.here hopen, hgone⟩
    split
    · rename_i event _
      unfold receive
      simp only
      cases hawaiting : (iface.inputs i).awaitingSync with
      | true =>
          rw [if_pos rfl]
          split
          · exact Or.inl rfl
          · split
            · exact Or.inr ⟨hopen, Or.inr hfailed⟩
            · exact Or.inr ⟨hopen, Or.inl ⟨_, _, .recovered _ _ _ hawaiting, rfl⟩⟩
      | false =>
          rw [if_neg Bool.false_ne_true]
          split
          · rename_i hdrop
            exact Or.inr ⟨hopen, Or.inl ⟨_, _, .dropped event hawaiting hdrop, rfl⟩⟩
          · rename_i hevent
            exact Or.inr ⟨hopen, Or.inl ⟨_, _, .pushed event hawaiting hevent, rfl⟩⟩
    · exact Or.inr ⟨hopen, Or.inr hfailed⟩
    · exact Or.inl rfl
    · exact Or.inl rfl

theorem Sound.read {iface : Interface} (hsound : iface.Sound) {i : Fin 10}
    (hopen : 0 ≤ (iface.inputs i).fd) {event : Option Event} {input : InputInterface}
    (hread : (iface.inputs i).Read event input) : (iface.setInput i input).Sound :=
  hsound.setInput (hread.kept (hsound.kept i) hopen) hread.same.2.2 hread.same.2.1
    fun _ => hread.same.1

theorem Sound.delivered {iface : Interface} (hsound : iface.Sound) (i : Fin 10) :
    (iface.delivered i).Sound := by
  rw [Interface.delivered, signalRecoveryIfPending]
  split <;>
    exact ⟨hsound.kept, hsound.available, hsound.node, hsound.nodes, hsound.motor, hsound.gone⟩

theorem delivered_inputs (iface : Interface) (i : Fin 10) :
    (iface.delivered i).inputs = iface.inputs := by
  rw [Interface.delivered, signalRecoveryIfPending]
  split <;> rfl

theorem delivered_gone (iface : Interface) (i : Fin 10) :
    (iface.delivered i).gone = iface.gone := by
  rw [Interface.delivered, signalRecoveryIfPending]
  split <;> rfl

/-- What has to be shown of a dispatch: its silent steps keep `Inv`, and every way to end
one makes `Post`.  Only recovered events are taken while something is left to recover. -/
structure Rule (Inv : Interface → Prop) (Post : Except Int Event → Interface → Prop) :
    Prop where
  drain : ∀ iface, Inv iface → Inv iface.drainRecoveryWake
  take : ∀ iface i, Inv iface → iface.Sound → (iface.inputs i).takeRecovered.1 = none →
    Inv (iface.setInput i (iface.inputs i).takeRecovered.2)
  taken : ∀ iface i event, Inv iface → iface.Sound →
    (iface.inputs i).takeRecovered.1 = some event →
    Post (.ok event) ((iface.setInput i (iface.inputs i).takeRecovered.2).delivered i)
  look : ∀ iface next, Inv iface → iface.Idle → Looked iface next →
    next.gone = iface.gone → Inv next
  read : ∀ iface i input, Inv iface → iface.Sound → iface.Idle → 0 ≤ (iface.inputs i).fd →
    (iface.inputs i).Read none input → Inv (iface.setInput i input)
  error : ∀ iface errno, Inv iface → iface.Sound → iface.Idle → Post (.error errno) iface
  notice : ∀ iface next event, Inv iface → iface.Idle → Looked iface next →
    Noticed iface.gone next.gone (.ok (some event)) → Post (.ok event) next
  broken : ∀ iface next i, Inv iface → iface.Idle → Looked iface next →
    iface.gone = false → next.gone = false →
    Post (.ok (lifecycleEvent .watch)) (next.delivered i)
  event : ∀ iface i event input, Inv iface → iface.Sound → iface.Idle →
    0 ≤ (iface.inputs i).fd → (iface.inputs i).Read (some event) input →
    Post (.ok event) ((iface.setInput i input).delivered i)

theorem Idle.setInput {iface : Interface} (hidle : iface.Idle) {i : Fin 10}
    {input : InputInterface} (hinput : input.decoder.recovery.hasPending = false) :
    (iface.setInput i input).Idle := by
  intro j
  by_cases hsame : j = i
  · subst hsame
    rw [setInput_self]
    exact hinput
  · rw [setInput_other _ hsame]
    exact hidle j

theorem Sound.takeRecovered {iface : Interface} (hsound : iface.Sound) (i : Fin 10) :
    (iface.setInput i (iface.inputs i).takeRecovered.2).Sound :=
  hsound.setInput (hsound.kept i).takeRecovered rfl rfl fun _ => rfl

theorem mem_slots (cursor : Nat) (i : Fin 10) :
    i ∈ (List.range 10).map fun offset => inputSlot (cursor + offset) := by
  refine List.mem_map.mpr ⟨(i.val + 10 - cursor % 10) % 10, ?_, ?_⟩
  · exact List.mem_range.mpr (Nat.mod_lt _ (by decide))
  · apply Fin.ext
    have hlt := i.isLt
    simp only [inputSlot]
    omega

section Rules

variable {Inv : Interface → Prop} {Post : Except Int Event → Interface → Prop}
  (hrule : Rule Inv Post)

include hrule

theorem serveReady_rule {iface : Interface} (hsound : iface.Sound) (hidle : iface.Idle)
    (hinv : Inv iface) (ready : List EpollEvent) :
    Post (iface.serveReady ready).1 (iface.serveReady ready).2 := by
  induction ready generalizing iface with
  | nil => exact hrule.error iface eagain hinv hsound hidle
  | cons ep rest ih =>
      rw [serveReady]
      split
      · obtain ⟨hlooked, hnoticed⟩ := monitorEpollEvent_looked hsound ep
        have hlook := hlooked.closes.idle hlooked.sound hidle
        rcases hmonitor : iface.monitorEpollEvent ep with ⟨errno | _ | event, next⟩
        · rw [hmonitor] at hlooked hnoticed hlook
          cases hnoticed with
          | failed _ hsame =>
              exact hrule.error next _ (hrule.look iface next hinv hidle hlooked hsame)
                hlooked.sound hlook
        · rw [hmonitor] at hlooked hnoticed hlook
          cases hnoticed with
          | none hsame =>
              exact ih hlooked.sound hlook (hrule.look iface next hinv hidle hlooked hsame)
        · rw [hmonitor] at hlooked hnoticed
          exact hrule.notice iface next event hinv hidle hlooked hnoticed
      · split
        · exact ih hsound hidle hinv
        · split
          · exact ih hsound hidle hinv
          · rename_i i _
            rcases readOne_cases hsound i ep with hnothing |
                ⟨hopen, ⟨event, input, hstep, hone⟩ | ⟨next, hone, hlooked, hbefore, hafter⟩⟩
            · rw [hnothing]
              exact ih hsound hidle hinv
            · rw [hone]
              cases event with
              | none =>
                  exact ih (hsound.read hopen hstep) (hidle.setInput (hstep.idle (hidle i)))
                    (hrule.read iface i input hinv hsound hidle hopen hstep)
              | some event =>
                  exact hrule.event iface i event input hinv hsound hidle hopen hstep
            · rw [hone]
              exact hrule.broken iface next i hinv hidle hlooked hbefore hafter

/-- A turn ends with an event taken, or with nothing left at the inputs it looked at. -/
theorem recoveredTurn_rule {iface : Interface} (hsound : iface.Sound) (hinv : Inv iface)
    (offsets : List Nat) :
    (∃ event next, iface.recoveredTurn offsets = (some event, next) ∧ Post (.ok event) next) ∨
    ∃ next, iface.recoveredTurn offsets = (none, next) ∧ next.Sound ∧ Inv next ∧
      ∀ i, (i ∈ offsets.map (fun offset => inputSlot (iface.nextInput + offset)) ∨
        (iface.inputs i).decoder.recovery.hasPending = false) →
        (next.inputs i).decoder.recovery.hasPending = false := by
  induction offsets generalizing iface with
  | nil =>
      refine Or.inr ⟨iface, rfl, hsound, hinv, fun i hi => ?_⟩
      rcases hi with hi | hi
      · exact absurd hi List.not_mem_nil
      · exact hi
  | cons offset rest ih =>
      generalize hi : inputSlot (iface.nextInput + offset) = i
      cases htaken : (iface.inputs i).takeRecovered.1 with
      | some event =>
          left
          refine ⟨event, _, ?_, hrule.taken iface i event hinv hsound htaken⟩
          rw [recoveredTurn, hi, htaken]
      | none =>
          have hstep : iface.recoveredTurn (offset :: rest) =
              (iface.setInput i (iface.inputs i).takeRecovered.2).recoveredTurn rest := by
            rw [recoveredTurn, hi, htaken]
          have hempty : (iface.inputs i).takeRecovered.2.decoder.recovery.hasPending = false :=
            Decoder.takeRecovered_none _ htaken
          rw [hstep]
          rcases ih (hsound.takeRecovered i) (hrule.take iface i hinv hsound htaken) with
            hevent | ⟨next, hnext, hnextSound, hnextInv, hidle⟩
          · exact Or.inl hevent
          · refine Or.inr ⟨next, hnext, hnextSound, hnextInv, fun j hj => hidle j ?_⟩
            by_cases hsame : j = i
            · subst hsame
              right
              rw [setInput_self]
              exact hempty
            · rw [setInput_other _ hsame]
              rcases hj with hj | hj
              · rw [List.map_cons, List.mem_cons, hi] at hj
                exact Or.inl (hj.resolve_left hsame)
              · exact Or.inr hj

/-- The rule of a dispatch. -/
theorem dispatch_rule {iface : Interface} (hsound : iface.Sound) (hinv : Inv iface)
    (wait : Except Int (List EpollEvent)) :
    Post (iface.dispatch wait).1 (iface.dispatch wait).2 := by
  have hdrained : iface.drainRecoveryWake.Sound :=
    ⟨hsound.kept, hsound.available, hsound.node, hsound.nodes, hsound.motor, hsound.gone⟩
  unfold dispatch
  rcases recoveredTurn_rule hrule hdrained (hrule.drain iface hinv) (List.range 10) with
    ⟨event, next, hturn, hpost⟩ | ⟨next, hturn, hnext, hkeeps, hpending⟩
  · rw [hturn]
    exact hpost
  · have hidle : next.Idle := fun i => hpending i (Or.inl (mem_slots _ i))
    rw [hturn]
    cases wait with
    | error errno => exact hrule.error next _ hkeeps hnext hidle
    | ok ready => exact serveReady_rule hrule hnext hidle hkeeps _

end Rules

theorem recoveredTurn_idle {iface : Interface} (hidle : iface.Idle) (offsets : List Nat) :
    iface.recoveredTurn offsets = (none, iface) := by
  induction offsets with
  | nil => rfl
  | cons offset rest ih =>
      have hsame : ∀ i, (iface.inputs i).takeRecovered = (none, iface.inputs i) := fun i => by
        rw [InputInterface.takeRecovered, Decoder.takeRecovered_idle (hidle i)]
      rw [recoveredTurn, hsame]
      simp only [setInput, Function.update_eq_self]
      exact ih

/-- With nothing to recover a dispatch goes straight to what is ready. -/
theorem dispatch_idle {iface : Interface} (hidle : iface.Idle) (ready : List EpollEvent) :
    iface.dispatch (.ok ready) = iface.drainRecoveryWake.serveReady (ready.take 32) := by
  have hdrained : iface.drainRecoveryWake.Idle := hidle
  rw [dispatch, recoveredTurn_idle hdrained]

end Interface

end Device

end Hid

end Wiiland
