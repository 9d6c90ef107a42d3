/-
What every call keeps of a controller's inputs.  An open input is available at a node
that is still its own, a closed one has nothing to recover, and the motor is driven
through an open input or not at all.
-/
import Wiiland.Hid.Device
import Wiiland.Hid.Resync

namespace Wiiland

namespace Hid

namespace Device

open UnixPath (Path)

theorem push_kept (decoder : Decoder) (event : InputEvent) :
    (decoder.push event).2.interface = decoder.interface ∧
      (decoder.push event).2.recovery.hasPending = decoder.recovery.hasPending ∧
      (decoder.recovery.Consistent → (decoder.push event).2.recovery.Consistent) := by
  have hremember : (decoder.recovery.remember event).hasPending =
      decoder.recovery.hasPending ∧
      (decoder.recovery.Consistent → (decoder.recovery.remember event).Consistent) := by
    unfold RecoveryState.remember
    split
    · exact ⟨rfl, id⟩
    · split <;> exact ⟨rfl, id⟩
  unfold Decoder.push
  split
  · exact ⟨rfl, rfl, id⟩
  · split
    · exact ⟨rfl, rfl, id⟩
    · split
      · exact ⟨rfl, hremember⟩
      · split
        · exact ⟨rfl, rfl, id⟩
        · split
          · rw [Decoder.report_interface, Decoder.report_recovery]
            exact ⟨rfl, rfl, id⟩
          · exact ⟨rfl, rfl, id⟩

/-- Only a dropped report desyncs a decoder. -/
theorem push_desynced (decoder : Decoder) (event : InputEvent) :
    (decoder.push event).2.recovery.desynced =
      (decoder.recovery.desynced ||
        decide (event.eventType = evSyn ∧ event.code = synDropped)) := by
  have hremember : (decoder.recovery.remember event).desynced = decoder.recovery.desynced := by
    unfold RecoveryState.remember
    split
    · rfl
    · split <;> rfl
  unfold Decoder.push
  cases hdesynced : decoder.recovery.desynced with
  | true =>
      rw [if_pos rfl, hdesynced]
      rfl
  | false =>
      rw [if_neg Bool.false_ne_true]
      split
      · rename_i hdrop
        simp [hdrop, RecoveryState.dropped]
      · rename_i hdrop
        rw [decide_eq_false hdrop, Bool.or_false, ← hdesynced]
        split
        · exact hremember
        · split
          · rfl
          · split
            · rw [Decoder.report_recovery]
            · rfl

/-- The state of one input between calls. -/
structure InputInterface.Kept (i : Fin 10) (input : InputInterface) : Prop where
  interface : input.decoder.interface = kindOf i
  consistent : input.decoder.recovery.Consistent
  idle : input.fd < 0 → input.decoder.recovery.hasPending = false
  available : 0 ≤ input.fd → input.available = true
  synced : input.awaitingSync = input.decoder.recovery.desynced

namespace InputInterface

@[simp] theorem resetDecoder_fd (input : InputInterface) : input.resetDecoder.fd = input.fd :=
  rfl

@[simp] theorem resetDecoder_available (input : InputInterface) :
    input.resetDecoder.available = input.available := rfl

@[simp] theorem resetDecoder_node (input : InputInterface) :
    input.resetDecoder.node = input.node := rfl

@[simp] theorem resetDecoder_interface (input : InputInterface) :
    input.resetDecoder.decoder.interface = input.decoder.interface := rfl

theorem close_fd (input : InputInterface) : input.close.fd < 0 := by
  rw [close]
  split
  · simp
  · rename_i hclosed
    simpa using hclosed

theorem idle_of_new (kind : InterfaceKind) :
    (Decoder.new kind).recovery.hasPending = false ∧ (Decoder.new kind).recovery.Consistent :=
  ⟨rfl, fun _ => rfl⟩

theorem new_kept (i : Fin 10) : (new i).Kept i where
  interface := rfl
  consistent := (idle_of_new _).2
  idle := fun _ => (idle_of_new _).1
  available := fun hopen => absurd hopen (by simp [new])
  synced := rfl

theorem Kept.close {i : Fin 10} {input : InputInterface} (hkept : input.Kept i) :
    input.close.Kept i where
  interface := hkept.interface
  consistent := (idle_of_new input.decoder.interface).2
  idle := fun _ => (idle_of_new input.decoder.interface).1
  available := fun hopen => absurd input.close_fd (Int.not_lt.mpr hopen)
  synced := rfl

theorem Kept.takeRecovered {i : Fin 10} {input : InputInterface} (hkept : input.Kept i) :
    input.takeRecovered.2.Kept i where
  interface := (Decoder.sameKeys_takeRecovered input.decoder).interface.trans hkept.interface
  consistent := (Decoder.sameKeys_takeRecovered input.decoder).consistent hkept.consistent
  idle := fun hclosed => by
    have hidle := Decoder.takeRecovered_idle (hkept.idle hclosed)
    rw [InputInterface.takeRecovered, hidle]
    exact hkept.idle hclosed
  available := hkept.available
  synced := hkept.synced.trans (Decoder.sameKeys_takeRecovered input.decoder).desynced.symm

end InputInterface

namespace Interface

@[simp] theorem setInput_self (iface : Interface) (i : Fin 10) (input : InputInterface) :
    (iface.setInput i input).inputs i = input :=
  Function.update_self ..

theorem setInput_other (iface : Interface) {i j : Fin 10} (hne : j ≠ i)
    (input : InputInterface) : (iface.setInput i input).inputs j = iface.inputs j :=
  Function.update_of_ne hne ..

/-- What stays as it is when only inputs and the motor change. -/
structure SameRest (iface next : Interface) : Prop where
  syspath : next.syspath = iface.syspath
  nodes : next.nodes = iface.nodes
  monitor : next.monitor = iface.monitor
  wake : next.wake = iface.wake
  nextInput : next.nextInput = iface.nextInput
  gone : next.gone = iface.gone

theorem SameRest.refl (iface : Interface) : SameRest iface iface := ⟨rfl, rfl, rfl, rfl, rfl, rfl⟩

theorem SameRest.trans {first middle last : Interface} (hfirst : SameRest first middle)
    (hsecond : SameRest middle last) : SameRest first last where
  syspath := hsecond.syspath.trans hfirst.syspath
  nodes := hsecond.nodes.trans hfirst.nodes
  monitor := hsecond.monitor.trans hfirst.monitor
  wake := hsecond.wake.trans hfirst.wake
  nextInput := hsecond.nextInput.trans hfirst.nextInput
  gone := hsecond.gone.trans hfirst.gone

theorem sameRest_setInput (iface : Interface) (i : Fin 10) (input : InputInterface) :
    SameRest iface (iface.setInput i input) := ⟨rfl, rfl, rfl, rfl, rfl, rfl⟩

/-- The motor is driven through the open core or pro input, or not at all. -/
def Motor (iface : Interface) : Prop :=
  0 ≤ iface.rumbleFd → ∃ i : Fin 10, (i.val = 0 ∨ i.val = 7) ∧
    (iface.inputs i).fd = iface.rumbleFd

theorem closeOne_self (requested : InterfaceMask) (iface : Interface) (i : Fin 10) :
    (closeOne requested iface i).inputs i =
      if requested.has (ifPosition i) = true ∧ 0 ≤ (iface.inputs i).fd then
        (iface.inputs i).close
      else iface.inputs i := by
  unfold closeOne
  by_cases hclose : requested.has (ifPosition i) = true ∧ 0 ≤ (iface.inputs i).fd
  · rw [if_pos (by simpa using hclose), if_pos hclose, setInput_self]
    split <;> rfl
  · rw [if_neg (by simpa using hclose), if_neg hclose]

theorem closeOne_other (requested : InterfaceMask) (iface : Interface) {i j : Fin 10}
    (hne : j ≠ i) : (closeOne requested iface i).inputs j = iface.inputs j := by
  unfold closeOne
  split
  · rw [setInput_other _ hne]
    split <;> rfl
  · rfl

theorem closeOne_rest (requested : InterfaceMask) (iface : Interface) (i : Fin 10) :
    SameRest iface (closeOne requested iface i) := by
  unfold closeOne
  split
  · split
    · exact ⟨rfl, rfl, rfl, rfl, rfl, rfl⟩
    · exact sameRest_setInput ..
  · exact SameRest.refl iface

theorem closeOne_motor (requested : InterfaceMask) {iface : Interface} (hmotor : iface.Motor)
    (i : Fin 10) : (closeOne requested iface i).Motor := by
  unfold closeOne
  split
  · split
    · intro hdriven
      exact absurd hdriven (by simp [setInput])
    · rename_i hother
      intro hdriven
      obtain ⟨j, hslot, hfd⟩ := hmotor hdriven
      have hne : j ≠ i := by
        rintro rfl
        exact hother hfd.symm
      exact ⟨j, hslot, by rw [setInput_other _ hne]; exact hfd⟩
  · exact hmotor

theorem foldl_closeOne (requested : InterfaceMask) (slots : List (Fin 10))
    (iface : Interface) :
    (∀ j, (slots.foldl (closeOne requested) iface).inputs j =
      if j ∈ slots ∧ requested.has (ifPosition j) = true ∧ 0 ≤ (iface.inputs j).fd then
        (iface.inputs j).close
      else iface.inputs j) ∧
    SameRest iface (slots.foldl (closeOne requested) iface) ∧
    (iface.Motor → (slots.foldl (closeOne requested) iface).Motor) := by
  induction slots generalizing iface with
  | nil => simp [SameRest.refl]
  | cons i rest ih =>
      obtain ⟨hinputs, hrest, hmotor⟩ := ih (closeOne requested iface i)
      refine ⟨fun j => ?_, (closeOne_rest requested iface i).trans hrest,
        fun h => hmotor (closeOne_motor requested h i)⟩
      rw [List.foldl_cons, hinputs j]
      by_cases hsame : j = i
      · subst hsame
        rw [closeOne_self]
        by_cases hclose : requested.has (ifPosition j) = true ∧ 0 ≤ (iface.inputs j).fd
        · have hclosed : ¬(j ∈ rest ∧ requested.has (ifPosition j) = true ∧
              0 ≤ (iface.inputs j).close.fd) :=
            fun h => Int.not_lt.mpr h.2.2 (InputInterface.close_fd _)
          rw [if_pos hclose, if_neg hclosed, if_pos ⟨List.mem_cons_self, hclose⟩]
        · rw [if_neg hclose, if_neg fun h => hclose h.2, if_neg fun h => hclose h.2]
      · rw [closeOne_other _ _ hsame]
        simp [hsame]

/-- Closing closes exactly the requested inputs that are open. -/
theorem close_inputs (iface : Interface) (ifaces : InterfaceMask) (i : Fin 10) :
    (iface.close ifaces).inputs i =
      if ifaces.has (ifPosition i) = true ∧ 0 ≤ (iface.inputs i).fd then (iface.inputs i).close
      else iface.inputs i := by
  rw [close, (foldl_closeOne _ _ iface).1 i, InterfaceMask.has_inter, all_has, Bool.and_true]
  simp

theorem close_rest (iface : Interface) (ifaces : InterfaceMask) :
    SameRest iface (iface.close ifaces) := (foldl_closeOne _ _ iface).2.1

theorem close_motor {iface : Interface} (hmotor : iface.Motor) (ifaces : InterfaceMask) :
    (iface.close ifaces).Motor := (foldl_closeOne _ _ iface).2.2 hmotor

/-- An input that closing leaves open is as it was. -/
theorem close_open {iface : Interface} {ifaces : InterfaceMask} {i : Fin 10}
    (hopen : 0 ≤ ((iface.close ifaces).inputs i).fd) :
    (iface.close ifaces).inputs i = iface.inputs i := by
  rw [close_inputs] at hopen ⊢
  split at hopen
  · exact absurd (InputInterface.close_fd _) (Int.not_lt.mpr hopen)
  · rename_i hkeep
    rw [if_neg hkeep]

/-- A refresh gives each input its node and whether it is available. -/
theorem refreshInput_self (nodes : Nodes) (iface : Interface) (i : Fin 10) :
    let closes := refreshRequiresClose (iface.inputs i).fd (iface.inputs i).node
      (nodes.nodes i) (nodes.available.has (ifPosition i))
    (refreshInput nodes iface i).inputs i =
      { (if closes then (iface.inputs i).close else iface.inputs i) with
        available := nodes.available.has (ifPosition i), node := nodes.nodes i } := by
  unfold refreshInput
  simp only
  rw [setInput_self]
  split
  · rename_i hcloses
    rw [refreshRequiresClose, Bool.and_eq_true, decide_eq_true_eq] at hcloses
    rw [close_inputs, if_pos ⟨ifBit_self i, hcloses.1⟩]
  · rfl

theorem refreshInput_other (nodes : Nodes) (iface : Interface) {i j : Fin 10}
    (hne : j ≠ i) : (refreshInput nodes iface i).inputs j = iface.inputs j := by
  unfold refreshInput
  simp only
  rw [setInput_other _ hne]
  split
  · rw [close_inputs, if_neg fun h => Bool.false_ne_true ((ifBit_other hne.symm).symm.trans h.1)]
  · rfl

theorem refreshInput_rest (nodes : Nodes) (iface : Interface) (i : Fin 10) :
    SameRest iface (refreshInput nodes iface i) := by
  unfold refreshInput
  refine SameRest.trans ?_ (sameRest_setInput ..)
  split
  · exact close_rest ..
  · exact SameRest.refl iface

theorem setInput_motor {iface : Interface} (hmotor : iface.Motor) {i : Fin 10}
    {input : InputInterface} (hfd : 0 ≤ (iface.inputs i).fd → input.fd = (iface.inputs i).fd) :
    (iface.setInput i input).Motor := by
  intro hdriven
  obtain ⟨j, hslot, hdrives⟩ := hmotor hdriven
  refine ⟨j, hslot, ?_⟩
  by_cases hsame : j = i
  · subst hsame
    rw [setInput_self, hfd (hdrives ▸ hdriven)]
    exact hdrives
  · rw [setInput_other _ hsame]
    exact hdrives

theorem refreshInput_motor (nodes : Nodes) {iface : Interface} (hmotor : iface.Motor)
    (i : Fin 10) : (refreshInput nodes iface i).Motor := by
  unfold refreshInput
  apply setInput_motor
  · split
    · exact close_motor hmotor _
    · exact hmotor
  · exact fun _ => rfl

/-- What a refresh makes of an input. -/
def refreshed (nodes : Nodes) (i : Fin 10) (input : InputInterface) : InputInterface :=
  { (if refreshRequiresClose input.fd input.node (nodes.nodes i)
        (nodes.available.has (ifPosition i)) then input.close else input) with
    available := nodes.available.has (ifPosition i), node := nodes.nodes i }

theorem foldl_refreshInput (nodes : Nodes) {slots : List (Fin 10)} (hnodup : slots.Nodup)
    (iface : Interface) :
    (∀ j, (slots.foldl (refreshInput nodes) iface).inputs j =
      if j ∈ slots then refreshed nodes j (iface.inputs j) else iface.inputs j) ∧
    SameRest iface (slots.foldl (refreshInput nodes) iface) ∧
    (iface.Motor → (slots.foldl (refreshInput nodes) iface).Motor) := by
  induction slots generalizing iface with
  | nil => simp [SameRest.refl]
  | cons i rest ih =>
      obtain ⟨hnotin, hrestNodup⟩ := List.nodup_cons.mp hnodup
      obtain ⟨hinputs, hrest, hmotor⟩ := ih hrestNodup (refreshInput nodes iface i)
      refine ⟨fun j => ?_, (refreshInput_rest nodes iface i).trans hrest,
        fun h => hmotor (refreshInput_motor nodes h i)⟩
      rw [List.foldl_cons, hinputs j]
      by_cases hsame : j = i
      · subst hsame
        rw [if_neg hnotin, if_pos List.mem_cons_self, refreshInput_self, refreshed]
      · rw [refreshInput_other nodes iface hsame]
        simp [hsame]

/-- A refresh that fails changes nothing; else every input gets its node. -/
theorem refresh_cases (iface : Interface) (scan : Except Int (List UdevEntry)) :
    (∃ errno, iface.refresh scan = (.error errno, iface)) ∨
    ∃ nodes next, refreshNodes iface.nodes scan = .ok nodes ∧
      iface.refresh scan = (.ok (), next) ∧
      (∀ j, next.inputs j = refreshed nodes j (iface.inputs j)) ∧
      SameRest { iface with nodes } next ∧ (iface.Motor → next.Motor) := by
  unfold refresh
  cases hnodes : refreshNodes iface.nodes scan with
  | error errno => exact Or.inl ⟨errno, rfl⟩
  | ok nodes =>
      obtain ⟨hinputs, hrest, hmotor⟩ :=
        foldl_refreshInput nodes (List.nodup_finRange 10) { iface with nodes }
      refine Or.inr ⟨nodes, _, rfl, rfl, fun j => ?_, hrest, hmotor⟩
      rw [hinputs j, if_pos (List.mem_finRange j)]

/-- What holds of a controller between calls: every input mirrors its node, and only
available inputs are open. -/
structure Sound (iface : Interface) : Prop where
  kept : ∀ i, (iface.inputs i).Kept i
  available : ∀ i, (iface.inputs i).available = iface.nodes.available.has (ifPosition i)
  node : ∀ i, (iface.inputs i).node = iface.nodes.nodes i
  nodes : iface.nodes.Sound
  motor : iface.Motor
  gone : iface.gone = true → iface.nodes.available = .empty

/-- An input may change its decoder and its descriptor's state only within bounds. -/
theorem Sound.setInput {iface : Interface} (hsound : iface.Sound) {i : Fin 10}
    {input : InputInterface} (hkept : input.Kept i)
    (havailable : input.available = (iface.inputs i).available)
    (hnode : input.node = (iface.inputs i).node)
    (hfd : 0 ≤ (iface.inputs i).fd → input.fd = (iface.inputs i).fd) :
    (iface.setInput i input).Sound := by
  have hinputs : ∀ {P : Fin 10 → InputInterface → Prop}, P i input →
      (∀ j, P j (iface.inputs j)) → ∀ j, P j ((iface.setInput i input).inputs j) := by
    intro P hinput hall j
    by_cases hsame : j = i
    · subst hsame
      rwa [setInput_self]
    · rw [setInput_other _ hsame]
      exact hall j
  refine ⟨?_, ?_, ?_, hsound.nodes, setInput_motor hsound.motor hfd, hsound.gone⟩
  · exact @hinputs (fun j input => input.Kept j) hkept hsound.kept
  · exact @hinputs (fun j input => input.available = iface.nodes.available.has (ifPosition j))
      (havailable.trans (hsound.available i)) hsound.available
  · exact @hinputs (fun j input => input.node = iface.nodes.nodes j)
      (hnode.trans (hsound.node i)) hsound.node

/-- The calls that reach one input leave the rest of the controller sound. -/
theorem Sound.of_inputs {iface next : Interface} (hsound : iface.Sound)
    (hrest : SameRest iface next) (hmotor : next.Motor)
    (hinputs : ∀ i, (next.inputs i).Kept i ∧
      (next.inputs i).available = (iface.inputs i).available ∧
      (next.inputs i).node = (iface.inputs i).node) : next.Sound where
  kept := fun i => (hinputs i).1
  available := fun i => by rw [(hinputs i).2.1, hrest.nodes, hsound.available]
  node := fun i => by rw [(hinputs i).2.2, hrest.nodes, hsound.node]
  nodes := hrest.nodes ▸ hsound.nodes
  motor := hmotor
  gone := fun hgone => by rw [hrest.nodes, hsound.gone (hrest.gone ▸ hgone)]

theorem Sound.close {iface : Interface} (hsound : iface.Sound) (ifaces : InterfaceMask) :
    (iface.close ifaces).Sound := by
  apply hsound.of_inputs (close_rest ..) (close_motor hsound.motor _)
  intro i
  rw [close_inputs]
  split
  · exact ⟨(hsound.kept i).close, rfl, rfl⟩
  · exact ⟨hsound.kept i, rfl, rfl⟩

/-- A refreshed input is open only when it was, at the node that it has. -/
theorem refreshed_open {nodes : Nodes} {i : Fin 10} {input : InputInterface}
    (hopen : 0 ≤ (refreshed nodes i input).fd) :
    0 ≤ input.fd ∧ nodes.available.has (ifPosition i) = true ∧
      input.node = nodes.nodes i ∧
      refreshed nodes i input =
        { input with available := nodes.available.has (ifPosition i),
                     node := nodes.nodes i } := by
  unfold refreshed at hopen ⊢
  split at hopen
  · exact absurd input.close_fd (Int.not_lt.mpr hopen)
  · rename_i hkeep
    have hfd : 0 ≤ input.fd := hopen
    rw [refreshRequiresClose, Bool.and_eq_true, Bool.or_eq_true, not_and, not_or,
      Bool.not_eq_true, Bool.not_eq_false', bne_iff_ne, not_not] at hkeep
    obtain ⟨havailable, hnode⟩ := hkeep (by simpa using hfd)
    refine ⟨hfd, havailable, hnode, ?_⟩
    rw [if_neg]
    simp [refreshRequiresClose, havailable, hnode]

theorem refreshed_kept {nodes : Nodes} {i : Fin 10} {input : InputInterface}
    (hkept : input.Kept i) : (refreshed nodes i input).Kept i where
  interface := by
    unfold refreshed
    split
    · exact hkept.close.interface
    · exact hkept.interface
  consistent := by
    unfold refreshed
    split
    · exact hkept.close.consistent
    · exact hkept.consistent
  idle := by
    unfold refreshed
    split
    · exact hkept.close.idle
    · exact hkept.idle
  available := fun hopen => (refreshed_open hopen).2.1
  synced := by
    unfold refreshed
    split
    · exact hkept.close.synced
    · exact hkept.synced

theorem Sound.refresh {iface : Interface} (hsound : iface.Sound) (hhere : iface.gone = false)
    (scan : Except Int (List UdevEntry)) : (iface.refresh scan).2.Sound := by
  rcases refresh_cases iface scan with ⟨errno, hfailed⟩ |
      ⟨nodes, next, hnodes, hrefresh, hinputs, hrest, hmotor⟩
  · rw [hfailed]
    exact hsound
  · rw [hrefresh]
    have hgone : next.gone = false := hrest.gone.trans hhere
    refine ⟨fun i => ?_, fun i => ?_, fun i => ?_, ?_, hmotor hsound.motor,
      fun h => absurd (hgone.symm.trans h) Bool.false_ne_true⟩
    · rw [hinputs i]
      exact refreshed_kept (hsound.kept i)
    · rw [hinputs i, hrest.nodes]
      rfl
    · rw [hinputs i, hrest.nodes]
      rfl
    · rw [hrest.nodes]
      exact refreshNodes_sound hnodes

end Interface

end Device

end Hid

end Wiiland
