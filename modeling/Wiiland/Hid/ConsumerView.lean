/-
What a consumer of a controller's events knows of its keys.  Folding the events of each
input, through drops, recoveries and the turns of the other inputs, it stays in step
with the key state that the kernel gave.
-/
import Wiiland.Hid.DeviceRuns

namespace Wiiland

namespace Hid

namespace Device

open Decoder (drain)

/-- With the events that are still due, a view is the key state of the input. -/
def Follows (kind : InterfaceKind) (view : View) (input : InputInterface) : Prop :=
  observeAll view input.decoder.drain.1 = snapshotView kind input.decoder.recovery.keyState

theorem Follows.take {kind : InterfaceKind} {view : View} {input : InputInterface}
    (hfollows : Follows kind view input) :
    Follows kind (observeAll view input.takeRecovered.1.toList) input.takeRecovered.2 := by
  have hkeys := (Decoder.sameKeys_takeRecovered input.decoder).keyState
  rw [Follows, Decoder.drain_takeRecovered, observeAll_append] at hfollows
  exact hfollows.trans (congrArg (snapshotView kind) hkeys.symm)

theorem follows_idle {kind : InterfaceKind} {view : View} {input : InputInterface}
    (hidle : input.decoder.recovery.hasPending = false) :
    Follows kind view input ↔ view = snapshotView kind input.decoder.recovery.keyState := by
  rw [Follows, Decoder.drain_idle hidle]
  rfl

/-- A recovery in step with the key state ends at the snapshot. -/
theorem follows_recover {decoder : Decoder} {view : View}
    (hview : view = snapshotView decoder.interface decoder.recovery.keyState)
    (keys : List (BitVec 64)) (abs : List (Nat × Int)) (time : Timeval) :
    observeAll view (drain (decoder.recover keys abs time)).1 =
      snapshotView decoder.interface (decoder.recover keys abs time).recovery.keyState := by
  rw [Decoder.drain_recover hview, observeAll_append, Decoder.observeAll_report, hview,
    observeAll_changedKeys, Decoder.recover_recovery]
  rfl

theorem Follows.read {i : Fin 10} {view : View} {input next : InputInterface}
    {event : Option Event} (hfollows : Follows (kindOf i) view input) (hkept : input.Kept i)
    (hidle : input.decoder.recovery.hasPending = false) (hread : input.Read event next) :
    Follows (kindOf i) (observeAll view event.toList) next := by
  have hview := (follows_idle hidle).mp hfollows
  have hpush : ∀ event, Follows (kindOf i) (observeAll view (input.push event).1.toList)
      (input.push event).2 := by
    intro event
    have htracks : Decoder.Tracks (kindOf i) view input.decoder := ⟨hkept.interface, hview⟩
    rw [follows_idle ((push_kept input.decoder event).2.1.trans hidle)]
    exact (htracks.push event).view
  cases hread with
  | ignored => exact hfollows
  | recovered keys abs time hawaiting =>
      have hrecovered : Follows (kindOf i) view { input with
          decoder := input.decoder.recover keys abs time, awaitingSync := false } := by
        rw [← hkept.interface] at hview ⊢
        exact follows_recover hview keys abs time
      exact hrecovered.take
  | dropped event hsynced hdrop =>
      have hdesynced : input.decoder.recovery.desynced = false := hkept.synced.symm.trans hsynced
      have hnone : (input.push event).1 = none := by
        simp only [InputInterface.push, Decoder.push, hdesynced, Bool.false_eq_true,
          ↓reduceIte, if_pos hdrop]
      have hnext := hpush event
      rw [hnone] at hnext
      exact hnext
  | pushed event hsynced hevent => exact hpush event

/-- Each input's view changes with the events that come from it. -/
def seen (views : Fin 10 → View) (event : Event) : Fin 10 → View := fun i =>
  if event.kind.interface = some (ifBit i) then observe (views i) event else views i

theorem seen_from (views : Fin 10 → View) {i : Fin 10} {event : Event}
    (hfrom : From (kindOf i) event) :
    seen views event = Function.update views i (observe (views i) event) := by
  funext j
  have hmask : event.kind.interface = some (ifBit i) :=
    Eq.trans hfrom (congrArg some (kindMask_kindOf i))
  rw [seen, hmask]
  by_cases hsame : j = i
  · subst hsame
    rw [if_pos rfl, Function.update_self]
  · have hother : ifBit i ≠ ifBit j := by
      intro heq
      have hself := ifBit_self j
      rw [← heq, ifBit_other (Ne.symm hsame)] at hself
      exact Bool.false_ne_true hself
    rw [if_neg (by simpa using hother), Function.update_of_ne hsame]

namespace Interface

/-- The views follow every open input. -/
def Followed (views : Fin 10 → View) (iface : Interface) : Prop :=
  ∀ i, 0 ≤ (iface.inputs i).fd → Follows (kindOf i) (views i) (iface.inputs i)

theorem Followed.closes {views : Fin 10 → View} {iface next : Interface}
    (hfollowed : Followed views iface) (hcloses : Closes iface next) : Followed views next := by
  intro i hopen
  obtain ⟨hfd, _, hdecoder, _⟩ := hcloses i hopen
  rw [Follows, hdecoder]
  exact hfollowed i (hfd ▸ hopen)

/-- An input that changes in step with its view keeps the others followed. -/
theorem Followed.setInput {views : Fin 10 → View} {iface : Interface}
    (hfollowed : Followed views iface) {i : Fin 10} {input : InputInterface}
    (hfd : input.fd = (iface.inputs i).fd) {event : Option Event}
    (hfrom : ∀ e, event = some e → From (kindOf i) e)
    (hinput : 0 ≤ (iface.inputs i).fd →
      Follows (kindOf i) (observeAll (views i) event.toList) input) :
    Followed (event.elim views (seen views)) (iface.setInput i input) := by
  have hviews : event.elim views (seen views) =
      Function.update views i (observeAll (views i) event.toList) := by
    cases event with
    | none => exact (Function.update_eq_self i views).symm
    | some event => exact seen_from views (hfrom event rfl)
  rw [hviews]
  intro j hopen
  by_cases hsame : j = i
  · subst hsame
    rw [setInput_self] at hopen ⊢
    rw [Function.update_self]
    exact hinput (hfd ▸ hopen)
  · rw [setInput_other _ hsame] at hopen ⊢
    rw [Function.update_of_ne hsame]
    exact hfollowed j hopen

theorem Followed.take {views : Fin 10 → View} {iface : Interface}
    (hfollowed : Followed views iface) (hsound : iface.Sound) (i : Fin 10) :
    Followed ((iface.inputs i).takeRecovered.1.elim views (seen views))
      (iface.setInput i (iface.inputs i).takeRecovered.2) := by
  have hfrom : ∀ e, (iface.inputs i).takeRecovered.1 = some e → From (kindOf i) e := by
    intro e he
    rw [← (hsound.kept i).interface]
    exact takeRecovered_from _ he
  exact @setInput _ _ hfollowed i (iface.inputs i).takeRecovered.2 rfl _ hfrom
    fun hopen => (hfollowed i hopen).take

theorem Followed.read {views : Fin 10 → View} {iface : Interface}
    (hfollowed : Followed views iface) (hsound : iface.Sound) (hidle : iface.Idle)
    {i : Fin 10} {event : Option Event} {input : InputInterface}
    (hread : (iface.inputs i).Read event input) :
    Followed (event.elim views (seen views)) (iface.setInput i input) := by
  refine hfollowed.setInput hread.same.1 (fun e he => ?_)
    fun hopen => (hfollowed i hopen).read (hsound.kept i) (hidle i) hread
  subst he
  exact hread.from (hsound.kept i)

theorem Followed.delivered {views : Fin 10 → View} {iface : Interface}
    (hfollowed : Followed views iface) (i : Fin 10) : Followed views (iface.delivered i) := by
  intro j hopen
  rw [delivered_inputs] at hopen ⊢
  exact hfollowed j hopen

end Interface

end Device

end Hid

end Wiiland
