/-
Recovered events are dispatched in turns.  Until none is left, dispatches serve the
inputs round robin, whatever is ready meanwhile, and each input's events come complete
and in order.
-/
import Wiiland.Hid.DeviceRuns
import Wiiland.Lib.RoundRobin

namespace Wiiland

namespace Hid

namespace Device

namespace Interface

open RoundRobin (Line look serve serves)

/-- The recovered events that an input still has to give. -/
def due (iface : Interface) (i : Fin 10) : List Event := (iface.inputs i).decoder.drain.1

/-- The inputs in the order in which a dispatch looks at them. -/
def turns (cursor : Nat) : List (Fin 10) :=
  (List.range 10).map fun offset => inputSlot (cursor + offset)

def line (iface : Interface) : Line (Fin 10) Event := ⟨turns iface.nextInput, iface.due⟩

theorem turns_mod (cursor : Nat) : turns cursor = turns (cursor % 10) := by
  apply List.map_congr_left
  intro offset _
  apply Fin.ext
  simp only [inputSlot]
  omega

theorem turns_nodup (cursor : Nat) : (turns cursor).Nodup := by
  rw [turns_mod]
  have hall : ∀ c < 10, (turns c).Nodup := by decide
  exact hall _ (Nat.mod_lt _ (by decide))

theorem mem_turns (cursor : Nat) (i : Fin 10) : i ∈ turns cursor := mem_slots cursor i

theorem length_turns (cursor : Nat) : (turns cursor).length = 10 := by
  rw [turns, List.length_map, List.length_range]

/-- The turn behind an input goes through those after it, then those before it. -/
theorem turns_behind {cursor : Nat} {before after : List (Fin 10)} {i : Fin 10}
    (hturns : turns cursor = before ++ i :: after) :
    turns ((i.val + 1) % 10) = after ++ before ++ [i] := by
  have hall : ∀ c < 10, ∀ k : Fin 10,
      turns (((turns c).getD k 0).val + 1) =
        (turns c).drop (k.val + 1) ++ (turns c).take k ++ [(turns c).getD k 0] := by
    decide
  rw [turns_mod] at hturns
  have hlength := congrArg List.length hturns
  rw [length_turns, List.length_append, List.length_cons] at hlength
  have hk : before.length < 10 := by omega
  have hbehind := hall (cursor % 10) (Nat.mod_lt _ (by decide)) ⟨before.length, hk⟩
  rw [hturns] at hbehind
  simpa [← turns_mod] using hbehind

theorem due_takeRecovered (iface : Interface) (i : Fin 10) :
    (iface.setInput i (iface.inputs i).takeRecovered.2).due =
      Function.update iface.due i (iface.inputs i).takeRecovered.2.decoder.drain.1 := by
  funext j
  by_cases hsame : j = i
  · subst hsame
    rw [Function.update_self, due, setInput_self]
  · rw [Function.update_of_ne hsame, due, setInput_other _ hsame]
    rfl

theorem due_eq (iface : Interface) (i : Fin 10) :
    iface.due i = (iface.inputs i).takeRecovered.1.toList ++
      (iface.inputs i).takeRecovered.2.decoder.drain.1 :=
  Decoder.drain_takeRecovered _

/-- An input has an event to give exactly when one can be taken from it. -/
theorem due_cases (iface : Interface) (i : Fin 10) :
    (iface.due i = [] ∧ (iface.inputs i).takeRecovered.1 = none ∧
      (iface.setInput i (iface.inputs i).takeRecovered.2).due = iface.due) ∨
    ∃ event rest, iface.due i = event :: rest ∧
      (iface.inputs i).takeRecovered.1 = some event ∧
      (iface.setInput i (iface.inputs i).takeRecovered.2).due =
        Function.update iface.due i rest := by
  have hdue := due_eq iface i
  rw [due_takeRecovered]
  cases htaken : (iface.inputs i).takeRecovered.1 with
  | none =>
      have hidle := Decoder.takeRecovered_none _ htaken
      have hempty : (iface.inputs i).takeRecovered.2.decoder.drain.1 = [] := by
        change (Decoder.drain (iface.inputs i).decoder.takeRecovered.2).1 = []
        rw [Decoder.drain_idle hidle]
      have hnone : iface.due i = [] := by
        rw [hdue, htaken, hempty]
        rfl
      refine Or.inl ⟨hnone, rfl, ?_⟩
      rw [hempty, ← hnone]
      exact Function.update_eq_self i iface.due
  | some event =>
      rw [htaken] at hdue
      exact Or.inr ⟨event, _, hdue, rfl, rfl⟩

/-- The scan of a dispatch is the look of the line. -/
theorem recoveredTurn_look {iface : Interface} (hsound : iface.Sound)
    {idle : List (Fin 10)} (offsets : List Nat) {i : Fin 10} {event : Event}
    {last : Line (Fin 10) Event}
    (hlook : look iface.due idle (offsets.map fun offset =>
      inputSlot (iface.nextInput + offset)) = (some (i, event), last)) :
    ∃ next, iface.recoveredTurn offsets = (some event, next) ∧ next.Sound ∧
      next.due = last.queues ∧ next.nextInput = (i.val + 1) % 10 ∧ From (kindOf i) event := by
  induction offsets generalizing iface idle with
  | nil => cases hlook
  | cons offset rest ih =>
      rw [List.map_cons, look] at hlook
      generalize hslot : inputSlot (iface.nextInput + offset) = j at hlook
      rcases due_cases iface j with ⟨hempty, htaken, hdue⟩ | ⟨first, more, hqueue, htaken, hdue⟩
      · rw [hempty] at hlook
        rw [recoveredTurn, hslot, htaken]
        refine @ih _ (hsound.takeRecovered j) (idle ++ [j]) ?_
        rw [hdue]
        exact hlook
      · rw [hqueue] at hlook
        obtain ⟨hserved, hlast⟩ := Prod.ext_iff.mp hlook
        simp only [Option.some.injEq, Prod.mk.injEq] at hserved
        obtain ⟨rfl, rfl⟩ := hserved
        refine ⟨_, by rw [recoveredTurn, hslot, htaken],
          (hsound.takeRecovered j).delivered j, ?_, ?_, ?_⟩
        · change (fun k => ((delivered _ j).inputs k).decoder.drain.1) = last.queues
          rw [delivered_inputs]
          exact hdue.trans (congrArg Line.queues hlast)
        · rw [delivered, signalRecoveryIfPending]
          split <;> rfl
        · rw [← (hsound.kept j).interface]
          exact takeRecovered_from _ htaken

/-- A dispatch serves the line as long as anything waits in it. -/
theorem dispatch_serve {iface : Interface} (hsound : iface.Sound) {i : Fin 10}
    {event : Event} {last : Line (Fin 10) Event}
    (hserve : serve iface.line = (some (i, event), last))
    (wait : Except Int (List EpollEvent)) :
    ∃ next, iface.dispatch wait = (.ok event, next) ∧ next.Sound ∧ next.line = last ∧
      From (kindOf i) event := by
  have hdrained : iface.drainRecoveryWake.Sound :=
    ⟨hsound.kept, hsound.available, hsound.node, hsound.nodes, hsound.motor, hsound.gone⟩
  obtain ⟨next, hturn, hnext, hdue, hcursor, hfrom⟩ :=
    recoveredTurn_look hdrained (List.range 10) hserve
  refine ⟨next, by rw [dispatch, hturn], hnext, ?_, hfrom⟩
  rcases RoundRobin.serve_cases iface.line with ⟨_, hnone⟩ |
      ⟨before, j, after, item, more, horder, _, _, hsome⟩
  · rw [hnone] at hserve
    cases hserve
  · rw [hsome] at hserve
    cases hserve
    rw [line, hcursor, turns_behind horder, hdue]

/-- Dispatch after dispatch, with what is ready at each. -/
def dispatches (iface : Interface) :
    List (Except Int (List EpollEvent)) → List (Except Int Event) × Interface
  | [] => ([], iface)
  | wait :: rest =>
      ((iface.dispatch wait).1 :: ((iface.dispatch wait).2.dispatches rest).1,
        ((iface.dispatch wait).2.dispatches rest).2)

/-- As many dispatches as events are due serve the line. -/
theorem dispatches_serves {iface : Interface} (hsound : iface.Sound)
    (waits : List (Except Int (List EpollEvent))) (hdue : waits.length ≤ iface.line.total) :
    (iface.dispatches waits).1 =
        (serves waits.length iface.line).1.map (fun served => .ok served.2) ∧
      (iface.dispatches waits).2.line = (serves waits.length iface.line).2 ∧
      (iface.dispatches waits).2.Sound ∧
      ∀ served ∈ (serves waits.length iface.line).1, From (kindOf served.1) served.2 := by
  induction waits generalizing iface with
  | nil => exact ⟨rfl, rfl, hsound, fun served h => absurd h List.not_mem_nil⟩
  | cons wait rest ih =>
      rw [List.length_cons] at hdue ⊢
      rcases hserve : serve iface.line with ⟨_ | ⟨i, event⟩, last⟩
      · rcases RoundRobin.serve_cases iface.line with ⟨hempty, _⟩ |
            ⟨_, _, _, _, _, _, _, _, hsome⟩
        · rw [(RoundRobin.total_eq_zero_iff _).mpr hempty] at hdue
          omega
        · rw [hsome] at hserve
          cases hserve
      · obtain ⟨next, hdispatch, hnext, hline, hfrom⟩ := dispatch_serve hsound hserve wait
        have htotal := (RoundRobin.total_serve (turns_nodup iface.nextInput) hserve).2
        subst hline
        obtain ⟨hevents, hlast, hlastSound, hall⟩ := ih hnext (by omega)
        rw [RoundRobin.serves_some _ hserve, dispatches, hdispatch]
        refine ⟨?_, hlast, hlastSound, fun served hserved => ?_⟩
        · rw [List.map_cons, ← hevents]
        · rcases List.mem_cons.mp hserved with rfl | hserved
          · exact hfrom
          · exact hall served hserved

/-- How many recovered events are due in all. -/
def allDue (iface : Interface) : Nat := iface.line.total

/-- The events that tell that they come from an input. -/
def fromInput (i : Fin 10) (events : List Event) : List Event :=
  events.filter fun event => event.kind.interface = some (ifBit i)

theorem fromInput_served {served : List (Fin 10 × Event)}
    (hfrom : ∀ s ∈ served, From (kindOf s.1) s.2) (i : Fin 10) :
    fromInput i (served.map Prod.snd) =
      (served.filter fun s => s.1 = i).map Prod.snd := by
  rw [fromInput, List.filter_map]
  congr 1
  apply List.filter_congr
  intro s hs
  have hmask : s.2.kind.interface = some (ifBit s.1) :=
    (hfrom s hs).trans (congrArg some (kindMask_kindOf s.1))
  rw [Function.comp_apply, hmask]
  by_cases hsame : s.1 = i
  · subst hsame
    simp
  · have hother : ifBit s.1 ≠ ifBit i := by
      intro heq
      have hself := ifBit_self s.1
      rw [heq, ifBit_other (Ne.symm hsame)] at hself
      exact Bool.false_ne_true hself
    simp [hsame, hother]

theorem length_dispatches (iface : Interface)
    (waits : List (Except Int (List EpollEvent))) :
    (iface.dispatches waits).1.length = waits.length := by
  induction waits generalizing iface with
  | nil => rfl
  | cons wait rest ih => rw [dispatches, List.length_cons, ih, List.length_cons]

/-- At most one input has something left to recover. -/
def Alone (iface : Interface) : Prop :=
  ∀ i j, (iface.inputs i).decoder.recovery.hasPending = true →
    (iface.inputs j).decoder.recovery.hasPending = true → i = j

theorem Alone.of_eases {iface next : Interface} (halone : iface.Alone)
    (heases : Eases iface next) : next.Alone :=
  fun i j hi hj => halone i j (heases i hi) (heases j hj)

theorem Idle.alone {iface : Interface} (hidle : iface.Idle) : iface.Alone :=
  fun i _ hi _ => absurd ((hidle i).symm.trans hi) Bool.false_ne_true

/-- An input of a controller with nothing to recover may get something. -/
theorem Idle.alone_setInput {iface : Interface} (hidle : iface.Idle) (i : Fin 10)
    (input : InputInterface) : (iface.setInput i input).Alone := by
  have hown : ∀ j, ((iface.setInput i input).inputs j).decoder.recovery.hasPending = true →
      j = i := by
    intro j hj
    by_contra hother
    rw [setInput_other _ hother, hidle j] at hj
    exact Bool.false_ne_true hj
  exact fun j k hj hk => (hown j hj).trans (hown k hk).symm

theorem Alone.delivered {iface : Interface} (halone : iface.Alone) (i : Fin 10) :
    (iface.delivered i).Alone := by
  intro j k hj hk
  rw [delivered_inputs] at hj hk
  exact halone j k hj hk

theorem eases_take (iface : Interface) (i : Fin 10) :
    Eases iface (iface.setInput i (iface.inputs i).takeRecovered.2) := by
  intro j hj
  by_cases hsame : j = i
  · subst hsame
    by_contra hidle
    rw [Bool.not_eq_true] at hidle
    rw [setInput_self, InputInterface.takeRecovered, Decoder.takeRecovered_idle hidle] at hj
    exact absurd (hidle.symm.trans hj) Bool.false_ne_true
  · rwa [setInput_other _ hsame] at hj

/-- An input is only read once no other has anything to recover. -/
theorem alone_rule : Rule Alone (fun _ next => next.Alone) where
  drain := fun _ h => h
  take := fun iface i h _ _ => h.of_eases (eases_take iface i)
  taken := fun iface i _ h _ _ => (h.of_eases (eases_take iface i)).delivered i
  look := fun _ _ _ hidle hlooked _ => (hlooked.closes.idle hlooked.sound hidle).alone
  read := fun _ i input _ _ hidle _ _ => hidle.alone_setInput i input
  error := fun _ _ h _ _ => h
  notice := fun _ _ _ _ hidle hlooked _ => (hlooked.closes.idle hlooked.sound hidle).alone
  broken := fun _ _ i _ hidle hlooked _ _ =>
    (hlooked.closes.idle hlooked.sound hidle).alone.delivered i
  event := fun _ i _ input _ _ hidle _ _ => (hidle.alone_setInput i input).delivered i

theorem call_alone {iface : Interface} (hsound : iface.Sound) (halone : iface.Alone)
    (call : Call) : (iface.call call).2.Alone := by
  cases call with
  | opens ifaces answers =>
      exact @open_rule Alone ifaces answers
        (fun _ _ _ hinv hattempt => hinv.of_eases hattempt.eases.2) iface halone
  | closes ifaces => exact halone.of_eases (eases_close iface ifaces)
  | watches enabled answer =>
      obtain ⟨monitor, hsame⟩ := watch_same iface enabled answer
      change (iface.watch enabled answer).2.Alone
      rw [hsame]
      exact halone
  | dispatches wait => exact dispatch_rule alone_rule hsound halone wait

theorem run_alone {iface : Interface} (hsound : iface.Sound) (hwoken : iface.Woken)
    (halone : iface.Alone) (calls : List Call) : (iface.run calls).2.Alone := by
  induction calls generalizing iface with
  | nil => exact halone
  | cons call rest ih =>
      obtain ⟨hnext, hnextWoken⟩ := call_sound_woken hsound hwoken call
      exact ih hnext hnextWoken (call_alone hsound halone call)

theorem pending_of_due {iface : Interface} {i : Fin 10} (hdue : iface.due i ≠ []) :
    (iface.inputs i).decoder.recovery.hasPending = true := by
  by_contra hidle
  rw [Bool.not_eq_true] at hidle
  exact hdue (congrArg Prod.fst (Decoder.drain_idle hidle))

/-- In any state that calls can reach, recovered events are due from one input at a time.
So many dispatches as are due return just those events, whatever is ready meanwhile: each
input's events complete and in its own order, and within any ten dispatches one of every
input that still has some. -/
theorem recovered_served {syspath : List UInt8} {scan : Except Int (List UdevEntry)}
    {iface : Interface} (hnew : new syspath scan = .ok iface) (calls : List Call)
    (waits : List (Except Int (List EpollEvent)))
    (hwaits : waits.length = (iface.run calls).2.allDue) :
    let start := (iface.run calls).2
    (∀ i j, start.due i ≠ [] → start.due j ≠ [] → i = j) ∧
    ∃ events, (start.dispatches waits).1 = events.map .ok ∧
      (∀ i, fromInput i events = start.due i) ∧
      (∀ i, (start.dispatches waits).2.due i = []) ∧
      ∀ k ≤ waits.length, ∀ i, (start.dispatches (waits.take k)).2.due i ≠ [] →
        ∃ event ∈ (events.drop k).take 10, event.kind.interface = some (ifBit i) := by
  obtain ⟨hnewSound, _, hidle, _⟩ := new_start hnew
  obtain ⟨hsound, _⟩ := run_sound_woken hnewSound hidle.woken calls
  have halone := run_alone hnewSound hidle.woken hidle.alone calls
  generalize (iface.run calls).2 = start at hwaits hsound halone
  refine ⟨fun i j hi hj => halone i j (pending_of_due hi) (pending_of_due hj), ?_⟩
  have hnodup : start.line.order.Nodup := turns_nodup _
  obtain ⟨hevents, hline, _, hfrom⟩ := dispatches_serves hsound waits (Nat.le_of_eq hwaits)
  refine ⟨(serves waits.length start.line).1.map Prod.snd, ?_, fun i => ?_, fun i => ?_,
    fun k hk i hdue => ?_⟩
  · rw [hevents, List.map_map]
    rfl
  · have hqueue := RoundRobin.serves_queue waits.length start.line i
    rw [RoundRobin.serves_all hnodup (Nat.le_of_eq hwaits.symm) (mem_turns _ i),
      List.append_nil] at hqueue
    rw [fromInput_served hfrom, hqueue]
    rfl
  · have hempty := RoundRobin.serves_all hnodup (Nat.le_of_eq hwaits.symm) (mem_turns _ i)
    rw [← hline] at hempty
    exact hempty
  · have htake : (waits.take k).length = k := List.length_take_of_le hk
    obtain ⟨hfirst, hmiddle, _, _⟩ := dispatches_serves hsound (waits.take k)
      (by rw [htake, ← allDue, ← hwaits]; exact hk)
    rw [htake] at hmiddle
    generalize (start.dispatches (waits.take k)).2 = middle at hmiddle hdue
    have hleft : middle.line.total = waits.length - k := by
      rw [hmiddle, (RoundRobin.total_serves k hnodup).1, ← allDue, hwaits]
    have hsplit : (serves waits.length start.line).1 =
        (serves k start.line).1 ++ (serves (waits.length - k) middle.line).1 := by
      have hadd := RoundRobin.serves_add k (waits.length - k) start.line
      rw [Nat.add_sub_cancel' hk] at hadd
      rw [hadd, hmiddle]
    have hlength : (serves k start.line).1.length = k := by
      have hcount := length_dispatches start (waits.take k)
      rwa [hfirst, List.length_map, htake] at hcount
    obtain ⟨event, hserved⟩ := RoundRobin.serves_round (turns_nodup _) (mem_turns _ i) hdue
      (Nat.le_of_eq hleft)
    refine ⟨event, ?_, ?_⟩
    · rw [hsplit, List.map_append, List.drop_left' (by rw [List.length_map, hlength]),
        ← List.map_take]
      refine List.mem_map.mpr ⟨(i, event), ?_, rfl⟩
      rwa [show middle.line.order.length = 10 from length_turns _] at hserved
    · have hmem : (i, event) ∈ (serves waits.length start.line).1 := by
        rw [hsplit]
        exact List.mem_append_right _ (List.mem_of_mem_take hserved)
      exact (hfrom _ hmem).trans (congrArg some (kindMask_kindOf i))

set_option maxRecDepth 2000 in
theorem due_pairRecovered : pairRecovered.due coreSlot =
    [⟨⟨2, 0⟩, .key ⟨.left, .pressed⟩⟩, ⟨⟨2, 0⟩, .key ⟨.right, .pressed⟩⟩,
      ⟨⟨2, 0⟩, .key ⟨.down, .released⟩⟩] := by
  have hdecoder : (pairRecovered.inputs coreSlot).decoder = overrunDecoder.pushRecovered.2 := by
    rw [pairRecovered, delivered_inputs, setInput_self]
  rw [due, hdecoder, Decoder.drain_pending rfl, Decoder.drain_pending rfl,
    Decoder.drain_pending rfl, Decoder.drain_pending rfl, Decoder.drain_idle rfl]
  rfl

theorem due_other {i : Fin 10} (hother : i ≠ coreSlot) : pairRecovered.due i = [] := by
  have hidle : (pairRecovered.inputs i).decoder.recovery.hasPending = false := by
    rw [pairRecovered, delivered_inputs, setInput_other _ hother]
    exact pairDropped_idle i
  exact congrArg Prod.fst (Decoder.drain_idle hidle)

theorem allDue_pairRecovered : pairRecovered.allDue = 3 := by
  have hline : pairRecovered.line = ⟨turns 1, pairRecovered.due⟩ := rfl
  have hturns : turns 1 = [1, 2, 3, 4, 5, 6, 7, 8, 9, coreSlot] := by decide
  rw [allDue, hline, RoundRobin.Line.total, hturns]
  simp (disch := decide) [due_other, due_pairRecovered]

/-- The accelerometer has reports, the poll fails and nothing is ready while the events
that an overrun left are served. -/
def otherWaits : List (Except Int (List EpollEvent)) :=
  [.ok [readyInput accelSlot nextReport []], .error 5, .ok []]

theorem recovered_served_overrun :
    ∃ iface, new [UnixPath.separator] (.ok pluggedPair) = .ok iface ∧
      ((iface.run overrunCalls).2.dispatches otherWaits).1 =
        [.ok ⟨⟨2, 0⟩, .key ⟨.left, .pressed⟩⟩, .ok ⟨⟨2, 0⟩, .key ⟨.right, .pressed⟩⟩,
          .ok ⟨⟨2, 0⟩, .key ⟨.down, .released⟩⟩] := by
  have hwaits : otherWaits.length = (pair.run overrunCalls).2.allDue := by
    rw [run_overrun, allDue_pairRecovered]
    rfl
  obtain ⟨_, events, hevents, hfrom, _⟩ :=
    recovered_served new_pair overrunCalls otherWaits hwaits
  have hcount : events.length = 3 := by
    have hlength := length_dispatches (pair.run overrunCalls).2 otherWaits
    rwa [hevents, List.length_map] at hlength
  have hdue : fromInput coreSlot events = pairRecovered.due coreSlot := run_overrun ▸ hfrom coreSlot
  -- The core input's events are as many as all there are.
  have hall : fromInput coreSlot events = events := by
    apply List.filter_sublist.eq_of_length
    change (fromInput coreSlot events).length = events.length
    rw [hdue, due_pairRecovered, hcount]
    rfl
  refine ⟨pair, new_pair, ?_⟩
  rw [hevents, ← hall, hdue, due_pairRecovered]
  rfl

end Interface

end Device

end Hid

end Wiiland
