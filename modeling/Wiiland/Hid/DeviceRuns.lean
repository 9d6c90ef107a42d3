/-
Runs of a controller through any calls.  An open input was opened at the node it still
has, recovered events that are left keep the controller readable, and `Gone` is the
last event there is.
-/
import Wiiland.Hid.DeviceCalls

namespace Wiiland

namespace Hid

namespace Device

open UnixPath (Path)

namespace Interface

theorem foldl_union_has (inputs : Fin 10 → InputInterface) (slots : List (Fin 10))
    (bits : InterfaceMask) (k : Nat) :
    (slots.foldl (fun bits i => if 0 ≤ (inputs i).fd then bits.union (ifBit i) else bits)
      bits).has k = true ↔
      bits.has k = true ∨ ∃ i ∈ slots, 0 ≤ (inputs i).fd ∧ (ifBit i).has k = true := by
  induction slots generalizing bits with
  | nil => simp
  | cons i rest ih =>
      rw [List.foldl_cons, ih]
      by_cases hopen : 0 ≤ (inputs i).fd
      · rw [if_pos hopen, InterfaceMask.has_union, Bool.or_eq_true, or_assoc]
        simp [hopen]
      · rw [if_neg hopen]
        simp [hopen]

theorem opened_has (iface : Interface) (k : Nat) :
    iface.opened.has k = true ↔ ∃ i, 0 ≤ (iface.inputs i).fd ∧ (ifBit i).has k = true := by
  rw [opened, foldl_union_has]
  simp

/-- The mask of the open inputs has the bit of exactly those. -/
theorem opened_ifPosition (iface : Interface) (i : Fin 10) :
    iface.opened.has (ifPosition i) = true ↔ 0 ≤ (iface.inputs i).fd := by
  rw [opened_has]
  constructor
  · rintro ⟨j, hopen, hbit⟩
    rwa [ifPosition_injective (ifBit_has hbit)] at hopen
  · intro hopen
    exact ⟨i, hopen, ifBit_self i⟩

/-- What one attempt to open an input comes to: an error that leaves it closed, or the
descriptor that its node was opened with. -/
inductive Attempted (iface : Interface) (ifaces : InterfaceMask) (i : Fin 10)
    (answers : OpenAnswers) : Option Int × Interface → Prop
  | skipped (hskip : ifaces.has (ifPosition i) = false ∨ 0 ≤ (iface.inputs i).fd) :
      Attempted iface ifaces i answers (none, iface)
  | refused (errno : Int) (hnegative : errno < 0)
      (hwanted : ifaces.has (ifPosition i) = true)
      (hclosed : (iface.inputs i).fd < 0) (hwhy : (iface.inputs i).available = false →
        errno = -enodev) :
      Attempted iface ifaces i answers (some errno, iface)
  | dropped (errno : Int) (input : InputInterface) (hnegative : errno < 0)
      (hwanted : ifaces.has (ifPosition i) = true) (hclosed : (iface.inputs i).fd < 0)
      (havailable : (iface.inputs i).available = true)
      (hinput : input.decoder.interface = (iface.inputs i).decoder.interface ∧
        input.available = (iface.inputs i).available ∧ input.node = (iface.inputs i).node) :
      Attempted iface ifaces i answers (some errno, iface.setInput i input.close)
  | opened (path : Path) (fd : Nat) (keys : List (BitVec 64)) (abs : List (Nat × Int))
      (next : Interface) (hwanted : ifaces.has (ifPosition i) = true)
      (hclosed : (iface.inputs i).fd < 0) (havailable : (iface.inputs i).available = true)
      (hnode : (iface.inputs i).node = some path)
      (hopens : answers.node path (ifaces.has 16) = .ok fd)
      (hinputs : next.inputs = Function.update iface.inputs i
        { (iface.inputs i).resetDecoder with
          decoder := (iface.inputs i).resetDecoder.decoder.seedState keys abs, fd := fd })
      (hrest : SameRest iface next) (hmotor : iface.Motor → next.Motor) :
      Attempted iface ifaces i answers (none, next)

theorem queryRecoveryState_negative {kind : InterfaceKind} {answers : StateAnswers}
    {errno : Int} (hquery : queryRecoveryState kind answers = .error errno) : errno < 0 := by
  unfold queryRecoveryState at hquery
  split at hquery
  · rename_i error _
    cases hquery
    exact error.negative
  · obtain ⟨result, history, hrun, hgenuine, hends⟩ := @queryAbsState_ends answers.query kind
    simp only [hrun, Option.get_some] at hquery
    cases result with
    | ok abs => cases hquery
    | error failed =>
        cases hquery
        obtain ⟨entry, hentry, hfatal⟩ := hends
        obtain ⟨before, after, hsplit⟩ := List.append_of_mem hentry
        have hanswer := hgenuine before entry after hsplit
        rw [hanswer, StateAnswers.query] at hfatal
        cases hquery : answers.axes before entry.1 with
        | ok value =>
            rw [hquery] at hfatal
            cases hfatal
        | error error =>
            rw [hquery] at hfatal
            simp only [Except.mapError, fatal] at hfatal
            split at hfatal
            · cases hfatal
              exact error.negative
            · cases hfatal

theorem queryInitialState_negative {i : Fin 10} {name : Except Errno (List UInt8)}
    {answers : StateAnswers} {errno : Int}
    (hquery : queryInitialState i name answers = .error errno) : errno < 0 := by
  unfold queryInitialState at hquery
  split at hquery
  · rename_i error
    cases hquery
    exact error.negative
  · split at hquery
    · rename_i hname
      cases hquery
      unfold validateEvdevName at hname
      split at hname
      · cases hname
      · cases hname
        decide
    · exact queryRecoveryState_negative hquery

theorem openOne_attempted (iface : Interface) (ifaces : InterfaceMask) (i : Fin 10)
    (answers : OpenAnswers) : Attempted iface ifaces i answers
      (iface.openOne ifaces i answers) := by
  unfold openOne
  rw [InterfaceMask.has_inter, all_has, Bool.and_true]
  split
  · rename_i hskip
    rw [Bool.or_eq_true, Bool.not_eq_true', decide_eq_true_eq] at hskip
    exact .skipped hskip
  · rename_i hwanted
    rw [Bool.or_eq_true, Bool.not_eq_true', decide_eq_true_eq, not_or, Bool.not_eq_false,
      Int.not_le] at hwanted
    obtain ⟨hmask, hclosed⟩ := hwanted
    split
    · exact .refused _ (by decide) hmask hclosed fun _ => rfl
    · rename_i havailable
      rw [Bool.not_eq_true', Bool.not_eq_false] at havailable
      have hwhy : ∀ {errno : Int}, (iface.inputs i).available = false → errno = -enodev :=
        fun h => absurd (h.symm.trans havailable) Bool.false_ne_true
      split
      · exact .refused _ (by decide) hmask hclosed hwhy
      · rename_i path hnode
        unfold openInput
        split
        · rename_i error _
          exact .refused _ error.negative hmask hclosed hwhy
        · rename_i fd hopens
          split
          · rename_i hquery
            exact .refused _ (queryInitialState_negative hquery) hmask hclosed hwhy
          · rename_i keys abs _
            simp only
            split
            · rename_i error _
              refine .dropped _ _ error.negative hmask hclosed havailable ⟨?_, rfl, rfl⟩
              rw [Decoder.seedState]
              exact Decoder.updateAll_interface ..
            · have hmotor : iface.Motor → (iface.setInput i
                  { (iface.inputs i).resetDecoder with
                    decoder := (iface.inputs i).resetDecoder.decoder.seedState keys abs,
                    fd := fd }).Motor := fun hmotor =>
                setInput_motor hmotor fun hopen => absurd hclosed (Int.not_lt.mpr hopen)
              split
              · rename_i hslot
                split
                · refine .opened path fd keys abs _ hmask hclosed havailable hnode hopens rfl
                    ⟨rfl, rfl, rfl, rfl, rfl, rfl⟩ fun _ _ =>
                      ⟨i, hslot.imp (congrArg Fin.val) (congrArg Fin.val), ?_⟩
                  exact congrArg InputInterface.fd (setInput_self ..)
                · exact .opened path fd keys abs _ hmask hclosed havailable hnode hopens rfl
                    (sameRest_setInput ..) hmotor
              · exact .opened path fd keys abs _ hmask hclosed havailable hnode hopens rfl
                  (sameRest_setInput ..) hmotor

theorem Attempted.sound {iface : Interface} {ifaces : InterfaceMask} {i : Fin 10}
    {answers : OpenAnswers} {result : Option Int × Interface}
    (hattempt : Attempted iface ifaces i answers result) (hsound : iface.Sound) :
    result.2.Sound := by
  cases hattempt with
  | skipped => exact hsound
  | refused => exact hsound
  | dropped errno input _ hwanted hclosed havailable hinput =>
      have hnotOpen := Int.not_le.mpr hclosed
      have hkept : input.close.Kept i :=
        ⟨hinput.1.trans (hsound.kept i).interface,
          (InputInterface.idle_of_new input.decoder.interface).2,
          fun _ => (InputInterface.idle_of_new input.decoder.interface).1,
          fun hopen => absurd (InputInterface.close_fd _) (Int.not_lt.mpr hopen), rfl⟩
      exact hsound.setInput hkept hinput.2.1 hinput.2.2 fun hopen => absurd hopen hnotOpen
  | opened path fd keys abs next hwanted hclosed havailable hnode hopens hinputs hrest hmotor =>
      apply hsound.of_inputs hrest (hmotor hsound.motor)
      intro j
      rw [hinputs]
      by_cases hsame : j = i
      · subst hsame
        rw [Function.update_self]
        refine ⟨⟨?_, fun _ => ?_, fun _ => ?_, fun _ => havailable, rfl⟩, rfl, rfl⟩
        · exact (Decoder.updateAll_interface ..).trans (hsound.kept j).interface
        · rfl
        · rfl
      · rw [Function.update_of_ne hsame]
        exact ⟨hsound.kept j, rfl, rfl⟩

/-- What every attempt at an input keeps holds after all of them. -/
theorem open_rule {Inv : Interface → Prop} {ifaces : InterfaceMask}
    {answers : Fin 10 → OpenAnswers}
    (hstep : ∀ iface i result, Inv iface → Attempted iface ifaces i (answers i) result →
      Inv result.2)
    {iface : Interface} (hinv : Inv iface) : Inv (iface.open_ ifaces answers).2 := by
  have hfold : ∀ (slots : List (Fin 10)) (state : Interface × Int), Inv state.1 →
      Inv (slots.foldl (openStep ifaces answers) state).1 := by
    intro slots
    induction slots with
    | nil => exact fun state h => h
    | cons i rest ih =>
        intro state hstate
        exact ih _ (hstep state.1 i _ hstate (openOne_attempted ..))
  exact hfold (List.finRange 10) (iface, 0) hinv

/-- Nothing of a controller that is gone can be opened. -/
theorem open_gone {iface : Interface} (hsound : iface.Sound) (hgone : iface.gone = true)
    (ifaces : InterfaceMask) (answers : Fin 10 → OpenAnswers) :
    (iface.open_ ifaces answers).2 = iface ∧
      ((∃ i, ifaces.has (ifPosition i) = true) →
        (iface.open_ ifaces answers).1 = .error ⟨iface.opened, -enodev⟩) := by
  have hclosed := hsound.closed hgone
  have havailable : ∀ i, (iface.inputs i).available = false := fun i => by
    rw [hsound.available, hsound.gone hgone, InterfaceMask.has_empty]
  have hone : ∀ i, iface.openOne ifaces i (answers i) =
      (if ifaces.has (ifPosition i) = true then some (-enodev) else none, iface) := by
    intro i
    have hattempt := openOne_attempted iface ifaces i (answers i)
    generalize hresult : iface.openOne ifaces i (answers i) = result at hattempt
    cases hattempt with
    | skipped hskip =>
        rcases hskip with hunwanted | hopen
        · rw [hunwanted, if_neg Bool.false_ne_true]
        · exact absurd (hclosed i) (Int.not_lt.mpr hopen)
    | refused errno _ hwanted _ hwhy => rw [if_pos hwanted, hwhy (havailable i)]
    | dropped _ _ _ _ _ hthere => exact absurd ((havailable i).symm.trans hthere) Bool.false_ne_true
    | opened _ _ _ _ _ _ _ hthere =>
        exact absurd ((havailable i).symm.trans hthere) Bool.false_ne_true
  have hfold : ∀ (slots : List (Fin 10)) (first : Int), first = 0 ∨ first = -enodev →
      slots.foldl (openStep ifaces answers) (iface, first) =
        (iface, if first ≠ 0 ∨ ∃ i ∈ slots, ifaces.has (ifPosition i) = true then -enodev
          else 0) := by
    intro slots
    induction slots with
    | nil =>
        intro first hfirst
        rcases hfirst with rfl | rfl
        · simp
        · simp [enodev]
    | cons i rest ih =>
        intro first hfirst
        have hstep : openStep ifaces answers (iface, first) i =
            (iface, if ifaces.has (ifPosition i) = true then -enodev else first) := by
          rw [openStep, hone i]
          cases hwanted : ifaces.has (ifPosition i) with
          | true =>
              rcases hfirst with rfl | rfl <;> rfl
          | false => rfl
        rw [List.foldl_cons, hstep]
        cases hwanted : ifaces.has (ifPosition i) with
        | true =>
            rw [if_pos rfl, ih _ (Or.inr rfl)]
            simp [hwanted, enodev]
        | false =>
            rw [if_neg Bool.false_ne_true, ih _ hfirst]
            simp [hwanted]
  constructor
  · rw [open_, hfold _ _ (Or.inl rfl)]
  · rintro ⟨i, hwanted⟩
    rw [open_, hfold _ _ (Or.inl rfl), if_pos (Or.inr ⟨i, List.mem_finRange i, hwanted⟩)]
    rfl

end Interface

/-- A call with everything the kernel and udev answer to it. -/
inductive Call where
  | opens (ifaces : InterfaceMask) (answers : Fin 10 → OpenAnswers)
  | closes (ifaces : InterfaceMask)
  | watches (enabled : Bool) (answer : Except Int Unit)
  | dispatches (wait : Except Int (List EpollEvent))

namespace Interface

/-- One call, with the event that it returns. -/
def call (iface : Interface) : Call → Option Event × Interface
  | .opens ifaces answers => (none, (iface.open_ ifaces answers).2)
  | .closes ifaces => (none, iface.close ifaces)
  | .watches enabled answer => (none, (iface.watch enabled answer).2)
  | .dispatches wait =>
      ((iface.dispatch wait).1.toOption, (iface.dispatch wait).2)

/-- A run of calls, with the events it returns. -/
def run (iface : Interface) : List Call → List Event × Interface
  | [] => ([], iface)
  | call :: rest =>
      ((iface.call call).1.toList ++ ((iface.call call).2.run rest).1,
        ((iface.call call).2.run rest).2)

theorem watch_same (iface : Interface) (enabled : Bool) (answer : Except Int Unit) :
    ∃ monitor, (iface.watch enabled answer).2 = { iface with monitor } := by
  unfold watch
  split
  · exact ⟨false, rfl⟩
  · split
    · exact ⟨iface.monitor, rfl⟩
    · cases answer with
      | error errno => exact ⟨iface.monitor, rfl⟩
      | ok _ => exact ⟨true, rfl⟩

theorem sound_fresh (syspath : List UInt8) : (fresh syspath).Sound where
  kept := InputInterface.new_kept
  available := fun i => (InterfaceMask.has_empty (ifPosition i)).symm
  node := fun _ => rfl
  nodes := Nodes.Sound.clear .default
  motor := fun hdriven => absurd hdriven (by simp [fresh])
  gone := fun h => absurd h Bool.false_ne_true

theorem new_syspath {syspath : List UInt8} {scan : Except Int (List UdevEntry)}
    {iface : Interface} (hnew : new syspath scan = .ok iface) : iface.syspath = syspath := by
  unfold new at hnew
  rcases refresh_cases (fresh syspath) scan with ⟨errno, hfailed⟩ |
      ⟨nodes, next, _, hrefresh, _, hrest, _⟩
  · rw [hfailed] at hnew
    cases hnew
  · rw [hrefresh] at hnew
    obtain rfl := Except.ok.inj hnew
    exact hrest.syspath

/-- What holds of a new controller. -/
theorem new_start {syspath : List UInt8} {scan : Except Int (List UdevEntry)}
    {iface : Interface} (hnew : new syspath scan = .ok iface) :
    iface.Sound ∧ iface.gone = false ∧ iface.Idle ∧ ∀ i, (iface.inputs i).fd < 0 := by
  have hsound := (sound_fresh syspath).refresh rfl scan
  have hcloses := closes_refresh (fresh syspath) scan
  have hhere := (looked_refresh (sound_fresh syspath) rfl scan).2
  unfold new at hnew
  rcases hrefresh : (fresh syspath).refresh scan with ⟨errno | _, next⟩
  · rw [hrefresh] at hnew
    cases hnew
  · rw [hrefresh] at hnew hsound hcloses hhere
    obtain rfl := Except.ok.inj hnew
    have hclosed : ∀ i, (next.inputs i).fd < 0 := by
      intro i
      by_contra hopen
      have hfd := (hcloses i (Int.not_lt.mp hopen)).1
      rw [hfd] at hopen
      exact hopen (by simp [fresh, InputInterface.new])
    exact ⟨hsound, hhere, fun i => (hsound.kept i).idle (hclosed i), hclosed⟩

/-- A controller whose inputs are not there yet. -/
theorem new_plain : ∃ iface, new [UnixPath.separator] (.ok []) = .ok iface := ⟨_, rfl⟩

/-- While something is left to recover, the controller's descriptor is readable. -/
def Woken (iface : Interface) : Prop := iface.recoveryPending = true → 0 < iface.wake

theorem Idle.woken {iface : Interface} (hidle : iface.Idle) : iface.Woken := fun hpending =>
  absurd (((recoveryPending_eq_false iface).mpr hidle).symm.trans hpending) Bool.false_ne_true

theorem delivered_woken (iface : Interface) (i : Fin 10) : (iface.delivered i).Woken := by
  rw [Interface.delivered, signalRecoveryIfPending]
  split
  · exact fun _ => Nat.succ_pos _
  · rename_i hidle
    exact fun hpending => absurd hpending hidle

/-- A dispatch without an event leaves nothing to recover, and one with an event leaves
a signal for what there is. -/
def Signalled (result : Except Int Event) (next : Interface) : Prop :=
  next.Sound ∧ next.Woken ∧ ∀ errno, result = .error errno → next.Idle

theorem signalled_rule : Rule (fun _ => True) Signalled where
  drain := fun _ _ => trivial
  take := fun _ _ _ _ _ => trivial
  taken := fun iface i event _ hsound _ =>
    ⟨(hsound.takeRecovered i).delivered i, delivered_woken _ i, fun _ h => by cases h⟩
  look := fun _ _ _ _ _ _ => trivial
  read := fun _ _ _ _ _ _ _ _ => trivial
  error := fun iface errno _ hsound hidle => ⟨hsound, hidle.woken, fun _ _ => hidle⟩
  notice := fun iface next event _ hidle hlooked _ =>
    ⟨hlooked.sound, (hlooked.closes.idle hlooked.sound hidle).woken, fun _ h => by cases h⟩
  broken := fun iface next i _ _ hlooked _ _ =>
    ⟨hlooked.sound.delivered i, delivered_woken _ i, fun _ h => by cases h⟩
  event := fun iface i event input _ hsound _ hopen hread =>
    ⟨(hsound.read hopen hread).delivered i, delivered_woken _ i, fun _ h => by cases h⟩

theorem dispatch_signalled {iface : Interface} (hsound : iface.Sound)
    (wait : Except Int (List EpollEvent)) :
    Signalled (iface.dispatch wait).1 (iface.dispatch wait).2 :=
  dispatch_rule signalled_rule hsound trivial wait

/-- What is left to recover was left before. -/
def Eases (iface next : Interface) : Prop :=
  ∀ i, (next.inputs i).decoder.recovery.hasPending = true →
    (iface.inputs i).decoder.recovery.hasPending = true

theorem Woken.of_eases {iface next : Interface} (hwoken : iface.Woken)
    (hwake : next.wake = iface.wake) (heases : Eases iface next) : next.Woken := by
  intro hpending
  rw [hwake]
  apply hwoken
  rw [recoveryPending, List.any_eq_true] at hpending ⊢
  obtain ⟨i, hmem, hi⟩ := hpending
  exact ⟨i, hmem, heases i hi⟩

/-- An attempt to open an input leaves it with nothing to recover, or as it was. -/
theorem Attempted.eases {iface : Interface} {ifaces : InterfaceMask} {i : Fin 10}
    {answers : OpenAnswers} {result : Option Int × Interface}
    (hattempt : Attempted iface ifaces i answers result) :
    result.2.wake = iface.wake ∧ Eases iface result.2 := by
  cases hattempt with
  | skipped => exact ⟨rfl, fun _ h => h⟩
  | refused => exact ⟨rfl, fun _ h => h⟩
  | dropped errno input _ hwanted hclosed havailable hinput =>
      refine ⟨rfl, fun j hj => ?_⟩
      by_cases hsame : j = i
      · subst hsame
        simp only [setInput_self] at hj
        exact absurd ((InputInterface.idle_of_new input.decoder.interface).1.symm.trans hj)
          Bool.false_ne_true
      · simp only [setInput_other _ hsame] at hj
        exact hj
  | opened path fd keys abs next _ _ _ _ _ hinputs hrest _ =>
      refine ⟨hrest.wake, fun j hj => ?_⟩
      simp only [hinputs] at hj
      by_cases hsame : j = i
      · subst hsame
        rw [Function.update_self] at hj
        exact absurd hj Bool.false_ne_true
      · rwa [Function.update_of_ne hsame] at hj

theorem eases_close (iface : Interface) (ifaces : InterfaceMask) :
    Eases iface (iface.close ifaces) := by
  intro i hi
  rw [close_inputs] at hi
  split at hi
  · exact absurd hi Bool.false_ne_true
  · exact hi

theorem call_sound_woken {iface : Interface} (hsound : iface.Sound) (hwoken : iface.Woken)
    (call : Call) : (iface.call call).2.Sound ∧ (iface.call call).2.Woken := by
  cases call with
  | opens ifaces answers =>
      refine @open_rule (fun iface => iface.Sound ∧ iface.Woken) ifaces answers ?_ iface
        ⟨hsound, hwoken⟩
      intro iface i result hinv hattempt
      obtain ⟨hwake, heases⟩ := hattempt.eases
      exact ⟨hattempt.sound hinv.1, hinv.2.of_eases hwake heases⟩
  | closes ifaces =>
      exact ⟨hsound.close ifaces, hwoken.of_eases (close_rest ..).wake (eases_close iface ifaces)⟩
  | watches enabled answer =>
      obtain ⟨monitor, hsame⟩ := watch_same iface enabled answer
      change (iface.watch enabled answer).2.Sound ∧ (iface.watch enabled answer).2.Woken
      rw [hsame]
      exact ⟨⟨hsound.kept, hsound.available, hsound.node, hsound.nodes, hsound.motor,
        hsound.gone⟩, hwoken⟩
  | dispatches wait =>
      obtain ⟨hnext, hnextWoken, _⟩ := dispatch_signalled hsound wait
      exact ⟨hnext, hnextWoken⟩

theorem run_sound_woken {iface : Interface} (hsound : iface.Sound) (hwoken : iface.Woken)
    (calls : List Call) : (iface.run calls).2.Sound ∧ (iface.run calls).2.Woken := by
  induction calls generalizing iface with
  | nil => exact ⟨hsound, hwoken⟩
  | cons call rest ih =>
      obtain ⟨hnext, hnextWoken⟩ := call_sound_woken hsound hwoken call
      exact ih hnext hnextWoken

/-- No recovered event is left without a wakeup: whatever was called, the event
descriptor is signalled while one is pending, and a dispatch that finds no event leaves
none. -/
theorem run_wakes {syspath : List UInt8} {scan : Except Int (List UdevEntry)}
    {iface : Interface} (hnew : new syspath scan = .ok iface) (calls : List Call) :
    let last := (iface.run calls).2
    (last.recoveryPending = true → 0 < last.wake) ∧
      ∀ wait errno, (last.dispatch wait).1 = .error errno →
        (last.dispatch wait).2.recoveryPending = false := by
  obtain ⟨hsound, _, hidle, _⟩ := new_start hnew
  obtain ⟨hlast, hwoken⟩ := run_sound_woken hsound hidle.woken calls
  refine ⟨hwoken, fun wait errno herror => ?_⟩
  exact (recoveryPending_eq_false _).mpr ((dispatch_signalled hlast wait).2.2 errno herror)

/-- An enumeration with a core input and an accelerometer. -/
def pluggedPair : List UdevEntry :=
  [⟨some (literal "/1"),
      some ⟨some (literal "input"), some (literal "input7"),
        some (literal "Nintendo Wii Remote"), none⟩⟩,
    ⟨some (literal "/2"),
      some ⟨some (literal "input"), some (literal "event7"), none,
        some (literal "/dev/input/event7")⟩⟩,
    ⟨some (literal "/3"),
      some ⟨some (literal "input"), some (literal "input8"),
        some (literal "Nintendo Wii Remote Accelerometer"), none⟩⟩,
    ⟨some (literal "/4"),
      some ⟨some (literal "input"), some (literal "event8"), none,
        some (literal "/dev/input/event8")⟩⟩]

/-- Answers that let an input be opened while some keys are held. -/
def grantedHeld (keys : List (BitVec 64)) (i : Fin 10) : OpenAnswers where
  node := fun _ _ => .ok (7 + i.val)
  name := .ok (literal (ifNames.getD i ""))
  state := ⟨.ok keys, fun _ _ => .ok 0⟩
  added := .ok ()
  effect := none

/-- One event that an input has ready, and the keys that it holds. -/
def readyInput (i : Fin 10) (event : InputEvent) (keys : List (BitVec 64)) : EpollEvent where
  tag := i.val + 1
  readable := true
  broken := false
  received := []
  reads := [.input event]
  state := ⟨.ok keys, fun _ _ => .ok 0⟩
  scan := .ok []

theorem dispatch_readyInput {iface : Interface} (hidle : iface.Idle) {i : Fin 10}
    (hopen : 0 ≤ (iface.inputs i).fd) (event : InputEvent) (keys : List (BitVec 64)) :
    iface.dispatch (.ok [readyInput i event keys]) =
      match iface.drainRecoveryWake.receive i (readyInput i event keys) event with
      | (some event, next) => (.ok event, next.delivered i)
      | (none, next) => (.error eagain, next) := by
  have hmonitor : i.val + 1 ≠ monitorEpollTag := by
    have := i.isLt
    rw [monitorEpollTag]
    omega
  have hrecovery : i.val + 1 ≠ recoveryEpollTag := by
    have := i.isLt
    rw [recoveryEpollTag]
    omega
  have hindex : epollInputIndex (readyInput i event keys).tag = some i := by
    change epollInputIndex (i.val + 1) = some i
    rw [epollInputIndex, dif_pos ⟨Nat.succ_pos _, i.isLt⟩]
    rfl
  have hread : iface.drainRecoveryWake.readOne i (readyInput i event keys) =
      iface.drainRecoveryWake.receive i (readyInput i event keys) event :=
    if_neg (Int.not_lt.mpr hopen)
  rw [dispatch_idle hidle]
  change iface.drainRecoveryWake.serveReady [readyInput i event keys] = _
  rw [serveReady]
  change (if i.val + 1 = monitorEpollTag then _ else _) = _
  rw [if_neg hmonitor]
  change (if i.val + 1 = recoveryEpollTag then _ else _) = _
  rw [if_neg hrecovery]
  rw [hindex]
  simp only [hread]
  rfl

def pair : Interface := ((fresh [UnixPath.separator]).refresh (.ok pluggedPair)).2

theorem new_pair : new [UnixPath.separator] (.ok pluggedPair) = .ok pair := rfl

def coreSlot : Fin 10 := inputSlot 0
def accelSlot : Fin 10 := inputSlot 1

def droppedReport : InputEvent := ⟨⟨1, 0⟩, evSyn, synDropped, 0⟩
def nextReport : InputEvent := ⟨⟨2, 0⟩, evSyn, synReport, 0⟩

/-- Down is held. -/
def keysBefore : List (BitVec 64) := [0, 1 <<< 44]

/-- Up, left and right are held. -/
def keysAfter : List (BitVec 64) := [0, 1 <<< 39 ||| 1 <<< 41 ||| 1 <<< 42]

/-- Reports of the core input are dropped while other keys come to be held. -/
def overrunCalls : List Call :=
  [.opens ((ifBit coreSlot).union (ifBit accelSlot)) (grantedHeld keysBefore),
    .dispatches (.ok [readyInput coreSlot droppedReport []]),
    .dispatches (.ok [readyInput coreSlot nextReport keysAfter])]

def pairOpened : Interface :=
  (pair.open_ ((ifBit coreSlot).union (ifBit accelSlot)) (grantedHeld keysBefore)).2

def pairDropped : Interface :=
  pairOpened.drainRecoveryWake.setInput coreSlot
    { ((pairOpened.inputs coreSlot).push droppedReport).2 with awaitingSync := true }

/-- The core input with its key state queried again. -/
def overrunDecoder : Decoder := (pairDropped.inputs coreSlot).decoder.recover keysAfter [] ⟨2, 0⟩

/-- The controller after the first recovered event. -/
def pairRecovered : Interface :=
  (pairDropped.drainRecoveryWake.setInput coreSlot
    { pairDropped.inputs coreSlot with
      decoder := overrunDecoder.pushRecovered.2, awaitingSync := false }).delivered coreSlot

theorem pairOpened_idle : pairOpened.Idle := (recoveryPending_eq_false _).mp rfl

theorem pairDropped_idle : pairDropped.Idle := (recoveryPending_eq_false _).mp rfl

theorem dispatch_dropped :
    pairOpened.dispatch (.ok [readyInput coreSlot droppedReport []]) =
      (.error eagain, pairDropped) := by
  rw [@dispatch_readyInput pairOpened pairOpened_idle coreSlot (by decide)]
  rfl

def upPressed : Event := ⟨⟨2, 0⟩, .key ⟨.up, .pressed⟩⟩

set_option maxRecDepth 2000 in
theorem dispatch_recovered :
    pairDropped.dispatch (.ok [readyInput coreSlot nextReport keysAfter]) =
      (.ok upPressed, pairRecovered) := by
  have hfirst : overrunDecoder.pushRecovered.1 = some upPressed := rfl
  have htaken : overrunDecoder.takeRecovered =
      (some upPressed, overrunDecoder.pushRecovered.2) := by
    rw [Decoder.takeRecovered_pending rfl, ← Prod.eta overrunDecoder.pushRecovered, hfirst]
  have hreceived : pairDropped.drainRecoveryWake.receive coreSlot
      (readyInput coreSlot nextReport keysAfter) nextReport =
      (overrunDecoder.takeRecovered.1, pairDropped.drainRecoveryWake.setInput coreSlot
        { pairDropped.inputs coreSlot with
          decoder := overrunDecoder.takeRecovered.2, awaitingSync := false }) := rfl
  rw [@dispatch_readyInput pairDropped pairDropped_idle coreSlot (by decide), hreceived, htaken,
    pairRecovered]

theorem run_cons (iface : Interface) (call : Call) (rest : List Call) :
    (iface.run (call :: rest)).2 = ((iface.call call).2.run rest).2 := rfl

theorem run_nil (iface : Interface) : (iface.run []).2 = iface := rfl

theorem call_opens (iface : Interface) (ifaces : InterfaceMask)
    (answers : Fin 10 → OpenAnswers) :
    (iface.call (.opens ifaces answers)).2 = (iface.open_ ifaces answers).2 := rfl

theorem call_dispatches (iface : Interface) (wait : Except Int (List EpollEvent)) :
    (iface.call (.dispatches wait)).2 = (iface.dispatch wait).2 := rfl

theorem call_pairOpened : (pair.call (.opens ((ifBit coreSlot).union (ifBit accelSlot))
    (grantedHeld keysBefore))).2 = pairOpened := call_opens ..

theorem call_pairDropped : (pairOpened.call
    (.dispatches (.ok [readyInput coreSlot droppedReport []]))).2 = pairDropped :=
  (call_dispatches ..).trans (congrArg Prod.snd dispatch_dropped)

theorem call_pairRecovered : (pairDropped.call
    (.dispatches (.ok [readyInput coreSlot nextReport keysAfter]))).2 = pairRecovered :=
  (call_dispatches ..).trans (congrArg Prod.snd dispatch_recovered)

theorem run_overrun : (pair.run overrunCalls).2 = pairRecovered := by
  rw [overrunCalls, run_cons, call_pairOpened, run_cons, call_pairDropped, run_cons,
    call_pairRecovered, run_nil]

theorem pairRecovered_pending : pairRecovered.recoveryPending = true := rfl

/-- An overrun whose recovery leaves events, and a dispatch that finds none. -/
theorem run_wakes_overrun : ∃ iface, new [UnixPath.separator] (.ok pluggedPair) = .ok iface ∧
    (iface.run overrunCalls).2.recoveryPending = true ∧ 0 < (iface.run overrunCalls).2.wake ∧
    let opened := (iface.run (overrunCalls.take 1)).2
    let ended := opened.dispatch (.ok [readyInput coreSlot droppedReport []])
    ended.1 = .error eagain ∧ ended.2.recoveryPending = false := by
  have hpending : (pair.run overrunCalls).2.recoveryPending = true :=
    run_overrun ▸ pairRecovered_pending
  have hopened : (pair.run (overrunCalls.take 1)).2 = pairOpened := by
    rw [overrunCalls, List.take_succ_cons, List.take_zero, run_cons, call_pairOpened, run_nil]
  have herror : ((pair.run (overrunCalls.take 1)).2.dispatch
      (.ok [readyInput coreSlot droppedReport []])).1 = .error eagain := by
    rw [hopened, dispatch_dropped]
  exact ⟨pair, new_pair, hpending, (run_wakes new_pair overrunCalls).1 hpending, herror,
    (run_wakes new_pair (overrunCalls.take 1)).2 _ _ herror⟩

/-- The inputs open now are those opened before, at the same nodes. -/
def SameOpen (iface next : Interface) : Prop :=
  ∀ i, 0 ≤ (next.inputs i).fd →
    (next.inputs i).fd = (iface.inputs i).fd ∧ (next.inputs i).node = (iface.inputs i).node

theorem SameOpen.trans {first middle last : Interface} (hfirst : SameOpen first middle)
    (hsecond : SameOpen middle last) : SameOpen first last := by
  intro i hopen
  obtain ⟨hfd, hnode⟩ := hsecond i hopen
  obtain ⟨hfd', hnode'⟩ := hfirst i (hfd ▸ hopen)
  exact ⟨hfd.trans hfd', hnode.trans hnode'⟩

theorem Closes.sameOpen {iface next : Interface} (hcloses : Closes iface next) :
    SameOpen iface next := fun i hopen => ⟨(hcloses i hopen).1, (hcloses i hopen).2.1⟩

theorem sameOpen_setInput (iface : Interface) {i : Fin 10} {input : InputInterface}
    (hfd : input.fd = (iface.inputs i).fd) (hnode : input.node = (iface.inputs i).node) :
    SameOpen iface (iface.setInput i input) := by
  intro j _
  by_cases hsame : j = i
  · subst hsame
    rw [setInput_self]
    exact ⟨hfd, hnode⟩
  · rw [setInput_other _ hsame]
    exact ⟨rfl, rfl⟩

theorem SameOpen.delivered {iface next : Interface} (hsame : SameOpen iface next)
    (i : Fin 10) : SameOpen iface (next.delivered i) := by
  intro j hopen
  rw [delivered_inputs] at hopen ⊢
  exact hsame j hopen

theorem SameOpen.take {start iface : Interface} (hsame : SameOpen start iface) (i : Fin 10) :
    SameOpen start (iface.setInput i (iface.inputs i).takeRecovered.2) :=
  hsame.trans (@sameOpen_setInput iface i (iface.inputs i).takeRecovered.2 rfl rfl)

theorem SameOpen.read {start iface : Interface} (hsame : SameOpen start iface) {i : Fin 10}
    {event : Option Event} {input : InputInterface}
    (hread : (iface.inputs i).Read event input) : SameOpen start (iface.setInput i input) :=
  hsame.trans (sameOpen_setInput iface hread.same.1 hread.same.2.1)

theorem sameOpen_rule (start : Interface) :
    Rule (SameOpen start) (fun _ next => SameOpen start next) where
  drain := fun _ h => h
  take := fun _ i h _ _ => h.take i
  taken := fun _ i _ h _ _ => (h.take i).delivered i
  look := fun _ _ h _ hlooked _ => h.trans hlooked.closes.sameOpen
  read := fun _ _ _ h _ _ _ hread => h.read hread
  error := fun _ _ h _ _ => h
  notice := fun _ _ _ h _ hlooked _ => h.trans hlooked.closes.sameOpen
  broken := fun _ _ i h _ hlooked _ _ => (h.trans hlooked.closes.sameOpen).delivered i
  event := fun _ i _ _ h _ _ _ hread => (h.read hread).delivered i

/-- The kernel gave a descriptor for a node of an input in one of the calls. -/
def OpenedBy (calls : List Call) (i : Fin 10) (node : Option Path) (fd : Int) : Prop :=
  ∃ path ifaces answers opened, node = some path ∧ fd = Int.ofNat opened ∧
    Call.opens ifaces answers ∈ calls ∧ ifaces.has (ifPosition i) = true ∧
    (answers i).node path (ifaces.has 16) = .ok opened

/-- Every open input was opened by one of the calls at the node it has. -/
def Accounted (calls : List Call) (iface : Interface) : Prop :=
  ∀ i, 0 ≤ (iface.inputs i).fd → OpenedBy calls i (iface.inputs i).node (iface.inputs i).fd

theorem Accounted.of_sameOpen {calls : List Call} {iface next : Interface}
    (haccounted : Accounted calls iface) (hsame : SameOpen iface next) :
    Accounted calls next := by
  intro i hopen
  obtain ⟨hfd, hnode⟩ := hsame i hopen
  rw [hfd, hnode]
  exact haccounted i (hfd ▸ hopen)

theorem Accounted.more {calls : List Call} {iface : Interface}
    (haccounted : Accounted calls iface) (call : Call) : Accounted (calls ++ [call]) iface := by
  intro i hopen
  obtain ⟨path, ifaces, answers, opened, hnode, hfd, hcall, hrest⟩ := haccounted i hopen
  exact ⟨path, ifaces, answers, opened, hnode, hfd, List.mem_append_left _ hcall, hrest⟩

theorem call_accounted {calls : List Call} {iface : Interface} (hsound : iface.Sound)
    (haccounted : Accounted calls iface) (call : Call) :
    Accounted (calls ++ [call]) (iface.call call).2 := by
  have hmore := haccounted.more call
  cases call with
  | opens ifaces answers =>
      refine @open_rule (Accounted (calls ++ [.opens ifaces answers])) ifaces answers ?_ iface
        hmore
      intro iface i result hinv hattempt
      cases hattempt with
      | skipped => exact hinv
      | refused => exact hinv
      | dropped errno input _ hwanted hclosed havailable hinput =>
          apply hinv.of_sameOpen
          intro j hopen
          by_cases hsame : j = i
          · subst hsame
            rw [setInput_self] at hopen
            exact absurd (InputInterface.close_fd _) (Int.not_lt.mpr hopen)
          · rw [setInput_other _ hsame]
            exact ⟨rfl, rfl⟩
      | opened path fd keys abs next hwanted _ _ hnode hopens hinputs _ _ =>
          intro j hopen
          simp only [hinputs] at hopen ⊢
          by_cases hsame : j = i
          · subst hsame
            rw [Function.update_self]
            exact ⟨path, ifaces, answers, fd, hnode, rfl,
              List.mem_append_right _ List.mem_cons_self, hwanted, hopens⟩
          · rw [Function.update_of_ne hsame] at hopen ⊢
            exact hinv j hopen
  | closes ifaces => exact hmore.of_sameOpen (closes_close iface ifaces).sameOpen
  | watches enabled answer =>
      obtain ⟨monitor, hsame⟩ := watch_same iface enabled answer
      change Accounted _ (iface.watch enabled answer).2
      rw [hsame]
      exact hmore
  | dispatches wait =>
      exact hmore.of_sameOpen
        (dispatch_rule (sameOpen_rule iface) hsound (fun _ _ => ⟨rfl, rfl⟩) wait)

theorem run_accounted {before : List Call} {iface : Interface} (hsound : iface.Sound)
    (hwoken : iface.Woken) (haccounted : Accounted before iface) (calls : List Call) :
    Accounted (before ++ calls) (iface.run calls).2 := by
  induction calls generalizing iface before with
  | nil =>
      rw [List.append_nil]
      exact haccounted
  | cons call rest ih =>
      obtain ⟨hnext, hnextWoken⟩ := call_sound_woken hsound hwoken call
      rw [List.append_cons]
      exact ih hnext hnextWoken (call_accounted hsound haccounted call)

/-- In every run an open input is available, its descriptor is one that the kernel gave
for the node the controller still reports, and the motor is driven through an open core
or pro input or not at all. -/
theorem run_opened {syspath : List UInt8} {scan : Except Int (List UdevEntry)}
    {iface : Interface} (hnew : new syspath scan = .ok iface) (calls : List Call) :
    let last := (iface.run calls).2
    (∀ i, last.opened.has (ifPosition i) = true →
      last.available.has (ifPosition i) = true ∧
        OpenedBy calls i (last.nodes.nodes i) (last.inputs i).fd) ∧
      (0 ≤ last.rumbleFd → ∃ i : Fin 10, (i = 0 ∨ i = 7) ∧
        last.opened.has (ifPosition i) = true ∧ (last.inputs i).fd = last.rumbleFd) := by
  obtain ⟨hsound, _, hidle, hclosed⟩ := new_start hnew
  obtain ⟨hlast, _⟩ := run_sound_woken hsound hidle.woken calls
  have hstart : Accounted [] iface := fun i hopen =>
    absurd (hclosed i) (Int.not_lt.mpr hopen)
  have haccounted := run_accounted hsound hidle.woken hstart calls
  refine ⟨fun i hopened => ?_, fun hdriven => ?_⟩
  · rw [opened_ifPosition] at hopened
    refine ⟨(hlast.available i).symm.trans ((hlast.kept i).available hopened), ?_⟩
    rw [← hlast.node i]
    exact haccounted i hopened
  · obtain ⟨i, hslot, hfd⟩ := hlast.motor hdriven
    exact ⟨i, hslot.imp (Fin.ext ·) (Fin.ext ·),
      (opened_ifPosition _ i).mpr (hfd ▸ hdriven), hfd⟩

/-- An enumeration with a core input, and answers that let it be opened. -/
def plugged : List UdevEntry :=
  [⟨some [UnixPath.separator],
      some ⟨some (literal "input"), some (literal "input7"),
        some (literal "Nintendo Wii Remote"), none⟩⟩,
    ⟨some [UnixPath.separator],
      some ⟨some (literal "input"), some (literal "event7"), none,
        some [UnixPath.separator]⟩⟩]

def granted : OpenAnswers where
  node := fun _ _ => .ok 7
  name := .ok (literal "Nintendo Wii Remote")
  state := ⟨.ok [], fun _ _ => .ok 0⟩
  added := .ok ()
  effect := none

theorem new_plugged : ∃ iface, new [UnixPath.separator] (.ok plugged) = .ok iface ∧
    (iface.run [.opens (ifBit 0) fun _ => granted]).2.opened.has (ifPosition 0) = true :=
  ⟨_, rfl, by rfl⟩

theorem run_opened_plain : ∃ iface, new [UnixPath.separator] (.ok plugged) = .ok iface ∧
    let calls := [Call.opens (ifBit 0) fun _ => granted]
    let last := (iface.run calls).2
    last.available.has (ifPosition 0) = true ∧
      OpenedBy calls 0 (last.nodes.nodes 0) (last.inputs 0).fd := by
  obtain ⟨iface, hnew, hopened⟩ := new_plugged
  exact ⟨iface, hnew, (run_opened hnew _).1 0 hopened⟩

theorem ne_gone_of_from {kind : InterfaceKind} {event : Event} (hfrom : From kind event) :
    event ≠ lifecycleEvent .gone := by
  rintro rfl
  cases hfrom

/-- Whether the controller is gone after a dispatch: `Gone` makes it so, and a dispatch
of a controller that is gone finds nothing. -/
inductive Leaves (before after : Bool) : Except Int Event → Prop
  | error (errno : Int) (hsame : after = before) : Leaves before after (.error errno)
  | event (event : Event) (hother : event ≠ lifecycleEvent .gone) (hbefore : before = false)
      (hafter : after = false) : Leaves before after (.ok event)
  | gone (hbefore : before = false) (hafter : after = true) :
      Leaves before after (.ok (lifecycleEvent .gone))

theorem Noticed.leaves {before after : Bool} {event : Event}
    (hnoticed : Noticed before after (.ok (some event))) : Leaves before after (.ok event) := by
  cases hnoticed with
  | watch hbefore hafter => exact .event _ (by simp [lifecycleEvent]) hbefore hafter
  | gone hbefore hafter => exact .gone hbefore hafter

/-- An input that has something to recover is open. -/
theorem Sound.open_of_taken {iface : Interface} (hsound : iface.Sound) {i : Fin 10}
    {event : Event} (htaken : (iface.inputs i).takeRecovered.1 = some event) :
    0 ≤ (iface.inputs i).fd := by
  by_contra hclosed
  have hidle := (hsound.kept i).idle (Int.not_le.mp hclosed)
  rw [InputInterface.takeRecovered, Decoder.takeRecovered_idle hidle] at htaken
  cases htaken

theorem leaves_rule (before : Bool) :
    Rule (fun iface => iface.gone = before) (fun result next =>
      Leaves before next.gone result) where
  drain := fun _ h => h
  take := fun _ _ h _ _ => h
  taken := fun iface i event h hsound htaken => by
    have hhere := hsound.here (hsound.open_of_taken htaken)
    rw [delivered_gone]
    exact .event event (ne_gone_of_from (takeRecovered_from _ htaken)) (h ▸ hhere) hhere
  look := fun _ _ h _ _ hsame => hsame.trans h
  read := fun _ _ _ h _ _ _ _ => h
  error := fun _ errno h _ _ => .error errno h
  notice := fun _ _ _ h _ _ hnoticed => (h ▸ hnoticed).leaves
  broken := fun _ _ i h _ _ hbefore hafter => by
    rw [delivered_gone]
    exact .event _ (by simp [lifecycleEvent]) (h ▸ hbefore) hafter
  event := fun iface i event _ h hsound _ hopen hread => by
    have hhere := hsound.here hopen
    rw [delivered_gone]
    exact .event event (ne_gone_of_from (hread.from (hsound.kept i))) (h ▸ hhere) hhere

theorem call_leaves {iface : Interface} (hsound : iface.Sound) (call : Call) :
    (iface.call call).2.gone = iface.gone ∧ lifecycleEvent .gone ∉ (iface.call call).1 ∧
        (iface.gone = true → (iface.call call).1 = none) ∨
      iface.gone = false ∧ (iface.call call).2.gone = true ∧
        (iface.call call).1 = some (lifecycleEvent .gone) := by
  cases call with
  | opens ifaces answers =>
      left
      refine ⟨?_, by simp [call], fun _ => rfl⟩
      refine @open_rule (fun next => next.gone = iface.gone) ifaces answers ?_ iface rfl
      intro middle i result hinv hattempt
      cases hattempt with
      | skipped => exact hinv
      | refused => exact hinv
      | dropped => exact hinv
      | opened _ _ _ _ _ _ _ _ _ _ _ hrest _ => exact hrest.gone.trans hinv
  | closes ifaces => exact Or.inl ⟨(close_rest iface ifaces).gone, by simp [call], fun _ => rfl⟩
  | watches enabled answer =>
      obtain ⟨monitor, hsame⟩ := watch_same iface enabled answer
      left
      refine ⟨?_, by simp [call], fun _ => rfl⟩
      change (iface.watch enabled answer).2.gone = _
      rw [hsame]
  | dispatches wait =>
      have hleaves := dispatch_rule (leaves_rule iface.gone) hsound rfl wait
      rcases hdispatch : iface.dispatch wait with ⟨result, next⟩
      rw [hdispatch] at hleaves
      simp only [call, hdispatch]
      cases hleaves with
      | error errno hsame => exact Or.inl ⟨hsame, by simp [Except.toOption], fun _ => rfl⟩
      | event event hother hbefore hafter =>
          refine Or.inl ⟨hafter.trans hbefore.symm, ?_, fun hgone => ?_⟩
          · simpa [Except.toOption] using hother
          · exact absurd (hbefore.symm.trans hgone) Bool.false_ne_true
      | gone hbefore hafter => exact Or.inr ⟨hbefore, hafter, rfl⟩

/-- After a controller is gone its calls return no event and it stays gone. -/
theorem run_silent {iface : Interface} (hsound : iface.Sound) (hwoken : iface.Woken)
    (hgone : iface.gone = true) (calls : List Call) :
    (iface.run calls).1 = [] ∧ (iface.run calls).2.gone = true := by
  induction calls generalizing iface with
  | nil => exact ⟨rfl, hgone⟩
  | cons call rest ih =>
      obtain ⟨hnext, hnextWoken⟩ := call_sound_woken hsound hwoken call
      rcases call_leaves hsound call with ⟨hsame, _, hnone⟩ | ⟨hbefore, _, _⟩
      · obtain ⟨hevents, hlast⟩ := ih hnext hnextWoken (hsame.trans hgone)
        rw [run, hnone hgone, hevents]
        exact ⟨rfl, hlast⟩
      · exact absurd (hbefore.symm.trans hgone) Bool.false_ne_true

theorem run_ends {iface : Interface} (hsound : iface.Sound) (hwoken : iface.Woken)
    (hhere : iface.gone = false) (calls : List Call)
    (hgone : lifecycleEvent .gone ∈ (iface.run calls).1) :
    (∃ before, (iface.run calls).1 = before ++ [lifecycleEvent .gone] ∧
      lifecycleEvent .gone ∉ before) ∧ (iface.run calls).2.gone = true := by
  induction calls generalizing iface with
  | nil => exact absurd hgone List.not_mem_nil
  | cons call rest ih =>
      obtain ⟨hnext, hnextWoken⟩ := call_sound_woken hsound hwoken call
      rcases call_leaves hsound call with ⟨hsame, hother, _⟩ | ⟨_, hleft, hevent⟩
      · have hfirst : lifecycleEvent .gone ∉ (iface.call call).1.toList := by
          rw [Option.mem_toList]
          exact hother
        have hrest := (List.mem_append.mp hgone).resolve_left hfirst
        obtain ⟨⟨before, hevents, hnone⟩, hlast⟩ :=
          ih hnext hnextWoken (hsame.trans hhere) hrest
        refine ⟨⟨(iface.call call).1.toList ++ before, ?_, ?_⟩, hlast⟩
        · rw [run, hevents, List.append_assoc]
        · rw [List.mem_append, not_or]
          exact ⟨hfirst, hnone⟩
      · obtain ⟨hevents, hlast⟩ := run_silent hnext hnextWoken hleft rest
        refine ⟨⟨[], ?_, List.not_mem_nil⟩, hlast⟩
        rw [run, hevent, hevents]
        rfl

theorem Sound.opened_empty {iface : Interface} (hsound : iface.Sound)
    (hgone : iface.gone = true) : iface.opened = .empty := by
  apply InterfaceMask.ext
  intro k
  rw [InterfaceMask.has_empty, ← Bool.not_eq_true, opened_has]
  rintro ⟨i, hopen, _⟩
  exact Int.not_lt.mpr hopen (hsound.closed hgone i)

/-- `Gone` is the last event of a run and comes once; from then on nothing is open, no
call returns an event, and whatever is asked to be opened is not there. -/
theorem run_gone {syspath : List UInt8} {scan : Except Int (List UdevEntry)}
    {iface : Interface} (hnew : new syspath scan = .ok iface) (calls : List Call)
    (hgone : lifecycleEvent .gone ∈ (iface.run calls).1) :
    (∃ before, (iface.run calls).1 = before ++ [lifecycleEvent .gone] ∧
      lifecycleEvent .gone ∉ before) ∧
    ∀ more, let last := ((iface.run calls).2.run more).2
      ((iface.run calls).2.run more).1 = [] ∧ last.opened = .empty ∧
      ∀ ifaces answers, (∃ i, ifaces.has (ifPosition i) = true) →
        last.open_ ifaces answers = (.error ⟨.empty, -enodev⟩, last) := by
  obtain ⟨hsound, hhere, hidle, _⟩ := new_start hnew
  obtain ⟨hmiddle, hwoken⟩ := run_sound_woken hsound hidle.woken calls
  obtain ⟨hends, hleft⟩ := run_ends hsound hidle.woken hhere calls hgone
  refine ⟨hends, fun more => ?_⟩
  obtain ⟨hlast, _⟩ := run_sound_woken hmiddle hwoken more
  obtain ⟨hevents, hstays⟩ := run_silent hmiddle hwoken hleft more
  have hempty := hlast.opened_empty hstays
  refine ⟨hevents, hempty, fun ifaces answers hwanted => ?_⟩
  obtain ⟨hsame, herror⟩ := open_gone hlast hstays ifaces answers
  refine Prod.ext ?_ hsame
  rw [herror hwanted, hempty]

theorem watch_true (iface : Interface) :
    (iface.watch true (.ok ())).2 = { iface with monitor := true } := by
  rw [watch]
  rw [if_neg (by decide)]
  split
  · rename_i hmonitor
    rw [← hmonitor]
  · rfl

/-- What is ready when a controller is unplugged. -/
def unplugged (syspath : List UInt8) : EpollEvent where
  tag := monitorEpollTag
  readable := true
  broken := false
  received := [⟨some (literal "remove"), some syspath, none, .ok []⟩]
  reads := []
  state := ⟨.ok [], fun _ _ => .ok 0⟩
  scan := .ok []

def unplugging (syspath : List UInt8) : List Call :=
  [.watches true (.ok ()), .dispatches (.ok [unplugged syspath])]

theorem run_unplugging {iface : Interface} (hidle : iface.Idle) (hhere : iface.gone = false) :
    (iface.run (unplugging iface.syspath)).1 = [lifecycleEvent .gone] := by
  have hwatched : Idle { iface with monitor := true } := hidle
  have hreceived : ({ iface with monitor := true } : Interface).drainRecoveryWake.serveReady
      [unplugged iface.syspath] =
      (.ok (lifecycleEvent .gone),
        ({ iface with monitor := true } : Interface).drainRecoveryWake.leave) := by
    simp [serveReady, monitorEpollEvent, monitorEvent, monitorEvents, unplugged,
      drainRecoveryWake, hhere]
  simp only [unplugging, run, call, watch_true, dispatch_idle hwatched, List.take_succ_cons,
    List.take_nil, hreceived]
  rfl
theorem run_gone_unplugged : ∃ iface, new [UnixPath.separator] (.ok []) = .ok iface ∧
    ∀ more, ((iface.run (unplugging [UnixPath.separator])).2.run more).1 = [] := by
  obtain ⟨iface, hnew⟩ := new_plain
  obtain ⟨_, hhere, hidle, _⟩ := new_start hnew
  have hrun := run_unplugging hidle hhere
  rw [new_syspath hnew] at hrun
  refine ⟨iface, hnew, fun more => ?_⟩
  exact ((run_gone hnew _ (by rw [hrun]; exact List.mem_cons_self)).2 more).1

end Interface

end Device

end Hid

end Wiiland
