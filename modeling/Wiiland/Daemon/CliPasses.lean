/-
The two passes over the command line.  The first knows the selectors only, so the
passes read the same command line unless a device is named like a selector.
-/
import Wiiland.Daemon.CliOptions

namespace Wiiland

namespace Daemon

open Args

/-- The selectors a pass meets, with their places and the words they take. -/
def Pass1.selectors (args : List String) : List (Reading String) :=
  marked isSelector (takesValue Pass1.arm) 0 args

def Cli.selectors (args : List String) : List (Reading String) :=
  marked isSelector (takesValue Cli.arm) 0 args

/-- The first pass and the second read the same command line. -/
structure SameCommand (args : List String) (p : Pass1) (cli : Cli) : Prop where
  action : cli.action = p.action
  selectors : Pass1.selectors args = Cli.selectors args

/-- No device given as a word of its own looks like a selector. -/
def DevicesPlain (args : List String) : Prop :=
  ∀ reading ∈ readings (takesValue Cli.arm) 0 args, reading.word ∈ ["-d", "--device"] →
    ∀ device ∈ reading.value, isSelector device = false

/-- A dash and no digit after it. -/
def dashed : List Char → Bool
  | '-' :: c :: _ => !c.isDigit
  | _ => false

theorem dashed_append {first : List Char} (hfirst : dashed first = true) (second : List Char) :
    dashed (first ++ second) = true := by
  unfold dashed at hfirst
  split at hfirst
  · exact hfirst
  · cases hfirst

theorem splitEq_eq_some {arg name value : String} (hcut : splitEq arg = some (name, value)) :
    arg.toList = name.toList ++ '=' :: value.toList := by
  unfold splitEq at hcut
  split at hcut
  · cases hcut
  · next c rest hdrop =>
    cases hcut
    have hne : arg.toList.dropWhile (· != '=') ≠ [] := by simp [hdrop]
    have hhead := List.head_dropWhile_not (· != '=') hne
    have hsame : c = '=' := by simpa [hdrop] using hhead
    subst hsame
    rw [String.toList_ofList, String.toList_ofList, ← hdrop, List.takeWhile_append_dropWhile]

theorem dashed_of_selector {word : String} (hword : isSelector word = true) :
    dashed word.toList = true := by
  unfold isSelector at hword
  simp only [Bool.or_eq_true, decide_eq_true_eq] at hword
  rcases hword with (hlist | haction) | hcut
  · simp only [List.mem_cons, List.not_mem_nil, or_false] at hlist
    rcases hlist with rfl | rfl | rfl | rfl | rfl <;> rfl
  · unfold actionOf at haction
    split at haction <;> first | rfl | cases haction
  · cases hsplit : splitEq word with
    | none => simp [hsplit] at hcut
    | some cut =>
      obtain ⟨name, value⟩ := cut
      rw [splitEq_eq_some hsplit]
      simp only [hsplit, Option.any_some, Bool.or_eq_true, decide_eq_true_eq] at hcut
      apply dashed_append
      rcases hcut with rfl | rfl <;> rfl

theorem rangedInt_of_dashed {v : String} (hv : dashed v.toList = true)
    (min max : Int) : rangedInt v min max = none := by
  unfold dashed at hv
  split at hv
  · next c rest hshape =>
    have hdigit : c.isDigit = false := by simpa using hv
    have hnone : Decimal.digits (c :: rest) = none := by
      simp [Decimal.digits, hdigit]
    simp [rangedInt, hshape, Decimal.readI64, hnone]
  · cases hv

/-- No setting has a value with such a beginning. -/
theorem setting_of_dashed {v : String} (hv : dashed v.toList = true) (key : String) :
    setting key v = none := by
  have hparse : ∀ {A : Type} {choice : Option A} (set : A → Config → Config),
      choice = none → choice.map set = none := by
    rintro A choice set rfl
    rfl
  unfold setting
  split
  · apply if_neg
    rintro rfl
    exact absurd hv (by decide)
  · apply hparse
    unfold Profile.parse
    split <;> first | rfl | exact absurd hv (by decide)
  iterate 4 exact hparse _ (rangedInt_of_dashed hv _ _)
  · apply hparse
    unfold IrTracking.parse
    split <;> first | rfl | exact absurd hv (by decide)
  · apply hparse
    unfold IrAimMapping.parse
    split <;> first | rfl | exact absurd hv (by decide)
  · apply hparse
    unfold AimMode.parse
    split <;> first | rfl | exact absurd hv (by decide)
  · apply hparse
    unfold AimSource.parse
    split <;> first | rfl | exact absurd hv (by decide)
  · apply hparse
    unfold AimActivation.parse
    split <;> first | rfl | exact absurd hv (by decide)
  iterate 3 exact hparse _ (rangedInt_of_dashed hv _ _)
  iterate 2
    apply hparse
    unfold parseBool
    split <;> first | rfl | exact absurd hv (by decide)
  · exact hparse _ (rangedInt_of_dashed hv _ _)
  · rfl
theorem takesValue_of_mem {word : String} (hword : word ∈ ["-c", "--config", "--ipc-socket"]) :
    takesValue Pass1.arm word = true ∧ isSelector word = true ∧
      takesValue Cli.arm word = true := by
  simp only [List.mem_cons, List.not_mem_nil, or_false] at hword
  rcases hword with rfl | rfl | rfl <;> exact ⟨rfl, rfl, rfl⟩

/-- What an argument does in the first pass. -/
inductive Pass1.Kind (word : String) : Arm String Pass1 CliError → Prop
  | valued {set : Option String → Pass1 → Except CliError Pass1}
      (hword : word ∈ ["-c", "--config", "--ipc-socket"])
      (haction : ∀ value p next, set value p = .ok next → next.action = p.action) :
      Kind word (.valued set)
  | action (action : Action) (hword : actionOf word = some action) :
      Kind word (.plain (Pass1.request action word))
  | plain {set : Pass1 → Except CliError Pass1} (hword : isSelector word = true)
      (hnone : actionOf word = none)
      (haction : ∀ p next, set p = .ok next → next.action = p.action) :
      Kind word (.plain set)
  | other (hword : isSelector word = false) : Kind word (.plain .ok)

namespace Pass1

theorem setConfig_action {path : String} {p next : Pass1} (hok : p.setConfig path = .ok next) :
    next.action = p.action := by
  cases hok
  rfl

theorem noIpc_action {p next : Pass1} (hok : p.noIpc = .ok next) :
    next.action = p.action := by
  unfold noIpc at hok
  split at hok <;> cases hok
  rfl

theorem ipcSocket_action {path : String} {p next : Pass1} (hok : p.ipcSocket path = .ok next) :
    next.action = p.action := by
  unfold ipcSocket at hok
  split at hok
  · cases hok
  · cases hpath : ipcPath path "--ipc-socket" with
    | error e => simp [hpath, Except.map] at hok
    | ok path =>
        simp only [hpath, Except.map, Except.ok.injEq] at hok
        rw [← hok]

theorem arm_kind (word : String) : Kind word (arm word) := by
  unfold arm
  split
  iterate 2
    refine .valued (by decide) fun value p next hok => ?_
    cases value with
    | none => cases hok
    | some path => exact setConfig_action hok
  · refine .plain rfl rfl fun p next hok => ?_
    cases hok
    rfl
  · exact .plain rfl rfl fun p next hok => noIpc_action hok
  · refine .valued (by decide) fun value p next hok => ?_
    cases value with
    | none => cases hok
    | some path => exact ipcSocket_action hok
  iterate 12 exact .action _ rfl
  · split
    · next path hcut =>
      refine .plain (Cli.isSelector_of_cut hcut (.inl rfl)) (actionOf_of_cut hcut)
        fun p next hok => ?_
      split at hok
      · cases hok
      · exact setConfig_action hok
    · next path hcut =>
      exact .plain (Cli.isSelector_of_cut hcut (.inr rfl)) (actionOf_of_cut hcut)
        fun p next hok => ipcSocket_action hok
    · next hconfig hsocket =>
      apply Kind.other
      rw [Bool.eq_false_iff]
      intro hword
      unfold isSelector at hword
      simp only [Bool.or_eq_true, decide_eq_true_eq] at hword
      rcases hword with (hlist | haction) | hcut
      · simp only [List.mem_cons, List.not_mem_nil, or_false] at hlist
        rcases hlist with rfl | rfl | rfl | rfl | rfl <;> contradiction
      · unfold actionOf at haction
        split at haction <;> contradiction
      · cases hsplit : splitEq word with
        | none => simp [hsplit] at hcut
        | some cut =>
            obtain ⟨name, path⟩ := cut
            simp only [hsplit, Option.any_some, Bool.or_eq_true, decide_eq_true_eq] at hcut
            rcases hcut with rfl | rfl
            · exact hconfig path hsplit
            · exact hsocket path hsplit

end Pass1

/-- The first pass takes the next word of the selectors that the second pass takes it
of, and of no other argument. -/
theorem pass1_takesValue (word : String) :
    takesValue Pass1.arm word = (isSelector word && takesValue Cli.arm word) := by
  by_cases hmem : word ∈ ["-c", "--config", "--ipc-socket"]
  · obtain ⟨hfirst, hselector, hsecond⟩ := takesValue_of_mem hmem
    rw [hfirst, hselector, hsecond]
    rfl
  · have hfirst : takesValue Pass1.arm word = false := by
      have hkind := Pass1.arm_kind word
      unfold takesValue
      generalize Pass1.arm word = arm at hkind
      cases hkind with
      | valued hword haction => exact absurd hword hmem
      | action action hword => rfl
      | plain hword hnone haction => rfl
      | other hword => rfl
    have hsecond : isSelector word = true → takesValue Cli.arm word = false := by
      intro hselector
      have hkind := Cli.arm_kind word
      unfold takesValue
      generalize Cli.arm word = arm at hkind
      cases hkind with
      | skipNext hword =>
          refine absurd ?_ hmem
          simp only [List.mem_cons, List.not_mem_nil, or_false] at hword ⊢
          tauto
      | device hword =>
          simp only [List.mem_cons, List.not_mem_nil, or_false] at hword
          rcases hword with rfl | rfl <;> cases hselector
      | setting key hkey hword hnone hmeans =>
          rcases hword with rfl | ⟨rfl, rfl⟩
          · rw [isSelector_setting hkey] at hselector
            cases hselector
          · cases hselector
      | _ => rfl
    rw [hfirst]
    cases hselector : isSelector word with
    | false => rfl
    | true => rw [hsecond hselector]; rfl

/-- Each argument updates the operation alike in both passes. -/
def nextAction (action : Action) (word : String) : Action := (actionOf word).getD action

theorem nextAction_of_none {word : String} (hnone : actionOf word = none) (action : Action) :
    nextAction action word = action := by
  rw [nextAction, hnone, Option.getD_none]

theorem actionOf_of_not_selector {word : String} (hword : isSelector word = false) :
    actionOf word = none := by
  unfold isSelector at hword
  simp only [Bool.or_eq_false_iff, Option.isSome_eq_false_iff, Option.isNone_iff_eq_none] at hword
  exact hword.1.2

theorem Pass1.arm_action {word : String} {value : Option String} {p next : Pass1}
    (hok : (Pass1.arm word).apply value p = .ok next) :
    next.action = nextAction p.action word := by
  have hkind := Pass1.arm_kind word
  generalize Pass1.arm word = arm at hkind hok
  cases hkind with
  | valued hword haction =>
      have hnone : actionOf word = none := by
        simp only [List.mem_cons, List.not_mem_nil, or_false] at hword
        rcases hword with rfl | rfl | rfl <;> rfl
      rw [nextAction_of_none hnone]
      exact haction value p next hok
  | action action hword =>
      cases hrequest : requestedAction p.action action word with
      | error e => simp [Arm.apply, Pass1.request, hrequest, Except.map] at hok
      | ok chosen =>
          simp only [Arm.apply, Pass1.request, hrequest, Except.map, Except.ok.injEq] at hok
          rw [← hok, nextAction, hword, Option.getD_some, Cli.request_ok hrequest]
  | plain hword hnone haction =>
      rw [nextAction_of_none hnone]
      exact haction p next hok
  | other hword =>
      rw [nextAction_of_none (actionOf_of_not_selector hword)]
      cases hok
      rfl

namespace Cli

variable {word : String} {value : Option String} {out next : Cli}

theorem Step.nextAction (hstep : Step word value out next) :
    next.action = nextAction out.action word := by
  have hnone : ∀ {words : List String}, (∀ word ∈ words, actionOf word = none) →
      word ∈ words → out.action = Daemon.nextAction out.action word :=
    fun hall hword => (nextAction_of_none (hall word hword) _).symm
  cases hstep with
  | action action hword => rw [Daemon.nextAction, hword, Option.getD_some]
  | same hword hnone => exact (nextAction_of_none hnone _).symm
  | verbose hword => exact hnone (by decide) hword
  | dryRun hword => exact hnone (by decide) hword
  | trace trace henabled hword =>
      rcases hword with rfl | ⟨v, hcut⟩
      · rfl
      · exact (nextAction_of_none (actionOf_of_cut hcut) _).symm
  | device device hword =>
      rcases hword with ⟨hword, _⟩ | hcut
      · exact hnone (by decide) hword
      · exact (nextAction_of_none (actionOf_of_cut hcut) _).symm
  | setting key v update hkey hword hupdate =>
      rcases hword with ⟨rfl | ⟨rfl, rfl⟩, _⟩ | hcut
      · exact (nextAction_of_none (actionOf_setting hkey) _).symm
      · rfl
      · exact (nextAction_of_none (actionOf_of_cut hcut) _).symm

/-- The second pass carries the results of the first. -/
def Carries (p : Pass1) (out : Cli) : Prop :=
  out.configPath = p.configPath ∧ out.explicitConfig = p.explicitConfig ∧
    out.noConfig = p.noConfig ∧ out.ipc = p.ipc

theorem Step.carries (hstep : Step word value out next) {p : Pass1} (hcarries : Carries p out) :
    Carries p next := by
  cases hstep <;> exact hcarries

end Cli

/-- Only a device can be given by a word that looks like a selector. -/
theorem values_plain_iff {args : List String} {start cli : Cli}
    (hrun : run Cli.arm args start = .ok cli) :
    (∀ reading ∈ readings (takesValue Cli.arm) 0 args, isSelector reading.word = false →
      ∀ value ∈ reading.value, isSelector value = false) ↔ DevicesPlain args := by
  constructor
  · intro hplain reading hreading hword
    apply hplain reading hreading
    simp only [List.mem_cons, List.not_mem_nil, or_false] at hword
    rcases hword with hword | hword <;> rw [hword] <;> rfl
  · intro hdevices reading hreading hword value hvalue
    have hsome : reading.value = some value := hvalue
    have htakes := takes_of_value hreading (by rw [hsome]; exact Option.some_ne_none value)
    obtain ⟨before, after, haccepted⟩ := run_accepts hrun hreading
    have hkind := Cli.arm_kind reading.word
    unfold takesValue at htakes
    generalize Cli.arm reading.word = arm at hkind htakes haccepted
    cases hkind with
    | skipNext hskip =>
        simp only [List.mem_cons, List.not_mem_nil, or_false] at hskip
        rcases hskip with hskip | hskip | hskip <;> rw [hskip] at hword <;> cases hword
    | device hdevice => exact hdevices reading hreading hdevice value hvalue
    | setting key hkey hoption hnone hmeans =>
        rw [hsome] at haccepted
        obtain ⟨update, hupdate, _⟩ := (hmeans value).ok haccepted
        rw [Bool.eq_false_iff]
        intro hselector
        rw [setting_of_dashed (dashed_of_selector hselector)] at hupdate
        cases hupdate
    | _ => cases htakes

/-- The operation of a pass is decided by the selectors it meets. -/
theorem foldl_nextAction (read : List (Reading String)) (action : Action) :
    (read.map Reading.word).foldl nextAction action =
      ((read.filter fun reading => isSelector reading.word).map Reading.word).foldl nextAction
        action := by
  induction read generalizing action with
  | nil => rfl
  | cons reading rest ih =>
      rw [List.map_cons, List.foldl_cons, ih]
      cases hword : isSelector reading.word with
      | true => simp [hword]
      | false =>
          rw [nextAction_of_none (actionOf_of_not_selector hword)]
          simp [hword]

/-- The passes read the same command line exactly when no device looks like a
selector; the second always keeps the results of the first. -/
theorem passes_agree_iff {args : List String} {config : Config} {p : Pass1} {cli : Cli}
    (hfirst : parsePass1 args = .ok p) (hsecond : parsePass2 args config p = .ok cli) :
    Cli.Carries p cli ∧ (SameCommand args p cli ↔ DevicesPlain args) := by
  have hrun := (parsePass2_ok hsecond).2.1
  constructor
  · exact run_keeps (fun word value out next hcarries hok =>
      (Cli.arm_step hok).carries hcarries) ⟨rfl, rfl, rfl, rfl⟩ hrun
  · rw [← values_plain_iff hrun, ← marked_eq_iff pass1_takesValue]
    constructor
    · exact SameCommand.selectors
    · intro hselectors
      refine ⟨?_, hselectors⟩
      have hone := run_folds Pass1.action nextAction
        (fun word value p next hok => Pass1.arm_action hok) (parsePass1_ok hfirst) 0
      have htwo := run_folds Cli.action nextAction
        (fun word value out next hok => (Cli.arm_step hok).nextAction) hrun 0
      rw [hone, htwo, foldl_nextAction (readings (takesValue Cli.arm) 0 args),
        foldl_nextAction (readings (takesValue Pass1.arm) 0 args)]
      exact congrArg (fun read => (read.map Reading.word).foldl nextAction .run)
        hselectors.symm

theorem passes_agree_device : Cli.Carries { noConfig := true, action := .doctor }
      { Cli.start {} { noConfig := true, action := .doctor } with
        action := .doctor, device := some "7" } ∧
    (SameCommand ["--no-config", "-d", "7", "--doctor"]
        { noConfig := true, action := .doctor }
        { Cli.start {} { noConfig := true, action := .doctor } with
          action := .doctor, device := some "7" } ↔
      DevicesPlain ["--no-config", "-d", "7", "--doctor"]) :=
  @passes_agree_iff _ {} _ _ rfl rfl

/-- A device named like an operation is an operation to the first pass only. -/
theorem helpDevice_differs :
    parsePass1 ["-d", "--help"] = .ok { action := .help } ∧
      parsePass2 ["-d", "--help"] {} { action := .help } =
        .ok { Cli.start {} { action := .help } with device := some "--help" } ∧
      ¬SameCommand ["-d", "--help"] { action := .help }
        { Cli.start {} { action := .help } with device := some "--help" } := by
  refine ⟨rfl, rfl, fun hsame => ?_⟩
  have haction := hsame.action
  cases haction

end Daemon

end Wiiland
