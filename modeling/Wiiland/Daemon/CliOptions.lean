/-
What each option of the command line does.  The second pass asks for an operation,
steps past what the first pass has read, takes the device or the trace, or updates
the configuration by what a setting means.
-/
import Wiiland.Daemon.Cli

namespace Wiiland

namespace Daemon

open Args

/-- The operation an argument asks for. -/
def actionOf : String → Option Action
  | "-h" | "--help" => some .help
  | "--version" => some .version
  | "-l" | "--list" => some .list
  | "--axis-map" => some .axisMap
  | "--validation-checklist" => some .validationChecklist
  | "--doctor" => some .doctor
  | "--dump-config" => some .dumpConfig
  | "--check-config" => some .checkConfig
  | "--self-test" => some .selfTest
  | "--calibrate-aim" => some .calibrateAim
  | _ => none

theorem splitEq_append {name : String} (hname : '=' ∉ name.toList) (value : String) :
    splitEq (name ++ "=" ++ value) = some (name, value) := by
  have hkeep : ∀ c ∈ name.toList, (c != '=') = true := fun c hc => by
    simpa using fun heq : c = '=' => hname (heq ▸ hc)
  have hlist : (name ++ "=" ++ value).toList = name.toList ++ '=' :: value.toList := by simp
  have hdrop : (name ++ "=" ++ value).toList.dropWhile (· != '=') = '=' :: value.toList := by
    rw [hlist, List.dropWhile_append_of_pos hkeep]
    rfl
  have htake : (name ++ "=" ++ value).toList.takeWhile (· != '=') = name.toList := by
    rw [hlist, List.takeWhile_append_of_pos hkeep]
    simp
  simp only [splitEq, hdrop, htake, String.ofList_toList]

/-- An argument with a `=` is no operation. -/
theorem actionOf_of_cut {word : String} {cut : String × String}
    (hcut : splitEq word = some cut) : actionOf word = none := by
  unfold actionOf
  split <;> first | rfl | cases hcut

/-- The arguments that select the configuration, the control server or the operation. -/
def isSelector (arg : String) : Bool :=
  arg ∈ ["-c", "--config", "--no-config", "--no-ipc", "--ipc-socket"] ||
    (actionOf arg).isSome ||
    (splitEq arg).any fun cut => cut.1 = "--config" || cut.1 = "--ipc-socket"

/-- What a setting means: its value, once read, as an update of the configuration. -/
def setting (key v : String) : Option (Config → Config) :=
  match key with
  | "backend" => if v = "uinput" then some fun config => { config with backend := .uinput }
      else none
  | "profile" => (Profile.parse v).map fun profile config => { config with profile }
  | "pointer-speed" => (rangedInt v 1 127).map
      fun n config => { config with pointerSpeed := n }
  | "ir-speed" => (rangedInt v 1 127).map fun n config => { config with irSpeed := n }
  | "ir-deadzone" => (rangedInt v 0 127).map fun n config => { config with irDeadzone := n }
  | "ir-smoothing" => (rangedInt v 0 95).map fun n config => { config with irSmoothing := n }
  | "ir-tracking" => (IrTracking.parse v).map
      fun choice config => { config with irTracking := choice }
  | "ir-aim-mapping" => (IrAimMapping.parse v).map
      fun choice config => { config with irAimMapping := choice }
  | "aim-mode" => (AimMode.parse v).map fun choice config => { config with aimMode := choice }
  | "aim-source" => (AimSource.parse v).map
      fun choice config => { config with aimSource := choice }
  | "aim-activation" => (AimActivation.parse v).map
      fun choice config => { config with aimActivation := choice }
  | "aim-sensitivity" => (rangedInt v 1 127).map
      fun n config => { config with aimSensitivity := n }
  | "aim-deadzone" => (rangedInt v 0 32767).map
      fun n config => { config with aimDeadzone := n }
  | "aim-smoothing" => (rangedInt v 0 95).map
      fun n config => { config with aimSmoothing := n }
  | "aim-invert-x" => (parseBool v).map fun b config => { config with aimInvertX := b }
  | "aim-invert-y" => (parseBool v).map fun b config => { config with aimInvertY := b }
  | "aim-calibration-duration" => (rangedInt v 1 30).map
      fun n config => { config with aimCalibrationDuration := n }
  | _ => none

/-- The settings that are options. -/
def settingKeys : List String :=
  ["backend", "profile", "pointer-speed", "ir-speed", "ir-deadzone", "ir-smoothing",
    "ir-tracking", "ir-aim-mapping", "aim-mode", "aim-source", "aim-activation",
    "aim-sensitivity", "aim-deadzone", "aim-smoothing", "aim-invert-x", "aim-invert-y",
    "aim-calibration-duration"]

/-- An update of the command line that does what a setting means, or fails. -/
def Cli.Means (key v : String) (set : Cli → Except CliError Cli) : Prop :=
  ∀ out, (set out).toOption =
    (setting key v).map fun update => { out with config := update out.config }

theorem actionOf_setting {key : String} (hkey : key ∈ settingKeys) :
    actionOf ("--" ++ key) = none := by
  revert key
  decide

theorem isSelector_setting {key : String} (hkey : key ∈ settingKeys) :
    isSelector ("--" ++ key) = false := by
  revert key
  decide

/-- Only one setting is the profile. -/
theorem setting_profile {key v : String} {update : Config → Config}
    (hkey : key ≠ "profile") (hupdate : setting key v = some update) (config : Config) :
    (update config).profile = config.profile := by
  have hmap : ∀ {A : Type} {choice : Option A} {set : A → Config → Config},
      (∀ a, (set a config).profile = config.profile) → choice.map set = some update →
        (update config).profile = config.profile := by
    intro A choice set hset hsome
    obtain ⟨a, _, rfl⟩ := Option.map_eq_some_iff.mp hsome
    exact hset a
  unfold setting at hupdate
  split at hupdate
  · split at hupdate <;> cases hupdate
    rfl
  · exact absurd rfl hkey
  iterate 15 exact hmap (fun _ => rfl) hupdate
  · cases hupdate

namespace Cli

theorem toOption_store {A : Type} (value : Except CliError A) (set : A → Config → Config)
    (out : Cli) :
    (store value set out).toOption =
      (value.toOption.map set).map fun update => { out with config := update out.config } := by
  cases value <;> rfl

theorem toOption_intValue (v : String) (min max : Int) (option : String) :
    (intValue v min max option).toOption = rangedInt v min max := by
  unfold intValue
  cases rangedInt v min max <;> rfl

theorem toOption_parseChoice {A : Type} (v : String) (parser : String → Option A)
    (option : String) : (parseChoice v parser option).toOption = parser v := by
  unfold parseChoice
  cases parser v <;> rfl

theorem toOption_boolValue (v option : String) :
    (boolValue v option).toOption = parseBool v := by
  by_cases hvalue : v ∈ ["yes", "true", "1", "no", "false", "0"]
  · simp only [List.mem_cons, List.not_mem_nil, or_false] at hvalue
    rcases hvalue with rfl | rfl | rfl | rfl | rfl | rfl <;> rfl
  · simp only [List.mem_cons, List.not_mem_nil, or_false, not_or] at hvalue
    simp [boolValue, parseBool, hvalue, Except.toOption]

/-- The three ways to read and store a value mean what the setting means. -/
theorem means_int {key v : String} {min max : Int} {set : Int → Config → Config}
    (hsetting : setting key v = (rangedInt v min max).map set) (option : String) :
    Means key v (store (intValue v min max option) set) := fun out => by
  rw [toOption_store, toOption_intValue, hsetting]

theorem means_setInt {key v : String} {min max : Int} {set : Int → Config → Config}
    (hsetting : setting key v = (rangedInt v min max).map set) (arg : String) :
    Means key v (setInt arg min max set (some v)) := fun out => by
  rw [hsetting]
  unfold setInt value
  rw [toOption_store]
  cases rangedInt v min max <;> rfl

theorem means_choice {A : Type} {key v : String} {parser : String → Option A}
    {set : A → Config → Config} (hsetting : setting key v = (parser v).map set)
    (option : String) : Means key v (store (parseChoice v parser option) set) :=
  fun out => by rw [toOption_store, toOption_parseChoice, hsetting]

theorem means_bool {key v : String} {set : Bool → Config → Config}
    (hsetting : setting key v = (parseBool v).map set) (option : String) :
    Means key v (store (boolValue v option) set) := fun out => by
  rw [toOption_store, toOption_boolValue, hsetting]

theorem means_value {key v : String} {set : String → Cli → Except CliError Cli}
    (hset : Means key v (set v)) (arg : String) : Means key v (value arg set (some v)) := hset

theorem means_profile (v option : String) : Means "profile" v (setProfile option v) :=
  fun out => by
    unfold setProfile setting
    rw [toOption_store]
    cases Profile.parse v <;> rfl

theorem means_backend (v : String) : Means "backend" v (setBackend v) := fun out => by
  unfold setBackend setting
  rw [toOption_store]
  by_cases hv : v = "uinput" <;> simp [hv, Except.toOption]

/-- What an option of the second pass does. -/
inductive Kind (word : String) : Arm String Cli CliError → Prop
  | action (action : Action) (hword : actionOf word = some action) :
      Kind word (.plain (request action word))
  | skip (hword : isSelector word = true) (hnone : actionOf word = none) :
      Kind word (.plain .ok)
  | skipNext (hword : word ∈ ["--config", "-c", "--ipc-socket"]) :
      Kind word (.valued fun _ out => .ok out)
  | verbose (hword : word ∈ ["-v", "--verbose"]) :
      Kind word (.plain fun out => .ok { out with verbose := true })
  | dryRun (hword : word ∈ ["-n", "--dry-run"]) :
      Kind word (.plain fun out => .ok { out with dryRun := true })
  | trace (hword : word = "--trace-events") :
      Kind word (.plain fun out => .ok { out with trace := ⟨true, .all⟩ })
  | traceEq (v : String) (hword : splitEq word = some ("--trace-events", v)) :
      Kind word (.plain (setTrace v))
  | device (hword : word ∈ ["-d", "--device"]) :
      Kind word (.valued (value word fun v out => .ok { out with device := some v }))
  | deviceEq (v : String) (hword : splitEq word = some ("--device", v)) :
      Kind word (.plain fun out =>
        if v = "" then .error (CliError.syntaxError "wiilandd: --device requires a value")
        else .ok { out with device := some v })
  | setting {set : Option String → Cli → Except CliError Cli} (key : String)
      (hkey : key ∈ settingKeys)
      (hword : word = "--" ++ key ∨ word = "-p" ∧ key = "profile")
      (hnone : ∀ out, (set none out).toOption = none)
      (hmeans : ∀ v, Means key v (set (some v))) : Kind word (.valued set)
  | settingEq {set : Cli → Except CliError Cli} (key v : String) (hkey : key ∈ settingKeys)
      (hword : splitEq word = some ("--" ++ key, v)) (hmeans : Means key v set) :
      Kind word (.plain set)
  | unknown : Kind word (.plain fun _ => .error (unrecognized word))

theorem kind_flag {word : String} {set : Cli → Except CliError Cli}
    (hset : flag word = some set) : Kind word (.plain set) := by
  unfold flag at hset
  split at hset <;> cases hset
  iterate 12 exact .action _ rfl
  iterate 2 exact .skip rfl rfl
  iterate 2 exact .verbose (by decide)
  iterate 2 exact .dryRun (by decide)
  exact .trace rfl

theorem kind_separated {word : String} {set : Option String → Cli → Except CliError Cli}
    (hset : separated word = some set) : Kind word (.valued set) := by
  unfold separated at hset
  split at hset <;> cases hset
  iterate 3 exact .skipNext (by decide)
  iterate 2 exact .device (by decide)
  · exact .setting "profile" (by decide) (.inr ⟨rfl, rfl⟩) (fun _ => rfl) fun v =>
      means_value (means_profile v _) _
  · exact .setting "profile" (by decide) (.inl rfl) (fun _ => rfl) fun v =>
      means_value (means_profile v _) _
  · exact .setting "backend" (by decide) (.inl rfl) (fun _ => rfl) fun v =>
      means_value (means_backend v) _
  · exact .setting "pointer-speed" (by decide) (.inl rfl) (fun _ => rfl) fun v =>
      means_setInt rfl _
  · exact .setting "ir-speed" (by decide) (.inl rfl) (fun _ => rfl) fun v =>
      means_setInt rfl _
  · exact .setting "ir-deadzone" (by decide) (.inl rfl) (fun _ => rfl) fun v =>
      means_setInt rfl _
  · exact .setting "ir-smoothing" (by decide) (.inl rfl) (fun _ => rfl) fun v =>
      means_setInt rfl _
  · exact .setting "ir-tracking" (by decide) (.inl rfl) (fun _ => rfl) fun v =>
      means_value (means_choice rfl _) _
  · exact .setting "ir-aim-mapping" (by decide) (.inl rfl) (fun _ => rfl) fun v =>
      means_value (means_choice rfl _) _
  · exact .setting "aim-mode" (by decide) (.inl rfl) (fun _ => rfl) fun v =>
      means_value (means_choice rfl _) _
  · exact .setting "aim-source" (by decide) (.inl rfl) (fun _ => rfl) fun v =>
      means_value (means_choice rfl _) _
  · exact .setting "aim-activation" (by decide) (.inl rfl) (fun _ => rfl) fun v =>
      means_value (means_choice rfl _) _
  · exact .setting "aim-sensitivity" (by decide) (.inl rfl) (fun _ => rfl) fun v =>
      means_setInt rfl _
  · exact .setting "aim-deadzone" (by decide) (.inl rfl) (fun _ => rfl) fun v =>
      means_setInt rfl _
  · exact .setting "aim-smoothing" (by decide) (.inl rfl) (fun _ => rfl) fun v =>
      means_setInt rfl _
  · exact .setting "aim-invert-x" (by decide) (.inl rfl) (fun _ => rfl) fun v =>
      means_value (means_bool rfl _) _
  · exact .setting "aim-invert-y" (by decide) (.inl rfl) (fun _ => rfl) fun v =>
      means_value (means_bool rfl _) _
  · exact .setting "aim-calibration-duration" (by decide) (.inl rfl) (fun _ => rfl) fun v =>
      means_setInt rfl _

theorem isSelector_of_cut {word name v : String} (hcut : splitEq word = some (name, v))
    (hname : name = "--config" ∨ name = "--ipc-socket") : isSelector word = true := by
  simp [isSelector, hcut, hname]

theorem kind_joined {word name v : String} {set : Cli → Except CliError Cli}
    (hcut : splitEq word = some (name, v)) (hset : joined word name v = some set) :
    Kind word (.plain set) := by
  unfold joined at hset
  split at hset <;> cases hset
  · exact .skip (isSelector_of_cut hcut (.inl rfl)) (actionOf_of_cut hcut)
  · exact .skip (isSelector_of_cut hcut (.inr rfl)) (actionOf_of_cut hcut)
  · exact .deviceEq v hcut
  · exact .settingEq "profile" v (by decide) hcut (means_profile v _)
  · exact .settingEq "backend" v (by decide) hcut (means_backend v)
  · exact .traceEq v hcut
  · exact .settingEq "pointer-speed" v (by decide) hcut (means_int rfl _)
  · exact .settingEq "ir-speed" v (by decide) hcut (means_int rfl _)
  · exact .settingEq "ir-deadzone" v (by decide) hcut (means_int rfl _)
  · exact .settingEq "ir-smoothing" v (by decide) hcut (means_int rfl _)
  · exact .settingEq "ir-tracking" v (by decide) hcut (means_choice rfl _)
  · exact .settingEq "ir-aim-mapping" v (by decide) hcut (means_choice rfl _)
  · exact .settingEq "aim-mode" v (by decide) hcut (means_choice rfl _)
  · exact .settingEq "aim-source" v (by decide) hcut (means_choice rfl _)
  · exact .settingEq "aim-activation" v (by decide) hcut (means_choice rfl _)
  · exact .settingEq "aim-sensitivity" v (by decide) hcut (means_int rfl _)
  · exact .settingEq "aim-deadzone" v (by decide) hcut (means_int rfl _)
  · exact .settingEq "aim-smoothing" v (by decide) hcut (means_int rfl _)
  · exact .settingEq "aim-invert-x" v (by decide) hcut (means_bool rfl _)
  · exact .settingEq "aim-invert-y" v (by decide) hcut (means_bool rfl _)
  · exact .settingEq "aim-calibration-duration" v (by decide) hcut (means_int rfl _)

theorem flag_of_cut {word : String} {cut : String × String} (hcut : splitEq word = some cut) :
    flag word = none := by
  unfold flag
  split <;> first | rfl | cases hcut

theorem separated_of_cut {word : String} {cut : String × String}
    (hcut : splitEq word = some cut) : separated word = none := by
  unfold separated
  split <;> first | rfl | cases hcut

/-- An argument with a `=` is one of the joined options. -/
theorem arm_of_cut {word name v : String} {set : Cli → Except CliError Cli}
    (hcut : splitEq word = some (name, v)) (hjoined : joined word name v = some set) :
    arm word = .plain set := by
  rw [arm, flag_of_cut hcut, separated_of_cut hcut, hcut, Option.bind_some, hjoined]

theorem arm_kind (word : String) : Kind word (arm word) := by
  unfold arm
  cases hflag : flag word with
  | some set => exact kind_flag hflag
  | none =>
      cases hseparated : separated word with
      | some set => exact kind_separated hseparated
      | none =>
          cases hcut : splitEq word with
          | none => exact .unknown
          | some cut =>
              cases hjoined : joined word cut.1 cut.2 with
              | none =>
                  simp only [Option.bind_some, hjoined]
                  exact .unknown
              | some set =>
                  simp only [Option.bind_some, hjoined]
                  exact kind_joined hcut hjoined

/-- What an accepted option did. -/
inductive Step (word : String) (value : Option String) (out : Cli) : Cli → Prop
  | action (action : Action) (hword : actionOf word = some action) :
      Step word value out { out with action }
  | same (hword : isSelector word = true) (hnone : actionOf word = none) :
      Step word value out out
  | verbose (hword : word ∈ ["-v", "--verbose"]) :
      Step word value out { out with verbose := true }
  | dryRun (hword : word ∈ ["-n", "--dry-run"]) :
      Step word value out { out with dryRun := true }
  | trace (trace : TraceConfig) (henabled : trace.enabled = true)
      (hword : word = "--trace-events" ∨ ∃ v, splitEq word = some ("--trace-events", v)) :
      Step word value out { out with trace }
  | device (device : String)
      (hword : word ∈ ["-d", "--device"] ∧ value = some device ∨
        splitEq word = some ("--device", device)) :
      Step word value out { out with device := some device }
  | setting (key v : String) (update : Config → Config) (hkey : key ∈ settingKeys)
      (hword : (word = "--" ++ key ∨ word = "-p" ∧ key = "profile") ∧ value = some v ∨
        splitEq word = some ("--" ++ key, v))
      (hupdate : Daemon.setting key v = some update) :
      Step word value out { out with config := update out.config }

theorem request_ok {selected requested final : Action} {option : String}
    (hok : requestedAction selected requested option = .ok final) : final = requested := by
  unfold requestedAction at hok
  split at hok <;> cases hok
  rfl

theorem Means.ok {key v : String} {set : Cli → Except CliError Cli} (hmeans : Means key v set)
    {out next : Cli} (hok : set out = .ok next) :
    ∃ update, Daemon.setting key v = some update ∧
      next = { out with config := update out.config } := by
  have hsome := hmeans out
  rw [hok] at hsome
  cases hupdate : Daemon.setting key v with
  | none => simp [hupdate, Except.toOption] at hsome
  | some update =>
      simp only [hupdate, Except.toOption, Option.map_some, Option.some.injEq] at hsome
      exact ⟨update, rfl, hsome⟩

theorem arm_step {word : String} {value : Option String} {out next : Cli}
    (hok : (arm word).apply value out = .ok next) : Step word value out next := by
  have hkind := arm_kind word
  generalize arm word = arm at hkind hok
  cases hkind with
  | action action hword =>
      cases hrequest : requestedAction out.action action word with
      | error e => simp [Arm.apply, request, hrequest, Except.map] at hok
      | ok chosen =>
          simp only [Arm.apply, request, hrequest, Except.map, Except.ok.injEq] at hok
          rw [← hok, request_ok hrequest]
          exact .action action hword
  | skip hword hnone =>
      cases hok
      exact .same hword hnone
  | skipNext hword =>
      cases hok
      simp only [List.mem_cons, List.not_mem_nil, or_false] at hword
      rcases hword with rfl | rfl | rfl <;> exact .same rfl rfl
  | verbose hword =>
      cases hok
      exact .verbose hword
  | dryRun hword =>
      cases hok
      exact .dryRun hword
  | trace hword =>
      cases hok
      exact .trace _ rfl (.inl hword)
  | traceEq v hword =>
      simp only [Arm.apply, setTrace] at hok
      split at hok <;> cases hok
      exact .trace _ rfl (.inr ⟨v, hword⟩)
  | device hword =>
      cases value with
      | none => cases hok
      | some device =>
          cases hok
          exact .device device (.inl ⟨hword, rfl⟩)
  | deviceEq v hword =>
      simp only [Arm.apply] at hok
      split at hok <;> cases hok
      exact .device v (.inr hword)
  | setting key hkey hword hnone hmeans =>
      cases value with
      | none =>
          have hmissing := hnone out
          simp only [Arm.apply] at hok
          rw [hok] at hmissing
          cases hmissing
      | some v =>
          obtain ⟨update, hupdate, rfl⟩ := (hmeans v).ok hok
          exact .setting key v update hkey (.inl ⟨hword, rfl⟩) hupdate
  | settingEq key v hkey hword hmeans =>
      obtain ⟨update, hupdate, rfl⟩ := hmeans.ok hok
      exact .setting key v update hkey (.inr hword) hupdate
  | unknown => cases hok

end Cli

theorem parsePass1_ok {args : List String} {p : Pass1} (hok : parsePass1 args = .ok p) :
    run Pass1.arm args {} = .ok p := by
  obtain ⟨read, hread, hchecked⟩ := bind_eq_ok.mp hok
  split at hchecked <;> cases hchecked
  exact hread

theorem checkConfig_ok {config : Config} (hok : checkConfig config = .ok ()) :
    config.validate = .ok () := by
  unfold checkConfig at hok
  split at hok
  · assumption
  · cases hok

/-- A successful second pass has read its options between two validations. -/
theorem parsePass2_ok {args : List String} {config : Config} {p : Pass1} {cli : Cli}
    (hok : parsePass2 args config p = .ok cli) :
    config.validate = .ok () ∧ run Cli.arm args (Cli.start config p) = .ok cli ∧
      cli.config.validate = .ok () := by
  unfold parsePass2 at hok
  cases hbefore : checkConfig config with
  | error e =>
      rw [hbefore] at hok
      cases hok
  | ok _ =>
      rw [hbefore] at hok
      cases hrun : run Cli.arm args (Cli.start config p) with
      | error e =>
          simp only [hrun] at hok
          cases hok
      | ok out =>
          simp only [hrun] at hok
          cases hafter : checkConfig out.config with
          | error e =>
              simp only [bind, Except.bind, hafter] at hok
              cases hok
          | ok _ =>
              simp only [bind, Except.bind, hafter, pure, Except.pure, Except.ok.injEq] at hok
              subst hok
              exact ⟨checkConfig_ok hbefore, rfl, checkConfig_ok hafter⟩

end Daemon

end Wiiland
