/-
The command line over the configuration.  Its options keep what validation asks for,
and each of them does what the line of the configuration file does.
-/
import Wiiland.Core.RuleLines
import Wiiland.Daemon.CliOptions

namespace Wiiland

/-- The conditions of `validate` on ranges, the profile, axes and rules. -/
structure Config.Ranged (config : Config) : Prop where
  profile : config.profile.isValid = true
  inRange : config.inRange = true
  accelAxes : ∀ c ∈ config.aimAccelZero, c.axes &&& ~~~SensorCalibration.allAxes = 0
  motionPlusAxes : ∀ c ∈ config.aimMotionPlusBias,
    c.axes &&& ~~~SensorCalibration.allAxes = 0
  count : config.deviceRules.length ≤ maxDeviceRules
  rules : ∀ rule ∈ config.deviceRules, rule.matchText ≠ "" ∧ rule.profile.isValid = true

/-- A screen with its sides out of order, or a calibration without all its axes. -/
def Config.Unfinished (config : Config) : Prop :=
  (∃ r ∈ config.irScreen, r.right ≤ r.left ∨ r.bottom ≤ r.top) ∨
    (∃ c ∈ config.aimAccelZero, c.complete = false) ∨
      ∃ c ∈ config.aimMotionPlusBias, c.complete = false

/-- The line parser keeps every condition but those. -/
theorem Config.WellFormed.ranged {config : Config} (hconfig : config.WellFormed) :
    config.Ranged where
  profile := hconfig.profile
  inRange := hconfig.inRange
  accelAxes := fun c hc => (hconfig.accelZero c hc).known
  motionPlusAxes := fun c hc => (hconfig.motionPlusBias c hc).known
  count := hconfig.count
  rules := hconfig.rules

theorem Config.ranged_of_validate {config : Config} (hvalid : config.validate = .ok ()) :
    config.Ranged := by
  obtain ⟨hprofile, hrange, _, haccel, hbias, hcount, hrules⟩ :=
    config.validate_eq_ok_iff.mp hvalid
  exact ⟨hprofile, hrange, fun c hc => (haccel c hc).1, fun c hc => (hbias c hc).1, hcount,
    hrules⟩

/-- Validation refuses what lines can give only where it is unfinished. -/
theorem Config.WellFormed.validate_iff {config : Config} (hconfig : config.WellFormed) :
    config.validate = .ok () ↔ ¬config.Unfinished := by
  have hscreen : (∀ r ∈ config.irScreen, r.left < r.right ∧ r.top < r.bottom) ↔
      ¬∃ r ∈ config.irScreen, r.right ≤ r.left ∨ r.bottom ≤ r.top := by
    simp only [not_exists, not_and, not_or, not_le]
  have hcalibration : ∀ {calibration : Option SensorCalibration},
      (∀ c ∈ calibration, c.WellFormed) →
        ((∀ c ∈ calibration, c.axes &&& ~~~SensorCalibration.allAxes = 0 ∧
          (c.axes = 0 ∨ c.complete = true)) ↔ ¬∃ c ∈ calibration, c.complete = false) := by
    intro calibration hformed
    simp only [not_exists, not_and, Bool.not_eq_false]
    constructor
    · intro hvalid c hc
      exact (hvalid c hc).2.resolve_left (hformed c hc).started
    · exact fun hcomplete c hc => ⟨(hformed c hc).known, .inr (hcomplete c hc)⟩
  rw [config.validate_eq_ok_iff, hscreen, hcalibration hconfig.accelZero,
    hcalibration hconfig.motionPlusBias, Unfinished, not_or, not_or]
  constructor
  · rintro ⟨_, _, hsides, haccel, hbias, _⟩
    exact ⟨hsides, haccel, hbias⟩
  · rintro ⟨hsides, haccel, hbias⟩
    exact ⟨hconfig.profile, hconfig.inRange, hsides, haccel, hbias, hconfig.count,
      hconfig.rules⟩

/-- Validation keeps when the profile and the ranges do and all else stays. -/
theorem Config.validate_keeps {config next : Config} (hvalid : config.validate = .ok ())
    (hprofile : next.profile.isValid = true) (hrange : next.inRange = true)
    (hscreen : next.irScreen = config.irScreen)
    (haccel : next.aimAccelZero = config.aimAccelZero)
    (hbias : next.aimMotionPlusBias = config.aimMotionPlusBias)
    (hrules : next.deviceRules = config.deviceRules) : next.validate = .ok () := by
  obtain ⟨_, _, hold⟩ := config.validate_eq_ok_iff.mp hvalid
  rw [next.validate_eq_ok_iff, hscreen, haccel, hbias, hrules]
  exact ⟨hprofile, hrange, hold⟩

namespace Daemon

open Args

/-- The command line and the file read integers alike. -/
theorem rangedInt_eq_parseInt (v : String) (min max : Int) :
    rangedInt v min max = parseInt v min max := by
  unfold rangedInt parseInt
  cases Decimal.readI64 v.toList with
  | none => rfl
  | some n =>
      by_cases hrange : min ≤ n ∧ n ≤ max
      · have hnot : ¬(n < min ∨ max < n) := by omega
        simp [hrange, hnot, Option.filter]
      · have hout : n < min ∨ max < n := by omega
        rw [Option.bind_some, if_pos hout, Option.filter_some, if_neg]
        simpa using hrange

/-- A setting keeps a configuration valid: the bounds of the options are those of
`validate`. -/
theorem setting_keeps {key v : String} {update : Config → Config}
    (hupdate : setting key v = some update) {config : Config}
    (hvalid : config.validate = .ok ()) : (update config).validate = .ok () := by
  have hranged := Config.ranged_of_validate hvalid
  have hint : ∀ {min max : Int} {set : Int → Config → Config},
      (rangedInt v min max).map set = some update →
        (∀ n, min ≤ n → n ≤ max → (set n config).validate = .ok ()) →
          (update config).validate = .ok () := by
    intro min max set hsome hset
    obtain ⟨n, hn, rfl⟩ := Option.map_eq_some_iff.mp hsome
    rw [rangedInt_eq_parseInt] at hn
    exact hset n (parseInt_range hn).1 (parseInt_range hn).2
  have hsame : ∀ {A : Type} {choice : Option A} {set : A → Config → Config},
      choice.map set = some update → (∀ a, choice = some a →
        (set a config).validate = .ok ()) → (update config).validate = .ok () := by
    intro A choice set hsome hset
    obtain ⟨a, ha, rfl⟩ := Option.map_eq_some_iff.mp hsome
    exact hset a ha
  have hkeep := fun next => @Config.validate_keeps config next hvalid
  have hrange := config.inRange_iff.mp hranged.inRange
  unfold setting at hupdate
  split at hupdate
  · split at hupdate <;> cases hupdate
    exact hkeep _ hranged.profile hranged.inRange rfl rfl rfl rfl
  · exact hsame hupdate fun profile hprofile => hkeep _
      (Profile.asStr_of_parse hprofile).1 hranged.inRange rfl rfl rfl rfl
  · exact hint hupdate fun n hmin hmax => hkeep _ hranged.profile
      ((Config.inRange_iff _).mpr ⟨⟨hmin, hmax⟩, hrange.2⟩) rfl rfl rfl rfl
  · exact hint hupdate fun n hmin hmax => hkeep _ hranged.profile
      ((Config.inRange_iff _).mpr ⟨hrange.1, ⟨hmin, hmax⟩, hrange.2.2⟩) rfl rfl rfl rfl
  · exact hint hupdate fun n hmin hmax => hkeep _ hranged.profile
      ((Config.inRange_iff _).mpr
        ⟨hrange.1, hrange.2.1, ⟨hmin, hmax⟩, hrange.2.2.2⟩) rfl rfl rfl rfl
  · exact hint hupdate fun n hmin hmax => hkeep _ hranged.profile
      ((Config.inRange_iff _).mpr ⟨hrange.1, hrange.2.1, hrange.2.2.1, ⟨hmin, hmax⟩,
        hrange.2.2.2.2⟩) rfl rfl rfl rfl
  iterate 5
    exact hsame hupdate fun _ _ =>
      hkeep _ hranged.profile hranged.inRange rfl rfl rfl rfl
  · exact hint hupdate fun n hmin hmax => hkeep _ hranged.profile
      ((Config.inRange_iff _).mpr ⟨hrange.1, hrange.2.1, hrange.2.2.1, hrange.2.2.2.1,
        ⟨hmin, hmax⟩, hrange.2.2.2.2.2⟩) rfl rfl rfl rfl
  · exact hint hupdate fun n hmin hmax => hkeep _ hranged.profile
      ((Config.inRange_iff _).mpr ⟨hrange.1, hrange.2.1, hrange.2.2.1, hrange.2.2.2.1,
        hrange.2.2.2.2.1, ⟨hmin, hmax⟩, hrange.2.2.2.2.2.2⟩) rfl rfl rfl rfl
  · exact hint hupdate fun n hmin hmax => hkeep _ hranged.profile
      ((Config.inRange_iff _).mpr ⟨hrange.1, hrange.2.1, hrange.2.2.1, hrange.2.2.2.1,
        hrange.2.2.2.2.1, hrange.2.2.2.2.2.1, ⟨hmin, hmax⟩, hrange.2.2.2.2.2.2.2⟩)
      rfl rfl rfl rfl
  iterate 2
    exact hsame hupdate fun _ _ =>
      hkeep _ hranged.profile hranged.inRange rfl rfl rfl rfl
  · exact hint hupdate fun n hmin hmax => hkeep _ hranged.profile
      ((Config.inRange_iff _).mpr ⟨hrange.1, hrange.2.1, hrange.2.2.1, hrange.2.2.2.1,
        hrange.2.2.2.2.1, hrange.2.2.2.2.2.1, hrange.2.2.2.2.2.2.1, ⟨hmin, hmax⟩⟩)
      rfl rfl rfl rfl
  · cases hupdate

/-- An accepted option keeps the configuration valid. -/
theorem Cli.Step.keeps {word : String} {value : Option String} {out next : Cli}
    (hstep : Cli.Step word value out next) (hvalid : out.config.validate = .ok ()) :
    next.config.validate = .ok () := by
  cases hstep with
  | setting key v update hkey hword hupdate => exact setting_keeps hupdate hvalid
  | action => exact hvalid
  | same => exact hvalid
  | verbose => exact hvalid
  | dryRun => exact hvalid
  | trace => exact hvalid
  | device => exact hvalid

theorem run_valid {args : List String} {config : Config} (hvalid : config.validate = .ok ())
    {p : Pass1} {out : Cli} (hok : run Cli.arm args (Cli.start config p) = .ok out) :
    out.config.validate = .ok () :=
  @run_keeps _ _ _ Cli.arm args (Cli.start config p) out (·.config.validate = .ok ())
    (fun _ _ _ _ hbefore hset => (Cli.arm_step hset).keeps hbefore) hvalid hok

/-- Over a validated configuration the second pass is its options: neither of its
validations fails. -/
theorem parsePass2_eq_run {config : Config} (hvalid : config.validate = .ok ())
    (args : List String) (p : Pass1) :
    parsePass2 args config p = run Cli.arm args (Cli.start config p) := by
  have hcheck : ∀ {config : Config}, config.validate = .ok () →
      checkConfig config = .ok () := by
    intro config hok
    rw [checkConfig, hok]
  unfold parsePass2
  rw [hcheck hvalid]
  cases hrun : run Cli.arm args (Cli.start config p) with
  | error e => rfl
  | ok out =>
      simp only [bind, Except.bind, hcheck (run_valid hvalid hrun)]
      rfl

/-- The three range tables agree.  What lines give fails validation only where it is
unfinished, and no option takes a validated configuration out of its ranges. -/
theorem limits_agree :
    (∀ lines config, applyAll lines {} = .ok config →
      config.Ranged ∧ (config.validate = .ok () ↔ ¬config.Unfinished)) ∧
    ∀ config args p, config.validate = .ok () →
      (∀ out, run Cli.arm args (Cli.start config p) = .ok out →
        checkConfig out.config = .ok ()) ∧
      parsePass2 args config p = run Cli.arm args (Cli.start config p) ∧
      ∀ cli, parsePass2 args config p = .ok cli →
        cli.config.Ranged ∧ cli.config.validate = .ok () := by
  refine ⟨fun lines config hok => ?_, fun config args p hvalid => ⟨fun out hout => ?_,
    parsePass2_eq_run hvalid args p, fun cli hcli => ?_⟩⟩
  · have hformed := applyAll_wellFormed Config.wellFormed_default hok
    exact ⟨hformed.ranged, hformed.validate_iff⟩
  · rw [checkConfig, run_valid hvalid hout]
  · have hfinal := (parsePass2_ok hcli).2.2
    exact ⟨Config.ranged_of_validate hfinal, hfinal⟩

/-- An option of the command line that takes a value, in its own word or the next. -/
def IsOption (key : String) : Prop :=
  (Cli.separated ("--" ++ key)).isSome = true ∨
    ∃ arg v, (Cli.joined arg ("--" ++ key) v).isSome = true

/-- A key that some line of a configuration file can set. -/
def IsKey (key : String) : Prop :=
  ∃ place value config next, setKey place key value config = .ok next

theorem separated_name {name : String} (hsome : (Cli.separated name).isSome = true) :
    name ∈ ["--config", "-c", "--ipc-socket", "-d", "--device", "-p"] ∨
      ∃ key ∈ settingKeys, name = "--" ++ key := by
  unfold Cli.separated at hsome
  split at hsome
  all_goals first | exact .inl (by decide) | exact .inr (by decide) | cases hsome

theorem joined_name {arg name v : String} (hsome : (Cli.joined arg name v).isSome = true) :
    name ∈ ["--config", "--ipc-socket", "--device", "--trace-events"] ∨
      ∃ key ∈ settingKeys, name = "--" ++ key := by
  unfold Cli.joined at hsome
  split at hsome
  all_goals first | exact .inl (by decide) | exact .inr (by decide) | cases hsome

theorem dashes_inj {first second : String} (hsame : "--" ++ first = "--" ++ second) :
    first = second := by
  have hlists : ("--" ++ first).toList = ("--" ++ second).toList := by rw [hsame]
  rw [String.toList_append, String.toList_append] at hlists
  exact String.toList_inj.mp (List.append_cancel_left hlists)

/-- The options that are no key of the configuration. -/
theorem not_isKey {key : String} (hkey : key ∈ ["config", "ipc-socket", "device",
    "trace-events"]) : ¬IsKey key := by
  rintro ⟨place, value, config, next, hok⟩
  simp only [List.mem_cons, List.not_mem_nil, or_false] at hkey
  rcases hkey with rfl | rfl | rfl | rfl <;> cases hok

/-- The options that are keys are the settings. -/
theorem mem_settingKeys {key : String} (hoption : IsOption key) (hkey : IsKey key) :
    key ∈ settingKeys := by
  have hother : ∀ {name : String}, "--" ++ key = "--" ++ name →
      name ∈ ["config", "ipc-socket", "device", "trace-events"] → False := by
    intro name hsame hname
    exact not_isKey hname (dashes_inj hsame ▸ hkey)
  have hsetting : (∃ name ∈ settingKeys, "--" ++ key = "--" ++ name) → key ∈ settingKeys := by
    rintro ⟨name, hname, hsame⟩
    exact dashes_inj hsame ▸ hname
  have hdash : ∀ {c : Char}, c ≠ '-' → "--" ++ key ≠ String.ofList ['-', c] := by
    intro c hc hsame
    have hlists := (congrArg String.toList hsame).trans String.toList_ofList
    rw [String.toList_append] at hlists
    exact hc (List.cons.inj (List.cons.inj hlists).2).1.symm
  rcases hoption with hseparated | ⟨arg, v, hjoined⟩
  · rcases separated_name hseparated with hname | hname
    · simp only [List.mem_cons, List.not_mem_nil, or_false] at hname
      rcases hname with hname | hname | hname | hname | hname | hname
      · exact (@hother "config" hname (by decide)).elim
      · exact absurd hname (@hdash 'c' (by decide))
      · exact (@hother "ipc-socket" hname (by decide)).elim
      · exact absurd hname (@hdash 'd' (by decide))
      · exact (@hother "device" hname (by decide)).elim
      · exact absurd hname (@hdash 'p' (by decide))
    · exact hsetting hname
  · rcases joined_name hjoined with hname | hname
    · simp only [List.mem_cons, List.not_mem_nil, or_false] at hname
      rcases hname with hname | hname | hname | hname
      · exact (@hother "config" hname (by decide)).elim
      · exact (@hother "ipc-socket" hname (by decide)).elim
      · exact (@hother "device" hname (by decide)).elim
      · exact (@hother "trace-events" hname (by decide)).elim
    · exact hsetting hname

/-- What a line of the file does with a setting. -/
def settingLine (place : Place) (key v : String) (config : Config) : Outcome :=
  match setting key v with
  | some update => .ok (update config)
  | none => .err (invalid place key) config

theorem setKey_int {place : Place} {key v : String} {min max : Int}
    {store : Int → Config → Config}
    (hfixed : fixedKey place key v = some (setInt place key v min max store))
    (hsetting : setting key v = (rangedInt v min max).map store) (config : Config) :
    setKey place key v config = settingLine place key v config := by
  rw [setKey, hfixed, settingLine, hsetting, rangedInt_eq_parseInt]
  simp only [setInt]
  cases parseInt v min max <;> rfl

theorem setKey_choice {A : Type} {place : Place} {key v : String} {choice : String → Option A}
    {store : A → Config → Config}
    (hfixed : fixedKey place key v = some (setChoice place key v choice store))
    (hsetting : setting key v = (choice v).map store) (config : Config) :
    setKey place key v config = settingLine place key v config := by
  rw [setKey, hfixed, settingLine, hsetting]
  simp only [setChoice]
  cases choice v <;> rfl

/-- The line of a setting does what its option means. -/
theorem setKey_setting {key : String} (hkey : key ∈ settingKeys) (place : Place) (v : String)
    (config : Config) : setKey place key v config = settingLine place key v config := by
  simp only [settingKeys, List.mem_cons, List.not_mem_nil, or_false] at hkey
  rcases hkey with rfl | rfl | rfl | rfl | rfl | rfl | rfl | rfl | rfl | rfl | rfl | rfl |
    rfl | rfl | rfl | rfl | rfl
  · have hfixed : fixedKey place "backend" v = some (setBackend place "backend" v) := rfl
    have hsetting : setting "backend" v = if v = "uinput" then
        some fun config => { config with backend := .uinput } else none := rfl
    rw [setKey, hfixed, settingLine, hsetting]
    by_cases hv : v = "uinput"
    · simp only [setBackend, hv, if_true]
    · simp only [setBackend, hv, if_false]
  · exact setKey_choice rfl rfl config
  · exact setKey_int rfl rfl config
  · exact setKey_int rfl rfl config
  · exact setKey_int rfl rfl config
  · exact setKey_int rfl rfl config
  · exact setKey_choice rfl rfl config
  · exact setKey_choice rfl rfl config
  · exact setKey_choice rfl rfl config
  · exact setKey_choice rfl rfl config
  · exact setKey_choice rfl rfl config
  · exact setKey_int rfl rfl config
  · exact setKey_int rfl rfl config
  · exact setKey_int rfl rfl config
  · exact setKey_choice rfl rfl config
  · exact setKey_choice rfl rfl config
  · exact setKey_int rfl rfl config

/-- The option of a setting takes the next word and does what the setting means. -/
theorem arm_setting {key : String} (hkey : key ∈ settingKeys) :
    ∃ set, Cli.arm ("--" ++ key) = .valued set ∧ ∀ v, Cli.Means key v (set (some v)) := by
  have hflag : Cli.flag ("--" ++ key) = none := by
    revert key
    decide
  have hsome : (Cli.separated ("--" ++ key)).isSome = true := by
    revert key
    decide
  obtain ⟨set, hset⟩ := Option.isSome_iff_exists.mp hsome
  have hwords : "--" ++ key ∉ ["--config", "-c", "--ipc-socket", "-d", "--device", "-p"] := by
    clear hset
    revert key
    decide
  simp only [List.mem_cons, List.not_mem_nil, or_false, not_or] at hwords
  refine ⟨set, by rw [Cli.arm, hflag, hset], ?_⟩
  have hkind := Cli.kind_separated hset
  generalize hvalued : (Arm.valued set : Arm String Cli CliError) = arm at hkind
  cases hkind with
  | setting key' hkey' hword hnone hmeans =>
      cases hvalued
      rcases hword with hsame | ⟨hshort, _⟩
      · exact dashes_inj hsame ▸ hmeans
      · exact absurd hshort hwords.2.2.2.2.2
  | skipNext hword => simp [hwords] at hword
  | device hword => simp [hwords] at hword
  | action action hword => cases hvalued
  | skip hword hnone => cases hvalued
  | verbose hword => cases hvalued
  | dryRun hword => cases hvalued
  | trace hword => cases hvalued
  | traceEq v hword => cases hvalued
  | deviceEq v hword => cases hvalued
  | settingEq key' v hkey' hword hmeans => cases hvalued
  | unknown => cases hvalued

/-- So does the option joined with its value. -/
theorem arm_settingEq {key : String} (hkey : key ∈ settingKeys) (v : String) :
    ∃ set, Cli.arm ("--" ++ key ++ "=" ++ v) = .plain set ∧ Cli.Means key v set := by
  have hname : '=' ∉ ("--" ++ key).toList := by
    revert key
    decide
  have hcut := splitEq_append hname v
  generalize "--" ++ key ++ "=" ++ v = word at hcut
  simp only [settingKeys, List.mem_cons, List.not_mem_nil, or_false] at hkey
  rcases hkey with rfl | rfl | rfl | rfl | rfl | rfl | rfl | rfl | rfl | rfl | rfl | rfl |
    rfl | rfl | rfl | rfl | rfl
  · exact ⟨_, Cli.arm_of_cut hcut rfl, Cli.means_backend v⟩
  · exact ⟨_, Cli.arm_of_cut hcut rfl, Cli.means_profile v _⟩
  · exact ⟨_, Cli.arm_of_cut hcut rfl, Cli.means_int rfl _⟩
  · exact ⟨_, Cli.arm_of_cut hcut rfl, Cli.means_int rfl _⟩
  · exact ⟨_, Cli.arm_of_cut hcut rfl, Cli.means_int rfl _⟩
  · exact ⟨_, Cli.arm_of_cut hcut rfl, Cli.means_int rfl _⟩
  · exact ⟨_, Cli.arm_of_cut hcut rfl, Cli.means_choice rfl _⟩
  · exact ⟨_, Cli.arm_of_cut hcut rfl, Cli.means_choice rfl _⟩
  · exact ⟨_, Cli.arm_of_cut hcut rfl, Cli.means_choice rfl _⟩
  · exact ⟨_, Cli.arm_of_cut hcut rfl, Cli.means_choice rfl _⟩
  · exact ⟨_, Cli.arm_of_cut hcut rfl, Cli.means_choice rfl _⟩
  · exact ⟨_, Cli.arm_of_cut hcut rfl, Cli.means_int rfl _⟩
  · exact ⟨_, Cli.arm_of_cut hcut rfl, Cli.means_int rfl _⟩
  · exact ⟨_, Cli.arm_of_cut hcut rfl, Cli.means_int rfl _⟩
  · exact ⟨_, Cli.arm_of_cut hcut rfl, Cli.means_bool rfl _⟩
  · exact ⟨_, Cli.arm_of_cut hcut rfl, Cli.means_bool rfl _⟩
  · exact ⟨_, Cli.arm_of_cut hcut rfl, Cli.means_int rfl _⟩

/-- The configuration of an accepted command line. -/
def acceptedConfig (outcome : Except CliError Cli) : Option Config :=
  outcome.toOption.map (·.config)

/-- Over a validated configuration the two spellings of a setting do what it means. -/
theorem parsePass2_setting {key : String} (hkey : key ∈ settingKeys) (v : String)
    {config : Config} (hvalid : config.validate = .ok ()) (p : Pass1) :
    acceptedConfig (parsePass2 ["--" ++ key, v] config p) =
        (setting key v).map (fun update => update config) ∧
      acceptedConfig (parsePass2 ["--" ++ key ++ "=" ++ v] config p) =
        (setting key v).map (fun update => update config) := by
  have hmeans : ∀ {set : Cli → Except CliError Cli}, Cli.Means key v set →
      acceptedConfig ((set (Cli.start config p)).bind .ok) =
        (setting key v).map fun update => update config := by
    intro set hset
    have hsame : (set (Cli.start config p)).bind .ok = set (Cli.start config p) := by
      cases set (Cli.start config p) <;> rfl
    rw [hsame, acceptedConfig, hset]
    cases setting key v <;> rfl
  rw [parsePass2_eq_run hvalid, parsePass2_eq_run hvalid]
  constructor
  · obtain ⟨set, harm, hset⟩ := arm_setting hkey
    rw [run, harm]
    exact hmeans (hset v)
  · obtain ⟨set, harm, hset⟩ := arm_settingEq hkey v
    rw [run, harm]
    exact hmeans hset

theorem trim_of_noBlank {text : List Char} (htext : ∀ c ∈ text, isBlank c = false) :
    Text.trim isBlank text = text :=
  Text.trim_eq_self fun hne =>
    ⟨htext _ (List.head_mem hne), htext _ (List.getLast_mem hne)⟩

/-- The line `key=v` of a plain value reads as the key and the value. -/
theorem readsAs_setting {key : String} (hkey : key ∈ settingKeys) {v : String}
    (hplain : ∀ c ∈ v.toList, isBlank c = false ∧ c ≠ '#') :
    ReadsAs (key ++ "=" ++ v).toList key v := by
  have hkeys : Plain key := by
    revert key
    decide
  refine ⟨key.toList, v.toList, ?_, fun hmem => (hkeys.chars _ hmem).2.2 rfl, ?_, ?_⟩
  · rw [String.toList_append, String.toList_append, List.append_assoc]
    apply takeWhile_of_noComment
    intro hmem
    rcases List.mem_append.mp hmem with hin | hin
    · exact (hkeys.chars _ hin).2.1 rfl
    · rcases List.mem_cons.mp hin with hin | hin
      · exact absurd hin (by decide)
      · exact (hplain _ hin).2 rfl
  · exact Text.trim_eq_self hkeys.trimmed
  · exact trim_of_noBlank fun c hc => (hplain c hc).1

/-- Command line and configuration file agree.  Over a validated configuration an option
that is a configuration key does the same joined with its value, before it, and as a line
of the file. -/
theorem option_agrees {key v : String} (hoption : IsOption key) (hkey : IsKey key)
    (hplain : ∀ c ∈ v.toList, isBlank c = false ∧ c ≠ '#')
    (hlength : Text.byteLength (key ++ "=" ++ v).toList ≤ 511) {config : Config}
    (hvalid : config.validate = .ok ()) (p : Pass1) (place : Place) :
    let joined := acceptedConfig (parsePass2 ["--" ++ key ++ "=" ++ v] config p)
    let separated := acceptedConfig (parsePass2 ["--" ++ key, v] config p)
    let line := applyLine place (key ++ "=" ++ v).toList config
    joined = separated ∧ (∀ next, line = .ok next ↔ joined = some next) ∧
      (joined = none ↔ ∃ error, line = .err error config) := by
  have hmem := mem_settingKeys hoption hkey
  obtain ⟨hseparated, hjoined⟩ := parsePass2_setting hmem v hvalid p
  have hline : applyLine place (key ++ "=" ++ v).toList config =
      settingLine place key v config := by
    rw [applyLine_of_reads hlength (readsAs_setting hmem hplain), setKey_setting hmem]
  simp only [hseparated, hjoined, hline, settingLine, true_and]
  cases setting key v with
  | none => simp
  | some update => simp

/-- A signed pointer speed with a leading zero. -/
theorem option_agrees_speed :
    applyLine ⟨"config", 1⟩ "pointer-speed=+020".toList {} =
        .ok { pointerSpeed := 20 } ∧
      acceptedConfig (parsePass2 ["--pointer-speed=+020"] {} {}) =
        acceptedConfig (parsePass2 ["--pointer-speed", "+020"] {} {}) := by
  have hkey : IsKey "pointer-speed" :=
    ⟨⟨"config", 1⟩, "20", {}, { pointerSpeed := 20 }, by decide⟩
  have hplain : Plain "+020" := by decide
  exact ⟨by decide, (@option_agrees "pointer-speed" "+020" (.inl rfl) hkey
    (fun c hc => ⟨(hplain.chars c hc).1, (hplain.chars c hc).2.1⟩) (by decide) {} (by decide)
    {} ⟨"config", 1⟩).1⟩

end Daemon

end Wiiland
