/-
The hardware report and the daemon it starts.  The report scans the arguments it
forwards with an option table of its own and puts a dry run in front of them.
-/
import Wiiland.Daemon.CliPasses

namespace Wiiland

namespace Daemon

open Args

namespace Report

structure ParsedArgs where
  device : Option String
  extra : List String
  traceSelectors : Nat
deriving DecidableEq, Repr

inductive ArgError where
  | conflicting (arg : String)
  | multipleTraceSelectors
deriving DecidableEq, Repr

def startsWith (start arg : String) : Bool := decide (start.toList <+: arg.toList)

def isConflicting (arg : String) : Bool :=
  arg ∈ ["-d", "--device", "-p", "--profile", "-n", "--dry-run", "-h", "--help",
      "--version", "-l", "--list", "--calibrate-aim", "--check-config", "--self-test",
      "--axis-map", "--validation-checklist", "--doctor", "--dump-config"] ||
    startsWith "--device=" arg || startsWith "--profile=" arg ||
    startsWith "--dry-run=" arg

def consumesValue (arg : String) : Bool :=
  arg ∈ ["-c", "--config", "--backend", "--ir-speed", "--ir-deadzone", "--ir-smoothing",
    "--ir-tracking", "--ir-aim-mapping", "--pointer-speed", "--aim-mode", "--aim-source",
    "--aim-activation", "--aim-sensitivity", "--aim-deadzone", "--aim-smoothing",
    "--aim-invert-x", "--aim-invert-y", "--aim-calibration-duration"]

def selectsTrace (arg : String) : Bool :=
  arg = "--trace-events" || startsWith "--trace-events=" arg

/-- The state of the scanner's loop. -/
structure Scan where
  extra : List String := []
  selectors : Nat := 0
deriving DecidableEq, Repr

/-- One argument of the scanner's loop. -/
def Scan.take (arg : String) (scan : Scan) : Except ArgError Scan :=
  if isConflicting arg then .error (.conflicting arg)
  else .ok
    { extra := scan.extra ++ [arg]
      selectors := if selectsTrace arg then scan.selectors + 1 else scan.selectors }

def scanArm (arg : String) : Arm String Scan ArgError :=
  if consumesValue arg then
    .valued fun value scan => (scan.take arg).map fun scan =>
      { scan with extra := scan.extra ++ value.toList }
  else .plain (Scan.take arg)

/-- The scanner after the device. -/
def scanRest (device : Option String) (rest : List String) : Except ArgError ParsedArgs :=
  match run scanArm rest {} with
  | .error e => .error e
  | .ok scan =>
      if 1 < scan.selectors then .error .multipleTraceSelectors
      else .ok ⟨device, scan.extra, scan.selectors⟩

def parseArgs (args : List String) : Except ArgError ParsedArgs :=
  match args with
  | [] => scanRest none []
  | first :: rest =>
      if first = "-h" ∨ first = "--help" then .ok ⟨none, [first], 0⟩
      else scanRest (some first) rest

/-- The arguments of the daemon that captures the traces of a device. -/
def daemonArgs (parsed : ParsedArgs) (device : String) : List String :=
  ["--dry-run"] ++ (if parsed.traceSelectors = 0 then ["--trace-events"] else []) ++
    ["--verbose", "--device", device, "--profile", "both"] ++ parsed.extra

theorem startsWith_of_cut {word name v : String} (hcut : splitEq word = some (name, v)) :
    startsWith (name ++ "=") word = true := by
  rw [startsWith, decide_eq_true_eq, splitEq_eq_some hcut, String.toList_append]
  exact ⟨v.toList, by simp⟩

/-- The parts of a command that the report fixes. -/
structure Fixed (out next : Cli) : Prop where
  action : next.action = out.action
  dryRun : out.dryRun = true → next.dryRun = true
  device : next.device = out.device
  profile : next.config.profile = out.config.profile

theorem Fixed.trans {first second third : Cli} (hfirst : Fixed first second)
    (hsecond : Fixed second third) : Fixed first third where
  action := hsecond.action.trans hfirst.action
  dryRun hdry := hsecond.dryRun (hfirst.dryRun hdry)
  device := hsecond.device.trans hfirst.device
  profile := hsecond.profile.trans hfirst.profile

theorem isConflicting_of_action {word : String} {action : Action}
    (hword : actionOf word = some action) : isConflicting word = true := by
  unfold actionOf at hword
  split at hword <;> first | rfl | cases hword

/-- An option that the scanner lets through changes none of them. -/
theorem fixed_of_free {word : String} {value : Option String} {out next : Cli}
    (hfree : isConflicting word = false) (hstep : Cli.Step word value out next) :
    Fixed out next := by
  cases hstep with
  | action action hword =>
      rw [isConflicting_of_action hword] at hfree
      cases hfree
  | same hword hnone => exact ⟨rfl, id, rfl, rfl⟩
  | verbose hword => exact ⟨rfl, id, rfl, rfl⟩
  | dryRun hword => exact ⟨rfl, fun _ => rfl, rfl, rfl⟩
  | trace trace henabled hword => exact ⟨rfl, id, rfl, rfl⟩
  | device device hword =>
      have hconflict : isConflicting word = true := by
        rcases hword with ⟨hword, _⟩ | hcut
        · simp only [List.mem_cons, List.not_mem_nil, or_false] at hword
          rcases hword with rfl | rfl <;> rfl
        · have hstart := startsWith_of_cut hcut
          simp [isConflicting, show startsWith "--device=" word = true from hstart]
      rw [hconflict] at hfree
      cases hfree
  | setting key v update hkey hword hupdate =>
      have hprofile : key ≠ "profile" := by
        rintro rfl
        have hconflict : isConflicting word = true := by
          rcases hword with ⟨rfl | ⟨rfl, _⟩, _⟩ | hcut
          · rfl
          · rfl
          · have hstart := startsWith_of_cut hcut
            simp [isConflicting, show startsWith "--profile=" word = true from hstart]
        rw [hconflict] at hfree
        cases hfree
      exact ⟨rfl, id, rfl, setting_profile hprofile hupdate out.config⟩

/-- The trace stays on. -/
theorem trace_kept {word : String} {value : Option String} {out next : Cli}
    (hstep : Cli.Step word value out next) (hon : out.trace.enabled = true) :
    next.trace.enabled = true := by
  cases hstep with
  | trace trace henabled hword => exact henabled
  | _ => exact hon

/-- A trace selector turns it on. -/
theorem trace_selected {word : String} {value : Option String} {out next : Cli}
    (hok : (Cli.arm word).apply value out = .ok next) (hword : selectsTrace word = true) :
    next.trace.enabled = true := by
  unfold selectsTrace startsWith at hword
  simp only [Bool.or_eq_true, decide_eq_true_eq] at hword
  rcases hword with rfl | ⟨rest, hrest⟩
  · cases hok
    rfl
  · have hjoin : word = "--trace-events" ++ "=" ++ String.ofList rest := by
      apply String.toList_inj.mp
      rw [← hrest]
      simp
    have hcut : splitEq word = some ("--trace-events", String.ofList rest) := by
      rw [hjoin]
      exact splitEq_append (by decide) _
    rw [Cli.arm_of_cut hcut rfl] at hok
    simp only [Arm.apply, Cli.setTrace] at hok
    split at hok <;> cases hok
    rfl

theorem scan_take {arg : String} {scan next : Scan} (hok : scan.take arg = .ok next) :
    isConflicting arg = false ∧ next.extra = scan.extra ++ [arg] ∧
      (scan.selectors < next.selectors → selectsTrace arg = true) := by
  unfold Scan.take at hok
  split at hok
  · cases hok
  · next hfree =>
    cases hok
    refine ⟨by simpa using hfree, rfl, fun hmore => ?_⟩
    cases hselects : selectsTrace arg with
    | true => rfl
    | false => simp [hselects] at hmore

/-- What the scanner does with an argument it lets through. -/
theorem scan_step {arg : String} {value : Option String} {scan next : Scan}
    (hok : (scanArm arg).apply value scan = .ok next) :
    isConflicting arg = false ∧
      (scan.selectors < next.selectors → selectsTrace arg = true) := by
  unfold scanArm at hok
  split at hok
  · simp only [Arm.apply] at hok
    cases htake : scan.take arg with
    | error e => simp [htake, Except.map] at hok
    | ok taken =>
        simp only [htake, Except.map, Except.ok.injEq] at hok
        rw [← hok]
        exact ⟨(scan_take htake).1, (scan_take htake).2.2⟩
  · exact ⟨(scan_take hok).1, (scan_take hok).2.2⟩

theorem takesValue_scanArm (word : String) :
    takesValue scanArm word = consumesValue word := by
  unfold takesValue scanArm
  split
  · next hword => exact hword.symm
  · next hword => exact (Bool.eq_false_iff.mpr hword).symm

/-- The scanner forwards what it scans. -/
theorem scan_extra {rest : List String} {scan scanned : Scan}
    (hscan : run scanArm rest scan = .ok scanned) : scanned.extra = scan.extra ++ rest := by
  have hextra : ∀ {word : String} {value : Option String} {scan next : Scan},
      (value ≠ none → takesValue scanArm word = true) →
        (scanArm word).apply value scan = .ok next →
          next.extra = scan.extra ++ (word :: value.toList) := by
    intro word value scan next hvalue hok
    rw [takesValue_scanArm] at hvalue
    unfold scanArm at hok
    split at hok
    · simp only [Arm.apply] at hok
      cases htake : scan.take word with
      | error e => simp [htake, Except.map] at hok
      | ok taken =>
          simp only [htake, Except.map, Except.ok.injEq] at hok
          rw [← hok, (scan_take htake).2.1]
          simp
    · next hword =>
      have hnone : value = none := by
        by_contra hsome
        exact hword (hvalue hsome)
      rw [hnone, (scan_take hok).2.1]
      rfl
  induction rest using readings_induction (takesValue scanArm) generalizing scan with
  | nil =>
      cases hscan
      rw [List.append_nil]
  | plain word rest htakes ih =>
      obtain ⟨next, hset, hrest⟩ := run_plain htakes hscan
      rw [ih hrest, hextra (absurd rfl) hset]
      simp
  | last word htakes => exact hextra (absurd rfl) (run_last hscan)
  | valued word value rest htakes ih =>
      obtain ⟨next, hset, hrest⟩ := run_valued htakes hscan
      rw [ih hrest, hextra (fun _ => htakes) hset]
      simp

theorem takesValue_of_consumes {word : String} (hword : consumesValue word = true) :
    takesValue Cli.arm word = true := by
  simp only [consumesValue, decide_eq_true_eq, List.mem_cons, List.not_mem_nil,
    or_false] at hword
  rcases hword with rfl | rfl | rfl | rfl | rfl | rfl | rfl | rfl | rfl | rfl | rfl | rfl |
    rfl | rfl | rfl | rfl | rfl | rfl <;> rfl

theorem head_of_ipcPath {value option : String} {path : PathBuf}
    (hpath : ipcPath value option = .ok path) : value.toList.head? = some '/' := by
  unfold ipcPath at hpath
  split at hpath
  · cases hpath
  · split at hpath
    · cases hpath
    · next habsolute =>
      simp only [Bool.not_eq_true', Bool.not_eq_false, PathBuf.isAbsolute, PathBuf.ofString,
        beq_iff_eq] at habsolute
      cases htext : value.toList with
      | nil => simp [htext, Text.encode] at habsolute
      | cons c rest =>
          have hbyte : UInt8.ofNat '/'.toNat ∈ String.utf8EncodeChar c := by
            have hne : String.utf8EncodeChar c ≠ [] := by
              rw [← List.length_pos_iff, String.length_utf8EncodeChar]
              exact c.utf8Size_pos
            rw [htext] at habsolute
            have hhead : (String.utf8EncodeChar c ++ Text.encode rest).head? =
                some UnixPath.separator := habsolute
            rw [List.head?_append_of_ne_nil _ hne] at hhead
            exact List.mem_of_mem_head? hhead
          rw [Text.mem_utf8EncodeChar_of_ascii (by decide) hbyte, List.head?_cons]

/-- A path the daemon accepts for its socket is no option of the scanner. -/
theorem plain_of_ipcPath {value option : String} {path : PathBuf}
    (hpath : ipcPath value option = .ok path) :
    consumesValue value = false ∧ isConflicting value = false ∧ selectsTrace value = false := by
  have hhead := head_of_ipcPath hpath
  have hlist : ∀ {words : List String}, (∀ word ∈ words, word.toList.head? = some '-') →
      value ∉ words := by
    intro words hwords hmem
    rw [hwords value hmem] at hhead
    exact absurd hhead (by decide)
  have hstart : ∀ {start : String}, start.toList.head? = some '-' →
      startsWith start value = false := by
    intro start hdash
    rw [startsWith, decide_eq_false_iff_not]
    rintro ⟨rest, hrest⟩
    rw [← hrest, List.head?_append, hdash, Option.some_or] at hhead
    exact absurd hhead (by decide)
  refine ⟨?_, ?_, ?_⟩
  · simpa only [consumesValue, decide_eq_false_iff_not] using hlist (by decide)
  · simp only [isConflicting, Bool.or_eq_false_iff, decide_eq_false_iff_not]
    exact ⟨⟨⟨hlist (by decide), hstart rfl⟩, hstart rfl⟩, hstart rfl⟩
  · simp only [selectsTrace, Bool.or_eq_false_iff, decide_eq_false_iff_not]
    refine ⟨?_, hstart rfl⟩
    rintro rfl
    exact absurd hhead (by decide)

/-- The word after an option of the daemon is no option of the first pass, and the
scanner steps past it or finds no option in it either. -/
theorem value_cases {word value : String} {out next : Cli} {p found : Pass1}
    {rest : List String} (hfree : isConflicting word = false)
    (htakes : takesValue Cli.arm word = true)
    (hok : (Cli.arm word).apply (some value) out = .ok next)
    (hfirst : run Pass1.arm (word :: value :: rest) p = .ok found) :
    (∃ later, run Pass1.arm rest later = .ok found) ∧
      (consumesValue word = true ∨ consumesValue word = false ∧ consumesValue value = false ∧
        isConflicting value = false ∧ selectsTrace value = false) := by
  have hkind := Cli.arm_kind word
  unfold takesValue at htakes
  generalize Cli.arm word = arm at hkind htakes hok
  cases hkind with
  | skipNext hword =>
      have hmem : word ∈ ["-c", "--config", "--ipc-socket"] := by
        simp only [List.mem_cons, List.not_mem_nil, or_false] at hword ⊢
        tauto
      obtain ⟨later, hset, hrest⟩ := run_valued (takesValue_of_mem hmem).1 hfirst
      refine ⟨⟨later, hrest⟩, ?_⟩
      simp only [List.mem_cons, List.not_mem_nil, or_false] at hword
      rcases hword with rfl | rfl | rfl
      · exact .inl rfl
      · exact .inl rfl
      · right
        have hsocket : p.ipcSocket value = .ok later := hset
        unfold Pass1.ipcSocket at hsocket
        split at hsocket
        · cases hsocket
        · cases hpath : ipcPath value "--ipc-socket" with
          | error e => simp [hpath, Except.map] at hsocket
          | ok path => exact ⟨rfl, plain_of_ipcPath hpath⟩
  | device hword =>
      simp only [List.mem_cons, List.not_mem_nil, or_false] at hword
      rcases hword with rfl | rfl <;> cases hfree
  | setting key hkey hword hnone hmeans =>
      obtain ⟨update, hupdate, _⟩ := (hmeans value).ok hok
      have hvalue : isSelector value = false := by
        rw [Bool.eq_false_iff]
        intro hselector
        rw [setting_of_dashed (dashed_of_selector hselector)] at hupdate
        cases hupdate
      have hword : word = "--" ++ key := by
        rcases hword with hword | ⟨rfl, _⟩
        · exact hword
        · cases hfree
      subst hword
      have hskip : ∀ {word : String}, isSelector word = false →
          takesValue Pass1.arm word = false := fun hword => by
        rw [pass1_takesValue, hword, Bool.false_and]
      obtain ⟨second, _, hsecond⟩ := run_plain (hskip (isSelector_setting hkey)) hfirst
      obtain ⟨later, _, hrest⟩ := run_plain (hskip hvalue) hsecond
      refine ⟨⟨later, hrest⟩, .inl ?_⟩
      have hall : ∀ key ∈ settingKeys, isConflicting ("--" ++ key) = false →
          consumesValue ("--" ++ key) = true := by decide
      exact hall key hkey hfree
  | _ => cases htakes

/-- The three readers stay together: what the daemon reads after the report's
prefix changes nothing that the prefix fixes. -/
theorem scan_guards {rest : List String} {scan scanned : Scan} {p found : Pass1}
    {out cli : Cli} (hscan : run scanArm rest scan = .ok scanned)
    (hfirst : run Pass1.arm rest p = .ok found) (hsecond : run Cli.arm rest out = .ok cli) :
    Fixed out cli ∧
      (out.trace.enabled = true ∨ scan.selectors < scanned.selectors →
        cli.trace.enabled = true) := by
  induction rest using readings_induction (takesValue Cli.arm)
    generalizing scan p out with
  | nil =>
      cases hscan
      cases hsecond
      exact ⟨⟨rfl, id, rfl, rfl⟩, fun hon => hon.elim id fun hless => absurd hless (by simp)⟩
  | plain word rest htakes ih =>
      have hscanTakes : takesValue scanArm word = false := by
        rw [takesValue_scanArm, Bool.eq_false_iff]
        intro hconsumes
        rw [takesValue_of_consumes hconsumes] at htakes
        cases htakes
      have hfirstTakes : takesValue Pass1.arm word = false := by
        rw [pass1_takesValue, htakes, Bool.and_false]
      obtain ⟨middle, hset, hscanRest⟩ := run_plain hscanTakes hscan
      obtain ⟨p', _, hfirstRest⟩ := run_plain hfirstTakes hfirst
      obtain ⟨out', hnext, hsecondRest⟩ := run_plain htakes hsecond
      obtain ⟨hfree, hselects⟩ := scan_step hset
      obtain ⟨hfixed, htrace⟩ := ih hscanRest hfirstRest hsecondRest
      have hstep := Cli.arm_step hnext
      refine ⟨(fixed_of_free hfree hstep).trans hfixed, fun hon => htrace ?_⟩
      rcases hon with hon | hless
      · exact .inl (trace_kept hstep hon)
      · by_cases hmiddle : scan.selectors < middle.selectors
        · exact .inl (trace_selected hnext (hselects hmiddle))
        · exact .inr (by omega)
  | last word htakes =>
      obtain ⟨hfree, hselects⟩ := scan_step (run_last hscan)
      have hnext := run_last hsecond
      have hstep := Cli.arm_step hnext
      refine ⟨fixed_of_free hfree hstep, fun hon => ?_⟩
      rcases hon with hon | hless
      · exact trace_kept hstep hon
      · exact trace_selected hnext (hselects hless)
  | valued word value rest htakes ih =>
      obtain ⟨out', hnext, hsecondRest⟩ := run_valued htakes hsecond
      have hstep := Cli.arm_step hnext
      have hwordFree : isConflicting word = false := by
        cases hconsumes : consumesValue word with
        | true =>
            obtain ⟨middle, hset, _⟩ :=
              run_valued ((takesValue_scanArm word).trans hconsumes) hscan
            exact (scan_step hset).1
        | false =>
            obtain ⟨middle, hset, _⟩ :=
              run_plain ((takesValue_scanArm word).trans hconsumes) hscan
            exact (scan_step hset).1
      obtain ⟨⟨later, hfirstRest⟩, hvalue⟩ := value_cases hwordFree htakes hnext hfirst
      have hjoined : ∃ middle, run scanArm rest middle = .ok scanned ∧
          (scan.selectors < middle.selectors → selectsTrace word = true) := by
        rcases hvalue with hconsumes | ⟨hconsumes, hplain, hvalueFree, hvalueTrace⟩
        · obtain ⟨middle, hset, hscanRest⟩ :=
            run_valued ((takesValue_scanArm word).trans hconsumes) hscan
          exact ⟨middle, hscanRest, (scan_step hset).2⟩
        · obtain ⟨between, hset, hscanValue⟩ :=
            run_plain ((takesValue_scanArm word).trans hconsumes) hscan
          obtain ⟨middle, hsetValue, hscanRest⟩ :=
            run_plain ((takesValue_scanArm value).trans hplain) hscanValue
          refine ⟨middle, hscanRest, fun hless => ?_⟩
          by_cases hbetween : scan.selectors < between.selectors
          · exact (scan_step hset).2 hbetween
          · have hmore := (scan_step hsetValue).2 (by omega)
            rw [hvalueTrace] at hmore
            cases hmore
      obtain ⟨middle, hscanRest, hselects⟩ := hjoined
      obtain ⟨hfixed, htrace⟩ := ih hscanRest hfirstRest hsecondRest
      refine ⟨(fixed_of_free hwordFree hstep).trans hfixed, fun hon => htrace ?_⟩
      rcases hon with hon | hless
      · exact .inl (trace_kept hstep hon)
      · by_cases hmiddle : scan.selectors < middle.selectors
        · exact .inl (trace_selected hnext (hselects hmiddle))
        · exact .inr (by omega)

/-- The scanner has read all the arguments after the device. -/
theorem parseArgs_ok {raw : List String} {parsed : ParsedArgs} {device : String}
    (hparsed : parseArgs raw = .ok parsed) (hdevice : parsed.device = some device) :
    ∃ scanned, run scanArm parsed.extra {} = .ok scanned ∧
      scanned.selectors = parsed.traceSelectors := by
  have hrest : ∀ {start : Option String} {rest : List String},
      scanRest start rest = .ok parsed →
        ∃ scanned, run scanArm parsed.extra {} = .ok scanned ∧
          scanned.selectors = parsed.traceSelectors := by
    intro start rest hok
    unfold scanRest at hok
    cases hscan : run scanArm rest {} with
    | error e => simp [hscan] at hok
    | ok scanned =>
        simp only [hscan] at hok
        split at hok <;> cases hok
        have hextra : scanned.extra = rest := (scan_extra hscan).trans (List.nil_append rest)
        exact ⟨scanned, by rw [hextra, hscan], rfl⟩
  unfold parseArgs at hparsed
  split at hparsed
  · exact hrest hparsed
  · split at hparsed
    · cases hparsed
      cases hdevice
    · exact hrest hparsed

/-- The first pass comes out of the report's prefix where the scanner starts. -/
theorem pass1_afterDevice {device : String} {start rest : List String} {p found : Pass1}
    (hstart : ∀ word ∈ start, isSelector word = false)
    (hrun : run Pass1.arm (start ++ device :: "--profile" :: "both" :: rest) p = .ok found) :
    ∃ later, run Pass1.arm rest later = .ok found := by
  have hskip : ∀ {word : String} {rest : List String} {p : Pass1}, isSelector word = false →
      run Pass1.arm (word :: rest) p = .ok found →
        ∃ later, run Pass1.arm rest later = .ok found := by
    intro word rest p hword hok
    have htakes : takesValue Pass1.arm word = false := by
      rw [pass1_takesValue, hword, Bool.false_and]
    obtain ⟨later, _, hlater⟩ := run_plain htakes hok
    exact ⟨later, hlater⟩
  induction start generalizing p with
  | nil =>
      cases htakes : takesValue Pass1.arm device with
      | true =>
          obtain ⟨later, _, hlater⟩ := run_valued htakes hrun
          exact hskip rfl hlater
      | false =>
          obtain ⟨later, _, hlater⟩ := run_plain htakes hrun
          obtain ⟨next, hnext⟩ := hskip rfl hlater
          exact hskip rfl hnext
  | cons word start ih =>
      rw [List.forall_mem_cons] at hstart
      obtain ⟨later, hlater⟩ := hskip hstart.1 hrun
      exact ih hstart.2 hlater

/-- The second pass comes out of it with all that the report fixes. -/
theorem pass2_afterDevice {device : String} {rest : List String} {out cli : Cli}
    (hrun : run Cli.arm
      ("--verbose" :: "--device" :: device :: "--profile" :: "both" :: rest) out = .ok cli) :
    run Cli.arm rest
      { out with
        verbose := true
        device := some device
        config := { out.config with profile := .both } } = .ok cli := by
  obtain ⟨verbose, hverbose, hrun⟩ := run_plain rfl hrun
  cases hverbose
  obtain ⟨named, hnamed, hrun⟩ := run_valued rfl hrun
  cases hnamed
  obtain ⟨profiled, hprofiled, hrun⟩ := run_valued rfl hrun
  cases hprofiled
  exact hrun

/-- Whatever the report lets through, the daemon it starts is a dry run over its own
device with both profiles and the trace on. -/
theorem daemon_isDry {raw : List String} {parsed : ParsedArgs} {device : String}
    {config : Config} {p : Pass1} {cli : Cli} (hparsed : parseArgs raw = .ok parsed)
    (hdevice : parsed.device = some device)
    (hfirst : parsePass1 (daemonArgs parsed device) = .ok p)
    (hsecond : parsePass2 (daemonArgs parsed device) config p = .ok cli) :
    cli.action = .run ∧ cli.dryRun = true ∧ cli.device = some device ∧
      cli.config.profile = .both ∧ cli.trace.enabled = true := by
  obtain ⟨scanned, hscan, hselectors⟩ := parseArgs_ok hparsed hdevice
  have hone := parsePass1_ok hfirst
  obtain ⟨_, htwo, _⟩ := parsePass2_ok hsecond
  by_cases hzero : parsed.traceSelectors = 0
  · rw [daemonArgs, if_pos hzero] at hone htwo
    obtain ⟨later, hlater⟩ :=
      @pass1_afterDevice device ["--dry-run", "--trace-events", "--verbose", "--device"] _ _ _
        (by decide) hone
    obtain ⟨dry, hdry, htwo⟩ := run_plain rfl htwo
    cases hdry
    obtain ⟨traced, htraced, htwo⟩ := run_plain rfl htwo
    cases htraced
    obtain ⟨hfixed, htrace⟩ := scan_guards hscan hlater (pass2_afterDevice htwo)
    exact ⟨hfixed.action, hfixed.dryRun rfl, hfixed.device, hfixed.profile,
      htrace (.inl rfl)⟩
  · rw [daemonArgs, if_neg hzero] at hone htwo
    obtain ⟨later, hlater⟩ :=
      @pass1_afterDevice device ["--dry-run", "--verbose", "--device"] _ _ _ (by decide) hone
    obtain ⟨dry, hdry, htwo⟩ := run_plain rfl htwo
    cases hdry
    obtain ⟨hfixed, htrace⟩ := scan_guards hscan hlater (pass2_afterDevice htwo)
    have hmore : 0 < scanned.selectors := by
      rw [hselectors]
      exact Nat.pos_of_ne_zero hzero
    exact ⟨hfixed.action, hfixed.dryRun rfl, hfixed.device, hfixed.profile,
      htrace (.inr hmore)⟩

/-- A report on device 7 with a configuration of its own and a focused trace. -/
theorem daemon_isDry_seven :
    parseArgs ["7", "--config", "x", "--trace-events=ir"] =
        .ok ⟨some "7", ["--config", "x", "--trace-events=ir"], 1⟩ ∧
      ∃ p cli,
        parsePass1 (daemonArgs ⟨some "7", ["--config", "x", "--trace-events=ir"], 1⟩ "7") =
          .ok p ∧
        parsePass2 (daemonArgs ⟨some "7", ["--config", "x", "--trace-events=ir"], 1⟩ "7") {} p =
          .ok cli ∧
        cli.action = .run ∧ cli.dryRun = true ∧ cli.device = some "7" ∧
          cli.config.profile = .both ∧ cli.trace.enabled = true :=
  ⟨rfl, _, _, rfl, rfl, @daemon_isDry ["7", "--config", "x", "--trace-events=ir"]
    ⟨some "7", ["--config", "x", "--trace-events=ir"], 1⟩ "7" {} _ _ rfl rfl rfl rfl⟩

end Report

end Daemon

end Wiiland
