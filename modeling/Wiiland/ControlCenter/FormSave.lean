/-
What the form of the control center lets the user save.  The form checks ranges, the
number of rules and the characters of their match texts; a rendered configuration loads
again when, beyond that, its lines are short enough and its calibrations in range.
-/
import Wiiland.ControlCenter.ConfigModel
import Wiiland.Core.ConfigLayers
import Wiiland.Core.RuleLines

namespace Wiiland

/-- Characters that neither end a line nor cut it. -/
def LineChars (text : String) : Prop :=
  ∀ c ∈ text.toList, isBlank c = false ∧ c ≠ '#' ∧ c ≠ '='

theorem lineChars_showInt (n : Int) : LineChars (showInt n) := by
  intro c hc
  rw [showInt, String.toList_ofList] at hc
  have hrange := Decimal.toNat_of_mem_write hc
  refine ⟨?_, ?_, ?_⟩
  · rw [Bool.eq_false_iff]
    intro hblank
    simp only [isBlank, Bool.or_eq_true, beq_iff_eq] at hblank
    rcases hblank with ((rfl | rfl) | rfl) | rfl <;> exact absurd hrange.1 (by decide)
  · rintro rfl
    exact absurd hrange.1 (by decide)
  · rintro rfl
    exact absurd hrange.2 (by decide)

theorem printable_of_lineChars {key value : String} (hkey : LineChars key)
    (hvalue : LineChars value) : Printable (key, value) := by
  have htrimmed : ∀ {text : String}, LineChars text → Text.Trimmed isBlank text.toList :=
    fun htext hne => ⟨(htext _ (List.head_mem hne)).1, (htext _ (List.getLast_mem hne)).1⟩
  have hfeed : ∀ {text : String}, LineChars text → '\n' ∉ text.toList :=
    fun htext hmem => absurd (htext _ hmem).1 (by decide)
  refine ⟨htrimmed hkey, htrimmed hvalue, fun hmem => (hkey _ hmem).2.2 rfl, ?_, ?_⟩
  · rw [entryText, List.mem_append, List.mem_cons, not_or, not_or]
    exact ⟨fun hmem => (hkey _ hmem).2.1 rfl, by decide, fun hmem => (hvalue _ hmem).2.1 rfl⟩
  · rw [entryText, List.mem_append, List.mem_cons, not_or, not_or]
    exact ⟨hfeed hkey, by decide, hfeed hvalue⟩

theorem printable_int {key : String} (hkey : Plain key) (n : Int) :
    Printable (key, showInt n) :=
  printable_of_lineChars hkey.chars (lineChars_showInt n)

theorem printable_word {key value : String} (hkey : Plain key) (hvalue : Plain value) :
    Printable (key, value) :=
  printable_of_plain hkey hvalue

theorem plain_profile (profile : Profile) : Plain (profile.asStr.getD "unknown") := by
  unfold Profile.asStr
  split
  · decide
  · split
    · decide
    · split <;> decide

theorem printable_screen (screen : Option IrRectangle) :
    ∀ entry ∈ dumpScreen screen, Printable entry := by
  cases screen with
  | none => simp [dumpScreen]
  | some r =>
      simp only [dumpScreen, List.forall_mem_cons]
      exact ⟨printable_int (by decide) _, printable_int (by decide) _,
        printable_int (by decide) _, printable_int (by decide) _, by simp⟩

theorem printable_calibration {name : String}
    (hkeys : Plain (name ++ "-x") ∧ Plain (name ++ "-y") ∧ Plain (name ++ "-z"))
    (calibration : Option SensorCalibration) :
    ∀ entry ∈ dumpCalibration name calibration, Printable entry := by
  cases calibration with
  | none => simp [dumpCalibration]
  | some c =>
      rw [dumpCalibration]
      split
      · simp only [List.forall_mem_cons]
        exact ⟨printable_int hkeys.1 _, printable_int hkeys.2.1 _,
          printable_int hkeys.2.2 _, by simp⟩
      · simp

/-- The lines of a dump before its rules read back as their keys and values, whatever
the configuration. -/
theorem printable_scalars (config : Config) :
    ∀ entry ∈ dumpScalars config, Printable entry := by
  simp only [dumpScalars, List.forall_mem_append]
  refine ⟨⟨⟨⟨⟨⟨?_, printable_screen config.irScreen⟩, ?_⟩,
    printable_calibration (by decide) config.aimAccelZero⟩,
    printable_calibration (by decide) config.aimMotionPlusBias⟩, ?_⟩, ?_⟩
  · simp only [List.forall_mem_cons]
    exact ⟨printable_word (by decide) (by cases config.backend; decide),
      printable_word (by decide) (plain_profile config.profile),
      printable_int (by decide) _, printable_int (by decide) _,
      printable_int (by decide) _, printable_int (by decide) _,
      printable_word (by decide) (by cases config.irTracking <;> decide),
      printable_word (by decide) (by cases config.irAimMapping <;> decide), by simp⟩
  · simp only [List.forall_mem_cons]
    exact ⟨printable_word (by decide) (by cases config.aimMode <;> decide),
      printable_word (by decide) (by cases config.aimSource <;> decide),
      printable_word (by decide) (by cases config.aimActivation <;> decide),
      printable_int (by decide) _, printable_int (by decide) _,
      printable_int (by decide) _,
      printable_word (by decide) (by cases config.aimInvertX <;> decide),
      printable_word (by decide) (by cases config.aimInvertY <;> decide), by simp⟩
  · simp only [List.forall_mem_cons]
    exact ⟨printable_int (by decide) _, by simp⟩
  · have hbinding : ∀ name ∈ ["a", "b", "plus", "minus", "home", "one", "two"],
        Plain ("desktop." ++ name) := by decide
    intro entry hentry
    obtain ⟨⟨name, action⟩, hmem, rfl⟩ := List.mem_map.mp hentry
    have hname : name ∈ ["a", "b", "plus", "minus", "home", "one", "two"] := by
      have hnames : config.desktopBindings.iter.map Prod.fst =
          ["a", "b", "plus", "minus", "home", "one", "two"] := rfl
      rw [← hnames]
      exact List.mem_map_of_mem hmem
    exact printable_word (hbinding name hname) (DesktopAction.parse_asStr action).2

/-- An integer line that is accepted holds an integer in range. -/
theorem range_of_setKey {key : String} {min max : Int} {store : Int → Config → Config}
    {n : Int} {place : Place} {config next : Config}
    (hfixed : fixedKey place key (showInt n) =
      some (setInt place key (showInt n) min max store))
    (hok : setKey place key (showInt n) config = .ok next) : min ≤ n ∧ n ≤ max := by
  rw [setKey, hfixed] at hok
  simp only [setInt] at hok
  cases hparse : parseInt (showInt n) min max with
  | none =>
      rw [hparse] at hok
      cases hok
  | some m =>
      have hrange := parseInt_range hparse
      rw [parseInt, showInt, String.toList_ofList, Option.bind_eq_some_iff] at hparse
      obtain ⟨read, hread, hsome⟩ := hparse
      have hsame := Decimal.eq_of_readI64_write hread
      split at hsome
      · cases hsome
      · cases hsome
        rw [hsame] at hrange
        exact hrange

/-- Of accepted printed lines each one fits and sets its key. -/
theorem entries_of_applyLines {path : String} {no : Nat} {entries : List (String × String)}
    {config final : Config}
    (hprintable : ∀ entry ∈ entries, Printable entry)
    (hok : applyLines path no (entries.map entryBytes) config = .ok final) :
    ∀ entry ∈ entries, Fits entry ∧
      ∃ place before after, setKey place entry.1 entry.2 before = .ok after := by
  induction entries generalizing no config with
  | nil => exact fun entry hentry => absurd hentry List.not_mem_nil
  | cons first entries ih =>
      obtain ⟨next, hraw, hrest⟩ := applyLines_ok_cons hok
      have hfirst := hprintable first List.mem_cons_self
      have hfits : Fits first := by
        have hlength := length_le_of_applyLines hok (entryBytes first) List.mem_cons_self
        rw [length_entryBytes] at hlength
        rw [Fits]
        omega
      rw [applyRaw_entry hfirst hfits] at hraw
      intro entry hentry
      rcases List.mem_cons.mp hentry with rfl | hmem
      · exact ⟨hfits, _, _, _, hraw⟩
      · exact ih (fun other hother => hprintable other (List.mem_cons_of_mem _ hother)) hrest
          entry hmem

namespace ControlCenter

/-- What the form refuses in a match text. -/
def badMatchText (text : String) : Bool :=
  (Text.trim isWhitespace text.toList).isEmpty ||
    text.toList.any fun c => c == '#' || c == '=' || c == '\n' || c == '\r'

def ConfigModel.validateForm (model : ConfigModel) : Except String Unit :=
  match model.config.validate with
  | .error e => .error e.display
  | .ok () =>
      if maxDeviceRules < model.config.deviceRules.length then .error "too many device rules"
      else if model.config.deviceRules.any fun rule => badMatchText rule.matchText then
        .error "rule match text cannot contain #, =, or line breaks"
      else .ok ()

/-- The line that starts every rendering. -/
def banner : List Char := "# Generated by wiiland-config.\n".toList

theorem rawLines_render (config : Config)
    (hprintable : ∀ entry ∈ dumpEntries config, Printable entry) :
    rawLines (renderConfig config) =
      Text.encode banner :: (dumpEntries config).map entryBytes := by
  have hbanner : rawLines (Text.encode banner) = [Text.encode banner] := by decide
  have hends : ∃ body, Text.encode banner = body ++ [lineFeed] :=
    ⟨Text.encode "# Generated by wiiland-config.".toList, by decide⟩
  have hbytes : renderConfig config = Text.encode banner ++ dumpBytes config := by
    rw [renderConfig, String.toList_append, Text.encode_append]
    rfl
  rw [hbytes, rawLines_append (.inr hends), hbanner,
    rawLines_dumpBytes fun entry hentry => (hprintable entry hentry).noFeed]
  rfl

theorem applyRaw_banner (place : Place) (config : Config) :
    applyRaw place (Text.encode banner) config = .ok config := by
  rw [applyRaw_of_decode (Text.decode_encode banner) (by decide), applyLine, if_neg (by decide)]
  rfl

/-- A rendering loads as the lines of its dump. -/
theorem parseBytes_render {path : String} {config loaded : Config}
    (hprintable : ∀ entry ∈ dumpEntries config, Printable entry) :
    parseBytes path (renderConfig config) = .ok loaded ↔
      applyLines path 2 ((dumpEntries config).map entryBytes) {} = .ok loaded ∧
        loaded.validate = .ok () := by
  rw [parseBytes_eq_ok, rawLines_render config hprintable, applyLines, applyRaw_banner]
  rfl

/-- Everything of a configuration but its screen, its calibrations and its rules. -/
def scalars (config : Config) : Config :=
  { config with irScreen := none, aimAccelZero := none, aimMotionPlusBias := none,
                deviceRules := [] }

/-- A loaded configuration agrees with the edited one. -/
structure Agrees (loaded config : Config) : Prop where
  sameScalars : scalars loaded = scalars config
  screen : loaded.irScreen = config.irScreen
  accelZero : ∀ c ∈ config.aimAccelZero, c.complete = true → loaded.aimAccelZero = some c
  motionPlusBias : ∀ c ∈ config.aimMotionPlusBias, c.complete = true →
    loaded.aimMotionPlusBias = some c
  profiles : ∀ syspath devtype,
    loaded.profileForDevice syspath devtype = config.profileForDevice syspath devtype

/-- What the form does not check: the screen and the complete calibrations are in the
ranges of the parser, and the line of every rule is short enough. -/
structure Savable (config : Config) : Prop where
  screen : ∀ r ∈ config.irScreen, r.WellFormed
  accelZero : ∀ c ∈ config.aimAccelZero, c.complete = true → c.InRange
  motionPlusBias : ∀ c ∈ config.aimMotionPlusBias, c.complete = true → c.InRange
  rules : ∀ rule ∈ config.deviceRules, Fits rule.entry

/-- What the form checks, check by check. -/
theorem validateForm_eq_ok {model : ConfigModel} (hform : model.validateForm = .ok ()) :
    model.config.validate = .ok () ∧ ∀ rule ∈ model.config.deviceRules,
      '#' ∉ rule.matchText.toList ∧ '=' ∉ rule.matchText.toList ∧
        '\n' ∉ rule.matchText.toList := by
  unfold ConfigModel.validateForm at hform
  cases hvalid : model.config.validate with
  | error e =>
      rw [hvalid] at hform
      cases hform
  | ok _ =>
      simp only [hvalid] at hform
      split at hform
      · cases hform
      · split at hform
        · cases hform
        · next hgood =>
          refine ⟨rfl, fun rule hrule => ?_⟩
          have hrule' : badMatchText rule.matchText = false := by
            by_contra hbad
            exact hgood (List.any_eq_true.mpr ⟨rule, hrule, Bool.not_eq_false _ ▸ hbad⟩)
          rw [badMatchText, Bool.or_eq_false_iff, List.any_eq_false] at hrule'
          refine ⟨fun hmem => ?_, fun hmem => ?_, fun hmem => ?_⟩
          · exact hrule'.2 _ hmem rfl
          · exact hrule'.2 _ hmem rfl
          · exact hrule'.2 _ hmem rfl

/-- The lines of a form that passed its checks read back as their keys and values. -/
theorem printable_form {model : ConfigModel} (hform : model.validateForm = .ok ()) :
    ∀ entry ∈ dumpEntries model.config, Printable entry := by
  obtain ⟨hvalid, htexts⟩ := validateForm_eq_ok hform
  obtain ⟨_, _, _, _, _, _, hrules⟩ := model.config.validate_eq_ok_iff.mp hvalid
  intro entry hentry
  rcases List.mem_append.mp hentry with hmem | hmem
  · exact printable_scalars model.config entry hmem
  · obtain ⟨rule, hrule, rfl⟩ := List.mem_map.mp hmem
    obtain ⟨hcomment, hequals, hfeed⟩ := htexts rule hrule
    exact printable_entry (hrules rule hrule).2 hcomment hequals hfeed

/-- The configuration that a rendering loads as: incomplete calibrations are gone, and
the rules are put one after the other. -/
def reloaded (config : Config) : Config :=
  { config with
    aimAccelZero := config.aimAccelZero.filter SensorCalibration.complete
    aimMotionPlusBias := config.aimMotionPlusBias.filter SensorCalibration.complete
    deviceRules := config.deviceRules.foldl putRule [] }

theorem agrees_reloaded (config : Config) : Agrees (reloaded config) config where
  sameScalars := rfl
  screen := rfl
  accelZero := fun c hc hcomplete => by
    rw [reloaded, Option.mem_def.mp hc, Option.filter_some, if_pos hcomplete]
  motionPlusBias := fun c hc hcomplete => by
    rw [reloaded, Option.mem_def.mp hc, Option.filter_some, if_pos hcomplete]
  profiles := fun syspath devtype =>
    @profileForDevice_puts (reloaded config) config.deviceRules rfl syspath devtype

/-- The scalar lines of a valid configuration in the ranges of the parser. -/
theorem loads_reloaded {config : Config} (hvalid : config.validate = .ok ())
    (hsavable : Savable config)
    (hprintable : ∀ rule ∈ config.deviceRules, Printable rule.entry) :
    Loads (dumpEntries config) {} (reloaded config) := by
  obtain ⟨hprofile, hrange, _, _, _, hcount, hrules⟩ := config.validate_eq_ok_iff.mp hvalid
  have hkept : ∀ {calibration : Option SensorCalibration},
      (∀ c ∈ calibration, c.complete = true → c.InRange) →
        ∀ c ∈ calibration.filter SensorCalibration.complete,
          c.WellFormed ∧ c.complete = true := by
    intro calibration hinRange c hc
    obtain ⟨hmem, hcomplete⟩ := Option.mem_filter_iff.mp hc
    have haxes : c.axes = SensorCalibration.allAxes := beq_iff_eq.mp hcomplete
    exact ⟨⟨hinRange c hmem hcomplete, by rw [haxes]; decide⟩, hcomplete⟩
  have hdump : ∀ name (calibration : Option SensorCalibration),
      dumpCalibration name (calibration.filter SensorCalibration.complete) =
        dumpCalibration name calibration := by
    intro name calibration
    cases calibration with
    | none => rfl
    | some c =>
        by_cases hcomplete : c.complete = true
        · simp only [Option.filter_some, hcomplete, if_true]
        · simp [Option.filter, dumpCalibration, hcomplete]
  let base : Config := { reloaded config with deviceRules := [] }
  have hbase : base.WellFormed := by
    refine ⟨hprofile, hrange, hsavable.screen, fun c hc => (hkept hsavable.accelZero c hc).1,
      fun c hc => (hkept hsavable.motionPlusBias c hc).1, ?_, .nil, ?_⟩
    · simp [base]
    · simp [base]
  have hscalars : dumpScalars base = dumpScalars config := by
    simp only [dumpScalars, base, reloaded, hdump]
  have hloads := loads_scalars hbase (fun c hc => (hkept hsavable.accelZero c hc).2)
    fun c hc => (hkept hsavable.motionPlusBias c hc).2
  rw [hscalars] at hloads
  exact hloads.append (@loads_puts config.deviceRules base hrules hprintable hsavable.rules
    ((Nat.zero_add _).trans_le hcount))

/-- The lines of an accepted rendering are in the ranges of the parser. -/
theorem savable_of_applyLines {path : String} {no : Nat} {config loaded : Config}
    (hprintable : ∀ entry ∈ dumpEntries config, Printable entry)
    (hok : applyLines path no ((dumpEntries config).map entryBytes) {} = .ok loaded) :
    Savable config := by
  have hentries := entries_of_applyLines hprintable hok
  have hint : ∀ {key : String} {min max : Int} {store : Int → Config → Config} {n : Int},
      (key, showInt n) ∈ dumpEntries config →
        (∀ place, fixedKey place key (showInt n) =
          some (setInt place key (showInt n) min max store)) → min ≤ n ∧ n ≤ max := by
    intro key min max store n hmem hfixed
    obtain ⟨_, place, before, after, hset⟩ := hentries _ hmem
    exact range_of_setKey (hfixed place) hset
  have hcalibration : ∀ {name : String} {calibration : Option SensorCalibration} {accel : Bool},
      (∀ entry ∈ dumpCalibration name calibration, entry ∈ dumpEntries config) →
      (∀ place value, fixedKey place (name ++ "-x") value =
        some (setCal place (name ++ "-x") value accel 0)) →
      (∀ place value, fixedKey place (name ++ "-y") value =
        some (setCal place (name ++ "-y") value accel 1)) →
      (∀ place value, fixedKey place (name ++ "-z") value =
        some (setCal place (name ++ "-z") value accel 2)) →
      ∀ c ∈ calibration, c.complete = true → c.InRange := by
    intro name calibration accel hmem hx hy hz c hc hcomplete
    cases hc
    rw [dumpCalibration, if_pos hcomplete] at hmem
    simp only [List.forall_mem_cons] at hmem
    have haxes : c.axes = SensorCalibration.allAxes := beq_iff_eq.mp hcomplete
    exact ⟨hint hmem.1 fun place => hx place _, hint hmem.2.1 fun place => hy place _,
      hint hmem.2.2.1 fun place => hz place _, by rw [haxes]; decide⟩
  refine ⟨?_, ?_, ?_, ?_⟩
  · intro r hr
    have hmem : ∀ entry ∈ dumpScreen (some r), entry ∈ dumpEntries config := by
      intro entry hentry
      rw [← Option.mem_def.mp hr] at hentry
      simp only [dumpEntries, dumpScalars, List.mem_append]
      tauto
    simp only [dumpScreen, List.forall_mem_cons] at hmem
    exact ⟨hint hmem.1 fun _ => rfl, hint hmem.2.1 fun _ => rfl, hint hmem.2.2.1 fun _ => rfl,
      hint hmem.2.2.2.1 fun _ => rfl⟩
  · refine @hcalibration "aim-accel-zero" config.aimAccelZero true ?_ (fun _ _ => rfl)
      (fun _ _ => rfl) (fun _ _ => rfl)
    intro entry hentry
    simp only [dumpEntries, dumpScalars, List.mem_append]
    tauto
  · refine @hcalibration "aim-motion-plus-bias" config.aimMotionPlusBias false ?_
      (fun _ _ => rfl) (fun _ _ => rfl) (fun _ _ => rfl)
    intro entry hentry
    simp only [dumpEntries, dumpScalars, List.mem_append]
    tauto
  · intro rule hrule
    exact (hentries rule.entry (List.mem_append_right _ (List.mem_map_of_mem hrule))).1

/-- What a form that passed its checks renders loads again, as a configuration that agrees
with the edited one, exactly when it is savable. -/
theorem render_reloads_iff {model : ConfigModel} (hform : model.validateForm = .ok ())
    (path : String) :
    (∃ loaded, parseBytes path model.render = .ok loaded ∧ Agrees loaded model.config) ↔
      Savable model.config := by
  have hprintable := printable_form hform
  obtain ⟨hvalid, _⟩ := validateForm_eq_ok hform
  constructor
  · rintro ⟨loaded, hparse, _⟩
    exact savable_of_applyLines hprintable ((parseBytes_render hprintable).mp hparse).1
  · intro hsavable
    have hloads := (loads_reloaded hvalid hsavable fun rule hrule =>
      hprintable rule.entry (List.mem_append_right _ (List.mem_map_of_mem hrule))).applies path 2
    have hformed := applyLines_wellFormed Config.wellFormed_default hloads
    obtain ⟨_, _, hscreen, haccel, hbias, _⟩ := model.config.validate_eq_ok_iff.mp hvalid
    have hloaded : (reloaded model.config).validate = .ok () := by
      rw [Config.validate_eq_ok_iff]
      exact ⟨hformed.profile, hformed.inRange, hscreen,
        fun c hc => haccel c (Option.mem_filter_iff.mp hc).1,
        fun c hc => hbias c (Option.mem_filter_iff.mp hc).1, hformed.count, hformed.rules⟩
    exact ⟨reloaded model.config, (parseBytes_render hprintable).mpr ⟨hloads, hloaded⟩,
      agrees_reloaded model.config⟩

def sampleForm : ConfigModel where
  config := sampleConfig
  configPath := ⟨true, []⟩

/-- A form with a screen, a complete calibration and a rule. -/
theorem render_reloads_sample :
    ∃ loaded, parseBytes "wiilandd.conf" sampleForm.render = .ok loaded ∧
      Agrees loaded sampleConfig := by
  have hform : sampleForm.validateForm = .ok () := by decide
  refine (render_reloads_iff hform "wiilandd.conf").mpr ⟨?_, ?_, ?_, ?_⟩
  · rintro _ ⟨⟩
    exact ⟨by decide, by decide, by decide, by decide⟩
  · rintro _ ⟨⟩ _
    exact ⟨by decide, by decide, by decide, by decide⟩
  · rintro _ ⟨⟩
  · intro rule hrule
    obtain rfl := List.mem_singleton.mp hrule
    rw [Fits]
    decide

/-- A form with one rule whose match text has 600 characters. -/
def longRule : DeviceRule := ⟨.syspath, String.ofList (List.replicate 600 'x'), .both⟩

def longForm : ConfigModel where
  config := { deviceRules := [longRule] }
  configPath := ⟨true, []⟩

theorem longForm_validateForm : longForm.validateForm = .ok () := by
  have htext : longRule.matchText.toList = List.replicate 600 'x' := String.toList_ofList
  have hchars : ∀ c ∈ longRule.matchText.toList, c = 'x' := by
    intro c hc
    rw [htext] at hc
    exact List.eq_of_mem_replicate hc
  have hne : longRule.matchText.toList ≠ [] := by
    intro hnil
    rw [htext] at hnil
    cases hnil
  have hvalid : longForm.config.validate = .ok () := by
    rw [Config.validate_eq_ok_iff]
    refine ⟨by decide, by decide, by simp [longForm], by simp [longForm],
      by simp [longForm], by decide, ?_⟩
    intro rule hrule
    rw [List.mem_singleton.mp hrule]
    exact ⟨fun hempty => hne (by rw [hempty]; rfl), rfl⟩
  have hbad : badMatchText longRule.matchText = false := by
    have htrim : Text.trim isWhitespace longRule.matchText.toList =
        longRule.matchText.toList := by
      refine Text.trim_eq_self fun hne => ⟨?_, ?_⟩
      · rw [hchars _ (List.head_mem hne)]
        decide
      · rw [hchars _ (List.getLast_mem hne)]
        decide
    rw [badMatchText, htrim, Bool.or_eq_false_iff, List.isEmpty_eq_false_iff, List.any_eq_false]
    refine ⟨hne, fun c hc => ?_⟩
    rw [hchars c hc]
    decide
  have hany : (longForm.config.deviceRules.any fun rule => badMatchText rule.matchText) =
      false := by
    change (badMatchText longRule.matchText || false) = false
    rw [hbad]
    rfl
  unfold ConfigModel.validateForm
  simp only [hvalid, hany, Bool.false_eq_true, if_false]
  rfl

/-- The form passes its checks, and its rendering does not load. -/
theorem longForm_lost :
    longForm.validateForm = .ok () ∧ ∀ path loaded,
      parseBytes path longForm.render ≠ .ok loaded := by
  refine ⟨longForm_validateForm, fun path loaded hparse => ?_⟩
  have hprintable := printable_form longForm_validateForm
  have hok := ((parseBytes_render hprintable).mp hparse).1
  have hmem : longRule.entry ∈ dumpEntries longForm.config :=
    List.mem_append_right _ (List.mem_map_of_mem List.mem_cons_self)
  have hfits := (entries_of_applyLines hprintable hok longRule.entry hmem).1
  have hlength : Text.byteLength longRule.matchText.toList = 600 := by
    rw [longRule, String.toList_ofList, Text.byteLength_of_ascii, List.length_replicate]
    intro c hc
    rw [List.eq_of_mem_replicate hc]
    decide
  rw [Fits, entryText, toList_entry_key] at hfits
  simp only [Text.byteLength_append, hlength] at hfits
  omega

end ControlCenter

end Wiiland
