/-
The canonical dump read back.  Each dumped line sets the field it was written
from, so the lines of a dump, in order, carry the default configuration to the
dumped one.
-/
import Wiiland.Core.ConfigWellFormed

namespace Wiiland

open Text (Trimmed)

/-- The text of one dumped line, without its line feed. -/
def entryText (entry : String × String) : List Char :=
  entry.1.toList ++ '=' :: entry.2.toList

/-- The bytes of one dumped line. -/
def entryBytes (entry : String × String) : List UInt8 :=
  Text.encode (entryText entry) ++ [lineFeed]

/-- The parser reads the line of an entry as the entry. -/
structure Printable (entry : String × String) : Prop where
  key : Trimmed isBlank entry.1.toList
  value : Trimmed isBlank entry.2.toList
  noEquals : '=' ∉ entry.1.toList
  noComment : '#' ∉ entryText entry
  noFeed : '\n' ∉ entryText entry

/-- The line of an entry, line feed included, respects the line limit. -/
def Fits (entry : String × String) : Prop :=
  Text.byteLength (entryText entry) ≤ 510

theorem length_entryBytes (entry : String × String) :
    (entryBytes entry).length = Text.byteLength (entryText entry) + 1 := by
  rw [entryBytes, List.length_append, Text.length_encode]
  rfl

theorem entryBytes_eq_encode (entry : String × String) :
    entryBytes entry = Text.encode (entryText entry ++ ['\n']) := by
  rw [entryBytes, Text.encode_append]
  rfl

theorem takeWhile_of_noComment {text : List Char} (htext : '#' ∉ text) :
    text.takeWhile (· != '#') = text := by
  rw [List.takeWhile_eq_self_iff]
  intro c hc
  rw [bne_iff_ne]
  rintro rfl
  exact htext hc

/-- A printable line reads as its entry, with or without its line feed. -/
theorem Printable.reads {entry : String × String} (hentry : Printable entry)
    {ending : List Char} (hending : ending = [] ∨ ending = ['\n']) :
    ReadsAs (entryText entry ++ ending) entry.1 entry.2 := by
  have hblank : Text.Blank isBlank ending := by
    rcases hending with rfl | rfl
    · exact fun c hc => absurd hc List.not_mem_nil
    · intro c hc
      rw [List.mem_singleton.mp hc]
      rfl
  refine ⟨entry.1.toList, entry.2.toList ++ ending, ?_, hentry.noEquals,
    Text.trim_eq_self hentry.key, ?_⟩
  · rw [takeWhile_of_noComment, entryText, List.append_assoc, List.cons_append]
    rw [List.mem_append, not_or]
    refine ⟨hentry.noComment, fun hmem => absurd (hblank '#' hmem) (by decide)⟩
  · rw [Text.trim_append_blank hblank, Text.trim_eq_self hentry.value]

/-- A dumped line is applied as its key and its value. -/
theorem applyRaw_entry {entry : String × String} (hentry : Printable entry)
    (hfits : Fits entry) (place : Place) (config : Config) :
    applyRaw place (entryBytes entry) config =
      setKey place entry.1 entry.2 config := by
  have hlength : Text.byteLength (entryText entry ++ ['\n']) ≤ 511 := by
    rw [Text.byteLength_append]
    exact Nat.add_le_add_right hfits 1
  rw [entryBytes_eq_encode,
    applyRaw_of_decode (Text.decode_encode _) hlength place config,
    applyLine_of_reads hlength (hentry.reads (.inr rfl))]

def plainChar (c : Char) : Bool := !isBlank c && c != '#' && c != '='

/-- A short text of characters that mean nothing to the parser. -/
def plainText (text : String) : Bool :=
  text.toList.all plainChar && decide (Text.byteLength text.toList ≤ 100)

def Plain (text : String) : Prop := plainText text = true

instance (text : String) : Decidable (Plain text) :=
  inferInstanceAs (Decidable (plainText text = true))

theorem plain_iff {text : String} :
    Plain text ↔
      (∀ c ∈ text.toList, isBlank c = false ∧ c ≠ '#' ∧ c ≠ '=') ∧
        Text.byteLength text.toList ≤ 100 := by
  simp only [Plain, plainText, plainChar, Bool.and_eq_true, List.all_eq_true,
    Bool.not_eq_true', bne_iff_ne, decide_eq_true_eq, and_assoc]

theorem Plain.chars {text : String} (htext : Plain text) :
    ∀ c ∈ text.toList, isBlank c = false ∧ c ≠ '#' ∧ c ≠ '=' :=
  (plain_iff.mp htext).1

theorem Plain.byteLength_le {text : String} (htext : Plain text) :
    Text.byteLength text.toList ≤ 100 :=
  (plain_iff.mp htext).2

theorem Plain.trimmed {text : String} (htext : Plain text) :
    Trimmed isBlank text.toList := by
  intro hne
  exact ⟨(htext.chars _ (List.head_mem hne)).1,
    (htext.chars _ (List.getLast_mem hne)).1⟩

theorem Plain.noFeed {text : String} (htext : Plain text) :
    '\n' ∉ text.toList := by
  intro hmem
  exact absurd (htext.chars _ hmem).1 (by decide)

theorem printable_of_plain {entry : String × String} (hkey : Plain entry.1)
    (hvalue : Plain entry.2) : Printable entry where
  key := hkey.trimmed
  value := hvalue.trimmed
  noEquals := fun hmem => (hkey.chars _ hmem).2.2 rfl
  noComment := by
    rw [entryText, List.mem_append, List.mem_cons, not_or, not_or]
    exact ⟨fun hmem => (hkey.chars _ hmem).2.1 rfl, by decide,
      fun hmem => (hvalue.chars _ hmem).2.1 rfl⟩
  noFeed := by
    rw [entryText, List.mem_append, List.mem_cons, not_or, not_or]
    exact ⟨hkey.noFeed, by decide, hvalue.noFeed⟩

theorem fits_of_plain {entry : String × String} (hkey : Plain entry.1)
    (hvalue : Plain entry.2) : Fits entry := by
  have hone : Char.utf8Size '=' = 1 := rfl
  rw [Fits, entryText, Text.byteLength_append, Text.byteLength_cons, hone]
  have hleft := hkey.byteLength_le
  have hright := hvalue.byteLength_le
  omega

theorem plain_showInt {n : Int} (hmin : -100000 < n) (hmax : n < 100000) :
    Plain (showInt n) := by
  rw [plain_iff, showInt, String.toList_ofList]
  constructor
  · intro c hc
    have hrange := Decimal.toNat_of_mem_write hc
    refine ⟨?_, ?_, ?_⟩
    · rw [Bool.eq_false_iff]
      intro hblank
      simp only [isBlank, Bool.or_eq_true, beq_iff_eq] at hblank
      rcases hblank with ((rfl | rfl) | rfl) | rfl <;>
        exact absurd hrange.1 (by decide)
    · rintro rfl
      exact absurd hrange.1 (by decide)
    · rintro rfl
      exact absurd hrange.2 (by decide)
  · rw [Text.byteLength_of_ascii fun c hc => by
      have hrange := Decimal.toNat_of_mem_write hc
      omega]
    have hlength := Decimal.length_write_le hmin hmax
    omega

/-- The entries print as lines that carry one configuration to another. -/
structure Loads (entries : List (String × String)) (config next : Config) :
    Prop where
  printable : ∀ entry ∈ entries, Printable entry
  applies : ∀ path no,
    applyLines path no (entries.map entryBytes) config = .ok next

theorem Loads.nil (config : Config) : Loads [] config config :=
  ⟨fun _ hentry => absurd hentry List.not_mem_nil, fun _ _ => rfl⟩

theorem Loads.append {first second : List (String × String)}
    {config middle next : Config} (hfirst : Loads first config middle)
    (hsecond : Loads second middle next) :
    Loads (first ++ second) config next := by
  constructor
  · intro entry hentry
    rcases List.mem_append.mp hentry with hmem | hmem
    · exact hfirst.printable entry hmem
    · exact hsecond.printable entry hmem
  · intro path no
    rw [List.map_append, applyLines_append, hfirst.applies path no]
    exact hsecond.applies path _

theorem Loads.single {entry : String × String} {config next : Config}
    (hentry : Printable entry) (hfits : Fits entry)
    (hset : ∀ place, setKey place entry.1 entry.2 config = .ok next) :
    Loads [entry] config next := by
  constructor
  · intro other hother
    rw [List.mem_singleton.mp hother]
    exact hentry
  · intro path no
    rw [List.map_singleton, applyLines, applyRaw_entry hentry hfits, hset]
    rfl

theorem Loads.cons {entry : String × String} {entries : List (String × String)}
    {config middle next : Config} (hentry : Loads [entry] config middle)
    (hentries : Loads entries middle next) :
    Loads (entry :: entries) config next :=
  hentry.append hentries

/-- An integer line written from a value in range stores the value. -/
theorem loads_int {key : String} {min max : Int} {store : Int → Config → Config}
    (hfixed : ∀ place value, fixedKey place key value =
      some (setInt place key value min max store))
    (hkey : Plain key) {n : Int} (hrange : min ≤ n ∧ n ≤ max)
    (hlow : -100000 < min) (hhigh : max < 100000) (config : Config) :
    Loads [(key, showInt n)] config (store n config) := by
  have hvalue : Plain (showInt n) := plain_showInt (by omega) (by omega)
  refine .single (printable_of_plain hkey hvalue) (fits_of_plain hkey hvalue) ?_
  intro place
  have hread : Decimal.readI64 (showInt n).toList = some n := by
    rw [showInt, String.toList_ofList]
    exact Decimal.readI64_write (by omega) (by omega)
  have hparse : parseInt (showInt n) min max = some n := by
    rw [parseInt, hread, Option.bind_some, if_neg (by omega)]
  rw [setKey, hfixed]
  simp only [setInt, hparse]

/-- A choice line written with the name of a value stores the value. -/
theorem loads_choice {A : Type} {key name : String} {parse : String → Option A}
    {store : A → Config → Config} {v : A}
    (hfixed : ∀ place value, fixedKey place key value =
      some (setChoice place key value parse store))
    (hkey : Plain key) (hparse : parse name = some v) (hname : Plain name)
    (config : Config) : Loads [(key, name)] config (store v config) := by
  refine .single (printable_of_plain hkey hname) (fits_of_plain hkey hname) ?_
  intro place
  rw [setKey, hfixed]
  simp only [setChoice, hparse]

theorem loads_head {source : Config} (hsource : source.WellFormed)
    (config : Config) :
    Loads [("backend", source.backend.asStr),
        ("profile", source.profile.asStr.getD "unknown"),
        ("pointer-speed", showInt source.pointerSpeed),
        ("ir-speed", showInt source.irSpeed),
        ("ir-deadzone", showInt source.irDeadzone),
        ("ir-smoothing", showInt source.irSmoothing),
        ("ir-tracking", source.irTracking.asStr),
        ("ir-aim-mapping", source.irAimMapping.asStr)] config
      { config with
        backend := source.backend
        profile := source.profile
        pointerSpeed := source.pointerSpeed
        irSpeed := source.irSpeed
        irDeadzone := source.irDeadzone
        irSmoothing := source.irSmoothing
        irTracking := source.irTracking
        irAimMapping := source.irAimMapping } := by
  obtain ⟨hpointer, hir, hdeadzone, hsmoothing, _⟩ :=
    source.inRange_iff.mp hsource.inRange
  have hprofile : Plain (source.profile.asStr.getD "unknown") := by
    rcases source.profile.isValid_iff.mp hsource.profile with h | h | h <;>
      rw [h] <;> decide
  have hbackend : Loads [("backend", source.backend.asStr)] config
      { config with backend := source.backend } := by
    have hkey : Plain "backend" := by decide
    have hname : Plain source.backend.asStr := by
      cases source.backend
      decide
    refine .single (printable_of_plain hkey hname) (fits_of_plain hkey hname) ?_
    intro place
    cases source.backend
    rfl
  refine hbackend.cons ?_
  refine Loads.cons (loads_choice (fun _ _ => rfl) (by decide)
    (Profile.parse_asStr hsource.profile) hprofile _) ?_
  refine Loads.cons (loads_int (fun _ _ => rfl) (by decide) hpointer
    (by decide) (by decide) _) ?_
  refine Loads.cons (loads_int (fun _ _ => rfl) (by decide) hir
    (by decide) (by decide) _) ?_
  refine Loads.cons (loads_int (fun _ _ => rfl) (by decide) hdeadzone
    (by decide) (by decide) _) ?_
  refine Loads.cons (loads_int (fun _ _ => rfl) (by decide) hsmoothing
    (by decide) (by decide) _) ?_
  refine Loads.cons (loads_choice (fun _ _ => rfl) (by decide)
    (show IrTracking.parse source.irTracking.asStr = some source.irTracking by
      cases source.irTracking <;> rfl)
    (by cases source.irTracking <;> decide) _) ?_
  refine Loads.cons (loads_choice (fun _ _ => rfl) (by decide)
    (show IrAimMapping.parse source.irAimMapping.asStr =
      some source.irAimMapping by cases source.irAimMapping <;> rfl)
    (by cases source.irAimMapping <;> decide) _) (.nil _)

/-- The four sides of a dumped rectangle replace whatever was there. -/
theorem loads_screen {screen : Option IrRectangle}
    (hscreen : ∀ r ∈ screen, r.WellFormed) {config : Config}
    (hnone : config.irScreen = none) :
    Loads (dumpScreen screen) config { config with irScreen := screen } := by
  cases screen with
  | none =>
      have hsame : { config with irScreen := none } = config := by rw [← hnone]
      rw [hsame]
      exact .nil config
  | some r =>
      have hr := hscreen r rfl
      refine Loads.cons (loads_int (fun _ _ => rfl) (by decide) hr.left
        (by decide) (by decide) _) ?_
      refine Loads.cons (loads_int (fun _ _ => rfl) (by decide) hr.right
        (by decide) (by decide) _) ?_
      refine Loads.cons (loads_int (fun _ _ => rfl) (by decide) hr.top
        (by decide) (by decide) _) ?_
      exact Loads.cons (loads_int (fun _ _ => rfl) (by decide) hr.bottom
        (by decide) (by decide) _) (.nil _)

theorem loads_aim {source : Config} (hsource : source.WellFormed)
    (config : Config) :
    Loads [("aim-mode", source.aimMode.asStr),
        ("aim-source", source.aimSource.asStr),
        ("aim-activation", source.aimActivation.asStr),
        ("aim-sensitivity", showInt source.aimSensitivity),
        ("aim-deadzone", showInt source.aimDeadzone),
        ("aim-smoothing", showInt source.aimSmoothing),
        ("aim-invert-x", showBool source.aimInvertX),
        ("aim-invert-y", showBool source.aimInvertY)] config
      { config with
        aimMode := source.aimMode
        aimSource := source.aimSource
        aimActivation := source.aimActivation
        aimSensitivity := source.aimSensitivity
        aimDeadzone := source.aimDeadzone
        aimSmoothing := source.aimSmoothing
        aimInvertX := source.aimInvertX
        aimInvertY := source.aimInvertY } := by
  obtain ⟨_, _, _, _, hsensitivity, hdeadzone, hsmoothing, _⟩ :=
    source.inRange_iff.mp hsource.inRange
  have hbool : ∀ b, parseBool (showBool b) = some b ∧ Plain (showBool b) := by
    decide
  refine Loads.cons (loads_choice (fun _ _ => rfl) (by decide)
    (show AimMode.parse source.aimMode.asStr = some source.aimMode by
      cases source.aimMode <;> rfl)
    (by cases source.aimMode <;> decide) _) ?_
  refine Loads.cons (loads_choice (fun _ _ => rfl) (by decide)
    (show AimSource.parse source.aimSource.asStr = some source.aimSource by
      cases source.aimSource <;> rfl)
    (by cases source.aimSource <;> decide) _) ?_
  refine Loads.cons (loads_choice (fun _ _ => rfl) (by decide)
    (show AimActivation.parse source.aimActivation.asStr =
      some source.aimActivation by cases source.aimActivation <;> rfl)
    (by cases source.aimActivation <;> decide) _) ?_
  refine Loads.cons (loads_int (fun _ _ => rfl) (by decide) hsensitivity
    (by decide) (by decide) _) ?_
  refine Loads.cons (loads_int (fun _ _ => rfl) (by decide) hdeadzone
    (by decide) (by decide) _) ?_
  refine Loads.cons (loads_int (fun _ _ => rfl) (by decide) hsmoothing
    (by decide) (by decide) _) ?_
  refine Loads.cons (loads_choice (fun _ _ => rfl) (by decide)
    (hbool source.aimInvertX).1 (hbool source.aimInvertX).2 _) ?_
  exact Loads.cons (loads_choice (fun _ _ => rfl) (by decide)
    (hbool source.aimInvertY).1 (hbool source.aimInvertY).2 _) (.nil _)

/-- The three axes of a dumped calibration rebuild it, mask included. -/
theorem SensorCalibration.setAxes_eq {c : SensorCalibration}
    (hc : c.complete = true) :
    ((empty.setAxis 0 c.x).setAxis 1 c.y).setAxis 2 c.z = c := by
  have haxes : c.axes = allAxes := by simpa [complete] using hc
  have hbits : (0 : BitVec 8) ||| axisX ||| axisY ||| axisZ = allAxes := by decide
  obtain ⟨x, y, z, axes⟩ := c
  change axes = allAxes at haxes
  rw [haxes, ← hbits]
  rfl

theorem calibration_withCalibration (config : Config) (accel : Bool)
    (calibration : Option SensorCalibration) :
    (config.withCalibration accel calibration).calibration accel =
      calibration := by
  cases accel <;> rfl

theorem withCalibration_twice (config : Config) (accel : Bool)
    (first second : Option SensorCalibration) :
    (config.withCalibration accel first).withCalibration accel second =
      config.withCalibration accel second := by
  cases accel <;> rfl

theorem withCalibration_self (config : Config) (accel : Bool) :
    config.withCalibration accel (config.calibration accel) = config := by
  cases accel <;> rfl

/-- One dumped axis extends the calibration read so far. -/
theorem loads_axis {key : String} {accel : Bool} {axis : Nat}
    (hfixed : ∀ place value,
      fixedKey place key value = some (setCal place key value accel axis))
    (hkey : Plain key) {v : Int} (hv : -32768 ≤ v ∧ v ≤ 32767)
    (config : Config) (read : SensorCalibration) :
    Loads [(key, showInt v)] (config.withCalibration accel (some read))
      (config.withCalibration accel (some (read.setAxis axis v))) := by
  have hload := loads_int hfixed hkey hv (by decide) (by decide)
    (config.withCalibration accel (some read))
  rw [calibration_withCalibration, withCalibration_twice] at hload
  exact hload

/-- The axes of a dumped calibration, over a configuration without it. -/
theorem loads_calibration {name : String} {accel : Bool}
    (hx : ∀ place value, fixedKey place (name ++ "-x") value =
      some (setCal place (name ++ "-x") value accel 0))
    (hy : ∀ place value, fixedKey place (name ++ "-y") value =
      some (setCal place (name ++ "-y") value accel 1))
    (hz : ∀ place value, fixedKey place (name ++ "-z") value =
      some (setCal place (name ++ "-z") value accel 2))
    (hkeys : Plain (name ++ "-x") ∧ Plain (name ++ "-y") ∧ Plain (name ++ "-z"))
    {calibration : Option SensorCalibration}
    (hrange : ∀ c ∈ calibration, c.WellFormed)
    (hcomplete : ∀ c ∈ calibration, c.complete = true) {config : Config}
    (hnone : config.calibration accel = none) :
    Loads (dumpCalibration name calibration) config
      (config.withCalibration accel calibration) := by
  cases calibration with
  | none =>
      rw [← hnone, withCalibration_self]
      rw [hnone]
      exact .nil config
  | some c =>
      have hc := hrange c rfl
      have hfull := hcomplete c rfl
      have hfirst : Loads [(name ++ "-x", showInt c.x)] config
          (config.withCalibration accel
            (some (SensorCalibration.empty.setAxis 0 c.x))) := by
        have hload := loads_int hx hkeys.1 hc.x (by decide) (by decide) config
        rw [hnone, Option.getD_none] at hload
        exact hload
      have hall := (hfirst.cons (loads_axis hy hkeys.2.1 hc.y config _)).append
        (loads_axis hz hkeys.2.2 hc.z config _)
      rw [SensorCalibration.setAxes_eq hfull] at hall
      rw [dumpCalibration, if_pos hfull]
      exact hall

theorem loads_duration {source : Config} (hsource : source.WellFormed)
    (config : Config) :
    Loads [("aim-calibration-duration", showInt source.aimCalibrationDuration)]
      config
      { config with aimCalibrationDuration := source.aimCalibrationDuration } := by
  obtain ⟨_, _, _, _, _, _, _, hduration⟩ :=
    source.inRange_iff.mp hsource.inRange
  exact Loads.cons (loads_int (fun _ _ => rfl) (by decide) hduration
    (by decide) (by decide) _) (.nil _)

theorem DesktopAction.parse_asStr (action : DesktopAction) :
    DesktopAction.parse action.asStr = some action ∧ Plain action.asStr := by
  cases action
  all_goals decide

/-- One dumped binding stores its action. -/
theorem loads_binding {name : String} (hkey : Plain ("desktop." ++ name))
    (hfixed : ∀ place value, fixedKey place ("desktop." ++ name) value = none)
    {config next : Config} {action : DesktopAction} {bindings : DesktopBindings}
    (hset : config.desktopBindings.set name action = some bindings)
    (hnext : next = { config with desktopBindings := bindings }) :
    Loads [("desktop." ++ name, action.asStr)] config next := by
  obtain ⟨hparse, hvalue⟩ := action.parse_asStr
  refine .single (printable_of_plain hkey hvalue) (fits_of_plain hkey hvalue) ?_
  intro place
  have hstarts : "desktop.".toList <+: ("desktop." ++ name).toList := by
    rw [String.toList_append]
    exact List.prefix_append _ _
  have hdrop : Text.dropBytes ("desktop." ++ name).toList 8 =
      some name.toList := by
    rw [String.toList_append]
    exact Text.dropBytes_append "desktop.".toList name.toList
  rw [setKey, hfixed]
  simp only [hstarts, if_true, setBinding, hdrop, hparse, String.ofList_toList,
    hset, hnext]

theorem loads_bindings (bindings : DesktopBindings) (config : Config) :
    Loads (bindings.iter.map fun binding =>
        ("desktop." ++ binding.1, binding.2.asStr)) config
      { config with desktopBindings := bindings } := by
  have hkeys : ∀ name ∈ ["a", "b", "plus", "minus", "home", "one", "two"],
      Plain ("desktop." ++ name) := by decide
  refine Loads.cons (loads_binding (hkeys "a" (by decide))
    (fun _ _ => rfl) rfl rfl) ?_
  refine Loads.cons (loads_binding (hkeys "b" (by decide))
    (fun _ _ => rfl) rfl rfl) ?_
  refine Loads.cons (loads_binding (hkeys "plus" (by decide))
    (fun _ _ => rfl) rfl rfl) ?_
  refine Loads.cons (loads_binding (hkeys "minus" (by decide))
    (fun _ _ => rfl) rfl rfl) ?_
  refine Loads.cons (loads_binding (hkeys "home" (by decide))
    (fun _ _ => rfl) rfl rfl) ?_
  refine Loads.cons (loads_binding (hkeys "one" (by decide))
    (fun _ _ => rfl) rfl rfl) ?_
  exact Loads.cons (loads_binding (hkeys "two" (by decide))
    (fun _ _ => rfl) rfl rfl) (.nil _)

/-- The key of a rule reaches the rule arm of its kind. -/
theorem setKey_entry_key (rule : DeviceRule) (place : Place) (value : String)
    (config : Config) :
    setKey place rule.entry.1 value config =
      setRule place rule.entry.1 value rule.kind config := by
  have hkey := toList_entry_key rule
  have hsuffix : ".profile".toList <:+ rule.entry.1.toList := by
    rw [hkey]
    exact List.suffix_append _ _
  have hstarts : rule.kind.keyPrefix.toList ++ ['.'] <+: rule.entry.1.toList := by
    rw [hkey, List.append_assoc]
    exact List.prefix_append _ _
  have hdevice : "device".toList <+: rule.entry.1.toList := by
    refine List.IsPrefix.trans ?_ hstarts
    cases rule.kind <;> decide
  have hother : ∀ start : List Char,
      ¬start <+: rule.kind.keyPrefix.toList ++ ['.'] →
        ¬rule.kind.keyPrefix.toList ++ ['.'] <+: start →
          ¬start <+: rule.entry.1.toList := by
    intro start hshort hlong hstart
    rcases List.prefix_or_prefix_of_prefix hstart hstarts with h | h
    · exact hshort h
    · exact hlong h
  rw [setKey, fixedKey_of_device hdevice]
  simp only
  cases hkind : rule.kind with
  | syspath =>
      rw [hkind] at hstarts hother
      rw [if_neg (hother _ (by decide) (by decide)), if_pos ⟨hstarts, hsuffix⟩]
  | devtype =>
      rw [hkind] at hstarts hother
      rw [if_neg (hother _ (by decide) (by decide)),
        if_neg (fun h => hother _ (by decide) (by decide) h.1),
        if_pos ⟨hstarts, hsuffix⟩]

/-- The dumped key and value of a rule set it. -/
theorem setKey_entry {rule : DeviceRule} (htext : rule.matchText ≠ "")
    (hprofile : rule.profile.isValid = true) (place : Place) {config : Config}
    (hroom : HasRoom config.deviceRules rule) :
    setKey place rule.entry.1 rule.entry.2 config =
      .ok { config with deviceRules := putRule config.deviceRules rule } := by
  rw [setKey_entry_key]
  exact (setRule_entry htext (Profile.parse_asStr hprofile) place config).1 hroom

theorem length_putRule_le (rules : List DeviceRule) (rule : DeviceRule) :
    (putRule rules rule).length ≤ rules.length + 1 := by
  rw [putRule, List.length_append, List.length_singleton]
  exact Nat.succ_le_succ List.eraseP_sublist.length_le

/-- Dumped rules are put one after the other. -/
theorem loads_puts {rules : List DeviceRule} {config : Config}
    (hvalid : ∀ rule ∈ rules,
      rule.matchText ≠ "" ∧ rule.profile.isValid = true)
    (hprintable : ∀ rule ∈ rules, Printable rule.entry)
    (hfits : ∀ rule ∈ rules, Fits rule.entry)
    (hcount : config.deviceRules.length + rules.length ≤ maxDeviceRules) :
    Loads (rules.map DeviceRule.entry) config
      { config with deviceRules := rules.foldl putRule config.deviceRules } := by
  induction rules generalizing config with
  | nil => exact .nil config
  | cons rule rules ih =>
      have hrule := hvalid rule List.mem_cons_self
      rw [List.length_cons] at hcount
      have hload : Loads [rule.entry] config
          { config with deviceRules := putRule config.deviceRules rule } :=
        .single (hprintable rule List.mem_cons_self) (hfits rule List.mem_cons_self)
          fun place => setKey_entry hrule.1 hrule.2 place (.inr (by omega))
      have hlength := length_putRule_le config.deviceRules rule
      have hrest : (putRule config.deviceRules rule).length + rules.length ≤
          maxDeviceRules := by omega
      exact hload.cons (ih
        (fun other hother => hvalid other (List.mem_cons_of_mem _ hother))
        (fun other hother => hprintable other (List.mem_cons_of_mem _ hother))
        (fun other hother => hfits other (List.mem_cons_of_mem _ hother)) hrest)

/-- Distinct rules are appended one after the other. -/
theorem foldl_putRule {start rules : List DeviceRule}
    (hdistinct : (start ++ rules).Pairwise fun first second =>
      ¬second.matches first.kind first.matchText = true) :
    rules.foldl putRule start = start ++ rules := by
  induction rules generalizing start with
  | nil => exact (List.append_nil start).symm
  | cons rule rules ih =>
      have hnew : ∀ other ∈ start, ¬other.matches rule.kind rule.matchText = true := by
        intro other hother hmatches
        have hpair := (List.pairwise_append.mp hdistinct).2.2 other hother rule
          List.mem_cons_self
        apply hpair
        obtain ⟨hkind, htext⟩ := (other.matches_iff _ _).mp hmatches
        rw [rule.matches_iff]
        exact ⟨hkind.symm, htext.symm⟩
      have hput : putRule start rule = start ++ [rule] := by
        rw [putRule, List.eraseP_of_forall_not hnew]
      rw [List.append_cons] at hdistinct ⊢
      rw [List.foldl_cons, hput, ih hdistinct]

/-- The lines of a dump but its rules carry the default configuration to the
dumped one without its rules. -/
theorem loads_scalars {config : Config} (hconfig : config.WellFormed)
    (haccel : ∀ c ∈ config.aimAccelZero, c.complete = true)
    (hmotion : ∀ c ∈ config.aimMotionPlusBias, c.complete = true) :
    Loads (dumpScalars config) {} { config with deviceRules := [] } := by
  have hhead := loads_head hconfig {}
  have hscreen := hhead.append (loads_screen hconfig.screen rfl)
  have haim := hscreen.append (loads_aim hconfig _)
  have haccelZero := haim.append (@loads_calibration "aim-accel-zero" true
    (fun _ _ => rfl) (fun _ _ => rfl) (fun _ _ => rfl) (by decide)
    config.aimAccelZero hconfig.accelZero haccel _ rfl)
  have hmotionPlus := haccelZero.append
    (@loads_calibration "aim-motion-plus-bias" false
      (fun _ _ => rfl) (fun _ _ => rfl) (fun _ _ => rfl) (by decide)
      config.aimMotionPlusBias hconfig.motionPlusBias hmotion _ rfl)
  have hduration := hmotionPlus.append (loads_duration hconfig _)
  exact hduration.append (loads_bindings config.desktopBindings _)

/-- The lines of a dump carry the default configuration to the dumped one. -/
theorem loads_dump {config : Config} (hconfig : config.WellFormed)
    (haccel : ∀ c ∈ config.aimAccelZero, c.complete = true)
    (hmotion : ∀ c ∈ config.aimMotionPlusBias, c.complete = true)
    (hprintable : ∀ rule ∈ config.deviceRules, Printable rule.entry)
    (hfits : ∀ rule ∈ config.deviceRules, Fits rule.entry) :
    Loads (dumpEntries config) {} config := by
  have hcount : ([] : List DeviceRule).length + config.deviceRules.length ≤ maxDeviceRules :=
    (Nat.zero_add _).trans_le hconfig.count
  have hrules := @loads_puts config.deviceRules { config with deviceRules := [] }
    hconfig.rules hprintable hfits hcount
  have hputs : config.deviceRules.foldl putRule [] = config.deviceRules :=
    @foldl_putRule [] config.deviceRules hconfig.distinct
  simp only [hputs] at hrules
  exact (loads_scalars hconfig haccel hmotion).append hrules

end Wiiland
