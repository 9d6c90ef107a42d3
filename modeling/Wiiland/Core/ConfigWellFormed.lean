/-
What an accepted line does, and the invariant every sequence of accepted lines
keeps: the ranges the parser checks are the ranges validation checks, and the
device rules stay few, distinct and printable.
-/
import Wiiland.Core.ConfigPanics

namespace Wiiland

theorem Profile.asStr_of_parse {value : String} {profile : Profile}
    (hparse : Profile.parse value = some profile) :
    profile.isValid = true ∧ profile.asStr = some value := by
  unfold Profile.parse at hparse
  split at hparse
  · cases hparse
    exact ⟨rfl, rfl⟩
  · cases hparse
    exact ⟨rfl, rfl⟩
  · cases hparse
    exact ⟨rfl, rfl⟩
  · exact absurd hparse (by simp)

theorem Profile.parse_asStr {profile : Profile} (hvalid : profile.isValid = true) :
    Profile.parse (profile.asStr.getD "unknown") = some profile := by
  rcases profile.isValid_iff.mp hvalid with rfl | rfl | rfl <;> rfl

theorem DeviceRule.matches_iff (rule : DeviceRule) (kind : DeviceRuleKind)
    (matchText : String) :
    rule.matches kind matchText = true ↔
      rule.kind = kind ∧ rule.matchText = matchText := by
  simp [DeviceRule.matches]

/-- Set a rule: a rule of the same kind and text moves to the end. -/
def putRule (rules : List DeviceRule) (rule : DeviceRule) : List DeviceRule :=
  rules.eraseP (·.matches rule.kind rule.matchText) ++ [rule]

/-- Distinct rules match a kind and text at most once. -/
theorem matches_eraseP_absent {rules : List DeviceRule} {rule other : DeviceRule}
    (hdistinct : rules.Pairwise fun first second =>
      ¬second.matches first.kind first.matchText = true)
    (hother : other ∈ rules.eraseP (·.matches rule.kind rule.matchText))
    (hmatches : rule.matches other.kind other.matchText = true) : False := by
  obtain ⟨hkind, htext⟩ := (rule.matches_iff _ _).mp hmatches
  induction rules with
  | nil => exact absurd hother List.not_mem_nil
  | cons head rules ih =>
      rw [List.pairwise_cons] at hdistinct
      by_cases hhead : head.matches rule.kind rule.matchText = true
      · simp only [List.eraseP_cons, hhead, cond_true] at hother
        obtain ⟨hheadKind, hheadText⟩ := (head.matches_iff _ _).mp hhead
        apply hdistinct.1 other hother
        rw [other.matches_iff, hheadKind, hheadText]
        exact ⟨hkind.symm, htext.symm⟩
      · rw [Bool.not_eq_true] at hhead
        simp only [List.eraseP_cons, hhead, cond_false] at hother
        rcases List.mem_cons.mp hother with rfl | hmem
        · rw [Bool.eq_false_iff, ne_eq, other.matches_iff] at hhead
          exact hhead ⟨hkind.symm, htext.symm⟩
        · exact ih hdistinct.2 hmem

/-- A rule may be set when it replaces one or when there is room. -/
def HasRoom (rules : List DeviceRule) (rule : DeviceRule) : Prop :=
  (∃ other ∈ rules, other.matches rule.kind rule.matchText = true) ∨
    rules.length < maxDeviceRules

theorem toList_entry_key (rule : DeviceRule) :
    rule.entry.1.toList = rule.kind.keyPrefix.toList ++ ['.'] ++
      rule.matchText.toList ++ ".profile".toList := by
  simp only [DeviceRule.entry, String.toList_append]
  rfl

theorem slice_entry_key (rule : DeviceRule) :
    Text.slice rule.entry.1.toList (Text.byteLength rule.kind.keyPrefix.toList + 1)
      (Text.byteLength rule.entry.1.toList - 8) = some rule.matchText.toList := by
  have hdot : Text.byteLength (rule.kind.keyPrefix.toList ++ ['.']) =
      Text.byteLength rule.kind.keyPrefix.toList + 1 := by
    rw [Text.byteLength_append]
    rfl
  have hprofile : Text.byteLength ".profile".toList = 8 := rfl
  have hstop : Text.byteLength rule.entry.1.toList - 8 =
      Text.byteLength (rule.kind.keyPrefix.toList ++ ['.']) +
        Text.byteLength rule.matchText.toList := by
    rw [toList_entry_key, Text.byteLength_append, Text.byteLength_append,
      hprofile]
    omega
  rw [← hdot, hstop, toList_entry_key, Text.slice_append]

/-- The rule arm on the key of a rule. -/
theorem setRule_entry {rule : DeviceRule} {value : String}
    (htext : rule.matchText ≠ "")
    (hvalue : Profile.parse value = some rule.profile) (place : Place)
    (config : Config) :
    (HasRoom config.deviceRules rule →
      setRule place rule.entry.1 value rule.kind config =
        .ok { config with deviceRules := putRule config.deviceRules rule }) ∧
    (¬HasRoom config.deviceRules rule →
      setRule place rule.entry.1 value rule.kind config =
        .err (invalid place rule.entry.1) config) := by
  have hmiddle : rule.matchText.toList ≠ [] := by
    intro hnil
    exact htext (String.toList_inj.mp hnil)
  have hset : setRule place rule.entry.1 value rule.kind config =
      storeRule place rule.entry.1 rule.kind rule.matchText rule.profile
        config := by
    rw [setRule, hvalue]
    simp only [slice_entry_key, hmiddle, if_false, String.ofList_toList]
  rw [hset, storeRule]
  cases hfind : config.deviceRules.find? (·.matches rule.kind rule.matchText) with
  | some other =>
      have hother := List.find?_some hfind
      obtain ⟨hkind, hmatch⟩ := (other.matches_iff _ _).mp hother
      have hsame : { other with profile := rule.profile } = rule := by
        rw [hkind, hmatch]
      have hroom : HasRoom config.deviceRules rule :=
        .inl ⟨other, List.mem_of_find?_eq_some hfind, hother⟩
      refine ⟨fun _ => ?_, fun hnone => absurd hroom hnone⟩
      simp only [hsame, putRule]
  | none =>
      have hnone : ∀ other ∈ config.deviceRules,
          ¬other.matches rule.kind rule.matchText = true := by
        intro other hmem
        exact List.find?_eq_none.mp hfind other hmem
      have herase : config.deviceRules.eraseP
          (·.matches rule.kind rule.matchText) = config.deviceRules :=
        List.eraseP_of_forall_not hnone
      constructor
      · rintro (⟨other, hmem, hmatch⟩ | hroom)
        · exact absurd hmatch (hnone other hmem)
        · simp only [Nat.not_le.mpr hroom, if_false, putRule, herase]
      · intro hfull
        have hlength : maxDeviceRules ≤ config.deviceRules.length := by
          by_contra hlt
          exact hfull (.inr (Nat.lt_of_not_le hlt))
        simp only [hlength, if_true]

/-- An accepted rule line sets the rule its key and value spell. -/
theorem setRule_eq_ok (kind : DeviceRuleKind) {key value : String}
    {place : Place} {config next : Config}
    (hkind : kind.keyPrefix.toList ++ ['.'] <+: key.toList)
    (hsuffix : ".profile".toList <:+ key.toList)
    (hok : setRule place key value kind config = .ok next) :
    ∃ rule : DeviceRule, rule.matchText ≠ "" ∧ key = rule.entry.1 ∧
      Profile.parse value = some rule.profile ∧
      HasRoom config.deviceRules rule ∧
      next = { config with deviceRules := putRule config.deviceRules rule } := by
  cases hvalue : Profile.parse value with
  | none =>
      simp only [setRule, hvalue] at hok
      cases hok
  | some profile =>
      rcases rule_key_cases hkind hsuffix with ⟨middle, hkey, hslice⟩ |
        ⟨_, hslice⟩
      · by_cases hmiddle : middle = []
        · simp only [setRule, hvalue, hslice, hmiddle, if_true] at hok
          cases hok
        · let rule : DeviceRule := ⟨kind, String.ofList middle, profile⟩
          have htoList : rule.matchText.toList = middle := String.toList_ofList
          have htext : rule.matchText ≠ "" := by
            intro hempty
            apply hmiddle
            rw [← htoList, hempty]
            rfl
          have hentry : key = rule.entry.1 := by
            rw [← String.toList_inj, hkey, toList_entry_key, htoList]
          have hput := @setRule_entry rule value htext hvalue place config
          rw [← hentry] at hput
          by_cases hroom : HasRoom config.deviceRules rule
          · have hnext := hput.1 hroom
            rw [hok] at hnext
            cases hnext
            exact ⟨rule, htext, hentry, rfl, hroom, rfl⟩
          · have hnext := hput.2 hroom
            rw [hok] at hnext
            cases hnext
      · simp only [setRule, hvalue, hslice] at hok
        cases hok

/-- What an accepted key and value do: a fixed key, a binding or a rule. -/
theorem setKey_eq_ok {place : Place} {key value : String}
    {config next : Config} (hok : setKey place key value config = .ok next) :
    (∃ set, fixedKey place key value = some set ∧ set config = .ok next) ∨
    (∃ bindings, next = { config with desktopBindings := bindings }) ∨
    ∃ rule : DeviceRule, rule.matchText ≠ "" ∧ key = rule.entry.1 ∧
      Profile.parse value = some rule.profile ∧
      HasRoom config.deviceRules rule ∧
      next = { config with deviceRules := putRule config.deviceRules rule } := by
  unfold setKey at hok
  cases hfixed : fixedKey place key value with
  | some set =>
      rw [hfixed] at hok
      exact .inl ⟨set, rfl, hok⟩
  | none =>
      right
      simp only [hfixed] at hok
      split at hok
      · left
        unfold setBinding at hok
        split at hok
        · cases hok
        · split at hok
          · cases hok
          · split at hok
            · cases hok
              exact ⟨_, rfl⟩
            · cases hok
      · right
        split at hok
        · next hrule => exact setRule_eq_ok .syspath hrule.1 hrule.2 hok
        · split at hok
          · next hrule => exact setRule_eq_ok .devtype hrule.1 hrule.2 hok
          · cases hok

/-- The values `set_cal` can store. -/
structure SensorCalibration.InRange (c : SensorCalibration) : Prop where
  x : -32768 ≤ c.x ∧ c.x ≤ 32767
  y : -32768 ≤ c.y ∧ c.y ≤ 32767
  z : -32768 ≤ c.z ∧ c.z ≤ 32767
  known : c.axes &&& ~~~SensorCalibration.allAxes = 0

/-- A calibration exists once one of its axes was given. -/
structure SensorCalibration.WellFormed (c : SensorCalibration) : Prop
    extends c.InRange where
  started : c.axes ≠ 0

theorem SensorCalibration.empty_inRange : empty.InRange := by
  constructor <;> decide

theorem SensorCalibration.setAxis_wellFormed {c : SensorCalibration}
    (hc : c.InRange) (axis : Nat) {v : Int} (hmin : -32768 ≤ v)
    (hmax : v ≤ 32767) : (c.setAxis axis v).WellFormed := by
  have hknown : ∀ axes ∈ [axisX, axisY, axisZ],
      (c.axes ||| axes) &&& ~~~allAxes = 0 ∧ c.axes ||| axes ≠ 0 := by
    have hbits := hc.known
    generalize c.axes = bits at hbits
    revert bits
    decide
  unfold setAxis
  split
  · obtain ⟨hbits, hstarted⟩ := hknown axisX (by simp)
    exact ⟨⟨⟨hmin, hmax⟩, hc.y, hc.z, hbits⟩, hstarted⟩
  · obtain ⟨hbits, hstarted⟩ := hknown axisY (by simp)
    exact ⟨⟨hc.x, ⟨hmin, hmax⟩, hc.z, hbits⟩, hstarted⟩
  · obtain ⟨hbits, hstarted⟩ := hknown axisZ (by simp)
    exact ⟨⟨hc.x, hc.y, ⟨hmin, hmax⟩, hbits⟩, hstarted⟩

theorem SensorCalibration.inRange_getD {calibration : Option SensorCalibration}
    (hcalibration : ∀ c ∈ calibration, c.WellFormed) :
    (calibration.getD empty).InRange := by
  cases calibration with
  | none => exact empty_inRange
  | some c => exact (hcalibration c rfl).toInRange

structure IrRectangle.WellFormed (r : IrRectangle) : Prop where
  left : 0 ≤ r.left ∧ r.left ≤ 32767
  right : 0 ≤ r.right ∧ r.right ≤ 32767
  top : 0 ≤ r.top ∧ r.top ≤ 32767
  bottom : 0 ≤ r.bottom ∧ r.bottom ≤ 32767

theorem IrRectangle.default_wellFormed : IrRectangle.default.WellFormed := by
  constructor <;> decide

theorem IrRectangle.setSide_wellFormed {r : IrRectangle} (hr : r.WellFormed)
    (axis : Nat) {v : Int} (hmin : 0 ≤ v) (hmax : v ≤ 32767) :
    (r.setSide axis v).WellFormed := by
  unfold setSide
  split
  · exact { hr with left := ⟨hmin, hmax⟩ }
  · exact { hr with right := ⟨hmin, hmax⟩ }
  · exact { hr with top := ⟨hmin, hmax⟩ }
  · exact { hr with bottom := ⟨hmin, hmax⟩ }

theorem IrRectangle.wellFormed_getD {screen : Option IrRectangle}
    (hscreen : ∀ r ∈ screen, r.WellFormed) :
    (screen.getD .default).WellFormed := by
  cases screen with
  | none => exact default_wellFormed
  | some r => exact hscreen r rfl

/-- What any sequence of accepted lines can produce. -/
structure Config.WellFormed (config : Config) : Prop where
  profile : config.profile.isValid = true
  inRange : config.inRange = true
  screen : ∀ r ∈ config.irScreen, r.WellFormed
  accelZero : ∀ c ∈ config.aimAccelZero, c.WellFormed
  motionPlusBias : ∀ c ∈ config.aimMotionPlusBias, c.WellFormed
  rules : ∀ rule ∈ config.deviceRules,
    rule.matchText ≠ "" ∧ rule.profile.isValid = true
  distinct : config.deviceRules.Pairwise fun first second =>
    ¬second.matches first.kind first.matchText = true
  count : config.deviceRules.length ≤ maxDeviceRules

theorem Config.wellFormed_default : Config.WellFormed {} where
  profile := by decide
  inRange := by decide
  screen := by simp
  accelZero := by simp
  motionPlusBias := by simp
  rules := by simp
  distinct := .nil
  count := by decide

/-- Storing a rule keeps the rules few, distinct and valid. -/
theorem Config.WellFormed.putRule {config : Config} (hconfig : config.WellFormed)
    {rule : DeviceRule} (htext : rule.matchText ≠ "")
    (hprofile : rule.profile.isValid = true)
    (hroom : HasRoom config.deviceRules rule) :
    Config.WellFormed { config with
      deviceRules := putRule config.deviceRules rule } := by
  let kept := config.deviceRules.eraseP (·.matches rule.kind rule.matchText)
  have hkept : kept.Sublist config.deviceRules := List.eraseP_sublist
  refine { hconfig with rules := ?_, distinct := ?_, count := ?_ }
  · intro other hother
    rcases List.mem_append.mp hother with hmem | hmem
    · exact hconfig.rules other (hkept.subset hmem)
    · rw [List.mem_singleton.mp hmem]
      exact ⟨htext, hprofile⟩
  · refine List.pairwise_append.mpr
      ⟨hconfig.distinct.sublist hkept, List.pairwise_singleton _ rule, ?_⟩
    intro other hother last hlast
    rw [List.mem_singleton.mp hlast]
    intro hmatches
    exact matches_eraseP_absent hconfig.distinct hother hmatches
  · change (kept ++ [rule]).length ≤ maxDeviceRules
    rw [List.length_append, List.length_singleton]
    rcases hroom with ⟨other, hmem, hmatch⟩ | hlt
    · have hlength : kept.length = config.deviceRules.length - 1 :=
        List.length_eraseP_of_mem hmem hmatch
      have hpos := List.length_pos_of_mem hmem
      have hcount := hconfig.count
      omega
    · have hle := hkept.length_le
      omega

theorem parseInt_range {value : String} {min max v : Int}
    (hparse : parseInt value min max = some v) : min ≤ v ∧ v ≤ max := by
  rw [parseInt, Option.bind_eq_some_iff] at hparse
  obtain ⟨n, _, hrange⟩ := hparse
  split at hrange
  · exact absurd hrange (by simp)
  · cases hrange
    omega

theorem setInt_eq_ok {place : Place} {key value : String} {min max : Int}
    {store : Int → Config → Config} {config next : Config}
    (hok : setInt place key value min max store config = .ok next) :
    ∃ v, min ≤ v ∧ v ≤ max ∧ next = store v config := by
  unfold setInt at hok
  split at hok
  · next v hparse =>
    cases hok
    obtain ⟨hmin, hmax⟩ := parseInt_range hparse
    exact ⟨v, hmin, hmax, rfl⟩
  · cases hok

theorem setChoice_eq_ok {A : Type} {place : Place} {key value : String}
    {parse : String → Option A} {store : A → Config → Config}
    {config next : Config}
    (hok : setChoice place key value parse store config = .ok next) :
    ∃ v, parse value = some v ∧ next = store v config := by
  unfold setChoice at hok
  split at hok
  · next v hparse =>
    cases hok
    exact ⟨v, hparse, rfl⟩
  · cases hok

theorem setBackend_eq_ok {place : Place} {key value : String}
    {config next : Config} (hok : setBackend place key value config = .ok next) :
    next = { config with backend := .uinput } := by
  unfold setBackend at hok
  split at hok
  · cases hok
    rfl
  · cases hok

/-- A bounded integer arm keeps the invariant when its bounds are those of the
field. -/
theorem setInt_wellFormed {place : Place} {key value : String} {min max : Int}
    {store : Int → Config → Config} {config next : Config}
    (hok : setInt place key value min max store config = .ok next)
    (hstore : ∀ v, min ≤ v → v ≤ max → (store v config).WellFormed) :
    next.WellFormed := by
  obtain ⟨v, hmin, hmax, rfl⟩ := setInt_eq_ok hok
  exact hstore v hmin hmax

theorem setChoice_wellFormed {A : Type} {place : Place} {key value : String}
    {parse : String → Option A} {store : A → Config → Config}
    {config next : Config}
    (hok : setChoice place key value parse store config = .ok next)
    (hstore : ∀ v, parse value = some v → (store v config).WellFormed) :
    next.WellFormed := by
  obtain ⟨v, hparse, rfl⟩ := setChoice_eq_ok hok
  exact hstore v hparse

theorem setScreen_wellFormed {place : Place} {key value : String} {axis : Nat}
    {config next : Config} (hconfig : config.WellFormed)
    (hok : setScreen place key value axis config = .ok next) :
    next.WellFormed := by
  refine setInt_wellFormed hok fun v hmin hmax => { hconfig with screen := ?_ }
  intro r hr
  cases hr
  exact IrRectangle.setSide_wellFormed
    (IrRectangle.wellFormed_getD hconfig.screen) axis hmin hmax

theorem setCal_wellFormed {place : Place} {key value : String} {accel : Bool}
    {axis : Nat} {config next : Config} (hconfig : config.WellFormed)
    (hok : setCal place key value accel axis config = .ok next) :
    next.WellFormed := by
  refine setInt_wellFormed hok fun v hmin hmax => ?_
  cases accel with
  | true =>
      refine { hconfig with accelZero := ?_ }
      intro c hc
      cases hc
      exact SensorCalibration.setAxis_wellFormed
        (SensorCalibration.inRange_getD hconfig.accelZero) axis hmin hmax
  | false =>
      refine { hconfig with motionPlusBias := ?_ }
      intro c hc
      cases hc
      exact SensorCalibration.setAxis_wellFormed
        (SensorCalibration.inRange_getD hconfig.motionPlusBias) axis hmin hmax

theorem setBool_wellFormed {place : Place} {key value : String} {x : Bool}
    {config next : Config} (hconfig : config.WellFormed)
    (hok : setBool place key value x config = .ok next) : next.WellFormed := by
  refine setChoice_wellFormed hok fun v _ => ?_
  cases x <;> exact { hconfig with }

/-- Every arm with a fixed key keeps the invariant: the bounds of the parser
are those of `validate`. -/
theorem fixedKey_wellFormed {place : Place} {key value : String}
    {set : Config → Outcome} {config next : Config}
    (hset : fixedKey place key value = some set) (hconfig : config.WellFormed)
    (hok : set config = .ok next) : next.WellFormed := by
  have hrange := config.inRange_iff.mp hconfig.inRange
  unfold fixedKey at hset
  split at hset <;> cases hset
  · rw [setBackend_eq_ok hok]
    exact { hconfig with }
  · exact setChoice_wellFormed hok fun v hv =>
      { hconfig with profile := (Profile.asStr_of_parse hv).1 }
  · exact setInt_wellFormed hok fun v hmin hmax =>
      { hconfig with
        inRange := (Config.inRange_iff _).mpr ⟨⟨hmin, hmax⟩, hrange.2⟩ }
  · exact setInt_wellFormed hok fun v hmin hmax =>
      { hconfig with
        inRange := (Config.inRange_iff _).mpr
          ⟨hrange.1, ⟨hmin, hmax⟩, hrange.2.2⟩ }
  · exact setInt_wellFormed hok fun v hmin hmax =>
      { hconfig with
        inRange := (Config.inRange_iff _).mpr
          ⟨hrange.1, hrange.2.1, ⟨hmin, hmax⟩, hrange.2.2.2⟩ }
  · exact setInt_wellFormed hok fun v hmin hmax =>
      { hconfig with
        inRange := (Config.inRange_iff _).mpr
          ⟨hrange.1, hrange.2.1, hrange.2.2.1, ⟨hmin, hmax⟩, hrange.2.2.2.2⟩ }
  · exact setChoice_wellFormed hok fun _ _ => { hconfig with }
  · exact setChoice_wellFormed hok fun _ _ => { hconfig with }
  · exact setScreen_wellFormed hconfig hok
  · exact setScreen_wellFormed hconfig hok
  · exact setScreen_wellFormed hconfig hok
  · exact setScreen_wellFormed hconfig hok
  · exact setChoice_wellFormed hok fun _ _ => { hconfig with }
  · exact setChoice_wellFormed hok fun _ _ => { hconfig with }
  · exact setChoice_wellFormed hok fun _ _ => { hconfig with }
  · exact setInt_wellFormed hok fun v hmin hmax =>
      { hconfig with
        inRange := (Config.inRange_iff _).mpr
          ⟨hrange.1, hrange.2.1, hrange.2.2.1, hrange.2.2.2.1, ⟨hmin, hmax⟩,
            hrange.2.2.2.2.2⟩ }
  · exact setInt_wellFormed hok fun v hmin hmax =>
      { hconfig with
        inRange := (Config.inRange_iff _).mpr
          ⟨hrange.1, hrange.2.1, hrange.2.2.1, hrange.2.2.2.1,
            hrange.2.2.2.2.1, ⟨hmin, hmax⟩, hrange.2.2.2.2.2.2⟩ }
  · exact setInt_wellFormed hok fun v hmin hmax =>
      { hconfig with
        inRange := (Config.inRange_iff _).mpr
          ⟨hrange.1, hrange.2.1, hrange.2.2.1, hrange.2.2.2.1,
            hrange.2.2.2.2.1, hrange.2.2.2.2.2.1, ⟨hmin, hmax⟩,
            hrange.2.2.2.2.2.2.2⟩ }
  · exact setBool_wellFormed hconfig hok
  · exact setBool_wellFormed hconfig hok
  · exact setCal_wellFormed hconfig hok
  · exact setCal_wellFormed hconfig hok
  · exact setCal_wellFormed hconfig hok
  · exact setCal_wellFormed hconfig hok
  · exact setCal_wellFormed hconfig hok
  · exact setCal_wellFormed hconfig hok
  · exact setInt_wellFormed hok fun v hmin hmax =>
      { hconfig with
        inRange := (Config.inRange_iff _).mpr
          ⟨hrange.1, hrange.2.1, hrange.2.2.1, hrange.2.2.2.1,
            hrange.2.2.2.2.1, hrange.2.2.2.2.2.1, hrange.2.2.2.2.2.2.1,
            ⟨hmin, hmax⟩⟩ }

theorem setKey_wellFormed {place : Place} {key value : String}
    {config next : Config} (hconfig : config.WellFormed)
    (hok : setKey place key value config = .ok next) : next.WellFormed := by
  rcases setKey_eq_ok hok with ⟨set, hset, hok⟩ | ⟨bindings, rfl⟩ |
    ⟨rule, htext, _, hvalue, hroom, rfl⟩
  · exact fixedKey_wellFormed hset hconfig hok
  · exact { hconfig with }
  · exact hconfig.putRule htext (Profile.asStr_of_parse hvalue).1 hroom

/-- An accepted line keeps the invariant. -/
theorem applyLine_wellFormed {place : Place} {line : List Char}
    {config next : Config} (hconfig : config.WellFormed)
    (hok : applyLine place line config = .ok next) : next.WellFormed := by
  rcases applyLine_cases place line config with ⟨message, herr⟩ | hsame |
    ⟨key, value, _, _, hset⟩
  · rw [herr] at hok
    cases hok
  · rw [hsame] at hok
    cases hok
    exact hconfig
  · rw [hset] at hok
    exact setKey_wellFormed hconfig hok

theorem applyRaw_wellFormed {place : Place} {raw : List UInt8}
    {config next : Config} (hconfig : config.WellFormed)
    (hok : applyRaw place raw config = .ok next) : next.WellFormed := by
  rcases applyRaw_cases place raw config with ⟨message, herr⟩ |
    ⟨text, _, _, hline⟩
  · rw [herr] at hok
    cases hok
  · rw [hline] at hok
    exact applyLine_wellFormed hconfig hok

theorem applyLines_wellFormed {path : String} {no : Nat}
    {raws : List (List UInt8)} {config next : Config}
    (hconfig : config.WellFormed)
    (hok : applyLines path no raws config = .ok next) : next.WellFormed := by
  induction raws generalizing no config with
  | nil =>
      cases hok
      exact hconfig
  | cons raw raws ih =>
      obtain ⟨middle, hraw, hraws⟩ := applyLines_ok_cons hok
      exact ih (applyRaw_wellFormed hconfig hraw) hraws

end Wiiland
