/-
Device rules as lines.  The rules a configuration stores are the digest of its rule
lines, and a device gets the profile of the last rule line that matches it.
-/
import Wiiland.Core.ConfigRoundTrip
import Wiiland.Core.DeviceRules
import Wiiland.Lib.LastWins

namespace Wiiland

/-- Lines applied in order, each at its own place. -/
def applyAll : List (Place × List Char) → Config → Outcome
  | [], config => .ok config
  | (place, line) :: lines, config => (applyLine place line config).andThen (applyAll lines)

theorem applyAll_ok_cons {place : Place} {line : List Char} {lines : List (Place × List Char)}
    {config final : Config} (hok : applyAll ((place, line) :: lines) config = .ok final) :
    ∃ next, applyLine place line config = .ok next ∧ applyAll lines next = .ok final := by
  rw [applyAll] at hok
  cases hline : applyLine place line config with
  | ok next =>
      rw [hline] at hok
      exact ⟨next, rfl, hok⟩
  | err error next =>
      rw [hline] at hok
      exact absurd hok (by simp [Outcome.andThen])
  | panic =>
      rw [hline] at hok
      exact absurd hok (by simp [Outcome.andThen])

theorem applyAll_wellFormed {lines : List (Place × List Char)} {config final : Config}
    (hconfig : config.WellFormed) (hok : applyAll lines config = .ok final) :
    final.WellFormed := by
  induction lines generalizing config with
  | nil =>
      cases hok
      exact hconfig
  | cons head lines ih =>
      obtain ⟨next, hline, hrest⟩ := applyAll_ok_cons hok
      exact ih (applyLine_wellFormed hconfig hline) hrest

/-- A line that gives the profile of a rule: `device.TEXT.profile=NAME`, or
`device-type.TEXT.profile=NAME`. -/
structure RuleLine (line : List Char) (rule : DeviceRule) : Prop where
  text : rule.matchText ≠ ""
  reads : ∃ value,
    ReadsAs line (rule.kind.keyPrefix ++ "." ++ rule.matchText ++ ".profile") value ∧
      Profile.parse value = some rule.profile

theorem ReadsAs.unique {line : List Char} {key value key' value' : String}
    (hreads : ReadsAs line key value) (hreads' : ReadsAs line key' value') :
    key = key' ∧ value = value' := by
  obtain ⟨before, after, hline, hbefore, hkey, hvalue⟩ := hreads
  obtain ⟨before', after', hline', hbefore', hkey', hvalue'⟩ := hreads'
  obtain ⟨rfl, rfl⟩ := Text.first_split_unique hbefore hbefore' (hline.symm.trans hline')
  exact ⟨String.toList_inj.mp (hkey.symm.trans hkey'),
    String.toList_inj.mp (hvalue.symm.trans hvalue')⟩

/-- The key of a rule tells its kind and its text. -/
theorem entry_key_inj {first second : DeviceRule} (hkey : first.entry.1 = second.entry.1) :
    first.kind = second.kind ∧ first.matchText = second.matchText := by
  have hlists : first.entry.1.toList = second.entry.1.toList := by rw [hkey]
  rw [toList_entry_key, toList_entry_key] at hlists
  have hkind : first.kind = second.kind := by
    have hfirst : first.kind.keyPrefix.toList ++ ['.'] <+: second.entry.1.toList := by
      rw [toList_entry_key, ← hlists, List.append_assoc]
      exact List.prefix_append _ _
    have hsecond : second.kind.keyPrefix.toList ++ ['.'] <+: second.entry.1.toList := by
      rw [toList_entry_key, List.append_assoc]
      exact List.prefix_append _ _
    have hprefix := List.prefix_or_prefix_of_prefix hfirst hsecond
    revert hprefix
    cases first.kind <;> cases second.kind <;> decide
  rw [hkind] at hlists
  exact ⟨hkind, String.toList_inj.mp
    (List.append_cancel_left (List.append_cancel_right hlists))⟩

/-- A line gives one rule at most. -/
theorem RuleLine.unique {line : List Char} {first second : DeviceRule}
    (hfirst : RuleLine line first) (hsecond : RuleLine line second) : first = second := by
  obtain ⟨value, hreads, hvalue⟩ := hfirst.reads
  obtain ⟨value', hreads', hvalue'⟩ := hsecond.reads
  obtain ⟨hkey, rfl⟩ := hreads.unique hreads'
  obtain ⟨hkind, htext⟩ := entry_key_inj hkey
  obtain ⟨kind, matchText, profile⟩ := first
  obtain ⟨kind', matchText', profile'⟩ := second
  cases hkind
  cases htext
  cases hvalue.symm.trans hvalue'
  rfl

/-- An accepted line puts the rule it gives, or leaves the rules alone. -/
theorem applyLine_rules {place : Place} {line : List Char} {config next : Config}
    (hok : applyLine place line config = .ok next) :
    (∃ rule, RuleLine line rule ∧
      next.deviceRules = putRule config.deviceRules rule) ∨
    (∀ rule, ¬RuleLine line rule) ∧ next.deviceRules = config.deviceRules := by
  by_cases hline : ∃ rule, RuleLine line rule
  · obtain ⟨rule, hrule⟩ := hline
    obtain ⟨value, hreads, hvalue⟩ := hrule.reads
    have hlength : Text.byteLength line ≤ 511 := by
      by_contra hlong
      rw [applyLine, if_pos (by rw [maxLineBytes]; omega)] at hok
      cases hok
    rw [applyLine_of_reads hlength hreads] at hok
    change setKey place rule.entry.1 value config = .ok next at hok
    rw [setKey_entry_key] at hok
    have hset := @setRule_entry rule value hrule.text hvalue place config
    by_cases hroom : HasRoom config.deviceRules rule
    · rw [hset.1 hroom] at hok
      cases hok
      exact .inl ⟨rule, hrule, rfl⟩
    · rw [hset.2 hroom] at hok
      cases hok
  · refine .inr ⟨fun rule hrule => hline ⟨rule, hrule⟩, ?_⟩
    rcases applyLine_cases place line config with ⟨message, herr⟩ | hsame |
      ⟨key, value, _, hreads, hset⟩
    · rw [herr] at hok
      cases hok
    · rw [hsame] at hok
      cases hok
      rfl
    · rw [hset] at hok
      rcases setKey_eq_ok hok with ⟨set, hfixed, hok⟩ | ⟨bindings, rfl⟩ |
        ⟨rule, htext, hkey, hvalue, _, rfl⟩
      · exact fixedKey_deviceRules hfixed hok
      · rfl
      · refine absurd ⟨rule, htext, value, ?_, hvalue⟩ hline
        rw [hkey] at hreads
        exact hreads

/-- The rules that lines give, in their order. -/
inductive Gives : List (Place × List Char) → List DeviceRule → Prop
  | nil : Gives [] []
  | rule {place : Place} {line : List Char} {lines : List (Place × List Char)}
      {rule : DeviceRule} {rules : List DeviceRule} (hrule : RuleLine line rule)
      (hrest : Gives lines rules) : Gives ((place, line) :: lines) (rule :: rules)
  | other {place : Place} {line : List Char} {lines : List (Place × List Char)}
      {rules : List DeviceRule} (hnone : ∀ rule, ¬RuleLine line rule)
      (hrest : Gives lines rules) : Gives ((place, line) :: lines) rules

/-- The stored rules are the rules of the accepted lines, put one after the other. -/
theorem applyAll_rules {lines : List (Place × List Char)} {config final : Config}
    (hok : applyAll lines config = .ok final) :
    ∃ rules, Gives lines rules ∧
      final.deviceRules = rules.foldl putRule config.deviceRules := by
  induction lines generalizing config with
  | nil =>
      cases hok
      exact ⟨[], .nil, rfl⟩
  | cons head lines ih =>
      obtain ⟨next, hline, hrest⟩ := applyAll_ok_cons hok
      obtain ⟨rules, hrules, hfinal⟩ := ih hrest
      rcases applyLine_rules hline with ⟨rule, hrule, hput⟩ | ⟨hnone, hsame⟩
      · exact ⟨rule :: rules, .rule hrule hrules, by rw [hfinal, hput, List.foldl_cons]⟩
      · exact ⟨rules, .other hnone hrules, by rw [hfinal, hsame]⟩

namespace Gives

variable {lines : List (Place × List Char)} {rules : List DeviceRule}

/-- A rule is given by one of the lines exactly when it is in their list. -/
theorem mem_iff (hgives : Gives lines rules) (rule : DeviceRule) :
    rule ∈ rules ↔ ∃ line ∈ lines, RuleLine line.2 rule := by
  induction hgives with
  | nil => simp
  | rule hrule hrest ih =>
      rw [List.mem_cons, List.exists_mem_cons_iff, ih]
      exact or_congr_left ⟨fun heq => heq ▸ hrule, fun hsame => hsame.unique hrule⟩
  | other hnone hrest ih =>
      rw [List.exists_mem_cons_iff, ih]
      exact ⟨.inr, fun h => h.resolve_left (hnone rule)⟩

/-- A place in the list of the rules is a place among the lines. -/
theorem split {before after : List DeviceRule} {rule : DeviceRule}
    (hgives : Gives lines (before ++ rule :: after)) :
    ∃ first place line last, lines = first ++ (place, line) :: last ∧
      RuleLine line rule ∧ Gives last after := by
  generalize hall : before ++ rule :: after = rules at hgives
  induction hgives generalizing before with
  | nil => exact absurd hall (by simp)
  | @rule place line lines head rules hrule hrest ih =>
      cases before with
      | nil =>
          obtain ⟨rfl, rfl⟩ := List.cons.inj hall
          exact ⟨[], place, line, lines, rfl, hrule, hrest⟩
      | cons other before =>
          obtain ⟨rfl, htail⟩ := List.cons.inj hall
          obtain ⟨first, place', line', last, rfl, hline, hlast⟩ := ih htail
          exact ⟨(place, line) :: first, place', line', last, rfl, hline, hlast⟩
  | @other place line lines rules hnone hrest ih =>
      obtain ⟨first, place', line', last, rfl, hline, hlast⟩ := ih hall
      exact ⟨(place, line) :: first, place', line', last, rfl, hline, hlast⟩

end Gives

/-- A rule replaces the rules of its kind and text. -/
def replaces (rule other : DeviceRule) : Bool := other.matches rule.kind rule.matchText

theorem matchesDevice_of_replaces {rule other : DeviceRule}
    (hreplaces : replaces rule other = true) (syspath devtype : Option String) :
    other.matchesDevice syspath devtype = rule.matchesDevice syspath devtype := by
  obtain ⟨hkind, htext⟩ := (other.matches_iff _ _).mp hreplaces
  rw [DeviceRule.matchesDevice, DeviceRule.matchesDevice, hkind, htext]

/-- The stored rules select for a device what the rules of the lines select. -/
theorem profileForDevice_puts {config : Config} {rules : List DeviceRule}
    (hrules : config.deviceRules = rules.foldl putRule []) (syspath devtype : Option String) :
    config.profileForDevice syspath devtype =
      LastWins.choose (·.matchesDevice syspath devtype) (·.profile) config.profile rules := by
  rw [Config.profileForDevice, hrules]
  exact @LastWins.choose_puts _ _ replaces _ _
    (fun _ _ hreplaces => matchesDevice_of_replaces hreplaces syspath devtype)
    config.profile [] rules

/-- The matchers of the stored rules are those the lines give. -/
theorem exists_rule_puts {rules : List DeviceRule} (kind : DeviceRuleKind)
    (matchText : String) :
    (∃ rule ∈ rules.foldl putRule [], rule.kind = kind ∧ rule.matchText = matchText) ↔
      ∃ rule ∈ rules, rule.kind = kind ∧ rule.matchText = matchText := by
  refine @LastWins.exists_puts _ replaces _ (fun rule other hreplaces => ?_) [] rules
  obtain ⟨hkind, htext⟩ := (other.matches_iff _ _).mp hreplaces
  rw [hkind, htext]

/-- Device rules act as the last matching line.  Over every accepted sequence of lines,
a device gets the profile of the last rule line that matches it, else the base profile,
and the configuration stores one rule for each matcher the lines give. -/
theorem rules_lastLine {lines : List (Place × List Char)} {config : Config}
    (hok : applyAll lines {} = .ok config) :
    (∀ syspath devtype,
      (∃ before place line after rule, lines = before ++ (place, line) :: after ∧
        RuleLine line rule ∧ rule.matchesDevice syspath devtype = true ∧
          (∀ later ∈ after, ∀ other, RuleLine later.2 other →
            other.matchesDevice syspath devtype = false) ∧
          config.profileForDevice syspath devtype = rule.profile) ∨
      (∀ line ∈ lines, ∀ rule, RuleLine line.2 rule →
        rule.matchesDevice syspath devtype = false) ∧
        config.profileForDevice syspath devtype = config.profile) ∧
    config.deviceRules.length ≤ 32 ∧
    (config.deviceRules.Pairwise fun first second =>
      ¬(first.kind = second.kind ∧ first.matchText = second.matchText)) ∧
    ∀ kind matchText,
      (∃ rule ∈ config.deviceRules, rule.kind = kind ∧ rule.matchText = matchText) ↔
        ∃ line ∈ lines, ∃ rule, RuleLine line.2 rule ∧ rule.kind = kind ∧
          rule.matchText = matchText := by
  obtain ⟨rules, hgives, hrules⟩ := applyAll_rules hok
  have hconfig := applyAll_wellFormed Config.wellFormed_default hok
  refine ⟨fun syspath devtype => ?_, hconfig.count, ?_, fun kind matchText => ?_⟩
  · rw [profileForDevice_puts hrules]
    rcases @LastWins.choose_cases _ _ (·.matchesDevice syspath devtype) (·.profile)
      config.profile rules with ⟨before, rule, after, rfl, hmatches, hafter, hchosen⟩ |
        ⟨hnone, hbase⟩
    · obtain ⟨first, place, line, last, rfl, hline, hlast⟩ := hgives.split
      refine .inl ⟨first, place, line, last, rule, rfl, hline, hmatches, ?_, hchosen⟩
      intro later hlater other hother
      exact hafter other ((hlast.mem_iff other).mpr ⟨later, hlater, hother⟩)
    · refine .inr ⟨fun line hline rule hrule => ?_, hbase⟩
      exact hnone rule ((hgives.mem_iff rule).mpr ⟨line, hline, hrule⟩)
  · refine hconfig.distinct.imp fun {first second} hpair hsame => hpair ?_
    exact (second.matches_iff _ _).mpr ⟨hsame.1.symm, hsame.2.symm⟩
  · rw [hrules, exists_rule_puts]
    constructor
    · rintro ⟨rule, hrule, hmatcher⟩
      obtain ⟨line, hline, hgiven⟩ := (hgives.mem_iff rule).mp hrule
      exact ⟨line, hline, rule, hgiven, hmatcher⟩
    · rintro ⟨line, hline, rule, hgiven, hmatcher⟩
      exact ⟨rule, (hgives.mem_iff rule).mpr ⟨line, hline, hgiven⟩, hmatcher⟩

/-- Three rule lines, the last for the matcher of the first. -/
def againLines : List (Place × List Char) :=
  [(⟨"config", 1⟩, "device.usb.profile=desktop".toList),
    (⟨"config", 2⟩, "device-type.wiimote.profile = gamepad".toList),
    (⟨"config", 3⟩, "device.usb.profile=both # again".toList)]

/-- A matcher given again moves behind the others. -/
theorem rules_lastLine_again :
    applyAll againLines {} =
      .ok { deviceRules := [⟨.devtype, "wiimote", .gamepad⟩, ⟨.syspath, "usb", .both⟩] } ∧
    ∀ kind matchText,
      (∃ rule ∈ [(⟨.devtype, "wiimote", .gamepad⟩ : DeviceRule), ⟨.syspath, "usb", .both⟩],
        rule.kind = kind ∧ rule.matchText = matchText) ↔
        ∃ line ∈ againLines, ∃ rule, RuleLine line.2 rule ∧ rule.kind = kind ∧
          rule.matchText = matchText := by
  have hok : applyAll againLines {} =
      .ok { deviceRules := [⟨.devtype, "wiimote", .gamepad⟩, ⟨.syspath, "usb", .both⟩] } := by
    decide
  exact ⟨hok, (rules_lastLine hok).2.2.2⟩

end Wiiland
