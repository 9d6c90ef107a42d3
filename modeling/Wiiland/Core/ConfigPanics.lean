/-
Which configuration lines stop the program.  Every slice of the parser is in
order and on character boundaries, except the match text of a rule key whose
kind and `.profile` suffix share their dot.
-/
import Mathlib.Data.List.Infix
import Wiiland.Core.ConfigLines

namespace Wiiland

open Text (trim)

theorem setInt_ne_panic (place : Place) (key value : String) (min max : Int)
    (store : Int → Config → Config) (config : Config) :
    setInt place key value min max store config ≠ .panic := by
  unfold setInt
  split <;> simp

theorem setChoice_ne_panic {A : Type} (place : Place) (key value : String)
    (parse : String → Option A) (store : A → Config → Config) (config : Config) :
    setChoice place key value parse store config ≠ .panic := by
  unfold setChoice
  split <;> simp

theorem setBackend_ne_panic (place : Place) (key value : String)
    (config : Config) : setBackend place key value config ≠ .panic := by
  unfold setBackend
  split <;> simp

/-- No arm with a fixed key slices. -/
theorem fixedKey_ne_panic {place : Place} {key value : String}
    {set : Config → Outcome} (hset : fixedKey place key value = some set)
    (config : Config) : set config ≠ .panic := by
  unfold fixedKey at hset
  split at hset <;> cases hset <;>
    first
      | exact setInt_ne_panic _ _ _ _ _ _ _
      | exact setChoice_ne_panic _ _ _ _ _ _
      | exact setBackend_ne_panic _ _ _ _

/-- The fixed keys are not rule keys. -/
theorem fixedKey_of_device {place : Place} {key value : String}
    (hkey : "device".toList <+: key.toList) : fixedKey place key value = none := by
  unfold fixedKey
  split <;> first | rfl | exact absurd hkey (by decide)

/-- The desktop arm cuts its key right after the prefix it tested. -/
theorem setBinding_ne_panic {key : String}
    (hkey : "desktop.".toList <+: key.toList) (place : Place) (value : String)
    (config : Config) : setBinding place key value config ≠ .panic := by
  obtain ⟨name, hname⟩ := hkey
  have hdrop : Text.dropBytes key.toList 8 = some name := by
    rw [← hname]
    exact Text.dropBytes_append "desktop.".toList name
  unfold setBinding
  rw [hdrop]
  simp only
  split
  · simp
  · split <;> simp

theorem storeRule_ne_panic (place : Place) (key : String) (kind : DeviceRuleKind)
    (matchText : String) (profile : Profile) (config : Config) :
    storeRule place key kind matchText profile config ≠ .panic := by
  unfold storeRule
  split
  · simp
  · split <;> simp

/-- A rule key whose kind and suffix overlap shares exactly the dot. -/
theorem rule_key_overlap {kind : DeviceRuleKind} {shared before after : List Char}
    (hshared : shared ≠ [])
    (hkind : kind.keyPrefix.toList ++ ['.'] = before ++ shared)
    (hsuffix : ".profile".toList = shared ++ after) : shared = ['.'] := by
  have htails : shared ∈ (kind.keyPrefix.toList ++ ['.']).tails := by
    rw [List.mem_tails, hkind]
    exact List.suffix_append before shared
  have hstarts : shared <+: ".profile".toList := by
    rw [hsuffix]
    exact List.prefix_append shared after
  have hall : ∀ text ∈ (kind.keyPrefix.toList ++ ['.']).tails,
      text <+: ".profile".toList → text ≠ [] → text = ['.'] := by
    cases kind <;> decide
  exact hall shared htails hstarts hshared

/-- The match text of a rule key is sliced, unless its dot is shared. -/
theorem rule_key_cases {kind : DeviceRuleKind} {key : List Char}
    (hkind : kind.keyPrefix.toList ++ ['.'] <+: key)
    (hsuffix : ".profile".toList <:+ key) :
    (∃ middle, key = kind.keyPrefix.toList ++ ['.'] ++ middle ++
        ".profile".toList ∧
      Text.slice key (Text.byteLength kind.keyPrefix.toList + 1)
        (Text.byteLength key - 8) = some middle) ∨
    key = kind.keyPrefix.toList ++ ".profile".toList ∧
      Text.slice key (Text.byteLength kind.keyPrefix.toList + 1)
        (Text.byteLength key - 8) = none := by
  have hdot : Text.byteLength (kind.keyPrefix.toList ++ ['.']) =
      Text.byteLength kind.keyPrefix.toList + 1 := by
    rw [Text.byteLength_append]
    rfl
  have hprofile : Text.byteLength ".profile".toList = 8 := rfl
  rcases Text.prefix_suffix_cases hkind hsuffix with
    ⟨middle, hkey⟩ | ⟨before, shared, after, hshared, hfirst, hlast, hkey⟩
  · left
    refine ⟨middle, hkey, ?_⟩
    have hstop : Text.byteLength key - 8 =
        Text.byteLength (kind.keyPrefix.toList ++ ['.']) +
          Text.byteLength middle := by
      rw [hkey, Text.byteLength_append, Text.byteLength_append, hprofile]
      omega
    rw [← hdot, hstop, hkey, Text.slice_append]
  · right
    have hdotOnly : shared = ['.'] := rule_key_overlap hshared hfirst hlast
    subst hdotOnly
    have hbefore : before = kind.keyPrefix.toList :=
      (List.append_inj_left' hfirst rfl).symm
    have hwhole : key = kind.keyPrefix.toList ++ ".profile".toList := by
      rw [hkey, hbefore, hlast, List.append_assoc]
    refine ⟨hwhole, Text.slice_of_lt ?_⟩
    rw [hwhole, Text.byteLength_append, hprofile]
    omega

/-- The rule arm stops the program exactly on a valid profile for the key
without a match text. -/
theorem setRule_eq_panic_iff (kind : DeviceRuleKind) {key : String}
    (hkind : kind.keyPrefix.toList ++ ['.'] <+: key.toList)
    (hsuffix : ".profile".toList <:+ key.toList) (place : Place) (value : String)
    (config : Config) :
    setRule place key value kind config = .panic ↔
      key.toList = kind.keyPrefix.toList ++ ".profile".toList ∧
        (Profile.parse value).isSome := by
  unfold setRule
  cases hvalue : Profile.parse value with
  | none => simp
  | some profile =>
      rcases rule_key_cases hkind hsuffix with ⟨middle, hkey, hslice⟩ |
        ⟨hkey, hslice⟩
      · have hne : key.toList ≠ kind.keyPrefix.toList ++ ".profile".toList := by
          intro hsame
          have hlength := congrArg List.length (hkey.symm.trans hsame)
          simp only [List.length_append, List.length_singleton] at hlength
          omega
        simp only [hslice, hne, false_and, iff_false]
        split
        · simp
        · exact storeRule_ne_panic _ _ _ _ _ _
      · simp only [hslice, true_iff]
        exact ⟨hkey, rfl⟩

/-- The keys whose match text is missing. -/
def ShortRuleKey (key : String) : Prop :=
  key = "device.profile" ∨ key = "device-type.profile"

theorem setKey_eq_panic_iff (place : Place) (key value : String)
    (config : Config) :
    setKey place key value config = .panic ↔
      ShortRuleKey key ∧ (Profile.parse value).isSome := by
  by_cases hshort : ShortRuleKey key
  · have hfixed : fixedKey place key value = none := by
      apply fixedKey_of_device
      rcases hshort with rfl | rfl <;> decide
    rcases hshort with rfl | rfl
    · have hrule := @setRule_eq_panic_iff .syspath "device.profile"
        (by decide) (by decide) place value config
      rw [setKey, hfixed]
      simp only
      rw [if_neg (by decide), if_pos (by decide), hrule]
      simp [ShortRuleKey, DeviceRuleKind.keyPrefix]
    · have hrule := @setRule_eq_panic_iff .devtype "device-type.profile"
        (by decide) (by decide) place value config
      rw [setKey, hfixed]
      simp only
      rw [if_neg (by decide), if_neg (by decide), if_pos (by decide), hrule]
      simp [ShortRuleKey, DeviceRuleKind.keyPrefix]
  · simp only [hshort, false_and, iff_false]
    rw [setKey]
    cases hfixed : fixedKey place key value with
    | some set => exact fixedKey_ne_panic hfixed config
    | none =>
        have hkeys : ∀ kind : DeviceRuleKind,
            key.toList ≠ kind.keyPrefix.toList ++ ".profile".toList := by
          intro kind hkey
          apply hshort
          cases kind
          · exact .inl (String.toList_inj.mp hkey)
          · exact .inr (String.toList_inj.mp hkey)
        simp only
        split
        · next hdesktop => exact setBinding_ne_panic hdesktop place value config
        · split
          · next hdevice =>
            rw [setRule_eq_panic_iff .syspath hdevice.1 hdevice.2]
            exact fun h => hkeys .syspath h.1
          · split
            · next htype =>
              rw [setRule_eq_panic_iff .devtype htype.1 htype.2]
              exact fun h => hkeys .devtype h.1
            · simp

/-- A line that sets the profile of a rule without a match text. -/
def ShortRuleLine (line : List Char) : Prop :=
  Text.byteLength line ≤ 511 ∧ ∃ key value, ReadsAs line key value ∧
    ShortRuleKey key ∧ (Profile.parse value).isSome

theorem applyLine_eq_panic_iff (place : Place) (line : List Char)
    (config : Config) :
    applyLine place line config = .panic ↔ ShortRuleLine line := by
  constructor
  · intro hpanic
    rcases applyLine_cases place line config with ⟨message, herr⟩ | hok |
      ⟨key, value, hlength, hreads, hset⟩
    · rw [herr] at hpanic
      exact absurd hpanic (by simp)
    · rw [hok] at hpanic
      exact absurd hpanic (by simp)
    · rw [hset, setKey_eq_panic_iff] at hpanic
      exact ⟨hlength, key, value, hreads, hpanic⟩
  · rintro ⟨hlength, key, value, hreads, hshort⟩
    rw [applyLine_of_reads hlength hreads, setKey_eq_panic_iff]
    exact hshort

/-- A raw line whose text is such a line. -/
def ShortRuleRaw (raw : List UInt8) : Prop :=
  ∃ text, Text.decode raw = some text ∧ ShortRuleLine text

theorem applyRaw_eq_panic_iff (place : Place) (raw : List UInt8)
    (config : Config) :
    applyRaw place raw config = .panic ↔ ShortRuleRaw raw := by
  constructor
  · intro hpanic
    rcases applyRaw_cases place raw config with ⟨message, herr⟩ |
      ⟨text, hdecode, _, hline⟩
    · rw [herr] at hpanic
      exact absurd hpanic (by simp)
    · rw [hline, applyLine_eq_panic_iff] at hpanic
      exact ⟨text, hdecode, hpanic⟩
  · rintro ⟨text, hdecode, hshort⟩
    rw [applyRaw_of_decode hdecode hshort.1, applyLine_eq_panic_iff]
    exact hshort

/-- The lines up to some such line are all accepted. -/
def ReachesShortRule (path : String) (no : Nat) (raws : List (List UInt8))
    (config : Config) : Prop :=
  ∃ front raw back, raws = front ++ raw :: back ∧
    (∃ next, applyLines path no front config = .ok next) ∧ ShortRuleRaw raw

theorem applyLines_eq_panic_iff (path : String) (no : Nat)
    (raws : List (List UInt8)) (config : Config) :
    applyLines path no raws config = .panic ↔
      ReachesShortRule path no raws config := by
  constructor
  · induction raws generalizing no config with
    | nil =>
        intro hpanic
        exact absurd hpanic (by simp [applyLines])
    | cons raw raws ih =>
        intro hpanic
        rw [applyLines] at hpanic
        cases hraw : applyRaw ⟨path, no⟩ raw config with
        | ok next =>
            rw [hraw] at hpanic
            obtain ⟨front, short, back, hraws, ⟨final, hfront⟩, hshort⟩ :=
              ih (no + 1) next hpanic
            refine ⟨raw :: front, short, back, by rw [hraws]; rfl, ⟨final, ?_⟩,
              hshort⟩
            rw [applyLines, hraw]
            exact hfront
        | err error next =>
            rw [hraw] at hpanic
            exact absurd hpanic (by simp [Outcome.andThen])
        | panic =>
            exact ⟨[], raw, raws, rfl, ⟨config, rfl⟩,
              (applyRaw_eq_panic_iff _ raw config).mp hraw⟩
  · rintro ⟨front, raw, back, rfl, ⟨next, hfront⟩, hshort⟩
    rw [applyLines_append, hfront, Outcome.andThen, applyLines,
      (applyRaw_eq_panic_iff _ raw next).mpr hshort, Outcome.andThen]

theorem parseBytes_eq_panic_iff (path : String) (bytes : List UInt8) :
    parseBytes path bytes = .panic ↔ applyBytes path bytes {} = .panic := by
  unfold parseBytes
  cases applyBytes path bytes {} with
  | ok config =>
      simp only
      cases config.validate <;> simp
  | err error config => simp
  | panic => simp

/-- The parser stops the program exactly when it reaches a rule line whose key
has no match text and whose value is a profile. -/
theorem panics_iff_shortRule (place : Place) (line : List Char) (path : String)
    (bytes : List UInt8) (config : Config) :
    (applyLine place line config = .panic ↔ ShortRuleLine line) ∧
    (applyBytes path bytes config = .panic ↔
      ReachesShortRule path 1 (rawLines bytes) config) ∧
    (parseBytes path bytes = .panic ↔
      ReachesShortRule path 1 (rawLines bytes) {}) := by
  refine ⟨applyLine_eq_panic_iff place line config, ?_, ?_⟩
  · rw [applyBytes_eq, applyLines_eq_panic_iff]
  · rw [parseBytes_eq_panic_iff, applyBytes_eq, applyLines_eq_panic_iff]

theorem shortRuleLine_both : ShortRuleLine "device.profile=both".toList :=
  ⟨by decide, "device.profile", "both",
    ⟨"device.profile".toList, "both".toList, by decide, by decide, by decide, by decide⟩,
    .inl rfl, by decide⟩

/-- The file with that line alone reaches it at once. -/
theorem reachesShortRule_both (path : String) (config : Config) :
    ReachesShortRule path 1 (rawLines (Text.encode "device.profile=both".toList)) config :=
  ⟨[], Text.encode "device.profile=both".toList, [], by decide, ⟨config, rfl⟩, _,
    Text.decode_encode _, shortRuleLine_both⟩

/-- A file with the single line `device.profile=both` stops the program. -/
theorem parseBytes_can_panic :
    parseBytes "wiilandd.conf" (Text.encode "device.profile=both".toList) =
      .panic := by
  rw [parseBytes_eq_panic_iff, applyBytes_eq, applyLines_eq_panic_iff]
  exact reachesShortRule_both "wiilandd.conf" {}

end Wiiland
