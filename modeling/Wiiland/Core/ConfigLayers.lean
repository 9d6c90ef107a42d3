/-
Configuration layers.  A refused line changes nothing, a byte string is applied line
by line, and two layers are one when the first ends in a line feed.
-/
import Wiiland.Core.ConfigPanics

namespace Wiiland

/-- Two outcomes of one step at two places.  A refused step keeps the configuration it
was given, and its error names its place. -/
inductive Alike (config : Config) (place place' : Place) : Outcome → Outcome → Prop
  | ok (next : Config) : Alike config place place' (.ok next) (.ok next)
  | err (message : String) :
      Alike config place place' (.err (place.error message) config)
        (.err (place'.error message) config)
  | panic : Alike config place place' .panic .panic

namespace Alike

variable {config next : Config} {place place' : Place}

theorem keeps {outcome outcome' : Outcome} (halike : Alike config place place' outcome outcome')
    {error : ConfigError} (herr : outcome = .err error next) :
    next = config ∧ ∃ message, error = place.error message := by
  cases halike with
  | ok next => cases herr
  | err message =>
      cases herr
      exact ⟨rfl, message, rfl⟩
  | panic => cases herr

theorem ok_iff {outcome outcome' : Outcome}
    (halike : Alike config place place' outcome outcome') :
    outcome = .ok next ↔ outcome' = .ok next := by
  cases halike <;> simp

variable (config place place')

theorem setInt (key value : String) (min max : Int) (store : Int → Config → Config) :
    Alike config place place' (setInt place key value min max store config)
      (Wiiland.setInt place' key value min max store config) := by
  unfold Wiiland.setInt
  cases parseInt value min max with
  | none => exact .err _
  | some v => exact .ok _

theorem setChoice {A : Type} (key value : String) (parse : String → Option A)
    (store : A → Config → Config) :
    Alike config place place' (setChoice place key value parse store config)
      (Wiiland.setChoice place' key value parse store config) := by
  unfold Wiiland.setChoice
  cases parse value with
  | none => exact .err _
  | some v => exact .ok _

theorem setBackend (key value : String) :
    Alike config place place' (setBackend place key value config)
      (Wiiland.setBackend place' key value config) := by
  unfold Wiiland.setBackend
  by_cases hvalue : value = "uinput"
  · simp only [hvalue, if_true]
    exact .ok _
  · simp only [hvalue, if_false]
    exact .err _

theorem setBinding (key value : String) :
    Alike config place place' (setBinding place key value config)
      (Wiiland.setBinding place' key value config) := by
  unfold Wiiland.setBinding
  cases Text.dropBytes key.toList 8 with
  | none => exact .panic
  | some name =>
      cases DesktopAction.parse value with
      | none => exact .err _
      | some action =>
          simp only
          cases config.desktopBindings.set (String.ofList name) action with
          | none => exact .err _
          | some bindings => exact .ok _

theorem storeRule (key : String) (kind : DeviceRuleKind) (matchText : String)
    (profile : Profile) :
    Alike config place place' (storeRule place key kind matchText profile config)
      (Wiiland.storeRule place' key kind matchText profile config) := by
  unfold Wiiland.storeRule
  cases config.deviceRules.find? (·.matches kind matchText) with
  | some rule => exact .ok _
  | none =>
      by_cases hfull : maxDeviceRules ≤ config.deviceRules.length
      · simp only [hfull, if_true]
        exact .err _
      · simp only [hfull, if_false]
        exact .ok _

theorem setRule (key value : String) (kind : DeviceRuleKind) :
    Alike config place place' (setRule place key value kind config)
      (Wiiland.setRule place' key value kind config) := by
  unfold Wiiland.setRule
  cases Profile.parse value with
  | none => exact .err _
  | some profile =>
      simp only
      cases Text.slice key.toList (Text.byteLength kind.keyPrefix.toList + 1)
          (Text.byteLength key.toList - 8) with
      | none => exact .panic
      | some middle =>
          by_cases hmiddle : middle = []
          · simp only [hmiddle, if_true]
            exact .err _
          · simp only [hmiddle, if_false]
            exact storeRule config place place' key kind _ profile

/-- Every arm with a fixed key checks before it stores. -/
theorem fixedKey {key value : String} {set : Config → Outcome}
    (hset : fixedKey place key value = some set) :
    ∃ set', Wiiland.fixedKey place' key value = some set' ∧
      Alike config place place' (set config) (set' config) := by
  unfold Wiiland.fixedKey at hset
  split at hset <;> cases hset
  all_goals
    refine ⟨_, rfl, ?_⟩
    first
      | exact setBackend config place place' _ value
      | exact setChoice config place place' _ value _ _
      | exact setInt config place place' _ value _ _ _

theorem setKey (key value : String) :
    Alike config place place' (setKey place key value config)
      (Wiiland.setKey place' key value config) := by
  unfold Wiiland.setKey
  cases hfixed : Wiiland.fixedKey place key value with
  | some set =>
      obtain ⟨set', hset', halike⟩ := fixedKey config place place' hfixed
      rw [hset']
      exact halike
  | none =>
      cases hfixed' : Wiiland.fixedKey place' key value with
      | some set' =>
          obtain ⟨set, hset, _⟩ := fixedKey config place' place hfixed'
          rw [hfixed] at hset
          cases hset
      | none =>
          simp only
          split
          · exact setBinding config place place' key value
          · split
            · exact setRule config place place' key value .syspath
            · split
              · exact setRule config place place' key value .devtype
              · exact .err _

theorem applyLine (line : List Char) :
    Alike config place place' (applyLine place line config)
      (Wiiland.applyLine place' line config) := by
  unfold Wiiland.applyLine
  by_cases hlong : maxLineBytes - 1 < Text.byteLength line
  · simp only [hlong, if_true]
    exact .err _
  · simp only [hlong, if_false]
    by_cases hblank : Text.trim isBlank (line.takeWhile (· != '#')) = []
    · simp only [hblank, if_true]
      exact .ok _
    · simp only [hblank, if_false]
      cases Text.find '=' (Text.trim isBlank (line.takeWhile (· != '#'))) with
      | none => exact .err _
      | some eq =>
          simp only
          split
          · exact setKey config place place' _ _
          · exact .panic

theorem applyRaw (raw : List UInt8) :
    Alike config place place' (applyRaw place raw config)
      (Wiiland.applyRaw place' raw config) := by
  unfold Wiiland.applyRaw
  by_cases hlong : maxLineBytes - 1 < raw.length
  · simp only [hlong, if_true]
    exact .err _
  · simp only [hlong, if_false]
    cases Text.decode raw with
    | none => exact .err _
    | some text => exact applyLine config place place' text

end Alike

/-- Raw lines applied in order are accepted at every place or at none. -/
theorem applyLines_place {path path' : String} {no no' : Nat} {raws : List (List UInt8)}
    {config final : Config} (hok : applyLines path no raws config = .ok final) :
    applyLines path' no' raws config = .ok final := by
  induction raws generalizing no no' config with
  | nil => exact hok
  | cons raw raws ih =>
      obtain ⟨next, hraw, hrest⟩ := applyLines_ok_cons hok
      have hraw' := (Alike.applyRaw config ⟨path, no⟩ ⟨path', no'⟩ raw).ok_iff.mp hraw
      rw [applyLines, hraw']
      exact ih hrest

/-- Raw lines accepted one after the other, numbered from `no`. -/
inductive Accepted (path : String) : Nat → List (List UInt8) → Config → Config → Prop
  | nil {no : Nat} {config : Config} : Accepted path no [] config config
  | cons {no : Nat} {raw : List UInt8} {raws : List (List UInt8)}
      {config next final : Config} (hraw : applyRaw ⟨path, no⟩ raw config = .ok next)
      (hrest : Accepted path (no + 1) raws next final) :
      Accepted path no (raw :: raws) config final

theorem accepted_iff {path : String} {no : Nat} {raws : List (List UInt8)}
    {config final : Config} :
    Accepted path no raws config final ↔ applyLines path no raws config = .ok final := by
  constructor
  · intro haccepted
    induction haccepted with
    | nil => rfl
    | cons hraw hrest ih =>
        rw [applyLines, hraw]
        exact ih
  · intro hok
    induction raws generalizing no config with
    | nil =>
        cases hok
        exact .nil
    | cons raw raws ih =>
        obtain ⟨next, hraw, hrest⟩ := applyLines_ok_cons hok
        exact .cons hraw (ih hrest)

/-- The lines before the first bad one are accepted. -/
theorem applyLines_err {path : String} {no : Nat} {raws : List (List UInt8)}
    {config final : Config} {error : ConfigError}
    (herr : applyLines path no raws config = .err error final) :
    ∃ before raw after, raws = before ++ raw :: after ∧
      Accepted path no before config final ∧
        applyRaw ⟨path, no + before.length⟩ raw final = .err error final := by
  induction raws generalizing no config with
  | nil => cases herr
  | cons raw raws ih =>
      rw [applyLines] at herr
      cases hraw : applyRaw ⟨path, no⟩ raw config with
      | ok next =>
          rw [hraw] at herr
          obtain ⟨before, bad, after, rfl, hbefore, hbad⟩ := ih herr
          refine ⟨raw :: before, bad, after, rfl, .cons hraw hbefore, ?_⟩
          rw [List.length_cons, Nat.add_comm before.length, ← Nat.add_assoc]
          exact hbad
      | err bad next =>
          rw [hraw] at herr
          cases herr
          have hkeeps := (Alike.applyRaw config ⟨path, no⟩ ⟨path, no⟩ raw).keeps hraw
          obtain rfl := hkeeps.1
          exact ⟨[], raw, raws, rfl, .nil, hraw⟩
      | panic =>
          rw [hraw] at herr
          cases herr

/-- A byte string is applied line by line: all its lines in order, or the lines before
the first bad one, which the error numbers from one. -/
def LineWise (path : String) (bytes : List UInt8) (config : Config) : Prop :=
  (∃ final, Accepted path 1 (rawLines bytes) config final ∧
    applyBytes path bytes config = .ok final) ∨
  ∃ before raw after middle message, rawLines bytes = before ++ raw :: after ∧
    Accepted path 1 before config middle ∧
    applyRaw ⟨path, before.length + 1⟩ raw middle =
      .err ⟨path, some (before.length + 1), message⟩ middle ∧
    applyBytes path bytes config = .err ⟨path, some (before.length + 1), message⟩ middle

theorem lineWise_iff (path : String) (bytes : List UInt8) (config : Config) :
    LineWise path bytes config ↔ applyBytes path bytes config ≠ .panic := by
  constructor
  · rintro (⟨final, _, hok⟩ | ⟨before, raw, after, middle, message, _, _, _, herr⟩) hpanic
    · rw [hok] at hpanic
      cases hpanic
    · rw [herr] at hpanic
      cases hpanic
  · intro hsome
    cases hbytes : applyBytes path bytes config with
    | ok final =>
        refine .inl ⟨final, accepted_iff.mpr ?_, hbytes⟩
        rw [← applyBytes_eq, hbytes]
    | err error middle =>
        obtain ⟨before, raw, after, hsplit, hbefore, hraw⟩ :=
          applyLines_err ((applyBytes_eq path bytes config).symm.trans hbytes)
        obtain ⟨_, message, rfl⟩ := (Alike.applyRaw middle _ ⟨path, 1⟩ raw).keeps hraw
        rw [Nat.add_comm] at hraw
        rw [Nat.add_comm] at hbytes
        exact .inr ⟨before, raw, after, middle, message, hsplit, hbefore, hraw, hbytes⟩
    | panic => exact absurd hbytes hsome

/-- A byte string that is empty or ends in a line feed leaves no unfinished line. -/
theorem rawLines_append {front : List UInt8}
    (hfront : front = [] ∨ ∃ body, front = body ++ [lineFeed]) (back : List UInt8) :
    rawLines (front ++ back) = rawLines front ++ rawLines back := by
  have hrest : (Lines.cut lineFeed front).2 = [] := by
    rcases hfront with rfl | ⟨body, rfl⟩
    · rfl
    · rw [Lines.cut_append, Lines.cut_line (Lines.not_mem_cut lineFeed body).2]
      rfl
  rw [rawLines, Lines.cut_append, hrest, List.nil_append, List.map_append, rawLines, hrest,
    if_pos rfl, List.append_nil, List.append_assoc, rawLines]

/-- Two layers are one when the first ends in a line feed. -/
theorem layers_append {front : List UInt8}
    (hfront : front = [] ∨ ∃ body, front = body ++ [lineFeed]) (back : List UInt8)
    (path path' path'' : String) (config final : Config) :
    (∃ middle, applyBytes path front config = .ok middle ∧
      applyBytes path' back middle = .ok final) ↔
        applyBytes path'' (front ++ back) config = .ok final := by
  simp only [applyBytes_eq, rawLines_append hfront, applyLines_append]
  constructor
  · rintro ⟨middle, hfirst, hsecond⟩
    rw [applyLines_place hfirst]
    exact applyLines_place hsecond
  · intro hboth
    cases hfirst : applyLines path'' 1 (rawLines front) config with
    | ok middle =>
        rw [hfirst] at hboth
        exact ⟨middle, applyLines_place hfirst, applyLines_place hboth⟩
    | err error middle =>
        rw [hfirst] at hboth
        cases hboth
    | panic =>
        rw [hfirst] at hboth
        cases hboth

/-- Layering is line-wise unless a rule line without a match text is reached; a refused
line changes nothing, and a layer may be cut after any line feed. -/
theorem layering_iff (path : String) (bytes : List UInt8) (config : Config) :
    (LineWise path bytes config ↔ ¬ReachesShortRule path 1 (rawLines bytes) config) ∧
    (∀ place line error next, applyLine place line config = .err error next →
      next = config) ∧
    ∀ back path' path'' final, bytes = [] ∨ (∃ body, bytes = body ++ [lineFeed]) →
      ((∃ middle, applyBytes path bytes config = .ok middle ∧
        applyBytes path' back middle = .ok final) ↔
          applyBytes path'' (bytes ++ back) config = .ok final) := by
  refine ⟨?_, fun place line error next herr => ?_, fun back path' path'' final hbytes => ?_⟩
  · rw [lineWise_iff, ne_eq, applyBytes_eq, applyLines_eq_panic_iff]
  · exact ((Alike.applyLine config place place line).keeps herr).1
  · exact layers_append hbytes back path path' path'' config final

/-- The line `device.profile=both` is neither applied nor refused. -/
theorem both_not_lineWise :
    ¬LineWise "wiilandd.conf" (Text.encode "device.profile=both".toList) {} := by
  rw [lineWise_iff, not_not, applyBytes_eq, applyLines_eq_panic_iff]
  exact reachesShortRule_both "wiilandd.conf" {}

/-- What reading a file gives. -/
inductive FileRead where
  | bytes (bytes : List UInt8)
  | notFound (message : String)
  | failed (message : String)

/-- One layer; only a layer that is not required may be missing. -/
def readLayer (read : String → FileRead) (path : String) (required : Bool)
    (config : Config) : Outcome :=
  match read path with
  | .bytes bytes => applyBytes path bytes config
  | .notFound message => if required then .err ⟨path, none, message⟩ config else .ok config
  | .failed message => .err ⟨path, none, message⟩ config

/-- The check after the last layer. -/
def Outcome.validated : Outcome → Parsed
  | .ok config =>
      match config.validate with
      | .ok () => .ok config
      | .error error => .err error
  | .err error _ => .err error
  | .panic => .panic

def loadFile (read : String → FileRead) (path : String) : Parsed :=
  (readLayer read path true {}).validated

def loadLayers (read : String → FileRead) (system user explicit : Option String) : Parsed :=
  match explicit with
  | some path => (readLayer read path true {}).validated
  | none =>
      ((system.elim .ok fun path => readLayer read path false) {} |>.andThen
        (user.elim .ok fun path => readLayer read path false)).validated

theorem validated_eq_ok {outcome : Outcome} {config : Config} :
    outcome.validated = .ok config ↔ outcome = .ok config ∧ config.validate = .ok () := by
  cases outcome with
  | ok next =>
      simp only [Outcome.validated]
      cases hvalid : next.validate with
      | ok _ =>
          simp only [Parsed.ok.injEq, Outcome.ok.injEq]
          exact ⟨fun h => ⟨h, h ▸ hvalid⟩, fun h => h.1⟩
      | error error =>
          simp only [reduceCtorEq, Outcome.ok.injEq, false_iff]
          rintro ⟨rfl, hok⟩
          rw [hvalid] at hok
          cases hok
  | err error next => simp [Outcome.validated]
  | panic => simp [Outcome.validated]

/-- The system's layer and the user's load like one file of both. -/
theorem loadLayers_eq_ok {read : String → FileRead} {system user : String}
    {front back : List UInt8} (hsystem : read system = .bytes front)
    (huser : read user = .bytes back)
    (hfront : front = [] ∨ ∃ body, front = body ++ [lineFeed]) (path : String)
    (config : Config) :
    loadLayers read (some system) (some user) none = .ok config ↔
      parseBytes path (front ++ back) = .ok config := by
  have hparse : parseBytes path (front ++ back) =
      (applyBytes path (front ++ back) {}).validated := rfl
  rw [hparse, validated_eq_ok, ← layers_append hfront back system user path {} config,
    loadLayers, validated_eq_ok]
  refine and_congr_left fun _ => ?_
  simp only [Option.elim_some, readLayer, hsystem]
  cases applyBytes system front {} with
  | ok middle => simp [Outcome.andThen, readLayer, huser]
  | err error middle => simp [Outcome.andThen]
  | panic => simp [Outcome.andThen]

end Wiiland
