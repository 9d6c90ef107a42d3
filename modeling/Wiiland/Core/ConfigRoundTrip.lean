/-
The canonical dump of a loaded configuration loads back to it, except when the
text it was loaded from ends, without a line feed, in a rule line that already
has the maximum length: the line feed of the dump pushes it over the limit.
-/
import Wiiland.Core.ConfigDump

namespace Wiiland

open Text (trim)

/-- The bytes of a dump. -/
def dumpBytes (config : Config) : List UInt8 := Text.encode (dump config).toList

theorem toList_foldl_entries (entries : List (String × String)) (out : String) :
    (entries.foldl (fun out entry => out ++ (entry.1 ++ "=" ++ entry.2) ++ "\n")
      out).toList =
        out.toList ++ entries.flatMap fun entry => entryText entry ++ ['\n'] := by
  induction entries generalizing out with
  | nil => simp
  | cons entry entries ih =>
      rw [List.foldl_cons, ih]
      simp [entryText, String.toList_append]

theorem dumpBytes_eq (config : Config) :
    dumpBytes config = (dumpEntries config).flatMap entryBytes := by
  have hencode : ∀ entries : List (String × String),
      Text.encode (entries.flatMap fun entry => entryText entry ++ ['\n']) =
        entries.flatMap entryBytes := by
    intro entries
    induction entries with
    | nil => rfl
    | cons entry entries ih =>
        rw [List.flatMap_cons, List.flatMap_cons, Text.encode_append, ih,
          ← entryBytes_eq_encode]
  have hdump := toList_foldl_entries (dumpEntries config) ""
  rw [dumpBytes, dump, hdump]
  exact hencode _

theorem lineFeed_mem_encode {text : List Char} :
    lineFeed ∈ Text.encode text ↔ '\n' ∈ text :=
  @Text.mem_encode_of_ascii '\n' (by decide) text

/-- The raw lines of a dump are its dumped lines. -/
theorem rawLines_dumpBytes {config : Config}
    (hfeed : ∀ entry ∈ dumpEntries config, '\n' ∉ entryText entry) :
    rawLines (dumpBytes config) = (dumpEntries config).map entryBytes := by
  have hglue : dumpBytes config = Lines.glue lineFeed
      ((dumpEntries config).map fun entry => Text.encode (entryText entry)) [] := by
    rw [dumpBytes_eq, Lines.glue, List.append_nil, List.flatMap_map]
    rfl
  have hcut := @Lines.cut_glue _ _ lineFeed
    ((dumpEntries config).map fun entry => Text.encode (entryText entry)) []
    (by
      intro line hline
      obtain ⟨entry, hentry, rfl⟩ := List.mem_map.mp hline
      rw [lineFeed_mem_encode]
      exact hfeed entry hentry) List.not_mem_nil
  rw [hglue, rawLines, hcut]
  simp [entryBytes, Function.comp_def]

/-- Accepted lines respect the line limit. -/
theorem length_le_of_applyLines {path : String} {no : Nat}
    {raws : List (List UInt8)} {config next : Config}
    (hok : applyLines path no raws config = .ok next) :
    ∀ raw ∈ raws, raw.length ≤ 511 := by
  induction raws generalizing no config with
  | nil => exact fun raw hraw => absurd hraw List.not_mem_nil
  | cons raw raws ih =>
      obtain ⟨middle, hraw, hraws⟩ := applyLines_ok_cons hok
      intro other hother
      rcases List.mem_cons.mp hother with rfl | hmem
      · by_contra hlong
        have hlimit : maxLineBytes - 1 < other.length := by
          rw [maxLineBytes]
          omega
        rw [applyRaw, if_pos hlimit] at hraw
        cases hraw
      · exact ih hraws other hmem

/-- A raw line spells a rule when it reads as the rule's dumped line. -/
def Spells (raw : List UInt8) (rule : DeviceRule) : Prop :=
  ∃ text, Text.decode raw = some text ∧
    ReadsAs text rule.entry.1 rule.entry.2

theorem fixedKey_deviceRules {place : Place} {key value : String}
    {set : Config → Outcome} {config next : Config}
    (hset : fixedKey place key value = some set) (hok : set config = .ok next) :
    next.deviceRules = config.deviceRules := by
  unfold fixedKey at hset
  split at hset <;> cases hset <;>
    first
      | (rw [setBackend_eq_ok hok])
      | (obtain ⟨v, _, rfl⟩ := setChoice_eq_ok hok; rfl)
      | (obtain ⟨v, _, _, rfl⟩ := setInt_eq_ok hok; rfl)

theorem entry_value_of_parse {rule : DeviceRule} {value : String}
    (hvalue : Profile.parse value = some rule.profile) : rule.entry.2 = value := by
  rw [DeviceRule.entry, (Profile.asStr_of_parse hvalue).2]
  rfl

/-- A rule after an accepted line was there before, or the line spells it. -/
theorem applyRaw_rule {place : Place} {raw : List UInt8} {config next : Config}
    (hok : applyRaw place raw config = .ok next) {rule : DeviceRule}
    (hrule : rule ∈ next.deviceRules) :
    rule ∈ config.deviceRules ∨ Spells raw rule := by
  rcases applyRaw_cases place raw config with ⟨message, herr⟩ |
    ⟨text, hdecode, hlength, hline⟩
  · rw [herr] at hok
    cases hok
  rw [hline] at hok
  rcases applyLine_cases place text config with ⟨message, herr⟩ | hsame |
    ⟨key, value, _, hreads, hset⟩
  · rw [herr] at hok
    cases hok
  · rw [hsame] at hok
    cases hok
    exact .inl hrule
  rw [hset] at hok
  rcases setKey_eq_ok hok with ⟨set, hfixed, hok⟩ | ⟨bindings, rfl⟩ |
    ⟨last, _, hkey, hvalue, _, rfl⟩
  · rw [fixedKey_deviceRules hfixed hok] at hrule
    exact .inl hrule
  · exact .inl hrule
  · rcases List.mem_append.mp hrule with hmem | hmem
    · exact .inl (List.eraseP_sublist.subset hmem)
    · right
      rw [List.mem_singleton.mp hmem]
      refine ⟨text, hdecode, ?_⟩
      rw [← hkey, entry_value_of_parse hvalue]
      exact hreads

/-- Every rule of a loaded configuration is spelled by one of the lines. -/
theorem applyLines_rule {path : String} {no : Nat} {raws : List (List UInt8)}
    {config next : Config} (hok : applyLines path no raws config = .ok next)
    {rule : DeviceRule} (hrule : rule ∈ next.deviceRules) :
    rule ∈ config.deviceRules ∨ ∃ raw ∈ raws, Spells raw rule := by
  induction raws generalizing no config with
  | nil =>
      cases hok
      exact .inl hrule
  | cons raw raws ih =>
      obtain ⟨middle, hraw, hraws⟩ := applyLines_ok_cons hok
      rcases ih hraws with hmem | ⟨line, hline, hspells⟩
      · rcases applyRaw_rule hraw hmem with hold | hspells
        · exact .inl hold
        · exact .inr ⟨raw, List.mem_cons_self, hspells⟩
      · exact .inr ⟨line, List.mem_cons_of_mem raw hline, hspells⟩

/-- A raw line holds a line feed at its end or nowhere. -/
theorem mem_rawLines {bytes raw : List UInt8} (hraw : raw ∈ rawLines bytes) :
    lineFeed ∉ raw.dropLast ∧
      (raw = (Lines.cut lineFeed bytes).2 ∨ lineFeed ∈ raw) := by
  have hcut := Lines.not_mem_cut lineFeed bytes
  rcases List.mem_append.mp hraw with hline | hrest
  · obtain ⟨line, hmem, rfl⟩ := List.mem_map.mp hline
    rw [List.dropLast_concat]
    exact ⟨hcut.1 line hmem, .inr (List.mem_append_right _ List.mem_cons_self)⟩
  · split at hrest
    · exact absurd hrest List.not_mem_nil
    · rw [List.mem_singleton.mp hrest]
      exact ⟨fun hmem => hcut.2 (List.mem_of_mem_dropLast hmem), .inl rfl⟩

/-- The line that spells a rule is at least as long as its dumped line, and
equal to it when it is no longer. -/
theorem ReadsAs.length_le {text : List Char} {entry : String × String}
    (hreads : ReadsAs text entry.1 entry.2) :
    Text.byteLength (entryText entry) ≤ Text.byteLength text ∧
      (Text.byteLength text ≤ Text.byteLength (entryText entry) →
        text = entryText entry) := by
  obtain ⟨before, after, hline, _, hkey, hvalue⟩ := hreads
  obtain ⟨left, right, _, _, hbefore⟩ := Text.exists_trim isBlank before
  obtain ⟨left', right', _, _, hafter⟩ := Text.exists_trim isBlank after
  rw [hkey] at hbefore
  rw [hvalue] at hafter
  have htext : text = before ++ '=' :: after ++ text.dropWhile (· != '#') := by
    rw [← hline, List.takeWhile_append_dropWhile]
  generalize text.dropWhile (· != '#') = comment at htext
  have hlength : Text.byteLength text =
      Text.byteLength left + Text.byteLength right + Text.byteLength left' +
        Text.byteLength right' + Text.byteLength comment +
          Text.byteLength (entryText entry) := by
    rw [htext, hbefore, hafter, entryText]
    simp only [Text.byteLength_append, Text.byteLength_cons]
    omega
  refine ⟨by omega, fun hle => ?_⟩
  have hleft : left = [] := Text.byteLength_eq_zero.mp (by omega)
  have hright : right = [] := Text.byteLength_eq_zero.mp (by omega)
  have hleft' : left' = [] := Text.byteLength_eq_zero.mp (by omega)
  have hright' : right' = [] := Text.byteLength_eq_zero.mp (by omega)
  have hcomment : comment = [] := Text.byteLength_eq_zero.mp (by omega)
  rw [htext, hbefore, hafter, hleft, hright, hleft', hright', hcomment, entryText]
  simp

theorem plain_entry_value {rule : DeviceRule}
    (hprofile : rule.profile.isValid = true) : Plain rule.entry.2 := by
  change Plain (rule.profile.asStr.getD "unknown")
  rcases rule.profile.isValid_iff.mp hprofile with h | h | h <;>
    rw [h] <;> decide

/-- A rule spelled by a raw line prints as a line the parser reads back. -/
theorem Spells.printable {raw : List UInt8} {rule : DeviceRule}
    (hspells : Spells raw rule) (hraw : lineFeed ∉ raw.dropLast)
    (hprofile : rule.profile.isValid = true) : Printable rule.entry := by
  obtain ⟨text, hdecode, before, after, hline, hbefore, hkey, _⟩ := hspells
  have hvalue := plain_entry_value hprofile
  have hsub : ∀ c ∈ rule.entry.1.toList, c ∈ before := by
    intro c hc
    obtain ⟨left, right, _, _, hsplit⟩ := Text.exists_trim isBlank before
    rw [hsplit, hkey]
    exact List.mem_append_left _ (List.mem_append_right _ hc)
  have hcomment : '#' ∉ before := by
    intro hmem
    have htake : '#' ∈ text.takeWhile (· != '#') := by
      rw [hline]
      exact List.mem_append_left _ hmem
    exact absurd (List.mem_takeWhile_imp htake) (by decide)
  have hfeed : '\n' ∉ before := by
    intro hmem
    apply hraw
    have htext : text = before ++ '=' :: (after ++ text.dropWhile (· != '#')) := by
      calc text = text.takeWhile (· != '#') ++ text.dropWhile (· != '#') :=
            List.takeWhile_append_dropWhile.symm
        _ = _ := by rw [hline, List.append_assoc, List.cons_append]
    rw [← Text.encode_of_decode hdecode, htext, Text.encode_append,
      List.dropLast_append_of_ne_nil (by simp [Text.encode])]
    exact List.mem_append_left _ (lineFeed_mem_encode.mpr hmem)
  refine ⟨?_, hvalue.trimmed, fun hmem => hbefore (hsub _ hmem), ?_, ?_⟩
  · rw [← hkey]
    exact Text.trimmed_trim before
  · rw [entryText, List.mem_append, List.mem_cons, not_or, not_or]
    exact ⟨fun hmem => hcomment (hsub _ hmem), by decide,
      fun hmem => (hvalue.chars _ hmem).2.1 rfl⟩
  · rw [entryText, List.mem_append, List.mem_cons, not_or, not_or]
    exact ⟨fun hmem => hfeed (hsub _ hmem), by decide, hvalue.noFeed⟩

/-- The text ends, without a line feed, in a line of the maximum length that
is a device rule with nothing around its key and its value. -/
def EndsInFullRule (bytes : List UInt8) : Prop :=
  ∃ rule : DeviceRule, rule.profile.isValid = true ∧
    '#' ∉ rule.matchText.toList ∧ '=' ∉ rule.matchText.toList ∧
      (Lines.cut lineFeed bytes).2 = Text.encode (entryText rule.entry) ∧
        (Lines.cut lineFeed bytes).2.length = 511

theorem parseBytes_eq_ok {path : String} {bytes : List UInt8} {config : Config} :
    parseBytes path bytes = .ok config ↔
      applyLines path 1 (rawLines bytes) {} = .ok config ∧
        config.validate = .ok () := by
  rw [← applyBytes_eq]
  unfold parseBytes
  cases applyBytes path bytes {} with
  | ok next =>
      cases hvalid : next.validate with
      | ok _ =>
          simp only [hvalid, Parsed.ok.injEq, Outcome.ok.injEq]
          constructor
          · rintro rfl
            exact ⟨rfl, hvalid⟩
          · exact fun h => h.1
      | error error =>
          simp only [hvalid, Outcome.ok.injEq, reduceCtorEq, false_iff]
          rintro ⟨rfl, hok⟩
          rw [hvalid] at hok
          cases hok
  | err error next => simp
  | panic => simp

/-- The rules of a loaded configuration print as lines that read back. -/
theorem rules_printable {path : String} {no : Nat} {bytes : List UInt8}
    {config : Config} (hok : applyLines path no (rawLines bytes) {} = .ok config) :
    ∀ rule ∈ config.deviceRules, Printable rule.entry := by
  intro rule hrule
  have hvalid :=
    ((applyLines_wellFormed Config.wellFormed_default hok).rules rule hrule).2
  rcases applyLines_rule hok hrule with hmem | ⟨raw, hraw, hspells⟩
  · exact absurd hmem List.not_mem_nil
  · exact hspells.printable (mem_rawLines hraw).1 hvalid

/-- A rule whose dumped line is too long was the full last line. -/
theorem fits_or_endsInFullRule {path : String} {no : Nat} {bytes : List UInt8}
    {config : Config} (hok : applyLines path no (rawLines bytes) {} = .ok config)
    {rule : DeviceRule} (hrule : rule ∈ config.deviceRules) :
    Fits rule.entry ∨ EndsInFullRule bytes := by
  by_cases hfits : Fits rule.entry
  · exact .inl hfits
  right
  have hprintable := rules_printable hok rule hrule
  have hvalid :=
    ((applyLines_wellFormed Config.wellFormed_default hok).rules rule hrule).2
  rcases applyLines_rule hok hrule with hmem | ⟨raw, hraw, text, hdecode, hreads⟩
  · exact absurd hmem List.not_mem_nil
  have hlimit := length_le_of_applyLines hok raw hraw
  have hencode := Text.encode_of_decode hdecode
  have hsize : raw.length = Text.byteLength text := by
    rw [← hencode, Text.length_encode]
  obtain ⟨hle, hsame⟩ := hreads.length_le
  rw [Fits] at hfits
  have htext : text = entryText rule.entry := hsame (by omega)
  have hbytes : raw = Text.encode (entryText rule.entry) := by
    rw [← htext, hencode]
  have hrest : raw = (Lines.cut lineFeed bytes).2 := by
    rcases (mem_rawLines hraw).2 with hrest | hfeed
    · exact hrest
    · rw [hbytes, lineFeed_mem_encode] at hfeed
      exact absurd hfeed hprintable.noFeed
  have hmatch : ∀ c ∈ rule.matchText.toList, c ∈ rule.entry.1.toList := by
    intro c hc
    rw [toList_entry_key]
    exact List.mem_append_left _ (List.mem_append_right _ hc)
  refine ⟨rule, hvalid, ?_, fun hmem => hprintable.noEquals (hmatch _ hmem),
    by rw [← hrest, hbytes], ?_⟩
  · intro hmem
    exact hprintable.noComment (List.mem_append_left _ (hmatch _ hmem))
  · rw [← hrest]
    omega

/-- The key of a rule is trimmed, whatever its match text. -/
theorem trimmed_entry_key (rule : DeviceRule) :
    Text.Trimmed isBlank rule.entry.1.toList := by
  intro hne
  have hkey := toList_entry_key rule
  constructor
  · cases hkind : rule.kind with
    | syspath =>
        have hhead : rule.entry.1.toList.head? = some 'd' := by
          rw [hkey, hkind]
          rfl
        rw [List.head_eq_iff_head?_eq_some hne |>.mpr hhead]
        rfl
    | devtype =>
        have hhead : rule.entry.1.toList.head? = some 'd' := by
          rw [hkey, hkind]
          rfl
        rw [List.head_eq_iff_head?_eq_some hne |>.mpr hhead]
        rfl
  · have hlast : rule.entry.1.toList.getLast? = some 'e' := by
      rw [hkey, List.getLast?_append]
      rfl
    rw [List.getLast_eq_iff_getLast?_eq_some hne |>.mpr hlast]
    rfl

/-- A rule with an ordinary match text prints as a line that reads back. -/
theorem printable_entry {rule : DeviceRule} (hprofile : rule.profile.isValid = true)
    (hcomment : '#' ∉ rule.matchText.toList) (hequals : '=' ∉ rule.matchText.toList)
    (hfeed : '\n' ∉ rule.matchText.toList) : Printable rule.entry := by
  have hvalue := plain_entry_value hprofile
  have hkey : ∀ c, c ∉ rule.matchText.toList →
      c ∉ ("device-type" ++ "." ++ ".profile").toList → c ∉ rule.entry.1.toList := by
    intro c htext hrest
    rw [toList_entry_key]
    simp only [String.toList_append, List.mem_append, not_or] at hrest ⊢
    refine ⟨⟨⟨?_, hrest.1.2⟩, htext⟩, hrest.2⟩
    cases rule.kind with
    | devtype => exact hrest.1.1
    | syspath =>
        have hsub : "device".toList <+: "device-type".toList := by decide
        exact fun hmem => hrest.1.1 (hsub.subset hmem)
  refine ⟨trimmed_entry_key rule, hvalue.trimmed,
    hkey '=' hequals (by decide), ?_, ?_⟩
  · rw [entryText, List.mem_append, List.mem_cons, not_or, not_or]
    exact ⟨hkey '#' hcomment (by decide), by decide,
      fun hmem => (hvalue.chars _ hmem).2.1 rfl⟩
  · rw [entryText, List.mem_append, List.mem_cons, not_or, not_or]
    exact ⟨hkey '\n' hfeed (by decide), by decide, hvalue.noFeed⟩

/-- A full last rule line is loaded as a rule whose dumped line is too long. -/
theorem exists_not_fits {path : String} {bytes : List UInt8} {config : Config}
    (hok : applyLines path 1 (rawLines bytes) {} = .ok config)
    (hfull : EndsInFullRule bytes) :
    ∃ rule ∈ config.deviceRules, ¬Fits rule.entry := by
  obtain ⟨rule, hprofile, hcomment, hequals, hrest, hlength⟩ := hfull
  have hsize : Text.byteLength (entryText rule.entry) = 511 := by
    rw [← hlength, hrest, Text.length_encode]
  have hfeed : '\n' ∉ rule.matchText.toList := by
    intro hmem
    apply (Lines.not_mem_cut lineFeed bytes).2
    rw [hrest, lineFeed_mem_encode, entryText, toList_entry_key]
    exact List.mem_append_left _ (List.mem_append_left _
      (List.mem_append_right _ hmem))
  have hreads := (printable_entry hprofile hcomment hequals hfeed).reads (.inl rfl)
  rw [List.append_nil] at hreads
  have hne : (Lines.cut lineFeed bytes).2 ≠ [] := by
    intro hnil
    rw [hnil] at hlength
    cases hlength
  have hlines : rawLines bytes =
      (Lines.cut lineFeed bytes).1.map (· ++ [lineFeed]) ++
        [Text.encode (entryText rule.entry)] := by
    rw [rawLines, if_neg hne, hrest]
  rw [hlines, applyLines_append] at hok
  cases hfront : applyLines path 1
      ((Lines.cut lineFeed bytes).1.map (· ++ [lineFeed])) {} with
  | err error next =>
      rw [hfront] at hok
      cases hok
  | panic =>
      rw [hfront] at hok
      cases hok
  | ok middle =>
      rw [hfront, Outcome.andThen] at hok
      obtain ⟨last, hraw, hlast⟩ := applyLines_ok_cons hok
      cases hlast
      rw [applyRaw_of_decode (Text.decode_encode _) (by omega),
        applyLine_of_reads (by omega) hreads, setKey_entry_key] at hraw
      have hkey := toList_entry_key rule
      obtain ⟨stored, _, hentry, hparse, _, rfl⟩ := setRule_eq_ok rule.kind
        (by rw [hkey, List.append_assoc]; exact List.prefix_append _ _)
        (by rw [hkey]; exact List.suffix_append _ _) hraw
      refine ⟨stored, List.mem_append_right _ List.mem_cons_self, ?_⟩
      have hsame : stored.entry = rule.entry :=
        Prod.ext hentry.symm (entry_value_of_parse hparse)
      rw [hsame, Fits]
      omega

theorem calibration_complete {config : Config} (hconfig : config.WellFormed)
    (hvalid : config.validate = .ok ()) :
    (∀ c ∈ config.aimAccelZero, c.complete = true) ∧
      ∀ c ∈ config.aimMotionPlusBias, c.complete = true := by
  obtain ⟨_, _, _, haccel, hmotion, _⟩ := config.validate_eq_ok_iff.mp hvalid
  constructor
  · intro c hc
    exact (haccel c hc).2.resolve_left (hconfig.accelZero c hc).started
  · intro c hc
    exact (hmotion c hc).2.resolve_left (hconfig.motionPlusBias c hc).started

/-- The dump of a loaded configuration loads back exactly when all its rule
lines fit. -/
theorem parseBytes_dump_iff_fits {path : String} {bytes : List UInt8}
    {config : Config} (hparse : parseBytes path bytes = .ok config) :
    parseBytes path (dumpBytes config) = .ok config ↔
      ∀ rule ∈ config.deviceRules, Fits rule.entry := by
  obtain ⟨happly, hvalid⟩ := parseBytes_eq_ok.mp hparse
  have hwell := applyLines_wellFormed Config.wellFormed_default happly
  have hprintable := rules_printable happly
  obtain ⟨haccel, hmotion⟩ := calibration_complete hwell hvalid
  have hfeed : ∀ entry ∈ dumpEntries config, '\n' ∉ entryText entry := by
    intro entry hentry
    rcases List.mem_append.mp hentry with hmem | hmem
    · exact ((loads_scalars hwell haccel hmotion).printable entry hmem).noFeed
    · obtain ⟨rule, hrule, rfl⟩ := List.mem_map.mp hmem
      exact (hprintable rule hrule).noFeed
  rw [parseBytes_eq_ok, rawLines_dumpBytes hfeed]
  constructor
  · rintro ⟨hok, _⟩ rule hrule
    have hmem : entryBytes rule.entry ∈ (dumpEntries config).map entryBytes :=
      List.mem_map_of_mem (List.mem_append_right _ (List.mem_map_of_mem hrule))
    have hlimit := length_le_of_applyLines hok _ hmem
    rw [length_entryBytes] at hlimit
    rw [Fits]
    omega
  · intro hfits
    exact ⟨(loads_dump hwell haccel hmotion hprintable hfits).applies path 1,
      hvalid⟩

/-- The dump of a loaded configuration loads back to it exactly when the text
it was loaded from does not end in a full rule line. -/
theorem parseBytes_dump_iff {path : String} {bytes : List UInt8}
    {config : Config} (hparse : parseBytes path bytes = .ok config) :
    parseBytes path (dumpBytes config) = .ok config ↔ ¬EndsInFullRule bytes := by
  obtain ⟨happly, _⟩ := parseBytes_eq_ok.mp hparse
  rw [parseBytes_dump_iff_fits hparse]
  constructor
  · intro hfits hfull
    obtain ⟨rule, hrule, hlong⟩ := exists_not_fits happly hfull
    exact hlong (hfits rule hrule)
  · intro hfull rule hrule
    exact (fits_or_endsInFullRule happly hrule).resolve_right hfull

def sampleText : List UInt8 :=
  Text.encode "# the desk\nir-screen-left=9\nir-screen-top=0\nir-screen-right=99\n".toList ++
    (Text.encode "ir-screen-bottom=9\naim-accel-zero-x=1\naim-accel-zero-y=-2\n".toList ++
      Text.encode "aim-accel-zero-z=100\ndevice-type.pro.profile=both # the pad\n".toList)

def sampleConfig : Config where
  irScreen := some ⟨9, 99, 0, 9⟩
  aimAccelZero := some ⟨1, -2, 100, 7⟩
  deviceRules := [⟨.devtype, "pro", .both⟩]

set_option maxRecDepth 2000 in
/-- The dump of a file with a screen, a calibration, a rule and comments loads back. -/
theorem parseBytes_dump_sample :
    parseBytes "wiilandd.conf" sampleText = .ok sampleConfig ∧
      parseBytes "wiilandd.conf" (dumpBytes sampleConfig) = .ok sampleConfig := by
  have hloads : parseBytes "wiilandd.conf" sampleText = .ok sampleConfig := by
    rw [sampleText, String.toList_ofList, String.toList_ofList, String.toList_ofList]
    rfl
  have hends : (Lines.cut lineFeed sampleText).2 = [] := by
    rw [sampleText, String.toList_ofList, String.toList_ofList, String.toList_ofList]
    rfl
  have hshort : ¬EndsInFullRule sampleText := by
    rintro ⟨_, _, _, _, _, hlength⟩
    rw [hends] at hlength
    cases hlength
  exact ⟨hloads, (parseBytes_dump_iff hloads).mpr hshort⟩

/-- A rule whose line, without a line feed, has 511 bytes. -/
def fullRule : DeviceRule :=
  ⟨.syspath, String.ofList (List.replicate 491 'x'), .both⟩

/-- The dump of a file with one full rule line and no line feed does not load. -/
theorem parseBytes_dump_fullRule :
    let bytes := Text.encode (entryText fullRule.entry)
    let config : Config := { deviceRules := [fullRule] }
    parseBytes "wiilandd.conf" bytes = .ok config ∧
      parseBytes "wiilandd.conf" (dumpBytes config) ≠ .ok config := by
  intro bytes config
  have htext : fullRule.matchText.toList = List.replicate 491 'x' :=
    String.toList_ofList
  have hne : fullRule.matchText ≠ "" := by
    intro hempty
    rw [hempty] at htext
    cases htext
  have hother : ∀ c, c ≠ 'x' → c ∉ fullRule.matchText.toList := by
    intro c hc hmem
    rw [htext] at hmem
    exact hc (List.eq_of_mem_replicate hmem)
  have hprintable : Printable fullRule.entry := printable_entry rfl
    (hother _ (by decide)) (hother _ (by decide)) (hother _ (by decide))
  have hsize : Text.byteLength (entryText fullRule.entry) = 511 := by
    have hxs : Text.byteLength (List.replicate 491 'x') = 491 := by
      rw [Text.byteLength_of_ascii, List.length_replicate]
      intro c hc
      rw [List.eq_of_mem_replicate hc]
      decide
    rw [entryText, toList_entry_key, htext]
    simp only [Text.byteLength_append, hxs]
    rfl
  have hfeed : lineFeed ∉ bytes := by
    rw [lineFeed_mem_encode]
    exact hprintable.noFeed
  have hlines : rawLines bytes = [bytes] := by
    apply rawLines_of_not_mem hfeed
    intro hnil
    have hlength := Text.length_encode (entryText fullRule.entry)
    change bytes.length = _ at hlength
    rw [hnil, hsize] at hlength
    cases hlength
  have hreads := hprintable.reads (.inl rfl)
  rw [List.append_nil] at hreads
  have hroom : HasRoom (Config.deviceRules {}) fullRule := .inr (by decide)
  have hparse : parseBytes "wiilandd.conf" bytes = .ok config := by
    rw [parseBytes_eq_ok, hlines]
    constructor
    · rw [applyLines, applyRaw_of_decode (Text.decode_encode _) (by omega),
        applyLine_of_reads (by omega) hreads, setKey_entry hne rfl _ hroom]
      rfl
    · rw [Config.validate_eq_ok_iff]
      refine ⟨by decide, by decide, by simp [config], by simp [config],
        by simp [config], by decide, ?_⟩
      intro rule hrule
      rw [List.mem_singleton.mp hrule]
      exact ⟨hne, rfl⟩
  refine ⟨hparse, fun hround => ?_⟩
  have hfits := (parseBytes_dump_iff_fits hparse).mp hround fullRule
    List.mem_cons_self
  rw [Fits] at hfits
  omega

end Wiiland
