/-
Configuration text line by line.  A byte string is applied as the list of its
raw lines, and a line is applied as the key and the value it reads as.
-/
import Wiiland.Core.ConfigText
import Wiiland.Lib.Lines

namespace Wiiland

open Text (Blank Trimmed trim)

/-- The part of a line before its comment, split at its first `=`, trims to the
key and the value. -/
def ReadsAs (line : List Char) (key value : String) : Prop :=
  ∃ before after, line.takeWhile (· != '#') = before ++ '=' :: after ∧
    '=' ∉ before ∧ trim isBlank before = key.toList ∧
      trim isBlank after = value.toList

theorem not_mem_of_blank {text : List Char} (htext : Blank isBlank text) :
    '=' ∉ text :=
  fun hmem => absurd (htext '=' hmem) (by decide)

/-- A line of admissible length that reads as a key and a value sets them. -/
theorem applyLine_of_reads {line : List Char} {key value : String}
    (hlength : Text.byteLength line ≤ 511) (hreads : ReadsAs line key value)
    (place : Place) (config : Config) :
    applyLine place line config = setKey place key value config := by
  obtain ⟨before, after, hline, hbefore, hkey, hvalue⟩ := hreads
  let content := trim isBlank (line.takeWhile (· != '#'))
  obtain ⟨left, right, hleft, hright, hcontent⟩ :=
    Text.exists_trim isBlank (line.takeWhile (· != '#'))
  have hmem : '=' ∈ content := by
    have hall : '=' ∈ left ++ content ++ right := by
      rw [← hcontent, hline]
      exact List.mem_append_right _ List.mem_cons_self
    rcases List.mem_append.mp hall with hmem | hmem
    · rcases List.mem_append.mp hmem with hmem | hmem
      · exact absurd hmem (not_mem_of_blank hleft)
      · exact hmem
    · exact absurd hmem (not_mem_of_blank hright)
  obtain ⟨name, text, hsplit, hname⟩ := Text.exists_split_of_mem hmem
  have hboth : before ++ '=' :: after = (left ++ name) ++ '=' :: (text ++ right) := by
    rw [← hline, hcontent]
    change left ++ content ++ right = _
    rw [hsplit]
    simp only [List.append_assoc, List.cons_append]
  obtain ⟨hfirst, hsecond⟩ := Text.first_split_unique hbefore
    (by
      rw [List.mem_append, not_or]
      exact ⟨not_mem_of_blank hleft, hname⟩) hboth
  have hnameTrim : trim isBlank name = key.toList := by
    rw [← hkey, hfirst, Text.trim_blank_append hleft]
  have htextTrim : trim isBlank text = value.toList := by
    rw [← hvalue, hsecond, Text.trim_append_blank hright]
  have hlong : ¬maxLineBytes - 1 < Text.byteLength line := by
    rw [maxLineBytes]
    omega
  have hne : content ≠ [] := List.ne_nil_of_mem hmem
  have hsize : Text.byteLength name + 1 = Text.byteLength (name ++ ['=']) := by
    rw [Text.byteLength_append]
    rfl
  have hdrop : Text.dropBytes content (Text.byteLength name + 1) = some text := by
    rw [hsize, hsplit, List.append_cons, Text.dropBytes_append]
  have htake : Text.takeBytes content (Text.byteLength name) = some name := by
    rw [hsplit, Text.takeBytes_append]
  have hfind : Text.find '=' content = some (Text.byteLength name) := by
    rw [hsplit, Text.find_append hname]
  rw [applyLine, if_neg hlong]
  simp only [show trim isBlank (line.takeWhile (· != '#')) = content from rfl,
    hne, if_false, hfind, htake, hdrop, hnameTrim, htextTrim, String.ofList_toList]

/-- What applying one line can do. -/
theorem applyLine_cases (place : Place) (line : List Char) (config : Config) :
    (∃ message, applyLine place line config =
        .err (place.error message) config) ∨
      applyLine place line config = .ok config ∨
      ∃ key value, Text.byteLength line ≤ 511 ∧ ReadsAs line key value ∧
        applyLine place line config = setKey place key value config := by
  by_cases hlength : Text.byteLength line ≤ 511
  · by_cases hmem : '=' ∈ line.takeWhile (· != '#')
    · right
      right
      obtain ⟨before, after, hline, hbefore⟩ := Text.exists_split_of_mem hmem
      have hreads : ReadsAs line (String.ofList (trim isBlank before))
          (String.ofList (trim isBlank after)) :=
        ⟨before, after, hline, hbefore, String.toList_ofList.symm,
          String.toList_ofList.symm⟩
      exact ⟨_, _, hlength, hreads,
        applyLine_of_reads hlength hreads place config⟩
    · have hlong : ¬maxLineBytes - 1 < Text.byteLength line := by
        rw [maxLineBytes]
        omega
      have hcontent : '=' ∉ trim isBlank (line.takeWhile (· != '#')) := by
        intro hin
        obtain ⟨left, right, _, _, hsplit⟩ :=
          Text.exists_trim isBlank (line.takeWhile (· != '#'))
        apply hmem
        rw [hsplit]
        exact List.mem_append_left _ (List.mem_append_right _ hin)
      rw [applyLine, if_neg hlong]
      by_cases hnil : trim isBlank (line.takeWhile (· != '#')) = []
      · right
        left
        simp only [hnil, if_true]
      · left
        refine ⟨"expected key=value", ?_⟩
        simp only [hnil, if_false, Text.find_eq_none.mpr hcontent]
  · left
    refine ⟨"line too long", ?_⟩
    rw [applyLine, if_pos]
    rw [maxLineBytes]
    omega

/-- The raw lines of a byte string, each with its line feed; the last one may
lack it. -/
def rawLines (bytes : List UInt8) : List (List UInt8) :=
  (Lines.cut lineFeed bytes).1.map (· ++ [lineFeed]) ++
    if (Lines.cut lineFeed bytes).2 = [] then []
    else [(Lines.cut lineFeed bytes).2]

theorem rawLines_of_not_mem {bytes : List UInt8} (hfeed : lineFeed ∉ bytes)
    (hne : bytes ≠ []) : rawLines bytes = [bytes] := by
  rw [rawLines, Lines.cut_of_not_mem hfeed, if_neg hne]
  rfl

/-- Raw lines applied in order, numbered from `no`. -/
def applyLines (path : String) (no : Nat) : List (List UInt8) → Config → Outcome
  | [], config => .ok config
  | raw :: raws, config =>
      (applyRaw ⟨path, no⟩ raw config).andThen (applyLines path (no + 1) raws)

@[simp] theorem andThen_ok (outcome : Outcome) : outcome.andThen .ok = outcome := by
  cases outcome <;> rfl

theorem applyBytesFrom_eq (path : String) (no : Nat) (raw bytes : List UInt8)
    (hraw : lineFeed ∉ raw) (config : Config) :
    applyBytesFrom path no raw bytes config =
      applyLines path no (rawLines (raw ++ bytes)) config := by
  induction bytes generalizing no raw config with
  | nil =>
      rw [applyBytesFrom, List.append_nil, rawLines, Lines.cut_of_not_mem hraw]
      by_cases hnil : raw = []
      · simp [hnil, applyLines]
      · simp only [hnil, if_false, List.map_nil, List.nil_append, applyLines]
        exact (andThen_ok _).symm
  | cons b bytes ih =>
      by_cases hb : b = lineFeed
      · subst hb
        have hlines : rawLines (raw ++ lineFeed :: bytes) =
            (raw ++ [lineFeed]) :: rawLines bytes := by
          rw [rawLines, Lines.cut_line hraw]
          rfl
        rw [applyBytesFrom, if_pos rfl, hlines, applyLines]
        congr 1
        funext config
        exact ih (no + 1) [] List.not_mem_nil config
      · have hnext : lineFeed ∉ raw ++ [b] := by
          rw [List.mem_append, not_or, List.mem_singleton]
          exact ⟨hraw, Ne.symm hb⟩
        rw [applyBytesFrom, if_neg hb, ih no (raw ++ [b]) hnext, List.append_assoc]
        rfl

/-- A byte string is applied raw line by raw line. -/
theorem applyBytes_eq (path : String) (bytes : List UInt8) (config : Config) :
    applyBytes path bytes config = applyLines path 1 (rawLines bytes) config :=
  applyBytesFrom_eq path 1 [] bytes List.not_mem_nil config

theorem applyLines_append (path : String) (no : Nat)
    (first second : List (List UInt8)) (config : Config) :
    applyLines path no (first ++ second) config =
      (applyLines path no first config).andThen
        (applyLines path (no + first.length) second) := by
  induction first generalizing no config with
  | nil => rfl
  | cons raw first ih =>
      rw [List.cons_append, applyLines, applyLines]
      cases hraw : applyRaw ⟨path, no⟩ raw config with
      | ok next =>
          simp only [Outcome.andThen, ih, List.length_cons]
          rw [Nat.add_right_comm, Nat.add_assoc]
      | err error next => rfl
      | panic => rfl

/-- Accepted lines are accepted one by one. -/
theorem applyLines_ok_cons {path : String} {no : Nat} {raw : List UInt8}
    {raws : List (List UInt8)} {config final : Config}
    (hok : applyLines path no (raw :: raws) config = .ok final) :
    ∃ next, applyRaw ⟨path, no⟩ raw config = .ok next ∧
      applyLines path (no + 1) raws next = .ok final := by
  rw [applyLines] at hok
  cases hraw : applyRaw ⟨path, no⟩ raw config with
  | ok next =>
      rw [hraw] at hok
      exact ⟨next, rfl, hok⟩
  | err error next =>
      rw [hraw] at hok
      exact absurd hok (by simp [Outcome.andThen])
  | panic =>
      rw [hraw] at hok
      exact absurd hok (by simp [Outcome.andThen])

/-- A raw line that decodes within the limit is applied as its text. -/
theorem applyRaw_of_decode {raw : List UInt8} {text : List Char}
    (hdecode : Text.decode raw = some text) (hlength : Text.byteLength text ≤ 511)
    (place : Place) (config : Config) :
    applyRaw place raw config = applyLine place text config := by
  have hraw : ¬maxLineBytes - 1 < raw.length := by
    rw [← Text.encode_of_decode hdecode, Text.length_encode, maxLineBytes]
    omega
  rw [applyRaw, if_neg hraw, hdecode]

/-- What applying one raw line can do. -/
theorem applyRaw_cases (place : Place) (raw : List UInt8) (config : Config) :
    (∃ message, applyRaw place raw config =
        .err (place.error message) config) ∨
      ∃ text, Text.decode raw = some text ∧ Text.byteLength text ≤ 511 ∧
        applyRaw place raw config = applyLine place text config := by
  by_cases hlong : maxLineBytes - 1 < raw.length
  · left
    exact ⟨"line too long", by rw [applyRaw, if_pos hlong]⟩
  · cases hdecode : Text.decode raw with
    | none =>
        left
        exact ⟨"invalid UTF-8", by rw [applyRaw, if_neg hlong, hdecode]⟩
    | some text =>
        right
        have hlength : Text.byteLength text ≤ 511 := by
          rw [← Text.length_encode, Text.encode_of_decode hdecode]
          rw [maxLineBytes] at hlong
          omega
        exact ⟨text, rfl, hlength, applyRaw_of_decode hdecode hlength place config⟩

end Wiiland
