/-
The text of the marker file.  Reading what an installation has written gives its
records, whatever their order.
-/
import Mathlib.Data.List.TakeDrop
import Wiiland.Xtask.Install

namespace Wiiland

namespace Xtask

open UnixPath FileTree

/-- Bytes that are the UTF-8 form of a text. -/
def IsText (bytes : List UInt8) : Prop := ∃ text, Text.encode text = bytes

theorem IsText.append {first second : List UInt8} (hfirst : IsText first)
    (hsecond : IsText second) : IsText (first ++ second) := by
  obtain ⟨left, rfl⟩ := hfirst
  obtain ⟨right, rfl⟩ := hsecond
  exact ⟨left ++ right, Text.encode_append left right⟩

theorem isText_nil : IsText [] := ⟨[], rfl⟩

theorem IsText.cons {byte : UInt8} {bytes : List UInt8} (hbyte : IsText [byte])
    (hbytes : IsText bytes) : IsText (byte :: bytes) := hbyte.append hbytes

theorem isText_separator : IsText [separator] := ⟨['/'], by decide⟩

theorem isText_tab : IsText [tab] := ⟨['\t'], by decide⟩

theorem isText_newline : IsText [newline] := ⟨['\n'], by decide⟩

theorem encode_cons (c : Char) (text : List Char) :
    Text.encode (c :: text) = Text.encode [c] ++ Text.encode text :=
  Text.encode_append [c] text

/-- Hexadecimal digits stay on their line. -/
theorem line_hexDigits {text : List Char} (htext : ∀ c ∈ text, ∃ value < 16, c = hexDigit value) :
    ∀ byte ∈ Text.encode text, byte ≠ 10 ∧ byte ≠ 13 := by
  have hdigit : ∀ value < 16, 10 ∉ Text.encode [hexDigit value] ∧
      13 ∉ Text.encode [hexDigit value] := by
    decide
  induction text with
  | nil => exact fun _ hbyte => absurd hbyte List.not_mem_nil
  | cons c text ih =>
      rw [List.forall_mem_cons] at htext
      intro byte hbyte
      rw [encode_cons, List.mem_append] at hbyte
      rcases hbyte with hbyte | hbyte
      · obtain ⟨value, hvalue, rfl⟩ := htext.1
        exact ⟨ne_of_mem_of_not_mem hbyte (hdigit value hvalue).1,
          ne_of_mem_of_not_mem hbyte (hdigit value hvalue).2⟩
      · exact ih htext.2 byte hbyte

/-- The digest of the source, which is not injective. -/
def fnv : Digest where
  text content := hex16 (hashBytes content)
  line content := line_hexDigits fun c hc => by
    obtain ⟨place, _, rfl⟩ := List.mem_map.mp hc
    exact ⟨_, Nat.mod_lt _ (by decide), rfl⟩

/-- The digest of nothing is the offset basis of FNV-1a. -/
example : fnv.text [] = "cbf29ce484222325".toList := by decide

/-- The digest that shows the contents themselves. -/
def verbatim : Digest where
  text content := content.flatMap fun byte =>
    [hexDigit (byte.toNat / 16), hexDigit (byte.toNat % 16)]
  line content := line_hexDigits fun c hc => by
    obtain ⟨byte, _, hc⟩ := List.mem_flatMap.mp hc
    have hbyte := byte.toNat_lt
    rcases List.mem_pair.mp hc with rfl | rfl
    · exact ⟨_, by omega, rfl⟩
    · exact ⟨_, Nat.mod_lt _ (by decide), rfl⟩

theorem verbatim_injective : Function.Injective verbatim.text := by
  have hdigit : ∀ first < 16, ∀ second < 16, hexDigit first = hexDigit second →
      first = second := by
    decide
  intro first
  induction first with
  | nil =>
      intro second heq
      cases second with
      | nil => rfl
      | cons byte second => cases heq
  | cons byte first ih =>
      intro second heq
      cases second with
      | nil => cases heq
      | cons other second =>
          have hbyte := byte.toNat_lt
          have hother := other.toNat_lt
          simp only [verbatim, List.flatMap_cons, List.cons_append, List.nil_append,
            List.cons.injEq] at heq
          have hhigh := hdigit _ (by omega) _ (by omega) heq.1
          have hlow := hdigit _ (Nat.mod_lt _ (by decide)) _ (Nat.mod_lt _ (by decide)) heq.2.1
          have hsame : byte = other := UInt8.toNat_inj.mp (by omega)
          rw [ih heq.2.2, hsame]

/-- A path that the reader can find in a line: absolute and without `..`, a text, and of
one line. -/
structure Readable (path : Path) : Prop where
  rooted : path.rooted = true
  component : ∀ component ∈ path.components, Component component
  upward : ∀ component ∈ path.components, component ≠ UnixPath.upward
  line : ∀ component ∈ path.components, newline ∉ component
  text : ∀ component ∈ path.components, IsText component

/-- A path as the manifest has it: absolute and without `..`, a text, and without the
characters that part the marker. -/
structure Logical (path : Path) : Prop where
  rooted : path.rooted = true
  component : ∀ component ∈ path.components, Component component
  upward : ∀ component ∈ path.components, component ≠ UnixPath.upward
  plain : ∀ component ∈ path.components, ∀ byte ∈ component, byte ≠ tab ∧ byte ≠ newline
  text : ∀ component ∈ path.components, IsText component

/-- A path whose components do not end in a carriage return. -/
def EndsPlain (path : Path) : Prop :=
  ∀ component ∈ path.components, component.getLast? ≠ some carriageReturn

section paths

variable {path : Path}

theorem Logical.mono (hlogical : Logical path) {components : List (List UInt8)}
    (hsubset : components ⊆ path.components) : Logical ⟨path.rooted, components⟩ where
  rooted := hlogical.rooted
  component part hpart := hlogical.component part (hsubset hpart)
  upward part hpart := hlogical.upward part (hsubset hpart)
  plain part hpart := hlogical.plain part (hsubset hpart)
  text part hpart := hlogical.text part (hsubset hpart)

theorem Logical.readable (hlogical : Logical path) : Readable path where
  rooted := hlogical.rooted
  component := hlogical.component
  upward := hlogical.upward
  line part hpart hnewline := (hlogical.plain part hpart newline hnewline).2 rfl
  text := hlogical.text

theorem Readable.safeRecordPath (hreadable : Readable path) :
    safeRecordPath path.toBytes = some path := by
  have hread := ofBytes_toBytes hreadable.rooted hreadable.component
  have hupward : path.components.contains UnixPath.upward = false := by
    rw [List.contains_eq_mem, decide_eq_false_iff_not]
    exact fun hmem => hreadable.upward _ hmem rfl
  simp only [Xtask.safeRecordPath, hread, hreadable.rooted, hupward, Bool.not_true,
    Bool.or_false, Bool.false_eq_true, if_false]

theorem toBytes_rooted (hrooted : path.rooted = true) :
    path.toBytes = [separator] ∧ path.components = [] ∨
      path.toBytes = path.components.flatMap (separator :: ·) := by
  rw [Path.toBytes, if_pos hrooted]
  split
  · rename_i hnil
    exact .inl ⟨rfl, hnil⟩
  · exact .inr rfl

/-- A byte of a path is the separator or a byte of a component. -/
theorem mem_toBytes (hrooted : path.rooted = true) {byte : UInt8}
    (hbyte : byte ∈ path.toBytes) :
    byte = separator ∨ ∃ component ∈ path.components, byte ∈ component := by
  rcases toBytes_rooted hrooted with ⟨htext, _⟩ | htext
  · rw [htext, List.mem_singleton] at hbyte
    exact .inl hbyte
  · rw [htext, List.mem_flatMap] at hbyte
    obtain ⟨component, hcomponent, hbyte⟩ := hbyte
    rcases List.mem_cons.mp hbyte with rfl | hbyte
    · exact .inl rfl
    · exact .inr ⟨component, hcomponent, hbyte⟩

theorem Readable.line_toBytes (hreadable : Readable path) : newline ∉ path.toBytes := by
  intro hnewline
  rcases mem_toBytes hreadable.rooted hnewline with heq | ⟨component, hcomponent, hmem⟩
  · exact absurd heq (by decide)
  · exact hreadable.line component hcomponent hmem

theorem Logical.tab_toBytes (hlogical : Logical path) : tab ∉ path.toBytes := by
  intro htab
  rcases mem_toBytes hlogical.rooted htab with heq | ⟨component, hcomponent, hmem⟩
  · exact absurd heq (by decide)
  · exact (hlogical.plain component hcomponent tab hmem).1 rfl

theorem Readable.isText_toBytes (hreadable : Readable path) : IsText path.toBytes := by
  rcases toBytes_rooted hreadable.rooted with ⟨htext, _⟩ | htext
  · rw [htext]
    exact isText_separator
  · rw [htext]
    have htexts := hreadable.text
    generalize path.components = components at htexts
    induction components with
    | nil => exact isText_nil
    | cons component components ih =>
        rw [List.forall_mem_cons] at htexts
        exact (isText_separator.cons htexts.1).append (ih htexts.2)

theorem Readable.display (hreadable : Readable path) : Xtask.display path = path.toBytes := by
  obtain ⟨text, htext⟩ := hreadable.isText_toBytes
  rw [Xtask.display, ← htext, LossyText.decode_encode]

theorem EndsPlain.toBytes (hplain : EndsPlain path) (hlogical : Logical path) :
    path.toBytes.getLast? ≠ some carriageReturn := by
  rcases toBytes_rooted hlogical.rooted with ⟨htext, _⟩ | htext
  · rw [htext]
    decide
  · rw [htext]
    rcases List.eq_nil_or_concat path.components with hnil | ⟨before, last, hlast⟩
    · rw [hnil]
      decide
    · rw [List.concat_eq_append] at hlast
      have hmem : last ∈ path.components := by simp [hlast]
      have hends := hplain last hmem
      rw [hlast, List.flatMap_append, List.flatMap_singleton]
      cases last with
      | nil => exact absurd rfl (hlogical.component [] hmem).1
      | cons byte last =>
          rw [List.getLast?_append_cons, List.getLast?_cons_cons]
          exact hends

end paths

section lines

theorem strip_append (start rest : List UInt8) : strip start (start ++ rest) = some rest := by
  rw [strip, if_pos (List.isPrefixOf_iff_prefix.mpr (List.prefix_append start rest)),
    List.drop_left]

theorem splitOnce_append {delimiter : UInt8} {before : List UInt8}
    (hbefore : delimiter ∉ before) (after : List UInt8) :
    splitOnce delimiter (before ++ delimiter :: after) = some (before, after) := by
  have hpos : ∀ byte ∈ before, (byte != delimiter) = true := by
    intro byte hbyte
    rw [bne_iff_ne]
    rintro rfl
    exact hbefore hbyte
  rw [splitOnce, List.span_eq_takeWhile_dropWhile, List.takeWhile_append_of_pos hpos,
    List.dropWhile_append_of_pos hpos, List.takeWhile_cons_of_neg (by simp),
    List.dropWhile_cons_of_neg (by simp), List.append_nil]

variable {location : Location} {path : Path}

theorem recordOfLine_file (hlogical : Logical path) (bytes : List UInt8) :
    recordOfLine (fileLine location path bytes) =
      some (.file path (expected location bytes)) := by
  have hother : strip directoryTag (fileLine location path bytes) = none := rfl
  rw [recordOfLine, hother, fileLine, hlogical.readable.display, List.append_assoc]
  simp only
  rw [strip_append, Option.getD_some, splitOnce_append hlogical.tab_toBytes]
  simp only
  rw [hlogical.readable.safeRecordPath, Option.map_some]

theorem recordOfLine_directory (hreadable : Readable path) :
    recordOfLine (directoryLine path) = some (.directory path) := by
  rw [recordOfLine, directoryLine, hreadable.display, strip_append]
  simp only
  rw [hreadable.safeRecordPath, Option.map_some]

/-- A line of the marker that is read as it was written. -/
def WholeLine (line : List UInt8) : Prop :=
  newline ∉ line ∧ line.getLast? ≠ some carriageReturn ∧ IsText line

theorem isText_expected (location : Location) (bytes : List UInt8) :
    IsText (expected location bytes) := ⟨location.digest.text bytes, rfl⟩

theorem wholeLine_file (hreadable : Readable path) (bytes : List UInt8) :
    WholeLine (fileLine location path bytes) := by
  have hdigest := location.digest.line bytes
  rw [fileLine, hreadable.display]
  refine ⟨fun hnewline => ?_, fun hlast => ?_, ?_⟩
  · rw [List.append_assoc, List.mem_append, List.mem_append, List.mem_cons] at hnewline
    rcases hnewline with htag | hpath | htab | hbyte
    · exact absurd htag (by decide)
    · exact hreadable.line_toBytes hpath
    · exact absurd htab (by decide)
    · exact (hdigest newline hbyte).1 rfl
  · rw [List.getLast?_append_cons] at hlast
    have hmem := List.mem_of_getLast? hlast
    rcases List.mem_cons.mp hmem with htab | hbyte
    · exact absurd htab (by decide)
    · exact (hdigest carriageReturn hbyte).2 rfl
  · have htag : IsText fileTag := ⟨"file\t".toList, by decide⟩
    exact (htag.append hreadable.isText_toBytes).append
      (isText_tab.cons (isText_expected location bytes))

theorem isText_directory (hreadable : Readable path) : IsText (directoryLine path) := by
  have htag : IsText directoryTag := ⟨"dir\t".toList, by decide⟩
  rw [directoryLine, hreadable.display]
  exact htag.append hreadable.isText_toBytes

theorem line_directory (hreadable : Readable path) : newline ∉ directoryLine path := by
  rw [directoryLine, hreadable.display, List.mem_append]
  rintro (htag | hpath)
  · exact absurd htag (by decide)
  · exact hreadable.line_toBytes hpath

theorem getLast_directory (hreadable : Readable path) :
    (directoryLine path).getLast? = path.toBytes.getLast? := by
  rw [directoryLine, hreadable.display, List.getLast?_append]
  rcases toBytes_rooted hreadable.rooted with ⟨htext, _⟩ | htext
  · rw [htext]
    rfl
  · rw [htext]
    cases hcomponents : path.components with
    | nil =>
        rw [Path.toBytes, if_pos hreadable.rooted, if_pos hcomponents, hcomponents] at htext
        cases htext
    | cons component components =>
        rw [List.flatMap_cons, List.cons_append, List.getLast?_eq_some_getLast (by simp)]
        rfl

theorem wholeLine_directory (hreadable : Readable path)
    (hend : path.toBytes.getLast? ≠ some carriageReturn) :
    WholeLine (directoryLine path) :=
  ⟨line_directory hreadable, getLast_directory hreadable ▸ hend, isText_directory hreadable⟩

theorem joinLines_eq_glue {line : List UInt8} {lines : List (List UInt8)} :
    joinLines (line :: lines) = Lines.glue newline (line :: lines) [] := by
  rw [joinLines, Lines.glue, List.append_nil]
  induction lines generalizing line with
  | nil => simp [List.intercalate]
  | cons next lines ih =>
      rw [List.intercalate_cons_cons, List.append_assoc, List.append_assoc, ih]
      simp

/-- The lines of a marker are read as they were written. -/
theorem textLines_joinLines {lines : List (List UInt8)}
    (hlines : ∀ line ∈ lines, WholeLine line) :
    (textLines (joinLines lines)).filterMap recordOfLine = lines.filterMap recordOfLine := by
  cases lines with
  | nil => rfl
  | cons line lines =>
      have hcut := Lines.cut_glue (fun other hother => (hlines other hother).1)
        (List.not_mem_nil (a := newline))
      have hkeep : (line :: lines).map (fun other =>
          if other.getLast? = some carriageReturn then other.dropLast else other) =
            line :: lines := by
        rw [List.map_congr_left fun other hother => if_neg (hlines other hother).2.1, List.map_id']
      rw [joinLines_eq_glue, textLines, hcut, if_pos rfl, List.append_nil, hkeep]

theorem isText_joinLines {lines : List (List UInt8)} (hlines : ∀ line ∈ lines, IsText line) :
    IsText (joinLines lines) := by
  cases lines with
  | nil => exact isText_newline
  | cons line lines =>
      rw [joinLines_eq_glue, Lines.glue, List.append_nil]
      generalize line :: lines = lines at hlines
      induction lines with
      | nil => exact isText_nil
      | cons line lines ih =>
          rw [List.forall_mem_cons] at hlines
          rw [List.flatMap_cons]
          exact (hlines.1.append isText_newline).append (ih hlines.2)

end lines

/-- The lines of a marker for files with their contents and for directories. -/
def markerLines (location : Location) (files : List (Path × List UInt8))
    (directories : List Path) : List (List UInt8) :=
  files.map (fun file => fileLine location file.1 file.2) ++ directories.map directoryLine

section marker

variable {location : Location} {files : List (Path × List UInt8)} {directories : List Path}

/-- Paths that the marker can carry. -/
structure Carried (files : List (Path × List UInt8)) (directories : List Path) : Prop where
  files : ∀ file ∈ files, Logical file.1
  directories : ∀ logical ∈ directories, Logical logical ∧ EndsPlain logical

theorem Carried.wholeLine (hcarried : Carried files directories) :
    ∀ line ∈ sortLines (markerLines location files directories), WholeLine line := by
  intro line hline
  have hmem := (List.perm_insertionSort _ _).mem_iff.mp hline
  rcases List.mem_append.mp hmem with hfile | hdirectory
  · obtain ⟨file, hlisted, rfl⟩ := List.mem_map.mp hfile
    exact wholeLine_file (hcarried.files file hlisted).readable file.2
  · obtain ⟨logical, hlogical, rfl⟩ := List.mem_map.mp hdirectory
    have hdirectory := hcarried.directories logical hlogical
    exact wholeLine_directory hdirectory.1.readable (hdirectory.2.toBytes hdirectory.1)

/-- What a later run reads from a marker. -/
structure Reads (location : Location) (files : List (Path × List UInt8))
    (directories : List Path) (records : List OwnershipRecord) : Prop where
  file : ∀ logical record, (logical, record) ∈ fileRecords records ↔
    ∃ bytes, (logical, bytes) ∈ files ∧ record = expected location bytes
  directory : ∀ logical, logical ∈ directoryRecords records ↔ logical ∈ directories

theorem mem_recordsOfLines {record : OwnershipRecord} (hcarried : Carried files directories) :
    record ∈ (sortLines (markerLines location files directories)).filterMap recordOfLine ↔
      (∃ file ∈ files, record = .file file.1 (expected location file.2)) ∨
        ∃ logical ∈ directories, record = .directory logical := by
  have hline : ∀ line, line ∈ sortLines (markerLines location files directories) ↔
      (∃ file ∈ files, fileLine location file.1 file.2 = line) ∨
        ∃ logical ∈ directories, directoryLine logical = line := by
    intro line
    rw [sortLines, (List.perm_insertionSort _ _).mem_iff, markerLines, List.mem_append,
      List.mem_map, List.mem_map]
  rw [List.mem_filterMap]
  constructor
  · rintro ⟨line, hmem, hrecord⟩
    rcases (hline line).mp hmem with ⟨file, hfile, rfl⟩ | ⟨logical, hlogical, rfl⟩
    · rw [recordOfLine_file (hcarried.files file hfile), Option.some.injEq] at hrecord
      exact .inl ⟨file, hfile, hrecord.symm⟩
    · rw [recordOfLine_directory (hcarried.directories logical hlogical).1.readable,
        Option.some.injEq] at hrecord
      exact .inr ⟨logical, hlogical, hrecord.symm⟩
  · rintro (⟨file, hfile, rfl⟩ | ⟨logical, hlogical, rfl⟩)
    · exact ⟨_, (hline _).mpr (.inl ⟨file, hfile, rfl⟩),
        recordOfLine_file (hcarried.files file hfile) file.2⟩
    · exact ⟨_, (hline _).mpr (.inr ⟨logical, hlogical, rfl⟩),
        recordOfLine_directory (hcarried.directories logical hlogical).1.readable⟩

theorem mem_fileRecords {records : List OwnershipRecord} {logical : Path}
    {record : List UInt8} :
    (logical, record) ∈ fileRecords records ↔ .file logical record ∈ records := by
  rw [fileRecords, List.mem_filterMap]
  constructor
  · rintro ⟨entry, hentry, heq⟩
    cases entry with
    | file other found =>
        cases heq
        exact hentry
    | directory other => cases heq
  · exact fun hmem => ⟨_, hmem, rfl⟩

theorem mem_directoryRecords {records : List OwnershipRecord} {logical : Path} :
    logical ∈ directoryRecords records ↔ .directory logical ∈ records := by
  rw [directoryRecords, List.mem_filterMap]
  constructor
  · rintro ⟨entry, hentry, heq⟩
    cases entry with
    | file other found => cases heq
    | directory other =>
        cases heq
        exact hentry
  · exact fun hmem => ⟨_, hmem, rfl⟩

theorem readRecords_marker {tree : Tree} {marker : Path} {mode : UInt32}
    (hcarried : Carried files directories)
    (hmarker : tree.lookup marker =
      some (.file (joinLines (sortLines (markerLines location files directories))) mode)) :
    ∃ records, readRecords marker tree = .ok (some records) tree ∧
      Reads location files directories records := by
  have hwhole := @Carried.wholeLine location _ _ hcarried
  obtain ⟨text, htext⟩ := isText_joinLines fun line hline => (hwhole line hline).2.2
  refine ⟨(sortLines (markerLines location files directories)).filterMap recordOfLine, ?_, ?_⟩
  · rw [readRecords, hmarker]
    simp only
    rw [← htext, Text.decode_encode]
    simp only
    rw [htext, textLines_joinLines hwhole]
  · refine ⟨fun logical record => ?_, fun logical => ?_⟩
    · rw [mem_fileRecords, mem_recordsOfLines hcarried]
      constructor
      · rintro (⟨file, hfile, heq⟩ | ⟨_, _, heq⟩)
        · cases heq
          exact ⟨file.2, hfile, rfl⟩
        · cases heq
      · rintro ⟨bytes, hbytes, rfl⟩
        exact .inl ⟨_, hbytes, rfl⟩
    · rw [mem_directoryRecords, mem_recordsOfLines hcarried]
      constructor
      · rintro (⟨_, _, heq⟩ | ⟨other, hother, heq⟩)
        · cases heq
        · cases heq
          exact hother
      · exact fun hmem => .inr ⟨logical, hmem, rfl⟩

end marker

end Xtask

end Wiiland
