/-
What the reader of a marker can find in it.  Whatever text the marker has, the paths of
its records are absolute texts of one line, and those of files have no tab.
-/
import Wiiland.Xtask.Records

namespace Wiiland

namespace Xtask

open UnixPath FileTree

/-- An ASCII byte of a character is all of it. -/
theorem encode_ascii {byte : UInt8} (hbyte : byte < 128) {c : Char}
    (hmem : byte ∈ String.utf8EncodeChar c) : String.utf8EncodeChar c = [byte] := by
  have hsmall : byte.toNat < 128 := UInt8.lt_iff_toNat_lt.mp hbyte
  have hvalid : byte.toNat.isValidChar := Or.inl (by omega)
  have hchar : (Char.ofNat byte.toNat).toNat = byte.toNat := by
    rw [Char.ofNat, dif_pos hvalid]
    rfl
  have hsame : byte = UInt8.ofNat (Char.ofNat byte.toNat).toNat := by
    rw [hchar, UInt8.ofNat_toNat]
  have hascii : (Char.ofNat byte.toNat).toNat < 128 := by rw [hchar]; exact hsmall
  obtain rfl := Text.mem_utf8EncodeChar_of_ascii hascii (hsame ▸ hmem)
  have hvalue : (Char.ofNat byte.toNat).val.toNat ≤ 127 := Nat.le_of_lt_succ hascii
  rw [String.utf8EncodeChar]
  simp only [hvalue, if_true]
  exact congrArg (fun first => [first]) hsame.symm

/-- A text cut at an ASCII character is two texts. -/
theorem IsText.cut {before after : List UInt8} {byte : UInt8} (hbyte : byte < 128)
    (htext : IsText (before ++ byte :: after)) : IsText before ∧ IsText after := by
  obtain ⟨text, htext⟩ := htext
  induction text generalizing before with
  | nil => simp [Text.encode] at htext
  | cons c text ih =>
      rw [encode_cons] at htext
      have hsingle : Text.encode [c] = String.utf8EncodeChar c := by simp [Text.encode]
      rw [hsingle] at htext
      rcases List.append_eq_append_iff.mp htext with ⟨rest, hbefore, hrest⟩ | ⟨rest, hc, hrest⟩
      · subst hbefore
        obtain ⟨hbefore, hafter⟩ := ih hrest
        exact ⟨IsText.append ⟨[c], hsingle⟩ hbefore, hafter⟩
      · cases rest with
        | nil =>
            rw [List.append_nil] at hc
            obtain ⟨hbefore, hafter⟩ := @ih [] hrest.symm
            exact ⟨⟨[c], hsingle.trans hc⟩, hafter⟩
        | cons first rest =>
            obtain ⟨rfl, hafter⟩ := List.cons.inj hrest
            have hmem : byte ∈ String.utf8EncodeChar c := by rw [hc]; simp
            rw [encode_ascii hbyte hmem] at hc
            have hshort := congrArg List.length hc
            rw [List.length_append, List.length_singleton, List.length_cons] at hshort
            obtain rfl := List.length_eq_zero_iff.mp (show before.length = 0 by omega)
            obtain rfl := List.length_eq_zero_iff.mp (show rest.length = 0 by omega)
            exact ⟨isText_nil, text, hafter.symm⟩

/-- The lines of a text are texts. -/
theorem IsText.lines {delimiter : UInt8} (hascii : delimiter < 128) {text : List UInt8}
    (htext : IsText text) :
    (∀ line ∈ (Lines.cut delimiter text).1, IsText line) ∧
      IsText (Lines.cut delimiter text).2 := by
  have hglue := Lines.glue_cut delimiter text
  rw [← hglue, Lines.glue] at htext
  generalize (Lines.cut delimiter text).1 = lines at htext
  induction lines with
  | nil => exact ⟨by simp, htext⟩
  | cons line lines ih =>
      rw [List.flatMap_cons, List.append_assoc, List.append_assoc, List.singleton_append]
        at htext
      obtain ⟨hline, hrest⟩ := htext.cut hascii
      obtain ⟨hlines, hlast⟩ := ih hrest
      exact ⟨List.forall_mem_cons.mpr ⟨hline, hlines⟩, hlast⟩

theorem cut_subset (delimiter : UInt8) (text : List UInt8) :
    (∀ line ∈ (Lines.cut delimiter text).1, line ⊆ text) ∧
      (Lines.cut delimiter text).2 ⊆ text := by
  have hglue := Lines.glue_cut delimiter text
  refine ⟨fun line hline byte hbyte => ?_, fun byte hbyte => ?_⟩
  · rw [← hglue, Lines.glue, List.mem_append, List.mem_flatMap]
    exact .inl ⟨line, hline, List.mem_append_left _ hbyte⟩
  · rw [← hglue, Lines.glue]
    exact List.mem_append_right _ hbyte

/-- A piece of a text between its separators. -/
theorem piece_cases {text piece : List UInt8} (hpiece : piece ∈ pieces text) :
    piece ∈ (Lines.cut separator text).1 ∨ piece = (Lines.cut separator text).2 := by
  rw [pieces, List.mem_append, List.mem_singleton] at hpiece
  exact hpiece

/-- A path that passes the filter of the reader is one that it can find. -/
theorem readable_of_safe {value : List UInt8} {path : Path} (htext : IsText value)
    (hline : newline ∉ value) (hsafe : safeRecordPath value = some path) :
    Readable path ∧ ∀ component ∈ path.components, component ⊆ value := by
  rw [safeRecordPath] at hsafe
  split at hsafe
  · cases hsafe
  · rename_i hneither
    cases hsafe
    rw [Bool.or_eq_true, not_or, Bool.not_eq_true', Bool.not_eq_false, List.contains_eq_mem,
      decide_eq_true_iff] at hneither
    obtain ⟨hrooted, hupward⟩ := hneither
    have hnamed : ∀ component ∈ (ofBytes value).components,
        component ∈ pieces value ∧ component ≠ [] ∧ component ≠ UnixPath.current := by
      intro component hcomponent
      rw [ofBytes] at hrooted hcomponent
      split at hcomponent
      · simpa [List.mem_filter] using hcomponent
      · rename_i hrelative
        rw [if_neg hrelative] at hrooted
        split at hrooted <;> cases hrooted
    have hsubset : ∀ component ∈ (ofBytes value).components, component ⊆ value := by
      intro component hcomponent
      rcases piece_cases (hnamed component hcomponent).1 with hwhole | rfl
      · exact (cut_subset separator value).1 component hwhole
      · exact (cut_subset separator value).2
    refine ⟨⟨hrooted, ?_, ?_, ?_, ?_⟩, hsubset⟩
    · intro component hcomponent
      obtain ⟨hpiece, hfilled, hother⟩ := hnamed component hcomponent
      refine ⟨hfilled, ?_, hother⟩
      rcases piece_cases hpiece with hwhole | rfl
      · exact (Lines.not_mem_cut separator value).1 component hwhole
      · exact (Lines.not_mem_cut separator value).2
    · rintro component hcomponent rfl
      exact hupward hcomponent
    · exact fun component hcomponent hnewline =>
        hline (hsubset component hcomponent hnewline)
    · intro component hcomponent
      have hascii : separator < 128 := by decide
      rcases piece_cases (hnamed component hcomponent).1 with hwhole | rfl
      · exact (htext.lines hascii).1 component hwhole
      · exact (htext.lines hascii).2

theorem Readable.logical {path : Path} (hreadable : Readable path)
    (htab : ∀ component ∈ path.components, tab ∉ component) : Logical path where
  rooted := hreadable.rooted
  component := hreadable.component
  upward := hreadable.upward
  plain component hcomponent _ hbyte :=
    ⟨fun heq => htab component hcomponent (heq ▸ hbyte),
      fun heq => hreadable.line component hcomponent (heq ▸ hbyte)⟩
  text := hreadable.text

theorem strip_some {start line rest : List UInt8} (hstrip : strip start line = some rest) :
    line = start ++ rest := by
  rw [strip] at hstrip
  split at hstrip
  · rename_i hstart
    cases hstrip
    obtain ⟨after, rfl⟩ := List.isPrefixOf_iff_prefix.mp hstart
    rw [List.drop_left]
  · cases hstrip

theorem splitOnce_some {delimiter : UInt8} {line before after : List UInt8}
    (hsplit : splitOnce delimiter line = some (before, after)) :
    line = before ++ delimiter :: after ∧ delimiter ∉ before := by
  rw [splitOnce, List.span_eq_takeWhile_dropWhile] at hsplit
  cases hdrop : line.dropWhile (· != delimiter) with
  | nil =>
      rw [hdrop] at hsplit
      cases hsplit
  | cons first rest =>
      rw [hdrop] at hsplit
      cases hsplit
      have hfirst : first = delimiter := by
        have hhead := List.head?_dropWhile_not (· != delimiter) line
        rw [hdrop] at hhead
        simpa using hhead
      have hjoin := List.takeWhile_append_dropWhile (p := (· != delimiter)) (l := line)
      rw [hdrop, hfirst] at hjoin
      refine ⟨hjoin.symm, fun hmem => ?_⟩
      simpa using List.mem_takeWhile_imp hmem

/-- A record that some text can give. -/
def Legible : OwnershipRecord → Prop
  | .file logical _ => Logical logical
  | .directory logical => Readable logical

theorem recordOfLine_legible {line : List UInt8} {record : OwnershipRecord}
    (htext : IsText line) (hline : newline ∉ line) (hrecord : recordOfLine line = some record) :
    Legible record := by
  have hascii : tab < 128 := by decide
  rw [recordOfLine] at hrecord
  split at hrecord
  · rename_i logical hstrip
    obtain ⟨path, hsafe, rfl⟩ := Option.map_eq_some_iff.mp hrecord
    have hsplit : line = [100, 105, 114] ++ tab :: logical := (strip_some hstrip).trans rfl
    rw [hsplit] at htext hline
    refine (readable_of_safe (htext.cut hascii).2 (fun hmem => hline ?_) hsafe).1
    exact List.mem_append_right _ (List.mem_cons_of_mem tab hmem)
  · split at hrecord
    · cases hrecord
    · rename_i logical expected honce
      obtain ⟨path, hsafe, rfl⟩ := Option.map_eq_some_iff.mp hrecord
      have hrest : IsText ((strip fileTag line).getD line) ∧
          newline ∉ (strip fileTag line).getD line := by
        cases hstrip : strip fileTag line with
        | none => exact ⟨htext, hline⟩
        | some rest =>
            have hsplit : line = [102, 105, 108, 101] ++ tab :: rest :=
              (strip_some hstrip).trans rfl
            rw [hsplit] at htext hline
            refine ⟨(htext.cut hascii).2, fun hmem => hline ?_⟩
            exact List.mem_append_right _ (List.mem_cons_of_mem tab hmem)
      obtain ⟨hparts, htab⟩ := splitOnce_some honce
      rw [hparts] at hrest
      obtain ⟨hreadable, hsubset⟩ := readable_of_safe (hrest.1.cut hascii).1
        (fun hmem => hrest.2 (List.mem_append_left _ hmem)) hsafe
      exact hreadable.logical fun component hcomponent hmem =>
        htab (hsubset component hcomponent hmem)

/-- Every line of a text is a text of one line. -/
theorem textLines_legible {bytes line : List UInt8} (htext : IsText bytes)
    (hline : line ∈ textLines bytes) : IsText line ∧ newline ∉ line := by
  have hascii : newline < 128 := by decide
  have hreturn : carriageReturn < 128 := by decide
  obtain ⟨hwhole, hlast⟩ := Lines.not_mem_cut newline bytes
  obtain ⟨htexts, htextLast⟩ := htext.lines hascii
  rw [textLines, List.mem_append] at hline
  rcases hline with hline | hline
  · obtain ⟨whole, hmem, rfl⟩ := List.mem_map.mp hline
    split
    · rename_i hend
      have hsplit : whole = whole.dropLast ++ carriageReturn :: [] :=
        (List.dropLast_append_getLast? _ hend).symm
      have hcut := htexts whole hmem
      rw [hsplit] at hcut
      exact ⟨(hcut.cut hreturn).1, fun hnewline =>
        hwhole whole hmem (List.dropLast_subset whole hnewline)⟩
    · exact ⟨htexts whole hmem, hwhole whole hmem⟩
  · split at hline
    · exact absurd hline List.not_mem_nil
    · rw [List.mem_singleton.mp hline]
      exact ⟨htextLast, hlast⟩

/-- The records of a marker are legible, whatever the marker is. -/
theorem readRecords_legible {tree after : Tree} {marker : Path}
    {records : List OwnershipRecord}
    (hread : readRecords marker tree = .ok (some records) after) :
    ∀ record ∈ records, Legible record := by
  rw [readRecords] at hread
  split at hread
  · cases hread
  · cases hread
  · rename_i bytes mode hnode
    split at hread
    · cases hread
    · rename_i text hdecode
      cases hread
      intro record hrecord
      obtain ⟨line, hline, hmem⟩ := List.mem_filterMap.mp hrecord
      have htext : IsText bytes := ⟨text, Text.encode_of_decode hdecode⟩
      obtain ⟨hlineText, hnewline⟩ := textLines_legible htext hline
      exact recordOfLine_legible hlineText hnewline hmem

end Xtask

end Wiiland
