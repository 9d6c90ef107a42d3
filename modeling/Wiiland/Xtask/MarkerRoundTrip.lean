/-
The marker of an installation, written and read back.  It tells the files and the
directories exactly when their paths can be found in it again.
-/
import Mathlib.Data.Finset.Max
import Mathlib.Data.List.Flatten
import Wiiland.Xtask.Manifest
import Wiiland.Xtask.MarkerText
import Wiiland.Xtask.OwnedDirs

namespace Wiiland

namespace Xtask

open UnixPath FileTree

variable {location : Location} {items : List Item} {tree after : Tree}

/-- The records of the installed items and of the directories owned at that point. -/
def writtenRecords (location : Location) (items : List Item) (tree : Tree) :
    List OwnershipRecord :=
  ((contents items).map fun file => .file file.1 (expected location file.2)) ++
    (ownedAt location items tree).map .directory

/-- The marker is read back as the records that were written, none lost or misread. -/
def ReadsBack (location : Location) (items : List Item) (tree after : Tree) : Prop :=
  ∃ records, readRecords (markerPath location) after = .ok (some records) after ∧
    records.Perm (writtenRecords location items tree)

/-- A path whose text ends in a carriage return. -/
def ReturnEnded (path : Path) : Prop := path.toBytes.getLast? = some carriageReturn

theorem isText_display (path : Path) : IsText (display path) := ⟨_, rfl⟩

theorem isText_markerLine (files : List (Path × List UInt8)) (directories : List Path) :
    ∀ line ∈ markerLines location files directories, IsText line := by
  intro line hline
  have hfile : IsText fileTag := ⟨"file\t".toList, by decide⟩
  have hdirectory : IsText directoryTag := ⟨"dir\t".toList, by decide⟩
  rcases List.mem_append.mp hline with hmem | hmem
  · obtain ⟨file, _, rfl⟩ := List.mem_map.mp hmem
    exact (hfile.append (isText_display _)).append (isText_tab.cons (isText_expected _ _))
  · obtain ⟨logical, _, rfl⟩ := List.mem_map.mp hmem
    exact hdirectory.append (isText_display _)

/-- The text of a marker is always read. -/
theorem readRecords_written {marker : Path} {mode : UInt32} {files : List (Path × List UInt8)}
    {directories : List Path}
    (hmarker : tree.lookup marker =
      some (.file (joinLines (sortLines (markerLines location files directories))) mode)) :
    readRecords marker tree = .ok (some ((textLines (joinLines
      (sortLines (markerLines location files directories)))).filterMap recordOfLine)) tree := by
  have htexts : ∀ line ∈ sortLines (markerLines location files directories), IsText line :=
    fun line hline => isText_markerLine files directories line
      ((List.perm_insertionSort _ _).mem_iff.mp hline)
  obtain ⟨text, htext⟩ := isText_joinLines htexts
  rw [readRecords, hmarker]
  simp only
  rw [← htext, Text.decode_encode]

/-- The files that are read back have logical paths. -/
theorem ReadsBack.logical {result : Unit} (hback : ReadsBack location items tree after)
    (hruns : installItems location items tree = .ok result after) :
    ∀ item ∈ items, Logical item.destination := by
  obtain ⟨records, hread, hperm⟩ := hback
  obtain ⟨_, _, hsources, _⟩ := installItems_split hruns
  intro item hitem
  obtain ⟨bytes, hbytes⟩ := hsources item hitem
  have hwritten : OwnershipRecord.file item.destination (expected location bytes) ∈
      writtenRecords location items tree :=
    List.mem_append_left _ (List.mem_map.mpr
      ⟨(item.destination, bytes), mem_contents.mpr ⟨item, hitem, rfl, hbytes⟩, rfl⟩)
  exact readRecords_legible hread _ (hperm.mem_iff.mpr hwritten)

theorem priorRecords_readable {logical : Path}
    (hlogical : logical ∈ directoryRecords (priorRecords location tree)) :
    Readable logical := by
  rw [mem_directoryRecords, priorRecords] at hlogical
  split at hlogical
  · rename_i records after hread
    exact readRecords_legible hread _ hlogical
  · exact absurd hlogical List.not_mem_nil

instance (component : List UInt8) : Decidable (Component component) :=
  inferInstanceAs (Decidable (_ ∧ _ ∧ _))

theorem etc_logical : Logical etc where
  rooted := rfl
  component := by decide +kernel
  upward := by decide +kernel
  plain := by decide +kernel
  text component hcomponent := by
    rw [List.mem_singleton.mp hcomponent]
    exact ⟨_, rfl⟩

theorem marker_logical (hetc : location.sysconfdir = etc) : Logical location.marker where
  rooted := by rw [Location.marker, hetc]; rfl
  component := by rw [Location.marker, hetc]; decide +kernel
  upward := by rw [Location.marker, hetc]; decide +kernel
  plain := by rw [Location.marker, hetc]; decide +kernel
  text component hcomponent := by
    rw [Location.marker, hetc] at hcomponent
    rcases List.mem_append.mp hcomponent with hmem | hmem
    · exact etc_logical.text component hmem
    · rcases List.mem_pair.mp hmem with rfl | rfl <;> exact ⟨_, rfl⟩

/-- Directories that will be owned can be found in a marker, but for their last byte. -/
theorem WillOwn.readable {logical : Path} (hetc : location.sysconfdir = etc)
    (hitems : ∀ item ∈ items, Logical item.destination)
    (howned : WillOwn location items tree logical) : Readable logical := by
  rcases howned with ⟨hprior, _⟩ | ⟨⟨item, hitem, habove⟩ | habove, _⟩
  · exact priorRecords_readable hprior
  · exact (AbovePath.logical habove (hitems item hitem)).readable
  · exact (AbovePath.logical habove (marker_logical hetc)).readable

/-- A line without the carriage return before its end. -/
def stripReturn (line : List UInt8) : List UInt8 :=
  if line.getLast? = some carriageReturn then line.dropLast else line

theorem textLines_stripped {lines : List (List UInt8)}
    (hlines : ∀ line ∈ lines, newline ∉ line) :
    (textLines (joinLines lines)).filterMap recordOfLine =
      lines.filterMap fun line => recordOfLine (stripReturn line) := by
  cases lines with
  | nil => rfl
  | cons line lines =>
      have hcut := Lines.cut_glue hlines (List.not_mem_nil (a := newline))
      rw [joinLines_eq_glue, textLines, hcut, if_pos rfl, List.append_nil,
        List.filterMap_map]
      rfl

theorem records_of_lines {files : List (Path × List UInt8)} {directories : List Path}
    (hfiles : ∀ file ∈ files, Logical file.1)
    (hdirectories : ∀ logical ∈ directories, Readable logical) :
    (markerLines location files directories).filterMap recordOfLine =
      (files.map fun file => .file file.1 (expected location file.2)) ++
        directories.map .directory := by
  rw [markerLines, List.filterMap_append, List.filterMap_map, List.filterMap_map]
  congr 1
  · rw [← List.filterMap_eq_map]
    exact List.filterMap_congr fun file hfile => recordOfLine_file (hfiles file hfile) file.2
  · rw [← List.filterMap_eq_map]
    exact List.filterMap_congr fun logical hlogical =>
      recordOfLine_directory (hdirectories logical hlogical)

/-- The bytes in the names of a path. -/
def nameLength (path : Path) : Nat := path.components.flatten.length

theorem ReturnEnded.split {path : Path} (hreadable : Readable path)
    (hend : ReturnEnded path) : ∃ before last,
      path.components = before ++ [last ++ [carriageReturn]] ∧
      path.toBytes.dropLast = (before ++ [last]).flatMap (separator :: ·) := by
  rw [ReturnEnded] at hend
  rcases toBytes_rooted hreadable.rooted with ⟨htext, _⟩ | htext
  · rw [htext] at hend
    exact absurd hend (by decide)
  · rcases List.eq_nil_or_concat path.components with hnil | ⟨before, name, hname⟩
    · rw [htext, hnil] at hend
      exact absurd hend (by decide)
    · rw [List.concat_eq_append] at hname
      rcases List.eq_nil_or_concat name with hempty | ⟨last, byte, hbyte⟩
      · exact absurd hempty (hreadable.component name (by rw [hname]; simp)).1
      · rw [List.concat_eq_append] at hbyte
        have hbytes : path.toBytes =
            (before ++ [last]).flatMap (separator :: ·) ++ [byte] := by
          rw [htext, hname, hbyte]
          simp
        rw [hbytes, List.getLast?_concat, Option.some.injEq] at hend
        subst hend
        exact ⟨before, last, hname.trans (by rw [hbyte]), by rw [hbytes, List.dropLast_concat]⟩

/-- A directory line that loses its carriage return is read as a shorter path. -/
theorem stripped_shorter {path found : Path} (hreadable : Readable path)
    (hend : ReturnEnded path)
    (hrecord : recordOfLine (stripReturn (directoryLine path)) = some (.directory found)) :
    nameLength found < nameLength path := by
  obtain ⟨before, last, hcomponents, hdrop⟩ := hend.split hreadable
  have hfilled : path.toBytes ≠ [] := by
    intro hnil
    rw [ReturnEnded, hnil] at hend
    cases hend
  rw [stripReturn, if_pos ((getLast_directory hreadable).trans hend), directoryLine,
    hreadable.display, List.dropLast_append_of_ne_nil hfilled, hdrop, recordOfLine,
    strip_append] at hrecord
  obtain ⟨other, hsafe, heq⟩ := Option.map_eq_some_iff.mp hrecord
  cases heq
  rw [safeRecordPath] at hsafe
  split at hsafe
  · cases hsafe
  · cases hsafe
    have hseparators : ∀ component ∈ before ++ [last], separator ∉ component := by
      intro component hmem
      rcases List.mem_append.mp hmem with hmem | hmem
      · exact (hreadable.component component (by rw [hcomponents]; simp [hmem])).2.1
      · rw [List.mem_singleton.mp hmem]
        intro hseparator
        exact (hreadable.component (last ++ [carriageReturn])
          (by rw [hcomponents]; simp)).2.1 (List.mem_append_left _ hseparator)
    have hnames : List.Sublist (ofBytes ((before ++ [last]).flatMap (separator :: ·))).components
        ([] :: (before ++ [last])) := by
      rw [ofBytes, pieces_separated hseparators]
      have hhead : ¬([] :: (before ++ [last])).head? = some UnixPath.current := by
        rw [List.head?_cons]
        decide
      rw [if_neg hhead]
      split <;> exact List.filter_sublist
    have hlength := hnames.flatten.length_le
    rw [nameLength, nameLength, hcomponents]
    simp only [List.flatten_cons, List.nil_append, List.flatten_append, List.flatten_nil,
      List.append_nil, List.length_append, List.length_singleton] at hlength ⊢
    omega

section written

variable {result : Unit} (hetc : location.sysconfdir = etc)
  (hruns : installItems location items tree = .ok result after)
  (hitems : ∀ item ∈ items, Logical item.destination)

include hitems

theorem contents_logical : ∀ file ∈ contents items, Logical file.1 := by
  rintro ⟨logical, bytes⟩ hfile
  obtain ⟨item, hitem, rfl, _⟩ := mem_contents.mp hfile
  exact hitems item hitem

include hetc hruns

theorem mem_owned (logical : Path) :
    logical ∈ ownedAt location items tree ↔ WillOwn location items tree logical :=
  mem_ownedAt (by rw [hetc]; rfl) (fun item hitem => (hitems item hitem).rooted) hruns logical

theorem owned_readable : ∀ logical ∈ ownedAt location items tree, Readable logical :=
  fun logical hlogical =>
    ((mem_owned hetc hruns hitems logical).mp hlogical).readable hetc hitems

/-- Paths that can be found again are read back. -/
theorem readsBack_of_plain
    (hends : ∀ logical, WillOwn location items tree logical → ¬ReturnEnded logical) :
    ReadsBack location items tree after := by
  obtain ⟨_, _, _, hmarker⟩ := installItems_split hruns
  have hreadable := owned_readable hetc hruns hitems
  have hwhole : ∀ line ∈ sortLines (markerLines location (contents items)
      (ownedAt location items tree)), WholeLine line := by
    intro line hline
    rcases List.mem_append.mp ((List.perm_insertionSort _ _).mem_iff.mp hline) with hmem | hmem
    · obtain ⟨file, hfile, rfl⟩ := List.mem_map.mp hmem
      exact wholeLine_file (contents_logical hitems file hfile).readable file.2
    · obtain ⟨logical, hlogical, rfl⟩ := List.mem_map.mp hmem
      exact wholeLine_directory (hreadable logical hlogical)
        (hends logical ((mem_owned hetc hruns hitems logical).mp hlogical))
  refine ⟨_, readRecords_written hmarker, ?_⟩
  rw [textLines_joinLines hwhole, writtenRecords,
    ← records_of_lines (contents_logical hitems) hreadable]
  exact (List.perm_insertionSort _ _).filterMap recordOfLine

/-- The owned directory whose name is the longest of those that end in a carriage return
cannot be read back. -/
theorem ReadsBack.ends (hback : ReadsBack location items tree after) :
    ∀ logical, WillOwn location items tree logical → ¬ReturnEnded logical := by
  classical
  intro logical hlogical hend
  have hreadable := owned_readable hetc hruns hitems
  obtain ⟨longest, hlongest, hmax⟩ :=
    ((ownedAt location items tree).toFinset.filter ReturnEnded).exists_max_image nameLength
      ⟨logical, Finset.mem_filter.mpr ⟨List.mem_toFinset.mpr
        ((mem_owned hetc hruns hitems logical).mpr hlogical), hend⟩⟩
  obtain ⟨howned, hreturn⟩ := Finset.mem_filter.mp hlongest
  obtain ⟨records, hread, hperm⟩ := hback
  obtain ⟨_, _, _, hmarker⟩ := installItems_split hruns
  rw [readRecords_written hmarker] at hread
  obtain rfl := Option.some.inj (EStateM.Result.ok.inj hread).1
  have hlines : ∀ line ∈ sortLines (markerLines location (contents items)
      (ownedAt location items tree)), newline ∉ line := by
    intro line hline
    rcases List.mem_append.mp ((List.perm_insertionSort _ _).mem_iff.mp hline) with hmem | hmem
    · obtain ⟨file, hfile, rfl⟩ := List.mem_map.mp hmem
      exact (wholeLine_file (contents_logical hitems file hfile).readable file.2).1
    · obtain ⟨other, hother, rfl⟩ := List.mem_map.mp hmem
      exact line_directory (hreadable other hother)
  rw [textLines_stripped hlines] at hperm
  have hwritten : OwnershipRecord.directory longest ∈ writtenRecords location items tree :=
    List.mem_append_right _ (List.mem_map.mpr ⟨longest, List.mem_toFinset.mp howned, rfl⟩)
  obtain ⟨line, hline, hrecord⟩ := List.mem_filterMap.mp (hperm.mem_iff.mpr hwritten)
  rcases List.mem_append.mp ((List.perm_insertionSort _ _).mem_iff.mp hline) with hmem | hmem
  · obtain ⟨file, hfile, rfl⟩ := List.mem_map.mp hmem
    have hlogical := contents_logical hitems file hfile
    rw [stripReturn, if_neg (wholeLine_file hlogical.readable file.2).2.1,
      recordOfLine_file hlogical] at hrecord
    cases hrecord
  · obtain ⟨other, hother, rfl⟩ := List.mem_map.mp hmem
    by_cases hreturned : ReturnEnded other
    · have hshorter := stripped_shorter (hreadable other hother) hreturned hrecord
      have hbound := hmax other
        (Finset.mem_filter.mpr ⟨List.mem_toFinset.mpr hother, hreturned⟩)
      omega
    · have hplain := wholeLine_directory (hreadable other hother) hreturned
      rw [stripReturn, if_neg hplain.2.1, recordOfLine_directory (hreadable other hother)]
        at hrecord
      cases hrecord
      exact hreturned hreturn

end written

/-- The marker is read back exactly when every file has a path that a line can hold, and
no directory that will be owned has a name that ends in a carriage return. -/
theorem readsBack_iff {manifest : Manifest} {destdir : Path} {processId : Nat}
    (hvalid : manifest.dirs.validate = .ok ()) {result : Unit}
    (hruns : installItems (manifest.location destdir processId) items tree =
      .ok result after) :
    ReadsBack (manifest.location destdir processId) items tree after ↔
      (∀ item ∈ items, Logical item.destination) ∧
        ∀ logical, WillOwn (manifest.location destdir processId) items tree logical →
          ¬ReturnEnded logical := by
  have hetc : (manifest.location destdir processId).sysconfdir = etc :=
    LogicalDirs.validate_sysconfdir hvalid
  constructor
  · intro hback
    have hitems := hback.logical hruns
    exact ⟨hitems, ReadsBack.ends hetc hruns hitems hback⟩
  · rintro ⟨hitems, hends⟩
    exact readsBack_of_plain hetc hruns hitems hends

theorem AbovePath.not_returnEnded {path made : Path} (habove : AbovePath path made)
    (hlogical : Logical path) (hplain : EndsPlain path) : ¬ReturnEnded made := by
  have hmade := habove.logical hlogical
  obtain ⟨parent, hparent, hancestor⟩ := habove
  obtain ⟨components, hstart, rfl⟩ := List.mem_map.mp hancestor
  rw [Path.parent] at hparent
  split at hparent
  · cases hparent
  · cases hparent
    refine EndsPlain.toBytes (fun component hcomponent => hplain component ?_) hmade
    exact List.dropLast_subset _ (((List.mem_inits _ _).mp hstart).subset hcomponent)

/-- The manifest that the arguments of an installation with this prefix give. -/
def prefixed (name : List UInt8) : Manifest where
  root := ⟨true, []⟩
  dirs := LogicalDirOverrides.resolve { prefixDir := some ⟨true, [name]⟩ }
  features := {}
  udevDir := none
  systemdDir := none
  xorgDir := none

/-- The daemon of the manifest, as an empty file. -/
def daemonItem (manifest : Manifest) : Item :=
  manifest.load (fun _ => .ok []) (manifest.builtItem (utf8 "release") "wiilandd")

/-- An installation below a plain prefix. -/
theorem readsBack_iff_plain : ∃ after,
    installItems ((prefixed [97]).location ⟨false, []⟩ 1) [daemonItem (prefixed [97])] ∅ =
      .ok () after ∧
    ReadsBack ((prefixed [97]).location ⟨false, []⟩ 1) [daemonItem (prefixed [97])] ∅ after := by
  obtain ⟨after, hruns⟩ : ∃ after, installItems ((prefixed [97]).location ⟨false, []⟩ 1)
      [daemonItem (prefixed [97])] ∅ = .ok () after := ⟨_, rfl⟩
  have hlogical : Logical (daemonItem (prefixed [97])).destination := by
    refine ⟨rfl, by decide +kernel, by decide +kernel, by decide +kernel,
      fun component hcomponent => ?_⟩
    rcases List.mem_cons.mp hcomponent with rfl | hcomponent
    · exact ⟨['a'], by decide⟩
    · rcases List.mem_pair.mp hcomponent with rfl | rfl <;> exact ⟨_, rfl⟩
  refine ⟨after, hruns, (readsBack_iff rfl hruns).mpr ⟨?_, ?_⟩⟩
  · intro item hitem
    rw [List.mem_singleton.mp hitem]
    exact hlogical
  · rintro logical (⟨hprior, _⟩ | ⟨⟨item, hitem, habove⟩ | habove, _⟩)
    · exact absurd hprior List.not_mem_nil
    · rw [List.mem_singleton.mp hitem] at habove
      exact AbovePath.not_returnEnded habove hlogical (by unfold EndsPlain; decide +kernel)
    · exact AbovePath.not_returnEnded habove (marker_logical rfl)
        (by unfold EndsPlain; decide +kernel)

/-- A prefix with a tab passes every check, and its files are misread. -/
theorem readsBack_tabbed :
    ¬ ∀ (root : Path) (dirs : LogicalDirs) (features : Features)
        (udevText systemdText xorgText : List UInt8) (udev systemd xorg : OptionalDir)
        (queried : Queried) (manifest : Manifest) (profile : List UInt8)
        (docs : List (List (List UInt8))) (read : Path → Except FileTree.Error (List UInt8))
        (destdir : Path) (processId : Nat) (items : List Item) (tree after : Tree),
      OptionalDir.parse udevText = .ok udev → OptionalDir.parse systemdText = .ok systemd →
      OptionalDir.parse xorgText = .ok xorg →
      Manifest.new root dirs features udev systemd xorg queried = .ok manifest →
      (∀ item ∈ items, ∃ listed ∈ manifest.items profile docs,
        item = manifest.load read listed) →
      installItems (manifest.location destdir processId) items tree = .ok () after →
      ReadsBack (manifest.location destdir processId) items tree after := by
  intro hback
  obtain ⟨after, hruns⟩ : ∃ after, installItems
      ((prefixed [97, tab, 98]).location ⟨false, []⟩ 1) [daemonItem (prefixed [97, tab, 98])] ∅ =
        .ok () after := ⟨_, rfl⟩
  have hread := hback ⟨true, []⟩ (prefixed [97, tab, 98]).dirs {} (utf8 "no") (utf8 "no")
    (utf8 "no") .no .no .no {} (prefixed [97, tab, 98]) (utf8 "release") []
    (fun _ => .ok []) ⟨false, []⟩ 1 _ ∅ after rfl rfl rfl rfl ?_ hruns
  · have hlogical := hread.logical hruns _ (List.mem_singleton_self _)
    have hmem : [97, tab, 98] ∈ (daemonItem (prefixed [97, tab, 98])).destination.components :=
      List.mem_cons_self
    exact (hlogical.plain _ hmem tab (by decide)).1 rfl
  · intro item hitem
    rw [List.mem_singleton.mp hitem]
    exact ⟨_, List.mem_cons_self, rfl⟩

end Xtask

end Wiiland
