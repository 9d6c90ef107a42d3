/-
What an installation and an uninstallation do to the tree: which paths they touch, and
which directories they make.
-/
import Wiiland.Xtask.Records

namespace Wiiland

namespace Xtask

open UnixPath FileTree

variable {location : Location} {items : List Item} {tree middle after : Tree} {path : Path}

theorem staged_injective {destdir first second : Path} (hfirst : first.rooted = true)
    (hsecond : second.rooted = true) (heq : staged destdir first = staged destdir second) :
    first = second := by
  obtain ⟨rooted, components⟩ := first
  obtain ⟨rooted', components'⟩ := second
  cases hfirst
  cases hsecond
  rw [staged, staged] at heq
  split at heq
  · exact heq
  · rw [UnixPath.Path.extend, UnixPath.Path.extend, UnixPath.Path.mk.injEq] at heq
    have hcomponents : components = components' := List.append_cancel_left heq.2
    rw [hcomponents]

/-- Outside of what was touched, nothing but new directories. -/
def Frame (touched : Path → Prop) (tree after : Tree) : Prop :=
  ∀ path, ¬touched path → after.lookup path = tree.lookup path ∨
    tree.lookup path = none ∧ after.lookup path = some .directory

/-- Directories stay. -/
def Stays (tree after : Tree) : Prop :=
  ∀ path, tree.lookup path = some .directory → after.lookup path = some .directory

theorem Frame.refl (touched : Path → Prop) (tree : Tree) : Frame touched tree tree :=
  fun _ _ => .inl rfl

theorem Frame.trans {touched : Path → Prop} (hfirst : Frame touched tree middle)
    (hsecond : Frame touched middle after) : Frame touched tree after := by
  intro path huntouched
  rcases hfirst path huntouched with hsame | ⟨hnone, hmade⟩
  · rw [← hsame]
    exact hsecond path huntouched
  · rcases hsecond path huntouched with hsame | ⟨habsent, _⟩
    · exact .inr ⟨hnone, hsame.trans hmade⟩
    · rw [hmade] at habsent
      cases habsent

theorem Frame.mono {touched larger : Path → Prop} (hframe : Frame touched tree after)
    (hlarger : ∀ path, touched path → larger path) : Frame larger tree after :=
  fun path huntouched => hframe path fun htouched => huntouched (hlarger path htouched)

/-- What is there and is not touched stays as it is. -/
theorem Frame.kept {touched : Path → Prop} {node : Node} (hframe : Frame touched tree after)
    (huntouched : ¬touched path) (hnode : tree.lookup path = some node) :
    after.lookup path = some node := by
  rcases hframe path huntouched with hsame | ⟨hnone, _⟩
  · rw [hsame, hnode]
  · rw [hnode] at hnone
    cases hnone

theorem Stays.trans (hfirst : Stays tree middle) (hsecond : Stays middle after) :
    Stays tree after := fun path hdirectory => hsecond path (hfirst path hdirectory)

theorem frame_createDir (tree : Tree) (path : Path) (hnone : tree.lookup path = none) :
    Frame (fun _ => False) tree (tree.insert path .directory) := by
  intro other _
  by_cases hother : other = path
  · subst hother
    exact .inr ⟨hnone, AList.lookup_insert tree⟩
  · exact .inl (AList.lookup_insert_ne hother)

theorem Frame.stays (hframe : Frame (fun _ => False) tree after) : Stays tree after :=
  fun _ hdirectory => hframe.kept (fun hfalse => hfalse) hdirectory

/-- A directory that is owned after a run: it was owned before, or the run made it. -/
def Owns (destdir : Path) (allowed : Path → Prop) (owned owned' : List Path)
    (tree after : Tree) : Prop :=
  ∀ logical ∈ owned', logical ∈ owned ∨ allowed logical ∧
    tree.lookup (staged destdir logical) ≠ some .directory ∧
    after.lookup (staged destdir logical) = some .directory

theorem Owns.before {destdir : Path} {allowed : Path → Prop} {owned owned' : List Path}
    (howns : Owns destdir allowed owned owned' middle after) (hstays : Stays tree middle) :
    Owns destdir allowed owned owned' tree after := fun logical hlogical =>
  (howns logical hlogical).imp_right fun ⟨hallowed, hnot, hmade⟩ =>
    ⟨hallowed, fun hdirectory => hnot (hstays _ hdirectory), hmade⟩

theorem Owns.later {destdir : Path} {allowed : Path → Prop} {owned owned' : List Path}
    (howns : Owns destdir allowed owned owned' tree middle) (hstays : Stays middle after) :
    Owns destdir allowed owned owned' tree after := fun logical hlogical =>
  (howns logical hlogical).imp_right fun ⟨hallowed, hnot, hmade⟩ =>
    ⟨hallowed, hnot, hstays _ hmade⟩

theorem Owns.trans {destdir : Path} {allowed : Path → Prop} {owned owned' owned'' : List Path}
    (hfirst : Owns destdir allowed owned owned' tree after)
    (hsecond : Owns destdir allowed owned' owned'' tree after) :
    Owns destdir allowed owned owned'' tree after := by
  intro logical hlogical
  rcases hsecond logical hlogical with howned | hmade
  · exact hfirst logical howned
  · exact .inr hmade

theorem Owns.mono {destdir : Path} {allowed larger : Path → Prop} {owned owned' : List Path}
    (howns : Owns destdir allowed owned owned' tree after)
    (hlarger : ∀ logical, allowed logical → larger logical) :
    Owns destdir larger owned owned' tree after := fun logical hlogical =>
  (howns logical hlogical).imp_right fun ⟨hallowed, hmade⟩ => ⟨hlarger logical hallowed, hmade⟩

theorem createDirs_ok {destdir : Path} {list owned owned' : List Path}
    (hruns : createDirs destdir list owned tree = .ok owned' after) :
    Frame (fun _ => False) tree after ∧ Owns destdir (· ∈ list) owned owned' tree after := by
  induction list generalizing owned tree with
  | nil =>
      obtain ⟨rfl, rfl⟩ := pure_ok.mp hruns
      exact ⟨.refl _ _, fun _ hlogical => .inl hlogical⟩
  | cons logical rest ih =>
      rw [createDirs, bind_ok] at hruns
      obtain ⟨answer, middle, hmake, hruns⟩ := hruns
      rcases attempt_ok.mp hmake with ⟨_, hmade, rfl⟩ | ⟨error, hfailed, rfl⟩
      · obtain ⟨hnone, rfl⟩ := createDir_ok hmade
        obtain ⟨hframe, howns⟩ := ih hruns
        have hfirst := frame_createDir tree (staged destdir logical) hnone
        refine ⟨hfirst.trans hframe, Owns.trans (Owns.later (fun other hother => ?_) hframe.stays)
          ((howns.mono fun _ hother => List.mem_cons_of_mem _ hother).before hfirst.stays)⟩
        rcases List.mem_insert_iff.mp hother with rfl | hother
        · exact .inr ⟨List.mem_cons_self, by rw [hnone]; exact (Option.some_ne_none _).symm,
            AList.lookup_insert tree⟩
        · exact .inl hother
      · obtain rfl := createDir_error hfailed
        obtain ⟨now, there, hget, hruns⟩ := bind_ok.mp hruns
        cases hget
        split at hruns
        · obtain ⟨hframe, howns⟩ := ih hruns
          exact ⟨hframe, howns.mono fun _ hother => List.mem_cons_of_mem _ hother⟩
        · cases hruns

theorem ensureParentDirs_ok {destdir logical : Path} {owned owned' : List Path}
    (hruns : ensureParentDirs destdir logical owned tree = .ok owned' after) :
    Frame (fun _ => False) tree after ∧
      Owns destdir (fun made => ∃ parent, logical.parent = some parent ∧ made ∈ parent.ancestors)
        owned owned' tree after := by
  rw [ensureParentDirs] at hruns
  cases hparent : logical.parent with
  | none =>
      rw [hparent] at hruns
      cases hruns
  | some parent =>
      rw [hparent] at hruns
      obtain ⟨hframe, howns⟩ := createDirs_ok hruns
      exact ⟨hframe, howns.mono fun made hmade => ⟨parent, rfl, hmade⟩⟩

/-- A write that succeeds puts the file there and changes nothing else. -/
theorem atomicWrite_ok {bytes : List UInt8} {mode : UInt32} {result : Unit}
    (hruns : atomicWrite location path bytes mode tree = .ok result after) :
    tree.lookup path ≠ some .directory ∧ after.lookup path = some (.file bytes mode) ∧
      ∀ other, other ≠ path → after.lookup other = tree.lookup other := by
  rw [atomicWrite] at hruns
  cases hparent : path.parent with
  | none =>
      rw [hparent] at hruns
      cases hruns
  | some parent =>
      rw [hparent] at hruns
      simp only at hruns
      obtain ⟨answer, middle, hanswer, hruns⟩ := bind_ok.mp hruns
      rcases attempt_ok.mp hanswer with ⟨_, hwrite, rfl⟩ | ⟨error, _, rfl⟩
      · obtain ⟨_, rfl⟩ := pure_ok.mp hruns
        exact createNew_rename_ok hwrite
      · obtain ⟨_, middle, _, hthrow⟩ := bind_ok.mp hruns
        cases hthrow

/-- What the items are, where they could be read. -/
def contents (items : List Item) : List (Path × List UInt8) :=
  items.filterMap fun item => item.source.toOption.map (item.destination, ·)

theorem mem_contents {logical : Path} {bytes : List UInt8} :
    (logical, bytes) ∈ contents items ↔
      ∃ item ∈ items, item.destination = logical ∧ item.source = .ok bytes := by
  rw [contents, List.mem_filterMap]
  refine exists_congr fun item => and_congr_right fun _ => ?_
  cases item.source with
  | error error => simp [Except.toOption]
  | ok found => simp [Except.toOption]

/-- The path is where an item goes. -/
def IsDestination (location : Location) (items : List Item) (path : Path) : Prop :=
  ∃ item ∈ items, path = staged location.destdir item.destination

/-- A directory above the destination of an item. -/
def AboveItem (items : List Item) (made : Path) : Prop :=
  ∃ item ∈ items, ∃ parent, item.destination.parent = some parent ∧ made ∈ parent.ancestors

theorem atomicWrite_frame {bytes : List UInt8} {mode : UInt32} {result : Unit}
    (hruns : atomicWrite location path bytes mode tree = .ok result after) :
    Frame (· = path) tree after ∧ Stays tree after := by
  obtain ⟨hnot, _, hothers⟩ := atomicWrite_ok hruns
  refine ⟨fun other hother => .inl (hothers other hother), fun other hdirectory => ?_⟩
  rw [hothers other, hdirectory]
  rintro rfl
  exact hnot hdirectory

theorem writeItems_ok {owned owned' : List Path} {records records' : List (List UInt8)}
    (hruns : writeItems location items owned records tree = .ok (owned', records') after) :
    records' = records ++
        (contents items).map (fun file => fileLine location file.1 file.2) ∧
      Frame (IsDestination location items) tree after ∧ Stays tree after ∧
      (∀ path, IsDestination location items path →
        ∃ bytes mode, after.lookup path = some (.file bytes mode)) ∧
      Owns location.destdir (AboveItem items) owned owned' tree after := by
  induction items generalizing owned records tree with
  | nil =>
      obtain ⟨heq, rfl⟩ := pure_ok.mp hruns
      cases heq
      exact ⟨(List.append_nil _).symm, .refl _ _, fun _ hdirectory => hdirectory,
        fun _ ⟨_, hitem, _⟩ => absurd hitem List.not_mem_nil, fun _ hlogical => .inl hlogical⟩
  | cons item items ih =>
      rw [writeItems] at hruns
      obtain ⟨made, first, hparents, hruns⟩ := bind_ok.mp hruns
      obtain ⟨hparentFrame, hparentOwns⟩ := ensureParentDirs_ok hparents
      cases hsource : item.source with
      | error error =>
          rw [hsource] at hruns
          cases hruns
      | ok bytes =>
          rw [hsource] at hruns
          simp only at hruns
          obtain ⟨_, second, hwrite, hruns⟩ := bind_ok.mp hruns
          obtain ⟨hrecords, hframe, hstays, hfiles, howns⟩ := ih hruns
          obtain ⟨hwriteFrame, hwriteStays⟩ := atomicWrite_frame hwrite
          have hfirst : Stays tree second := hparentFrame.stays.trans hwriteStays
          refine ⟨?_, ?_, hfirst.trans hstays, ?_, ?_⟩
          · rw [hrecords, contents, contents, List.filterMap_cons, hsource]
            simp [Except.toOption]
          · refine ((hparentFrame.mono fun _ hfalse => hfalse.elim).trans
              (hwriteFrame.mono fun _ hplace => ⟨item, List.mem_cons_self, hplace⟩)).trans
              (hframe.mono fun _ ⟨other, hother, hplace⟩ =>
                ⟨other, List.mem_cons_of_mem _ hother, hplace⟩)
          · rintro path ⟨other, hother, rfl⟩
            by_cases hlater :
                IsDestination location items (staged location.destdir other.destination)
            · exact hfiles _ hlater
            · rcases List.mem_cons.mp hother with rfl | hother
              · exact ⟨bytes, _, hframe.kept hlater (atomicWrite_ok hwrite).2.1⟩
              · exact absurd ⟨other, hother, rfl⟩ hlater
          · have hmade := (hparentOwns.later (hwriteStays.trans hstays)).mono
              fun made habove => (⟨item, List.mem_cons_self, habove⟩ :
                AboveItem (item :: items) made)
            refine hmade.trans ((howns.before hfirst).mono ?_)
            exact fun _ ⟨other, hother, habove⟩ =>
              ⟨other, List.mem_cons_of_mem _ hother, habove⟩

/-- A recorded file that nobody has changed and that no item replaces. -/
def Stale (location : Location) (items : List Item) (prior : List (Path × List UInt8))
    (tree : Tree) (path : Path) : Prop :=
  ∃ logical record, (logical, record) ∈ prior ∧
    (∀ item ∈ items, item.destination ≠ logical) ∧ path = staged location.destdir logical ∧
    recordMatches location tree path record = true

theorem recordMatches_iff {record : List UInt8} :
    recordMatches location tree path record = true ↔
      ∃ bytes mode, tree.lookup path = some (.file bytes mode) ∧
        expected location bytes = record := by
  rw [recordMatches]
  cases tree.lookup path with
  | none => simp
  | some node =>
      cases node with
      | file bytes mode => simp
      | directory => simp

theorem stale_congr {prior : List (Path × List UInt8)}
    (hlookup : middle.lookup path = tree.lookup path) :
    Stale location items prior middle path ↔ Stale location items prior tree path := by
  have hmatches : ∀ record, recordMatches location middle path record =
      recordMatches location tree path record := fun record => by
    rw [recordMatches, recordMatches, hlookup]
  simp only [Stale, hmatches]

/-- The first record does not make the path stale. -/
theorem stale_cons {logical : Path} {record : List UInt8} {rest : List (Path × List UInt8)}
    (hskip : (∀ item ∈ items, item.destination ≠ logical) →
      path = staged location.destdir logical →
      recordMatches location tree path record = false) :
    Stale location items ((logical, record) :: rest) tree path ↔
      Stale location items rest tree path := by
  constructor
  · rintro ⟨other, found, hmem, hitems, hpath, hmatches⟩
    rcases List.mem_cons.mp hmem with heq | hmem
    · cases heq
      rw [hskip hitems hpath] at hmatches
      cases hmatches
    · exact ⟨other, found, hmem, hitems, hpath, hmatches⟩
  · rintro ⟨other, found, hmem, hstale⟩
    exact ⟨other, found, List.mem_cons_of_mem _ hmem, hstale⟩

/-- Stale files go, and everything else stays. -/
theorem removeStale_ok {prior : List (Path × List UInt8)} {result : Unit}
    (hruns : removeStale location items prior tree = .ok result after) (path : Path) :
    (Stale location items prior tree path → after.lookup path = none) ∧
      (¬Stale location items prior tree path → after.lookup path = tree.lookup path) := by
  induction prior generalizing tree with
  | nil =>
      obtain ⟨_, rfl⟩ := pure_ok.mp hruns
      exact ⟨fun ⟨_, _, hmem, _⟩ => absurd hmem List.not_mem_nil, fun _ => rfl⟩
  | cons entry rest ih =>
      obtain ⟨logical, record⟩ := entry
      rw [removeStale] at hruns
      split at hruns
      · rename_i hselected
        have hskip : (∀ item ∈ items, item.destination ≠ logical) →
            path = staged location.destdir logical →
            recordMatches location tree path record = false := fun hitems _ => by
          obtain ⟨item, hitem, heq⟩ := List.any_eq_true.mp hselected
          exact absurd (beq_iff_eq.mp heq) (hitems item hitem)
        rw [stale_cons hskip]
        exact ih hruns
      · rename_i hother
        obtain ⟨now, there, hget, hruns⟩ := bind_ok.mp hruns
        cases hget
        split at hruns
        · rename_i hmatches
          obtain ⟨_, middle, hremove, hruns⟩ := bind_ok.mp hruns
          obtain ⟨_, rfl⟩ := removeFile_ok hremove
          obtain ⟨hgone, hkept⟩ := ih hruns
          by_cases hpath : path = staged location.destdir logical
          · have hitems : ∀ item ∈ items, item.destination ≠ logical := fun item hitem heq =>
              hother (List.any_eq_true.mpr ⟨item, hitem, beq_iff_eq.mpr heq⟩)
            have hnone : (tree.erase (staged location.destdir logical)).lookup path = none := by
              rw [hpath, AList.lookup_erase]
            have hnot : ¬Stale location items rest
                (tree.erase (staged location.destdir logical)) path := by
              rintro ⟨_, _, _, _, _, hfound⟩
              obtain ⟨_, _, hfile, _⟩ := recordMatches_iff.mp hfound
              rw [hnone] at hfile
              cases hfile
            refine ⟨fun _ => by rw [hkept hnot, hnone], fun hfresh => absurd ?_ hfresh⟩
            exact ⟨logical, record, List.mem_cons_self, hitems, hpath,
              by rw [hpath]; exact hmatches⟩
          · have hlookup := AList.lookup_erase_ne (s := tree) hpath
            rw [stale_cons fun _ heq => absurd heq hpath, ← stale_congr hlookup, ← hlookup]
            exact ⟨hgone, hkept⟩
        · rename_i hmatches
          have hskip : (∀ item ∈ items, item.destination ≠ logical) →
              path = staged location.destdir logical →
              recordMatches location tree path record = false := fun _ hpath => by
            rw [hpath]
            exact Bool.eq_false_iff.mpr hmatches
          rw [stale_cons hskip]
          exact ih hruns

theorem removeRecorded_eq (location : Location) (prior : List (Path × List UInt8)) :
    removeRecorded location prior = removeStale location [] prior := by
  induction prior with
  | nil => rfl
  | cons entry rest ih => rw [removeRecorded, removeStale, ih]; rfl

theorem readRecords_tree {marker : Path} {records : Option (List OwnershipRecord)}
    (hread : readRecords marker tree = .ok records after) : after = tree := by
  rw [readRecords] at hread
  split at hread
  · cases hread
    rfl
  · cases hread
  · split at hread
    · cases hread
    · cases hread
      rfl

theorem safeRecordPath_rooted {value : List UInt8} {path : Path}
    (hpath : safeRecordPath value = some path) : path.rooted = true := by
  rw [safeRecordPath] at hpath
  split at hpath
  · cases hpath
  · rename_i hneither
    cases hpath
    rw [Bool.or_eq_true, not_or] at hneither
    simpa using hneither.1

theorem recordOfLine_rooted {line : List UInt8} {logical : Path} {record : List UInt8}
    (hrecord : recordOfLine line = some (.file logical record)) : logical.rooted = true := by
  rw [recordOfLine] at hrecord
  split at hrecord
  · obtain ⟨_, _, heq⟩ := Option.map_eq_some_iff.mp hrecord
    cases heq
  · split at hrecord
    · cases hrecord
    · obtain ⟨_, hpath, heq⟩ := Option.map_eq_some_iff.mp hrecord
      cases heq
      exact safeRecordPath_rooted hpath

/-- Every file record that is read has an absolute path. -/
theorem readRecords_rooted {marker : Path} {records : Option (List OwnershipRecord)}
    (hread : readRecords marker tree = .ok records after) {logical : Path}
    {record : List UInt8} (hmem : (logical, record) ∈ fileRecords (records.getD [])) :
    logical.rooted = true := by
  rw [readRecords] at hread
  split at hread
  · cases hread
    exact absurd hmem List.not_mem_nil
  · cases hread
  · split at hread
    · cases hread
    · cases hread
      obtain ⟨line, _, hline⟩ := List.mem_filterMap.mp (mem_fileRecords.mp hmem)
      exact recordOfLine_rooted hline

theorem mem_foldl_insert {logical : Path} (list owned : List Path) :
    logical ∈ list.foldl (fun owned made => owned.insert made) owned ↔
      logical ∈ owned ∨ logical ∈ list := by
  induction list generalizing owned with
  | nil => simp
  | cons made list ih =>
      rw [List.foldl_cons, ih, List.mem_insert_iff, List.mem_cons]
      tauto

/-- A directory that an installation makes is above an item or the marker. -/
def Above (location : Location) (items : List Item) (made : Path) : Prop :=
  AboveItem items made ∨
    ∃ parent, location.marker.parent = some parent ∧ made ∈ parent.ancestors

/-- What a successful installation does, by the records that it finds. -/
structure Installed (location : Location) (items : List Item) (prior : List OwnershipRecord)
    (owned : List Path) (tree after : Tree) : Prop where
  stale : ∀ path, path ≠ markerPath location → ¬IsDestination location items path →
    Stale location items (fileRecords prior) tree path →
    ∀ bytes mode, after.lookup path ≠ some (.file bytes mode)
  other : ∀ path bytes mode, path ≠ markerPath location → ¬IsDestination location items path →
    ¬Stale location items (fileRecords prior) tree path →
    tree.lookup path = some (.file bytes mode) → after.lookup path = some (.file bytes mode)
  destination : ∀ path, path ≠ markerPath location → IsDestination location items path →
    ∃ bytes mode, after.lookup path = some (.file bytes mode)
  stays : Stays tree after
  marker : after.lookup (markerPath location) = some (.file
    (joinLines (sortLines (markerLines location (contents items) owned))) 0o644)
  owned : ∀ logical ∈ owned, logical ∈ directoryRecords prior ∨ Above location items logical ∧
    tree.lookup (staged location.destdir logical) ≠ some .directory ∧
    after.lookup (staged location.destdir logical) = some .directory

theorem installItems_ok {result : Unit}
    (hrooted : ∀ item ∈ items, item.destination.rooted = true)
    (hruns : installItems location items tree = .ok result after) :
    ∃ prior owned, readRecords (markerPath location) tree = .ok prior tree ∧
      Installed location items (prior.getD []) owned tree after := by
  rw [installItems] at hruns
  obtain ⟨prior, first, hread, hprior⟩ := bind_ok.mp hruns
  obtain rfl := readRecords_tree hread
  obtain ⟨now, there, hget, hitems⟩ := bind_ok.mp hprior
  cases hget
  obtain ⟨⟨written, records⟩, second, hwrite, hwritten⟩ := bind_ok.mp hitems
  obtain ⟨_, third, hremove, hremoved⟩ := bind_ok.mp hwritten
  obtain ⟨owned, fourth, hparents, hmark⟩ := bind_ok.mp hremoved
  obtain ⟨rfl, hframe, hstays, hfiles, howns⟩ := writeItems_ok hwrite
  have hstale := removeStale_ok hremove
  obtain ⟨hparentFrame, hparentOwns⟩ := ensureParentDirs_ok hparents
  obtain ⟨hmarkNot, hmarker, hothers⟩ := atomicWrite_ok hmark
  have hremoveStays : Stays second third := fun path hdirectory => by
    rw [(hstale path).2, hdirectory]
    rintro ⟨_, _, _, _, _, hmatches⟩
    obtain ⟨_, _, hfile, _⟩ := recordMatches_iff.mp hmatches
    rw [hdirectory] at hfile
    cases hfile
  have hlast : Stays third after := hparentFrame.stays.trans (atomicWrite_frame hmark).2
  -- what is a file after the stale ones have gone is that file in the end
  have hkept : ∀ path bytes mode, path ≠ markerPath location →
      third.lookup path = some (.file bytes mode) → after.lookup path = some (.file bytes mode) :=
    fun path bytes mode hmark hfile => by
      rw [hothers path hmark, hparentFrame.kept (fun hfalse => hfalse) hfile]
  refine ⟨prior, owned, hread, ?_, ?_, ?_, hstays.trans (hremoveStays.trans hlast), ?_, ?_⟩
  · intro path hmark hnot hgone bytes mode hfile
    obtain ⟨_, _, _, _, _, hmatches⟩ := id hgone
    obtain ⟨_, _, hheld, _⟩ := recordMatches_iff.mp hmatches
    have hsecond : second.lookup path = first.lookup path := by
      rw [hframe.kept hnot hheld, hheld]
    have hthird := (hstale path).1 ((stale_congr hsecond).mpr hgone)
    rw [hothers path hmark] at hfile
    rcases hparentFrame path (fun hfalse => hfalse) with hsame | ⟨_, hmade⟩
    · rw [hsame, hthird] at hfile
      cases hfile
    · rw [hmade] at hfile
      cases hfile
  · intro path bytes mode hmark hnot hfresh hheld
    have hsecond : second.lookup path = first.lookup path := by
      rw [hframe.kept hnot hheld, hheld]
    refine hkept path bytes mode hmark ?_
    rw [(hstale path).2 fun hgone => hfresh ((stale_congr hsecond).mp hgone), hsecond, hheld]
  · intro path hmark hdestination
    obtain ⟨bytes, mode, hfile⟩ := hfiles path hdestination
    refine ⟨bytes, mode, hkept path bytes mode hmark ?_⟩
    rw [(hstale path).2, hfile]
    rintro ⟨logical, record, hmem, hother, hlogical, _⟩
    obtain ⟨item, hitem, hpath⟩ := hdestination
    exact hother item hitem (staged_injective (hrooted item hitem) (readRecords_rooted hread hmem)
      (hpath.symm.trans hlogical))
  · rw [hmarker, List.nil_append]
    rfl
  · intro logical hlogical
    have hparent := (hparentOwns.before (hstays.trans hremoveStays)).later
      (atomicWrite_frame hmark).2
    rcases hparent logical hlogical with howned | ⟨habove, hmade⟩
    · rcases (howns.later (hremoveStays.trans hlast)) logical howned with hprior | ⟨habove, hmade⟩
      · rcases (mem_foldl_insert _ _).mp hprior with hnil | hprior
        · exact absurd hnil List.not_mem_nil
        · exact .inl (List.mem_filter.mp hprior).1
      · exact .inr ⟨.inl habove, hmade⟩
    · exact .inr ⟨.inr habove, hmade⟩

theorem removeDirs_ok {destdir : Path} {list : List Path} {result : Unit}
    (hruns : removeDirs destdir list tree = .ok result after) :
    ∀ path, after.lookup path = tree.lookup path ∨
      (tree.lookup path = some .directory ∧ after.lookup path = none ∧
        (∃ logical ∈ list, path = staged destdir logical) ∧
        ∀ child, child.parent = some path → after.lookup child = none) := by
  induction list generalizing tree with
  | nil =>
      obtain ⟨_, rfl⟩ := pure_ok.mp hruns
      exact fun _ => .inl rfl
  | cons logical rest ih =>
      intro path
      rw [removeDirs] at hruns
      obtain ⟨answer, middle, hremove, hrest⟩ := bind_ok.mp hruns
      rcases removeDir_cases (staged destdir logical) tree with
        ⟨hdirectory, hempty, hremoved⟩ | ⟨error, hfailed⟩
      · rw [attempt, hremoved] at hremove
        cases hremove
        have hnone : ∀ child, tree.lookup child = none → after.lookup child = none := by
          intro child hchild
          have hmiddle : (tree.erase (staged destdir logical)).lookup child = none := by
            rw [AList.lookup_erase_ne, hchild]
            rintro rfl
            rw [hdirectory] at hchild
            cases hchild
          rcases ih hrest child with hsame | ⟨hheld, _⟩
          · rw [hsame, hmiddle]
          · rw [hmiddle] at hheld
            cases hheld
        by_cases hpath : path = staged destdir logical
        · subst hpath
          have hgone := AList.lookup_erase (staged destdir logical) tree
          rcases ih hrest (staged destdir logical) with hsame | ⟨hheld, _⟩
          · exact .inr ⟨hdirectory, hsame.trans hgone, ⟨logical, List.mem_cons_self, rfl⟩,
              fun child hchild => hnone child (lookup_of_hasChild hempty hchild)⟩
          · rw [hgone] at hheld
            cases hheld
        · have hmiddle := AList.lookup_erase_ne (s := tree) hpath
          rcases ih hrest path with hsame | ⟨hheld, hnot, ⟨other, hother, hplace⟩, hchildren⟩
          · exact .inl (hsame.trans hmiddle)
          · rw [hmiddle] at hheld
            exact .inr ⟨hheld, hnot, ⟨other, List.mem_cons_of_mem _ hother, hplace⟩, hchildren⟩
      · rw [attempt, hfailed] at hremove
        cases hremove
        rcases ih hrest path with hsame | ⟨hdirectory, hnone, ⟨other, hother, hpath⟩, hchildren⟩
        · exact .inl hsame
        · exact .inr ⟨hdirectory, hnone, ⟨other, List.mem_cons_of_mem _ hother, hpath⟩, hchildren⟩

/-- What an uninstallation does, by the records that it finds. -/
structure Uninstalled (location : Location) (prior : List OwnershipRecord)
    (tree after : Tree) : Prop where
  stale : ∀ path, path ≠ markerPath location →
    Stale location [] (fileRecords prior) tree path → after.lookup path = none
  other : ∀ path bytes mode, path ≠ markerPath location →
    ¬Stale location [] (fileRecords prior) tree path →
    tree.lookup path = some (.file bytes mode) → after.lookup path = some (.file bytes mode)
  directory : ∀ path, tree.lookup path = some .directory →
    after.lookup path = some .directory ∨
      (∃ logical ∈ directoryRecords prior, path = staged location.destdir logical) ∧
        ∀ child, child.parent = some path → after.lookup child = none
  marker : after.lookup (markerPath location) = none

theorem mem_deepestFirst {directories : List Path} {logical : Path}
    (hmem : logical ∈ deepestFirst directories) : logical ∈ directories :=
  (List.perm_insertionSort _ _).mem_iff.mp ((List.destutter_sublist _ _).subset hmem)

theorem uninstall_ok {result : Unit} (hruns : uninstall location tree = .ok result after) :
    (readRecords (markerPath location) tree = .ok none tree ∧ after = tree) ∨
    ∃ prior, readRecords (markerPath location) tree = .ok (some prior) tree ∧
      Uninstalled location prior tree after := by
  rw [uninstall] at hruns
  obtain ⟨records, first, hread, hrest⟩ := bind_ok.mp hruns
  obtain rfl := readRecords_tree hread
  cases records with
  | none =>
      obtain ⟨_, rfl⟩ := pure_ok.mp hrest
      exact .inl ⟨hread, rfl⟩
  | some prior =>
      simp only at hrest
      obtain ⟨_, second, hfiles, hremaining⟩ := bind_ok.mp hrest
      obtain ⟨_, third, hmarker, hdirectories⟩ := bind_ok.mp hremaining
      rw [removeRecorded_eq] at hfiles
      have hstale := removeStale_ok hfiles
      obtain ⟨hmarked, rfl⟩ := removeFile_ok hmarker
      have hlast := removeDirs_ok hdirectories
      have hthird : ∀ path, path ≠ markerPath location →
          (second.erase (markerPath location)).lookup path = second.lookup path :=
        fun path hmark => AList.lookup_erase_ne hmark
      refine .inr ⟨prior, hread, ?_, ?_, ?_, ?_⟩
      · intro path hmark hgone
        have hnone := (hthird path hmark).trans ((hstale path).1 hgone)
        rcases hlast path with hsame | ⟨hheld, _⟩
        · rw [hsame, hnone]
        · rw [hnone] at hheld
          cases hheld
      · intro path bytes mode hmark hfresh hfile
        have hkept := (hthird path hmark).trans ((hstale path).2 hfresh)
        rcases hlast path with hsame | ⟨hheld, _⟩
        · rw [hsame, hkept, hfile]
        · rw [hkept, hfile] at hheld
          cases hheld
      · intro path hdirectory
        have hfresh : ¬Stale location [] (fileRecords prior) first path := by
          rintro ⟨_, _, _, _, _, hmatches⟩
          obtain ⟨_, _, hfile, _⟩ := recordMatches_iff.mp hmatches
          rw [hdirectory] at hfile
          cases hfile
        have hsecond := ((hstale path).2 hfresh).trans hdirectory
        have hmark : path ≠ markerPath location := by
          rintro rfl
          obtain ⟨_, _, hfile⟩ := hmarked
          rw [hsecond] at hfile
          cases hfile
        rcases hlast path with hsame | ⟨_, _, ⟨logical, hlogical, hpath⟩, hchildren⟩
        · exact .inl (hsame.trans ((hthird path hmark).trans hsecond))
        · exact .inr ⟨⟨logical, mem_deepestFirst hlogical, hpath⟩, hchildren⟩
      · have hnone := AList.lookup_erase (markerPath location) second
        rcases hlast (markerPath location) with hsame | ⟨hheld, _⟩
        · rw [hsame, hnone]
        · rw [hnone] at hheld
          cases hheld

end Xtask

end Wiiland
