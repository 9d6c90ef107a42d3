/-
Ownership over histories of installations, edits and uninstallations.  The marker is
all that one run leaves to the next, and it says what the last installation wrote and
which directories were made.
-/
import Mathlib.Data.List.Infix
import Wiiland.Xtask.Effects

namespace Wiiland

namespace Xtask

open UnixPath FileTree

inductive Event where
  | install (items : List Item)
  | uninstall
  | edit

/-- An event with the trees around it. -/
structure Moment where
  before : Tree
  event : Event
  after : Tree

/-- An item of a manifest: its directories can be recorded. -/
structure Item.Plain (item : Item) : Prop where
  logical : Logical item.destination
  ends : ∀ component ∈ item.destination.components.dropLast,
    component.getLast? ≠ some carriageReturn

/-- What can happen: an installation or an uninstallation that succeeds, or an edit. -/
def Happens (location : Location) (plain : Item → Prop) (edits : Tree → Tree → Prop)
    (moment : Moment) : Prop :=
  match moment.event with
  | .install items => (∀ item ∈ items, plain item) ∧
      installItems location items moment.before = .ok () moment.after
  | .uninstall => uninstall location moment.before = .ok () moment.after
  | .edit => edits moment.before moment.after

/-- The histories that begin without a marker. -/
inductive History (location : Location) (plain : Item → Prop) (edits : Tree → Tree → Prop) :
    List Moment → Tree → Prop
  | start {tree : Tree} (hmarker : tree.lookup (markerPath location) = none) :
      History location plain edits [] tree
  | step {history : List Moment} {moment : Moment}
      (hhistory : History location plain edits history moment.before)
      (hhappens : Happens location plain edits moment) :
      History location plain edits (history ++ [moment]) moment.after

/-- The items of the last installation, while its marker is there. -/
def current (location : Location) (history : List Moment) : Option (List Item) :=
  history.foldl (fun found moment =>
    match moment.event with
    | .install items => some items
    | .uninstall => none
    | .edit => if moment.after.lookup (markerPath location) = none then none else found) none

/-- The last installation that recorded the path wrote these contents. -/
def WroteLast (history : List Moment) (logical : Path) (bytes : List UInt8) : Prop :=
  ∃ earlier moment later items, history = earlier ++ moment :: later ∧
    moment.event = .install items ∧ (logical, bytes) ∈ contents items ∧
    ∀ other ∈ later, ∀ items', other.event = .install items' →
      ∀ item ∈ items', item.destination ≠ logical

/-- An installation since the last uninstallation made the directory. -/
def CreatedSince (history : List Moment) (path : Path) : Prop :=
  ∃ earlier moment later items, history = earlier ++ moment :: later ∧
    moment.event = .install items ∧ moment.before.lookup path ≠ some .directory ∧
    moment.after.lookup path = some .directory ∧
    ∀ other ∈ later, other.event ≠ .uninstall

/-- No installation has recorded the path. -/
def NeverRecorded (location : Location) (history : List Moment) (path : Path) : Prop :=
  ∀ moment ∈ history, ∀ items, moment.event = .install items →
    ¬IsDestination location items path

/-- No file is at the path. -/
def NoFile (tree : Tree) (path : Path) : Prop :=
  ∀ bytes mode, tree.lookup path ≠ some (.file bytes mode)

/-- What an event after a history removes and keeps.  The marker itself is left out. -/
structure Exact (location : Location) (history : List Moment) (moment : Moment) : Prop where
  removes : moment.event ≠ .edit → ∀ path bytes mode, path ≠ markerPath location →
    moment.before.lookup path = some (.file bytes mode) → NoFile moment.after path →
    ∃ logical, path = staged location.destdir logical ∧ WroteLast history logical bytes
  removed : ∀ items logical bytes mode, current location history = some items →
    (logical, bytes) ∈ contents items → staged location.destdir logical ≠ markerPath location →
    moment.before.lookup (staged location.destdir logical) = some (.file bytes mode) →
    (moment.event = .uninstall ∨ ∃ items', moment.event = .install items' ∧
      ∀ item ∈ items', item.destination ≠ logical) →
    NoFile moment.after (staged location.destdir logical)
  survives : moment.event ≠ .edit → ∀ path bytes mode, path ≠ markerPath location →
    NeverRecorded location (history ++ [moment]) path →
    moment.before.lookup path = some (.file bytes mode) →
    moment.after.lookup path = some (.file bytes mode)
  directories : moment.event ≠ .edit → ∀ path,
    moment.before.lookup path = some .directory → moment.after.lookup path ≠ some .directory →
    moment.event = .uninstall ∧ CreatedSince history path ∧
      ∀ child, child.parent = some path → moment.after.lookup child = none

section current

variable {location : Location} {history : List Moment} {moment : Moment}

theorem current_append : current location (history ++ [moment]) =
    match moment.event with
    | .install items => some items
    | .uninstall => none
    | .edit => if moment.after.lookup (markerPath location) = none then none
        else current location history := by
  rw [current, List.foldl_append]
  rfl

theorem WroteLast.append {logical : Path} {bytes : List UInt8}
    (hwrote : WroteLast history logical bytes)
    (hother : ∀ items, moment.event = .install items →
      ∀ item ∈ items, item.destination ≠ logical) :
    WroteLast (history ++ [moment]) logical bytes := by
  obtain ⟨earlier, install, later, items, rfl, hevent, hcontents, hlater⟩ := hwrote
  refine ⟨earlier, install, later ++ [moment], items, by simp, hevent, hcontents, ?_⟩
  intro other hmem
  rcases List.mem_append.mp hmem with hmem | hmem
  · exact hlater other hmem
  · rw [List.mem_singleton.mp hmem]
    exact hother

theorem CreatedSince.append {path : Path} (hcreated : CreatedSince history path)
    (hevent : moment.event ≠ .uninstall) : CreatedSince (history ++ [moment]) path := by
  obtain ⟨earlier, install, later, items, rfl, hinstall, hnot, hmade, hlater⟩ := hcreated
  refine ⟨earlier, install, later ++ [moment], items, by simp, hinstall, hnot, hmade, ?_⟩
  intro other hmem
  rcases List.mem_append.mp hmem with hmem | hmem
  · exact hlater other hmem
  · rw [List.mem_singleton.mp hmem]
    exact hevent

end current

/-- A location whose marker can be recorded. -/
structure Location.Plain (location : Location) : Prop where
  logical : Logical location.sysconfdir
  ends : EndsPlain location.sysconfdir

/-- An edit that leaves the marker as it is, or removes it. -/
def LeavesMarker (location : Location) (before after : Tree) : Prop :=
  after.lookup (markerPath location) = before.lookup (markerPath location) ∨
    after.lookup (markerPath location) = none

section carried

variable {path parent made : Path}

theorem above_carried (hlogical : Logical path)
    (hends : ∀ component ∈ path.components.dropLast, component.getLast? ≠ some carriageReturn)
    (hparent : path.parent = some parent) (hmade : made ∈ parent.ancestors) :
    Logical made ∧ EndsPlain made := by
  obtain ⟨components, hprefix, rfl⟩ := List.mem_map.mp hmade
  rw [Path.parent] at hparent
  split at hparent
  · cases hparent
  · cases hparent
    have hsubset : components ⊆ path.components.dropLast :=
      ((List.mem_inits _ _).mp hprefix).subset
    exact ⟨hlogical.mono (List.Subset.trans hsubset (List.dropLast_subset _)),
      fun component hcomponent => hends component (hsubset hcomponent)⟩

theorem plain_of_not_mem {component : List UInt8}
    (habsent : tab ∉ component ∧ newline ∉ component) :
    ∀ byte ∈ component, byte ≠ tab ∧ byte ≠ newline :=
  fun _ hbyte => ⟨ne_of_mem_of_not_mem hbyte habsent.1, ne_of_mem_of_not_mem hbyte habsent.2⟩

theorem Location.Plain.marker {location : Location} (hplain : location.Plain) :
    Logical location.marker ∧ ∀ component ∈ location.marker.components.dropLast,
      component.getLast? ≠ some carriageReturn := by
  have hparts : ∀ component ∈ [utf8 "wiiland", utf8 ".xtask-install"],
      (component ≠ [] ∧ separator ∉ component ∧ component ≠ UnixPath.current) ∧
        component ≠ UnixPath.upward ∧ tab ∉ component ∧ newline ∉ component := by
    decide
  have htexts : ∀ component ∈ [utf8 "wiiland", utf8 ".xtask-install"], IsText component := by
    intro component hcomponent
    rcases List.mem_pair.mp hcomponent with rfl | rfl
    · exact ⟨_, rfl⟩
    · exact ⟨_, rfl⟩
  have hmem : ∀ component ∈ location.marker.components, component ∈ location.sysconfdir.components ∨
      component ∈ [utf8 "wiiland", utf8 ".xtask-install"] :=
    fun component hcomponent => List.mem_append.mp hcomponent
  refine ⟨⟨hplain.logical.rooted, ?_, ?_, ?_, ?_⟩, ?_⟩
  · exact fun component hcomponent => (hmem component hcomponent).elim
      (hplain.logical.component component) fun hpart => (hparts component hpart).1
  · exact fun component hcomponent => (hmem component hcomponent).elim
      (hplain.logical.upward component) fun hpart => (hparts component hpart).2.1
  · exact fun component hcomponent => (hmem component hcomponent).elim
      (hplain.logical.plain component) fun hpart => plain_of_not_mem (hparts component hpart).2.2
  · exact fun component hcomponent => (hmem component hcomponent).elim
      (hplain.logical.text component) (htexts component)
  · have hdrop : location.marker.components.dropLast =
        location.sysconfdir.components ++ [utf8 "wiiland"] := by
      rw [Location.marker, UnixPath.Path.extend]
      simp
    intro component hcomponent
    rw [hdrop] at hcomponent
    rcases List.mem_append.mp hcomponent with hpart | hpart
    · exact hplain.ends component hpart
    · rw [List.mem_singleton.mp hpart]
      decide

end carried

/-- What the tree has for the marker after a history. -/
structure Marked (location : Location) (history : List Moment) (tree : Tree) : Prop where
  absent : current location history = none → tree.lookup (markerPath location) = none
  present : ∀ items, current location history = some items → ∃ owned mode,
    tree.lookup (markerPath location) = some (.file
      (joinLines (sortLines (markerLines location (contents items) owned))) mode) ∧
    Carried (contents items) owned ∧
    ∀ logical ∈ owned, CreatedSince history (staged location.destdir logical)

section marked

variable {location : Location} {history : List Moment} {tree : Tree}

theorem wroteLast_of_current {items : List Item} {logical : Path} {bytes : List UInt8}
    (hcurrent : current location history = some items)
    (hmem : (logical, bytes) ∈ contents items) : WroteLast history logical bytes := by
  induction history using List.reverseRecOn with
  | nil => cases hcurrent
  | append_singleton history moment ih =>
      rw [current_append] at hcurrent
      cases hevent : moment.event with
      | install other =>
          rw [hevent] at hcurrent
          cases hcurrent
          exact ⟨history, moment, [], items, rfl, hevent, hmem, by simp⟩
      | uninstall =>
          rw [hevent] at hcurrent
          cases hcurrent
      | edit =>
          rw [hevent] at hcurrent
          simp only at hcurrent
          split at hcurrent
          · cases hcurrent
          · refine (ih hcurrent).append fun items' hinstall => ?_
            rw [hevent] at hinstall
            cases hinstall

/-- What the next run reads. -/
theorem Marked.reads (hmarked : Marked location history tree) :
    ∃ found, readRecords (markerPath location) tree = .ok found tree ∧
      (∀ logical record, (logical, record) ∈ fileRecords (found.getD []) ↔
        ∃ items bytes, current location history = some items ∧
          (logical, bytes) ∈ contents items ∧ record = expected location bytes) ∧
      ∀ logical ∈ directoryRecords (found.getD []), (Logical logical ∧ EndsPlain logical) ∧
        CreatedSince history (staged location.destdir logical) := by
  cases hcurrent : current location history with
  | none =>
      have hnone := hmarked.absent hcurrent
      refine ⟨none, by rw [readRecords, hnone], fun _ _ => ?_,
        fun _ hmem => absurd hmem List.not_mem_nil⟩
      simp [fileRecords]
  | some items =>
      obtain ⟨owned, mode, hmarker, hcarried, hcreated⟩ := hmarked.present items hcurrent
      obtain ⟨records, hread, hreads⟩ := readRecords_marker hcarried hmarker
      refine ⟨some records, hread, fun logical record => ?_, fun logical hlogical => ?_⟩
      · rw [Option.getD_some, hreads.file]
        simp
      · have howned := (hreads.directory logical).mp hlogical
        exact ⟨hcarried.directories logical howned, hcreated logical howned⟩

/-- The stale paths of the next run, by what is recorded. -/
theorem Marked.stale {found : Option (List OwnershipRecord)} {items : List Item} {path : Path}
    (hmarked : Marked location history tree)
    (hread : readRecords (markerPath location) tree = .ok found tree)
    (hdigest : Function.Injective location.digest.text) :
    Stale location items (fileRecords (found.getD [])) tree path ↔
      ∃ recorded logical bytes mode, current location history = some recorded ∧
        (logical, bytes) ∈ contents recorded ∧ (∀ item ∈ items, item.destination ≠ logical) ∧
        path = staged location.destdir logical ∧ tree.lookup path = some (.file bytes mode) := by
  obtain ⟨other, hother, hfiles, _⟩ := hmarked.reads
  rw [hread] at hother
  cases hother
  constructor
  · rintro ⟨logical, record, hmem, hitems, hpath, hmatches⟩
    obtain ⟨recorded, bytes, hcurrent, hcontents, rfl⟩ := (hfiles logical record).mp hmem
    obtain ⟨held, mode, hheld, heq⟩ := recordMatches_iff.mp hmatches
    have hsame : held = bytes := by
      refine hdigest ?_
      have hdecoded := congrArg Text.decode heq
      rw [expected, expected, Text.decode_encode, Text.decode_encode, Option.some.injEq] at hdecoded
      exact hdecoded
    exact ⟨recorded, logical, bytes, mode, hcurrent, hcontents, hitems, hpath, hsame ▸ hheld⟩
  · rintro ⟨recorded, logical, bytes, mode, hcurrent, hcontents, hitems, hpath, hheld⟩
    exact ⟨logical, expected location bytes,
      (hfiles logical _).mpr ⟨recorded, bytes, hcurrent, hcontents, rfl⟩, hitems, hpath,
      recordMatches_iff.mpr ⟨bytes, mode, hheld, rfl⟩⟩

/-- The paths that a manifest's items leave in the marker are recorded in full. -/
theorem contents_carried {items : List Item} {owned : List Path}
    (hitems : ∀ item ∈ items, item.Plain)
    (howned : ∀ logical ∈ owned, Logical logical ∧ EndsPlain logical) :
    Carried (contents items) owned where
  files file hfile := by
    obtain ⟨item, hitem, hdestination, _⟩ := mem_contents.mp hfile
    rw [← hdestination]
    exact (hitems item hitem).logical
  directories := howned

/-- What was written last is a destination of an installation in the history. -/
theorem WroteLast.recorded {logical : Path} {bytes : List UInt8}
    (hwrote : WroteLast history logical bytes) (location : Location) :
    ∃ moment ∈ history, ∃ items, moment.event = .install items ∧
      IsDestination location items (staged location.destdir logical) := by
  obtain ⟨earlier, moment, later, items, rfl, hevent, hcontents, _⟩ := hwrote
  obtain ⟨item, hitem, hdestination, _⟩ := mem_contents.mp hcontents
  exact ⟨moment, by simp, items, hevent, item, hitem, by rw [hdestination]⟩

theorem Marked.install {items : List Item} {moment : Moment} (hplain : location.Plain)
    (hmarked : Marked location history moment.before)
    (hdigest : Function.Injective location.digest.text)
    (hevent : moment.event = .install items) (hitems : ∀ item ∈ items, item.Plain)
    (hruns : installItems location items moment.before = .ok () moment.after) :
    Marked location (history ++ [moment]) moment.after ∧ Exact location history moment := by
  obtain ⟨found, owned, hread, hinstalled⟩ :=
    installItems_ok (fun item hitem => (hitems item hitem).logical.rooted) hruns
  obtain ⟨other, hother, hfiles, hdirectories⟩ := hmarked.reads
  rw [hread] at hother
  cases hother
  have hstale := fun path => @Marked.stale _ _ _ _ items path hmarked hread hdigest
  have hnotUninstall : moment.event ≠ .uninstall := by
    rw [hevent]
    exact fun heq => by cases heq
  have howned : ∀ logical ∈ owned, (Logical logical ∧ EndsPlain logical) ∧
      CreatedSince (history ++ [moment]) (staged location.destdir logical) := by
    intro logical hlogical
    rcases hinstalled.owned logical hlogical with hprior | ⟨habove, hnot, hmade⟩
    · obtain ⟨hcarried, hcreated⟩ := hdirectories logical hprior
      exact ⟨hcarried, hcreated.append hnotUninstall⟩
    · refine ⟨?_, history, moment, [], items, rfl, hevent, hnot, hmade, by simp⟩
      rcases habove with ⟨item, hitem, parent, hparent, hmem⟩ | ⟨parent, hparent, hmem⟩
      · exact above_carried (hitems item hitem).logical (hitems item hitem).ends hparent hmem
      · exact above_carried hplain.marker.1 hplain.marker.2 hparent hmem
  have hcurrent : current location (history ++ [moment]) = some items := by
    rw [current_append, hevent]
  refine ⟨⟨fun hnone => ?_, fun recorded hrecorded => ?_⟩, ?_, ?_, ?_, ?_⟩
  · rw [hcurrent] at hnone
    cases hnone
  · rw [hcurrent] at hrecorded
    cases hrecorded
    exact ⟨owned, 0o644, hinstalled.marker,
      contents_carried hitems fun logical hlogical => (howned logical hlogical).1,
      fun logical hlogical => (howned logical hlogical).2⟩
  · intro _ path bytes mode hmark hheld hgone
    by_cases hdestination : IsDestination location items path
    · obtain ⟨written, permissions, hfile⟩ := hinstalled.destination path hmark hdestination
      exact absurd hfile (hgone written permissions)
    · by_cases hpath : Stale location items (fileRecords (found.getD [])) moment.before path
      · obtain ⟨recorded, logical, written, _, hlast, hcontents, _, heq, hfile⟩ :=
          (hstale path).mp hpath
        rw [hheld] at hfile
        cases hfile
        exact ⟨logical, heq, wroteLast_of_current hlast hcontents⟩
      · exact absurd (hinstalled.other path bytes mode hmark hdestination hpath hheld)
          (hgone bytes mode)
  · intro recorded logical bytes mode hlast hcontents hmark hheld hdeselected
    rcases hdeselected with huninstall | ⟨items', hinstall, hother⟩
    · exact absurd huninstall hnotUninstall
    · rw [hevent] at hinstall
      cases hinstall
      obtain ⟨_, _, _, hcarried, _⟩ := hmarked.present recorded hlast
      have hdestination : ¬IsDestination location items (staged location.destdir logical) := by
        rintro ⟨item, hitem, heq⟩
        exact hother item hitem (staged_injective (hcarried.files _ hcontents).rooted
          (hitems item hitem).logical.rooted heq).symm
      exact hinstalled.stale _ hmark hdestination
        ((hstale _).mpr ⟨recorded, logical, bytes, mode, hlast, hcontents, hother, rfl, hheld⟩)
  · intro _ path bytes mode hmark hnever hheld
    have hdestination := hnever moment (by simp) items hevent
    refine hinstalled.other path bytes mode hmark hdestination (fun hpath => ?_) hheld
    obtain ⟨recorded, logical, written, _, hlast, hcontents, _, rfl, _⟩ := (hstale path).mp hpath
    obtain ⟨install, hmem, others, hinstall, hplace⟩ :=
      (wroteLast_of_current hlast hcontents).recorded location
    exact hnever install (List.mem_append_left _ hmem) others hinstall hplace
  · intro _ path hdirectory hgone
    exact absurd (hinstalled.stays path hdirectory) hgone

theorem readRecords_none {marker : Path}
    (hread : readRecords marker tree = .ok none tree) : tree.lookup marker = none := by
  rw [readRecords] at hread
  split at hread
  · assumption
  · cases hread
  · split at hread
    · cases hread
    · cases hread

theorem Marked.uninstall {moment : Moment} (hmarked : Marked location history moment.before)
    (hdigest : Function.Injective location.digest.text) (hevent : moment.event = .uninstall)
    (hruns : Xtask.uninstall location moment.before = .ok () moment.after) :
    Marked location (history ++ [moment]) moment.after ∧ Exact location history moment := by
  have hcurrent : current location (history ++ [moment]) = none := by
    rw [current_append, hevent]
  have hpresent : ∀ items, current location (history ++ [moment]) = some items → False :=
    fun items hitems => by
      rw [hcurrent] at hitems
      cases hitems
  rcases uninstall_ok hruns with ⟨hread, hsame⟩ | ⟨prior, hread, huninstalled⟩
  · have habsent := readRecords_none hread
    refine ⟨⟨fun _ => by rw [hsame, habsent], fun items hitems => (hpresent items hitems).elim⟩,
      ?_, ?_, ?_, ?_⟩
    · intro _ path bytes mode _ hheld hgone
      rw [hsame] at hgone
      exact absurd hheld (hgone bytes mode)
    · intro items logical bytes mode hlast
      obtain ⟨_, _, hmarker, _⟩ := hmarked.present items hlast
      rw [habsent] at hmarker
      cases hmarker
    · intro _ path bytes mode _ _ hheld
      rw [hsame, hheld]
    · intro _ path hdirectory hgone
      rw [hsame] at hgone
      exact absurd hdirectory hgone
  · obtain ⟨other, hother, _, hdirectories⟩ := hmarked.reads
    rw [hread] at hother
    cases hother
    have hstale := fun path => @Marked.stale _ _ _ _ [] path hmarked hread hdigest
    refine ⟨⟨fun _ => huninstalled.marker, fun items hitems => (hpresent items hitems).elim⟩,
      ?_, ?_, ?_, ?_⟩
    · intro _ path bytes mode hmark hheld hgone
      by_cases hpath : Stale location [] (fileRecords prior) moment.before path
      · obtain ⟨recorded, logical, written, _, hlast, hcontents, _, heq, hfile⟩ :=
          (hstale path).mp hpath
        rw [hheld] at hfile
        cases hfile
        exact ⟨logical, heq, wroteLast_of_current hlast hcontents⟩
      · exact absurd (huninstalled.other path bytes mode hmark hpath hheld) (hgone bytes mode)
    · intro recorded logical bytes mode hlast hcontents hmark hheld _ written permissions hfile
      have hpath : Stale location [] (fileRecords prior) moment.before
          (staged location.destdir logical) :=
        (hstale _).mpr ⟨recorded, logical, bytes, mode, hlast, hcontents, by simp, rfl, hheld⟩
      rw [huninstalled.stale _ hmark hpath] at hfile
      cases hfile
    · intro _ path bytes mode hmark hnever hheld
      refine huninstalled.other path bytes mode hmark (fun hpath => ?_) hheld
      obtain ⟨recorded, logical, written, _, hlast, hcontents, _, rfl, _⟩ :=
        (hstale path).mp hpath
      obtain ⟨install, hmem, others, hinstall, hplace⟩ :=
        (wroteLast_of_current hlast hcontents).recorded location
      exact hnever install (List.mem_append_left _ hmem) others hinstall hplace
    · intro _ path hdirectory hgone
      rcases huninstalled.directory path hdirectory with hstays | ⟨⟨logical, hmem, rfl⟩, hempty⟩
      · exact absurd hstays hgone
      · exact ⟨hevent, (hdirectories logical hmem).2, hempty⟩

theorem Marked.edit {moment : Moment} (hmarked : Marked location history moment.before)
    (hevent : moment.event = .edit)
    (hleaves : LeavesMarker location moment.before moment.after) :
    Marked location (history ++ [moment]) moment.after := by
  have hcurrent : current location (history ++ [moment]) =
      if moment.after.lookup (markerPath location) = none then none
      else current location history := by
    rw [current_append, hevent]
  by_cases hgone : moment.after.lookup (markerPath location) = none
  · rw [if_pos hgone] at hcurrent
    refine ⟨fun _ => hgone, fun items hitems => ?_⟩
    rw [hcurrent] at hitems
    cases hitems
  · rw [if_neg hgone] at hcurrent
    have hsame := hleaves.resolve_right hgone
    refine ⟨fun hnone => ?_, fun items hitems => ?_⟩
    · rw [hcurrent] at hnone
      rw [hsame, hmarked.absent hnone]
    · rw [hcurrent] at hitems
      obtain ⟨owned, mode, hmarker, hcarried, hcreated⟩ := hmarked.present items hitems
      refine ⟨owned, mode, by rw [hsame, hmarker], hcarried, fun logical hlogical => ?_⟩
      exact (hcreated logical hlogical).append fun huninstall => by
        rw [hevent] at huninstall
        cases huninstall

end marked

/-- The marker says after every history what the last installation recorded. -/
theorem History.marked {location : Location} {history : List Moment} {tree : Tree}
    (hplain : location.Plain) (hdigest : Function.Injective location.digest.text)
    (hhistory : History location Item.Plain (LeavesMarker location) history tree) :
    Marked location history tree := by
  induction hhistory with
  | start hmarker => exact ⟨fun _ => hmarker, fun _ hitems => by cases hitems⟩
  | @step history moment _ hhappens ih =>
      cases hevent : moment.event with
      | install items =>
          rw [Happens, hevent] at hhappens
          exact (ih.install hplain hdigest hevent hhappens.1 hhappens.2).1
      | uninstall =>
          rw [Happens, hevent] at hhappens
          exact (ih.uninstall hdigest hevent hhappens).1
      | edit =>
          rw [Happens, hevent] at hhappens
          exact ih.edit hevent hhappens

/-- Installations and uninstallations take away exactly what installations have left, if
nobody but them writes the marker. -/
theorem ownership_exact {location : Location} {history : List Moment} {moment : Moment}
    (hplain : location.Plain) (hdigest : Function.Injective location.digest.text)
    (hhistory : History location Item.Plain (LeavesMarker location) history moment.before)
    (hhappens : Happens location Item.Plain (LeavesMarker location) moment) :
    Exact location history moment := by
  have hmarked := hhistory.marked hplain hdigest
  cases hevent : moment.event with
  | install items =>
      rw [Happens, hevent] at hhappens
      exact (hmarked.install hplain hdigest hevent hhappens.1 hhappens.2).2
  | uninstall =>
      rw [Happens, hevent] at hhappens
      exact (hmarked.uninstall hdigest hevent hhappens).2
  | edit =>
      have hedit : ∀ {claim : Prop}, moment.event ≠ .edit → claim :=
        fun hnot => absurd hevent hnot
      refine ⟨hedit, fun _ _ _ _ _ _ _ _ hdeselected => ?_, hedit, hedit⟩
      rcases hdeselected with huninstall | ⟨_, hinstall, _⟩
      · rw [hevent] at huninstall
        cases huninstall
      · rw [hevent] at hinstall
        cases hinstall

section runs

/-- The contents themselves tell contents apart, and the root is staged in place. -/
def verbatimLocation : Location where
  destdir := ⟨false, []⟩
  sysconfdir := ⟨true, []⟩
  digest := verbatim
  processId := 1

theorem verbatimLocation_plain : verbatimLocation.Plain :=
  ⟨⟨rfl, by simp [verbatimLocation], by simp [verbatimLocation], by simp [verbatimLocation],
    by simp [verbatimLocation]⟩, by simp [EndsPlain, verbatimLocation]⟩

/-- An empty file to be installed. -/
def emptyItem (components : List (List UInt8)) : Item where
  source := .ok []
  destination := ⟨true, components⟩
  mode := 0o644

theorem emptyItem_logical {components : List (List UInt8)}
    (hparts : ∀ component ∈ components,
      (component ≠ [] ∧ separator ∉ component ∧ component ≠ UnixPath.current) ∧
        component ≠ UnixPath.upward ∧ tab ∉ component ∧ newline ∉ component)
    (htexts : ∀ component ∈ components, IsText component) :
    Logical (emptyItem components).destination :=
  ⟨rfl, fun component hpart => (hparts component hpart).1,
    fun component hpart => (hparts component hpart).2.1,
    fun component hpart => plain_of_not_mem (hparts component hpart).2.2, htexts⟩

def resultTree (action : Action Unit) (tree : Tree) : Tree :=
  match action tree with
  | .ok _ after => after
  | .error _ after => after

def installMoment (items : List Item) (tree : Tree) : Moment :=
  ⟨tree, .install items, resultTree (installItems verbatimLocation items) tree⟩

def uninstallMoment (tree : Tree) : Moment :=
  ⟨tree, .uninstall, resultTree (uninstall verbatimLocation) tree⟩

theorem installMoment_happens {edits : Tree → Tree → Prop} {items : List Item}
    {tree after : Tree} (hitems : ∀ item ∈ items, item.Plain)
    (hruns : installItems verbatimLocation items tree = .ok () after) :
    (installMoment items tree).after = after ∧
      Happens verbatimLocation Item.Plain edits (installMoment items tree) := by
  have hafter : (installMoment items tree).after = after := by
    rw [installMoment, resultTree, hruns]
  rw [Happens]
  exact ⟨hafter, hitems, hafter.symm ▸ hruns⟩

theorem uninstallMoment_happens {plain : Item → Prop} {edits : Tree → Tree → Prop}
    {tree after : Tree} (hruns : uninstall verbatimLocation tree = .ok () after) :
    Happens verbatimLocation plain edits (uninstallMoment tree) := by
  have hafter : (uninstallMoment tree).after = after := by
    rw [uninstallMoment, resultTree, hruns]
  rw [Happens]
  exact hafter.symm ▸ hruns

section reads

variable {tree : Tree} {text : List Char} {mode : UInt32} {records : List OwnershipRecord}

theorem readRecords_text
    (hmarker : tree.lookup (markerPath verbatimLocation) = some (.file (Text.encode text) mode))
    (hrecords : (textLines (Text.encode text)).filterMap recordOfLine = records) :
    readRecords (markerPath verbatimLocation) tree = .ok (some records) tree := by
  rw [readRecords, hmarker]
  simp only [Text.decode_encode]
  rw [hrecords]

/-- An installation over one that the text of the marker records. -/
theorem install_reads {items : List Item}
    (hmarker : tree.lookup (markerPath verbatimLocation) = some (.file (Text.encode text) mode))
    (hrecords : (textLines (Text.encode text)).filterMap recordOfLine = records) :
    installItems verbatimLocation items tree = (do
      let tree ← get
      let owned := ((directoryRecords records).filter fun logical =>
        isDirectory tree (staged verbatimLocation.destdir logical)).foldl
          (fun owned logical => owned.insert logical) []
      let (owned, lines) ← writeItems verbatimLocation items owned []
      removeStale verbatimLocation items (fileRecords records)
      let owned ← ensureParentDirs verbatimLocation.destdir verbatimLocation.marker owned
      atomicWrite verbatimLocation (markerPath verbatimLocation)
        (joinLines (sortLines (lines ++ owned.map directoryLine))) 0o644 : Action Unit) tree := by
  rw [installItems]
  change EStateM.bind _ _ tree = _
  rw [EStateM.bind, readRecords_text hmarker hrecords]
  rfl

/-- An uninstallation by the text of the marker. -/
theorem uninstall_reads
    (hmarker : tree.lookup (markerPath verbatimLocation) = some (.file (Text.encode text) mode))
    (hrecords : (textLines (Text.encode text)).filterMap recordOfLine = records) :
    uninstall verbatimLocation tree = (do
      removeRecorded verbatimLocation (fileRecords records)
      removeFile (markerPath verbatimLocation)
      removeDirs verbatimLocation.destdir (deepestFirst (directoryRecords records))) tree := by
  rw [uninstall]
  change EStateM.bind _ _ tree = _
  rw [EStateM.bind, readRecords_text hmarker hrecords]

end reads

/-- A path of one letter at the root. -/
def rootPath (letter : UInt8) : Path := ⟨true, [[letter]]⟩

/-- The marker of empty files with these names at the root. -/
def rootText (names : List Char) : List Char :=
  ['d', 'i', 'r', '\t', '/', 'w', 'i', 'i', 'l', 'a', 'n', 'd', '\n'] ++
    names.flatMap fun name => ['f', 'i', 'l', 'e', '\t', '/', name, '\t', '\n']

/-- The files f, g and h are installed. -/
def firstInstall : Moment :=
  installMoment [emptyItem [[102]], emptyItem [[103]], emptyItem [[104]]] ∅

/-- The user writes to g. -/
def userEdit : Moment :=
  ⟨firstInstall.after, .edit, firstInstall.after.insert (rootPath 103) (.file [1] 0o644)⟩

/-- Only f is installed again. -/
def secondInstall : Moment := installMoment [emptyItem [[102]]] userEdit.after

theorem rootItem_plain {letter : UInt8}
    (hletter : letter = 102 ∨ letter = 103 ∨ letter = 104) :
    (emptyItem [[letter]]).Plain := by
  rcases hletter with rfl | rfl | rfl
  · exact ⟨emptyItem_logical (by decide) (by simpa using ⟨['f'], by decide⟩), by decide⟩
  · exact ⟨emptyItem_logical (by decide) (by simpa using ⟨['g'], by decide⟩), by decide⟩
  · exact ⟨emptyItem_logical (by decide) (by simpa using ⟨['h'], by decide⟩), by decide⟩

theorem userEdit_history : History verbatimLocation Item.Plain (LeavesMarker verbatimLocation)
    ([] ++ [firstInstall] ++ [userEdit]) userEdit.after := by
  have hitems : ∀ item ∈ [emptyItem [[102]], emptyItem [[103]], emptyItem [[104]]],
      item.Plain := by
    intro item hitem
    simp only [List.mem_cons, List.not_mem_nil, or_false] at hitem
    rcases hitem with rfl | rfl | rfl
    · exact rootItem_plain (.inl rfl)
    · exact rootItem_plain (.inr (.inl rfl))
    · exact rootItem_plain (.inr (.inr rfl))
  have hinstall : installItems verbatimLocation
      [emptyItem [[102]], emptyItem [[103]], emptyItem [[104]]] ∅ = .ok () firstInstall.after := rfl
  exact .step (.step (.start rfl) (installMoment_happens hitems hinstall).2) (.inl rfl)

/-- The second installation takes away only what is unchanged. -/
theorem secondInstall_runs :
    ∃ after, installItems verbatimLocation [emptyItem [[102]]] userEdit.after = .ok () after ∧
      after.lookup (rootPath 103) = some (.file [1] 0o644) ∧
      after.lookup (rootPath 104) = none ∧
      ∃ last, uninstall verbatimLocation after = .ok () last := by
  have hinstall := @install_reads userEdit.after (rootText ['f', 'g', 'h']) 0o644 _
    [emptyItem [[102]]] rfl rfl
  exact ⟨_, hinstall.trans rfl, rfl, rfl, _,
    (@uninstall_reads _ (rootText ['f']) 0o644 _ rfl rfl).trans rfl⟩

/-- Three files at the root are installed and one is edited; another installation drops the
two that it does not name, of which the edited one stays, and an uninstallation follows. -/
theorem ownership_exact_root :
    Exact verbatimLocation [firstInstall, userEdit] secondInstall ∧
      userEdit.after.lookup (rootPath 104) = some (.file [] 0o644) ∧
      secondInstall.after.lookup (rootPath 103) = some (.file [1] 0o644) ∧
      secondInstall.after.lookup (rootPath 104) = none ∧
      Exact verbatimLocation [firstInstall, userEdit, secondInstall]
        (uninstallMoment secondInstall.after) := by
  obtain ⟨after, hinstall, hkept, hdropped, last, huninstall⟩ := secondInstall_runs
  have hitems : ∀ item ∈ [emptyItem [[102]]], item.Plain :=
    List.forall_mem_singleton.mpr (rootItem_plain (.inl rfl))
  obtain ⟨hafter, hhappens⟩ := @installMoment_happens (LeavesMarker verbatimLocation) _ _ _
    hitems hinstall
  rw [← hafter] at hkept hdropped huninstall
  refine ⟨ownership_exact verbatimLocation_plain verbatim_injective userEdit_history hhappens,
    rfl, hkept, hdropped, ownership_exact verbatimLocation_plain verbatim_injective
      (userEdit_history.step hhappens) (uninstallMoment_happens huninstall)⟩

/-- A file of a user. -/
def userFile : Path := ⟨true, [[120]]⟩

/-- A tree whose user has written a marker that records a file of theirs. -/
def forged : Tree :=
  (((∅ : Tree).insert ⟨true, [utf8 "wiiland"]⟩ .directory).insert userFile (.file [] 0)).insert
    (markerPath verbatimLocation)
    (.file (Text.encode ['f', 'i', 'l', 'e', '\t', '/', 'x', '\t', '\n']) 0)

/-- The name of the directory is that of the user's and a carriage return. -/
def returnItem : Item := emptyItem [[97, 13], [102]]

/-- A user's directory is empty when the item is installed. -/
def returned : Moment := installMoment [returnItem] ((∅ : Tree).insert ⟨true, [[97]]⟩ .directory)

/-- Whoever writes the marker has files removed that were never installed, and the record of
a directory whose name ends in a carriage return is read as that of another one. -/
theorem ownership_forged :
    ¬(∀ location history moment, location.Plain → Function.Injective location.digest.text →
      History location Item.Plain (fun _ _ => True) history moment.before →
      Happens location Item.Plain (fun _ _ => True) moment → Exact location history moment) ∧
    ¬(∀ location history moment, location.Plain → Function.Injective location.digest.text →
      History location (fun item => Logical item.destination) (LeavesMarker location) history
        moment.before →
      Happens location (fun item => Logical item.destination) (LeavesMarker location) moment →
      Exact location history moment) := by
  constructor
  · intro hexact
    have hhistory : History verbatimLocation Item.Plain (fun _ _ => True)
        ([] ++ [⟨∅, .edit, forged⟩]) forged :=
      @History.step _ _ _ _ ⟨∅, .edit, forged⟩ (.start rfl) trivial
    have huninstall := @uninstall_reads forged _ _ _ rfl rfl
    have hgone : (uninstallMoment forged).after.lookup userFile = none := by
      rw [uninstallMoment, resultTree, huninstall]
      rfl
    have hsurvives := (hexact verbatimLocation _ (uninstallMoment forged) verbatimLocation_plain
      verbatim_injective hhistory (uninstallMoment_happens (huninstall.trans rfl))).survives
      (by simp [uninstallMoment]) userFile [] 0 (by decide)
      (by simp [NeverRecorded, uninstallMoment]) rfl
    rw [hgone] at hsurvives
    cases hsurvives
  · intro hexact
    have hitem : Logical returnItem.destination :=
      emptyItem_logical (by decide) (by
        intro component hpart
        rcases List.mem_pair.mp hpart with rfl | rfl
        · exact ⟨['a', '\r'], by decide⟩
        · exact ⟨['f'], by decide⟩)
    have hinstall : installItems verbatimLocation [returnItem]
        ((∅ : Tree).insert ⟨true, [[97]]⟩ .directory) = .ok () returned.after := rfl
    have hhistory : History verbatimLocation (fun item => Logical item.destination)
        (LeavesMarker verbatimLocation) ([] ++ [returned]) returned.after :=
      .step (.start rfl) ⟨by simpa using hitem, hinstall⟩
    have huninstall := @uninstall_reads returned.after
      ['d', 'i', 'r', '\t', '/', 'a', '\r', '\n',
        'd', 'i', 'r', '\t', '/', 'w', 'i', 'i', 'l', 'a', 'n', 'd', '\n',
        'f', 'i', 'l', 'e', '\t', '/', 'a', '\r', '/', 'f', '\t', '\n'] 0o644 _ rfl rfl
    have hgone : (uninstallMoment returned.after).after.lookup ⟨true, [[97]]⟩ = none := by
      rw [uninstallMoment, resultTree, huninstall]
      rfl
    have hdirectories := (hexact verbatimLocation _ (uninstallMoment returned.after)
      verbatimLocation_plain verbatim_injective hhistory
      (uninstallMoment_happens (huninstall.trans rfl))).directories (by simp [uninstallMoment])
      ⟨true, [[97]]⟩ rfl (by simp [hgone])
    obtain ⟨earlier, moment, later, items, hsplit, _, hnot, _⟩ := hdirectories.2.1
    have hmem : moment ∈ [returned] := by
      rw [List.nil_append] at hsplit
      rw [hsplit]
      simp
    rw [List.mem_singleton.mp hmem] at hnot
    exact hnot rfl

end runs

end Xtask

end Wiiland
