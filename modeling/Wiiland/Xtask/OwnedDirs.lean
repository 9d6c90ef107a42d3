/-
The directories that an installation owns, told by the tree that it starts from: those
that an earlier one recorded and that are still there, and those that were missing.
-/
import Mathlib.Data.List.Infix
import Wiiland.Xtask.Effects

namespace Wiiland

namespace Xtask

open UnixPath FileTree

/-- An installation up to its marker: the directories it owns and the lines of its files. -/
def installFiles (location : Location) (items : List Item) :
    Action (List Path × List (List UInt8)) := do
  let prior := (← readRecords (markerPath location)).getD []
  let tree ← get
  let owned := ((directoryRecords prior).filter fun logical =>
    isDirectory tree (staged location.destdir logical)).foldl
      (fun owned logical => owned.insert logical) []
  let (owned, records) ← writeItems location items owned []
  removeStale location items (fileRecords prior)
  let owned ← ensureParentDirs location.destdir location.marker owned
  pure (owned, records)

/-- The directories that are owned when the marker is written. -/
def ownedAt (location : Location) (items : List Item) (tree : Tree) : List Path :=
  match installFiles location items tree with
  | .ok (owned, _) _ => owned
  | .error _ _ => []

/-- What the marker of a tree records. -/
def priorRecords (location : Location) (tree : Tree) : List OwnershipRecord :=
  match readRecords (markerPath location) tree with
  | .ok (some records) _ => records
  | _ => []

/-- A directory that an installation will own. -/
def WillOwn (location : Location) (items : List Item) (tree : Tree) (logical : Path) : Prop :=
  logical ∈ directoryRecords (priorRecords location tree) ∧
      isDirectory tree (staged location.destdir logical) = true ∨
    Above location items logical ∧
      isDirectory tree (staged location.destdir logical) = false

variable {location : Location} {items : List Item} {tree middle after : Tree} {destdir : Path}
  {owned owned' owned'' : List Path}

/-- What a run adds to the directories and to the owned ones: the allowed directories that
were missing. -/
structure Grows (destdir : Path) (allowed : Path → Prop) (owned owned' : List Path)
    (tree after : Tree) : Prop where
  gained : ∀ logical, logical.rooted = true → (logical ∈ owned' ↔ logical ∈ owned ∨
    allowed logical ∧ isDirectory tree (staged destdir logical) = false)
  present : ∀ logical, logical.rooted = true →
    (isDirectory after (staged destdir logical) = true ↔
      isDirectory tree (staged destdir logical) = true ∨ allowed logical)
  absolute : (∀ logical ∈ owned, logical.rooted = true) →
    ∀ logical ∈ owned', logical.rooted = true

theorem Grows.trans {first second : Path → Prop}
    (hfirst : Grows destdir first owned owned' tree middle)
    (hsecond : Grows destdir second owned' owned'' middle after) :
    Grows destdir (fun made => first made ∨ second made) owned owned'' tree after where
  gained logical hrooted := by
    have hmiddle : isDirectory middle (staged destdir logical) = false ↔
        isDirectory tree (staged destdir logical) = false ∧ ¬first logical := by
      rw [← Bool.not_eq_true, hfirst.present logical hrooted, not_or, Bool.not_eq_true]
    rw [hsecond.gained logical hrooted, hfirst.gained logical hrooted, hmiddle]
    tauto
  present logical hrooted := by
    rw [hsecond.present logical hrooted, hfirst.present logical hrooted, or_assoc]
  absolute howned := hsecond.absolute (hfirst.absolute howned)

theorem Grows.congr {allowed other : Path → Prop}
    (hgrows : Grows destdir allowed owned owned' tree after)
    (hallowed : ∀ logical, allowed logical ↔ other logical) :
    Grows destdir other owned owned' tree after := by
  obtain rfl : allowed = other := funext fun logical => propext (hallowed logical)
  exact hgrows

/-- A run that leaves the directories as they are. -/
theorem Grows.idle (owned : List Path)
    (hsame : ∀ path, isDirectory after path = isDirectory tree path) :
    Grows destdir (fun _ => False) owned owned tree after where
  gained _ _ := by simp
  present logical _ := by simp [hsame]
  absolute howned := howned

theorem isDirectory_insert (tree : Tree) {made : Path} (hmade : made.components ≠ [])
    (path : Path) : isDirectory (tree.insert made .directory) path = true ↔
      isDirectory tree path = true ∨ path = made := by
  rw [isDirectory, isDirectory]
  by_cases hpath : path = made
  · subst hpath
    simp
  · rw [AList.lookup_insert_ne hpath]
    simp [hpath]

theorem createDir_made {path : Path} {result : Unit}
    (hcreated : createDir path tree = .ok result after) :
    path.components ≠ [] ∧ isDirectory tree path = false := by
  rw [createDir] at hcreated
  split at hcreated
  · cases hcreated
  · rename_i habsent
    rw [Bool.or_eq_true, not_or, List.isEmpty_iff, Bool.not_eq_true, Option.isSome_eq_false_iff,
      Option.isNone_iff_eq_none] at habsent
    refine ⟨habsent.1, ?_⟩
    rw [isDirectory, habsent.2]
    simpa using habsent.1

theorem createDirs_grows {list : List Path} (hrooted : ∀ logical ∈ list, logical.rooted = true)
    (hruns : createDirs destdir list owned tree = .ok owned' after) :
    Grows destdir (· ∈ list) owned owned' tree after := by
  induction list generalizing owned tree with
  | nil =>
      obtain ⟨rfl, rfl⟩ := pure_ok.mp hruns
      exact (Grows.idle owned fun _ => rfl).congr fun logical => by simp
  | cons made rest ih =>
      obtain ⟨hmade, hrest⟩ := List.forall_mem_cons.mp hrooted
      rw [createDirs, bind_ok] at hruns
      obtain ⟨answer, middle, hmake, hruns⟩ := hruns
      rcases attempt_ok.mp hmake with ⟨_, hcreated, rfl⟩ | ⟨error, hfailed, rfl⟩
      · obtain ⟨hnonempty, hmissing⟩ := createDir_made hcreated
        obtain ⟨_, rfl⟩ := createDir_ok hcreated
        have hfirst : Grows destdir (· = made) owned (owned.insert made) tree
            (tree.insert (staged destdir made) .directory) := by
          refine ⟨fun logical hlogical => ?_, fun logical hlogical => ?_, fun howned => ?_⟩
          · rw [List.mem_insert_iff, or_comm]
            refine or_congr_right ⟨?_, fun h => h.1⟩
            rintro rfl
            exact ⟨rfl, hmissing⟩
          · rw [isDirectory_insert tree hnonempty]
            exact or_congr_right ⟨staged_injective hlogical hmade, fun h => h ▸ rfl⟩
          · intro logical hlogical
            rcases List.mem_insert_iff.mp hlogical with rfl | hlogical
            · exact hmade
            · exact howned logical hlogical
        exact (hfirst.trans (ih hrest hruns)).congr fun logical => List.mem_cons.symm
      · obtain rfl := createDir_error hfailed
        obtain ⟨now, there, hget, hruns⟩ := bind_ok.mp hruns
        cases hget
        split at hruns
        · rename_i hexists
          have hgrows := ih hrest hruns
          refine ⟨fun logical hlogical => ?_, fun logical hlogical => ?_, hgrows.absolute⟩
          · rw [hgrows.gained logical hlogical, List.mem_cons]
            refine or_congr_right (and_congr_left fun hmissing => ⟨.inr, fun h => ?_⟩)
            rcases h with rfl | h
            · rw [hexists.2] at hmissing
              cases hmissing
            · exact h
          · rw [hgrows.present logical hlogical, List.mem_cons]
            constructor
            · exact fun h => h.imp_right .inr
            · rintro (h | rfl | h)
              · exact .inl h
              · exact .inl hexists.2
              · exact .inr h
        · cases hruns

/-- A directory above a path. -/
def AbovePath (path made : Path) : Prop :=
  ∃ parent, path.parent = some parent ∧ made ∈ parent.ancestors

theorem AbovePath.rooted {path made : Path} (habove : AbovePath path made)
    (hrooted : path.rooted = true) : made.rooted = true := by
  obtain ⟨parent, hparent, hmade⟩ := habove
  obtain ⟨components, _, rfl⟩ := List.mem_map.mp hmade
  rw [Path.parent] at hparent
  split at hparent
  · cases hparent
  · cases hparent
    exact hrooted

/-- The directories above a logical path are logical. -/
theorem AbovePath.logical {path made : Path} (habove : AbovePath path made)
    (hlogical : Logical path) : Logical made := by
  obtain ⟨parent, hparent, hmade⟩ := habove
  obtain ⟨components, hstart, rfl⟩ := List.mem_map.mp hmade
  rw [Path.parent] at hparent
  split at hparent
  · cases hparent
  · cases hparent
    have hsubset : components ⊆ path.components.dropLast :=
      ((List.mem_inits _ _).mp hstart).subset
    exact hlogical.mono (List.Subset.trans hsubset (List.dropLast_subset _))

theorem ensureParentDirs_grows {logical : Path} (hrooted : logical.rooted = true)
    (hruns : ensureParentDirs destdir logical owned tree = .ok owned' after) :
    Grows destdir (AbovePath logical) owned owned' tree after := by
  rw [ensureParentDirs] at hruns
  cases hparent : logical.parent with
  | none =>
      rw [hparent] at hruns
      cases hruns
  | some parent =>
      rw [hparent] at hruns
      have habove : ∀ made, made ∈ parent.ancestors ↔ AbovePath logical made := by
        intro made
        constructor
        · exact fun hmade => ⟨parent, hparent, hmade⟩
        · rintro ⟨other, hother, hmade⟩
          rw [hparent] at hother
          cases hother
          exact hmade
      exact (createDirs_grows (fun made hmade => ((habove made).mp hmade).rooted hrooted)
        hruns).congr habove

theorem atomicWrite_directory {path : Path} {bytes : List UInt8} {mode : UInt32} {result : Unit}
    (hruns : atomicWrite location path bytes mode tree = .ok result after) (other : Path) :
    isDirectory after other = isDirectory tree other := by
  obtain ⟨hnot, hfile, hothers⟩ := atomicWrite_ok hruns
  rw [isDirectory, isDirectory]
  by_cases hother : other = path
  · subst hother
    have hbefore : (tree.lookup other == some .directory) = false := beq_false_of_ne hnot
    rw [hfile, hbefore]
    rfl
  · rw [hothers other hother]

theorem removeStale_directory {prior : List (Path × List UInt8)} {result : Unit}
    (hruns : removeStale location items prior tree = .ok result after) (path : Path) :
    isDirectory after path = isDirectory tree path := by
  obtain ⟨hgone, hkept⟩ := removeStale_ok hruns path
  rw [isDirectory, isDirectory]
  by_cases hstale : Stale location items prior tree path
  · rw [hgone hstale]
    obtain ⟨_, _, _, _, _, hmatches⟩ := hstale
    obtain ⟨_, _, hfile, _⟩ := recordMatches_iff.mp hmatches
    rw [hfile]
    rfl
  · rw [hkept hstale]

theorem writeItems_grows {records records' : List (List UInt8)}
    (hrooted : ∀ item ∈ items, item.destination.rooted = true)
    (hruns : writeItems location items owned records tree = .ok (owned', records') after) :
    Grows location.destdir (AboveItem items) owned owned' tree after := by
  induction items generalizing owned records tree with
  | nil =>
      obtain ⟨heq, rfl⟩ := pure_ok.mp hruns
      cases heq
      exact (Grows.idle _ fun _ => rfl).congr fun logical => by simp [AboveItem]
  | cons item items ih =>
      obtain ⟨hitem, hitems⟩ := List.forall_mem_cons.mp hrooted
      rw [writeItems] at hruns
      obtain ⟨made, first, hparents, hruns⟩ := bind_ok.mp hruns
      cases hsource : item.source with
      | error error =>
          rw [hsource] at hruns
          cases hruns
      | ok bytes =>
          rw [hsource] at hruns
          simp only at hruns
          obtain ⟨_, second, hwrite, hruns⟩ := bind_ok.mp hruns
          have hall := ((ensureParentDirs_grows hitem hparents).trans
            (Grows.idle made (atomicWrite_directory hwrite))).trans (ih hitems hruns)
          refine hall.congr fun logical => ?_
          simp only [AboveItem, AbovePath, or_false, List.exists_mem_cons_iff]

theorem recordOfLine_directory_rooted {line : List UInt8} {logical : Path}
    (hrecord : recordOfLine line = some (.directory logical)) : logical.rooted = true := by
  rw [recordOfLine] at hrecord
  split at hrecord
  · obtain ⟨_, hpath, heq⟩ := Option.map_eq_some_iff.mp hrecord
    cases heq
    exact safeRecordPath_rooted hpath
  · split at hrecord
    · cases hrecord
    · obtain ⟨_, _, heq⟩ := Option.map_eq_some_iff.mp hrecord
      cases heq

theorem priorRecords_rooted {logical : Path}
    (hlogical : logical ∈ directoryRecords (priorRecords location tree)) :
    logical.rooted = true := by
  rw [mem_directoryRecords, priorRecords, readRecords] at hlogical
  cases hnode : tree.lookup (markerPath location) with
  | none =>
      rw [hnode] at hlogical
      exact absurd hlogical List.not_mem_nil
  | some node =>
      rw [hnode] at hlogical
      cases node with
      | directory => exact absurd hlogical List.not_mem_nil
      | file bytes mode =>
          simp only at hlogical
          cases hdecode : Text.decode bytes with
          | none =>
              rw [hdecode] at hlogical
              exact absurd hlogical List.not_mem_nil
          | some text =>
              rw [hdecode] at hlogical
              obtain ⟨line, _, hline⟩ := List.mem_filterMap.mp hlogical
              exact recordOfLine_directory_rooted hline

/-- The items of an installation that succeeds could be read. -/
theorem writeItems_sources {records records' : List (List UInt8)}
    (hruns : writeItems location items owned records tree = .ok (owned', records') after) :
    ∀ item ∈ items, ∃ bytes, item.source = .ok bytes := by
  induction items generalizing owned records tree with
  | nil => exact fun _ hitem => absurd hitem List.not_mem_nil
  | cons item items ih =>
      rw [writeItems] at hruns
      obtain ⟨made, first, _, hruns⟩ := bind_ok.mp hruns
      cases hsource : item.source with
      | error error =>
          rw [hsource] at hruns
          cases hruns
      | ok bytes =>
          rw [hsource] at hruns
          obtain ⟨_, second, _, hruns⟩ := bind_ok.mp hruns
          exact List.forall_mem_cons.mpr ⟨⟨bytes, hsource⟩, ih hruns⟩

/-- An installation is its files and then its marker. -/
theorem installItems_split {result : Unit}
    (hruns : installItems location items tree = .ok result after) :
    ∃ middle, installFiles location items tree =
        .ok (ownedAt location items tree,
          (contents items).map fun file => fileLine location file.1 file.2) middle ∧
      (∀ item ∈ items, ∃ bytes, item.source = .ok bytes) ∧
      after.lookup (markerPath location) = some (.file
        (joinLines (sortLines (markerLines location (contents items)
          (ownedAt location items tree)))) 0o644) := by
  rw [installItems] at hruns
  obtain ⟨prior, first, hread, hprior⟩ := bind_ok.mp hruns
  obtain ⟨now, there, hget, hitems⟩ := bind_ok.mp hprior
  obtain ⟨⟨written, records⟩, second, hwrite, hwritten⟩ := bind_ok.mp hitems
  obtain ⟨_, third, hremove, hremoved⟩ := bind_ok.mp hwritten
  obtain ⟨owned, fourth, hparents, hmark⟩ := bind_ok.mp hremoved
  obtain ⟨rfl, _⟩ := writeItems_ok hwrite
  have hfiles : installFiles location items tree = .ok (owned, _) fourth :=
    bind_ok.mpr ⟨prior, first, hread, bind_ok.mpr ⟨now, there, hget,
      bind_ok.mpr ⟨_, second, hwrite, bind_ok.mpr ⟨_, third, hremove,
        bind_ok.mpr ⟨owned, fourth, hparents, rfl⟩⟩⟩⟩⟩
  have howned : ownedAt location items tree = owned := by
    rw [ownedAt, hfiles]
  refine ⟨fourth, ?_, writeItems_sources hwrite, ?_⟩
  · rw [howned]
    exact hfiles
  · rw [howned, (atomicWrite_ok hmark).2.1, List.nil_append]
    rfl

theorem ownedAt_grows {result : Unit} (hmarker : location.sysconfdir.rooted = true)
    (hrooted : ∀ item ∈ items, item.destination.rooted = true)
    (hruns : installItems location items tree = .ok result after) :
    ∃ owned middle, Grows location.destdir (Above location items) owned
        (ownedAt location items tree) tree middle ∧
      ∀ logical, logical ∈ owned ↔
        logical ∈ directoryRecords (priorRecords location tree) ∧
          isDirectory tree (staged location.destdir logical) = true := by
  obtain ⟨middle, hfiles, _, _⟩ := installItems_split hruns
  rw [installFiles] at hfiles
  obtain ⟨prior, first, hread, hprior⟩ := bind_ok.mp hfiles
  obtain rfl := readRecords_tree hread
  obtain ⟨now, there, hget, hitems⟩ := bind_ok.mp hprior
  cases hget
  obtain ⟨⟨written, records⟩, second, hwrite, hwritten⟩ := bind_ok.mp hitems
  obtain ⟨_, third, hremove, hremoved⟩ := bind_ok.mp hwritten
  obtain ⟨owned, fourth, hparents, hend⟩ := bind_ok.mp hremoved
  obtain ⟨heq, rfl⟩ := pure_ok.mp hend
  obtain ⟨rfl, _⟩ := Prod.mk.inj heq
  have hmarkerRooted : location.marker.rooted = true := hmarker
  have hall := ((writeItems_grows hrooted hwrite).trans
    (Grows.idle written (removeStale_directory hremove))).trans
    (ensureParentDirs_grows hmarkerRooted hparents)
  refine ⟨_, fourth, hall.congr fun logical => ?_, fun logical => ?_⟩
  · rw [Above, or_false, AbovePath]
  · have hrecords : priorRecords location first = prior.getD [] := by
      rw [priorRecords, hread]
      cases prior <;> rfl
    rw [mem_foldl_insert, List.mem_filter, hrecords]
    simp

theorem WillOwn.rooted {logical : Path} (hmarker : location.sysconfdir.rooted = true)
    (hrooted : ∀ item ∈ items, item.destination.rooted = true)
    (howned : WillOwn location items tree logical) : logical.rooted = true := by
  rcases howned with ⟨hprior, _⟩ | ⟨⟨item, hitem, habove⟩ | habove, _⟩
  · exact priorRecords_rooted hprior
  · exact AbovePath.rooted habove (hrooted item hitem)
  · have hmarkerRooted : location.marker.rooted = true := hmarker
    exact AbovePath.rooted habove hmarkerRooted

/-- The owned directories are those that the tree tells. -/
theorem mem_ownedAt {result : Unit} (hmarker : location.sysconfdir.rooted = true)
    (hrooted : ∀ item ∈ items, item.destination.rooted = true)
    (hruns : installItems location items tree = .ok result after) (logical : Path) :
    logical ∈ ownedAt location items tree ↔ WillOwn location items tree logical := by
  obtain ⟨owned, middle, hgrows, howned⟩ := ownedAt_grows hmarker hrooted hruns
  have hfirst : ∀ other ∈ owned, other.rooted = true := fun other hother =>
    priorRecords_rooted ((howned other).mp hother).1
  constructor
  · intro hlogical
    have hmem := (hgrows.gained logical (hgrows.absolute hfirst logical hlogical)).mp hlogical
    exact hmem.imp_left (howned logical).mp
  · intro hwill
    rw [hgrows.gained logical (hwill.rooted hmarker hrooted)]
    exact hwill.imp_left (howned logical).mpr

end Xtask

end Wiiland
