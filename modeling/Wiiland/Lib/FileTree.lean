/-
A tree of files and directories as a map from paths, and the calls on it.  A program
on a tree keeps what it has changed when it fails.
-/
import Mathlib.Data.List.AList
import Wiiland.Lib.UnixPath

namespace FileTree

open UnixPath

inductive Node where
  | file (bytes : List UInt8) (mode : UInt32)
  | directory
deriving DecidableEq

abbrev Tree := AList fun _ : Path => Node

inductive Error where
  | alreadyExists
  | notFound
  | isADirectory
  | notADirectory
  | directoryNotEmpty
  | invalidData
  | other (message : String)
deriving DecidableEq

/-- Programs on a tree. -/
abbrev Action := EStateM Error Tree

variable {α β : Type} {tree after : Tree} {path : Path}

/-- The root and the current directory are always there. -/
def isDirectory (tree : Tree) (path : Path) : Bool :=
  path.components.isEmpty || tree.lookup path == some .directory

def parentIsDirectory (tree : Tree) (path : Path) : Bool :=
  match path.parent with
  | some parent => isDirectory tree parent
  | none => true

/-- Something is in the directory of this path. -/
def hasChild (tree : Tree) (path : Path) : Bool :=
  tree.keys.any fun other => other.parent == some path

/-- What a program answers, an error included. -/
def attempt (action : Action α) : Action (Except Error α) := fun tree =>
  match action tree with
  | .ok value after => .ok (.ok value) after
  | .error error after => .ok (.error error) after

def createDir (path : Path) : Action Unit := fun tree =>
  if path.components.isEmpty || (tree.lookup path).isSome then .error .alreadyExists tree
  else if parentIsDirectory tree path then .ok () (tree.insert path .directory)
  else .error .notFound tree

/-- Opening a new file to write it. -/
def createNew (path : Path) : Action Unit := fun tree =>
  if path.components.isEmpty || (tree.lookup path).isSome then .error .alreadyExists tree
  else if parentIsDirectory tree path then .ok () (tree.insert path (.file [] 0))
  else .error .notFound tree

/-- Writing a file and setting its permissions. -/
def writeAll (path : Path) (bytes : List UInt8) (mode : UInt32) : Action Unit := fun tree =>
  .ok () (tree.insert path (.file bytes mode))

/-- Renaming a file, in the place of another one if need be. -/
def rename (source target : Path) : Action Unit := fun tree =>
  match tree.lookup source with
  | none => .error .notFound tree
  | some node =>
      if isDirectory tree target then .error .isADirectory tree
      else .ok () ((tree.erase source).insert target node)

def removeFile (path : Path) : Action Unit := fun tree =>
  match tree.lookup path with
  | some (.file _ _) => .ok () (tree.erase path)
  | some .directory => .error .isADirectory tree
  | none => .error .notFound tree

/-- Only an empty directory is removed. -/
def removeDir (path : Path) : Action Unit := fun tree =>
  match tree.lookup path with
  | some .directory =>
      if hasChild tree path then .error .directoryNotEmpty tree
      else .ok () (tree.erase path)
  | some (.file _ _) => .error .notADirectory tree
  | none => .error .notFound tree

theorem bind_ok {action : Action α} {rest : α → Action β} {result : β} :
    (action >>= rest) tree = .ok result after ↔
      ∃ value middle, action tree = .ok value middle ∧ rest value middle = .ok result after := by
  change EStateM.bind action rest tree = .ok result after ↔ _
  rw [EStateM.bind]
  cases action tree with
  | ok value middle =>
      simp only [EStateM.Result.ok.injEq]
      constructor
      · exact fun hrest => ⟨value, middle, ⟨rfl, rfl⟩, hrest⟩
      · rintro ⟨_, _, ⟨rfl, rfl⟩, hrest⟩
        exact hrest
  | error error middle =>
      constructor
      · intro hrest
        cases hrest
      · rintro ⟨_, _, hvalue, _⟩
        cases hvalue

theorem pure_ok {value result : α} :
    (pure value : Action α) tree = .ok result after ↔ value = result ∧ tree = after := by
  change EStateM.Result.ok value tree = .ok result after ↔ _
  rw [EStateM.Result.ok.injEq]

theorem attempt_ok {action : Action α} {result : Except Error α} :
    attempt action tree = .ok result after ↔
      (∃ value, action tree = .ok value after ∧ result = .ok value) ∨
        ∃ error, action tree = .error error after ∧ result = .error error := by
  rw [attempt]
  cases action tree with
  | ok value middle => grind
  | error error middle => grind

theorem createDir_ok {result : Unit} (hcreated : createDir path tree = .ok result after) :
    tree.lookup path = none ∧ after = tree.insert path .directory := by
  rw [createDir] at hcreated
  split at hcreated
  · cases hcreated
  · split at hcreated
    · rename_i habsent _
      cases hcreated
      rw [Bool.or_eq_true, not_or] at habsent
      exact ⟨by simpa using habsent.2, rfl⟩
    · cases hcreated

/-- A directory that cannot be made changes nothing. -/
theorem createDir_error {error : Error} (hfailed : createDir path tree = .error error after) :
    after = tree := by
  rw [createDir] at hfailed
  split at hfailed
  · cases hfailed
    rfl
  · split at hfailed
    · cases hfailed
    · cases hfailed
      rfl

theorem createNew_ok {result : Unit} (hcreated : createNew path tree = .ok result after) :
    tree.lookup path = none ∧ after = tree.insert path (.file [] 0) := by
  rw [createNew] at hcreated
  split at hcreated
  · cases hcreated
  · split at hcreated
    · rename_i habsent _
      cases hcreated
      rw [Bool.or_eq_true, not_or] at habsent
      exact ⟨by simpa using habsent.2, rfl⟩
    · cases hcreated

theorem rename_ok {source : Path} {result : Unit}
    (hrenamed : rename source path tree = .ok result after) :
    ∃ node, tree.lookup source = some node ∧ tree.lookup path ≠ some .directory ∧
      after = (tree.erase source).insert path node := by
  rw [rename] at hrenamed
  cases hnode : tree.lookup source with
  | none =>
      rw [hnode] at hrenamed
      cases hrenamed
  | some node =>
      rw [hnode] at hrenamed
      simp only at hrenamed
      split at hrenamed
      · cases hrenamed
      · rename_i hnot
        cases hrenamed
        refine ⟨node, rfl, fun hdirectory => hnot ?_, rfl⟩
        rw [isDirectory, hdirectory, Bool.or_eq_true]
        exact .inr (beq_self_eq_true _)

/-- Writing a new file and renaming it to its place changes nothing but the place. -/
theorem createNew_rename_ok {tmp : Path} {bytes : List UInt8} {mode : UInt32} {result : Unit}
    (hruns : (do createNew tmp; writeAll tmp bytes mode; rename tmp path : Action Unit) tree =
      .ok result after) :
    tree.lookup path ≠ some .directory ∧ after.lookup path = some (.file bytes mode) ∧
      ∀ other, other ≠ path → after.lookup other = tree.lookup other := by
  obtain ⟨_, first, hcreate, hwrite⟩ := bind_ok.mp hruns
  obtain ⟨hnone, rfl⟩ := createNew_ok hcreate
  obtain ⟨_, second, hfill, hrename⟩ := bind_ok.mp hwrite
  cases hfill
  obtain ⟨node, hnode, hnot, rfl⟩ := rename_ok hrename
  rw [AList.lookup_insert, Option.some.injEq] at hnode
  subst hnode
  refine ⟨fun hdirectory => hnot ?_, AList.lookup_insert _, fun other hother => ?_⟩
  · have hother : path ≠ tmp := by
      rintro rfl
      rw [hnone] at hdirectory
      cases hdirectory
    rw [AList.lookup_insert_ne hother, AList.lookup_insert_ne hother, hdirectory]
  · rw [AList.lookup_insert_ne hother]
    by_cases htmp : other = tmp
    · rw [htmp, AList.lookup_erase, hnone]
    · rw [AList.lookup_erase_ne htmp, AList.lookup_insert_ne htmp, AList.lookup_insert_ne htmp]

theorem removeFile_ok {result : Unit} (hremoved : removeFile path tree = .ok result after) :
    (∃ bytes mode, tree.lookup path = some (.file bytes mode)) ∧ after = tree.erase path := by
  rw [removeFile] at hremoved
  cases hnode : tree.lookup path with
  | none =>
      rw [hnode] at hremoved
      cases hremoved
  | some node =>
      rw [hnode] at hremoved
      cases node with
      | file bytes mode =>
          cases hremoved
          exact ⟨⟨bytes, mode, rfl⟩, rfl⟩
      | directory => cases hremoved

/-- A directory is removed only when nothing is in it; else nothing changes. -/
theorem removeDir_cases (path : Path) (tree : Tree) :
    (tree.lookup path = some .directory ∧ hasChild tree path = false ∧
      removeDir path tree = .ok () (tree.erase path)) ∨
    ∃ error, removeDir path tree = .error error tree := by
  rw [removeDir]
  cases hnode : tree.lookup path with
  | none => exact .inr ⟨_, rfl⟩
  | some node =>
      cases node with
      | file bytes mode => exact .inr ⟨_, rfl⟩
      | directory =>
          cases hchild : hasChild tree path with
          | true => exact .inr ⟨_, if_pos rfl⟩
          | false => exact .inl ⟨rfl, rfl, if_neg Bool.false_ne_true⟩

theorem lookup_of_hasChild (hnone : hasChild tree path = false) {child : Path}
    (hchild : child.parent = some path) : tree.lookup child = none := by
  rw [AList.lookup_eq_none, AList.mem_keys]
  intro hmem
  have hany : hasChild tree path = true :=
    List.any_eq_true.mpr ⟨child, hmem, beq_iff_eq.mpr hchild⟩
  rw [hnone] at hany
  cases hany

end FileTree
