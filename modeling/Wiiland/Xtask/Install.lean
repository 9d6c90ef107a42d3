/-
Installing the build products: the files and directories that an installation makes,
the marker file in which it records them, and what a later one or an uninstallation
removes by that record.
-/
import Mathlib.Data.List.Destutter
import Mathlib.Data.List.Sort
import Wiiland.Lib.FileTree
import Wiiland.Lib.LossyText

namespace Wiiland

namespace Xtask

open UnixPath FileTree

/-- The bytes of a text. -/
def utf8 (text : String) : List UInt8 := Text.encode text.toList

/-- `hash_bytes`: FNV-1a. -/
def hashBytes (bytes : List UInt8) : UInt64 :=
  bytes.foldl (fun hash byte => (hash ^^^ byte.toUInt64) * 0x100000001b3) 0xcbf29ce484222325

def hexDigit (value : Nat) : Char :=
  if value < 10 then Char.ofNat (48 + value) else Char.ofNat (87 + value)

/-- `format!("{:016x}")`. -/
def hex16 (value : UInt64) : List Char :=
  (List.range 16).map fun place => hexDigit (value.toNat >>> (4 * (15 - place)) % 16)

/-- How contents are told apart in the marker: a text of one line for each content. -/
structure Digest where
  text : List UInt8 → List Char
  line : ∀ content, ∀ byte ∈ Text.encode (text content), byte ≠ 10 ∧ byte ≠ 13

/-- What `source_bytes` reads, where the item goes, and its permissions. -/
structure Item where
  source : Except FileTree.Error (List UInt8)
  destination : Path
  mode : UInt32

/-- The staging directory, the configuration directory of the manifest, the digest of the
contents and the process that installs. -/
structure Location where
  destdir : Path
  sysconfdir : Path
  digest : Digest
  processId : Nat

def staged (destdir logical : Path) : Path :=
  if destdir.isEmpty then logical else destdir.extend logical.components

/-- The logical path of the marker. -/
def Location.marker (location : Location) : Path :=
  location.sysconfdir.extend [utf8 "wiiland", utf8 ".xtask-install"]

def markerPath (location : Location) : Path := staged location.destdir location.marker

def expected (location : Location) (bytes : List UInt8) : List UInt8 :=
  Text.encode (location.digest.text bytes)

/-- `path.file_name().and_then(to_str).unwrap_or("wiiland")`. -/
def fileNameOr (path : Path) : List UInt8 :=
  (path.fileName.filter fun name => (Text.decode name).isSome).getD (utf8 "wiiland")

def atomicWrite (location : Location) (path : Path) (bytes : List UInt8) (mode : UInt32) :
    Action Unit := do
  match path.parent with
  | none => throw (.other "destination has no parent")
  | some parent =>
      let tmp := parent.extend
        [utf8 "." ++ fileNameOr path ++ utf8 (toString location.processId) ++ utf8 ".tmp"]
      match ← attempt (do
          createNew tmp
          writeAll tmp bytes mode
          rename tmp path) with
      | .ok () => pure ()
      | .error error => do
          let _ ← attempt (removeFile tmp)
          throw error

/-- Make directories from the first on; those that it makes are owned. -/
def createDirs (destdir : Path) : List Path → List Path → Action (List Path)
  | [], owned => pure owned
  | logical :: rest, owned => do
      match ← attempt (createDir (staged destdir logical)) with
      | .ok () => createDirs destdir rest (owned.insert logical)
      | .error error =>
          let tree ← get
          if error = .alreadyExists ∧ isDirectory tree (staged destdir logical) then
            createDirs destdir rest owned
          else throw error

def ensureParentDirs (destdir logical : Path) (owned : List Path) : Action (List Path) :=
  match logical.parent with
  | none => throw (.other "destination has no parent")
  | some parent => createDirs destdir parent.ancestors owned

inductive OwnershipRecord where
  | file (logical : Path) (expected : List UInt8)
  | directory (logical : Path)
deriving DecidableEq

def safeRecordPath (value : List UInt8) : Option Path :=
  let path := ofBytes value
  if !path.rooted || path.components.contains upward then none else some path

def tab : UInt8 := 9
def newline : UInt8 := 10
def carriageReturn : UInt8 := 13

/-- `line.strip_prefix`. -/
def strip (start line : List UInt8) : Option (List UInt8) :=
  if start.isPrefixOf line then some (line.drop start.length) else none

/-- `line.split_once`. -/
def splitOnce (delimiter : UInt8) (line : List UInt8) : Option (List UInt8 × List UInt8) :=
  match line.span (· != delimiter) with
  | (_, []) => none
  | (before, _ :: after) => some (before, after)

def directoryTag : List UInt8 := [100, 105, 114, 9]
def fileTag : List UInt8 := [102, 105, 108, 101, 9]

def recordOfLine (line : List UInt8) : Option OwnershipRecord :=
  match strip directoryTag line with
  | some logical => (safeRecordPath logical).map .directory
  | none =>
      match splitOnce tab ((strip fileTag line).getD line) with
      | none => none
      | some (logical, expected) => (safeRecordPath logical).map fun path => .file path expected

/-- `str::lines`: a line that ends may end in a carriage return and a newline. -/
def textLines (text : List UInt8) : List (List UInt8) :=
  (Lines.cut newline text).1.map
      (fun line => if line.getLast? = some carriageReturn then line.dropLast else line) ++
    if (Lines.cut newline text).2 = [] then [] else [(Lines.cut newline text).2]

def readRecords (marker : Path) : Action (Option (List OwnershipRecord)) := fun tree =>
  match tree.lookup marker with
  | none => .ok none tree
  | some .directory => .error .isADirectory tree
  | some (.file bytes _) =>
      match Text.decode bytes with
      | none => .error .invalidData tree
      | some _ => .ok (some ((textLines bytes).filterMap recordOfLine)) tree

def recordMatches (location : Location) (tree : Tree) (target : Path)
    (record : List UInt8) : Bool :=
  match tree.lookup target with
  | some (.file bytes _) => expected location bytes = record
  | _ => false

/-- `path.display()`. -/
def display (path : Path) : List UInt8 := Text.encode (LossyText.decode path.toBytes)

def fileLine (location : Location) (logical : Path) (bytes : List UInt8) : List UInt8 :=
  fileTag ++ display logical ++ tab :: expected location bytes

def directoryLine (logical : Path) : List UInt8 := directoryTag ++ display logical

/-- The file records of a marker. -/
def fileRecords (records : List OwnershipRecord) : List (Path × List UInt8) :=
  records.filterMap fun record =>
    match record with
    | .file logical expected => some (logical, expected)
    | .directory _ => none

def directoryRecords (records : List OwnershipRecord) : List Path :=
  records.filterMap fun record =>
    match record with
    | .file _ _ => none
    | .directory logical => some logical

/-- Write the items, and give the directories that are owned now and the file lines. -/
def writeItems (location : Location) :
    List Item → List Path → List (List UInt8) → Action (List Path × List (List UInt8))
  | [], owned, records => pure (owned, records)
  | item :: items, owned, records => do
      let owned ← ensureParentDirs location.destdir item.destination owned
      match item.source with
      | .error error => throw error
      | .ok bytes =>
          atomicWrite location (staged location.destdir item.destination) bytes item.mode
          writeItems location items owned
            (records ++ [fileLine location item.destination bytes])

def removeStale (location : Location) (items : List Item) :
    List (Path × List UInt8) → Action Unit
  | [] => pure ()
  | (logical, record) :: rest => do
      if items.any (fun item => item.destination == logical) then
        removeStale location items rest
      else
        let tree ← get
        if recordMatches location tree (staged location.destdir logical) record then
          removeFile (staged location.destdir logical)
          removeStale location items rest
        else removeStale location items rest

/-- `records.join("\n")` and a newline. -/
def joinLines (lines : List (List UInt8)) : List UInt8 :=
  List.intercalate [newline] lines ++ [newline]

def sortLines (lines : List (List UInt8)) : List (List UInt8) := lines.insertionSort (· ≤ ·)

def installItems (location : Location) (items : List Item) : Action Unit := do
  let prior := (← readRecords (markerPath location)).getD []
  let tree ← get
  let owned := ((directoryRecords prior).filter fun logical =>
    isDirectory tree (staged location.destdir logical)).foldl
      (fun owned logical => owned.insert logical) []
  let (owned, records) ← writeItems location items owned []
  removeStale location items (fileRecords prior)
  let owned ← ensureParentDirs location.destdir location.marker owned
  atomicWrite location (markerPath location)
    (joinLines (sortLines (records ++ owned.map directoryLine))) 0o644

/-- Remove the files of a record that are as they were installed. -/
def removeRecorded (location : Location) : List (Path × List UInt8) → Action Unit
  | [] => pure ()
  | (logical, record) :: rest => do
      let tree ← get
      if recordMatches location tree (staged location.destdir logical) record then
        removeFile (staged location.destdir logical)
        removeRecorded location rest
      else removeRecorded location rest

def removeDirs (destdir : Path) : List Path → Action Unit
  | [] => pure ()
  | logical :: rest => do
      let _ ← attempt (removeDir (staged destdir logical))
      removeDirs destdir rest

/-- The directories of a record, the deepest first. -/
def deepestFirst (directories : List Path) : List Path :=
  (directories.insertionSort fun first second =>
    second.components.length ≤ first.components.length).destutter (· ≠ ·)

def uninstall (location : Location) : Action Unit := do
  match ← readRecords (markerPath location) with
  | none => pure ()
  | some records =>
      removeRecorded location (fileRecords records)
      removeFile (markerPath location)
      removeDirs location.destdir (deepestFirst (directoryRecords records))

end Xtask

end Wiiland
