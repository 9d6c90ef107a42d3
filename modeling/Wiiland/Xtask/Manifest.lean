/-
What an installation consists of: the directories that are checked before anything is
installed, and the files that the manifest puts into them.
-/
import Wiiland.Xtask.Records

namespace Wiiland

namespace Xtask

open UnixPath FileTree

structure Features where
  gui : Bool := false
  tui : Bool := false
  integrations : Bool := false
deriving DecidableEq, Repr

structure LogicalDirs where
  prefixDir : Path
  execPrefix : Path
  bindir : Path
  datadir : Path
  sysconfdir : Path
  docdir : Path
  mandir : Path
deriving DecidableEq

structure LogicalDirOverrides where
  prefixDir : Option Path := none
  execPrefix : Option Path := none
  bindir : Option Path := none
  datadir : Option Path := none
  sysconfdir : Option Path := none
  docdir : Option Path := none
  mandir : Option Path := none

def etc : Path := ⟨true, [utf8 "etc"]⟩

/-- The directories that are not given follow from those that are. -/
def LogicalDirOverrides.resolve (overrides : LogicalDirOverrides) : LogicalDirs :=
  let prefixDir := overrides.prefixDir.getD ⟨true, [utf8 "usr", utf8 "local"]⟩
  let execPrefix := overrides.execPrefix.getD prefixDir
  let datadir := overrides.datadir.getD (prefixDir.extend [utf8 "share"])
  { bindir := overrides.bindir.getD (execPrefix.extend [utf8 "bin"])
    sysconfdir := overrides.sysconfdir.getD etc
    docdir := overrides.docdir.getD (datadir.extend [utf8 "doc", utf8 "wiiland"])
    mandir := overrides.mandir.getD (datadir.extend [utf8 "man"])
    prefixDir, execPrefix, datadir }

/-- Why a directory is refused. -/
inductive DirError where
  | notAbsolute (name : String) (path : Path)
  | contains (name : String)
  | relocated (path : Path)
  | expected (value : List UInt8)
deriving DecidableEq

def DirError.message : DirError → List UInt8
  | .notAbsolute name path => utf8 name ++ utf8 " must be absolute: " ++ display path
  | .contains name => utf8 name ++ utf8 " contains '..'"
  | .relocated path =>
      utf8 "sysconfdir must be /etc until runtime config relocation is supported: " ++
        display path
  | .expected value => utf8 "expected auto, no, or an absolute path: " ++ value

def validateEach : List (String × Path) → Except DirError Unit
  | [] => pure ()
  | (name, path) :: rest =>
      if !path.rooted then throw (.notAbsolute name path)
      else if path.components.contains upward then throw (.contains name)
      else validateEach rest

def LogicalDirs.validate (dirs : LogicalDirs) : Except DirError Unit := do
  validateEach [("prefix", dirs.prefixDir), ("exec_prefix", dirs.execPrefix),
    ("bindir", dirs.bindir), ("datadir", dirs.datadir), ("sysconfdir", dirs.sysconfdir),
    ("docdir", dirs.docdir), ("mandir", dirs.mandir)]
  if dirs.sysconfdir ≠ etc then throw (.relocated dirs.sysconfdir)

inductive OptionalDir where
  | auto
  | no
  | absolute (path : Path)
deriving DecidableEq

def OptionalDir.parse (value : List UInt8) : Except DirError OptionalDir :=
  if value = utf8 "auto" then pure .auto
  else if value = utf8 "no" then pure .no
  else
    let path := ofBytes value
    if !path.rooted || path.components.contains upward then throw (.expected value)
    else pure (.absolute path)

/-- The directory itself; `queried` is what `pkg-config` answers, if it answers at all. -/
def OptionalDir.resolve (dir : OptionalDir) (queried : Option (List UInt8))
    (fallback : Path) (suffix : Option (List UInt8)) : Option Path :=
  let withSuffix path := match suffix with
    | some suffix =>
        if path.fileName ≠ some suffix then path.extend [suffix] else path
    | none => path
  match dir with
  | .no => none
  | .absolute path => some (withSuffix path)
  | .auto => some (withSuffix ((queried.map ofBytes).getD fallback))

inductive ItemSource where
  | root (path : Path)
  | built (path : Path)
  | generatedService
deriving DecidableEq

/-- An item as the manifest lists it. -/
structure ManifestItem where
  source : ItemSource
  destination : Path
  mode : UInt32
deriving DecidableEq

structure Manifest where
  root : Path
  dirs : LogicalDirs
  features : Features
  udevDir : Option Path
  systemdDir : Option Path
  xorgDir : Option Path

/-- What `pkg-config` answers for the three packages. -/
structure Queried where
  udev : Option (List UInt8) := none
  systemd : Option (List UInt8) := none
  xorg : Option (List UInt8) := none

def Manifest.new (root : Path) (dirs : LogicalDirs) (features : Features)
    (udev systemd xorg : OptionalDir) (queried : Queried) : Except DirError Manifest := do
  dirs.validate
  pure
    { root, dirs, features
      udevDir := udev.resolve queried.udev (dirs.prefixDir.extend [utf8 "lib", utf8 "udev"])
        (some (utf8 "rules.d"))
      systemdDir := systemd.resolve queried.systemd
        (dirs.prefixDir.extend [utf8 "lib", utf8 "systemd", utf8 "user"]) none
      xorgDir := xorg.resolve queried.xorg
        (dirs.datadir.extend [utf8 "X11", utf8 "xorg.conf.d"]) none }

/-- `path.extension()` of a file name. -/
def extension (name : List UInt8) : Option (List UInt8) :=
  let after := (name.reverse.takeWhile (· != 46)).reverse
  let before := name.take (name.length - after.length)
  if before.length ≤ 1 then none else some after

def isDigits (text : List UInt8) : Bool := text.all fun byte => 48 ≤ byte && byte ≤ 57

/-- Manual pages are not documentation files. -/
def isManual (file : List (List UInt8)) : Bool :=
  ((file.getLast?.bind extension).map isDigits).getD false

namespace Manifest

def builtItem (manifest : Manifest) (profile : List UInt8) (name : String) : ManifestItem where
  source := .built (manifest.root.extend [utf8 "target", profile, utf8 name])
  destination := manifest.dirs.bindir.extend [utf8 name]
  mode := 0o755

def rootItem (manifest : Manifest) (source : List String) (destination : Path) :
    ManifestItem where
  source := .root (manifest.root.extend (source.map utf8))
  destination := destination
  mode := 0o644

/-- The items of the manifest; `docs` are the files below `doc` that the walk finds. -/
def items (manifest : Manifest) (profile : List UInt8) (docs : List (List (List UInt8))) :
    List ManifestItem :=
  let dirs := manifest.dirs
  let features := manifest.features
  [manifest.builtItem profile "wiilandd",
    manifest.builtItem profile "wiilandd-hardware-report"] ++
  (if features.tui then [manifest.builtItem profile "wiiland-show"] else []) ++
  (if features.gui then [manifest.builtItem profile "wiiland-config"] else []) ++
  [manifest.rootItem ["res", "wiilandd.conf"]
      (dirs.sysconfdir.extend [utf8 "wiiland", utf8 "wiilandd.conf"]),
    manifest.rootItem ["res", "wiilandd.conf"]
      (dirs.docdir.extend [utf8 "examples", utf8 "wiilandd.conf"]),
    manifest.rootItem ["LICENSE"] (dirs.docdir.extend [utf8 "LICENSE"]),
    manifest.rootItem ["COPYING"] (dirs.docdir.extend [utf8 "COPYING"]),
    manifest.rootItem ["doc", "wiiland.7"] (dirs.mandir.extend [utf8 "man7", utf8 "wiiland.7"]),
    manifest.rootItem ["doc", "wiilandd.1"]
      (dirs.mandir.extend [utf8 "man1", utf8 "wiilandd.1"])] ++
  (if features.tui then
    [manifest.rootItem ["doc", "wiiland-show.1"]
      (dirs.mandir.extend [utf8 "man1", utf8 "wiiland-show.1"])] else []) ++
  (if features.gui then
    [manifest.rootItem ["doc", "wiiland-config.1"]
      (dirs.mandir.extend [utf8 "man1", utf8 "wiiland-config.1"])] else []) ++
  ((docs.insertionSort (· ≤ ·)).filter fun file => !isManual file).map (fun file =>
    -- These sources are relative to the root.
    { source := .root ⟨false, utf8 "doc" :: file⟩
      destination := dirs.docdir.extend file, mode := 0o644 }) ++
  (if features.integrations then
    (manifest.udevDir.toList.flatMap fun dir =>
      [manifest.rootItem ["res", "70-udev-wiiland.rules"]
          (dir.extend [utf8 "70-udev-wiiland.rules"]),
        manifest.rootItem ["res", "70-wiiland-uinput.rules"]
          (dir.extend [utf8 "70-wiiland-uinput.rules"])]) ++
    (manifest.systemdDir.toList.map fun dir =>
      { source := .generatedService, destination := dir.extend [utf8 "wiilandd.service"]
        mode := 0o644 }) ++
    (manifest.xorgDir.toList.map fun dir =>
      manifest.rootItem ["res", "50-xorg-fix-wiiland.conf"]
        (dir.extend [utf8 "50-xorg-fix-wiiland.conf"])) else []) ++
  (if features.gui then
    [manifest.rootItem ["res", "io.github.philosophimoonbeam.wiiland-config.desktop"]
        (dirs.datadir.extend [utf8 "applications",
          utf8 "io.github.philosophimoonbeam.wiiland-config.desktop"]),
      manifest.rootItem ["res", "io.github.philosophimoonbeam.wiiland.svg"]
        (dirs.datadir.extend [utf8 "icons", utf8 "hicolor", utf8 "scalable", utf8 "apps",
          utf8 "io.github.philosophimoonbeam.wiiland.svg"])] else [])

/-- The service that is installed. -/
def serviceText (manifest : Manifest) : List UInt8 :=
  utf8 ("[Unit]\nDescription=WiiLand input bridge\nDocumentation=man:wiilandd(1)\n\n" ++
    "[Service]\nType=simple\nNoNewPrivileges=yes\nLockPersonality=yes\n" ++
    "MemoryDenyWriteExecute=yes\nRestrictRealtime=yes\nRestrictSUIDSGID=yes\n" ++
    "SystemCallArchitectures=native\nUMask=0077\nExecCondition=") ++
  display manifest.dirs.bindir ++ utf8 "/wiilandd --check-config\nExecStart=" ++
  display manifest.dirs.bindir ++
  utf8 ("/wiilandd\nRestart=on-failure\nRestartSec=2s\n\n[Install]\n" ++
    "WantedBy=default.target\n")

/-- `source_bytes`, by what reading a file gives. -/
def sourceBytes (manifest : Manifest) (read : Path → Except FileTree.Error (List UInt8)) :
    ItemSource → Except FileTree.Error (List UInt8)
  | .root path => read path
  | .built path => read path
  | .generatedService => pure manifest.serviceText

/-- An item with the bytes that are installed for it. -/
def load (manifest : Manifest) (read : Path → Except FileTree.Error (List UInt8))
    (item : ManifestItem) : Item :=
  ⟨manifest.sourceBytes read item.source, item.destination, item.mode⟩

/-- Where the marker goes and how it is written. -/
def location (manifest : Manifest) (destdir : Path) (processId : Nat) : Location :=
  ⟨destdir, manifest.dirs.sysconfdir, fnv, processId⟩

end Manifest

/-- A valid manifest keeps the configuration in `/etc`. -/
theorem LogicalDirs.validate_sysconfdir {dirs : LogicalDirs}
    (hvalid : dirs.validate = .ok ()) : dirs.sysconfdir = etc := by
  rw [LogicalDirs.validate] at hvalid
  cases heach : validateEach [("prefix", dirs.prefixDir), ("exec_prefix", dirs.execPrefix),
      ("bindir", dirs.bindir), ("datadir", dirs.datadir), ("sysconfdir", dirs.sysconfdir),
      ("docdir", dirs.docdir), ("mandir", dirs.mandir)] with
  | error error =>
      rw [heach] at hvalid
      cases hvalid
  | ok result =>
      rw [heach] at hvalid
      by_contra hother
      have hrefused : (if dirs.sysconfdir ≠ etc then
          Except.error (DirError.relocated dirs.sysconfdir) else Except.ok ()) =
            Except.ok () := hvalid
      rw [if_pos hother] at hrefused
      cases hrefused

end Xtask

end Wiiland
