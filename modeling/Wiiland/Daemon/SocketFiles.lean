/-
The public socket of the daemon's IPC server: the calls on the directory it lives in,
and how a server makes, checks and removes its socket.
-/
import Wiiland.Lib.Interference
import Wiiland.Lib.UnixPath

namespace Wiiland

namespace Daemon

namespace Socket

open Interference UnixPath

/-- A name in a directory. -/
abbrev Name := List UInt8

/-- A device number and the number of an inode on it. -/
abbrev Inode := UInt64 × UInt64

inductive ErrorKind where
  | notFound
  | permissionDenied
  | alreadyExists
  | wouldBlock
  | notADirectory
  | invalidInput
  | invalidData
  | addrInUse
  | other
deriving DecidableEq, Repr

/-- `io::Error`: what the system answered, or a message of the program, which may end
in the error that caused it. -/
inductive IoError where
  | os (errno : Nat)
  | custom (kind : ErrorKind) (message : String)
  | caused (kind : ErrorKind) (message : String) (cause : IoError)
deriving DecidableEq, Repr

def enoent : Nat := 2
def eagain : Nat := 11
def eexist : Nat := 17
def eaddrinuse : Nat := 98
def econnreset : Nat := 104
def enotconn : Nat := 107
def econnrefused : Nat := 111

def IoError.kind : IoError → ErrorKind
  | .os errno =>
      if errno = enoent then .notFound
      else if errno = eexist then .alreadyExists
      else if errno = eagain then .wouldBlock
      else if errno = eaddrinuse then .addrInUse
      else if errno = 1 ∨ errno = 13 then .permissionDenied
      else if errno = 20 then .notADirectory
      else if errno = 22 then .invalidInput
      else .other
  | .custom kind _ => kind
  | .caused kind _ _ => kind

def IoError.rawOsError : IoError → Option Nat
  | .os errno => some errno
  | _ => none

def formatMask : UInt32 := 0o170000
def directoryFormat : UInt32 := 0o040000
def regularFormat : UInt32 := 0o100000
def socketFormat : UInt32 := 0o140000

structure EntryMetadata where
  inode : Inode
  mode : UInt32
  uid : UInt32
deriving DecidableEq, Repr

def EntryMetadata.format (entry : EntryMetadata) : UInt32 := entry.mode &&& formatMask

def EntryMetadata.isSocket (entry : EntryMetadata) : Bool := entry.format = socketFormat

/-- The permission bits of a mode. -/
def EntryMetadata.permissions (entry : EntryMetadata) : UInt32 := entry.mode &&& 0o777

/-- An open descriptor, by the inode it is for. -/
structure File where
  inode : Inode
  format : UInt32
deriving DecidableEq, Repr

/-- How `openat` opens an entry of the directory. -/
inductive OpenFlags where
  | createNew
  | readWrite
  | pathOnly
deriving DecidableEq, Repr

/-- The calls of `socket.rs` and of `bind_with_hooks`.  All but `lstat`, `mkdir` and
`openDirectory` are on the pinned directory; `listen` is `UnixListener::bind`, and
every rename has `RENAME_NOREPLACE`. -/
inductive Call where
  | fetchAdd
  | fstatat (name : Name)
  | openat (name : Name) (flags : OpenFlags)
  | fstat (file : File)
  | fchmod (file : File) (permissions : UInt32)
  | flock (file : File)
  | setNonblocking
  | connect (name : Name)
  | listen (name : Name)
  | renameat2 (source target : Name)
  | unlinkat (name : Name)
  | lstat (path : Path)
  | mkdir (path : Path)
  | openDirectory (path : Path)

/-- What a call that succeeds gives. -/
@[reducible] def Reply : Call → Type
  | .fetchAdd => UInt64
  | .fstatat _ => EntryMetadata
  | .openat _ _ => File
  | .fstat _ => EntryMetadata
  | .lstat _ => EntryMetadata
  | .openDirectory _ => EntryMetadata
  | _ => Unit

abbrev Answer (call : Call) : Type := Except IoError (Reply call)

/-- Programs of the IPC server's setup and cleanup. -/
abbrev Io := ExceptT IoError (Prog Call Answer)

def perform (call : Call) : Io (Reply call) := Prog.perform call

/-- The effective user and the process id of the daemon. -/
structure Process where
  euid : UInt32
  id : Nat

/-- `if !condition { return Err(error) }`. -/
def require (condition : Bool) (error : IoError) : Io Unit :=
  if condition then pure () else throw error

/-- `CString::new` of a name. -/
def osCString (name : Name) : Io Unit :=
  require (!name.contains 0) (.custom .invalidInput "IPC path contains a NUL byte")

def socketName (path : Path) : Io Name :=
  match path.fileName with
  | some name => pure name
  | none => throw (.custom .invalidInput "IPC socket path has no file name")

def entryMetadata (name : Name) : Io EntryMetadata := do
  osCString name
  perform (.fstatat name)

def openEntry (name : Name) (flags : OpenFlags) : Io File := do
  osCString name
  perform (.openat name flags)

def fstat (file : File) : Io EntryMetadata := perform (.fstat file)

/-- `ensure_owner` and `ensure_entry_owner`. -/
def ensureOwner (process : Process) (metadata : EntryMetadata) (what : String) : Io Unit :=
  require (metadata.uid = process.euid)
    (.custom .permissionDenied (what ++ " is not owned by effective uid"))

def validatePrivateDirectory (process : Process) (metadata : EntryMetadata)
    (what : String) : Io Unit := do
  require (metadata.format = directoryFormat)
    (.custom .notADirectory (what ++ " is not a directory"))
  ensureOwner process metadata what
  require (metadata.permissions = 0o700)
    (.custom .permissionDenied (what ++ " is not mode 0700"))

/-- The path `.`. -/
def here : Path := ⟨false, [current]⟩

/-- `path.parent().filter(nonempty).unwrap_or(".")`. -/
def parentOrHere (path : Path) : Path :=
  (path.parent.filter fun parent => !parent.isEmpty).getD here

/-- `DirBuilder::create`, for which somebody else may have made the directory. -/
def createDirectory (path : Path) : Io Unit := do
  match ← attempt (perform (.mkdir path)) with
  | .ok () => pure ()
  | .error error => require (error.kind = .alreadyExists) error

def ensurePrivateParent (process : Process) (parent : Path) : Io Unit := do
  match ← attempt (perform (.lstat parent)) with
  | .ok metadata => validatePrivateDirectory process metadata "IPC socket parent"
  | .error error =>
      if error.kind = .notFound then do
        let grandparent ← perform (.lstat (parentOrHere parent))
        validatePrivateDirectory process grandparent "IPC socket grandparent"
        createDirectory parent
        let metadata ← perform (.lstat parent)
        validatePrivateDirectory process metadata "IPC socket parent"
      else throw error

/-- The pinned directory: the path it was opened by and its inode. -/
structure PinnedParent where
  publicPath : Path
  inode : Inode

def PinnedParent.open (process : Process) (publicPath : Path) : Io PinnedParent := do
  publicPath.components.forM osCString
  let metadata ← perform (.openDirectory publicPath)
  validatePrivateDirectory process metadata "IPC socket parent"
  pure ⟨publicPath, metadata.inode⟩

def PinnedParent.verifyPublicIdentity (process : Process) (parent : PinnedParent) :
    Io Unit := do
  match ← attempt (PinnedParent.open process parent.publicPath) with
  | .ok current =>
      require (current.inode = parent.inode)
        (.custom .addrInUse "IPC socket parent changed during bind")
  | .error error =>
      throw (.caused .addrInUse "IPC socket parent changed during bind: " error)

def socketLockName (name : Name) : Name := name ++ [46, 108, 111, 99, 107]

/-- The lock file, and whether it has been created for this server. -/
def openLock (lockName : Name) : Io (File × Bool) := do
  match ← attempt (openEntry lockName .createNew) with
  | .ok file => pure (file, true)
  | .error error =>
      if error.kind = .alreadyExists then do
        let file ← openEntry lockName .readWrite
        pure (file, false)
      else throw error

/-- `flock` of the lock file, without waiting. -/
def lockFile (file : File) : Io Unit := do
  match ← attempt (perform (.flock file)) with
  | .ok () => pure ()
  | .error error =>
      if error.kind = .wouldBlock then
        throw (.custom .addrInUse "IPC socket startup lock is already held")
      else throw error

def acquireSocketLock (process : Process) (name : Name) : Io File := do
  let (file, created) ← openLock (socketLockName name)
  let metadata ← fstat file
  require (metadata.format = regularFormat)
    (.custom .invalidData "IPC socket lock is not a regular file")
  ensureOwner process metadata "IPC socket lock"
  if created then perform (.fchmod file 0o600) else pure ()
  let metadata ← fstat file
  require (metadata.permissions = 0o600)
    (.custom .permissionDenied "IPC socket lock is not mode 0600")
  lockFile file
  let named ← entryMetadata (socketLockName name)
  require (named.inode = metadata.inode && named.format = regularFormat)
    (.custom .addrInUse "IPC socket lock changed during acquisition")
  pure file

/-- The digits of `{:x}`, as bytes. -/
def hex (value : Nat) : Name := (Nat.toDigits 16 value).map fun digit => digit.toNat.toUInt8

/-- The text `.wiilandd-quarantine`. -/
def quarantineStem : Name :=
  [46, 119, 105, 105, 108, 97, 110, 100, 100, 45, 113, 117, 97, 114, 97, 110, 116, 105, 110, 101]

def quarantineName (process : Process) (inode : Inode) (sequence : UInt64) : Name :=
  quarantineStem ++ 45 :: hex process.id ++ 45 :: hex inode.1.toNat ++ 45 :: hex inode.2.toNat ++
    45 :: hex sequence.toNat

/-- The tries of `capture_entry` that are left. -/
def captureTries (process : Process) (name : Name) (inode : Inode) :
    Nat → Io (Option Name)
  | 0 =>
      throw (.custom .alreadyExists
        "could not reserve a private IPC cleanup quarantine name")
  | tries + 1 => do
      let sequence ← perform .fetchAdd
      let quarantine := quarantineName process inode sequence
      osCString quarantine
      match ← attempt (perform (.renameat2 name quarantine)) with
      | .ok () => pure (some quarantine)
      | .error error =>
          if error.rawOsError = some eexist then captureTries process name inode tries
          else if error.rawOsError = some enoent then pure none
          else throw error

def captureEntry (process : Process) (name : Name) (inode : Inode) : Io (Option Name) := do
  osCString name
  captureTries process name inode 64

def restoreCapture (quarantine name : Name) : Io Unit := do
  osCString quarantine
  osCString name
  perform (.renameat2 quarantine name)

def removeExpectedEntry (process : Process) (name : Name) (inode : Inode) : Io Unit := do
  match ← captureEntry process name inode with
  | none => pure ()
  | some quarantine =>
      match ← attempt (entryMetadata quarantine) with
      | .error error => do
          let _ ← attempt (restoreCapture quarantine name)
          throw error
      | .ok captured =>
          if !captured.isSocket || captured.inode ≠ inode then
            match ← attempt (restoreCapture quarantine name) with
            | .ok () =>
                throw (.custom .addrInUse
                  "IPC socket entry changed during cleanup; replacement was restored")
            | .error error =>
                throw (.caused .addrInUse
                  ("IPC socket entry changed during cleanup; " ++
                    "replacement is preserved in quarantine: ") error)
          else do
            osCString quarantine
            match ← attempt (perform (.unlinkat quarantine)) with
            | .ok () => pure ()
            | .error error => do
                let _ ← attempt (restoreCapture quarantine name)
                throw error

def setupBoundSocket (process : Process) (name : Name) (inode : Inode) : Io Unit := do
  let socket ← openEntry name .pathOnly
  let metadata ← fstat socket
  ensureOwner process metadata "IPC socket"
  require (metadata.isSocket && metadata.inode = inode)
    (.custom .addrInUse "IPC socket path changed during setup")
  perform (.fchmod socket 0o600)
  perform .setNonblocking
  let metadata ← entryMetadata name
  require (metadata.isSocket && metadata.inode = inode && metadata.permissions = 0o600)
    (.custom .addrInUse "IPC socket path changed during setup")

def isStaleConnectError (error : IoError) : Bool :=
  error.rawOsError = some econnrefused || error.rawOsError = some enoent ||
    error.rawOsError = some econnreset || error.rawOsError = some enotconn

/-- What `bind_with_hooks` does about an entry that is already there. -/
def removeStale (process : Process) (name : Name) : Io Unit := do
  match ← attempt (entryMetadata name) with
  | .ok metadata => do
      require metadata.isSocket (.custom .alreadyExists "IPC path is not a socket")
      ensureOwner process metadata "IPC stale socket"
      match ← attempt (perform (.connect name)) with
      | .ok () => throw (.custom .addrInUse "IPC socket is already in use")
      | .error error =>
          if isStaleConnectError error then removeExpectedEntry process name metadata.inode
          else throw error
  | .error error => require (error.kind = .notFound) error

/-- `BoundSocketGuard`: a setup that fails takes the bound socket with it. -/
def guarded (process : Process) (name : Name) (inode : Inode) (setup : Io Unit) :
    Io Unit := do
  match ← attempt setup with
  | .ok () => pure ()
  | .error error => do
      let _ ← attempt (removeExpectedEntry process name inode)
      throw error

/-- What an `IpcServer` keeps of its socket. -/
structure BoundServer where
  path : Path
  parent : PinnedParent
  lock : File
  inode : Inode

def bind (process : Process) (path : Path) : Io BoundServer := do
  let name ← socketName path
  let parentPath := parentOrHere path
  ensurePrivateParent process parentPath
  let parent ← PinnedParent.open process parentPath
  let lock ← acquireSocketLock process name
  removeStale process name
  perform (.listen name)
  let metadata ← entryMetadata name
  require metadata.isSocket (.custom .addrInUse "IPC socket path changed during bind")
  guarded process name metadata.inode (do
    setupBoundSocket process name metadata.inode
    parent.verifyPublicIdentity process)
  pure ⟨path, parent, lock, metadata.inode⟩

/-- Dropping a server removes its socket. -/
def drop (process : Process) (server : BoundServer) : Io Unit :=
  match server.path.fileName with
  | some name => do
      let _ ← attempt (removeExpectedEntry process name server.inode)
      pure ()
  | none => pure ()

end Socket

end Daemon

end Wiiland
