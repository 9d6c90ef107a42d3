/-
The directory that the daemon's socket shares with other processes: what they may do
to it, what the system answers to the daemon's calls, and what a log of such calls shows.
-/
import Mathlib.Logic.Function.Basic
import Wiiland.Daemon.SocketFiles

namespace Wiiland

namespace Daemon

namespace Socket

open Interference

/-- The pinned directory as everybody sees it, and the daemon's `QUARANTINE_SEQUENCE`. -/
structure State where
  entries : Name → Option EntryMetadata
  sequence : UInt64

def State.put (state : State) (name : Name) (held : Option EntryMetadata) : State :=
  { state with entries := Function.update state.entries name held }

/-- No entry but the one of this name has the inode. -/
def State.Spare (state : State) (name : Name) (inode : Inode) : Prop :=
  ∀ other entry, other ≠ name → state.entries other = some entry → entry.inode ≠ inode

/-- An action of another process: it creates, replaces or removes the entry of the
public name.  No two entries have one inode. -/
def Others (name : Name) (state after : State) : Prop :=
  ∃ held, (∀ entry, held = some entry → state.Spare name entry.inode) ∧
    after = state.put name held

/-- A call that fails for a reason other than what is in the directory. -/
def Faulty {α : Type} (answer : Except IoError α) : Prop :=
  ∃ errno, answer = .error (.os errno) ∧ errno ≠ enoent ∧ errno ≠ eexist

def State.lookup (state : State) (name : Name) : Except IoError EntryMetadata :=
  match state.entries name with
  | some entry => .ok entry
  | none => .error (.os enoent)

def State.rename (state : State) (source target : Name) : Except IoError Unit × State :=
  match state.entries source, state.entries target with
  | none, _ => (.error (.os enoent), state)
  | some _, some _ => (.error (.os eexist), state)
  | some entry, none => (.ok (), (state.put source none).put target (some entry))

def State.unlink (state : State) (name : Name) : Except IoError Unit × State :=
  match state.entries name with
  | none => (.error (.os enoent), state)
  | some _ => (.ok (), state.put name none)

def EntryMetadata.withPermissions (entry : EntryMetadata) (permissions : UInt32) :
    EntryMetadata :=
  { entry with mode := entry.format ||| permissions }

def State.chmod (state : State) (inode : Inode) (permissions : UInt32) : State :=
  { state with
    entries := fun name => (state.entries name).map fun entry =>
      if entry.inode = inode then entry.withPermissions permissions else entry }

/-- A new entry of the daemon's own. -/
structure Fresh (process : Process) (state : State) (name : Name) (format : UInt32)
    (entry : EntryMetadata) : Prop where
  absent : state.entries name = none
  spare : state.Spare name entry.inode
  format : entry.format = format
  owner : entry.uid = process.euid

/-- What the system answers.  A call may fail at any time; a socket that does not
listen, and many others, refuse a connection; `UnixListener::bind` fails after it has made
the entry when `listen` does. -/
def answers (process : Process) (state : State) :
    (call : Call) → Answer call → State → Prop
  | .fetchAdd, answer, after =>
      answer = .ok state.sequence ∧ after = { state with sequence := state.sequence + 1 }
  | .fstatat name, answer, after =>
      after = state ∧ (answer = state.lookup name ∨ Faulty answer)
  | .openat name .createNew, answer, after =>
      (state.entries name ≠ none ∧ answer = .error (.os eexist) ∧ after = state) ∨
      (∃ entry, Fresh process state name regularFormat entry ∧
        answer = .ok ⟨entry.inode, entry.format⟩ ∧ after = state.put name (some entry)) ∨
      (Faulty answer ∧ after = state)
  | .openat name _, answer, after =>
      after = state ∧
        (answer = (state.lookup name).map (fun entry => ⟨entry.inode, entry.format⟩) ∨
          Faulty answer)
  | .fstat file, answer, after =>
      after = state ∧
        ((∃ entry, answer = .ok entry ∧ entry.inode = file.inode ∧ entry.format = file.format) ∨
          Faulty answer)
  | .fchmod file permissions, answer, after =>
      (answer = .ok () ∧ after = state.chmod file.inode permissions) ∨
        (Faulty answer ∧ after = state)
  | .connect name, answer, after =>
      after = state ∧
        ((state.entries name ≠ none ∧ answer = .ok ()) ∨ ∃ errno, answer = .error (.os errno))
  | .listen name, answer, after =>
      (state.entries name ≠ none ∧ answer = .error (.os eaddrinuse) ∧ after = state) ∨
      (∃ entry, Fresh process state name socketFormat entry ∧
        (answer = .ok () ∨ Faulty answer) ∧ after = state.put name (some entry)) ∨
      (Faulty answer ∧ after = state)
  | .renameat2 source target, answer, after =>
      (answer, after) = state.rename source target ∨ (Faulty answer ∧ after = state)
  | .unlinkat name, answer, after =>
      (answer, after) = state.unlink name ∨ (Faulty answer ∧ after = state)
  | _, _, after => after = state

/-- The system that the daemon shares with other processes. -/
def shared (process : Process) (name : Name) : System Call Answer State where
  others := Others name
  answers := answers process

/-- A call that was made, with its answer. -/
abbrev Step := Event Call Answer State

/-- The entry that a call unlinked, with its name. -/
def unlinked : Step → Option (Name × EntryMetadata)
  | ⟨before, .unlinkat name, .ok (), _⟩ => (before.entries name).map (name, ·)
  | _ => none

/-- The entry that a call renamed, with its old and its new name. -/
def renamed : Step → Option (Name × Name × EntryMetadata)
  | ⟨before, .renameat2 source target, .ok (), _⟩ =>
      (before.entries source).map (source, target, ·)
  | _ => none

/-- The socket that a call created, with its name. -/
def created : Step → Option (Name × EntryMetadata)
  | ⟨_, .listen name, .ok (), after⟩ => (after.entries name).map (name, ·)
  | _ => none

/-- The metadata that a call read at a name. -/
def observed : Step → Option (Name × EntryMetadata)
  | ⟨_, .fstatat name, .ok entry, _⟩ => some (name, entry)
  | _ => none

/-- The entry that a connection met and that is stale by its error, with its name. -/
def foundStale : Step → Option (Name × Option EntryMetadata)
  | ⟨before, .connect name, .error error, _⟩ =>
      if isStaleConnectError error then some (name, before.entries name) else none
  | _ => none

/-- A renaming that found the new name taken, or that failed. -/
def NotRenamed (source target : Name) (event : Step) : Prop :=
  ∃ state errno after, event = ⟨state, .renameat2 source target, .error (.os errno), after⟩ ∧
    (errno = eexist ∧ state.entries target ≠ none ∨ errno ≠ enoent ∧ errno ≠ eexist)

/-- A call that leaves every entry where it is. -/
def Quiet (event : Step) : Prop :=
  unlinked event = none ∧ renamed event = none ∧ event.after.entries = event.before.entries

/-- A call that loses no entry, wherever it puts it. -/
def Keeps (event : Step) : Prop :=
  ∀ place held, event.before.entries place = some held →
    ∃ kept, event.after.entries kept = some held

theorem Quiet.keeps {event : Step} (hquiet : Quiet event) : Keeps event :=
  fun place _ hheld => ⟨place, by rw [hquiet.2.2, hheld]⟩

section frame

variable {process : Process} {name : Name} {state after : State}

@[simp] theorem put_self (held : Option EntryMetadata) :
    (state.put name held).entries name = held :=
  Function.update_self ..

@[simp] theorem put_other {other : Name} (hother : other ≠ name)
    (held : Option EntryMetadata) :
    (state.put name held).entries other = state.entries other :=
  Function.update_of_ne hother ..

/-- Other processes do not touch the other names. -/
theorem others_entries (hothers : Relation.ReflTransGen (Others name) state after)
    {other : Name} (hother : other ≠ name) : after.entries other = state.entries other := by
  induction hothers with
  | refl => rfl
  | tail _ hlast ih =>
      obtain ⟨held, _, rfl⟩ := hlast
      rw [put_other hother, ih]

/-- What a renaming that does not replace anything can do. -/
theorem rename_cases (source target : Name) :
    (state.entries source = none ∧
      state.rename source target = (.error (.os enoent), state)) ∨
    (∃ entry, state.entries source = some entry ∧ state.entries target ≠ none ∧
      state.rename source target = (.error (.os eexist), state)) ∨
    ∃ entry, state.entries source = some entry ∧ state.entries target = none ∧
      source ≠ target ∧ state.rename source target =
        (.ok (), (state.put source none).put target (some entry)) := by
  cases hsource : state.entries source with
  | none => exact .inl ⟨rfl, by simp only [State.rename, hsource]⟩
  | some entry =>
      cases htarget : state.entries target with
      | some taken =>
          exact .inr (.inl ⟨entry, rfl, Option.some_ne_none _,
            by simp only [State.rename, hsource, htarget]⟩)
      | none =>
          refine .inr (.inr ⟨entry, rfl, rfl, ?_, by simp only [State.rename, hsource, htarget]⟩)
          rintro rfl
          rw [hsource] at htarget
          exact Option.some_ne_none _ htarget

/-- A renaming loses no entry. -/
theorem rename_keeps {source target : Name} {entry : EntryMetadata}
    (hsource : state.entries source = some entry) (htarget : state.entries target = none)
    {place : Name} {held : EntryMetadata} (hheld : state.entries place = some held) :
    ∃ kept, ((state.put source none).put target (some entry)).entries kept = some held := by
  by_cases hplace : place = source
  · subst hplace
    rw [hsource] at hheld
    exact ⟨target, by rw [put_self, hheld]⟩
  · have hother : place ≠ target := by
      rintro rfl
      rw [htarget] at hheld
      exact Option.some_ne_none _ hheld.symm
    exact ⟨place, by rw [put_other hother, put_other hplace, hheld]⟩

end frame

end Socket

end Daemon

end Wiiland
