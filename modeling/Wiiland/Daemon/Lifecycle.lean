/-
The life cycle of the devices as the published notifications tell it.  The reactor is
compared with a small machine whose moves are: an input, an arrival, a departure, and
deeds that publish nothing.
-/
import Mathlib.Logic.Relation
import Wiiland.Daemon.Runtime
import Wiiland.Lib.Turns

namespace Wiiland

namespace Ipc.Notification

/-- The text of the path that a notification is about. -/
def syspath : Notification → Option String
  | .deviceAdded _ info => some info.syspath
  | .deviceRemoved _ syspath _ => some syspath
  | .input _ syspath _ _ => some syspath
  | .unsupported => none

def sequence : Notification → Option UInt64
  | .deviceAdded sequence _ => some sequence
  | .deviceRemoved sequence _ _ => some sequence
  | .input sequence _ _ _ => some sequence
  | .unsupported => none

def isInput : Notification → Bool
  | .input .. => true
  | _ => false

end Ipc.Notification

namespace Daemon

open Hid Ipc
open Turns (Alternates Here)

theorem PathBuf.same_iff {first second : PathBuf} :
    first.same second = true ↔ first.components = second.components :=
  decide_eq_true_iff

/-- The coming or going that a deed publishes for the path with these components. -/
def Deed.turn (key : UnixPath.Path) : Deed → Option Bool
  | .published path (.deviceAdded _ _) => if path.components = key then some true else none
  | .published path (.deviceRemoved _ _ _) =>
      if path.components = key then some false else none
  | _ => none

/-- The comings and goings published for a path. -/
def turns (key : UnixPath.Path) (deeds : List Deed) : List Bool :=
  deeds.filterMap (Deed.turn key)

theorem turns_append (key : UnixPath.Path) (first second : List Deed) :
    turns key (first ++ second) = turns key first ++ turns key second :=
  List.filterMap_append ..

theorem turns_append_singleton (key : UnixPath.Path) (deeds : List Deed) (deed : Deed) :
    turns key (deeds ++ [deed]) = turns key deeds ++ (deed.turn key).toList := by
  rw [turns_append]
  unfold turns
  rw [List.filterMap_cons]
  cases deed.turn key <;> rfl

def Deed.sequence : Deed → Option UInt64
  | .published _ notification => notification.sequence
  | _ => none

/-- The sequence numbers of the published notifications, in publish order. -/
def sequences (deeds : List Deed) : List UInt64 := deeds.filterMap Deed.sequence

/-- The number that is drawn after so many others. -/
def sequenceAt : Nat → UInt64
  | 0 => 0
  | n + 1 => nextSequence (sequenceAt n)

theorem sequenceAt_toNat (n : Nat) :
    (sequenceAt (n + 1)).toNat = n % 0xffffffffffffffff + 1 := by
  induction n with
  | zero => rfl
  | succ n ih =>
      rw [sequenceAt, nextSequence]
      have hadd : (sequenceAt (n + 1) + 1).toNat =
          (n % 0xffffffffffffffff + 2) % 0x10000000000000000 := by
        rw [UInt64.toNat_add, ih]
        rfl
      split
      · next hzero =>
        rw [hzero] at hadd
        change 0 = _ at hadd
        change 1 = _
        omega
      · next hzero =>
        have hpos : (sequenceAt (n + 1) + 1).toNat ≠ 0 := fun h =>
          hzero (UInt64.toNat_inj.mp h)
        rw [hadd] at hpos ⊢
        omega

/-- What can be followed of the reactor's devices. -/
structure View where
  paths : List (Option PathBuf)
  sequence : UInt64
  deeds : List Deed

namespace View

/-- A slot holds a device with this path. -/
def Active (view : View) (key : UnixPath.Path) : Prop :=
  ∃ path, some path ∈ view.paths ∧ path.components = key

def note (view : View) (deed : Deed) : View := { view with deeds := view.deeds ++ [deed] }

/-- Publish a notification under the next number. -/
def publish (view : View) (path : PathBuf) (numbered : UInt64 → Notification) : View :=
  let sequence := nextSequence view.sequence
  note { view with sequence } (.published path (numbered sequence))

/-- The moves of the machine. -/
inductive Move : View → View → Prop
  | note {view : View} (deed : Deed) (hsilent : ∀ path notification,
      deed ≠ .published path notification) : Move view (view.note deed)
  | input {view : View} (path : PathBuf) (time : Ipc.Timestamp) (payload : InputPayload)
      (hactive : some path ∈ view.paths) :
      Move view (view.publish path fun number =>
        .input number path.toStringLossy time payload)
  | arrive {view : View} (slot : Nat) (path : PathBuf) (info : DeviceInfo)
      (hfree : view.paths[slot]? = some none) (hnew : ¬view.Active path.components)
      (hinfo : info.syspath = path.toStringLossy) :
      Move view (publish { view with paths := view.paths.set slot (some path) } path
        fun number => .deviceAdded number info)
  | depart {view : View} (slot : Nat) (path : PathBuf) (reason : RemovalReason)
      (hslot : view.paths[slot]? = some (some path)) :
      Move view (publish { view with paths := view.paths.set slot none } path
        fun number => .deviceRemoved number path.toStringLossy reason)

abbrev Moves : View → View → Prop := Relation.ReflTransGen Move

/-- What the notifications say of the devices is true of the slots. -/
structure Tracked (view : View) : Prop where
  alternates : ∀ key, Alternates (turns key view.deeds)
  here : ∀ key, Here (turns key view.deeds) ↔ view.Active key
  distinct : ∀ (i j : Nat) (path other : PathBuf), view.paths[i]? = some (some path) →
    view.paths[j]? = some (some other) → path.components = other.components → i = j
  inputs : ∀ before path notification after,
    view.deeds = before ++ .published path notification :: after →
      notification.isInput = true → Here (turns path.components before)
  named : ∀ path notification, .published path notification ∈ view.deeds →
    notification.syspath = some path.toStringLossy
  numbered : sequences view.deeds =
    (List.range (sequences view.deeds).length).map fun n => sequenceAt (n + 1)
  next : view.sequence = sequenceAt (sequences view.deeds).length

variable {view : View}

theorem split_snoc {deeds before after : List Deed} {last deed : Deed}
    (hsplit : deeds ++ [last] = before ++ deed :: after) :
    (∃ rest, deeds = before ++ deed :: rest ∧ after = rest ++ [last]) ∨
      before = deeds ∧ deed = last := by
  rcases List.eq_nil_or_concat after with rfl | ⟨rest, final, rfl⟩
  · obtain ⟨hdeeds, hlast⟩ := List.append_inj' hsplit rfl
    exact Or.inr ⟨hdeeds.symm, (List.cons.inj hlast).1.symm⟩
  · rw [List.concat_eq_append] at *
    rw [← List.cons_append, ← List.append_assoc] at hsplit
    obtain ⟨hdeeds, hlast⟩ := List.append_inj' hsplit rfl
    exact Or.inl ⟨rest, hdeeds, by rw [(List.cons.inj hlast).1]⟩

theorem sequences_append_singleton (deeds : List Deed) (deed : Deed) :
    sequences (deeds ++ [deed]) = sequences deeds ++ deed.sequence.toList := by
  unfold sequences
  rw [List.filterMap_append, List.filterMap_cons]
  cases deed.sequence <;> rfl

theorem Tracked.note (htracked : Tracked view) {deed : Deed}
    (hsilent : ∀ path notification, deed ≠ .published path notification) :
    Tracked (view.note deed) := by
  have hturn : ∀ key, deed.turn key = none := fun key => by
    cases deed with
    | published path notification => exact absurd rfl (hsilent path notification)
    | _ => rfl
  have hsequence : deed.sequence = none := by
    cases deed with
    | published path notification => exact absurd rfl (hsilent path notification)
    | _ => rfl
  have hturns : ∀ key, turns key (view.note deed).deeds = turns key view.deeds := fun key => by
    rw [View.note, turns_append_singleton, hturn key]
    exact List.append_nil _
  have hsequences : sequences (view.note deed).deeds = sequences view.deeds := by
    rw [View.note, sequences_append_singleton, hsequence]
    exact List.append_nil _
  refine ⟨fun key => ?_, fun key => ?_, htracked.distinct, ?_, ?_, ?_, ?_⟩
  · rw [hturns]
    exact htracked.alternates key
  · rw [hturns]
    exact htracked.here key
  · intro before path notification after hsplit hinput
    rcases split_snoc hsplit with ⟨rest, hdeeds, _⟩ | ⟨_, hlast⟩
    · exact htracked.inputs before path notification rest hdeeds hinput
    · exact absurd hlast.symm (hsilent path notification)
  · intro path notification hmem
    rcases List.mem_append.mp hmem with hmem | hmem
    · exact htracked.named path notification hmem
    · exact absurd (List.mem_singleton.mp hmem).symm (hsilent path notification)
  · rw [hsequences]
    exact htracked.numbered
  · rw [hsequences]
    exact htracked.next

/-- Publishing keeps the account when the turn it tells of is the turn that was made. -/
theorem Tracked.publish (htracked : Tracked view) {paths : List (Option PathBuf)}
    {path : PathBuf} {numbered : UInt64 → Notification}
    (hsequence : ∀ number, (numbered number).sequence = some number)
    (hnamed : ∀ number, (numbered number).syspath = some path.toStringLossy)
    (hinput : ∀ number, (numbered number).isInput = true → view.Active path.components)
    (hturn : ∀ number key turn, Deed.turn key (.published path (numbered number)) = some turn →
      (turn = true ↔ ¬view.Active key) ∧ (turn = true ↔ Active { view with paths } key))
    (hstill : ∀ number key, Deed.turn key (.published path (numbered number)) = none →
      (Active { view with paths } key ↔ view.Active key))
    (hdistinct : ∀ (i j : Nat) (path other : PathBuf), paths[i]? = some (some path) →
      paths[j]? = some (some other) → path.components = other.components → i = j) :
    Tracked (publish { view with paths } path numbered) := by
  have hnext := hsequence (nextSequence view.sequence)
  refine ⟨fun key => ?_, fun key => ?_, hdistinct, ?_, ?_, ?_, ?_⟩
  · rw [View.publish, View.note, turns_append_singleton]
    cases hsome : Deed.turn key (.published path (numbered (nextSequence view.sequence))) with
    | none =>
        rw [Option.toList_none, List.append_nil]
        exact htracked.alternates key
    | some turn =>
        apply (htracked.alternates key).append
        rw [htracked.here key]
        exact (hturn _ key turn hsome).1
  · rw [View.publish, View.note, turns_append_singleton]
    cases hsome : Deed.turn key (.published path (numbered (nextSequence view.sequence))) with
    | none =>
        rw [Option.toList_none, List.append_nil]
        exact (htracked.here key).trans (hstill _ key hsome).symm
    | some turn =>
        rw [Option.toList_some, Turns.here_append_singleton]
        exact (hturn _ key turn hsome).2
  · intro before other notification after hsplit his
    rcases split_snoc hsplit with ⟨rest, hdeeds, _⟩ | ⟨hbefore, hlast⟩
    · exact htracked.inputs before other notification rest hdeeds his
    · obtain ⟨rfl, rfl⟩ := Deed.published.inj hlast
      rw [hbefore]
      exact (htracked.here _).mpr (hinput _ his)
  · intro other notification hmem
    rcases List.mem_append.mp hmem with hmem | hmem
    · exact htracked.named other notification hmem
    · obtain ⟨rfl, rfl⟩ := Deed.published.inj (List.mem_singleton.mp hmem)
      exact hnamed _
  · rw [View.publish, View.note, sequences_append_singleton, Deed.sequence, hnext,
      Option.toList_some, List.length_append, List.length_singleton, List.range_succ,
      List.map_append, ← htracked.numbered]
    rw [List.map_singleton, sequenceAt, ← htracked.next]
  · rw [View.publish, View.note, sequences_append_singleton, Deed.sequence, hnext,
      Option.toList_some, List.length_append, List.length_singleton]
    exact congrArg nextSequence htracked.next

theorem active_set {paths : List (Option PathBuf)} {sequence : UInt64} {deeds : List Deed}
    {slot : Nat} {old new : Option PathBuf} (hslot : paths[slot]? = some old)
    (key : UnixPath.Path) :
    Active ⟨paths.set slot new, sequence, deeds⟩ key ↔
      new.any (fun path => path.components = key) = true ∨
        ∃ (other : Nat) (path : PathBuf), other ≠ slot ∧ paths[other]? = some (some path) ∧
          path.components = key := by
  have hlt : slot < paths.length := (List.getElem?_eq_some_iff.mp hslot).1
  constructor
  · rintro ⟨path, hmem, hkey⟩
    obtain ⟨other, hother⟩ := List.mem_iff_getElem?.mp hmem
    by_cases hsame : slot = other
    · subst hsame
      rw [List.getElem?_set_self hlt] at hother
      rw [Option.some.inj hother]
      exact Or.inl (decide_eq_true_iff.mpr hkey)
    · rw [List.getElem?_set_ne hsame] at hother
      exact Or.inr ⟨other, path, fun h => hsame h.symm, hother, hkey⟩
  · rintro (hnew | ⟨other, path, hne, hother, hkey⟩)
    · cases new with
      | none => cases hnew
      | some path =>
          exact ⟨path, List.mem_iff_getElem?.mpr ⟨slot, List.getElem?_set_self hlt⟩,
            decide_eq_true_iff.mp hnew⟩
    · refine ⟨path, List.mem_iff_getElem?.mpr ⟨other, ?_⟩, hkey⟩
      rw [List.getElem?_set_ne hne.symm, hother]

theorem active_iff {view : View} {key : UnixPath.Path} :
    view.Active key ↔ ∃ (slot : Nat) (path : PathBuf),
      view.paths[slot]? = some (some path) ∧ path.components = key := by
  constructor
  · rintro ⟨path, hmem, hkey⟩
    obtain ⟨slot, hslot⟩ := List.mem_iff_getElem?.mp hmem
    exact ⟨slot, path, hslot, hkey⟩
  · rintro ⟨slot, path, hslot, hkey⟩
    exact ⟨path, List.mem_of_getElem? hslot, hkey⟩

theorem Tracked.move (htracked : Tracked view) {next : View} (hmove : Move view next) :
    Tracked next := by
  cases hmove with
  | note deed hsilent => exact htracked.note hsilent
  | input path time payload hactive =>
      refine htracked.publish (fun _ => rfl) (fun _ => rfl) (fun _ _ => ⟨path, hactive, rfl⟩)
        ?_ (fun _ _ _ => Iff.rfl) htracked.distinct
      intro number key turn hturn
      cases hturn
  | arrive slot path info hfree hnew hinfo =>
      have hactive := @active_set view.paths view.sequence view.deeds slot none (some path) hfree
      refine htracked.publish (fun _ => rfl) (fun _ => congrArg some hinfo)
        (fun _ hinput => Bool.noConfusion hinput) ?_ ?_ ?_
      · intro number key turn hturn
        rw [Deed.turn, Option.ite_none_right_eq_some] at hturn
        obtain ⟨rfl, hturn⟩ := hturn
        obtain rfl := Option.some.inj hturn
        refine ⟨iff_of_true rfl hnew, iff_of_true rfl ((hactive _).mpr (Or.inl ?_))⟩
        rw [Option.any_some, decide_eq_true_iff]
      · intro number key hnone
        rw [Deed.turn, ite_eq_right_iff] at hnone
        have hother : path.components ≠ key := fun hkey => by cases hnone hkey
        rw [hactive key, active_iff, Option.any_some, decide_eq_true_iff, or_iff_right hother]
        constructor
        · rintro ⟨other, found, _, hfound⟩
          exact ⟨other, found, hfound⟩
        · rintro ⟨other, found, hslot, hkey⟩
          refine ⟨other, found, ?_, hslot, hkey⟩
          rintro rfl
          rw [hfree] at hslot
          cases hslot
      · intro i j first second hi hj hsame
        rw [List.getElem?_set] at hi hj
        split at hi
        · next hslot =>
          subst hslot
          split at hj
          · next heq => exact heq
          · next hne =>
            split at hi
            · obtain rfl := Option.some.inj (Option.some.inj hi)
              exact absurd (active_iff.mpr ⟨j, second, hj, hsame.symm⟩) hnew
            · cases hi
        · split at hj
          · next hslot =>
            subst hslot
            split at hj
            · obtain rfl := Option.some.inj (Option.some.inj hj)
              exact absurd (active_iff.mpr ⟨i, first, hi, hsame⟩) hnew
            · cases hj
          · exact htracked.distinct i j first second hi hj hsame
  | depart slot path reason hslot =>
      have hactive := @active_set view.paths view.sequence view.deeds slot (some path) none hslot
      have hkept : ∀ {i : Nat} {first : PathBuf},
          (view.paths.set slot none)[i]? = some (some first) →
            view.paths[i]? = some (some first) := by
        intro i first hi
        rw [List.getElem?_set] at hi
        split at hi
        · split at hi <;> cases hi
        · exact hi
      refine htracked.publish (fun _ => rfl) (fun _ => rfl)
        (fun _ hinput => Bool.noConfusion hinput) ?_ ?_
        (fun i j first second hi hj => htracked.distinct i j first second (hkept hi) (hkept hj))
      · intro number key turn hturn
        rw [Deed.turn, Option.ite_none_right_eq_some] at hturn
        obtain ⟨rfl, hturn⟩ := hturn
        obtain rfl := Option.some.inj hturn
        refine ⟨iff_of_false Bool.false_ne_true
          (not_not.mpr (active_iff.mpr ⟨slot, path, hslot, rfl⟩)),
          iff_of_false Bool.false_ne_true ?_⟩
        rw [hactive]
        rintro (hnone | ⟨other, found, hne, hother, hsame⟩)
        · cases hnone
        · exact hne (htracked.distinct other slot found path hother hslot hsame)
      · intro number key hnone
        rw [Deed.turn, ite_eq_right_iff] at hnone
        have hother : path.components ≠ key := fun hkey => by cases hnone hkey
        rw [hactive key, active_iff]
        constructor
        · rintro (hempty | ⟨other, found, _, hfound⟩)
          · cases hempty
          · exact ⟨other, found, hfound⟩
        · rintro ⟨other, found, hfound, hkey⟩
          refine Or.inr ⟨other, found, ?_, hfound, hkey⟩
          rintro rfl
          rw [hslot] at hfound
          obtain rfl := Option.some.inj (Option.some.inj hfound)
          exact hother hkey

theorem Tracked.moves (htracked : Tracked view) {next : View} (hmoves : Moves view next) :
    Tracked next := by
  induction hmoves with
  | refl => exact htracked
  | tail _ hmove ih => exact ih.move hmove

end View

end Daemon

end Wiiland
