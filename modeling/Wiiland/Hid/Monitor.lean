/-
The device monitor's merge of the initial enumeration with live events.  Each
initial path is remembered until an event of the path arrives; an add that only
repeats the enumeration is held back.
-/
import Wiiland.Lib.StreamFilter
import Mathlib.Data.Finset.Basic

namespace Wiiland

namespace Hid

namespace Monitor

/-- The bytes of a path or of an action. -/
abbrev Bytes := List UInt8

/-- `b"add"`. -/
def actionAdd : Bytes := [97, 100, 100]

/-- `b"remove"`. -/
def actionRemove : Bytes := [114, 101, 109, 111, 118, 101]

/-- Unlink the first entry of the path; an unlinked add is a duplicate. -/
def unlink (action path : Bytes) : List Bytes → Bool × List Bytes
  | [] => (false, [])
  | item :: next =>
      if item = path then (action == actionAdd, next)
      else ((unlink action path next).1, item :: (unlink action path next).2)

def deduplicateInitial (initial : List Bytes) (action path : Bytes) :
    Bool × List Bytes :=
  if action ≠ actionAdd ∧ action ≠ actionRemove then (false, initial)
  else unlink action path initial

/-- The list that watching starts with: the enumerated names, the last one first
and those without a name left out. -/
def initialOf (names : List (Option Bytes)) : List Bytes :=
  names.foldl (fun next name => match name with
    | some path => path :: next
    | none => next) []

/-- What an event of the monitor says of its device. -/
structure UdevDevice where
  action : Option Bytes
  syspath : Option Bytes
deriving DecidableEq, Repr

def deduplicate (initial : List Bytes) (d : UdevDevice) : Bool × List Bytes :=
  match d.action with
  | none => (false, initial)
  | some action =>
      if action ≠ actionAdd ∧ action ≠ actionRemove then (false, initial)
      else match d.syspath with
        | none => (false, initial)
        | some path => deduplicateInitial initial action path

/-- An event with its action and its path. -/
structure MonitorEvent where
  action : Bytes
  path : Bytes
deriving DecidableEq, Repr

/-- An event that plugs or unplugs its device. -/
def MonitorEvent.Plugs (event : MonitorEvent) : Prop :=
  event.action = actionAdd ∨ event.action = actionRemove

instance (event : MonitorEvent) : Decidable event.Plugs :=
  inferInstanceAs (Decidable (_ ∨ _))

def UdevDevice.event (d : UdevDevice) : Option MonitorEvent :=
  d.action.bind fun action => d.syspath.map fun path => ⟨action, path⟩

/-- The filter that the initial list makes over the events. -/
def duplicates (initial : List Bytes) (event : MonitorEvent) : Bool × List Bytes :=
  deduplicateInitial initial event.action event.path

/-- The devices that are present after one more event. -/
def present (devices : Finset Bytes) (event : MonitorEvent) : Finset Bytes :=
  if event.action = actionAdd then insert event.path devices
  else if event.action = actionRemove then devices.erase event.path
  else devices

theorem unlink_list (action path : Bytes) (initial : List Bytes) :
    (unlink action path initial).2 = initial.erase path := by
  induction initial with
  | nil => rfl
  | cons item next ih =>
      rw [unlink, List.erase_cons]
      by_cases hitem : item = path
      · simp [hitem]
      · simp [hitem, ih]

theorem unlink_duplicate (action path : Bytes) (initial : List Bytes) :
    (unlink action path initial).1 = true ↔ action = actionAdd ∧ path ∈ initial := by
  induction initial with
  | nil => simp [unlink]
  | cons item next ih =>
      rw [unlink]
      by_cases hitem : item = path
      · simp [hitem]
      · have hother : path ≠ item := fun heq => hitem heq.symm
        simp [hitem, hother, ih]

theorem duplicates_eq (initial : List Bytes) (event : MonitorEvent) :
    duplicates initial event =
      if event.Plugs then unlink event.action event.path initial
      else (false, initial) := by
  rw [duplicates, deduplicateInitial]
  by_cases hplugs : event.Plugs
  · rw [if_pos hplugs]
    exact if_neg fun hother => hplugs.elim hother.1 hother.2
  · rw [if_neg hplugs]
    exact if_pos (not_or.mp hplugs)

theorem duplicates_list (initial : List Bytes) (event : MonitorEvent) :
    (duplicates initial event).2 =
      if event.Plugs then initial.erase event.path else initial := by
  rw [duplicates_eq]
  by_cases hplugs : event.Plugs
  · rw [if_pos hplugs, if_pos hplugs, unlink_list]
  · rw [if_neg hplugs, if_neg hplugs]

theorem duplicates_iff (initial : List Bytes) (event : MonitorEvent) :
    (duplicates initial event).1 = true ↔
      event.action = actionAdd ∧ event.path ∈ initial := by
  rw [duplicates_eq]
  by_cases hplugs : event.Plugs
  · rw [if_pos hplugs, unlink_duplicate]
  · have hadd : event.action ≠ actionAdd := fun heq => hplugs (Or.inl heq)
    rw [if_neg hplugs]
    simp [hadd]

/-- One call leaves the list alone or takes one entry of the event's path out. -/
theorem duplicates_removes (initial : List Bytes) (event : MonitorEvent) :
    (duplicates initial event).2 = initial ∨
      ∃ before rest, initial = before ++ event.path :: rest ∧
        (duplicates initial event).2 = before ++ rest := by
  rw [duplicates_list]
  by_cases hplugs : event.Plugs
  · rw [if_pos hplugs]
    by_cases hmem : event.path ∈ initial
    · obtain ⟨before, rest, _, hlist, herase⟩ := List.exists_erase_eq hmem
      exact Or.inr ⟨before, rest, hlist, herase⟩
    · exact Or.inl (List.erase_of_not_mem hmem)
  · exact Or.inl (if_neg hplugs)

theorem nodup_duplicates {initial : List Bytes} (hnodup : initial.Nodup)
    (event : MonitorEvent) : (duplicates initial event).2.Nodup := by
  rw [duplicates_list]
  by_cases hplugs : event.Plugs
  · rw [if_pos hplugs]
    exact hnodup.erase event.path
  · rw [if_neg hplugs]
    exact hnodup

/-- An initial path is still listed until an add or a remove of it arrives. -/
theorem mem_after {initial : List Bytes} (hnodup : initial.Nodup) (path : Bytes)
    (events : List MonitorEvent) :
    path ∈ StreamFilter.after duplicates initial events ↔
      path ∈ initial ∧ ∀ event ∈ events, event.Plugs → event.path ≠ path := by
  induction events generalizing initial with
  | nil => simp
  | cons event rest ih =>
      rw [StreamFilter.after_cons, ih (nodup_duplicates hnodup event), duplicates_list,
        List.forall_mem_cons]
      by_cases hplugs : event.Plugs
      · rw [if_pos hplugs, hnodup.mem_erase_iff]
        constructor
        · rintro ⟨⟨hne, hmem⟩, hrest⟩
          exact ⟨hmem, fun _ => hne.symm, hrest⟩
        · rintro ⟨hmem, hne, hrest⟩
          exact ⟨⟨(hne hplugs).symm, hmem⟩, hrest⟩
      · rw [if_neg hplugs]
        constructor
        · rintro ⟨hmem, hrest⟩
          exact ⟨hmem, fun h => absurd h hplugs, hrest⟩
        · rintro ⟨hmem, _, hrest⟩
          exact ⟨hmem, hrest⟩

/-- What is still listed is distinct and present. -/
def Listed (devices : Finset Bytes) (initial : List Bytes) : Prop :=
  initial.Nodup ∧ ∀ path ∈ initial, path ∈ devices

theorem listed_step {devices : Finset Bytes} {initial : List Bytes}
    (hlisted : Listed devices initial) (event : MonitorEvent) :
    Listed (present devices event) (duplicates initial event).2 := by
  refine ⟨nodup_duplicates hlisted.1 event, fun path hpath => ?_⟩
  rw [duplicates_list] at hpath
  rw [present]
  by_cases hadd : event.action = actionAdd
  · have hplugs : event.Plugs := Or.inl hadd
    rw [if_pos hplugs] at hpath
    rw [if_pos hadd]
    exact Finset.mem_insert_of_mem (hlisted.2 path (List.mem_of_mem_erase hpath))
  · rw [if_neg hadd]
    by_cases hremove : event.action = actionRemove
    · have hplugs : event.Plugs := Or.inr hremove
      rw [if_pos hplugs, hlisted.1.mem_erase_iff] at hpath
      rw [if_pos hremove]
      exact Finset.mem_erase.mpr ⟨hpath.1, hlisted.2 path hpath.2⟩
    · have hplugs : ¬ event.Plugs := fun h => h.elim hadd hremove
      rw [if_neg hplugs] at hpath
      rw [if_neg hremove]
      exact hlisted.2 path hpath

/-- An event that is held back adds a device that is already present. -/
theorem present_of_duplicate {devices : Finset Bytes} {initial : List Bytes}
    (hlisted : Listed devices initial) {event : MonitorEvent}
    (hheld : (duplicates initial event).1 = true) : present devices event = devices := by
  obtain ⟨hadd, hmem⟩ := (duplicates_iff initial event).mp hheld
  rw [present, if_pos hadd]
  exact Finset.insert_eq_of_mem (hlisted.2 event.path hmem)

/-- What is delivered leads to the devices of the whole stream. -/
theorem delivered_present {initial : List Bytes} (hdistinct : initial.Nodup)
    (events : List MonitorEvent) :
    (StreamFilter.delivered duplicates initial events).foldl present initial.toFinset =
      events.foldl present initial.toFinset :=
  @StreamFilter.foldl_delivered _ _ _ duplicates present Listed
    (fun _ _ _ hlisted hduplicate => present_of_duplicate hlisted hduplicate)
    (fun _ _ event hlisted => listed_step hlisted event)
    _ _ ⟨hdistinct, fun _ hpath => List.mem_toFinset.mpr hpath⟩ events

/-- The merge loses nothing: an event is held back exactly when it is the first
add or remove of a listed path and an add, one call unlinks at most one entry of
its own path, and what is delivered leads to the devices of the whole stream. -/
theorem deduplicateInitial_merges (initial : List Bytes) (hdistinct : initial.Nodup)
    (events : List MonitorEvent) :
    (∀ before event rest, events = before ++ event :: rest →
      ((deduplicateInitial (StreamFilter.after duplicates initial before)
          event.action event.path).1 = true ↔
        event.action = actionAdd ∧ event.path ∈ initial ∧
          ∀ earlier ∈ before, earlier.Plugs → earlier.path ≠ event.path) ∧
      StreamFilter.delivered duplicates initial events =
        StreamFilter.delivered duplicates initial before ++
          (if event.action = actionAdd ∧ event.path ∈ initial ∧
              ∀ earlier ∈ before, earlier.Plugs → earlier.path ≠ event.path
            then [] else [event]) ++
          StreamFilter.delivered duplicates
            (StreamFilter.after duplicates initial (before ++ [event])) rest) ∧
    (∀ (list : List Bytes) (action path : Bytes),
      (deduplicateInitial list action path).2 = list ∨
        ∃ before rest, list = before ++ path :: rest ∧
          (deduplicateInitial list action path).2 = before ++ rest) ∧
    (StreamFilter.delivered duplicates initial events).foldl present initial.toFinset =
      events.foldl present initial.toFinset := by
  have hheld : ∀ before (event : MonitorEvent),
      ((duplicates (StreamFilter.after duplicates initial before) event).1 = true ↔
        event.action = actionAdd ∧ event.path ∈ initial ∧
          ∀ earlier ∈ before, earlier.Plugs → earlier.path ≠ event.path) := by
    intro before event
    rw [duplicates_iff, mem_after hdistinct]
  refine ⟨?_, fun list action path => duplicates_removes list ⟨action, path⟩,
    delivered_present hdistinct events⟩
  rintro before event rest rfl
  refine ⟨hheld before event, ?_⟩
  rw [StreamFilter.delivered_at]
  simp only [hheld before event]

/-- A device that is enumerated, unplugged and plugged in again. -/
theorem deduplicateInitial_merges_replug :
    [[1], [2]].Nodup ∧
    (StreamFilter.delivered duplicates [[1], [2]]
        [⟨actionRemove, [1]⟩, ⟨actionAdd, [1]⟩, ⟨actionAdd, [2]⟩]).foldl present
        [[1], [2]].toFinset =
      [⟨actionRemove, [1]⟩, ⟨actionAdd, [1]⟩, ⟨actionAdd, [2]⟩].foldl present
        [[1], [2]].toFinset :=
  ⟨by decide, (deduplicateInitial_merges [[1], [2]] (by decide)
    [⟨actionRemove, [1]⟩, ⟨actionAdd, [1]⟩, ⟨actionAdd, [2]⟩]).2.2⟩

theorem deduplicate_event (initial : List Bytes) (d : UdevDevice) :
    deduplicate initial d =
      (d.event.map (duplicates initial)).getD (false, initial) := by
  rcases d with ⟨_ | action, path⟩
  · rfl
  · by_cases hother : action ≠ actionAdd ∧ action ≠ actionRemove
    · cases path with
      | none => exact if_pos hother
      | some path =>
          exact (if_pos hother).trans (if_pos hother).symm
    · cases path with
      | none => exact if_neg hother
      | some path => exact if_neg hother

/-- The monitor's own filter over its devices is the filter over their events. -/
theorem deduplicate_delivers (initial : List Bytes) (devices : List UdevDevice) :
    (StreamFilter.delivered deduplicate initial devices).filterMap UdevDevice.event =
      StreamFilter.delivered duplicates initial (devices.filterMap UdevDevice.event) :=
  StreamFilter.filterMap_delivered deduplicate_event initial devices

theorem initialOf_names (names : List (Option Bytes)) :
    initialOf names = (names.filterMap id).reverse := by
  rw [initialOf]
  induction names using List.reverseRecOn with
  | nil => rfl
  | append_singleton names name ih =>
      rw [List.foldl_concat, ih]
      cases name <;> simp

/-- Watching from an enumeration of distinct paths delivers events that lead from
the enumerated devices to those of the whole stream. -/
theorem deduplicate_present {names : List (Option Bytes)}
    (hdistinct : (names.filterMap id).Nodup) (devices : List UdevDevice) :
    ((StreamFilter.delivered deduplicate (initialOf names) devices).filterMap
        UdevDevice.event).foldl present (names.filterMap id).toFinset =
      (devices.filterMap UdevDevice.event).foldl present
        (names.filterMap id).toFinset := by
  have hnodup : (initialOf names).Nodup := by
    rw [initialOf_names]
    exact List.nodup_reverse.mpr hdistinct
  have hdevices : (names.filterMap id).toFinset = (initialOf names).toFinset := by
    rw [initialOf_names, List.toFinset_reverse]
  rw [deduplicate_delivers, hdevices]
  exact delivered_present hnodup (devices.filterMap UdevDevice.event)

end Monitor

end Hid

end Wiiland
