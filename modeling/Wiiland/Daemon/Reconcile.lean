/-
Reconciliation.  A removal is never the work of a stale snapshot, and a request that was
put off is made up for.
-/
import Wiiland.Daemon.Discovery

namespace Wiiland

namespace Daemon

open Hid Ipc
open Turns (Here)

namespace Runtime

open View (Tracked)

variable {P D : Type} [DeviceSession D] {codec : Codec} {runtime : Runtime P D}

section Drops

/-- A device found after a drop was there before. -/
theorem device_of_dropMissing {slot other : Nat} {device : D}
    (hdevice : (runtime.dropMissing codec slot).device other = some device) :
    runtime.device other = some device := by
  rw [dropMissing] at hdevice
  split at hdevice
  · exact hdevice
  · rw [dropSlot] at hdevice
    split at hdevice
    · rw [Runtime.device, Option.join_eq_some_iff] at hdevice ⊢
      change (runtime.slots.set slot none)[other]? = _ at hdevice
      rw [List.getElem?_set] at hdevice
      split at hdevice
      · split at hdevice <;> cases hdevice
      · exact hdevice
    · exact hdevice

theorem discovery_dropMissing (slot : Nat) :
    (runtime.dropMissing codec slot).discovery = runtime.discovery := by
  rw [dropMissing]
  split
  · rfl
  · rw [dropSlot]
    split <;> rfl

/-- The path of a slot that a snapshot misses is not in the snapshot. -/
theorem missing_of_mem {paths : List PathBuf} {slot : Nat}
    (hslot : slot ∈ missingSlots runtime.active paths) {device : D}
    (hdevice : runtime.device slot = some device) :
    ∀ other ∈ paths, other.components ≠ (DeviceSession.path device).components := by
  obtain ⟨⟨found, path⟩, hmem, hmissing⟩ := List.mem_filterMap.mp hslot
  obtain ⟨⟨entry, index⟩, hentry, hmap⟩ := List.mem_filterMap.mp hmem
  obtain ⟨active, hactive, hpair⟩ := Option.map_eq_some_iff.mp hmap
  simp only [Option.ite_none_left_eq_some, Option.some.injEq] at hmissing
  obtain ⟨hnone, rfl⟩ := hmissing
  obtain ⟨rfl, rfl⟩ := Prod.mk.inj hpair
  rw [List.mem_zipIdx_iff_getElem?] at hentry
  have hsame := (slots_of_device hdevice).symm.trans hentry
  simp only [hactive, Option.some.injEq] at hsame
  subst hsame
  intro other hother hkey
  exact hnone (List.any_eq_true.mpr ⟨other, hother, PathBuf.same_iff.mpr hkey⟩)

/-- The reactor is dropping what a snapshot does not show. -/
structure Dropping (early late : List Deed) (snapshot : Snapshot) (runtime : Runtime P D) :
    Prop where
  tracked : Tracked runtime.view
  split : ∃ drops, runtime.deeds = early ++ .requested :: (late ++ .took snapshot :: drops) ∧
    ∀ deed ∈ drops, deed.isDrop = true
  removed : Latest runtime.deeds → RemovalsJustified runtime.deeds

variable {early late : List Deed} {snapshot : Snapshot} {paths : List PathBuf}

theorem Dropping.justified (hdropping : Dropping early late snapshot runtime)
    (hlate : ∀ deed ∈ late, deed.isLeaving = true) (hpaths : snapshot.paths = .ok paths)
    (hlatest : Latest runtime.deeds) {path : PathBuf}
    (hactive : runtime.view.Active path.components)
    (hmissing : ∀ other ∈ paths, other.components ≠ path.components) :
    Justified runtime.deeds path := by
  obtain ⟨drops, hsplit, hdrops⟩ := hdropping.split
  have hhere := (hdropping.tracked.here path.components).mpr hactive
  change Here (turns path.components runtime.deeds) at hhere
  rw [hsplit, turns_append] at hhere
  obtain ⟨hearly, hnone⟩ := Turns.here_of_coming hhere <| not_coming fun deed hmem => by
    rcases List.mem_cons.mp hmem with rfl | hmem
    · rfl
    · rcases List.mem_append.mp hmem with hmem | hmem
      · exact Deed.isSetUp_of_isLeaving (hlate deed hmem)
      · rcases List.mem_cons.mp hmem with rfl | hmem
        · rfl
        · exact Deed.isSetUp_of_isDrop (hdrops deed hmem)
  have hrequest := hlatest (early ++ .requested :: late) snapshot drops
    (by rw [hsplit, List.append_assoc, List.cons_append])
  refine ⟨early, late, snapshot, paths, drops, hsplit, ?_, hpaths, hmissing, hearly, hnone⟩
  rw [hrequest, requests, List.countP_append, List.countP_cons_of_pos rfl]
  have hquiet := requests_of_leaving hlate
  rw [requests] at hquiet ⊢
  omega

theorem Dropping.dropMissing (hdropping : Dropping early late snapshot runtime)
    (hlate : ∀ deed ∈ late, deed.isLeaving = true) (hpaths : snapshot.paths = .ok paths)
    {slot : Nat} (hmissing : ∀ device, runtime.device slot = some device →
      ∀ other ∈ paths, other.components ≠ (DeviceSession.path device).components) :
    Dropping early late snapshot (runtime.dropMissing codec slot) := by
  have htracked := hdropping.tracked.moves (@moves_dropMissing P D _ runtime codec slot)
  rw [Runtime.dropMissing] at htracked ⊢
  cases hdevice : runtime.device slot with
  | none => exact hdropping
  | some device =>
      simp only [hdevice, dropSlot, Option.isSome_some, if_true] at htracked ⊢
      obtain ⟨drops, hsplit, hdrops⟩ := hdropping.split
      refine ⟨htracked, ⟨drops ++ [.published (DeviceSession.path device) (.deviceRemoved
        (nextSequence runtime.notificationSequence)
        (DeviceSession.path device).toStringLossy .removed)], ?_, ?_⟩, fun hlatest => ?_⟩
      · change runtime.deeds ++ _ = _
        rw [hsplit, List.append_assoc, List.cons_append, List.append_assoc, List.cons_append]
      · intro deed hmem
        rcases List.mem_append.mp hmem with hmem | hmem
        · exact hdrops deed hmem
        · rw [List.mem_singleton.mp hmem]
          rfl
      · have hbefore : Latest runtime.deeds := Latest.of_append hlatest
        intro before path sequence syspath after hlast
        rcases View.split_snoc hlast with ⟨rest, hdeeds, _⟩ | ⟨rfl, hdeed⟩
        · exact hdropping.removed hbefore before path sequence syspath rest hdeeds
        · obtain ⟨rfl, _⟩ := Deed.published.inj hdeed
          refine hdropping.justified hlate hpaths hbefore ?_ (hmissing device hdevice)
          exact View.active_iff.mpr ⟨slot, _, paths_of_device hdevice, rfl⟩

theorem Dropping.dropAll (hdropping : Dropping early late snapshot runtime)
    (hlate : ∀ deed ∈ late, deed.isLeaving = true) (hpaths : snapshot.paths = .ok paths)
    {slots : List Nat} (hmissing : ∀ slot ∈ slots, ∀ device, runtime.device slot = some device →
      ∀ other ∈ paths, other.components ≠ (DeviceSession.path device).components) :
    Dropping early late snapshot (slots.foldl (Runtime.dropMissing codec) runtime) := by
  induction slots generalizing runtime with
  | nil => exact hdropping
  | cons slot slots ih =>
      rw [List.foldl_cons]
      refine ih (hdropping.dropMissing hlate hpaths
        (hmissing slot List.mem_cons_self)) fun other hother device hdevice => ?_
      exact hmissing other (List.mem_cons_of_mem slot hother) device
        (device_of_dropMissing hdevice)

theorem discovery_dropAll (slots : List Nat) :
    (slots.foldl (Runtime.dropMissing codec) runtime).discovery = runtime.discovery := by
  induction slots generalizing runtime with
  | nil => rfl
  | cons slot slots ih =>
      rw [List.foldl_cons, ih]
      exact discovery_dropMissing slot

end Drops

/-- Paths that are distinct and not active. -/
def Addable (runtime : Runtime P D) (paths : List PathBuf) : Prop :=
  paths.Pairwise (fun path other => path.components ≠ other.components) ∧
    ∀ path ∈ paths, ¬runtime.view.Active path.components

theorem Addable.push {queued : List PathBuf} (haddable : Addable runtime queued)
    (path : PathBuf) : Addable runtime (runtime.pushAddition queued path) := by
  rw [pushAddition]
  split
  · next hfind =>
    rw [Option.isNone_iff_eq_none, find_eq_none] at hfind
    rw [pushUnique]
    split
    · exact haddable
    · next hnew =>
      constructor
      · rw [List.pairwise_append]
        refine ⟨haddable.1, List.pairwise_singleton _ _, fun other hother last hlast => ?_⟩
        rw [List.mem_singleton.mp hlast]
        exact fun hsame => hnew
          (List.any_eq_true.mpr ⟨other, hother, PathBuf.same_iff.mpr hsame⟩)
      · intro other hother
        rcases List.mem_append.mp hother with hother | hother
        · exact haddable.2 other hother
        · rw [List.mem_singleton.mp hother]
          exact hfind
  · exact haddable

theorem addable_additions (paths : List PathBuf) :
    Addable runtime (runtime.additions paths) := by
  have hfold : ∀ (paths queued : List PathBuf), Addable runtime queued →
      Addable runtime (paths.foldl runtime.pushAddition queued) := by
    intro paths
    induction paths with
    | nil => exact fun _ haddable => haddable
    | cons path paths ih => exact fun queued haddable => ih _ (haddable.push path)
  exact hfold paths [] ⟨List.Pairwise.nil, fun _ hmem => absurd hmem List.not_mem_nil⟩

theorem Steady.applySnapshot (hsteady : Steady runtime) {platform : P} {snapshot : Snapshot}
    {paths : List PathBuf} (hpaths : snapshot.paths = .ok paths)
    (hpending : runtime.snapshotPending = true) :
    Steady (Runtime.applySnapshot codec
      (did { runtime with platform, snapshotPending := false } (.took snapshot)) paths) := by
  obtain ⟨early, late, hsplit, hlate⟩ := hsteady.current hpending
  have htook : Dropping early late snapshot
      (did { runtime with platform, snapshotPending := false } (.took snapshot)) := by
    refine ⟨hsteady.tracked.note (by simp), ⟨[], ?_, by simp⟩, fun hlatest => ?_⟩
    · change runtime.deeds ++ [_] = _
      rw [hsplit, List.append_assoc, List.cons_append]
    · refine (hsteady.removed hlatest.of_append).append fun deed hmem => ?_
      rw [List.mem_singleton.mp hmem]
      rfl
  rw [Runtime.applySnapshot]
  generalize hready : (did { runtime with platform, snapshotPending := false } (.took snapshot) :
    Runtime P D) = ready at htook ⊢
  have hdropped := @Dropping.dropAll P D _ codec _ early late snapshot paths htook hlate hpaths
    (missingSlots ready.active paths) fun slot hslot device hdevice =>
      missing_of_mem hslot hdevice
  have hdiscovery := @discovery_dropAll P D _ codec ready (missingSlots ready.active paths)
  generalize (missingSlots ready.active paths).foldl (Runtime.dropMissing codec) ready = dropped
    at hdropped hdiscovery ⊢
  rw [← hready] at hdiscovery
  obtain ⟨hdone, hrest⟩ := Prod.mk.inj hdiscovery
  have hempty : dropped.pendingAdditions = [] :=
    (Prod.mk.inj hrest).2.trans (hsteady.idle hpending)
  have hnot : ¬dropped.snapshotPending = true := by
    rw [hdone]
    exact Bool.false_ne_true
  obtain ⟨hunique, hfresh⟩ := @addable_additions P D _ dropped paths
  refine ⟨hdropped.tracked, fun hwaits => absurd hwaits hnot, ?_, ?_,
    fun hwaits => absurd hwaits hnot, hdropped.removed⟩
  · change (dropped.pendingAdditions ++ _).Pairwise _
    rw [hempty, List.nil_append]
    exact hunique
  · change ∀ path ∈ dropped.pendingAdditions ++ _, _
    rw [hempty, List.nil_append]
    exact hfresh

variable [RuntimePlatform P D]

theorem Steady.takeSnapshot (hsteady : Steady runtime) : Steady (runtime.takeSnapshot codec) := by
  rw [Runtime.takeSnapshot]
  split
  · next hpending =>
    split
    · exact hsteady.leaves (.unseen rfl rfl) hsteady.tracked
    · next snapshot platform _ =>
      simp only
      split
      · next paths hpaths => exact hsteady.applySnapshot hpaths hpending
      · refine ⟨hsteady.tracked.note (by simp), fun hwaits => ?_, hsteady.unique, hsteady.fresh,
          fun hwaits => ?_, fun hlatest => ?_⟩
        · cases hwaits
        · cases hwaits
        · refine (hsteady.removed (Latest.of_append hlatest)).append fun deed hmem => ?_
          rw [List.mem_singleton.mp hmem]
          rfl
  · exact hsteady

theorem setsUp_addPath [OpensPath P] (path : PathBuf) :
    SetsUp runtime (runtime.addPath codec path).2 path := by
  have hopened : ∀ platform : P,
      SetsUp runtime (did { runtime with platform } (.opened path)) path := fun platform =>
    ⟨rfl, fun _ hactive => Or.inl hactive, .one rfl rfl, by
      change List.countP _ (runtime.deeds ++ [_]) ≤ _
      rw [List.countP_append]
      exact Nat.le_refl _⟩
  have hsame : SetsUp runtime runtime path :=
    ⟨rfl, fun _ hactive => Or.inl hactive, .same rfl, Nat.le_succ _⟩
  rw [addPath]
  split
  · exact hsame
  · split
    · exact hsame
    · next slot hslot =>
      split
      · exact hopened _
      · next device platform hopen =>
        have hpath : DeviceSession.path device = path :=
          OpensPath.path_openDevice _ _ _ _ _ _ hopen
        refine ⟨rfl, fun key hactive => ?_, ?_, ?_⟩
        · obtain ⟨hlt, hnone, _⟩ := List.findIdx?_eq_some_iff_getElem.mp hslot
          have hfree : runtime.view.paths[slot]? = some none := by
            rw [view_paths, List.getElem?_eq_getElem hlt, Option.isNone_iff_eq_none.mp hnone]
            rfl
          change View.Active (view { runtime with
            slots := runtime.slots.set slot (some device) }) key at hactive
          rw [view_set] at hactive
          rcases (View.active_set hfree key).mp hactive with hnew | ⟨other, found, _, hfound⟩
          · exact Or.inr (hpath ▸ (decide_eq_true_iff.mp hnew).symm)
          · exact Or.inl (View.active_iff.mpr ⟨other, found, hfound⟩)
        · exact (hopened platform).deeds.trans (.one rfl rfl)
        · change List.countP _ ((runtime.deeds ++ [_]) ++ [_]) ≤ _
          rw [List.countP_append, List.countP_append]
          exact Nat.le_refl _

/-- With no snapshot pending, setting up keeps discovery steady. -/
theorem Steady.setUp [LawfulSession D] [OpensPath P] (hsteady : Steady runtime)
    (budget : Nat) : Steady (Runtime.setUp codec budget runtime) := by
  induction budget generalizing runtime with
  | zero => exact hsteady
  | succ budget ih =>
      rw [Runtime.setUp]
      split
      · exact hsteady
      · next path rest hadditions =>
        have hpending : runtime.snapshotPending = false := by
          rw [Bool.eq_false_iff]
          intro hwaits
          rw [hsteady.idle hwaits] at hadditions
          cases hadditions
        have hunique := hsteady.unique
        rw [hadditions, List.pairwise_cons] at hunique
        have hpopped : Steady { runtime with pendingAdditions := rest } :=
          ⟨hsteady.tracked, fun hwaits => absurd (hpending.symm.trans hwaits) Bool.false_ne_true,
            hunique.2, fun other hmem => hsteady.fresh other
              (hadditions ▸ List.mem_cons_of_mem path hmem), hsteady.current, hsteady.removed⟩
        apply ih
        exact hpopped.setsUp (setsUp_addPath path)
          (hpopped.tracked.moves (moves_addPath path)) hpending
          fun other hmem hsame => hunique.1 other hmem hsame.symm

theorem Steady.requestReconcile (hsteady : Steady runtime) :
    Steady runtime.requestReconcile := by
  have hgrown : ∀ (platform : P) (pending : Bool) (deed : Deed), deed.isDrop = false →
      (∀ path notification, deed ≠ .published path notification) →
      (pending = true → runtime.pendingAdditions = []) →
      (pending = true → ∃ early late, runtime.deeds ++ [deed] = early ++ .requested :: late ∧
        ∀ deed ∈ late, deed.isLeaving = true) →
      Steady (did { runtime with platform, snapshotPending := pending } deed) := by
    intro platform pending deed hdrop hsilent hidle hcurrent
    refine ⟨hsteady.tracked.note hsilent, hidle, hsteady.unique, hsteady.fresh, hcurrent,
      fun hlatest => ?_⟩
    refine (hsteady.removed (Latest.of_append hlatest)).append fun other hmem => ?_
    rw [List.mem_singleton.mp hmem]
    exact hdrop
  rw [Runtime.requestReconcile]
  split
  · exact ⟨hsteady.tracked, hsteady.idle, hsteady.unique, hsteady.fresh, hsteady.current,
      hsteady.removed⟩
  · next hbusy =>
    rw [Bool.or_eq_true, not_or, bne_iff_ne, not_not] at hbusy
    split
    · exact hgrown _ true .requested rfl (by simp) (fun _ => hbusy.2)
        fun _ => ⟨runtime.deeds, [], rfl, by simp⟩
    · exact hgrown _ runtime.snapshotPending .requestFailed rfl (by simp) (fun _ => hbusy.2)
        fun hwaits => absurd hwaits hbusy.1

theorem Steady.serviceDiscovery [LawfulSession D] [OpensPath P] (hsteady : Steady runtime) :
    Steady (runtime.serviceDiscovery codec) := by
  have hready := @Steady.setUp P D _ codec _ _ _ _
    (@Steady.takeSnapshot P D _ codec runtime _ hsteady) deviceSetupBudget
  rw [Runtime.serviceDiscovery]
  generalize Runtime.setUp codec deviceSetupBudget (runtime.takeSnapshot codec) = ready
    at hready ⊢
  rw [retryReconcile]
  split
  · apply Steady.requestReconcile
    exact ⟨hready.tracked, hready.idle, hready.unique, hready.fresh, hready.current,
      hready.removed⟩
  · exact hready

/-- Discovery stays steady in every step but a device added from outside. -/
theorem Steady.step [LawfulSession D] [OpensPath P] (hsteady : Steady runtime)
    {step : ReactorStep P} (hadd : ∀ path, step ≠ .addPath path) :
    Steady (runtime.step codec step) := by
  by_cases hrequest : step = .requestReconcile
  · rw [hrequest]
    exact hsteady.requestReconcile
  · by_cases hservice : step = .serviceDiscovery
    · rw [hservice]
      exact hsteady.serviceDiscovery
    · exact hsteady.leaves (leaves_step hadd hrequest hservice)
        (hsteady.tracked.moves (moves_step step))

end Runtime

end Daemon

end Wiiland
