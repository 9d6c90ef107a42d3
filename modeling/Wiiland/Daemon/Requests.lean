/-
Every request for a reconciliation is followed by a request for a snapshot.  One that
comes while discovery is busy is put off until the work is done.
-/
import Wiiland.Daemon.Reconcile

namespace Wiiland

namespace Daemon

open Hid Ipc

theorem View.Moves.extends {view later : View} (hmoves : View.Moves view later) :
    ∃ new, later.deeds = view.deeds ++ new := by
  induction hmoves with
  | refl => exact ⟨[], (List.append_nil _).symm⟩
  | @tail middle last _ hmove ih =>
      obtain ⟨new, hnew⟩ := ih
      have hone : ∃ deed, last.deeds = middle.deeds ++ [deed] := by
        cases hmove <;> exact ⟨_, rfl⟩
      obtain ⟨deed, hdeed⟩ := hone
      exact ⟨new ++ [deed], by rw [hdeed, hnew, List.append_assoc]⟩

namespace Runtime

variable {P D : Type}

/-- A snapshot is pending, or devices wait to be set up. -/
def Busy (runtime : Runtime P D) : Prop :=
  runtime.snapshotPending = true ∨ runtime.pendingAdditions ≠ []

/-- A snapshot has been requested since, or could not be. -/
def Attempted (runtime later : Runtime P D) : Prop :=
  ∃ new, later.deeds = runtime.deeds ++ new ∧ ∃ deed ∈ new, deed.isAttempt = true

/-- A request that was put off is still noted unless a snapshot has been requested. -/
def Keeps (runtime later : Runtime P D) : Prop :=
  (∃ new, later.deeds = runtime.deeds ++ new) ∧
    (Attempted runtime later ∨ (runtime.reconcileAgain = true → later.reconcileAgain = true))

theorem Attempted.extend {first second third : Runtime P D} (hattempted : Attempted first second)
    (hextends : ∃ new, third.deeds = second.deeds ++ new) : Attempted first third := by
  obtain ⟨new, hnew, deed, hmem, hattempt⟩ := hattempted
  obtain ⟨more, hmore⟩ := hextends
  exact ⟨new ++ more, by rw [hmore, hnew, List.append_assoc], deed,
    List.mem_append_left more hmem, hattempt⟩

theorem Attempted.after {first second third : Runtime P D}
    (hextends : ∃ new, second.deeds = first.deeds ++ new) (hattempted : Attempted second third) :
    Attempted first third := by
  obtain ⟨new, hnew⟩ := hextends
  obtain ⟨more, hmore, deed, hmem, hattempt⟩ := hattempted
  exact ⟨new ++ more, by rw [hmore, hnew, List.append_assoc], deed,
    List.mem_append_right new hmem, hattempt⟩

theorem Keeps.trans {first second third : Runtime P D} (hfirst : Keeps first second)
    (hsecond : Keeps second third) : Keeps first third := by
  obtain ⟨hextends, hkept⟩ := hfirst
  obtain ⟨hmore, hstill⟩ := hsecond
  refine ⟨?_, ?_⟩
  · obtain ⟨new, hnew⟩ := hextends
    obtain ⟨more, hmore⟩ := hmore
    exact ⟨new ++ more, by rw [hmore, hnew, List.append_assoc]⟩
  · rcases hkept with hattempted | hkept
    · exact Or.inl (hattempted.extend hmore)
    · rcases hstill with hattempted | hstill
      · exact Or.inl (hattempted.after hextends)
      · exact Or.inr fun hagain => hstill (hkept hagain)

theorem Keeps.noted {runtime later : Runtime P D}
    (hextends : ∃ new, later.deeds = runtime.deeds ++ new)
    (hsame : later.reconcileAgain = runtime.reconcileAgain) : Keeps runtime later :=
  ⟨hextends, Or.inr fun hagain => hsame.trans hagain⟩

section Requests

variable [RuntimePlatform P D] {runtime : Runtime P D}

theorem requestReconcile_busy (hbusy : Busy runtime) :
    runtime.requestReconcile = { runtime with reconcileAgain := true } := by
  rw [requestReconcile, if_pos]
  rcases hbusy with hpending | hadditions
  · rw [hpending]
    rfl
  · rw [bne_iff_ne.mpr hadditions, Bool.or_true]

theorem requestReconcile_idle (hidle : ¬Busy runtime) :
    Attempted runtime runtime.requestReconcile ∧
      runtime.requestReconcile.reconcileAgain = runtime.reconcileAgain ∧
      runtime.requestReconcile.slots = runtime.slots ∧
      runtime.requestReconcile.pendingAdditions = runtime.pendingAdditions ∧
      runtime.requestReconcile.deeds.countP Deed.isOpened =
        runtime.deeds.countP Deed.isOpened := by
  rw [Busy, not_or, not_not] at hidle
  have hattempt : ∀ (platform : P) (pending : Bool) (deed : Deed), deed.isAttempt = true →
      Attempted runtime (did { runtime with platform, snapshotPending := pending } deed) :=
    fun _ _ deed hdeed => ⟨[deed], rfl, deed, List.mem_singleton_self deed, hdeed⟩
  rw [requestReconcile, if_neg (by rw [hidle.2]; simpa using hidle.1)]
  split
  · refine ⟨hattempt _ true _ rfl, rfl, rfl, rfl, ?_⟩
    change List.countP _ (runtime.deeds ++ [_]) = _
    rw [List.countP_append]
    rfl
  · refine ⟨hattempt _ runtime.snapshotPending _ rfl, rfl, rfl, rfl, ?_⟩
    change List.countP _ (runtime.deeds ++ [_]) = _
    rw [List.countP_append]
    rfl

/-- When work is left, a request that was put off stays so. -/
theorem retryReconcile_busy (hbusy : runtime.reconcileAgain = true → Busy runtime) :
    runtime.retryReconcile = runtime := by
  rw [retryReconcile, if_neg]
  simp only [Bool.and_eq_true, Bool.not_eq_true', beq_iff_eq]
  rintro ⟨⟨hpending, hadditions⟩, hagain⟩
  rcases hbusy hagain with hwaits | hqueued
  · rw [hpending] at hwaits
    cases hwaits
  · exact hqueued hadditions

/-- When no work is left, it is made up for. -/
theorem retryReconcile_idle (hidle : ¬Busy runtime) (hagain : runtime.reconcileAgain = true) :
    runtime.retryReconcile = requestReconcile { runtime with reconcileAgain := false } := by
  rw [Busy, not_or, not_not, Bool.not_eq_true] at hidle
  rw [retryReconcile, if_pos]
  rw [hidle.1, hidle.2, hagain]
  rfl

theorem again_retryReconcile (hagain : runtime.retryReconcile.reconcileAgain = true) :
    Busy runtime.retryReconcile := by
  by_cases hready : runtime.reconcileAgain = true ∧ ¬Busy runtime
  · have hidle : ¬Busy { runtime with reconcileAgain := false } := hready.2
    rw [retryReconcile_idle hready.2 hready.1, (requestReconcile_idle hidle).2.1] at hagain
    cases hagain
  · rw [not_and_not_right] at hready
    rw [retryReconcile_busy hready] at hagain ⊢
    exact hready hagain

end Requests

variable [DeviceSession D] {codec : Codec} {runtime : Runtime P D}

theorem opened_dropMissing (slot : Nat) :
    (runtime.dropMissing codec slot).deeds.countP Deed.isOpened =
      runtime.deeds.countP Deed.isOpened := by
  rw [dropMissing]
  split
  · rfl
  · rw [dropSlot]
    split
    · change List.countP _ (runtime.deeds ++ [_]) = _
      rw [List.countP_append]
      rfl
    · rfl

theorem steady_start (config : Config) (dryRun : Bool) (platform : P)
    (ipc : Option IpcServer) : Steady (start config dryRun platform ipc : Runtime P D) := by
  refine ⟨tracked_start config dryRun platform ipc, fun _ => rfl, List.Pairwise.nil,
    fun _ hmem => absurd hmem List.not_mem_nil, fun hpending => ?_, fun _ => ?_⟩
  · cases hpending
  · intro before path sequence syspath after hsplit
    exact absurd hsplit (by simp [start])

variable [RuntimePlatform P D]

theorem keeps_requestReconcile : Keeps runtime runtime.requestReconcile := by
  refine ⟨(@moves_requestReconcile P D _ _ runtime).extends, ?_⟩
  by_cases hbusy : Busy runtime
  · rw [requestReconcile_busy hbusy]
    exact Or.inr fun _ => rfl
  · exact Or.inl (requestReconcile_idle hbusy).1

theorem again_takeSnapshot :
    (runtime.takeSnapshot codec).reconcileAgain = runtime.reconcileAgain := by
  rw [takeSnapshot]
  split
  · split
    · rfl
    · next snapshot platform _ =>
      simp only
      split
      · next paths _ =>
        have hdiscovery := @discovery_dropAll P D _ codec
          (did { runtime with platform, snapshotPending := false } (.took snapshot))
          (missingSlots (active (did { runtime with platform, snapshotPending := false }
            (.took snapshot) : Runtime P D)) paths)
        exact (Prod.mk.inj (Prod.mk.inj hdiscovery).2).1
      · rfl
  · rfl

/-- Setting up spends the budget on the front of the queue. -/
theorem discovery_setUp [OpensPath P] (budget : Nat) :
    (setUp codec budget runtime).discovery =
      (runtime.snapshotPending, runtime.reconcileAgain,
        runtime.pendingAdditions.drop budget) := by
  induction budget generalizing runtime with
  | zero => rfl
  | succ budget ih =>
      rw [setUp]
      split
      · next hnone => rw [discovery, hnone, List.drop_nil]
      · next path rest hadditions =>
        obtain ⟨hpending, hrest⟩ := Prod.mk.inj
          (@setsUp_addPath P D _ codec { runtime with pendingAdditions := rest } _ _ path).discovery
        obtain ⟨hagain, hqueue⟩ := Prod.mk.inj hrest
        rw [ih, hpending, hagain, hqueue, hadditions, List.drop_succ_cons]

theorem opened_setUp [OpensPath P] (budget : Nat) :
    (setUp codec budget runtime).deeds.countP Deed.isOpened ≤
      runtime.deeds.countP Deed.isOpened + budget := by
  induction budget generalizing runtime with
  | zero => exact Nat.le_refl _
  | succ budget ih =>
      rw [setUp]
      split
      · omega
      · next path rest _ =>
        have hone := (@setsUp_addPath P D _ codec
          { runtime with pendingAdditions := rest } _ _ path).opened
        have hmore := @ih (addPath codec { runtime with pendingAdditions := rest } path).2
        simp only at hone
        omega

theorem opened_takeSnapshot :
    (runtime.takeSnapshot codec).deeds.countP Deed.isOpened =
      runtime.deeds.countP Deed.isOpened := by
  have hfold : ∀ (slots : List Nat) (runtime : Runtime P D),
      (slots.foldl (dropMissing codec) runtime).deeds.countP Deed.isOpened =
        runtime.deeds.countP Deed.isOpened := by
    intro slots
    induction slots with
    | nil => exact fun _ => rfl
    | cons slot slots ih => exact fun runtime => (ih _).trans (opened_dropMissing slot)
  have htook : ∀ (platform : P) (snapshot : Snapshot),
      (did { runtime with platform, snapshotPending := false }
        (.took snapshot)).deeds.countP Deed.isOpened = runtime.deeds.countP Deed.isOpened := by
    intro platform snapshot
    change List.countP _ (runtime.deeds ++ [_]) = _
    rw [List.countP_append]
    rfl
  rw [takeSnapshot]
  split
  · split
    · rfl
    · simp only
      split
      · exact (hfold _ _).trans (htook _ _)
      · exact htook _ _
  · rfl

theorem keeps_serviceDiscovery [LawfulSession D] [OpensPath P] :
    Keeps runtime (runtime.serviceDiscovery codec) := by
  have htaken : Keeps runtime (runtime.takeSnapshot codec) :=
    .noted moves_takeSnapshot.extends again_takeSnapshot
  have hsetUp : Keeps (runtime.takeSnapshot codec)
      (setUp codec deviceSetupBudget (runtime.takeSnapshot codec)) :=
    .noted (moves_setUp deviceSetupBudget).extends
      (Prod.mk.inj (Prod.mk.inj (discovery_setUp deviceSetupBudget)).2).1
  refine htaken.trans (hsetUp.trans ?_)
  rw [serviceDiscovery]
  generalize setUp codec deviceSetupBudget (runtime.takeSnapshot codec) = ready
  by_cases hready : ready.reconcileAgain = true ∧ ¬Busy ready
  · have hidle : ¬Busy { ready with reconcileAgain := false } := hready.2
    have hattempted := (requestReconcile_idle hidle).1
    rw [retryReconcile_idle hready.2 hready.1]
    obtain ⟨new, hnew, hattempt⟩ := hattempted
    exact ⟨⟨new, hnew⟩, Or.inl ⟨new, hnew, hattempt⟩⟩
  · rw [not_and_not_right] at hready
    rw [retryReconcile_busy hready]
    exact .noted ⟨[], (List.append_nil _).symm⟩ rfl

theorem keeps_step [LawfulSession D] [OpensPath P] {step : ReactorStep P}
    (hadd : ∀ path, step ≠ .addPath path) : Keeps runtime (runtime.step codec step) := by
  by_cases hrequest : step = .requestReconcile
  · rw [hrequest]
    exact keeps_requestReconcile
  · by_cases hservice : step = .serviceDiscovery
    · rw [hservice]
      exact keeps_serviceDiscovery
    · have hleaves := @leaves_step P D _ _ codec runtime _ step hadd hrequest hservice
      obtain ⟨new, hnew, _⟩ := hleaves.deeds
      exact .noted ⟨new, hnew⟩ (Prod.mk.inj (Prod.mk.inj hleaves.discovery).2).1

/-- A run in which no device is added from outside. -/
def Inner (steps : List (ReactorStep P)) : Prop := ∀ path, .addPath path ∉ steps

theorem Inner.head {step : ReactorStep P} {steps : List (ReactorStep P)}
    (hinner : Inner (step :: steps)) : ∀ path, step ≠ .addPath path :=
  fun path hstep => hinner path (hstep ▸ List.mem_cons_self)

theorem Inner.tail {step : ReactorStep P} {steps : List (ReactorStep P)}
    (hinner : Inner (step :: steps)) : Inner steps :=
  fun path hmem => hinner path (List.mem_cons_of_mem step hmem)

theorem keeps_run [LawfulSession D] [OpensPath P] {steps : List (ReactorStep P)}
    (hinner : Inner steps) : Keeps runtime (runtime.run codec steps) := by
  induction steps generalizing runtime with
  | nil => exact .noted ⟨[], (List.append_nil _).symm⟩ rfl
  | cons step steps ih => exact (keeps_step hinner.head).trans (ih hinner.tail)

/-- A step is a call of the discovery service. -/
def ReactorStep.isDiscovery : ReactorStep P → Bool
  | .serviceDiscovery => true
  | _ => false

/-- A request is put off until the queue of additions is empty. -/
structure PutOff (runtime : Runtime P D) : Prop where
  again : runtime.reconcileAgain = true
  pending : runtime.snapshotPending = false

/-- The discovery service works off the queue, and then makes up for the request. -/
theorem PutOff.serviceDiscovery [LawfulSession D] [OpensPath P] (hputOff : PutOff runtime) :
    Attempted runtime (runtime.serviceDiscovery codec) ∨
      PutOff (runtime.serviceDiscovery codec) ∧
        (runtime.serviceDiscovery codec).pendingAdditions =
          runtime.pendingAdditions.drop deviceSetupBudget ∧
        (runtime.serviceDiscovery codec).pendingAdditions ≠ [] := by
  have htaken : runtime.takeSnapshot codec = runtime := by
    rw [takeSnapshot, if_neg]
    rw [hputOff.pending]
    exact Bool.false_ne_true
  have hextends := (@moves_setUp P D _ _ codec runtime _ _ deviceSetupBudget).extends
  have hdiscovery := @discovery_setUp P D _ codec runtime _ _ deviceSetupBudget
  rw [Runtime.serviceDiscovery, htaken]
  generalize setUp codec deviceSetupBudget runtime = ready at hextends hdiscovery ⊢
  obtain ⟨hpending, hrest⟩ := Prod.mk.inj hdiscovery
  obtain ⟨hagain, hqueue⟩ := Prod.mk.inj hrest
  rw [hputOff.pending] at hpending
  rw [hputOff.again] at hagain
  by_cases hbusy : Busy ready
  · rw [retryReconcile_busy fun _ => hbusy]
    refine Or.inr ⟨⟨hagain, hpending⟩, hqueue, ?_⟩
    rcases hbusy with hwaits | hqueued
    · rw [hpending] at hwaits
      cases hwaits
    · exact hqueued
  · have hidle : ¬Busy { ready with reconcileAgain := false } := hbusy
    rw [retryReconcile_idle hbusy hagain]
    exact Or.inl (Attempted.after hextends (requestReconcile_idle hidle).1)

/-- The other steps leave the queue as it is, unless they request a snapshot. -/
theorem PutOff.step [LawfulSession D] [OpensPath P] (hputOff : PutOff runtime)
    {step : ReactorStep P} (hadd : ∀ path, step ≠ .addPath path)
    (hservice : step ≠ .serviceDiscovery) :
    Attempted runtime (runtime.step codec step) ∨
      PutOff (runtime.step codec step) ∧
        (runtime.step codec step).pendingAdditions = runtime.pendingAdditions := by
  by_cases hrequest : step = .requestReconcile
  · rw [hrequest]
    by_cases hbusy : Busy runtime
    · have hsame := requestReconcile_busy hbusy
      rw [Runtime.step, hsame]
      exact Or.inr ⟨⟨rfl, hputOff.pending⟩, rfl⟩
    · exact Or.inl (requestReconcile_idle hbusy).1
  · have hleaves := @leaves_step P D _ _ codec runtime _ step hadd hrequest hservice
    obtain ⟨hpending, hrest⟩ := Prod.mk.inj hleaves.discovery
    obtain ⟨hagain, hqueue⟩ := Prod.mk.inj hrest
    exact Or.inr ⟨⟨hagain.trans hputOff.again, hpending.trans hputOff.pending⟩, hqueue⟩

/-- With enough calls of the discovery service, whatever comes between them, the request
is made up for. -/
theorem PutOff.made [LawfulSession D] [OpensPath P] {steps : List (ReactorStep P)}
    (hputOff : PutOff runtime) (hinner : Inner steps)
    (hsome : 0 < steps.countP ReactorStep.isDiscovery)
    (henough : runtime.pendingAdditions.length ≤
      deviceSetupBudget * steps.countP ReactorStep.isDiscovery) :
    Attempted runtime (runtime.run codec steps) := by
  induction steps generalizing runtime with
  | nil => exact absurd hsome (Nat.lt_irrefl 0)
  | cons step steps ih =>
      have hextends := (@keeps_run P D _ codec (runtime.step codec step) _ _ _ steps
        hinner.tail).1
      have hkeeps := (@keeps_step P D _ codec runtime _ _ _ step hinner.head).1
      by_cases hservice : step = .serviceDiscovery
      · subst hservice
        rcases @PutOff.serviceDiscovery P D _ codec runtime _ _ _ hputOff with
          hattempted | ⟨hlater, hqueue, hmore⟩
        · exact hattempted.extend hextends
        · refine Attempted.after hkeeps (ih hlater hinner.tail ?_ ?_)
          · rw [List.countP_cons_of_pos rfl] at henough
            by_contra hnone
            have hempty : (runtime.pendingAdditions.drop deviceSetupBudget).length = 0 := by
              rw [List.length_drop, Nat.sub_eq_zero_iff_le]
              rw [Nat.eq_zero_of_not_pos hnone] at henough
              exact henough
            exact hmore (hqueue.trans (List.length_eq_zero_iff.mp hempty))
          · rw [List.countP_cons_of_pos rfl] at henough
            change (runtime.serviceDiscovery codec).pendingAdditions.length ≤ _
            rw [hqueue, List.length_drop, Nat.sub_le_iff_le_add]
            rw [Nat.mul_succ] at henough
            exact henough
      · have hsame : (step :: steps).countP ReactorStep.isDiscovery =
            steps.countP ReactorStep.isDiscovery :=
          List.countP_cons_of_neg (by cases step <;> first | exact absurd rfl hservice | simp
            [ReactorStep.isDiscovery])
        rw [hsame] at hsome henough
        rcases @PutOff.step P D _ codec runtime _ _ _ hputOff step hinner.head hservice with
          hattempted | ⟨hlater, hqueue⟩
        · exact hattempted.extend hextends
        · exact Attempted.after hkeeps (ih hlater hinner.tail hsome (hqueue ▸ henough))

/-- Once the pending snapshot arrives, the request is made up for or waits for the queue
only. -/
theorem arrived [LawfulSession D] [OpensPath P] (hagain : runtime.reconcileAgain = true)
    (hpending : runtime.snapshotPending = true) {snapshot : Snapshot} {platform : P}
    (htake : RuntimePlatform.takeSnapshot runtime.platform = (some snapshot, platform)) :
    Attempted runtime (runtime.serviceDiscovery codec) ∨
      PutOff (runtime.serviceDiscovery codec) := by
  have hextends := (@moves_takeSnapshot P D _ _ codec runtime).extends
  have hputOff : PutOff (runtime.takeSnapshot codec) := by
    refine ⟨again_takeSnapshot.trans hagain, ?_⟩
    rw [takeSnapshot, if_pos hpending, htake]
    simp only
    split
    · next paths _ =>
      exact (Prod.mk.inj (@discovery_dropAll P D _ codec
        (did { runtime with platform, snapshotPending := false } (.took snapshot))
        (missingSlots (active (did { runtime with platform, snapshotPending := false }
          (.took snapshot) : Runtime P D)) paths))).1
    · rfl
  have hservice := @PutOff.serviceDiscovery P D _ codec _ _ _ _ hputOff
  have hsame : (runtime.takeSnapshot codec).serviceDiscovery codec =
      runtime.serviceDiscovery codec := by
    rw [Runtime.serviceDiscovery, Runtime.serviceDiscovery]
    congr 2
    rw [takeSnapshot, if_neg]
    rw [hputOff.pending]
    exact Bool.false_ne_true
  rw [hsame] at hservice
  rcases hservice with hattempted | ⟨hlater, _⟩
  · exact Or.inl (Attempted.after hextends hattempted)
  · exact Or.inr hlater

theorem opened_serviceDiscovery [OpensPath P] :
    (runtime.serviceDiscovery codec).deeds.countP Deed.isOpened ≤
      runtime.deeds.countP Deed.isOpened + deviceSetupBudget := by
  have htaken := @opened_takeSnapshot P D _ codec runtime _
  have hsetUp := @opened_setUp P D _ codec (runtime.takeSnapshot codec) _ _ deviceSetupBudget
  rw [htaken] at hsetUp
  rw [serviceDiscovery]
  generalize setUp codec deviceSetupBudget (runtime.takeSnapshot codec) = ready at hsetUp ⊢
  by_cases hready : ready.reconcileAgain = true ∧ ¬Busy ready
  · have hidle : ¬Busy { ready with reconcileAgain := false } := hready.2
    rw [retryReconcile_idle hready.2 hready.1, (requestReconcile_idle hidle).2.2.2.2]
    exact hsetUp
  · rw [not_and_not_right] at hready
    rw [retryReconcile_busy hready]
    exact hsetUp

/-- A failed snapshot changes no device and no queue. -/
theorem failed_serviceDiscovery (hadditions : runtime.pendingAdditions = [])
    {snapshot : Snapshot} {platform : P} {code : Int} (hpending : runtime.snapshotPending = true)
    (htake : RuntimePlatform.takeSnapshot runtime.platform = (some snapshot, platform))
    (hfailed : snapshot.paths = .error code) :
    (runtime.serviceDiscovery codec).slots = runtime.slots ∧
      (runtime.serviceDiscovery codec).pendingAdditions = [] := by
  have htaken : runtime.takeSnapshot codec =
      did { runtime with platform, snapshotPending := false } (.took snapshot) := by
    rw [takeSnapshot, if_pos hpending, htake]
    simp only [hfailed]
  have hsetUp : setUp codec deviceSetupBudget (runtime.takeSnapshot codec) =
      runtime.takeSnapshot codec := by
    have hempty : (runtime.takeSnapshot codec).pendingAdditions = [] := by
      rw [htaken]
      exact hadditions
    rw [deviceSetupBudget, setUp, hempty]
  rw [serviceDiscovery, hsetUp, htaken]
  generalize hready : (did { runtime with platform, snapshotPending := false }
    (.took snapshot) : Runtime P D) = ready
  have hslots : ready.slots = runtime.slots := by
    rw [← hready]
    rfl
  have hqueue : ready.pendingAdditions = [] := by
    rw [← hready]
    exact hadditions
  by_cases hagain : ready.reconcileAgain = true ∧ ¬Busy ready
  · have hidle : ¬Busy { ready with reconcileAgain := false } := hagain.2
    obtain ⟨_, _, hsame, hkept, _⟩ := requestReconcile_idle hidle
    rw [retryReconcile_idle hagain.2 hagain.1, hsame, hkept]
    exact ⟨hslots, hqueue⟩
  · rw [not_and_not_right] at hagain
    rw [retryReconcile_busy hagain]
    exact ⟨hslots, hqueue⟩

/-- What is promised of reconciliation, at any moment of a run. -/
structure Reconciles (codec : Codec) (runtime : Runtime P D) : Prop where
  exclusive : ¬(runtime.snapshotPending = true ∧ runtime.pendingAdditions ≠ [])
  removed : Latest runtime.deeds → RemovalsJustified runtime.deeds
  again : (runtime.serviceDiscovery codec).reconcileAgain = true →
    Busy (runtime.serviceDiscovery codec)
  followed : ∀ steps : List (ReactorStep P), Inner steps →
    Attempted runtime (runtime.requestReconcile.run codec steps) ∨
      (runtime.requestReconcile.run codec steps).reconcileAgain = true
  arrived : ∀ (snapshot : Snapshot) (platform : P), runtime.reconcileAgain = true →
    runtime.snapshotPending = true →
      RuntimePlatform.takeSnapshot runtime.platform = (some snapshot, platform) →
        Attempted runtime (runtime.serviceDiscovery codec) ∨
          PutOff (runtime.serviceDiscovery codec)
  made : ∀ steps : List (ReactorStep P), PutOff runtime → Inner steps →
    0 < steps.countP ReactorStep.isDiscovery →
      runtime.pendingAdditions.length ≤
          deviceSetupBudget * steps.countP ReactorStep.isDiscovery →
        Attempted runtime (runtime.run codec steps)
  failed : ∀ (snapshot : Snapshot) (platform : P) (code : Int),
    runtime.snapshotPending = true →
      RuntimePlatform.takeSnapshot runtime.platform = (some snapshot, platform) →
        snapshot.paths = .error code →
          (runtime.serviceDiscovery codec).slots = runtime.slots ∧
            (runtime.serviceDiscovery codec).pendingAdditions = runtime.pendingAdditions
  distinct : runtime.pendingAdditions.Pairwise fun path other =>
    path.components ≠ other.components
  inactive : ∀ path ∈ runtime.pendingAdditions, ¬runtime.view.Active path.components
  budget : (runtime.serviceDiscovery codec).deeds.countP Deed.isOpened ≤
    runtime.deeds.countP Deed.isOpened + deviceSetupBudget

theorem Steady.reconciles [LawfulSession D] [OpensPath P] (hsteady : Steady runtime) :
    Reconciles codec runtime where
  exclusive := fun ⟨hpending, hadditions⟩ => hadditions (hsteady.idle hpending)
  removed := hsteady.removed
  again := again_retryReconcile
  followed := fun steps hinner => by
    have hrequest := @keeps_requestReconcile P D _ runtime _
    obtain ⟨hextends, hkept⟩ := @keeps_run P D _ codec runtime.requestReconcile _ _ _ steps hinner
    by_cases hbusy : Busy runtime
    · rcases hkept with hattempted | hkept
      · exact Or.inl (Attempted.after hrequest.1 hattempted)
      · refine Or.inr (hkept ?_)
        rw [requestReconcile_busy hbusy]
    · exact Or.inl ((requestReconcile_idle hbusy).1.extend hextends)
  arrived := fun _ _ hagain hpending htake => Runtime.arrived hagain hpending htake
  made := fun _ hputOff hinner hsome henough => hputOff.made hinner hsome henough
  failed := fun _ _ _ hpending htake hfailed => by
    rw [hsteady.idle hpending]
    exact failed_serviceDiscovery (hsteady.idle hpending) hpending htake hfailed
  distinct := hsteady.unique
  inactive := hsteady.fresh
  budget := opened_serviceDiscovery

theorem Steady.run [LawfulSession D] [OpensPath P] (hsteady : Steady runtime)
    {steps : List (ReactorStep P)} (hinner : Inner steps) : Steady (runtime.run codec steps) := by
  induction steps generalizing runtime with
  | nil => exact hsteady
  | cons step steps ih => exact ih (hsteady.step hinner.head) hinner.tail

/-- Devices that are added before discovery begins leave it steady. -/
theorem steady_addPaths [LawfulSession D] [OpensPath P] (hsteady : Steady runtime)
    (hidle : ¬Busy runtime) (paths : List PathBuf) :
    Steady (runtime.run codec (paths.map .addPath)) := by
  induction paths generalizing runtime with
  | nil => exact hsteady
  | cons path paths ih =>
      rw [Busy, not_or, not_not, Bool.not_eq_true] at hidle
      have hsetsUp := @setsUp_addPath P D _ codec runtime _ _ path
      obtain ⟨hpending, hrest⟩ := Prod.mk.inj hsetsUp.discovery
      refine ih (hsteady.setsUp hsetsUp (hsteady.tracked.moves (moves_addPath path)) hidle.1
        fun other hmem => ?_) ?_
      · rw [hidle.2] at hmem
        cases hmem
      · rintro (hwaits | hqueued)
        · rw [Runtime.step, hpending, hidle.1] at hwaits
          cases hwaits
        · exact hqueued ((Prod.mk.inj hrest).2.trans hidle.2)

/-- In any order of requests, snapshots and the other work of the reactor, reconciliation
acts on current snapshots only and loses no request. -/
theorem reconciles_run [LawfulSession D] [OpensPath P] (codec : Codec) (config : Config)
    (dryRun : Bool) (platform : P) (ipc : Option IpcServer) (paths : List PathBuf)
    {steps : List (ReactorStep P)} (hinner : Inner steps) :
    Reconciles codec (((start config dryRun platform ipc : Runtime P D).run codec
      (paths.map .addPath)).run codec steps) := by
  refine ((steady_addPaths (steady_start config dryRun platform ipc) ?_ paths).run
    hinner).reconciles
  rintro (hwaits | hqueued)
  · cases hwaits
  · exact hqueued rfl

end Runtime

/-- One device is there, a snapshot shows another, and a request comes in between. -/
theorem reconciles_swap :
    (((Runtime.start {} false (FakePlatform.mk [⟨1, .ok [.ofString "/new"]⟩] []) none :
      Runtime FakePlatform FakeDevice).run fakeCodec
        ([PathBuf.ofString "/old"].map .addPath)).run fakeCodec
          [.requestReconcile, .requestReconcile, .serviceDiscovery]).deeds.countP
            Deed.isDrop = 1 ∧
    Runtime.Reconciles fakeCodec (((Runtime.start {} false
      (FakePlatform.mk [⟨1, .ok [.ofString "/new"]⟩] []) none :
        Runtime FakePlatform FakeDevice).run fakeCodec
          ([PathBuf.ofString "/old"].map .addPath)).run fakeCodec
            [.requestReconcile, .requestReconcile, .serviceDiscovery]) :=
  ⟨by decide, Runtime.reconciles_run fakeCodec {} false _ none _ fun path hmem => by
    simp at hmem⟩

end Daemon

end Wiiland
