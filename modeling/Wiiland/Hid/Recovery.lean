/-
Recovery after a kernel buffer overrun.  A consumer that folds the emitted
button events never drifts from the kernel's key state, and draining a recovery
brings it to the recovered snapshot by the least list of events.
-/
import Wiiland.Hid.KeyView

namespace Wiiland

namespace Hid

open WordSet (Words)

/-- What is left to recover. -/
def RecoveryState.remaining (recovery : RecoveryState) : Nat :=
  (WordSet.members recovery.keyPending).length +
    recovery.keyResyncPending.toNat + recovery.reportResyncPending.toNat

/-- A recovery with nothing left to emit. -/
def RecoveryState.settled (recovery : RecoveryState) : RecoveryState :=
  { recovery with
      keyPending := WordSet.empty
      keyResyncPending := false
      reportResyncPending := false }

/-- The flag of the pending keys is only down when none is pending. -/
def RecoveryState.Consistent (recovery : RecoveryState) : Prop :=
  recovery.keyResyncPending = false → recovery.keyPending = WordSet.empty

namespace Decoder

/-- A pending key input, read from the recovered key state. -/
def pendingInput (recovery : RecoveryState) (code : Nat) : InputEvent where
  time := recovery.resyncTime
  eventType := evKey
  code := code
  value := if WordSet.mem recovery.keyState code then 1 else 0

/-- Everything one recovery step can do. -/
theorem pushRecovered_cases (decoder : Decoder) :
    (∃ code, decoder.recovery.keyResyncPending = true ∧
      WordSet.lowest decoder.recovery.keyPending = some code ∧
      pushRecovered decoder =
        (decoder.decodeKey (pendingInput decoder.recovery code),
          { decoder with
              recovery := { decoder.recovery with
                keyPending := WordSet.erase decoder.recovery.keyPending code } })) ∨
    ((decoder.recovery.keyResyncPending = true →
        decoder.recovery.keyPending = WordSet.empty) ∧
      pushRecovered decoder =
        if decoder.recovery.reportResyncPending then
          { decoder with
              recovery := { decoder.recovery with
                keyResyncPending := false
                reportResyncPending := false } }.report decoder.recovery.resyncTime
        else
          (none,
            { decoder with
                recovery := { decoder.recovery with
                  keyResyncPending := false } })) := by
  cases hflag : decoder.recovery.keyResyncPending with
  | true =>
      cases hlowest : WordSet.lowest decoder.recovery.keyPending with
      | some code =>
          refine Or.inl ⟨code, rfl, rfl, ?_⟩
          simp only [pushRecovered, RecoveryState.nextKey, hflag, hlowest, ↓reduceIte]
          rfl
      | none =>
          refine Or.inr ⟨fun _ => WordSet.eq_empty_of_lowest_eq_none hlowest, ?_⟩
          simp only [pushRecovered, RecoveryState.nextKey, hflag, hlowest, ↓reduceIte,
            RecoveryState.takeReport]
          cases decoder.recovery.reportResyncPending <;> rfl
  | false =>
      refine Or.inr ⟨fun h => absurd h Bool.false_ne_true, ?_⟩
      simp only [pushRecovered, RecoveryState.nextKey, hflag, Bool.false_eq_true,
        ↓reduceIte, RecoveryState.takeReport]
      rcases decoder with ⟨interface, cache, recovery, motionPlus⟩
      rcases recovery with ⟨keys, pending, desynced, keyFlag, reportFlag, time⟩
      subst hflag
      cases reportFlag <;> rfl

theorem remaining_pushRecovered {decoder : Decoder}
    (hpending : decoder.recovery.hasPending = true) :
    (pushRecovered decoder).2.recovery.remaining < decoder.recovery.remaining := by
  rw [RecoveryState.hasPending, Bool.or_eq_true] at hpending
  rcases pushRecovered_cases decoder with ⟨code, hflag, hlowest, hstep⟩ | ⟨_, hstep⟩
  · rw [hstep]
    simp only [RecoveryState.remaining, WordSet.members_eq_cons hlowest, List.length_cons]
    omega
  · rw [hstep]
    cases hreport : decoder.recovery.reportResyncPending with
    | true =>
        simp only [↓reduceIte, report_recovery, RecoveryState.remaining, hreport,
          Bool.toNat_true, Bool.toNat_false]
        omega
    | false =>
        have hflag : decoder.recovery.keyResyncPending = true := by
          rcases hpending with hflag | hflag
          · exact hflag
          · rw [hreport] at hflag
            exact absurd hflag Bool.false_ne_true
        simp [RecoveryState.remaining, hflag, hreport]

/-- The next event to emit; inputs that decode to nothing are passed over. -/
def takeRecovered (decoder : Decoder) : Option Event × Decoder :=
  if _hpending : decoder.recovery.hasPending then
    match _hstep : decoder.pushRecovered with
    | (some event, next) => (some event, next)
    | (none, next) => takeRecovered next
  else (none, decoder)
termination_by decoder.recovery.remaining
decreasing_by
  have hless := remaining_pushRecovered _hpending
  rw [_hstep] at hless
  exact hless

theorem takeRecovered_idle {decoder : Decoder}
    (hidle : decoder.recovery.hasPending = false) :
    takeRecovered decoder = (none, decoder) := by
  rw [takeRecovered, dif_neg (by simp [hidle])]

theorem takeRecovered_pending {decoder : Decoder}
    (hpending : decoder.recovery.hasPending = true) :
    takeRecovered decoder =
      match decoder.pushRecovered with
      | (some event, next) => (some event, next)
      | (none, next) => takeRecovered next := by
  rw [takeRecovered, dif_pos hpending]
  split <;> rename_i hstep <;> rw [hstep]

theorem remaining_takeRecovered (decoder : Decoder) :
    (takeRecovered decoder).1.isSome = true →
      (takeRecovered decoder).2.recovery.remaining < decoder.recovery.remaining := by
  fun_induction takeRecovered decoder with
  | case1 decoder hpending event next hstep =>
      intro _
      have hless := remaining_pushRecovered hpending
      rw [hstep] at hless
      exact hless
  | case2 decoder hpending next hstep ih =>
      intro hsome
      have hless := remaining_pushRecovered hpending
      rw [hstep] at hless
      exact Nat.lt_trans (ih hsome) hless
  | case3 decoder hidle => simp

/-- The consumer's loop: take recovered events until there is none. -/
def drain (decoder : Decoder) : List Event × Decoder :=
  match _htake : takeRecovered decoder with
  | (some event, next) => (event :: (drain next).1, (drain next).2)
  | (none, next) => ([], next)
termination_by decoder.recovery.remaining
decreasing_by
  all_goals
    have hless := remaining_takeRecovered decoder
    rw [_htake] at hless
    exact hless rfl

theorem drain_idle {decoder : Decoder}
    (hidle : decoder.recovery.hasPending = false) : drain decoder = ([], decoder) := by
  rw [drain]
  split <;> rename_i htake <;> rw [takeRecovered_idle hidle] at htake <;> cases htake
  rfl

theorem drain_pending {decoder : Decoder}
    (hpending : decoder.recovery.hasPending = true) :
    drain decoder =
      (decoder.pushRecovered.1.toList ++ (drain decoder.pushRecovered.2).1,
        (drain decoder.pushRecovered.2).2) := by
  have htaken := takeRecovered_pending hpending
  rcases hstep : decoder.pushRecovered with ⟨_ | event, next⟩
  · rw [hstep] at htaken
    simp only at htaken
    rw [drain, drain, htaken]
    simp
  · rw [hstep] at htaken
    simp only at htaken
    rw [drain, htaken]
    rfl

/-- What a drain emits last: the report of the cached axes, if one is due. -/
def lastReport (decoder : Decoder) : Option Event × Decoder :=
  let settled := { decoder with recovery := decoder.recovery.settled }
  if decoder.recovery.reportResyncPending then
    settled.report decoder.recovery.resyncTime
  else (none, settled)

theorem drain_lastReport {decoder : Decoder}
    (hempty : decoder.recovery.keyPending = WordSet.empty) :
    drain decoder = (decoder.lastReport.1.toList, decoder.lastReport.2) := by
  rcases decoder with ⟨interface, cache, recovery, motionPlus⟩
  rcases recovery with ⟨keys, pending, desynced, keyFlag, reportFlag, time⟩
  simp only at hempty
  subst hempty
  let decoder : Decoder :=
    ⟨interface, cache, ⟨keys, WordSet.empty, desynced, keyFlag, reportFlag, time⟩,
      motionPlus⟩
  change drain decoder = (decoder.lastReport.1.toList, decoder.lastReport.2)
  cases hpending : decoder.recovery.hasPending with
  | false =>
      obtain ⟨rfl, rfl⟩ := Bool.or_eq_false_iff.mp hpending
      rw [drain_idle hpending]
      rfl
  | true =>
      rw [drain_pending hpending]
      rcases pushRecovered_cases decoder with ⟨code, _, hlowest, _⟩ | ⟨_, hstep⟩
      · have hmem := (WordSet.lowest_spec hlowest).1
        rw [WordSet.mem_empty] at hmem
        exact absurd hmem Bool.false_ne_true
      · rw [hstep, lastReport]
        cases reportFlag with
        | true =>
            simp only [decoder, ↓reduceIte]
            rw [drain_idle (by rw [report_recovery]; rfl)]
            simp [RecoveryState.settled]
        | false =>
            simp only [decoder, Bool.false_eq_true, ↓reduceIte]
            rw [drain_idle rfl]
            simp [RecoveryState.settled]

/-- A drain emits the pending keys in code order and then the report. -/
theorem drain_eq {decoder : Decoder} (hconsistent : decoder.recovery.Consistent) :
    drain decoder =
      ((WordSet.members decoder.recovery.keyPending).filterMap
          (fun code => decoder.decodeKey (pendingInput decoder.recovery code)) ++
        decoder.lastReport.1.toList,
      decoder.lastReport.2) := by
  induction hmembers : WordSet.members decoder.recovery.keyPending
    generalizing decoder with
  | nil =>
      have hempty : decoder.recovery.keyPending = WordSet.empty := by
        cases hlowest : WordSet.lowest decoder.recovery.keyPending with
        | none => exact WordSet.eq_empty_of_lowest_eq_none hlowest
        | some code =>
            rw [WordSet.members_eq_cons hlowest] at hmembers
            exact absurd hmembers (List.cons_ne_nil _ _)
      rw [drain_lastReport hempty]
      rfl
  | cons code rest ih =>
      have hnonempty : decoder.recovery.keyPending ≠ WordSet.empty := by
        intro hempty
        rw [hempty, WordSet.members_empty] at hmembers
        exact absurd hmembers (List.cons_ne_nil _ _).symm
      have hflag : decoder.recovery.keyResyncPending = true := by
        cases hflag : decoder.recovery.keyResyncPending with
        | true => rfl
        | false => exact absurd (hconsistent hflag) hnonempty
      rcases pushRecovered_cases decoder with ⟨least, _, hlowest, hstep⟩ | ⟨hempty, _⟩
      · rw [WordSet.members_eq_cons hlowest] at hmembers
        obtain ⟨rfl, hrest⟩ := List.cons.inj hmembers
        have hnext : RecoveryState.Consistent { decoder.recovery with
            keyPending := WordSet.erase decoder.recovery.keyPending least } := by
          intro hdown
          rw [hflag] at hdown
          exact absurd hdown Bool.false_ne_true.symm
        have htail := @ih { decoder with recovery := { decoder.recovery with
          keyPending := WordSet.erase decoder.recovery.keyPending least } } hnext hrest
        rw [drain_pending (by rw [RecoveryState.hasPending, hflag]; rfl), hstep]
        simp only
        rw [htail, List.filterMap_cons]
        cases decoder.decodeKey (pendingInput decoder.recovery least) <;> rfl
      · exact absurd (hempty hflag) hnonempty

/-- After a drain nothing is left to take. -/
theorem takeRecovered_drained {decoder : Decoder}
    (hconsistent : decoder.recovery.Consistent) :
    takeRecovered (drain decoder).2 = (none, (drain decoder).2) := by
  apply takeRecovered_idle
  rw [drain_eq hconsistent, lastReport]
  split
  · rw [report_recovery]
    rfl
  · rfl

/-- What recovering keeps: the interface, the key state, and the flag of the keys. -/
structure SameKeys (decoder next : Decoder) : Prop where
  interface : next.interface = decoder.interface
  keyState : next.recovery.keyState = decoder.recovery.keyState
  desynced : next.recovery.desynced = decoder.recovery.desynced
  consistent : decoder.recovery.Consistent → next.recovery.Consistent

theorem sameKeys_pushRecovered (decoder : Decoder) :
    SameKeys decoder decoder.pushRecovered.2 := by
  rcases pushRecovered_cases decoder with ⟨code, hflag, _, hstep⟩ | ⟨hempty, hstep⟩
  · rw [hstep]
    exact ⟨rfl, rfl, rfl, fun _ hdown => absurd (hflag.symm.trans hdown) (by decide)⟩
  · have hnone : decoder.recovery.Consistent → decoder.recovery.keyPending = WordSet.empty := by
      intro hconsistent
      cases hflag : decoder.recovery.keyResyncPending with
      | true => exact hempty hflag
      | false => exact hconsistent hflag
    rw [hstep]
    split
    · refine ⟨?_, ?_, ?_, fun hconsistent _ => ?_⟩
      · rw [report_interface]
      · rw [report_recovery]
      · rw [report_recovery]
      · rw [report_recovery]
        exact hnone hconsistent
    · exact ⟨rfl, rfl, rfl, fun hconsistent _ => hnone hconsistent⟩

theorem sameKeys_takeRecovered (decoder : Decoder) :
    SameKeys decoder (takeRecovered decoder).2 := by
  fun_induction takeRecovered decoder with
  | case1 decoder hpending event next hstep =>
      have hkeys := sameKeys_pushRecovered decoder
      rwa [hstep] at hkeys
  | case2 decoder hpending next hstep ih =>
      have hkeys := sameKeys_pushRecovered decoder
      rw [hstep] at hkeys
      exact ⟨ih.interface.trans hkeys.interface, ih.keyState.trans hkeys.keyState,
        ih.desynced.trans hkeys.desynced, fun h => ih.consistent (hkeys.consistent h)⟩
  | case3 decoder hidle => exact ⟨rfl, rfl, rfl, id⟩

/-- When nothing is taken nothing is left. -/
theorem takeRecovered_none (decoder : Decoder) :
    (takeRecovered decoder).1 = none →
      (takeRecovered decoder).2.recovery.hasPending = false := by
  fun_induction takeRecovered decoder with
  | case1 decoder hpending event next hstep => simp
  | case2 decoder hpending next hstep ih => exact ih
  | case3 decoder hidle => exact fun _ => by simpa using hidle

/-- A drain is what one takes and then a drain. -/
theorem drain_takeRecovered (decoder : Decoder) :
    (drain decoder).1 =
      (takeRecovered decoder).1.toList ++ (drain (takeRecovered decoder).2).1 := by
  rcases htake : takeRecovered decoder with ⟨_ | event, next⟩
  · have hidle := takeRecovered_none decoder (by rw [htake])
    rw [htake] at hidle
    rw [drain, htake, drain_idle hidle]
    rfl
  · rw [drain, htake]
    rfl

end Decoder

end Hid

end Wiiland
