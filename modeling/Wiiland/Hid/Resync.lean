/-
Rounds of kernel buffer overruns.  In each, events are lost after the drop, the
kernel snapshot is recovered and drained, and the consumer ends at the snapshot.
-/
import Wiiland.Hid.Axes
import Wiiland.Hid.Recovery

namespace Wiiland

namespace Hid

open WordSet (Words)

/-- The event that tells a consumer of a changed key: none for an unmapped code
or a button that is already right. -/
def keyChange (kind : InterfaceKind) (view : View) (keys : Words keyWords 64)
    (time : Timeval) (code : Nat) : Option Event := do
  let button ← mapKey kind code
  if view button = WordSet.mem keys code then none
  else
    let state := if WordSet.mem keys code then .pressed else .released
    let key ← keyKind kind ⟨button, state⟩
    pure ⟨Timestamp.fromTimeval time, key⟩

/-- The changed keys of a snapshot in code order. -/
def changedKeys (kind : InterfaceKind) (view : View) (keys : Words keyWords 64)
    (time : Timeval) : List Event :=
  (List.range (keyWords * 64)).filterMap (keyChange kind view keys time)

theorem keyChange_cases (kind : InterfaceKind) (view : View) (keys : Words keyWords 64)
    (time : Timeval) (code : Nat) :
    (∃ button event, mapKey kind code = some button ∧
      view button ≠ WordSet.mem keys code ∧
      keyChange kind view keys time code = some event ∧
      event.time = Timestamp.fromTimeval time ∧
      ∀ seen, observe seen event =
        Function.update seen button (WordSet.mem keys code)) ∨
    (keyChange kind view keys time code = none ∧
      ∀ button, mapKey kind code = some button →
        view button = WordSet.mem keys code) := by
  cases hmap : mapKey kind code with
  | none =>
      refine Or.inr ⟨?_, fun button h => absurd h (Option.some_ne_none button).symm⟩
      rw [keyChange, hmap]
      rfl
  | some button =>
      by_cases hsame : view button = WordSet.mem keys code
      · refine Or.inr ⟨?_, ?_⟩
        · rw [keyChange, hmap]
          exact if_pos hsame
        · intro other hother
          cases hother
          exact hsame
      · obtain ⟨key, hkey, hbutton⟩ := keyKind_button hmap
          (if WordSet.mem keys code then .pressed else .released)
        refine Or.inl ⟨button, ⟨Timestamp.fromTimeval time, key⟩, rfl, hsame, ?_,
          rfl, ?_⟩
        · rw [keyChange, hmap]
          change (if _ then _ else _) = _
          rw [if_neg hsame, hkey]
          rfl
        · intro seen
          rw [observe, hbutton]
          cases WordSet.mem keys code <;> rfl

/-- What folding the changes of some codes does to one mapped button. -/
theorem observeAll_changes {kind : InterfaceKind} {code : Nat} {button : Button}
    (hmap : mapKey kind code = some button) (view : View) (keys : Words keyWords 64)
    (time : Timeval) (codes : List Nat) (seen : View) :
    observeAll seen (codes.filterMap (keyChange kind view keys time)) button =
      if code ∈ codes ∧ view button ≠ WordSet.mem keys code then
        WordSet.mem keys code
      else seen button := by
  induction codes generalizing seen with
  | nil => simp [observeAll]
  | cons head rest ih =>
      rcases keyChange_cases kind view keys time head with
        ⟨changed, event, hhead, hdiffers, hchange, _, hobserve⟩ | ⟨hchange, hsame⟩
      · rw [List.filterMap_cons_some hchange, observeAll, List.foldl_cons,
          ← observeAll, ih, hobserve]
        by_cases hcode : code = head
        · subst hcode
          rw [hmap] at hhead
          cases hhead
          simp [hdiffers]
        · have hne : button ≠ changed := by
            rintro rfl
            exact hcode (mapKey_injective hmap hhead)
          rw [Function.update_of_ne hne]
          simp [hcode]
      · rw [List.filterMap_cons_none hchange, ih]
        by_cases hcode : code = head
        · subst hcode
          simp [hsame button hmap]
        · simp [hcode]

theorem observeAll_changes_unmapped {kind : InterfaceKind} {button : Button}
    (hunmapped : ∀ code, mapKey kind code ≠ some button) (view : View)
    (keys : Words keyWords 64) (time : Timeval) (codes : List Nat) (seen : View) :
    observeAll seen (codes.filterMap (keyChange kind view keys time)) button =
      seen button := by
  induction codes generalizing seen with
  | nil => rfl
  | cons head rest ih =>
      rcases keyChange_cases kind view keys time head with
        ⟨changed, event, hhead, _, hchange, _, hobserve⟩ | ⟨hchange, _⟩
      · have hne : button ≠ changed := by
          rintro rfl
          exact hunmapped head hhead
        rw [List.filterMap_cons_some hchange, observeAll, List.foldl_cons,
          ← observeAll, ih, hobserve, Function.update_of_ne hne]
      · rw [List.filterMap_cons_none hchange, ih]

/-- Folding the changed keys brings the consumer to the snapshot. -/
theorem observeAll_changedKeys (kind : InterfaceKind) (before after : Words keyWords 64)
    (time : Timeval) :
    observeAll (snapshotView kind before)
        (changedKeys kind (snapshotView kind before) after time) =
      snapshotView kind after := by
  apply eq_snapshotView
  · intro code button hmap
    have hrange : code ∈ List.range (keyWords * 64) := List.mem_range.mpr (mapKey_lt hmap)
    rw [changedKeys, observeAll_changes hmap]
    by_cases hsame : snapshotView kind before button = WordSet.mem after code
    · rw [if_neg fun h => h.2 hsame, hsame]
    · rw [if_pos ⟨hrange, hsame⟩]
  · intro button hunmapped
    rw [changedKeys, observeAll_changes_unmapped hunmapped,
      snapshotView_unmapped hunmapped]

theorem changedKeys_time {kind : InterfaceKind} {view : View} {keys : Words keyWords 64}
    {time : Timeval} : ∀ event ∈ changedKeys kind view keys time,
      event.time = Timestamp.fromTimeval time := by
  intro event hevent
  obtain ⟨code, _, hchange⟩ := List.mem_filterMap.mp hevent
  rcases keyChange_cases kind view keys time code with
    ⟨_, other, _, _, hother, htime, _⟩ | ⟨hnone, _⟩
  · rw [hchange] at hother
    cases hother
    exact htime
  · rw [hnone] at hchange
    cases hchange

theorem RecoveryState.seed_consistent (recovery : RecoveryState)
    (keys : List (BitVec 64)) (time : Timeval) (hasAbs : Bool) :
    (recovery.seed keys time hasAbs).Consistent := by
  intro hnone
  rw [RecoveryState.seed, List.any_eq_false] at hnone
  funext i
  have hzero := hnone i (List.mem_range.mpr i.isLt)
  rw [bne_iff_ne, not_not, WordSet.wordAt, dif_pos i.isLt] at hzero
  exact hzero

namespace Decoder

@[simp] theorem recover_interface (decoder : Decoder) (keys : List (BitVec 64))
    (abs : List (Nat × Int)) (time : Timeval) :
    (decoder.recover keys abs time).interface = decoder.interface :=
  updateAll_interface decoder abs

theorem recover_recovery (decoder : Decoder) (keys : List (BitVec 64))
    (abs : List (Nat × Int)) (time : Timeval) :
    (decoder.recover keys abs time).recovery =
      decoder.recovery.seed keys time (!(absCodes decoder.interface).isEmpty) := by
  simp only [recover, updateAll_recovery, updateAll_interface]

theorem keyValueState_bit (held : Bool) :
    keyValueState (if held then 1 else 0) =
      some (if held then .pressed else .released) := by
  cases held <;> rfl

/-- A pending key decodes to the consumer's change; a settled key needs none. -/
theorem decodeKey_pending {decoder : Decoder} {view : View}
    (hview : view = snapshotView decoder.interface decoder.recovery.keyState)
    (keys : List (BitVec 64)) (abs : List (Nat × Int)) (time : Timeval) (code : Nat) :
    (if WordSet.mem (decoder.recover keys abs time).recovery.keyPending code then
      (decoder.recover keys abs time).decodeKey
        (pendingInput (decoder.recover keys abs time).recovery code)
    else none) = keyChange decoder.interface view (snapshotWords keys) time code := by
  have hpending : WordSet.mem (decoder.recover keys abs time).recovery.keyPending code =
      (WordSet.mem decoder.recovery.keyState code !=
        WordSet.mem (snapshotWords keys) code) := by
    rw [recover_recovery]
    exact WordSet.mem_symmDiff _ _ code
  rw [hpending]
  cases hmap : mapKey decoder.interface code with
  | none =>
      rw [decodeKey_unmapped (by rw [recover_interface]; exact hmap), ite_self, keyChange,
        hmap]
      rfl
  | some button =>
      have hheld : view button = WordSet.mem decoder.recovery.keyState code := by
        rw [hview, snapshotView_mapped hmap]
      rw [keyChange, hmap]
      change _ = if view button = WordSet.mem (snapshotWords keys) code then none else _
      rw [hheld]
      by_cases hsame : WordSet.mem decoder.recovery.keyState code =
          WordSet.mem (snapshotWords keys) code
      · rw [if_pos hsame, hsame]
        simp
      · have hmapped : mapKey (decoder.recover keys abs time).interface code =
            some button := by
          rw [recover_interface]
          exact hmap
        obtain ⟨key, hkey, _, hdecode⟩ := @decodeKey_mapped (decoder.recover keys abs time)
          (pendingInput (decoder.recover keys abs time).recovery code) _ _ hmapped
          (keyValueState_bit _)
        rw [recover_interface, recover_recovery] at hkey
        rw [if_pos (by simpa using hsame), if_neg hsame, hdecode]
        change _ = (keyKind decoder.interface _).bind _
        rw [show keyKind decoder.interface ⟨button,
          if WordSet.mem (snapshotWords keys) code then .pressed else .released⟩ =
            some key from hkey, recover_recovery]
        rfl

/-- A report does not read the recovery state. -/
theorem report_withRecovery (decoder : Decoder) (recovery : RecoveryState)
    (time : Timeval) :
    (report { decoder with recovery } time).1 = (decoder.report time).1 := by
  rcases decoder with ⟨interface, cache, old, motionPlus⟩
  cases interface <;> rfl

theorem lastReport_recover (decoder : Decoder) (keys : List (BitVec 64))
    (abs : List (Nat × Int)) (time : Timeval) :
    (decoder.recover keys abs time).lastReport.1 =
      ((decoder.updateAll abs).report time).1 := by
  have hsome := report_isSome (decoder.updateAll abs) time
  rw [updateAll_interface] at hsome
  have hflag : (decoder.recover keys abs time).recovery.reportResyncPending =
      !(absCodes decoder.interface).isEmpty := by
    rw [recover_recovery]
    rfl
  rw [lastReport, hflag]
  cases hempty : (absCodes decoder.interface).isEmpty with
  | true =>
      rw [hempty] at hsome
      exact (Option.isSome_eq_false_iff.mp hsome |> Option.isNone_iff_eq_none.mp).symm
  | false => exact report_withRecovery (decoder.updateAll abs) _ time

/-- The events of a drained recovery: the changed keys, then the report. -/
theorem drain_recover {decoder : Decoder} {view : View}
    (hview : view = snapshotView decoder.interface decoder.recovery.keyState)
    (keys : List (BitVec 64)) (abs : List (Nat × Int)) (time : Timeval) :
    (drain (decoder.recover keys abs time)).1 =
      changedKeys decoder.interface view (snapshotWords keys) time ++
        ((decoder.updateAll abs).report time).1.toList := by
  have hconsistent : (decoder.recover keys abs time).recovery.Consistent := by
    rw [recover_recovery]
    exact RecoveryState.seed_consistent _ _ _ _
  have hkeys : (WordSet.members (decoder.recover keys abs time).recovery.keyPending
        ).filterMap (fun code => (decoder.recover keys abs time).decodeKey
          (pendingInput (decoder.recover keys abs time).recovery code)) =
      changedKeys decoder.interface view (snapshotWords keys) time := by
    rw [WordSet.members, List.filterMap_filter, changedKeys]
    apply List.filterMap_congr
    intro code _
    exact decodeKey_pending hview keys abs time code
  rw [drain_eq hconsistent, hkeys, lastReport_recover]

theorem drain_interface {decoder : Decoder}
    (hconsistent : decoder.recovery.Consistent) :
    (drain decoder).2.interface = decoder.interface := by
  rw [drain_eq hconsistent, lastReport]
  split
  · rw [report_interface]
  · rfl

theorem drain_keyState {decoder : Decoder}
    (hconsistent : decoder.recovery.Consistent) :
    (drain decoder).2.recovery.keyState = decoder.recovery.keyState := by
  rw [drain_eq hconsistent, lastReport]
  split
  · rw [report_recovery]
    rfl
  · rfl

end Decoder

/-- One overrun: the events before the drop, the events lost after it, and the
snapshot the kernel is asked for. -/
structure Round where
  before : List InputEvent
  dropTime : Timeval
  dropValue : Int
  lost : List InputEvent
  keys : List (BitVec 64)
  abs : List (Nat × Int)
  time : Timeval

/-- What a consumer sees of one round. -/
structure RoundTrace where
  live : List Event
  lost : List Event
  recovered : List Event
  desynced : Decoder
  final : Decoder

def RoundTrace.events (trace : RoundTrace) : List Event :=
  trace.live ++ trace.lost ++ trace.recovered

namespace Round

def drop (round : Round) : InputEvent where
  time := round.dropTime
  eventType := evSyn
  code := synDropped
  value := round.dropValue

def run (round : Round) (decoder : Decoder) : RoundTrace :=
  let live := decoder.pushAll round.before
  let lost := live.2.pushAll (round.drop :: round.lost)
  let recovered := (lost.2.recover round.keys round.abs round.time).drain
  { live := live.1
    lost := lost.1
    recovered := recovered.1
    desynced := lost.2
    final := recovered.2 }

/-- The recovery of a round, from what the consumer held before it. -/
structure Exact (kind : InterfaceKind) (round : Round) (view : View)
    (trace : RoundTrace) (report : Option Event) : Prop where
  lost : trace.lost = []
  recovered : trace.recovered =
    changedKeys kind view (snapshotWords round.keys) round.time ++ report.toList
  times : ∀ event ∈ trace.recovered, event.time = Timestamp.fromTimeval round.time
  converged : observeAll view trace.recovered =
    snapshotView kind (snapshotWords round.keys)
  reported : report.isSome = true ↔ absCodes kind ≠ []
  axes : ∀ event, report = some event →
    event.kind.button = none ∧
    event.kind.axes.map Prod.fst = absCodes kind ∧
    event.kind.axes =
      carriedAxes kind trace.desynced.motionPlus
        (recoveredAxes trace.desynced.cached.axes round.abs)
  drained : trace.final.takeRecovered = (none, trace.final)

/-- The lost events leave the decoder as the drop found it, and silent. -/
theorem pushAll_drop (round : Round) (decoder : Decoder) :
    decoder.pushAll (round.drop :: round.lost) =
      ([], { decoder with recovery := decoder.recovery.dropped }) := by
  have hdropped : decoder.push round.drop =
      (none, { decoder with recovery := decoder.recovery.dropped }) := by
    rcases decoder with ⟨interface, cache, recovery, motionPlus⟩
    cases hdesynced : recovery.desynced with
    | true =>
        rw [Decoder.push, if_pos hdesynced]
        rcases recovery with ⟨keys, pending, desynced, keyFlag, reportFlag, time⟩
        cases hdesynced
        rfl
    | false =>
        rw [Decoder.push, if_neg (by simp [hdesynced]), if_pos ⟨rfl, rfl⟩]
  rw [Decoder.pushAll, hdropped]
  simp only
  rw [Decoder.pushAll_desynced rfl]
  rfl

open Decoder (Tracks)

/-- A round brings a consumer that is in step to the recovered snapshot. -/
theorem run_exact {kind : InterfaceKind} {view : View} {decoder : Decoder}
    (htracks : Tracks kind view decoder) (round : Round) :
    (∃ report, round.Exact kind (observeAll view (round.run decoder).live)
      (round.run decoder) report) ∧
    Tracks kind (observeAll view (round.run decoder).events)
      (round.run decoder).final := by
  have hlive := htracks.pushAll round.before
  have hlost := round.pushAll_drop (decoder.pushAll round.before).2
  set live := decoder.pushAll round.before with hlive_def
  set desynced : Decoder := { live.2 with recovery := live.2.recovery.dropped }
    with hdesynced
  have hrun : round.run decoder =
      { live := live.1
        lost := []
        recovered := (desynced.recover round.keys round.abs round.time).drain.1
        desynced := desynced
        final := (desynced.recover round.keys round.abs round.time).drain.2 } := by
    rw [Round.run, ← hlive_def, hlost]
  have hkind : desynced.interface = kind := hlive.interface
  have hview : observeAll view live.1 =
      snapshotView desynced.interface desynced.recovery.keyState := by
    rw [hkind]
    exact hlive.view
  have hrecovered := Decoder.drain_recover hview round.keys round.abs round.time
  have hconsistent :
      (desynced.recover round.keys round.abs round.time).recovery.Consistent := by
    rw [Decoder.recover_recovery]
    exact RecoveryState.seed_consistent _ _ _ _
  have hconverged : observeAll (observeAll view live.1)
      (desynced.recover round.keys round.abs round.time).drain.1 =
      snapshotView kind (snapshotWords round.keys) := by
    rw [hrecovered, observeAll_append, Decoder.observeAll_report, hview, hkind]
    exact observeAll_changedKeys kind _ _ _
  rw [hrun]
  refine ⟨⟨((desynced.updateAll round.abs).report round.time).1, ?_⟩, ?_⟩
  · constructor
    · rfl
    · rw [hrecovered, hkind]
    · intro event hevent
      rw [hrecovered, List.mem_append] at hevent
      rcases hevent with hkey | hreport
      · exact changedKeys_time event hkey
      · exact (Decoder.report_axes (Option.mem_toList.mp hreport)).1
    · exact hconverged
    · rw [Decoder.report_isSome, Decoder.updateAll_interface, hkind]
      simp
    · intro event hreport
      have haxes := (Decoder.report_axes hreport).2
      have hcodes := Decoder.report_codes hreport
      rw [Decoder.updateAll_interface, hkind] at haxes hcodes
      rw [Decoder.updateAll_motionPlus, Decoder.cached_updateAll] at haxes
      exact ⟨Decoder.report_button hreport, hcodes, haxes⟩
    · exact Decoder.takeRecovered_drained hconsistent
  · constructor
    · rw [Decoder.drain_interface hconsistent, Decoder.recover_interface, hkind]
    · rw [Decoder.drain_keyState hconsistent, RoundTrace.events, List.append_nil,
        observeAll_append, hconverged, Decoder.recover_recovery]
      rfl

end Round

def runRounds (decoder : Decoder) : List Round → List Event × Decoder
  | [] => ([], decoder)
  | round :: rest =>
      ((round.run decoder).events ++ (runRounds (round.run decoder).final rest).1,
        (runRounds (round.run decoder).final rest).2)

theorem runRounds_tracks {kind : InterfaceKind} {view : View} {decoder : Decoder}
    (htracks : Decoder.Tracks kind view decoder) (rounds : List Round) :
    Decoder.Tracks kind (observeAll view (runRounds decoder rounds).1)
      (runRounds decoder rounds).2 := by
  induction rounds generalizing view decoder with
  | nil => exact htracks
  | cons round rest ih =>
      have hnext := ih (round.run_exact htracks).2
      rw [← observeAll_append] at hnext
      exact hnext

/-- Every round of every run is recovered exactly: a consumer that starts from
the seed ends at the kernel snapshot. -/
theorem recovery_exact (kind : InterfaceKind) (keys : List (BitVec 64))
    (abs : List (Nat × Int)) (rounds : List Round) (round : Round) :
    let earlier := runRounds ((Decoder.new kind).seedState keys abs) rounds
    let trace := round.run earlier.2
    let view := observeAll (snapshotView kind (snapshotWords keys))
      (earlier.1 ++ trace.live)
    ∃ report, round.Exact kind view trace report := by
  intro earlier trace view
  have hstart := Decoder.tracks_seedState kind keys abs
  have hearlier := runRounds_tracks hstart rounds
  have hview : view = observeAll (observeAll (snapshotView kind (snapshotWords keys))
      earlier.1) trace.live := observeAll_append _ _ _
  rw [hview]
  exact (round.run_exact hearlier).1

end Hid

end Wiiland
