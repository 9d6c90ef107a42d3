/-
What a consumer of decoded events knows of the buttons: the fold of the button
events it has seen, against the decoder's tracked kernel key state.
-/
import Mathlib.Data.List.Nodup
import Wiiland.Hid.Decode

namespace Wiiland

namespace Hid

open WordSet (Words)

def keyTable : InterfaceKind → List (Nat × Button)
  | .core => coreKeys
  | .nunchuk => nunchukKeys
  | .classic => classicKeys
  | .pro => proKeys
  | .drums => drumsKeys
  | .guitar => guitarKeys
  | _ => []

theorem mapKey_eq_lookup (kind : InterfaceKind) (code : Nat) :
    mapKey kind code = (keyTable kind).lookup code := by
  cases kind <;> rfl

theorem keyTable_buttons_nodup (kind : InterfaceKind) :
    ((keyTable kind).map Prod.snd).Nodup := by
  cases kind <;> decide

theorem keyTable_codes_lt (kind : InterfaceKind) :
    ∀ entry ∈ keyTable kind, entry.1 < keyWords * 64 := by
  cases kind <;> decide

theorem mem_keyTable {kind : InterfaceKind} {code : Nat} {button : Button}
    (hmap : mapKey kind code = some button) : (code, button) ∈ keyTable kind := by
  rw [mapKey_eq_lookup, List.lookup_eq_some_iff] at hmap
  obtain ⟨before, after, hsplit, _⟩ := hmap
  rw [hsplit]
  exact List.mem_append_right before List.mem_cons_self

/-- Two codes of one interface never share a button. -/
theorem mapKey_injective {kind : InterfaceKind} {first second : Nat} {button : Button}
    (hfirst : mapKey kind first = some button)
    (hsecond : mapKey kind second = some button) : first = second := by
  have hpair := List.inj_on_of_nodup_map (keyTable_buttons_nodup kind)
    (mem_keyTable hfirst) (mem_keyTable hsecond) rfl
  exact congrArg Prod.fst hpair

/-- Every mapped code is one of the 768 tracked ones. -/
theorem mapKey_lt {kind : InterfaceKind} {code : Nat} {button : Button}
    (hmap : mapKey kind code = some button) : code < keyWords * 64 :=
  keyTable_codes_lt kind _ (mem_keyTable hmap)

/-- The button event an event carries. -/
def EventKind.button : EventKind → Option ButtonEvent
  | .key event => some event
  | .proControllerKey event => some event
  | .classicControllerKey event => some event
  | .nunchukKey event => some event
  | .drumsKey event => some event
  | .guitarKey event => some event
  | _ => none

theorem keyKind_button {kind : InterfaceKind} {code : Nat} {button : Button}
    (hmap : mapKey kind code = some button) (state : ButtonState) :
    ∃ key, keyKind kind ⟨button, state⟩ = some key ∧
      key.button = some ⟨button, state⟩ := by
  cases kind with
  | core | nunchuk | classic | pro | drums | guitar => exact ⟨_, rfl, rfl⟩
  | accel | ir | motionPlus | balanceBoard =>
      exact absurd hmap (Option.some_ne_none button).symm

/-- The buttons a consumer believes to be held. -/
abbrev View := Button → Bool

def observe (view : View) (event : Event) : View :=
  match event.kind.button with
  | some change => Function.update view change.button (change.state != .released)
  | none => view

def observeAll (view : View) (events : List Event) : View := events.foldl observe view

@[simp] theorem observeAll_none (view : View) :
    observeAll view (none : Option Event).toList = view := rfl

@[simp] theorem observeAll_some (view : View) (event : Event) :
    observeAll view (some event).toList = observe view event := rfl

/-- The buttons a kernel key snapshot holds on an interface. -/
def snapshotView (kind : InterfaceKind) (keys : Words keyWords 64) : View := fun button =>
  (List.range (keyWords * 64)).any fun code =>
    mapKey kind code == some button && WordSet.mem keys code

theorem observeAll_append (view : View) (first second : List Event) :
    observeAll view (first ++ second) = observeAll (observeAll view first) second :=
  List.foldl_append

theorem snapshotView_mapped {kind : InterfaceKind} {code : Nat} {button : Button}
    (hmap : mapKey kind code = some button) (keys : Words keyWords 64) :
    snapshotView kind keys button = WordSet.mem keys code := by
  rw [Bool.eq_iff_iff, snapshotView, List.any_eq_true]
  constructor
  · rintro ⟨other, _, hother⟩
    rw [Bool.and_eq_true, beq_iff_eq] at hother
    rw [mapKey_injective hmap hother.1]
    exact hother.2
  · intro hmem
    refine ⟨code, List.mem_range.mpr (mapKey_lt hmap), ?_⟩
    rw [hmap, hmem]
    simp

theorem snapshotView_unmapped {kind : InterfaceKind} {button : Button}
    (hunmapped : ∀ code, mapKey kind code ≠ some button) (keys : Words keyWords 64) :
    snapshotView kind keys button = false := by
  rw [snapshotView, List.any_eq_false]
  intro code _ hboth
  rw [Bool.and_eq_true, beq_iff_eq] at hboth
  exact hunmapped code hboth.1

/-- A view is a snapshot's when it agrees on every mapped code and holds nothing
else. -/
theorem eq_snapshotView {kind : InterfaceKind} {view : View} {keys : Words keyWords 64}
    (hmapped : ∀ code button, mapKey kind code = some button →
      view button = WordSet.mem keys code)
    (hunmapped : ∀ button, (∀ code, mapKey kind code ≠ some button) →
      view button = false) : view = snapshotView kind keys := by
  funext button
  by_cases hcode : ∃ code, mapKey kind code = some button
  · obtain ⟨code, hmap⟩ := hcode
    rw [snapshotView_mapped hmap, hmapped code button hmap]
  · have hnone : ∀ code, mapKey kind code ≠ some button := fun code hmap =>
      hcode ⟨code, hmap⟩
    rw [snapshotView_unmapped hnone, hunmapped button hnone]

/-- Changing one mapped bit changes the view of its button. -/
theorem snapshotView_update {kind : InterfaceKind} {code : Nat} {button : Button}
    (hmap : mapKey kind code = some button) {before after : Words keyWords 64}
    {held : Bool}
    (hafter : ∀ other, WordSet.mem after other =
      if other = code then held else WordSet.mem before other) :
    Function.update (snapshotView kind before) button held =
      snapshotView kind after := by
  apply eq_snapshotView
  · intro other changed hother
    rw [hafter]
    by_cases hcode : other = code
    · subst hcode
      rw [hmap] at hother
      cases hother
      simp
    · have hne : changed ≠ button := by
        intro heq
        rw [heq] at hother
        exact hcode (mapKey_injective hother hmap)
      rw [Function.update_of_ne hne, snapshotView_mapped hother, if_neg hcode]
  · intro other hnone
    have hne : other ≠ button := fun heq => hnone code (heq ▸ hmap)
    rw [Function.update_of_ne hne, snapshotView_unmapped hnone]

/-- Changing an unmapped bit changes no button. -/
theorem snapshotView_ignored {kind : InterfaceKind} {code : Nat}
    (hmap : mapKey kind code = none) {before after : Words keyWords 64}
    (hafter : ∀ other, other ≠ code →
      WordSet.mem after other = WordSet.mem before other) :
    snapshotView kind before = snapshotView kind after := by
  apply eq_snapshotView
  · intro other button hother
    have hne : other ≠ code := by
      rintro rfl
      rw [hmap] at hother
      exact absurd hother (Option.some_ne_none button).symm
    rw [snapshotView_mapped hother, hafter other hne]
  · intro button hnone
    exact snapshotView_unmapped hnone before

namespace Decoder

/-- The consumer's view is the decoder's tracked key state. -/
structure Tracks (kind : InterfaceKind) (view : View) (decoder : Decoder) : Prop where
  interface : decoder.interface = kind
  view : view = snapshotView kind decoder.recovery.keyState

@[simp] theorem updateAbs_recovery (decoder : Decoder) (code : Nat) (value : Int) :
    (decoder.updateAbs code value).recovery = decoder.recovery := rfl

@[simp] theorem updateAbs_interface (decoder : Decoder) (code : Nat) (value : Int) :
    (decoder.updateAbs code value).interface = decoder.interface := rfl

@[simp] theorem updateAll_recovery (decoder : Decoder) (abs : List (Nat × Int)) :
    (decoder.updateAll abs).recovery = decoder.recovery := by
  induction abs generalizing decoder with
  | nil => rfl
  | cons axis rest ih => exact ih (decoder.updateAbs axis.1 axis.2)

@[simp] theorem updateAll_interface (decoder : Decoder) (abs : List (Nat × Int)) :
    (decoder.updateAll abs).interface = decoder.interface := by
  induction abs generalizing decoder with
  | nil => rfl
  | cons axis rest ih => exact ih (decoder.updateAbs axis.1 axis.2)

@[simp] theorem report_recovery (decoder : Decoder) (time : Timeval) :
    (decoder.report time).2.recovery = decoder.recovery := by
  unfold report
  split <;> rfl

@[simp] theorem report_interface (decoder : Decoder) (time : Timeval) :
    (decoder.report time).2.interface = decoder.interface := by
  unfold report
  split <;> rfl

/-- A report carries no button. -/
theorem report_button {decoder : Decoder} {time : Timeval} {event : Event}
    (hreport : (decoder.report time).1 = some event) : event.kind.button = none := by
  unfold report at hreport
  split at hreport <;> cases hreport <;> rfl

theorem observeAll_report (view : View) (decoder : Decoder) (time : Timeval) :
    observeAll view (decoder.report time).1.toList = view := by
  cases hreport : (decoder.report time).1 with
  | none => rfl
  | some event =>
      rw [observeAll_some, observe, report_button hreport]

theorem decodeKey_unmapped {decoder : Decoder} {input : InputEvent}
    (hmap : mapKey decoder.interface input.code = none) :
    decoder.decodeKey input = none := by
  rw [decodeKey, hmap]
  rfl

theorem decodeKey_ignored {decoder : Decoder} {input : InputEvent}
    (hvalue : keyValueState input.value = none) : decoder.decodeKey input = none := by
  rw [decodeKey, hvalue]
  cases mapKey decoder.interface input.code <;> rfl

/-- A mapped code with a key value decodes to its button's event. -/
theorem decodeKey_mapped {decoder : Decoder} {input : InputEvent} {button : Button}
    {state : ButtonState} (hmap : mapKey decoder.interface input.code = some button)
    (hvalue : keyValueState input.value = some state) :
    ∃ key, keyKind decoder.interface ⟨button, state⟩ = some key ∧
      key.button = some ⟨button, state⟩ ∧
      decoder.decodeKey input = some ⟨Timestamp.fromTimeval input.time, key⟩ := by
  obtain ⟨key, hkey, hbutton⟩ := keyKind_button hmap state
  refine ⟨key, hkey, hbutton, ?_⟩
  rw [decodeKey, hmap, hvalue]
  simp [hkey]

theorem keyValueState_isSome (value : Int) :
    (keyValueState value).isSome = true ↔ 0 ≤ value ∧ value ≤ 2 := by
  unfold keyValueState
  split
  · simp [*]
  · split
    · simp [*]
    · split
      · simp [*]
      · simp only [Option.isSome_none, Bool.false_eq_true, false_iff]
        omega

theorem keyValueState_released {value : Int} {state : ButtonState}
    (hvalue : keyValueState value = some state) : state = .released ↔ value = 0 := by
  unfold keyValueState at hvalue
  split at hvalue
  · cases hvalue
    simp [*]
  · split at hvalue
    · cases hvalue
      simp [*]
    · split at hvalue
      · cases hvalue
        simp [*]
      · cases hvalue

theorem remember_ignored {recovery : RecoveryState} {input : InputEvent}
    (hvalue : keyValueState input.value = none) : recovery.remember input = recovery := by
  have hrange : ¬(0 ≤ input.value ∧ input.value ≤ 2) := by
    rw [← keyValueState_isSome, hvalue]
    exact Bool.false_ne_true
  rw [RecoveryState.remember, if_pos (Or.inr (Or.inr hrange))]

/-- The tracked bit of a remembered key. -/
theorem mem_remember {recovery : RecoveryState} {input : InputEvent}
    {state : ButtonState} (hkey : input.eventType = evKey)
    (hvalue : keyValueState input.value = some state)
    (hcode : input.code < keyWords * 64) (other : Nat) :
    WordSet.mem (recovery.remember input).keyState other =
      if other = input.code then state != .released
      else WordSet.mem recovery.keyState other := by
  have hrange : 0 ≤ input.value ∧ input.value ≤ 2 := by
    rw [← keyValueState_isSome, hvalue]
    rfl
  have hguard : ¬(input.eventType ≠ evKey ∨ keyWords * 64 ≤ input.code ∨
      ¬(0 ≤ input.value ∧ input.value ≤ 2)) := by
    rintro (htype | hge | hvalue)
    · exact htype hkey
    · omega
    · exact hvalue hrange
  have hword : input.code / 64 < keyWords :=
    (Nat.div_lt_iff_lt_mul (by decide)).mpr hcode
  have hreleased := keyValueState_released hvalue
  rw [RecoveryState.remember, if_neg hguard]
  by_cases hzero : input.value = 0
  · rw [if_pos hzero, WordSet.mem_erase _ hword, hreleased.mpr hzero]
    by_cases hother : other = input.code <;> simp [hother]
  · have hheld : (state != .released) = true := by
      rw [bne_iff_ne]
      exact fun h => hzero (hreleased.mp h)
    rw [if_neg hzero, WordSet.mem_insert _ (by decide) hword, hheld]
    by_cases hother : other = input.code <;> simp [hother]

/-- A key beyond the tracked range is not remembered. -/
theorem remember_out_of_range {recovery : RecoveryState} {input : InputEvent}
    (hcode : keyWords * 64 ≤ input.code) : recovery.remember input = recovery := by
  rw [RecoveryState.remember, if_pos (Or.inr (Or.inl hcode))]

/-- A key input keeps the view: its event tells what the key state remembers. -/
theorem Tracks.key {kind : InterfaceKind} {view : View} {decoder : Decoder}
    (htracks : Tracks kind view decoder) {input : InputEvent}
    (hkey : input.eventType = evKey) :
    observeAll view
        (decodeKey { decoder with recovery := decoder.recovery.remember input }
          input).toList =
      snapshotView kind (decoder.recovery.remember input).keyState := by
  have hview := htracks.view
  have hkind := htracks.interface
  cases hvalue : keyValueState input.value with
  | none =>
      rw [decodeKey_ignored hvalue, remember_ignored hvalue, observeAll_none, hview]
  | some state =>
      cases hmap : mapKey kind input.code with
      | none =>
          rw [decodeKey_unmapped (by rw [hkind]; exact hmap), observeAll_none, hview]
          by_cases hcode : input.code < keyWords * 64
          · apply snapshotView_ignored hmap
            intro other hother
            rw [mem_remember hkey hvalue hcode, if_neg hother]
          · rw [remember_out_of_range (Nat.le_of_not_lt hcode)]
      | some button =>
          rw [← hkind] at hmap
          obtain ⟨key, _, hbutton, hdecode⟩ := @decodeKey_mapped
            { decoder with recovery := decoder.recovery.remember input } input _ _ hmap hvalue
          rw [hkind] at hmap
          rw [hdecode, observeAll_some, hview, observe, hbutton]
          exact snapshotView_update hmap
            (mem_remember hkey hvalue (mapKey_lt hmap))

/-- Every pushed event keeps the view. -/
theorem Tracks.push {kind : InterfaceKind} {view : View} {decoder : Decoder}
    (htracks : Tracks kind view decoder) (input : InputEvent) :
    Tracks kind (observeAll view (decoder.push input).1.toList)
      (decoder.push input).2 := by
  unfold Decoder.push
  split
  · exact htracks
  · split
    · exact ⟨htracks.interface, htracks.view⟩
    · split
      · rename_i hkey
        exact ⟨htracks.interface, htracks.key hkey⟩
      · split
        · exact ⟨htracks.interface, htracks.view⟩
        · split
          · rw [observeAll_report]
            exact ⟨by rw [report_interface]; exact htracks.interface,
              by rw [report_recovery]; exact htracks.view⟩
          · exact htracks

def pushAll (decoder : Decoder) : List InputEvent → List Event × Decoder
  | [] => ([], decoder)
  | input :: rest =>
      ((decoder.push input).1.toList ++ (pushAll (decoder.push input).2 rest).1,
        (pushAll (decoder.push input).2 rest).2)

theorem Tracks.pushAll {kind : InterfaceKind} {view : View} {decoder : Decoder}
    (htracks : Tracks kind view decoder) (inputs : List InputEvent) :
    Tracks kind (observeAll view (decoder.pushAll inputs).1)
      (decoder.pushAll inputs).2 := by
  induction inputs generalizing view decoder with
  | nil => exact htracks
  | cons input rest ih =>
      have hnext := ih (htracks.push input)
      rw [← observeAll_append] at hnext
      exact hnext

/-- A consumer that starts from the seeded snapshot starts in step. -/
theorem tracks_seedState (kind : InterfaceKind) (keys : List (BitVec 64))
    (abs : List (Nat × Int)) :
    Tracks kind (snapshotView kind (snapshotWords keys))
      ((Decoder.new kind).seedState keys abs) := by
  constructor
  · rw [seedState]
    exact updateAll_interface _ abs
  · rfl

/-- A desynced decoder emits nothing and stands still. -/
theorem pushAll_desynced {decoder : Decoder}
    (hdesynced : decoder.recovery.desynced = true) (inputs : List InputEvent) :
    decoder.pushAll inputs = ([], decoder) := by
  have hpush : ∀ input, decoder.push input = (none, decoder) := by
    intro input
    rw [Decoder.push, if_pos hdesynced]
  induction inputs with
  | nil => rfl
  | cons input rest ih =>
      rw [Decoder.pushAll, hpush]
      simp only
      rw [ih]
      rfl

end Decoder

end Hid

end Wiiland
