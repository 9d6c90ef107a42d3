/-
The descriptors of a controller, seen as a mask.  Opening and closing inputs one by one
does to the mask what the model of masks says, with the same result.
-/
import Wiiland.Hid.DeviceRuns

namespace Wiiland

namespace Hid

namespace Device

namespace Interface

/-- The mask of the open inputs. -/
def mask (iface : Interface) : Hid.Interface := ⟨iface.opened⟩

theorem ifBits_slots : ifBits = (List.finRange 10).map ifBit := by
  decide

/-- What trying to open one input comes to, whatever is done to the others. -/
theorem openOne_error {iface middle : Interface} {i : Fin 10}
    (hsame : middle.inputs i = iface.inputs i) (ifaces : InterfaceMask)
    (answers : OpenAnswers) :
    (middle.openOne ifaces i answers).1 = (iface.openOne ifaces i answers).1 := by
  unfold openOne
  rw [hsame]
  split
  · rfl
  · split
    · rfl
    · split
      · rfl
      · unfold openInput
        split
        · rfl
        · split
          · rfl
          · simp only
            split
            · rfl
            · split
              · split <;> rfl
              · rfl

theorem openOne_negative {iface : Interface} {ifaces : InterfaceMask} {i : Fin 10}
    {answers : OpenAnswers} {errno : Int}
    (herror : (iface.openOne ifaces i answers).1 = some errno) : errno < 0 := by
  have hattempt := openOne_attempted iface ifaces i answers
  generalize iface.openOne ifaces i answers = result at herror hattempt
  cases hattempt with
  | skipped => cases herror
  | refused errno hnegative => exact Option.some.inj herror ▸ hnegative
  | dropped errno input hnegative => exact Option.some.inj herror ▸ hnegative
  | opened => cases herror

/-- The error of opening one input, when it fails. -/
def attempt (iface : Interface) (ifaces : InterfaceMask) (answers : Fin 10 → OpenAnswers)
    (i : Fin 10) : Option Errno :=
  match herror : (iface.openOne ifaces i (answers i)).1 with
  | none => none
  | some errno => some ⟨errno, openOne_negative herror⟩

theorem attempt_code (iface : Interface) (ifaces : InterfaceMask)
    (answers : Fin 10 → OpenAnswers) (i : Fin 10) :
    (iface.attempt ifaces answers i).map Errno.code =
      (iface.openOne ifaces i (answers i)).1 := by
  unfold attempt
  split <;> rename_i herror <;> exact herror.symm

/-- The attempts, by the bits of the inputs. -/
def attempts (iface : Interface) (ifaces : InterfaceMask) (answers : Fin 10 → OpenAnswers) :
    Attempts := fun bit =>
  ((List.finRange 10).find? fun i => ifBit i = bit).bind (iface.attempt ifaces answers)

theorem attempts_ifBit (iface : Interface) (ifaces : InterfaceMask)
    (answers : Fin 10 → OpenAnswers) (i : Fin 10) :
    iface.attempts ifaces answers (ifBit i) = iface.attempt ifaces answers i := by
  have hfind : (List.finRange 10).find? (fun j => ifBit j = ifBit i) = some i := by
    revert i
    decide
  rw [attempts, hfind, Option.bind_some]

theorem opened_update {iface next : Interface} {i : Fin 10} {input : InputInterface}
    (hinputs : next.inputs = Function.update iface.inputs i input) (hopen : 0 ≤ input.fd) :
    next.opened = iface.opened.union (ifBit i) := by
  apply InterfaceMask.ext
  intro k
  rw [Bool.eq_iff_iff, InterfaceMask.has_union, Bool.or_eq_true, opened_has, opened_has, hinputs]
  constructor
  · rintro ⟨j, hj, hbit⟩
    by_cases hsame : j = i
    · subst hsame
      exact Or.inr hbit
    · rw [Function.update_of_ne hsame] at hj
      exact Or.inl ⟨j, hj, hbit⟩
  · rintro (⟨j, hj, hbit⟩ | hbit)
    · by_cases hsame : j = i
      · subst hsame
        exact ⟨j, by rwa [Function.update_self], hbit⟩
      · exact ⟨j, by rwa [Function.update_of_ne hsame], hbit⟩
    · exact ⟨i, by rwa [Function.update_self], hbit⟩

theorem opened_congr {iface next : Interface}
    (hopen : ∀ i, 0 ≤ (next.inputs i).fd ↔ 0 ≤ (iface.inputs i).fd) :
    next.opened = iface.opened := by
  apply InterfaceMask.ext
  intro k
  rw [Bool.eq_iff_iff, opened_has, opened_has]
  simp only [hopen]

/-- One attempt does to the mask what the model of masks does. -/
theorem openOne_mask {start iface : Interface} {i : Fin 10}
    (hsame : iface.inputs i = start.inputs i) (ifaces : InterfaceMask)
    (answers : Fin 10 → OpenAnswers) (first : Int) :
    let step := openStep ifaces answers (iface, first) i
    Hid.Interface.openOne (ifaces.inter .all) (start.attempts ifaces answers)
        (iface.opened, first) (ifBit i) = (step.1.opened, step.2) ∧
      ∀ j, j ≠ i → step.1.inputs j = iface.inputs j := by
  have hcode := attempt_code start ifaces answers i
  rw [← openOne_error hsame] at hcode
  have hattempt := openOne_attempted iface ifaces i (answers i)
  have hskips : (((ifaces.inter .all).inter (ifBit i)).isEmpty ||
      !(iface.opened.inter (ifBit i)).isEmpty) = true ↔
      ifaces.has (ifPosition i) = false ∨ 0 ≤ (iface.inputs i).fd := by
    rw [inter_ifBit, inter_ifBit, InterfaceMask.has_inter, all_has, Bool.and_true, Bool.not_not,
      Bool.or_eq_true, Bool.not_eq_true', opened_ifPosition]
  have hgoes : ifaces.has (ifPosition i) = true → (iface.inputs i).fd < 0 →
      ¬(ifaces.has (ifPosition i) = false ∨ 0 ≤ (iface.inputs i).fd) := by
    rintro hwanted hclosed (hunwanted | hopen)
    · exact Bool.false_ne_true (hunwanted.symm.trans hwanted)
    · exact Int.not_lt.mpr hopen hclosed
  intro step
  have hstep : step = openStep ifaces answers (iface, first) i := rfl
  clear_value step
  rw [Hid.Interface.openOne, attempts_ifBit]
  simp only [openStep] at hstep
  generalize iface.openOne ifaces i (answers i) = result at hcode hattempt hstep
  subst hstep
  cases hattempt with
  | skipped hskip =>
      rw [if_pos (hskips.mpr hskip)]
      exact ⟨rfl, fun _ _ => rfl⟩
  | refused errno _ hwanted hclosed _ =>
      obtain ⟨error, hattempt, rfl⟩ := Option.map_eq_some_iff.mp hcode
      rw [if_neg fun h => hgoes hwanted hclosed (hskips.mp h), hattempt]
      exact ⟨rfl, fun _ _ => rfl⟩
  | dropped errno input _ hwanted hclosed _ hinput =>
      obtain ⟨error, hattempt, rfl⟩ := Option.map_eq_some_iff.mp hcode
      rw [if_neg fun h => hgoes hwanted hclosed (hskips.mp h), hattempt]
      refine ⟨?_, fun j hne => setInput_other _ hne _⟩
      simp only
      rw [opened_congr]
      intro j
      by_cases hj : j = i
      · subst hj
        rw [setInput_self]
        exact iff_of_false (Int.not_le.mpr hclosed) (Int.not_le.mpr (InputInterface.close_fd _))
      · rw [setInput_other _ hj]
  | opened path fd keys abs next hwanted hclosed _ _ _ hinputs _ _ =>
      have hnone := Option.map_eq_none_iff.mp hcode
      rw [if_neg fun h => hgoes hwanted hclosed (hskips.mp h), hnone]
      refine ⟨?_, fun j hne => ?_⟩
      · simp only
        rw [opened_update hinputs (Int.natCast_nonneg fd)]
      · rw [hinputs, Function.update_of_ne hne]

theorem foldl_openOne_mask (start : Interface) (ifaces : InterfaceMask)
    (answers : Fin 10 → OpenAnswers) {slots : List (Fin 10)} (hnodup : slots.Nodup)
    (iface : Interface) (first : Int)
    (hsame : ∀ i ∈ slots, iface.inputs i = start.inputs i) :
    let last := slots.foldl (openStep ifaces answers) (iface, first)
    (slots.map ifBit).foldl
        (Hid.Interface.openOne (ifaces.inter .all) (start.attempts ifaces answers))
        (iface.opened, first) = (last.1.opened, last.2) := by
  induction slots generalizing iface first with
  | nil => rfl
  | cons i rest ih =>
      obtain ⟨hnotin, hrest⟩ := List.nodup_cons.mp hnodup
      obtain ⟨hmask, hothers⟩ :=
        openOne_mask (hsame i List.mem_cons_self) ifaces answers first
      rw [List.map_cons, List.foldl_cons, List.foldl_cons, hmask]
      refine ih hrest _ _ fun j hj => ?_
      have hne : j ≠ i := by
        rintro rfl
        exact hnotin hj
      exact (hothers j hne).trans (hsame j (List.mem_cons_of_mem i hj))

/-- The mask of the open inputs after closing. -/
theorem close_mask (iface : Interface) (ifaces : InterfaceMask) :
    (iface.close ifaces).mask = iface.mask.close ifaces := by
  have hopened : (iface.close ifaces).opened =
      iface.opened.diff (ifaces.inter .all) := by
    apply InterfaceMask.ext
    intro k
    rw [Bool.eq_iff_iff, InterfaceMask.has_diff, Bool.and_eq_true, Bool.not_eq_true',
      InterfaceMask.has_inter, opened_has, opened_has]
    constructor
    · rintro ⟨i, hopen, hbit⟩
      have hstays := close_open hopen
      have hposition := ifBit_has hbit
      rw [hstays] at hopen
      refine ⟨⟨i, hopen, hbit⟩, ?_⟩
      rw [← hposition, all_has, Bool.and_true, ← Bool.not_eq_true]
      intro hasked
      rw [close_inputs, if_pos ⟨hasked, hopen⟩] at hstays
      exact Int.not_lt.mpr hopen (hstays ▸ InputInterface.close_fd _)
    · rintro ⟨⟨i, hopen, hbit⟩, hunasked⟩
      rw [← ifBit_has hbit, all_has, Bool.and_true] at hunasked
      refine ⟨i, ?_, hbit⟩
      rwa [close_inputs, if_neg fun h => Bool.false_ne_true (hunasked.symm.trans h.1)]
  exact congrArg Hid.Interface.mk hopened

/-- The descriptors refine the masks: opening and closing a controller's inputs does to
the mask of the open ones, and returns, what the model of masks does with the outcome of
each attempt. -/
theorem mask_refines (iface : Interface) (ifaces : InterfaceMask)
    (answers : Fin 10 → OpenAnswers) :
    ((iface.open_ ifaces answers).1, (iface.open_ ifaces answers).2.mask) =
        iface.mask.open_ ifaces (iface.attempts ifaces answers) ∧
      (iface.close ifaces).mask = iface.mask.close ifaces := by
  refine ⟨?_, close_mask iface ifaces⟩
  have hfold := foldl_openOne_mask iface ifaces answers (List.nodup_finRange 10) iface 0
    fun _ _ => rfl
  rw [← ifBits_slots] at hfold
  have hall : iface.mask.openAll ifaces (iface.attempts ifaces answers) =
      (_, _) := hfold
  rw [Hid.Interface.open_, hall]
  rfl

end Interface

end Device

end Hid

end Wiiland
