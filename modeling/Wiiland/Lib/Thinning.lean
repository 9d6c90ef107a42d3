/-
Thinned lists.  A list is thinned when some of its entries that may be given up are
left out and all others are kept in their order.
-/
import Mathlib.Data.List.Perm.Basic

namespace Thinning

universe u

variable {A : Type u} {spare : A → Bool} {whole kept lost : List A}

/-- Erasing at the place of the first entry that passes a test. -/
theorem eraseIdx_of_findIdx? {test : A → Bool} {entries : List A} {index : Nat}
    (hfound : entries.findIdx? test = some index) :
    ∃ older entry newer, entries = older ++ entry :: newer ∧
      entries.eraseIdx index = older ++ newer ∧ test entry = true ∧
      ∀ old ∈ older, test old = false := by
  induction entries generalizing index with
  | nil => rw [List.findIdx?_nil] at hfound; cases hfound
  | cons head tail ih =>
      rw [List.findIdx?_cons] at hfound
      split at hfound
      · next hhead =>
        obtain rfl := Option.some.inj hfound
        exact ⟨[], head, tail, rfl, rfl, hhead, fun _ hold => absurd hold List.not_mem_nil⟩
      · next hhead =>
        obtain ⟨place, hplace, rfl⟩ := Option.map_eq_some_iff.mp hfound
        obtain ⟨older, entry, newer, hsplit, herase, hentry, holder⟩ := ih hplace
        refine ⟨head :: older, entry, newer, ?_, ?_, hentry, ?_⟩
        · rw [hsplit]
          rfl
        · rw [List.eraseIdx_cons_succ, herase]
          rfl
        · rw [List.forall_mem_cons]
          exact ⟨Bool.not_eq_true _ ▸ hhead, holder⟩

/-- `kept` is `whole` without the entries of `lost`, all of which may be spared. -/
structure Thinned (spare : A → Bool) (whole kept lost : List A) : Prop where
  inOrder : kept.Sublist whole
  exact : whole.Perm (kept ++ lost)
  spared : ∀ entry ∈ lost, spare entry = true

theorem thinned_nil : Thinned spare [] [] [] :=
  ⟨List.Sublist.refl _, List.Perm.refl _, fun _ hentry => absurd hentry List.not_mem_nil⟩

namespace Thinned

theorem concat (hthinned : Thinned spare whole kept lost) (entry : A) :
    Thinned spare (whole ++ [entry]) (kept ++ [entry]) lost := by
  refine ⟨hthinned.inOrder.append_right [entry], ?_, hthinned.spared⟩
  have hswap : (lost ++ [entry]).Perm ([entry] ++ lost) := List.perm_append_comm
  calc (whole ++ [entry]).Perm (kept ++ lost ++ [entry]) := hthinned.exact.append_right _
    List.Perm _ (kept ++ [entry] ++ lost) := by
      rw [List.append_assoc, List.append_assoc]
      exact hswap.append_left kept

/-- An entry that is not kept at all. -/
theorem skip (hthinned : Thinned spare whole kept lost) {entry : A}
    (hspare : spare entry = true) :
    Thinned spare (whole ++ [entry]) kept (lost ++ [entry]) := by
  refine ⟨hthinned.inOrder.trans (List.sublist_append_left _ _), ?_, ?_⟩
  · rw [← List.append_assoc]
    exact hthinned.exact.append_right _
  · rw [List.forall_mem_append, List.forall_mem_singleton]
    exact ⟨hthinned.spared, hspare⟩

/-- An entry that was kept and is now given up. -/
theorem remove {older newer : List A} {entry : A}
    (hthinned : Thinned spare whole (older ++ entry :: newer) lost)
    (hspare : spare entry = true) :
    Thinned spare whole (older ++ newer) (lost ++ [entry]) := by
  refine ⟨?_, ?_, ?_⟩
  · have hless : (older ++ newer).Sublist (older ++ entry :: newer) :=
      (List.sublist_cons_self entry newer).append_left older
    exact hless.trans hthinned.inOrder
  · have hmoved : (entry :: newer ++ lost).Perm (newer ++ (lost ++ [entry])) := by
      rw [← List.append_assoc]
      exact (List.perm_append_singleton entry (newer ++ lost)).symm
    have hexact := hthinned.exact
    rw [List.append_assoc] at hexact ⊢
    exact hexact.trans (hmoved.append_left older)
  · rw [List.forall_mem_append, List.forall_mem_singleton]
    exact ⟨hthinned.spared, hspare⟩

/-- What may not be spared is all there, in order. -/
theorem filter_eq (hthinned : Thinned spare whole kept lost) :
    kept.filter (fun entry => !spare entry) = whole.filter (fun entry => !spare entry) := by
  have hnone : lost.filter (fun entry => !spare entry) = [] := by
    rw [List.filter_eq_nil_iff]
    intro entry hentry
    rw [hthinned.spared entry hentry]
    exact Bool.false_ne_true
  have hlength := (hthinned.exact.filter fun entry => !spare entry).length_eq
  rw [List.filter_append, hnone, List.append_nil] at hlength
  exact (hthinned.inOrder.filter _).eq_of_length hlength.symm

theorem countP_eq (hthinned : Thinned spare whole kept lost) :
    whole.countP spare = kept.countP spare + lost.length := by
  rw [hthinned.exact.countP_eq, List.countP_append,
    List.countP_eq_length.mpr hthinned.spared]

theorem eq_of_lost_nil (hthinned : Thinned spare whole kept []) : kept = whole := by
  have hlength := hthinned.exact.length_eq
  rw [List.append_nil] at hlength
  exact hthinned.inOrder.eq_of_length hlength.symm

end Thinned

end Thinning
