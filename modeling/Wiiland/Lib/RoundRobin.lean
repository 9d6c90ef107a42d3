/-
Queues served in turn.  The parties stand in line; each service takes one item from
the first of them that has any, and those up to it go to the back of the line.
-/
import Mathlib.Algebra.Order.BigOperators.Group.List
import Mathlib.Algebra.Order.Group.Nat
import Mathlib.Algebra.Order.Ring.Nat
import Mathlib.Logic.Function.Basic

namespace RoundRobin

universe u v

variable {I : Type u} {A : Type v}

/-- The parties in the order of their turns, and what waits at each of them. -/
structure Line (I : Type u) (A : Type v) where
  order : List I
  queues : I → List A

/-- How many items wait in all. -/
def Line.total (line : Line I A) : Nat :=
  (line.order.map fun i => (line.queues i).length).sum

theorem total_eq_zero_iff (line : Line I A) :
    line.total = 0 ↔ ∀ i ∈ line.order, line.queues i = [] := by
  rw [Line.total, List.sum_eq_zero_iff]
  simp only [List.mem_map, forall_exists_index, and_imp, forall_apply_eq_imp_iff₂,
    List.length_eq_zero_iff]

variable [DecidableEq I]

/-- Look for the first party with an item; the idle ones passed so far follow it. -/
def look (queues : I → List A) (idle : List I) : List I → Option (I × A) × Line I A
  | [] => (none, ⟨idle, queues⟩)
  | i :: rest =>
      match queues i with
      | [] => look queues (idle ++ [i]) rest
      | item :: more =>
          (some (i, item), ⟨rest ++ idle ++ [i], Function.update queues i more⟩)

def serve (line : Line I A) : Option (I × A) × Line I A :=
  look line.queues [] line.order

/-- Serve at most so many times; stop when no party has an item. -/
def serves : Nat → Line I A → List (I × A) × Line I A
  | 0, line => ([], line)
  | n + 1, line =>
      match serve line with
      | (some served, next) => (served :: (serves n next).1, (serves n next).2)
      | (none, next) => ([], next)

theorem serves_some {line next : Line I A} {served : I × A} (n : Nat)
    (hserve : serve line = (some served, next)) :
    serves (n + 1) line = (served :: (serves n next).1, (serves n next).2) := by
  rw [serves, hserve]

theorem serves_none {line next : Line I A} (n : Nat)
    (hserve : serve line = (none, next)) : serves (n + 1) line = ([], next) := by
  rw [serves, hserve]

theorem look_cases (queues : I → List A) (idle rest : List I)
    (hidle : ∀ i ∈ idle, queues i = []) :
    ((∀ i ∈ idle ++ rest, queues i = []) ∧
      look queues idle rest = (none, ⟨idle ++ rest, queues⟩)) ∨
    ∃ before i after item more, idle ++ rest = before ++ i :: after ∧
      (∀ j ∈ before, queues j = []) ∧ queues i = item :: more ∧
      look queues idle rest =
        (some (i, item), ⟨after ++ before ++ [i], Function.update queues i more⟩) := by
  induction rest generalizing idle with
  | nil =>
      left
      rw [List.append_nil]
      exact ⟨hidle, rfl⟩
  | cons i rest ih =>
      cases hqueue : queues i with
      | nil =>
          have hpassed : ∀ j ∈ idle ++ [i], queues j = [] := by
            intro j hj
            rcases List.mem_append.mp hj with hj | hj
            · exact hidle j hj
            · rw [List.mem_singleton.mp hj, hqueue]
          have hstep : look queues idle (i :: rest) = look queues (idle ++ [i]) rest := by
            rw [look, hqueue]
          rw [hstep, List.append_cons]
          exact ih (idle ++ [i]) hpassed
      | cons item more =>
          right
          refine ⟨idle, i, rest, item, more, rfl, hidle, hqueue, ?_⟩
          rw [look, hqueue]

/-- A service finds nothing only when nothing waits; else it takes the first item of
the first party that has one. -/
theorem serve_cases (line : Line I A) :
    ((∀ i ∈ line.order, line.queues i = []) ∧ serve line = (none, line)) ∨
    ∃ before i after item more, line.order = before ++ i :: after ∧
      (∀ j ∈ before, line.queues j = []) ∧ line.queues i = item :: more ∧
      serve line = (some (i, item),
        ⟨after ++ before ++ [i], Function.update line.queues i more⟩) :=
  look_cases line.queues [] line.order fun _ hmem => absurd hmem List.not_mem_nil

theorem serves_idle (n : Nat) {line : Line I A}
    (hempty : ∀ i ∈ line.order, line.queues i = []) : serves n line = ([], line) := by
  cases n with
  | zero => rfl
  | succ n =>
      rcases serve_cases line with
        ⟨_, hserve⟩ | ⟨before, i, after, item, more, horder, _, hqueue, _⟩
      · exact serves_none n hserve
      · have hnone := hempty i (by rw [horder]; simp)
        rw [hqueue] at hnone
        cases hnone

theorem serves_add (n m : Nat) (line : Line I A) :
    serves (n + m) line =
      ((serves n line).1 ++ (serves m (serves n line).2).1,
        (serves m (serves n line).2).2) := by
  induction n generalizing line with
  | zero => rw [Nat.zero_add, serves, List.nil_append]
  | succ n ih =>
      rw [Nat.add_right_comm]
      rcases serve_cases line with ⟨hempty, _⟩ | ⟨_, _, _, _, _, _, _, _, hserve⟩
      · rw [serves_idle _ hempty, serves_idle _ hempty, serves_idle _ hempty]
        rfl
      · rw [serves_some _ hserve, serves_some _ hserve, ih]
        rfl

theorem length_serves (n : Nat) (line : Line I A) : (serves n line).1.length ≤ n := by
  induction n generalizing line with
  | zero => exact Nat.le_refl 0
  | succ n ih =>
      rcases serve_cases line with ⟨_, hserve⟩ | ⟨_, _, _, _, _, _, _, _, hserve⟩
      · rw [serves_none n hserve]
        exact Nat.zero_le _
      · rw [serves_some n hserve]
        exact Nat.succ_le_succ (ih _)

/-- What was served to a party and what still waits there is what waited before. -/
theorem serves_queue (n : Nat) (line : Line I A) (i : I) :
    ((serves n line).1.filter fun served => served.1 = i).map Prod.snd ++
      (serves n line).2.queues i = line.queues i := by
  induction n generalizing line with
  | zero => rfl
  | succ n ih =>
      rcases serve_cases line with ⟨_, hserve⟩ |
          ⟨before, j, after, item, more, _, _, hqueue, hserve⟩
      · rw [serves_none n hserve]
        rfl
      · rw [serves_some n hserve]
        have hrest := ih ⟨after ++ before ++ [j], Function.update line.queues j more⟩
        by_cases hparty : j = i
        · subst hparty
          simp only [Function.update_self] at hrest
          rw [List.filter_cons_of_pos (by simp), List.map_cons, List.cons_append, hrest, hqueue]
        · simp only [Function.update_of_ne (Ne.symm hparty)] at hrest
          rw [List.filter_cons_of_neg (by simpa using hparty), hrest]

theorem total_serve {line next : Line I A} {served : I × A} (hnodup : line.order.Nodup)
    (hserve : serve line = (some served, next)) :
    next.order.Perm line.order ∧ line.total = next.total + 1 := by
  rcases serve_cases line with ⟨_, hnone⟩ |
      ⟨before, i, after, item, more, horder, _, hqueue, hsome⟩
  · rw [hnone] at hserve
    cases hserve
  · rw [hsome] at hserve
    cases hserve
    have hother : ∀ part : List I, i ∉ part →
        (part.map fun j => (Function.update line.queues i more j).length) =
          part.map fun j => (line.queues j).length := by
      intro part hpart
      apply List.map_congr_left
      intro j hj
      have hother : j ≠ i := by
        rintro rfl
        exact hpart hj
      rw [Function.update_of_ne hother]
    rw [horder] at hnodup
    have hafter : i ∉ after := (List.nodup_cons.mp (List.nodup_append.mp hnodup).2.1).1
    have hbefore : i ∉ before := fun hmem =>
      (List.nodup_append.mp hnodup).2.2 i hmem i List.mem_cons_self rfl
    constructor
    · rw [horder, List.append_assoc]
      refine (List.perm_append_comm).trans ?_
      rw [List.append_assoc, List.singleton_append]
    · simp only [Line.total, horder, List.map_append, List.map_cons, List.map_nil,
        List.sum_append, List.sum_cons, List.sum_nil, hother after hafter,
        hother before hbefore, Function.update_self, hqueue, List.length_cons]
      omega

/-- So many services leave so many items fewer, and the parties are the same. -/
theorem total_serves (n : Nat) {line : Line I A} (hnodup : line.order.Nodup) :
    (serves n line).2.total = line.total - n ∧
      (serves n line).2.order.Perm line.order := by
  induction n generalizing line with
  | zero => exact ⟨rfl, List.Perm.refl _⟩
  | succ n ih =>
      rcases hserve : serve line with ⟨_ | served, next⟩
      · rcases serve_cases line with ⟨hempty, hnone⟩ | ⟨_, _, _, _, _, _, _, _, hsome⟩
        · rw [hnone] at hserve
          cases hserve
          rw [serves_none n hnone, (total_eq_zero_iff line).mpr hempty, Nat.zero_sub]
          exact ⟨rfl, List.Perm.refl _⟩
        · rw [hsome] at hserve
          cases hserve
      · obtain ⟨hperm, htotal⟩ := total_serve hnodup hserve
        obtain ⟨hrest, horder⟩ := @ih next (hperm.nodup_iff.mpr hnodup)
        rw [serves_some n hserve, hrest, htotal]
        exact ⟨by omega, horder.trans hperm⟩

/-- Nothing is left when everything has been served. -/
theorem serves_all {line : Line I A} (hnodup : line.order.Nodup) {n : Nat}
    (henough : line.total ≤ n) {i : I} (hi : i ∈ line.order) :
    (serves n line).2.queues i = [] := by
  obtain ⟨htotal, hperm⟩ := total_serves n hnodup
  have hzero : (serves n line).2.total = 0 := by omega
  exact (total_eq_zero_iff _).mp hzero i (hperm.mem_iff.mpr hi)

/-- More services than there are items serve nothing more. -/
theorem serves_enough {line : Line I A} (hnodup : line.order.Nodup) {n : Nat}
    (henough : line.total ≤ n) (m : Nat) : (serves (n + m) line).1 = (serves n line).1 := by
  have hempty : ∀ i ∈ (serves n line).2.order, (serves n line).2.queues i = [] := fun i hi =>
    serves_all hnodup henough ((total_serves n hnodup).2.mem_iff.mp hi)
  rw [serves_add, serves_idle m hempty, List.append_nil]

/-- A party with an item is served by the time its turn in the line comes. -/
theorem serves_turn {line : Line I A} {before after : List I} {j : I}
    (horder : line.order = before ++ j :: after) {item : A} {more : List A}
    (hqueue : line.queues j = item :: more) {n : Nat} (hn : before.length < n) :
    (j, item) ∈ (serves n line).1 := by
  induction n generalizing line before after with
  | zero => omega
  | succ n ih =>
      rcases serve_cases line with ⟨hempty, _⟩ |
          ⟨idle, i, rest, first, others, hsplit, hidle, hserved, hserve⟩
      · have hnone := hempty j (by rw [horder]; simp)
        rw [hqueue] at hnone
        cases hnone
      · rw [serves_some n hserve]
        by_cases hparty : i = j
        · subst hparty
          rw [hqueue] at hserved
          cases hserved
          exact List.mem_cons_self
        · apply List.mem_cons_of_mem
          rw [horder] at hsplit
          rcases List.append_eq_append_iff.mp hsplit with ⟨mid, hmid, hrest⟩ |
              ⟨mid, hmid, hrest⟩
          · cases mid with
            | nil =>
                rw [List.nil_append] at hrest
                exact absurd (List.cons.inj hrest).1.symm hparty
            | cons head tail =>
                obtain ⟨rfl, _⟩ := List.cons.inj hrest
                have hnone := hidle j (by rw [hmid]; simp)
                rw [hqueue] at hnone
                cases hnone
          · cases mid with
            | nil =>
                rw [List.nil_append] at hrest
                exact absurd (List.cons.inj hrest).1 hparty
            | cons head tail =>
                obtain ⟨rfl, hafter⟩ := List.cons.inj hrest
                have horder' : rest ++ idle ++ [i] = tail ++ j :: (after ++ idle ++ [i]) := by
                  rw [hafter]
                  simp
                apply ih horder'
                · simp only [Function.update_of_ne (Ne.symm hparty), hqueue]
                · rw [hmid, List.length_append, List.length_cons] at hn
                  omega

/-- Within one round every party with an item is served. -/
theorem serves_round {line : Line I A} (hnodup : line.order.Nodup) {j : I}
    (hj : j ∈ line.order) (hwaits : line.queues j ≠ []) {n : Nat} (henough : line.total ≤ n) :
    ∃ item, (j, item) ∈ (serves n line).1.take line.order.length := by
  obtain ⟨before, after, horder⟩ := List.append_of_mem hj
  obtain ⟨item, more, hqueue⟩ := List.exists_cons_of_ne_nil hwaits
  have hlength : before.length < line.order.length := by
    rw [horder, List.length_append, List.length_cons]
    omega
  have hserved := serves_turn horder hqueue hlength
  refine ⟨item, ?_⟩
  rw [← serves_enough hnodup henough line.order.length, Nat.add_comm n, serves_add,
    List.take_append]
  refine List.mem_append_left _ ?_
  rwa [List.take_of_length_le (length_serves _ _)]

end RoundRobin
